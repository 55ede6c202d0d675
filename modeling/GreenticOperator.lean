import GreenticOperator.Domains.Manifest
import GreenticOperator.Hooks.Dispatch
import GreenticOperator.Hooks.InPlace
import GreenticOperator.Laws.Capabilities.Order
import GreenticOperator.Laws.Capabilities.Readiness
import GreenticOperator.Laws.CapabilityEvents.Replay
import GreenticOperator.Laws.Cli.CapabilityCall
import GreenticOperator.Laws.Cli.DomainCommand
import GreenticOperator.Laws.Cli.Policy
import GreenticOperator.Laws.Cli.RunPlan
import GreenticOperator.Laws.Cli.Select
import GreenticOperator.Laws.Demo.Back
import GreenticOperator.Laws.Demo.Repl
import GreenticOperator.Laws.Demo.SelfContained
import GreenticOperator.Laws.Demo.TimerScheduler
import GreenticOperator.Laws.Deployments.Drain
import GreenticOperator.Laws.Deployments.Origin
import GreenticOperator.Laws.Deployments.TrustBoundary
import GreenticOperator.Laws.Domains.Doctor
import GreenticOperator.Laws.Domains.Identity
import GreenticOperator.Laws.Gmap.Exact
import GreenticOperator.Laws.Gmap.Runs
import GreenticOperator.Laws.Cards
import GreenticOperator.Laws.Hooks.Cache
import GreenticOperator.Laws.Hooks.Dispatch
import GreenticOperator.Laws.Hooks.Fold
import GreenticOperator.Laws.Hooks.Stop
import GreenticOperator.Laws.Hooks.Unchanged
import GreenticOperator.Laws.HttpIngress.Status
import GreenticOperator.Laws.HttpIngress.TelegramForm
import GreenticOperator.Laws.MessagingUniversal.Backoff
import GreenticOperator.Laws.MessagingUniversal.Egress
import GreenticOperator.Laws.Offers.Keys
import GreenticOperator.Laws.Offers.Readers
import GreenticOperator.Laws.Onboard.Aliases
import GreenticOperator.Laws.Onboard.Submit
import GreenticOperator.Laws.Onboard.WebexConverges
import GreenticOperator.Laws.Onboard.WebhookUrl
import GreenticOperator.Laws.Project.Mirror
import GreenticOperator.Laws.ProviderConfig.ConfigSchema
import GreenticOperator.Laws.ProviderConfig.Drift
import GreenticOperator.Laws.ProviderRegistry
import GreenticOperator.Laws.Providers.Failed
import GreenticOperator.Laws.QaPersist.Aliases
import GreenticOperator.Laws.QaPersist.Emitted
import GreenticOperator.Laws.QaPersist.Found
import GreenticOperator.Laws.QaPersist.PackConfigInput
import GreenticOperator.Laws.RunnerHost.Extraction
import GreenticOperator.Laws.RunnerHost.Isolation
import GreenticOperator.Laws.RunnerHost.OneDomain
import GreenticOperator.Laws.RuntimeState.Atomic
import GreenticOperator.Laws.SecretsGate.Fallback
import GreenticOperator.Laws.StatePaths
import GreenticOperator.Laws.StaticRoutes.Contained
import GreenticOperator.Laws.StaticRoutes.Reserved
import GreenticOperator.Laws.Subscriptions.Desired
import GreenticOperator.Laws.Subscriptions.Renewal
import GreenticOperator.Laws.Wizard.Answers
import GreenticOperator.Laws.Wizard.Changes
import GreenticOperator.Laws.Wizard.Discovered
import GreenticOperator.Laws.Wizard.InStep
import GreenticOperator.Laws.Wizard.PackId
import GreenticOperator.Laws.Wizard.PackReference
import GreenticOperator.Laws.Wizard.PlanExecution
import GreenticOperator.Laws.Wizard.Providers
import GreenticOperator.Laws.Wizard.Records
import GreenticOperator.Laws.Wizard.References
import GreenticOperator.Laws.Wizard.Remove
import GreenticOperator.Laws.Wizard.Replay
import GreenticOperator.Laws.Wizard.Tasks
import GreenticOperator.Lib.Directory
import GreenticOperator.Wizard.Execute
import GreenticOperator.Wizard.PackId
import GreenticOperator.Wizard.Plan
import GreenticOperator.Wizard.Store
import GreenticOperator.Laws.Supervisor
import GreenticOperator.Laws.HttpIngress.SignIn
import GreenticOperator.Onboard.Providers
import GreenticOperator.Laws.Onboard.Access
import GreenticOperator.Laws.SecretsSetup
