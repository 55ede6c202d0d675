import GreenticOperator.Cli.Select
import GreenticOperator.Wizard.Execute

/-!
# The setup of a domain, and of all after a wizard

`src/cli.rs`. A command for a domain plans the flows of the packs that it discovers, of which some are left out,
and runs the plan. A wizard that is to set up what it installed runs the command for all domains, one after another,
and names the packs by the ids that it gave them; where there is none to name, it names none.

Reading the file with the answers, and running a plan, are given by how they end.
-/

namespace Cli

open Domains
open Wizard (WizardExecutionReport ResolvedPackInfo sortDedup)

structure DomainRunArgs where
  domain : Domain
  action : DomainAction
  providerFilter : Option String
  dryRun : Bool
  allowMissingSetup : Bool
  bestEffort : Bool
  /-- The paths of the packs of the providers that were detected, where that was done. -/
  discoveredProviders : Option (List String)
  setupInput : Option (Except String Unit)
  allowedProviders : Option (List String)
  preloadedSetupAnswers : Bool

/-- `filter_packs_by_allowed`: the packs that are left, and the ids that no pack has. -/
def filterPacksByAllowed (packs : List ProviderPack) (allowed : List String) : List ProviderPack × List String :=
  (packs.filter fun pack => allowed.contains pack.packId,
    allowed.filter fun value => !packs.any fun pack => pack.packId == value)

/-- The packs of a domain that a command is for, but for those that the setup of a domain may leave out. -/
def domainPacks (bundle : Bundle) (args : DomainRunArgs) : Except String (List ProviderPack) := do
  let packs ← bundle.packs
  let packs := match args.discoveredProviders with
    | some paths => byPath (packs.filter fun pack => paths.contains pack.path)
    | none => packs
  if bundle.isDemoBundle then
    match ← demoProviderFiles bundle.manifest args.domain with
    | some allowed => return packs.filter fun pack => allowed.contains pack.fileName
    | none => return packs
  else return packs

/-- The packs without those that have no setup flow, where all have to have one. -/
def withSetupFlow (args : DomainRunArgs) (packs : List ProviderPack) : Except String (List ProviderPack) :=
  let setupFlow := (flowsOf args.domain).setupFlow
  let missing := packs.filter fun pack => !pack.entryFlows.contains setupFlow
  if args.action = .Setup ∧ ¬missing.isEmpty ∧ ¬args.allowMissingSetup then
    if args.bestEffort then .ok (packs.filter fun pack => pack.entryFlows.contains setupFlow)
    else .error s!"missing {setupFlow} in packs: {fileNames missing}"
  else .ok packs

def withAllowed (args : DomainRunArgs) (packs : List ProviderPack) : List ProviderPack :=
  match args.allowedProviders with
  | some allowed => (filterPacksByAllowed packs allowed).1
  | none => packs

def loadSetupAnswers (args : DomainRunArgs) : Except String Unit :=
  if args.preloadedSetupAnswers then .ok ()
  else
    match args.setupInput with
    | some loaded => loaded
    | none => .ok ()

/-- `run_domain_command`, up to its plan. -/
def planDomain (bundle : Bundle) (args : DomainRunArgs) : Except String (List PlannedRun) := do
  let packs ← domainPacks bundle args
  let packs ← withSetupFlow args packs
  if packs.isEmpty then return []
  else do
    loadSetupAnswers args
    planRuns args.domain args.action (withAllowed args packs) args.providerFilter args.allowMissingSetup

/-- `run_domain_command`: what it planned, and how it ended. -/
def runDomainCommand (bundle : Bundle) (args : DomainRunArgs) (runPlan : List PlannedRun → Except String Unit) :
    List PlannedRun × Except String Unit :=
  match planDomain bundle args with
  | .error message => ([], .error message)
  | .ok plan => (plan, if plan.isEmpty ∨ args.dryRun then .ok () else runPlan plan)

/-! ## The packs of a wizard -/

/-- `setup_provider_ids`. -/
def setupProviderIds {α : Type} (report : WizardExecutionReport α) : List String :=
  sortDedup ((report.resolvedPacks.filter fun pack => pack.entryFlows.contains "setup_default").map (·.packId))

def allowedProviders {α : Type} (report : WizardExecutionReport α) : Option (List String) :=
  if (setupProviderIds report).isEmpty then none else some (setupProviderIds report)

/-- What the commands for a tenant and team find: the bundle, as each domain's command sees it, what becomes of reading
the answers, where a file with some was named, and of running a plan. -/
structure SetupTarget where
  bundle : Domain → Bundle
  setupInput : Option (Except String Unit)
  runPlan : Domain → List PlannedRun → Except String Unit

def wizardRunArgs (target : SetupTarget) (allowed : Option (List String)) (domain : Domain) : DomainRunArgs where
  domain := domain
  action := .Setup
  providerFilter := none
  dryRun := false
  allowMissingSetup := true
  bestEffort := true
  discoveredProviders := none
  setupInput := if allowed.isSome then none else target.setupInput
  allowedProviders := allowed
  preloadedSetupAnswers := allowed.isSome

def SetupTarget.command (target : SetupTarget) (allowed : Option (List String)) (domain : Domain) :
    List PlannedRun × Except String Unit :=
  runDomainCommand (target.bundle domain) (wizardRunArgs target allowed domain) (target.runPlan domain)

/-- The loop of `run_wizard_setup_for_target`: what is planned for each domain, and how it ends. -/
def runForDomains (target : SetupTarget) (allowed : Option (List String)) :
    List Domain → List (Domain × PlannedRun) × Except String Unit
  | [] => ([], .ok ())
  | domain :: rest =>
    match target.command allowed domain with
    | (plan, .error message) => (plan.map (domain, ·), .error message)
    | (plan, .ok ()) => (plan.map (domain, ·) ++ (runForDomains target allowed rest).1, (runForDomains target allowed rest).2)

def setupDomains : List Domain := [.Messaging, .Events, .Secrets, .OAuth]

def runWizardSetupForTarget (target : SetupTarget) (allowed : Option (List String)) :
    List (Domain × PlannedRun) × Except String Unit :=
  runForDomains target allowed setupDomains

end Cli
