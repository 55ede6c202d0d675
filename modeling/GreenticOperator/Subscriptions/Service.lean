import GreenticOperator.Lib.Eff
import GreenticOperator.RunnerHost.Types
import GreenticOperator.Subscriptions.Store

/-!
# The subscription service

`src/subscriptions_universal/service.rs`. Each operation builds the provider's input from a
request, calls the provider under the service's own context and reads a state off the
answer. The provider is a function of everything it was called with so far.
-/

namespace Subscriptions

open RunnerHost

structure SubscriptionEnsureRequest where
  bindingId : String
  resource : Option String
  changeTypes : List String
  notificationUrl : Option String
  clientState : Option String
  user : Option AuthUserRef
  expirationTargetUnixMs : Option UInt64
deriving DecidableEq, Repr

structure SubscriptionRenewRequest where
  bindingId : String
  subscriptionId : Option String
  user : Option AuthUserRef
  resource : Option String
  changeTypes : List String
  expirationTargetUnixMs : Option UInt64
deriving DecidableEq, Repr

structure SubscriptionDeleteRequest where
  bindingId : String
  subscriptionId : Option String
  user : Option AuthUserRef
deriving DecidableEq, Repr

/-- The inputs providers are called with, without the fields the operator always leaves
empty. -/
inductive ProviderInput
  | ensure (provider : String) (tenantHint : Option String) (teamHint : Option String)
      (bindingId : Option String) (resource : String) (changeTypes : List String)
      (notificationUrl : String) (expirationTargetUnixMs : Option UInt64)
      (clientState : Option String) (user : AuthUserRef)
  | renew (provider : String) (subscriptionId : String)
      (expirationTargetUnixMs : Option UInt64) (user : AuthUserRef)
  | delete (provider : String) (subscriptionId : String) (user : AuthUserRef)
deriving DecidableEq, Repr

structure Call where
  provider : String
  op : String
  payload : ProviderInput
  context : OperatorContext
deriving DecidableEq, Repr

/-- What a provider answers to a call, given the calls before it. -/
abbrev ProviderRunner := List Call → Call → Except String FlowOutcome

/-- A call of `renew_binding`: the state it was given and the request it made of it. -/
structure Attempt where
  state : SubscriptionState
  request : SubscriptionRenewRequest
deriving DecidableEq, Repr

/-- What the scheduler works on, with a record of what it did: the calls of providers, the
states written, each with its path, and the renewals tried. -/
structure World where
  disk : StateFiles
  calls : List Call
  writes : List (Disk.Path × SubscriptionState)
  attempts : List Attempt

structure SubscriptionService where
  runnerHost : ProviderRunner
  context : OperatorContext

namespace SubscriptionService

def invoke (service : SubscriptionService) (provider op : String) (payload : ProviderInput) :
    Eff World FlowOutcome := fun w =>
  let call : Call := { provider, op, payload, context := service.context }
  (service.runnerHost w.calls call, { w with calls := w.calls ++ [call] })

def ensureSuccess (outcome : FlowOutcome) : Except String FlowOutcome :=
  if outcome.success then .ok outcome
  else .error (outcome.error.getD "provider returned failure")

def defaultUserRef (service : SubscriptionService) : AuthUserRef :=
  let teamHint := service.context.team.getD "default"
  { userId := s!"{service.context.tenant}-{teamHint}"
    tokenKey := s!"operator-{teamHint}"
    tenantId := some service.context.tenant
    email := none
    displayName := none }

def buildEnsurePayload (service : SubscriptionService) (provider : String)
    (request : SubscriptionEnsureRequest) : Except String ProviderInput :=
  match request.resource with
  | none => .error "resource is required for subscription ensure"
  | some resource =>
    match request.notificationUrl with
    | none => .error "notification_url is required for subscription ensure"
    | some notificationUrl =>
      let changeTypes := if request.changeTypes.isEmpty then ["created"] else request.changeTypes
      .ok (.ensure provider (some service.context.tenant) service.context.team
        (some request.bindingId) resource changeTypes notificationUrl
        request.expirationTargetUnixMs request.clientState
        (request.user.getD service.defaultUserRef))

def buildRenewPayload (service : SubscriptionService) (provider : String)
    (request : SubscriptionRenewRequest) : Except String ProviderInput :=
  match request.subscriptionId with
  | none => .error "subscription_id is required to renew a binding"
  | some subscriptionId =>
    .ok (.renew provider subscriptionId request.expirationTargetUnixMs
      (request.user.getD service.defaultUserRef))

def buildDeletePayload (service : SubscriptionService) (provider : String)
    (request : SubscriptionDeleteRequest) : Except String ProviderInput :=
  match request.subscriptionId with
  | none => .error "subscription_id is required to delete a binding"
  | some subscriptionId =>
    .ok (.delete provider subscriptionId (request.user.getD service.defaultUserRef))

def ensureOnce (service : SubscriptionService) (provider : String)
    (request : SubscriptionEnsureRequest) : Eff World SubscriptionState := do
  let payload ← Eff.lift (service.buildEnsurePayload provider request)
  let outcome ← service.invoke provider "subscription_ensure" payload
  let outcome ← Eff.lift (ensureSuccess outcome)
  return .fromProviderResult provider service.context.tenant service.context.team
    request.bindingId request.resource request.changeTypes request.notificationUrl
    request.clientState request.user outcome.output

def renewOnce (service : SubscriptionService) (provider : String)
    (request : SubscriptionRenewRequest) : Eff World SubscriptionState := do
  let payload ← Eff.lift (service.buildRenewPayload provider request)
  let outcome ← service.invoke provider "subscription_renew" payload
  let outcome ← Eff.lift (ensureSuccess outcome)
  return .fromProviderResult provider service.context.tenant service.context.team
    request.bindingId request.resource request.changeTypes none none request.user outcome.output

def deleteOnce (service : SubscriptionService) (provider : String)
    (request : SubscriptionDeleteRequest) : Eff World Unit := do
  let payload ← Eff.lift (service.buildDeletePayload provider request)
  let outcome ← service.invoke provider "subscription_delete" payload
  let _ ← Eff.lift (ensureSuccess outcome)
  return ()

end SubscriptionService

end Subscriptions
