import GreenticOperator.Cli.Select
import GreenticOperator.Lib.Run
import GreenticOperator.Subscriptions.Service

/-!
# The renewal scheduler

`src/subscriptions_universal/scheduler.rs`. `renewDue` lists the stored states and renews
those whose expiration, less the skew, has come. The clock is read once for the comparison
and again for every target, so each renewal has a reading of its own.
-/

namespace Subscriptions

open RunnerHost

def defaultRenewExtensionMs : UInt64 := 86400000

/-- A `Duration`: whole seconds and nanoseconds. -/
structure Duration where
  secs : UInt64
  nanos : UInt32
  nanos_lt : nanos.toNat < 1000000000

def Duration.asMillis (d : Duration) : Nat := d.secs.toNat * 1000 + d.nanos.toNat / 1000000

/-- The difference, kept at the ends of the type where it lies beyond them. -/
def saturatingSub (a b : Int64) : Int64 := Int64.ofIntClamp (a.toInt - b.toInt)

/-- The number `next_expiration_target` extends: the expiration where it is known and
positive, else the current time. -/
def targetBase (now : Int64) (state : SubscriptionState) : UInt64 :=
  match state.expirationUnixMs.filter (fun ms => 0 < ms) with
  | some ms => ms.toUInt64
  | none => now.toUInt64

def nextExpirationTarget (now : Int64) (state : SubscriptionState) : UInt64 :=
  targetBase now state + defaultRenewExtensionMs

structure Scheduler where
  service : SubscriptionService
  store : SubscriptionStore

namespace Scheduler

def writeState (scheduler : Scheduler) (state : SubscriptionState) : Eff World Unit := do
  let disk ← Eff.read World.disk
  let disk ← Eff.lift (scheduler.store.writeState disk state)
  Eff.modify fun w => { w with disk, writes := w.writes ++ [(scheduler.store.pathOf state, state)] }

def ensureOnce (scheduler : Scheduler) (provider : String) (request : SubscriptionEnsureRequest) :
    Eff World Unit := do
  let state ← scheduler.service.ensureOnce provider request
  scheduler.writeState state

/-- The request `renew_binding` makes of a state. -/
def renewRequest (now : Int64) (state : SubscriptionState) : SubscriptionRenewRequest where
  bindingId := state.bindingId
  subscriptionId := state.subscriptionId
  user := state.user
  resource := state.resource
  changeTypes := state.changeTypes
  expirationTargetUnixMs := some (nextExpirationTarget now state)

def renewBinding (scheduler : Scheduler) (now : Int64) (state : SubscriptionState) :
    Eff World Unit := do
  let request := renewRequest now state
  Eff.modify fun w => { w with attempts := w.attempts ++ [⟨state, request⟩] }
  let renewed ← scheduler.service.renewOnce state.provider request
  scheduler.writeState renewed

def deleteBinding (scheduler : Scheduler) (state : SubscriptionState) : Eff World Unit := do
  let request : SubscriptionDeleteRequest :=
    { bindingId := state.bindingId, subscriptionId := state.subscriptionId, user := state.user }
  scheduler.service.deleteOnce state.provider request
  let disk ← Eff.read World.disk
  let disk ← Eff.lift (scheduler.store.deleteState disk state)
  Eff.modify fun w => { w with disk }

/-- The test `renew_due` makes of a state. -/
def isDue (now skewMs : Int64) (state : SubscriptionState) : Bool :=
  match state.expirationUnixMs with
  | some expiration => saturatingSub expiration skewMs ≤ now
  | none => false

/-- The loop of `renew_due`. A failed renewal is logged and the loop goes on; `readings`
are the clock readings of the renewals still to come. -/
def renewEach (scheduler : Scheduler) (now skewMs : Int64) (readings : Nat → Int64) :
    List SubscriptionState → Eff World Unit
  | [] => pure ()
  | state :: rest =>
    if isDue now skewMs state then do
      let _ ← (scheduler.renewBinding (readings 0) state).attempt
      renewEach scheduler now skewMs (fun i => readings (i + 1)) rest
    else renewEach scheduler now skewMs readings rest

def renewDue (scheduler : Scheduler) (now : Int64) (readings : Nat → Int64) (skew : Duration) :
    Eff World Unit := do
  let skewMs := Int64.ofNat skew.asMillis
  let disk ← Eff.read World.disk
  let states ← Eff.lift (scheduler.store.listStates disk)
  scheduler.renewEach now skewMs readings states

/-- One operation of the scheduler on one binding. -/
inductive Op
  | ensure (provider : String) (request : SubscriptionEnsureRequest)
  | renew (now : Int64) (state : SubscriptionState)
  | delete (state : SubscriptionState)

def perform (scheduler : Scheduler) : Op → Eff World Unit
  | .ensure provider request => scheduler.ensureOnce provider request
  | .renew now state => scheduler.renewBinding now state
  | .delete state => scheduler.deleteBinding state

/-- An operation goes on from whatever the one before it left, failed or not. -/
def exec (scheduler : Scheduler) (op : Op) (w : World) : World := ((scheduler.perform op).run w).2

end Scheduler

/-!
## Desired subscriptions

`src/subscriptions_universal/demo.rs`. A configuration lists the subscriptions a bundle is to have.
Each is ensured with its provider, whose pack is selected by its name, and stored under its binding
id, or under a new one where it has none.
-/

section

open Cli Domains

structure AuthUserConfig where
  userId : String
  tokenKey : String
deriving DecidableEq, Repr

structure DemoDesiredSubscription where
  provider : String
  resource : String
  changeTypes : List String
  notificationUrl : Option String
  clientState : Option String
  bindingId : Option String
  user : Option AuthUserConfig
deriving DecidableEq, Repr

/-- Where providers are looked up: the bundle as the selection finds it, and the provider ids that
discovery gives, each with the path of its pack. -/
structure ProviderSource where
  bundle : Bundle
  discovered : Except String (List (String × String))

/-- The id discovered for the path of a pack; of several the last one counts. -/
def providerIdForPack (packPath fallback : String) (providers : List (String × String)) : String :=
  (providers.reverse.lookup packPath).getD fallback

/-- The provider an entry names. -/
def ProviderSource.resolve (source : ProviderSource) (entry : DemoDesiredSubscription) :
    Except String String := do
  let pack ← resolveDemoProviderPack source.bundle entry.provider .Messaging
  let providers ← source.discovered
  return providerIdForPack pack.path pack.packId providers

def toRequest (entry : DemoDesiredSubscription) (bindingId : String) : SubscriptionEnsureRequest where
  bindingId
  resource := some entry.resource
  changeTypes := if entry.changeTypes.isEmpty then ["created"] else entry.changeTypes
  notificationUrl := entry.notificationUrl
  clientState := entry.clientState
  user := entry.user.map fun value =>
    { userId := value.userId, tokenKey := value.tokenKey, tenantId := none, email := none, displayName := none }
  expirationTargetUnixMs := none

/-- The loop over the entries. `newId` are the ids made for those without a binding id. -/
def ensureDesiredSubscriptions (scheduler : Scheduler) (source : ProviderSource) (newId : Nat → String) :
    List DemoDesiredSubscription → Eff World Unit
  | [] => pure ()
  | entry :: rest => do
    let providerId ← Eff.lift (source.resolve entry)
    scheduler.ensureOnce providerId (toRequest entry (entry.bindingId.getD (newId 0)))
    ensureDesiredSubscriptions scheduler source (fun i => newId (i + 1)) rest

end

end Subscriptions
