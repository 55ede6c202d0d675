import GreenticOperator.RuntimeState
import GreenticOperator.Lib.Json

/-!
# The store of subscriptions

`src/subscriptions_universal/store.rs`. A subscription's state is one JSON file, whose path
is made of its provider, tenant, team and binding id.
-/

namespace Subscriptions

open Disk RuntimeState

structure AuthUserRef where
  userId : String
  tokenKey : String
  tenantId : Option String
  email : Option String
  displayName : Option String
deriving DecidableEq, Repr

structure SubscriptionState where
  bindingId : String
  provider : String
  tenant : String
  team : Option String
  resource : Option String
  changeTypes : List String
  notificationUrl : Option String
  clientState : Option String
  user : Option AuthUserRef
  subscriptionId : Option String
  expirationUnixMs : Option Int64
  lastError : Option String
deriving DecidableEq, Repr

/-- The part of a provider's response that describes the subscription. -/
def flattenSubscriptionResponse (response : Option Json.Value) : Option Json.Value :=
  response.bind fun source => (source.get "subscription").or (some source)

/-- A text field of a provider's response. -/
def responseText (key : String) (response : Option Json.Value) : Option String :=
  (flattenSubscriptionResponse response).bind fun payload =>
    (payload.get key).bind Json.Value.asStr

def SubscriptionState.fromProviderResult (provider tenant : String) (team : Option String)
    (bindingId : String) (resource : Option String) (changeTypes : List String)
    (notificationUrl clientState : Option String) (user : Option AuthUserRef)
    (response : Option Json.Value) : SubscriptionState where
  bindingId
  provider
  tenant
  team
  resource
  changeTypes
  notificationUrl
  clientState
  user
  subscriptionId := responseText "subscription_id" response
  expirationUnixMs :=
    (flattenSubscriptionResponse response).bind fun payload =>
      (payload.get "expiration_unix_ms").bind Json.Value.asI64
  lastError := responseText "last_error" response

/-- The files a store works on. -/
abbrev StateFiles := Files (Contents SubscriptionState)

structure SubscriptionStore where
  base : String

namespace SubscriptionStore

def statePath (store : SubscriptionStore) (provider tenant : String) (team : Option String)
    (bindingId : String) : String :=
  join (join (join (join store.base provider) tenant) (team.getD "default")) (bindingId ++ ".json")

/-- The path of a state. -/
def pathOf (store : SubscriptionStore) (state : SubscriptionState) : Path :=
  resolve (store.statePath state.provider state.tenant state.team state.bindingId)

def writeState (store : SubscriptionStore) (disk : StateFiles) (state : SubscriptionState) :
    Except String StateFiles :=
  let path := store.statePath state.provider state.tenant state.team state.bindingId
  (writeJson disk (place path) state).mapError fun _ =>
    s!"failed to write subscription state to \"{path}\""

def readState (store : SubscriptionStore) (disk : StateFiles) (provider tenant : String)
    (team : Option String) (bindingId : String) : Except String (Option SubscriptionState) :=
  let path := store.statePath provider tenant team bindingId
  (readJson disk (place path)).mapError fun _ =>
    s!"failed to read subscription state from \"{path}\""

/-- Whether `collect_states` reads a file. -/
def isStateFile (path : Path) : Bool :=
  match extension path with
  | some ext => Text.eqIgnoreAsciiCase ext "json"
  | none => false

/-- The walk of `collect_states`, over the files in the order directories are listed. -/
def collectStates : List (Path × Contents SubscriptionState) → Except String (List SubscriptionState)
  | [] => .ok []
  | (path, contents) :: rest =>
    if isStateFile path then
      match contents with
      | .unreadable => .error "invalid state file"
      | .value state => (collectStates rest).map (state :: ·)
    else collectStates rest

/-- The files below the base directory. -/
def under (base : Path) (disk : StateFiles) : List (Path × Contents SubscriptionState) :=
  disk.files.filter fun entry => base.isPrefixOf entry.1

def listStates (store : SubscriptionStore) (disk : StateFiles) :
    Except String (List SubscriptionState) :=
  collectStates (under (resolve store.base) disk)

def deleteState (store : SubscriptionStore) (disk : StateFiles) (state : SubscriptionState) :
    Except String StateFiles :=
  let path := store.statePath state.provider state.tenant state.team state.bindingId
  if !disk.reaches (place path) then .ok disk
  else if disk.dirs.contains (store.pathOf state) then .error s!"failed to delete {path}"
  else .ok (disk.erase (store.pathOf state))

end SubscriptionStore

end Subscriptions
