import Mathlib.Data.List.Sort
import GreenticOperator.Domains
import GreenticOperator.Lib.Text

/-!
# The capability registry

`src/capabilities.rs`. Packs offer capabilities in a manifest extension. The registry keeps
the offers of each capability sorted by priority and stable id; a capability resolves to the
first offer that matches what is asked for, and the hooks of a stage are all the offers of
the stage's own capability that apply to an operation.
-/

namespace Capabilities

open Domains

def capOpHookPre : String := "greentic.cap.op_hook.pre"
def capOpHookPost : String := "greentic.cap.op_hook.post"
def capOauthBrokerV1 : String := "greentic.cap.oauth.broker.v1"
def capOauthCardV1 : String := "greentic.cap.oauth.card.v1"
def capOauthTokenValidationV1 : String := "greentic.cap.oauth.token_validation.v1"
def oauthOpInitiateAuth : String := "oauth.initiate_auth"
def oauthOpAwaitResult : String := "oauth.await_result"
def oauthOpGetAccessToken : String := "oauth.get_access_token"
def oauthOpRequestResourceToken : String := "oauth.request_resource_token"

inductive HookStage
  | Pre
  | Post
deriving DecidableEq, Repr

def HookStage.capId : HookStage → String
  | .Pre => capOpHookPre
  | .Post => capOpHookPost

structure ResolveScope where
  env : Option String
  tenant : Option String
  team : Option String
deriving DecidableEq, Repr

structure CapabilityPackRecord where
  packId : String
  domain : Domain
deriving DecidableEq, Repr

structure CapabilityBinding where
  capId : String
  stableId : String
  packId : String
  domain : Domain
  packPath : String
  providerComponentRef : String
  providerOp : String
  version : String
  requiresSetup : Bool
  setupQaRef : Option String
deriving DecidableEq, Repr

/-- Whom an offer is for; an empty list is anyone. -/
structure CapabilityScopeV1 where
  envs : List String
  tenants : List String
  teams : List String
deriving DecidableEq, Repr

structure CapabilityOfferRecord where
  stableId : String
  packId : String
  domain : Domain
  packPath : String
  capId : String
  version : String
  providerComponentRef : String
  providerOp : String
  priority : Int32
  requiresSetup : Bool
  setupQaRef : Option String
  operationId : Option String
  inputSchemaRef : Option String
  outputSchemaRef : Option String
  adapterKind : Option String
  scope : CapabilityScopeV1
  appliesToOps : List String
deriving DecidableEq, Repr

/-- An offer as the manifest extension of a pack declares it. -/
structure CapabilityOfferV1 where
  offerId : Option String
  capId : String
  version : String
  componentRef : String
  op : String
  scope : Option CapabilityScopeV1
  priority : Int32
  requiresSetup : Bool
  setupQaRef : Option String
  appliesTo : Option (List String)
  operationId : Option String := none
  inputSchemaRef : Option String := none
  outputSchemaRef : Option String := none
  adapterKind : Option String := none
deriving DecidableEq, Repr

/-- The offers of each capability, in the order of the capabilities. -/
structure CapabilityRegistry where
  byCapId : List (String × List CapabilityOfferRecord)
deriving DecidableEq, Repr

/-! ## Matching -/

def valueMatches (values : List String) (current : Option String) : Bool :=
  if values.isEmpty then true
  else match current with
  | none => false
  | some current => values.any (· == current)

def scopeMatches (offerScope : CapabilityScopeV1) (scope : ResolveScope) : Bool :=
  valueMatches offerScope.envs scope.env && valueMatches offerScope.tenants scope.tenant
    && valueMatches offerScope.teams scope.team

def versionMatches (version : String) (minVersion : Option String) : Bool :=
  match minVersion with
  | none => true
  | some requested => version == requested

def opMatches (offer : CapabilityOfferRecord) (requestedOp : Option String) : Bool :=
  match requestedOp with
  | none => true
  | some requestedOp =>
    if offer.appliesToOps.isEmpty then true else offer.appliesToOps.any (· == requestedOp)

/-! ## Building -/

def stableIdOf (packId : String) (offer : CapabilityOfferV1) (idx : Nat) : String :=
  match offer.offerId with
  | some id =>
    if (Text.trim id).isEmpty then
      s!"{packId}::{offer.capId}::{offer.componentRef}::{offer.op}::{idx}"
    else id
  | none => s!"{packId}::{offer.capId}::{offer.componentRef}::{offer.op}::{idx}"

def recordOf (packPath : String) (pack : CapabilityPackRecord) (offer : CapabilityOfferV1) (idx : Nat) :
    CapabilityOfferRecord where
  stableId := stableIdOf pack.packId offer idx
  packId := pack.packId
  domain := pack.domain
  packPath
  capId := offer.capId
  version := offer.version
  providerComponentRef := offer.componentRef
  providerOp := offer.op
  priority := offer.priority
  requiresSetup := offer.requiresSetup
  setupQaRef := offer.setupQaRef
  operationId := offer.operationId
  inputSchemaRef := offer.inputSchemaRef
  outputSchemaRef := offer.outputSchemaRef
  adapterKind := offer.adapterKind
  scope := offer.scope.getD ⟨[], [], []⟩
  appliesToOps := offer.appliesTo.getD []

/-- An offer added to those of its capability. -/
def pushOffer (offer : CapabilityOfferRecord) :
    List (String × List CapabilityOfferRecord) → List (String × List CapabilityOfferRecord)
  | [] => [(offer.capId, [offer])]
  | (capId, offers) :: rest =>
    if offer.capId = capId then (capId, offers ++ [offer]) :: rest
    else if offer.capId < capId then (offer.capId, [offer]) :: (capId, offers) :: rest
    else (capId, offers) :: pushOffer offer rest

/-- The order of the offers of a capability. -/
def Precedes (a b : CapabilityOfferRecord) : Prop :=
  a.priority < b.priority ∨ (a.priority = b.priority ∧ a.stableId ≤ b.stableId)

instance : DecidableRel Precedes := fun _ _ =>
  inferInstanceAs (Decidable (_ ∨ _))

/-- The registry of a pack index, which lists the packs by path. Reading the extension of a
pack may fail, and gives nothing where the manifest has none. -/
def CapabilityRegistry.buildFromPackIndex
    (readCapabilitiesExtension : String → Except String (Option (List CapabilityOfferV1)))
    (packIndex : List (String × CapabilityPackRecord)) : Except String CapabilityRegistry := do
  let offers ← packIndex.mapM fun (packPath, pack) => do
    let ext ← readCapabilitiesExtension packPath
    return (ext.getD []).mapIdx fun idx offer => recordOf packPath pack offer idx
  let byCapId := offers.flatten.foldl (fun map offer => pushOffer offer map) []
  return ⟨byCapId.map fun (capId, offers) => (capId, offers.insertionSort Precedes)⟩

/-! ## Resolving -/

def CapabilityOfferRecord.binding (selected : CapabilityOfferRecord) : CapabilityBinding where
  capId := selected.capId
  stableId := selected.stableId
  packId := selected.packId
  domain := selected.domain
  packPath := selected.packPath
  providerComponentRef := selected.providerComponentRef
  providerOp := selected.providerOp
  version := selected.version
  requiresSetup := selected.requiresSetup
  setupQaRef := selected.setupQaRef

namespace CapabilityRegistry

def offersForCapability (registry : CapabilityRegistry) (capId : String) : List CapabilityOfferRecord :=
  (registry.byCapId.lookup capId).getD []

/-- The offers of all capabilities, one capability after another. -/
def values (registry : CapabilityRegistry) : List CapabilityOfferRecord :=
  registry.byCapId.flatMap Prod.snd

def offersInScope (registry : CapabilityRegistry) (scope : ResolveScope) : List CapabilityOfferRecord :=
  (registry.values.filter fun offer => scopeMatches offer.scope scope).insertionSort Precedes

def offersRequiringSetup (registry : CapabilityRegistry) (scope : ResolveScope) :
    List CapabilityOfferRecord :=
  (registry.values.filter fun offer => offer.requiresSetup && scopeMatches offer.scope scope).insertionSort
    Precedes

def resolveForOp (registry : CapabilityRegistry) (capId : String) (minVersion : Option String)
    (scope : ResolveScope) (requestedOp : Option String) : Option CapabilityBinding := do
  let offers ← registry.byCapId.lookup capId
  let selected ← offers.find? fun offer =>
    versionMatches offer.version minVersion && scopeMatches offer.scope scope
      && opMatches offer requestedOp
  return selected.binding

def resolve (registry : CapabilityRegistry) (capId : String) (minVersion : Option String)
    (scope : ResolveScope) : Option CapabilityBinding :=
  registry.resolveForOp capId minVersion scope none

/-- The offers of a stage's capability that apply to an operation. -/
def appliesTo (opName : String) (offer : CapabilityOfferRecord) : Bool :=
  offer.appliesToOps.isEmpty || offer.appliesToOps.any (· == opName)

def resolveHookChain (registry : CapabilityRegistry) (stage : HookStage) (opName : String) :
    List CapabilityBinding :=
  match registry.byCapId.lookup stage.capId with
  | none => []
  | some offers => (offers.filter (appliesTo opName)).map CapabilityOfferRecord.binding

end CapabilityRegistry

def isOauthBrokerOperation (opName : String) : Bool :=
  opName == oauthOpInitiateAuth || opName == oauthOpAwaitResult || opName == oauthOpGetAccessToken
    || opName == oauthOpRequestResourceToken

end Capabilities
