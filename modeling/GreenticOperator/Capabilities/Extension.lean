import GreenticOperator.Capabilities.Registry
import GreenticOperator.StaticRoutes.Discover
import Mathlib.Algebra.Order.Ring.Int

/-!
# The capabilities extension

`src/capabilities.rs`. What the manifest of a pack says of the capabilities it offers, and of
the topics and subscriptions between them. Each record may be given as an object or as an array
of its fields in their order; a field that is missing has its default.
-/

namespace Capabilities

open Json StaticRoutes

def extCapabilitiesV1 : String := "greentic.ext.capabilities.v1"

structure CapabilityProviderRefV1 where
  componentRef : String
  op : String
deriving DecidableEq, Repr

structure CapabilityTopicV1 where
  topic : String
  eventType : String
  publisher : CapabilityProviderRefV1
  payloadSchemaRef : Option String
  adapterKind : Option String
  priority : Int32
  scope : Option CapabilityScopeV1
deriving DecidableEq, Repr

structure CapabilityFilterV1 where
  jsonPointer : Option String
  equals : Option String
deriving DecidableEq, Repr

structure CapabilityDeliveryV1 where
  mode : Option String
  maxAttempts : Option UInt64
deriving DecidableEq, Repr

structure CapabilitySubscriptionV1 where
  subscriptionId : String
  topic : String
  eventType : String
  subscriberCapabilityId : String
  subscriberOp : String
  payloadSchemaRef : Option String
  filter : Option CapabilityFilterV1
  delivery : Option CapabilityDeliveryV1
  priority : Int32
  scope : Option CapabilityScopeV1
deriving DecidableEq, Repr

structure CapabilitiesExtensionV1 where
  schemaVersion : UInt64
  offers : List CapabilityOfferV1
  topics : List CapabilityTopicV1
  subscriptions : List CapabilitySubscriptionV1
deriving DecidableEq, Repr

/-! ## Decoding records -/

/-- The fields of a record, which is an object or an array of the fields in their order. -/
def asRecord (names : List String) : Value → Option (String → Option Value)
  | .object fields => some fun name => fields.lookup name
  | .array items =>
    if items.length ≤ names.length then some fun name => items[names.idxOf name]? else none
  | _ => none

/-- A field with a default. -/
def orDefault {α : Type} (default : α) (decode : Value → Option α) : Option Value → Option α
  | none => some default
  | some v => decode v

/-- A field that may be missing or null. -/
def nullable {α : Type} (decode : Value → Option α) : Option Value → Option (Option α)
  | none => some none
  | some .null => some none
  | some v => (decode v).map some

/-- A signed integer of 32 bits. -/
def asI32 (v : Value) : Option Int32 :=
  v.asI64.bind fun n => if -2 ^ 31 ≤ n.toInt ∧ n.toInt < 2 ^ 31 then some n.toInt32 else none

def decodeStrings (v : Value) : Option (List String) := v.asArray.bind (·.mapM Value.asStr)

def decodeProviderRef (v : Value) : Option CapabilityProviderRefV1 := do
  let field ← asRecord ["component_ref", "op"] v
  return { componentRef := ← (field "component_ref").bind Value.asStr
           op := ← (field "op").bind Value.asStr }

def decodeScope (v : Value) : Option CapabilityScopeV1 := do
  let field ← asRecord ["envs", "tenants", "teams"] v
  return { envs := ← orDefault [] decodeStrings (field "envs")
           tenants := ← orDefault [] decodeStrings (field "tenants")
           teams := ← orDefault [] decodeStrings (field "teams") }

def decodeSetup (v : Value) : Option String := do
  let field ← asRecord ["qa_ref"] v
  (field "qa_ref").bind Value.asStr

def decodeAppliesTo (v : Value) : Option (List String) := do
  let field ← asRecord ["op_names"] v
  orDefault [] decodeStrings (field "op_names")

def decodeOffer (v : Value) : Option CapabilityOfferV1 := do
  let field ← asRecord ["offer_id", "cap_id", "version", "provider", "scope", "priority",
    "requires_setup", "setup", "applies_to", "operation_id", "input_schema_ref", "output_schema_ref",
    "adapter_kind"] v
  let offerId ← nullable Value.asStr (field "offer_id")
  let capId ← (field "cap_id").bind Value.asStr
  let version ← (field "version").bind Value.asStr
  let provider ← (field "provider").bind decodeProviderRef
  let scope ← nullable decodeScope (field "scope")
  let priority ← orDefault 0 asI32 (field "priority")
  let requiresSetup ← orDefault false Value.asBool (field "requires_setup")
  let setupQaRef ← nullable decodeSetup (field "setup")
  let appliesTo ← nullable decodeAppliesTo (field "applies_to")
  let operationId ← nullable Value.asStr (field "operation_id")
  let inputSchemaRef ← nullable Value.asStr (field "input_schema_ref")
  let outputSchemaRef ← nullable Value.asStr (field "output_schema_ref")
  let adapterKind ← nullable Value.asStr (field "adapter_kind")
  return { offerId, capId, version, componentRef := provider.componentRef, op := provider.op, scope,
           priority, requiresSetup, setupQaRef, appliesTo, operationId, inputSchemaRef, outputSchemaRef,
           adapterKind }

def decodeTopic (v : Value) : Option CapabilityTopicV1 := do
  let field ← asRecord ["topic", "event_type", "publisher", "payload_schema_ref", "adapter_kind",
    "priority", "scope"] v
  return { topic := ← (field "topic").bind Value.asStr
           eventType := ← (field "event_type").bind Value.asStr
           publisher := ← (field "publisher").bind decodeProviderRef
           payloadSchemaRef := ← nullable Value.asStr (field "payload_schema_ref")
           adapterKind := ← nullable Value.asStr (field "adapter_kind")
           priority := ← orDefault 0 asI32 (field "priority")
           scope := ← nullable decodeScope (field "scope") }

def decodeFilter (v : Value) : Option CapabilityFilterV1 := do
  let field ← asRecord ["json_pointer", "equals"] v
  return { jsonPointer := ← nullable Value.asStr (field "json_pointer")
           equals := ← nullable Value.asStr (field "equals") }

def decodeDelivery (v : Value) : Option CapabilityDeliveryV1 := do
  let field ← asRecord ["mode", "max_attempts"] v
  return { mode := ← nullable Value.asStr (field "mode")
           maxAttempts := ← nullable asU32 (field "max_attempts") }

def decodeSubscription (v : Value) : Option CapabilitySubscriptionV1 := do
  let field ← asRecord ["subscription_id", "topic", "event_type", "subscriber", "payload_schema_ref",
    "filter", "delivery", "priority", "scope"] v
  let subscriber ← (field "subscriber").bind (asRecord ["capability_id", "op"])
  return { subscriptionId := ← (field "subscription_id").bind Value.asStr
           topic := ← (field "topic").bind Value.asStr
           eventType := ← (field "event_type").bind Value.asStr
           subscriberCapabilityId := ← (subscriber "capability_id").bind Value.asStr
           subscriberOp := ← (subscriber "op").bind Value.asStr
           payloadSchemaRef := ← nullable Value.asStr (field "payload_schema_ref")
           filter := ← nullable decodeFilter (field "filter")
           delivery := ← nullable decodeDelivery (field "delivery")
           priority := ← orDefault 0 asI32 (field "priority")
           scope := ← nullable decodeScope (field "scope") }

/-- A list of records. -/
def decodeList {α : Type} (decode : Value → Option α) (v : Value) : Option (List α) :=
  v.asArray.bind (·.mapM decode)

def decodeCapabilities (v : Value) : Option CapabilitiesExtensionV1 := do
  let field ← asRecord ["schema_version", "offers", "topics", "subscriptions"] v
  let schemaVersion ← orDefault 1 asU32 (field "schema_version")
  let offers ← orDefault [] (decodeList decodeOffer) (field "offers")
  let topics ← orDefault [] (decodeList decodeTopic) (field "topics")
  let subscriptions ← orDefault [] (decodeList decodeSubscription) (field "subscriptions")
  return { schemaVersion, offers, topics, subscriptions }

/-! ## Reading a pack -/

/-- The extension of a pack's manifest, which reading the pack may fail to give. -/
def readCapabilitiesExtension (manifest : Except String PackManifest) :
    Except String (Option CapabilitiesExtensionV1) := do
  let manifest ← manifest
  match (manifest.extensions.getD []).lookup extCapabilitiesV1 with
  | none => return none
  | some extension =>
    match extension.inline with
    | none => throw "capabilities extension inline payload missing"
    | some .Provider => throw "capabilities extension inline payload has unexpected type"
    | some (.Other value) =>
      match decodeCapabilities value with
      | none => throw "failed to parse greentic.ext.capabilities.v1 payload"
      | some decoded =>
        if decoded.schemaVersion ≠ 1 then
          throw s!"unsupported capabilities extension schema_version={decoded.schemaVersion}"
        else return some decoded

end Capabilities
