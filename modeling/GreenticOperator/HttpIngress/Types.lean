import GreenticOperator.Lib.JsonRecord
import GreenticOperator.MessagingUniversal.Egress

/-!
# Requests and results of the HTTP ingress

`src/demo/ingress_types.rs`. What a provider is asked when a request comes in, and what it
answers: a response, events, and messages for the app flow.
-/

namespace HttpIngress

open Json MessagingUniversal

/-- The encodings of the ingress: base64, CBOR, JSON text, and the messages of a provider. -/
structure Codec where
  base64Encode : List UInt8 → String
  base64Decode : String → Option (List UInt8)
  fromCbor : List UInt8 → Option Value
  toCanonicalCbor : Value → Option (List UInt8)
  toText : Value → String
  readEnvelope : Value → Option ChannelMessageEnvelope

def Codec.toVec (codec : Codec) (v : Value) : List UInt8 := (codec.toText v).toUTF8.toList

structure IngressRequestV1 where
  v : Nat
  domain : String
  provider : String
  handler : Option String
  tenant : String
  team : Option String
  method : String
  path : String
  query : List (String × String)
  headers : List (String × String)
  body : List UInt8
  correlationId : Option String
  remoteAddr : Option String
deriving DecidableEq, Repr

def pairsToValue (pairs : List (String × String)) : Value :=
  .array (pairs.map fun pair => .array [.string pair.1, .string pair.2])

def IngressRequestV1.toValue (request : IngressRequestV1) : Value :=
  .ofFields ([("v", .ofNat request.v), ("domain", .string request.domain),
      ("provider", .string request.provider)]
    ++ Value.present "handler" (request.handler.map Value.string)
    ++ [("tenant", .string request.tenant)] ++ Value.present "team" (request.team.map Value.string)
    ++ [("method", .string request.method), ("path", .string request.path),
      ("query", pairsToValue request.query), ("headers", pairsToValue request.headers),
      ("body", .ofBytes request.body)]
    ++ Value.present "correlation_id" (request.correlationId.map Value.string)
    ++ Value.present "remote_addr" (request.remoteAddr.map Value.string))

structure IngressHttpResponse where
  status : UInt16
  headers : List (String × String)
  body : Option (List UInt8)
deriving DecidableEq, Repr

structure EventSourceV1 where
  domain : String
  provider : String
  handlerId : Option String
deriving DecidableEq, Repr

structure EventScopeV1 where
  tenant : String
  team : Option String
deriving DecidableEq, Repr

structure EventEnvelopeV1 where
  eventId : String
  eventType : String
  occurredAt : String
  source : EventSourceV1
  scope : EventScopeV1
  correlationId : Option String
  payload : Value
  http : Option Value
  raw : Option String

def EventSourceV1.toValue (source : EventSourceV1) : Value :=
  .ofFields ([("domain", .string source.domain), ("provider", .string source.provider)]
    ++ Value.present "handler_id" (source.handlerId.map Value.string))

def EventScopeV1.toValue (scope : EventScopeV1) : Value :=
  .ofFields ([("tenant", .string scope.tenant)] ++ Value.present "team" (scope.team.map Value.string))

def EventEnvelopeV1.toValue (event : EventEnvelopeV1) : Value :=
  .ofFields ([("event_id", .string event.eventId), ("event_type", .string event.eventType),
      ("occurred_at", .string event.occurredAt), ("source", event.source.toValue),
      ("scope", event.scope.toValue), ("payload", event.payload)]
    ++ Value.present "correlation_id" (event.correlationId.map Value.string)
    ++ Value.present "http" event.http ++ Value.present "raw" (event.raw.map Value.string))

def textField (v : Value) (name : String) : Option String := (v.get name).bind Value.asStr

def EventSourceV1.ofFields (fields : List (String × Value)) : Option EventSourceV1 := do
  let domain ← Value.requiredText "domain" fields
  let provider ← Value.requiredText "provider" fields
  let handlerId ← Value.optionalText "handler_id" fields
  return { domain, provider, handlerId }

def EventSourceV1.ofValue (v : Value) : Option EventSourceV1 :=
  (Value.recordFields ["domain", "provider", "handler_id"] 2 v).bind ofFields

def EventScopeV1.ofFields (fields : List (String × Value)) : Option EventScopeV1 := do
  let tenant ← Value.requiredText "tenant" fields
  let team ← Value.optionalText "team" fields
  return { tenant, team }

def EventScopeV1.ofValue (v : Value) : Option EventScopeV1 :=
  (Value.recordFields ["tenant", "team"] 1 v).bind ofFields

def EventEnvelopeV1.ofFields (fields : List (String × Value)) : Option EventEnvelopeV1 := do
  let eventId ← Value.requiredText "event_id" fields
  let eventType ← Value.requiredText "event_type" fields
  let occurredAt ← Value.requiredText "occurred_at" fields
  let source ← Value.field none EventSourceV1.ofValue "source" fields
  let scope ← Value.field none EventScopeV1.ofValue "scope" fields
  let correlationId ← Value.optionalText "correlation_id" fields
  let payload ← Value.field none some "payload" fields
  let http ← Value.optionalField some "http" fields
  let raw ← Value.optionalText "raw" fields
  return { eventId, eventType, occurredAt, source, scope, correlationId, payload, http, raw }

def EventEnvelopeV1.fieldNames : List String :=
  ["event_id", "event_type", "occurred_at", "source", "scope", "correlation_id", "payload", "http", "raw"]

/-- The event that a JSON value holds; as an array it ends at the earliest with its payload. -/
def EventEnvelopeV1.ofValue (v : Value) : Option EventEnvelopeV1 :=
  (Value.recordFields fieldNames 7 v).bind ofFields

structure IngressDispatchResult where
  response : IngressHttpResponse
  events : List EventEnvelopeV1
  messagingEnvelopes : List ChannelMessageEnvelope

end HttpIngress
