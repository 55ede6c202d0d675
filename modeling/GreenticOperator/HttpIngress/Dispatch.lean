import GreenticOperator.Hooks.Runner

/-!
# What becomes of a request

`src/demo/ingress_dispatch.rs`, and the end of `handle_request` in `src/demo/http_ingress.rs`.
The provider is asked about the request, the hooks about its answer; then the events go to the
default flow, and the messages, but for those of bots, to the app flow.
-/

namespace HttpIngress

open Json Domains Hooks Ingress MessagingUniversal RunnerHost

/-! ## The answer of a provider -/

def headerOfEntry (entry : Value) : Option (String × String) :=
  let ofPair : Option (String × String) :=
    match entry.asArray with
    | some (name :: value :: _) => do return (← name.asStr, ← value.asStr)
    | _ => none
  ofPair.or do
    let _ ← entry.asObject
    return (← textField entry "name", ← textField entry "value")

def parseHeaders (codec : Codec) (value : Option Value) : List (String × String) :=
  match value with
  | some (.object fields) => fields.map fun field => (field.1, field.2.asStr.getD (codec.toText field.2))
  | some (.array entries) => entries.filterMap headerOfEntry
  | _ => []

def parseBodyBytes (codec : Codec) (value : Value) : Except String (Option (List UInt8)) :=
  match textField value "body_b64" with
  | some bodyB64 =>
    match codec.base64Decode bodyB64 with
    | some bytes => .ok (some bytes)
    | none => .error "body_b64 is not valid base64"
  | none =>
    match textField value "body" with
    | some bodyText => .ok (some bodyText.toUTF8.toList)
    | none => .ok ((value.get "body_json").map codec.toVec)

def parseHttpResponse (codec : Codec) (value : Value) : Except String IngressHttpResponse := do
  let body ← parseBodyBytes codec value
  return {
    status := (((value.get "status").bind Value.asU64).map UInt64.toUInt16).getD 200
    headers := parseHeaders codec (value.get "headers")
    body }

/-- The entries of the provider's list of events. -/
def eventEntries (value : Option Value) : List Value := (value.bind Value.asArray).getD []

def parseEvents (value : Option Value) : List EventEnvelopeV1 :=
  (eventEntries value).filterMap EventEnvelopeV1.ofValue

def parseMessagingEnvelopes (codec : Codec) (value : Option Value) : List ChannelMessageEnvelope :=
  (eventEntries value).filterMap codec.readEnvelope

def parseDispatchResult (codec : Codec) (value : Value) : Except String IngressDispatchResult := do
  let response ← parseHttpResponse codec ((value.get "http").getD value)
  return { response
           events := parseEvents (value.get "events")
           messagingEnvelopes := parseMessagingEnvelopes codec (value.get "events") }

/-- The result of the provider, before the hooks. -/
def ingestResult (codec : Codec) (ingest : Except String FlowOutcome) : Except String IngressDispatchResult := do
  let outcome ← ingest
  if !outcome.success then
    throw ((outcome.error.or outcome.raw).getD "provider ingest_http failed")
  parseDispatchResult codec (outcome.output.getD (.object []))

/-- The provider's result after the hooks, with the directive that was applied; `ingest` is what
the provider's `ingest_http` gives. -/
def dispatchHttpIngress (codec : Codec) (w : World) (ingest : Except String FlowOutcome) (domain : Domain)
    (request : IngressRequestV1) (ctx : OperatorContext) :
    Except String (IngressDispatchResult × Option ControlDirective) := do
  let decoded ← ingestResult codec ingest
  applyPostIngressHooksDispatch codec w domain request decoded ctx

/-! ## The request -/

/-- A message a bot sent, as Webex shows a bot its own. -/
def dominatedByBot (envelope : ChannelMessageEnvelope) : Bool :=
  match envelope.fromId with
  | some id => Text.endsWith ".bot" id || Text.endsWith "@webex.bot" id
  | none => false

/-- What a request leads to: the directive applied to it, the messages given to
`route_messaging_envelopes` where it is called, and the response. -/
structure Handled where
  applied : Option ControlDirective
  routed : Option (List ChannelMessageEnvelope)
  response : Except String IngressHttpResponse

/-- The end of `handle_request`, from what the dispatch gave. `routeEvents` is how the events fare
in their default flow; an error text stands for the response 502 with it. -/
def handleDispatched (routeEvents : List EventEnvelopeV1 → Except String Unit) (domain : Domain) :
    Except String (IngressDispatchResult × Option ControlDirective) → Handled
  | .error err => ⟨none, none, .error err⟩
  | .ok (result, applied) =>
    match if domain = .Events && !result.events.isEmpty then routeEvents result.events else .ok () with
    | .error err => ⟨applied, none, .error err⟩
    | .ok () =>
      let envelopes := result.messagingEnvelopes.filter fun envelope => !dominatedByBot envelope
      if domain = .Messaging && !envelopes.isEmpty then ⟨applied, some envelopes, .ok result.response⟩
      else ⟨applied, none, .ok result.response⟩

/-- The part of `handle_request` from the provider on. -/
def handleIngress (codec : Codec) (w : World) (ingest : Except String FlowOutcome)
    (routeEvents : List EventEnvelopeV1 → Except String Unit) (domain : Domain)
    (request : IngressRequestV1) (ctx : OperatorContext) : Handled :=
  handleDispatched routeEvents domain (dispatchHttpIngress codec w ingest domain request ctx)

/-! ## Sending the response -/

/-- A response that can be sent: its status has three digits. -/
structure SentResponse where
  status : Nat
  headers : List (String × String)
  body : List UInt8
  valid : 100 ≤ status ∧ status < 1000

/-- The characters of a header name. -/
def isTokenChar (c : Char) : Bool :=
  Text.isAsciiAlphanumeric c || "!#$%&'*+-.^_|~".toList.contains c || c == Char.ofNat 0x60

/-- A header's name in lower case and its value, where they are those of a header. -/
def sentHeader (header : String × String) : Option (String × String) :=
  if header.1 ≠ "" ∧ header.1.toList.all isTokenChar = true
      ∧ (header.2.toList.all fun c => c == '\t' || 0x20 ≤ c.toNat && c.toNat < 0x7f) = true then
    some (Text.toAsciiLowercase header.1, header.2)
  else none

/-- Headers that are none are left out; a response without a content type gets one. -/
def buildHttpResponse (response : IngressHttpResponse) : Except String SentResponse :=
  let headers := response.headers.filterMap sentHeader
  if h : 100 ≤ response.status.toNat ∧ response.status.toNat < 1000 then
    .ok { status := response.status.toNat
          headers := headers ++ (if headers.any (·.1 == "content-type") then []
            else [("content-type", "application/json")])
          body := response.body.getD []
          valid := h }
  else .error "invalid status code"

end HttpIngress
