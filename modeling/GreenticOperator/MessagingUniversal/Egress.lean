import GreenticOperator.Lib.JsonRecord
import GreenticOperator.Lib.Retry
import GreenticOperator.MessagingUniversal.Retry

/-!
# Sending messages out

`src/messaging_universal/egress.rs`. A batch of envelopes goes through the app flow; each message
that comes out is planned, encoded and sent by its provider, again after a failure that says so,
up to the number of retries. A message given up goes to the dead letters.
-/

namespace MessagingUniversal

open Json RunnerHost Retry

/-- What the operator looks at of a message, and the message as JSON. -/
structure ChannelMessageEnvelope where
  id : String
  channel : String
  sessionId : String
  text : Option String
  attachments : List Value
  correlationId : Option String
  fromId : Option String
  value : Value

structure ProviderPayloadV1 where
  contentType : String
  bodyB64 : String
  metadataJson : Option String
  metadata : Option Value

/-! ## The texts and calls of a batch -/

/-- JSON texts and base64. -/
structure Codec where
  toText : Value → String
  base64Encode : List UInt8 → String
  readObject : String → Option (List (String × Value))

inductive Op
  | renderPlan
  | encode
  | sendPayload
deriving DecidableEq

def Op.name : Op → String
  | renderPlan => "render_plan"
  | encode => "encode"
  | sendPayload => "send_payload"

/-- What is the same for all messages of a batch. -/
structure Egress where
  provider : String
  canonicalType : String
  ctx : OperatorContext
  sendPayloadFlag : Bool
  dryRun : Bool
  retries : UInt32
  codec : Codec

/-- The world a batch runs in. The replies of the provider are those to message `i` at its
attempt `k`; `append` is how the append of a dead letter ends. -/
structure Surroundings where
  prepare : Except String Unit
  appFlow : Nat → ChannelMessageEnvelope → Except String (List ChannelMessageEnvelope)
  openHost : Except String Unit
  reply : Nat → Nat → Op → Except String FlowOutcome
  append : Nat → Except String Unit
  jitter : Nat → Nat → Nat
  jobId : Nat → String
  now : Nat → String

inductive Event
  | attempt (number : Nat)
  | call (op : Op) (input : Value) (reply : Except String FlowOutcome)
  | preview
  | wait (ms : Nat)
  | deadLetter (entry : Value)

/-! ## The calls of one attempt -/

def buildRenderPlanInput (message : Value) : Value :=
  .ofFields [("v", .ofNat 1), ("message", message)]

def buildEncodeInput (message plan : Value) : Value :=
  .ofFields [("v", .ofNat 1), ("message", message), ("plan", plan)]

def ProviderPayloadV1.toValue (payload : ProviderPayloadV1) : Value :=
  .ofFields ([("content_type", .string payload.contentType), ("body_b64", .string payload.bodyB64)]
    ++ Value.present "metadata_json" (payload.metadataJson.map Value.string)
    ++ Value.present "metadata" payload.metadata)

def tenantHint (ctx : OperatorContext) : Value :=
  .ofFields ([("tenant", .string ctx.tenant)] ++ Value.present "team" (ctx.team.map Value.string)
    ++ Value.present "correlation_id" (ctx.correlationId.map Value.string))

def sendPayloadInput (e : Egress) (payload : ProviderPayloadV1) : Value :=
  .ofFields [("v", .ofNat 1), ("provider_type", .string e.canonicalType),
    ("payload", payload.toValue), ("tenant", tenantHint e.ctx)]

def ensureSuccess (e : Egress) (op : Op) (outcome : FlowOutcome) : Except String FlowOutcome :=
  if outcome.success then .ok outcome
  else .error (e.provider ++ "." ++ op.name ++ " failed: " ++ outcome.error.getD "unknown error")

def renderPlan (e : Egress) (reply : Except String FlowOutcome) : Except String Value := do
  let outcome ← reply
  let validated ← ensureSuccess e .renderPlan outcome
  return validated.output.getD (.object [])

/-- The payload of a JSON value, where it has the two texts and no field of a wrong type. -/
def readProviderPayload (v : Value) : Option ProviderPayloadV1 := do
  let fields ← Value.recordFields ["content_type", "body_b64", "metadata_json", "metadata"] 2 v
  let contentType ← Value.requiredText "content_type" fields
  let bodyB64 ← Value.requiredText "body_b64" fields
  let metadataJson ← Value.optionalText "metadata_json" fields
  let metadata ← Value.optionalField some "metadata" fields
  return { contentType, bodyB64, metadataJson, metadata }

def encodePayload (e : Egress) (reply : Except String FlowOutcome) :
    Except String ProviderPayloadV1 := do
  let outcome ← reply
  let validated ← ensureSuccess e .encode outcome
  let value := validated.output.getD (.object [])
  match readProviderPayload ((value.get "payload").getD value) with
  | some payload => return payload
  | none => throw "failed to parse ProviderPayloadV1 from encode output"

def fallbackPayload (e : Egress) (message : Value) : ProviderPayloadV1 where
  contentType := "application/json"
  bodyB64 := e.codec.base64Encode (e.codec.toText message).toUTF8.toList
  metadataJson := some (e.codec.toText message)
  metadata := none

/-- Attempt `k` for message `i`: what it does, and whether the message is through (or the batch
has failed), or the send has. -/
def attemptOnce (e : Egress) (s : Surroundings) (i : Nat) (envelope : ChannelMessageEnvelope) (k : Nat) :
    List Event × Attempt (Except String Unit) NodeErrorDetails :=
  let message := envelope.value
  let rendered := s.reply i k .renderPlan
  let log := [.attempt k, .call .renderPlan (buildRenderPlanInput message) rendered]
  match renderPlan e rendered with
  | .error err => (log, .done (.error err))
  | .ok plan =>
    let encoded := s.reply i k .encode
    let log := log ++ [.call .encode (buildEncodeInput message plan) encoded]
    let payload :=
      match encodePayload e encoded with
      | .ok payload => payload
      | .error _ => fallbackPayload e message
    if !e.sendPayloadFlag || e.dryRun then (log ++ [.preview], .done (.ok ()))
    else
      let sent := s.reply i k .sendPayload
      let log := log ++ [.call .sendPayload (sendPayloadInput e payload) sent]
      match sent with
      | .error err => (log, .done (.error err))
      | .ok outcome =>
        if outcome.success then (log, .done (.ok ()))
        else
          let nodeError := parseNodeError e.codec.readObject outcome
          (log, .failed nodeError nodeError.retryable)

/-! ## A message and a batch -/

def messageSummary (envelope : ChannelMessageEnvelope) : Value :=
  .ofFields [("id", .string envelope.id), ("channel", .string envelope.channel),
    ("session_id", .string envelope.sessionId), ("text", .ofOption envelope.text),
    ("attachments_count", .ofNat envelope.attachments.length),
    ("correlation_id", .ofOption envelope.correlationId)]

/-- The pause before the next attempt, as long as the provider asks or the policy says. -/
def pauseMs (policy : RetryPolicy) (jitter attempt : Nat) (nodeError : NodeErrorDetails) : Nat :=
  match nodeError.backoffMs with
  | some ms => ms.toNat
  | none => policy.delayWithJitter attempt jitter

/-- The loop over the attempts for message `i`. The counter of attempts starts at one and never
passes the number allowed, so it does not overflow. -/
def attempts (e : Egress) (s : Surroundings) (i : Nat) (envelope : ChannelMessageEnvelope) :
    Loop Event (Except String Unit) NodeErrorDetails where
  once := attemptOnce e s i envelope
  pause k nodeError := [.wait (pauseMs (.ofRetries e.retries) (s.jitter i k) k nodeError)]
  giveUp k nodeError :=
    let entry := buildDlqEntry (s.now i) (s.jobId i) e.provider e.ctx k
      (RetryPolicy.ofRetries e.retries).maxAttempts nodeError.toJson (messageSummary envelope)
    match s.append i with
    | .ok () => ([.deadLetter entry], .ok ())
    | .error err => ([], .error err)

def sendMessage (e : Egress) (s : Surroundings) (i : Nat) (envelope : ChannelMessageEnvelope) :
    List Event × Except String Unit :=
  (attempts e s i envelope).run ((RetryPolicy.ofRetries e.retries).maxAttempts - 1) 1

/-- The messages from the `i`-th on, each with what is done for it, up to the first that fails
the batch. -/
def sendAll (e : Egress) (s : Surroundings) :
    Nat → List ChannelMessageEnvelope → List (List Event) × Except String Unit
  | _, [] => ([], .ok ())
  | i, envelope :: rest =>
    match sendMessage e s i envelope with
    | (log, .error err) => ([log], .error err)
    | (log, .ok ()) =>
      let (logs, result) := sendAll e s (i + 1) rest
      (log :: logs, result)

/-- What comes out of the app flow for the envelopes from the `i`-th on: an envelope stays where
the flow has no output for it. -/
def processEnvelopes (s : Surroundings) :
    Nat → List ChannelMessageEnvelope → Except String (List ChannelMessageEnvelope)
  | _, [] => .ok []
  | i, envelope :: rest => do
    let outputs ← s.appFlow i envelope
    let later ← processEnvelopes s (i + 1) rest
    return (if outputs.isEmpty then [envelope] else outputs) ++ later

/-- The messages a batch sends, once its app pack, its flow and the provider host are found. -/
def outbound (s : Surroundings) (envelopes : List ChannelMessageEnvelope) :
    Except String (List ChannelMessageEnvelope) := do
  if envelopes.isEmpty then return []
  s.prepare
  let messages ← processEnvelopes s 0 envelopes
  s.openHost
  return messages

def runEndToEnd (e : Egress) (s : Surroundings) (envelopes : List ChannelMessageEnvelope) :
    List (List Event) × Except String Unit :=
  match outbound s envelopes with
  | .error err => ([], .error err)
  | .ok messages => sendAll e s 0 messages

end MessagingUniversal
