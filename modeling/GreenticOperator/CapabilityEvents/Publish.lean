import GreenticOperator.CapabilityEvents.Bus

/-!
# Publishing and replaying

`src/capability_events.rs`. An event is written to the log first, then delivered to the
matching subscriptions one after the other, each with as many attempts as it allows. A
replay publishes a recorded event again, a replay of a dead letter only to subscriptions
with the id the letter names.
-/

namespace CapabilityEvents

open RunnerHost

/-- The answer to each attempt for each matching subscription of one publication, by
position. -/
abbrev Replies := Nat → Nat → Except String FlowOutcome

/-- What is declared in a scope. -/
structure Scope where
  topics : List ResolvedTopicRecord
  subscriptions : List ResolvedSubscriptionRecord

def matchesFilter (subscription : ResolvedSubscriptionRecord) (payload : Json.Value) : Bool :=
  match subscription.filterJsonPointer with
  | none => true
  | some pointer =>
    match subscription.filterEquals with
    | none => true
    | some expected =>
      match (payload.pointer pointer).bind Json.Value.asStr with
      | some value => value == expected
      | none => false

/-- The check of a payload against the schema a topic or a subscription names. -/
def checkSchema (env : Env) (packPath : String) (schemaRef : Option String) (payload : Json.Value)
    (context : String) : Except String Unit :=
  match schemaRef with
  | none => .ok ()
  | some schemaRef => (env.validateSchema packPath schemaRef payload).mapError fun _ => context

/-- The most attempts a subscription gets. -/
def ResolvedSubscriptionRecord.attemptLimit (subscription : ResolvedSubscriptionRecord) : Nat :=
  max subscription.maxAttempts 1

/-- The attempts for one subscription, from the `attempts`th on with `remaining` left: the
error of the last one, unless one succeeded. -/
def attemptDelivery (env : Env) (replies : Nat → Except String FlowOutcome)
    (envelope : CapabilityEventEnvelope) (subscription : ResolvedSubscriptionRecord) :
    (remaining attempts : Nat) → Option String → PublishReport →
      Eff Bus (Option String × PublishReport)
  | 0, _, finalError, report => pure (finalError, report)
  | remaining + 1, attempts, _, report => do
    let reply := replies attempts
    Eff.modify fun b =>
      { b with invocations := b.invocations ++ [⟨subscription, envelope.payload, reply⟩] }
    let outcome ← Eff.lift reply
    if outcome.success then do
      let deliveryId ← newUuid env
      let deliveredAtUnixMs ← nowUnixMs env
      appendDelivery
        { deliveryId, eventId := envelope.eventId, subscriptionId := subscription.subscriptionId
          capabilityId := subscription.capabilityId, op := subscription.op, status := "ok"
          attempts := attempts + 1, error := none, deliveredAtUnixMs }
      return (none, { report with successfulDeliveries := report.successfulDeliveries + 1 })
    else
      attemptDelivery env replies envelope subscription remaining (attempts + 1)
        (some (outcome.error.getD "capability invocation failed")) report

/-- One subscription of the loop of `publish_event_internal`. -/
def deliver (env : Env) (replies : Nat → Except String FlowOutcome)
    (envelope : CapabilityEventEnvelope) (subscription : ResolvedSubscriptionRecord)
    (report : PublishReport) : Eff Bus PublishReport := do
  Eff.lift (checkSchema env subscription.packPath subscription.payloadSchemaRef envelope.payload
    s!"invalid payload for subscription {subscription.subscriptionId}")
  let maxAttempts := subscription.attemptLimit
  let (finalError, report) ← attemptDelivery env replies envelope subscription maxAttempts 0 none report
  match finalError with
  | none => return report
  | some error => do
    let deliveryId ← newUuid env
    let deliveredAtUnixMs ← nowUnixMs env
    appendDelivery
      { deliveryId, eventId := envelope.eventId, subscriptionId := subscription.subscriptionId
        capabilityId := subscription.capabilityId, op := subscription.op, status := "err"
        attempts := maxAttempts, error := some error, deliveredAtUnixMs }
    let failedAtUnixMs ← nowUnixMs env
    appendDeadLetter
      { record :=
          { deliveryId, event := envelope, subscriptionId := subscription.subscriptionId
            capabilityId := subscription.capabilityId, op := subscription.op
            attempts := maxAttempts, error, failedAtUnixMs }
        subscription }
    return { report with failedDeliveries := report.failedDeliveries + 1 }

/-- The loop of `publish_event_internal` over the matching subscriptions. -/
def deliverEach (env : Env) (replies : Replies) (envelope : CapabilityEventEnvelope) :
    List ResolvedSubscriptionRecord → PublishReport → Eff Bus PublishReport
  | [], report => pure report
  | subscription :: rest, report => do
    let report ← deliver env (replies 0) envelope subscription report
    deliverEach env (fun i => replies (i + 1)) envelope rest report

def findTopic (topics : List ResolvedTopicRecord) (request : PublishEventRequest) :
    Option ResolvedTopicRecord :=
  topics.find? fun item =>
    item.topic == request.topic &&
      (match request.eventType with
        | some value => value == item.eventType
        | none => true)

/-- Whether a subscription is to get an event. -/
def isMatch (envelope : CapabilityEventEnvelope) (onlySubscriptionId : Option String)
    (item : ResolvedSubscriptionRecord) : Bool :=
  item.topic == envelope.topic && item.eventType == envelope.eventType &&
    (match onlySubscriptionId with
      | some value => value == item.subscriptionId
      | none => true) &&
    matchesFilter item envelope.payload

def publishEventInternal (env : Env) (scope : Scope) (replies : Replies)
    (request : PublishEventRequest) (onlySubscriptionId replayDeliveryId : Option String) :
    Eff Bus PublishReport :=
  match findTopic scope.topics request with
  | none => Eff.fail s!"topic {request.topic} is not defined in current scope"
  | some topic => do
    Eff.lift (checkSchema env topic.packPath topic.payloadSchemaRef request.payload
      s!"invalid event payload for topic {topic.topic}")
    let eventId ← match replayDeliveryId with
      | some value => pure ("replay-" ++ value)
      | none => newUuid env
    let publishedAtUnixMs ← nowUnixMs env
    let envelope : CapabilityEventEnvelope :=
      { eventId, topic := topic.topic, eventType := topic.eventType, payload := request.payload
        correlationId := request.correlationId, source := request.source, publishedAtUnixMs }
    appendEvent envelope
    let matched := scope.subscriptions.filter (isMatch envelope onlySubscriptionId)
    let report : PublishReport :=
      { matchedSubscriptions := matched.length, successfulDeliveries := 0, failedDeliveries := 0 }
    deliverEach env replies envelope matched report

def publishEvent (env : Env) (scope : Scope) (replies : Replies) (request : PublishEventRequest) :
    Eff Bus PublishReport :=
  publishEventInternal env scope replies request none none

/-- The dead letter of a delivery id: the first one the file has. -/
def findDeadLetter (letters : List DeadLetter) (deliveryId : String) : Option DeadLetter :=
  letters.find? fun item => item.record.deliveryId == deliveryId

def findEvent (events : List CapabilityEventEnvelope) (eventId : String) :
    Option CapabilityEventEnvelope :=
  events.find? fun item => item.eventId == eventId

/-- The request that publishes a recorded event again. -/
def CapabilityEventEnvelope.request (envelope : CapabilityEventEnvelope) : PublishEventRequest where
  topic := envelope.topic
  eventType := some envelope.eventType
  payload := envelope.payload
  correlationId := envelope.correlationId
  source := envelope.source

def replayEvent (env : Env) (scope : Scope) (replies : Replies) (eventId deliveryId : Option String) :
    Eff Bus PublishReport := do
  let letters ← Eff.read Bus.deadLetters
  let events ← Eff.read Bus.events
  match deliveryId with
  | some id =>
    match findDeadLetter letters id with
    | none => Eff.fail s!"dlq delivery {id} not found"
    | some letter =>
      publishEventInternal env scope replies letter.record.event.request
        (some letter.record.subscriptionId) (some letter.record.deliveryId)
  | none =>
    match eventId with
    | none => Eff.fail "either event_id or delivery_id is required for replay"
    | some id =>
      match findEvent events id with
      | none => Eff.fail s!"event {id} not found"
      | some envelope => publishEventInternal env scope replies envelope.request none none

end CapabilityEvents
