import GreenticOperator.Lib.Eff
import GreenticOperator.RunnerHost.Types

/-!
# The event bus of one tenant and team

`src/capability_events.rs`, the records and the logs. The events, the deliveries and the
dead letters are three files that only grow. Next to each dead letter the bus remembers
which subscription failed, and it records every call of a capability with its answer;
nothing reads these two but the laws.
-/

namespace CapabilityEvents

open RunnerHost

/-- What a publisher or subscriber needs to know of a topic. -/
structure ResolvedTopicRecord where
  topic : String
  eventType : String
  packPath : String
  payloadSchemaRef : Option String
deriving DecidableEq, Repr

structure ResolvedSubscriptionRecord where
  subscriptionId : String
  topic : String
  eventType : String
  packId : String
  packPath : String
  capabilityId : String
  op : String
  payloadSchemaRef : Option String
  filterJsonPointer : Option String
  filterEquals : Option String
  maxAttempts : Nat
deriving DecidableEq, Repr

structure CapabilityEventEnvelope where
  eventId : String
  topic : String
  eventType : String
  payload : Json.Value
  correlationId : Option String
  source : Option String
  publishedAtUnixMs : UInt64

structure PublishEventRequest where
  topic : String
  eventType : Option String
  payload : Json.Value
  correlationId : Option String
  source : Option String

structure CapabilityDeliveryRecord where
  deliveryId : String
  eventId : String
  subscriptionId : String
  capabilityId : String
  op : String
  status : String
  attempts : Nat
  error : Option String
  deliveredAtUnixMs : UInt64
deriving DecidableEq, Repr

structure CapabilityDeadLetterRecord where
  deliveryId : String
  event : CapabilityEventEnvelope
  subscriptionId : String
  capabilityId : String
  op : String
  attempts : Nat
  error : String
  failedAtUnixMs : UInt64

structure PublishReport where
  matchedSubscriptions : Nat
  successfulDeliveries : Nat
  failedDeliveries : Nat
deriving DecidableEq, Repr

/-- A dead letter, with the subscription it was written for. -/
structure DeadLetter where
  record : CapabilityDeadLetterRecord
  subscription : ResolvedSubscriptionRecord

/-- A call of a subscription's capability with a payload, and the answer. -/
structure Invocation where
  subscription : ResolvedSubscriptionRecord
  payload : Json.Value
  reply : Except String FlowOutcome

structure Bus where
  events : List CapabilityEventEnvelope
  deliveries : List CapabilityDeliveryRecord
  deadLetters : List DeadLetter
  invocations : List Invocation
  /-- How many ids were drawn. -/
  drawn : Nat
  /-- How often the clock was read. -/
  ticks : Nat

def Bus.empty : Bus := ⟨[], [], [], [], 0, 0⟩

/-- What comes from outside: the `n`th id drawn, the `n`th reading of the clock, and
whether a payload meets a schema of a pack. -/
structure Env where
  uuid : Nat → String
  clock : Nat → UInt64
  validateSchema : String → String → Json.Value → Except String Unit

def newUuid (env : Env) : Eff Bus String := fun b => (.ok (env.uuid b.drawn), { b with drawn := b.drawn + 1 })

def nowUnixMs (env : Env) : Eff Bus UInt64 := fun b => (.ok (env.clock b.ticks), { b with ticks := b.ticks + 1 })

def appendEvent (event : CapabilityEventEnvelope) : Eff Bus Unit :=
  Eff.modify fun b => { b with events := b.events ++ [event] }

def appendDelivery (record : CapabilityDeliveryRecord) : Eff Bus Unit :=
  Eff.modify fun b => { b with deliveries := b.deliveries ++ [record] }

def appendDeadLetter (letter : DeadLetter) : Eff Bus Unit :=
  Eff.modify fun b => { b with deadLetters := b.deadLetters ++ [letter] }

end CapabilityEvents
