import GreenticOperator.Laws.CapabilityEvents.Delivery
import GreenticOperator.Lib.Run
import Mathlib.Data.List.Nodup

/-!
# Histories of publications and replays

A history starts from empty logs; each of its publications and replays sees the topics and
subscriptions declared when it runs. `Sound` is what every state of it keeps: events have
pairwise different ids, ids not drawn yet occur nowhere, and a dead letter names the
subscription it was written for, whose schema had accepted the payload.

`history_sound` says the two things replays are for, in every history whose replays of dead
letters meet `StepOk`: no event takes the id of an earlier one, and a replay of a dead
letter calls the subscription that failed, with the recorded payload, and no other. The
condition leaves out a second replay of the same delivery, whose event takes the id of the
first one's, and a letter whose subscription is gone or shares its id with another one that
the event matches. While the declarations stay the same only the sharing can occur
(`redeliverable_of_declared`).
-/

namespace CapabilityEvents

open RunnerHost

/-- A publication or a replay, with what is declared in scope and the runner's answers. -/
inductive Op
  | publish (scope : Scope) (request : PublishEventRequest) (replies : Replies)
  | replay (scope : Scope) (eventId deliveryId : Option String) (replies : Replies)

def Op.scope : Op → Scope
  | .publish scope _ _ => scope
  | .replay scope _ _ _ => scope

def perform (env : Env) : Op → Eff Bus PublishReport
  | .publish scope request replies => publishEvent env scope replies request
  | .replay scope eventId deliveryId replies => replayEvent env scope replies eventId deliveryId

/-- An operation leaves what it did before it failed. -/
def exec (env : Env) (op : Op) (b : Bus) : Bus := ((perform env op).run b).2

/-- What is known of random UUIDs: no two are alike, and none looks like a replay's id. -/
structure Uuids (env : Env) : Prop where
  injective : Function.Injective env.uuid
  not_replay : ∀ n deliveryId, env.uuid n ≠ "replay-" ++ deliveryId

/-! ## What a history keeps -/

/-- The schema of the subscription that failed had accepted the payload. -/
def LetterAccepted (env : Env) (letter : DeadLetter) : Prop :=
  Accepts env letter.subscription.packPath letter.subscription.payloadSchemaRef
    letter.record.event.payload

structure Sound (env : Env) (b : Bus) : Prop where
  eventIds : (b.events.map CapabilityEventEnvelope.eventId).Nodup
  eventsDrawn : ∀ event ∈ b.events, ∀ n, b.drawn ≤ n → event.eventId ≠ env.uuid n
  deliveryIds : (b.deadLetters.map fun letter => letter.record.deliveryId).Nodup
  lettersDrawn : ∀ letter ∈ b.deadLetters, ∀ n, b.drawn ≤ n → letter.record.deliveryId ≠ env.uuid n
  letters : ∀ letter ∈ b.deadLetters, LetterAccepted env letter

theorem sound_empty (env : Env) : Sound env Bus.empty where
  eventIds := List.nodup_nil
  eventsDrawn := fun _ h => absurd h List.not_mem_nil
  deliveryIds := List.nodup_nil
  lettersDrawn := fun _ h => absurd h List.not_mem_nil
  letters := fun _ h => absurd h List.not_mem_nil

/-! ## One publication -/

variable {env : Env} {scope : Scope}

/-- Looking for the topic of a written event finds the topic it was written for. -/
theorem findTopic_again {topics : List ResolvedTopicRecord} {request again : PublishEventRequest}
    {topic : ResolvedTopicRecord} (h : findTopic topics request = some topic)
    (htopic : again.topic = topic.topic) (htype : again.eventType = some topic.eventType) :
    findTopic topics again = some topic := by
  unfold findTopic at h ⊢
  induction topics with
  | nil => cases h
  | cons item topics ih =>
    rw [List.find?_cons] at h ⊢
    rw [htopic, htype]
    split at h
    next hfound =>
      cases h
      simp only [beq_self_eq_true, Bool.and_self]
    next hmissed =>
      -- An item of the same topic and type would have been found the first time.
      have hnot : (item.topic == topic.topic && topic.eventType == item.eventType) = false := by
        have hfound := List.find?_some h
        rw [Bool.and_eq_true, beq_iff_eq] at hfound
        rw [← Bool.not_eq_true]
        intro hsame
        rw [Bool.and_eq_true, beq_iff_eq, beq_iff_eq] at hsame
        rw [← hsame.2, hsame.1, hfound.1] at hmissed
        rw [Bool.and_eq_false_iff] at hmissed
        rcases hmissed with hmissed | hmissed
        · simp at hmissed
        · rw [hfound.2] at hmissed
          cases hmissed
      rw [hnot]
      rw [htopic, htype] at ih
      exact ih h

theorem isMatch_none {event : CapabilityEventEnvelope} {only : Option String}
    {item : ResolvedSubscriptionRecord} (h : isMatch event only item = true) :
    isMatch event none item = true := by
  unfold isMatch at h ⊢
  simp only [Bool.and_eq_true] at h ⊢
  exact ⟨⟨h.1.1, trivial⟩, h.2⟩

/-- The declarations under which a dead letter was written: its subscription and the topic
of its event. -/
structure DeclaredIn (env : Env) (scope : Scope) (letter : DeadLetter) : Prop where
  subscriptionId : letter.record.subscriptionId = letter.subscription.subscriptionId
  declared : letter.subscription ∈ scope.subscriptions
  matching : isMatch letter.record.event none letter.subscription = true
  topic : ∃ topic, findTopic scope.topics letter.record.event.request = some topic
    ∧ Accepts env topic.packPath topic.payloadSchemaRef letter.record.event.payload

theorem letter_of_accounted {event : CapabilityEventEnvelope} {s : Served} {letter : DeadLetter}
    (hs : Accounted env event s) (hletter : s.letter = some letter) :
    letter.record.deliveryId = s.record.deliveryId ∧ letter.record.event = event
      ∧ letter.record.subscriptionId = s.subscription.subscriptionId
      ∧ letter.subscription = s.subscription := by
  rcases hs.ended with ⟨-, -, hnone⟩ | ⟨-, -, -, letter', hsome, hletter'⟩
  · rw [hnone] at hletter
    cases hletter
  · rw [hsome, Option.some.injEq] at hletter
    exact hletter ▸ hletter'

theorem letterAccepted_of_served {event : CapabilityEventEnvelope} {s : Served} {letter : DeadLetter}
    (hs : Accounted env event s) (hletter : s.letter = some letter) : LetterAccepted env letter := by
  obtain ⟨-, hrecord, -, hsub⟩ := letter_of_accounted hs hletter
  unfold LetterAccepted
  rw [hrecord, hsub]
  exact hs.accepted

theorem declaredIn_of_served {request : PublishEventRequest} {topic : ResolvedTopicRecord}
    {event : CapabilityEventEnvelope} {only : Option String} {s : Served} {letter : DeadLetter}
    (htopic : findTopic scope.topics request = some topic)
    (hschema : Accepts env topic.packPath topic.payloadSchemaRef event.payload)
    (hevent : event.topic = topic.topic ∧ event.eventType = topic.eventType)
    (hdeclared : s.subscription ∈ scope.subscriptions.filter (isMatch event only))
    (hs : Accounted env event s) (hletter : s.letter = some letter) :
    DeclaredIn env scope letter := by
  obtain ⟨-, hrecord, hid, hsub⟩ := letter_of_accounted hs hletter
  obtain ⟨hmem, hmatch⟩ := List.mem_filter.mp hdeclared
  refine ⟨by rw [hid, hsub], hsub ▸ hmem, ?_, topic, ?_, ?_⟩
  · rw [hrecord, hsub]
    exact isMatch_none hmatch
  · rw [hrecord]
    exact findTopic_again htopic hevent.1 (congrArg some hevent.2)
  · rw [hrecord]
    exact hschema

theorem sublist_letterIds {event : CapabilityEventEnvelope} {served : List Served}
    (h : ∀ s ∈ served, Accounted env event s) :
    ((served.flatMap fun s => s.letter.toList).map fun letter => letter.record.deliveryId).Sublist
      (served.map fun s => s.record.deliveryId) := by
  induction served with
  | nil => exact List.Sublist.slnil
  | cons s served ih =>
    have ih := ih fun s' hs' => h s' (List.mem_cons_of_mem s hs')
    rw [List.flatMap_cons, List.map_append, List.map_cons]
    cases hletter : s.letter with
    | none => exact ih.cons _
    | some letter =>
      have hid := (letter_deliveryId (h s List.mem_cons_self) hletter).1
      simp only [Option.toList_some, List.map_cons, List.map_nil, List.singleton_append, hid]
      exact ih.cons_cons _

theorem nodup_drawn {first : Nat} {served : List Served} (hinj : Function.Injective env.uuid)
    (hids : DrawnFrom env first served) : (served.map fun s => s.record.deliveryId).Nodup := by
  have hmap : (served.map fun s => s.record.deliveryId)
      = (List.range served.length).map fun i => env.uuid (first + i) := by
    apply List.ext_getElem?
    intro i
    rw [List.getElem?_map, List.getElem?_map]
    cases hi : served[i]? with
    | none =>
      have hlen := List.getElem?_eq_none_iff.mp hi
      rw [List.getElem?_eq_none (by rwa [List.length_range])]
      rfl
    | some s =>
      have hlen := (List.getElem?_eq_some_iff.mp hi).1
      rw [List.getElem?_range hlen]
      exact congrArg some (hids i s hi)
  have hshift : Function.Injective fun i => env.uuid (first + i) := by
    intro i j h
    have := hinj h
    omega
  rw [hmap]
  exact List.nodup_range.map hshift

/-- The bus after the loop, however it ended. -/
theorem deliverEach_after (replies : Replies) (event : CapabilityEventEnvelope)
    (matched : List ResolvedSubscriptionRecord) (report : PublishReport) (b : Bus) :
    ∃ served more, served.map Served.subscription <+: matched
      ∧ (∀ s ∈ served, Accounted env event s) ∧ DrawnFrom env b.drawn served
      ∧ ((deliverEach env replies event matched report).run b).2
        = withCalls (applyAll event.payload b served) more := by
  obtain ⟨served, more, hprefix, hall, hids, hend⟩ := @deliverEach_spec env event replies matched report b
  rcases hend with ⟨-, -, hrun⟩ | ⟨-, -, e, hrun⟩
  · refine ⟨served, [], hprefix, hall, hids, ?_⟩
    rw [hrun]
    simp only [withCalls, List.append_nil]
  · exact ⟨served, more, hprefix, hall, hids, by rw [hrun]⟩

section Publication

variable {b : Bus} {event : CapabilityEventEnvelope} {served : List Served} {first : Nat}

/-- New letters have new ids. -/
theorem letter_drawn (hall : ∀ s ∈ served, Accounted env event s) (hids : DrawnFrom env first served)
    {letter : DeadLetter} (h : letter ∈ served.flatMap fun s => s.letter.toList) :
    ∃ s ∈ served, s.letter = some letter ∧ ∃ i < served.length,
      letter.record.deliveryId = env.uuid (first + i) := by
  obtain ⟨s, hs, hletter⟩ := List.mem_flatMap.mp h
  have hletter := Option.mem_toList.mp hletter
  obtain ⟨i, hi⟩ := List.mem_iff_getElem?.mp hs
  refine ⟨s, hs, hletter, i, (List.getElem?_eq_some_iff.mp hi).1, ?_⟩
  rw [(letter_deliveryId (hall s hs) hletter).1, hids i s hi]

theorem nodup_deliveryIds (hu : Uuids env) (hb : Sound env b) (hfirst : b.drawn ≤ first)
    (hall : ∀ s ∈ served, Accounted env event s) (hids : DrawnFrom env first served) :
    ((b.deadLetters ++ served.flatMap fun s => s.letter.toList).map
      fun letter => letter.record.deliveryId).Nodup := by
  rw [List.map_append, List.nodup_append]
  refine ⟨hb.deliveryIds, (sublist_letterIds hall).nodup (nodup_drawn hu.injective hids), ?_⟩
  intro x hx y hy heq
  obtain ⟨old, hold, rfl⟩ := List.mem_map.mp hx
  obtain ⟨new, hnew, rfl⟩ := List.mem_map.mp hy
  obtain ⟨-, -, -, i, -, hid⟩ := letter_drawn hall hids hnew
  exact hb.lettersDrawn old hold (first + i) (Nat.le_trans hfirst (Nat.le_add_right _ _)) (heq.trans hid)

end Publication

/-- The id of a new event is no id of the log, and not one still to be drawn. -/
theorem eventIdOf_new (hu : Uuids env) {b : Bus} (hb : Sound env b)
    {replayDeliveryId : Option String}
    (hnew : ∀ deliveryId, replayDeliveryId = some deliveryId →
      ∀ event ∈ b.events, event.eventId ≠ "replay-" ++ deliveryId) :
    (∀ event ∈ b.events, event.eventId ≠ eventIdOf env b replayDeliveryId)
      ∧ ∀ n, b.drawn + (if replayDeliveryId.isSome then 0 else 1) ≤ n →
          eventIdOf env b replayDeliveryId ≠ env.uuid n := by
  cases replayDeliveryId with
  | some deliveryId =>
    exact ⟨hnew deliveryId rfl, fun n _ => (hu.not_replay n deliveryId).symm⟩
  | none =>
    refine ⟨fun event hevent => hb.eventsDrawn event hevent b.drawn (Nat.le_refl _), fun n hn heq => ?_⟩
    have hn' : b.drawn + 1 ≤ n := hn
    have hsame : b.drawn = n := hu.injective heq
    omega

/-- What a publication whose topic and schema check out leaves: its event, and what serving
a prefix of the matching subscriptions left. -/
theorem publishEventInternal_after {b : Bus} {replies : Replies} {request : PublishEventRequest}
    {only replayDeliveryId : Option String} {topic : ResolvedTopicRecord}
    (htopic : findTopic scope.topics request = some topic)
    (hschema : Accepts env topic.packPath topic.payloadSchemaRef request.payload) :
    ∃ event served more, event = envelopeOf env b topic request replayDeliveryId
      ∧ (∀ s ∈ served, s.subscription ∈ scope.subscriptions.filter (isMatch event only))
      ∧ (∀ s ∈ served, Accounted env event s)
      ∧ DrawnFrom env (logged b event replayDeliveryId).drawn served
      ∧ ((publishEventInternal env scope replies request only replayDeliveryId).run b).2
        = withCalls (applyAll event.payload (logged b event replayDeliveryId) served) more := by
  rw [publishEventInternal_run htopic hschema]
  obtain ⟨served, more, hprefix, hall, hids, hafter⟩ := @deliverEach_after env replies
    (envelopeOf env b topic request replayDeliveryId)
    (scope.subscriptions.filter (isMatch (envelopeOf env b topic request replayDeliveryId) only))
    ⟨_, 0, 0⟩ (logged b (envelopeOf env b topic request replayDeliveryId) replayDeliveryId)
  exact ⟨_, served, more, rfl, fun s hs => hprefix.subset (List.mem_map_of_mem hs), hall, hids, hafter⟩

/-- A publication that no topic or schema lets through leaves the bus as it was. -/
theorem publishEventInternal_refused {b : Bus} {replies : Replies} {request : PublishEventRequest}
    {only replayDeliveryId : Option String}
    (h : ¬ ∃ topic, findTopic scope.topics request = some topic
      ∧ Accepts env topic.packPath topic.payloadSchemaRef request.payload) :
    ((publishEventInternal env scope replies request only replayDeliveryId).run b).2 = b := by
  unfold publishEventInternal
  cases htopic : findTopic scope.topics request with
  | none => rfl
  | some topic =>
    have hschema : ¬ Accepts env topic.packPath topic.payloadSchemaRef request.payload :=
      fun hschema => h ⟨topic, htopic, hschema⟩
    simp only [Eff.bind_run, Eff.lift_run, checkSchema_error hschema]

/-- A new event that is logged keeps a bus sound. -/
theorem sound_logged (hu : Uuids env) {b : Bus} (hb : Sound env b) {event : CapabilityEventEnvelope}
    {replayDeliveryId : Option String} (hid : event.eventId = eventIdOf env b replayDeliveryId)
    (hnew : ∀ deliveryId, replayDeliveryId = some deliveryId →
      ∀ event ∈ b.events, event.eventId ≠ "replay-" ++ deliveryId) :
    Sound env (logged b event replayDeliveryId) := by
  obtain ⟨hold, hdrawn⟩ := eventIdOf_new hu hb hnew
  have hmore : b.drawn ≤ (logged b event replayDeliveryId).drawn := Nat.le_add_right _ _
  constructor
  case eventIds =>
    show ((b.events ++ [event]).map CapabilityEventEnvelope.eventId).Nodup
    rw [List.map_append, List.nodup_append]
    refine ⟨hb.eventIds, List.nodup_singleton _, fun x hx y hy heq => ?_⟩
    obtain ⟨old, hmem, rfl⟩ := List.mem_map.mp hx
    rw [List.map_singleton, List.mem_singleton] at hy
    exact hold old hmem (by rw [heq, hy, hid])
  case eventsDrawn =>
    intro event' hevent' n hn
    rcases List.mem_append.mp hevent' with hevent' | hevent'
    · exact hb.eventsDrawn event' hevent' n (Nat.le_trans hmore hn)
    · rw [List.mem_singleton.mp hevent', hid]
      exact hdrawn n hn
  case deliveryIds => exact hb.deliveryIds
  case lettersDrawn => exact fun letter hletter n hn => hb.lettersDrawn letter hletter n (Nat.le_trans hmore hn)
  case letters => exact hb.letters

/-- Serving subscriptions keeps a bus sound. -/
theorem sound_applyAll (hu : Uuids env) {b : Bus} (hb : Sound env b) {event : CapabilityEventEnvelope}
    {served : List Served} (payload : Json.Value) (hall : ∀ s ∈ served, Accounted env event s)
    (hids : DrawnFrom env b.drawn served) : Sound env (applyAll payload b served) := by
  have hmore : b.drawn ≤ (applyAll payload b served).drawn := by
    rw [applyAll_drawn]
    exact Nat.le_add_right _ _
  constructor
  case eventIds =>
    rw [applyAll_events]
    exact hb.eventIds
  case eventsDrawn =>
    rw [applyAll_events]
    exact fun event hevent n hn => hb.eventsDrawn event hevent n (Nat.le_trans hmore hn)
  case deliveryIds =>
    rw [applyAll_deadLetters]
    exact nodup_deliveryIds hu hb (Nat.le_refl _) hall hids
  case lettersDrawn =>
    rw [applyAll_deadLetters]
    intro letter hletter n hn
    rcases List.mem_append.mp hletter with hletter | hletter
    · exact hb.lettersDrawn letter hletter n (Nat.le_trans hmore hn)
    · obtain ⟨-, -, -, i, hi, hdeliveryId⟩ := letter_drawn hall hids hletter
      rw [hdeliveryId]
      intro heq
      have hsame := hu.injective heq
      rw [applyAll_drawn] at hn
      omega
  case letters =>
    rw [applyAll_deadLetters]
    intro letter hletter
    rcases List.mem_append.mp hletter with hletter | hletter
    · exact hb.letters letter hletter
    · obtain ⟨s, hs, hsome, -⟩ := letter_drawn hall hids hletter
      exact letterAccepted_of_served (hall s hs) hsome

theorem sound_withCalls {b : Bus} (hb : Sound env b) (more : List Invocation) : Sound env (withCalls b more) :=
  ⟨hb.eventIds, hb.eventsDrawn, hb.deliveryIds, hb.lettersDrawn, hb.letters⟩

/-- **A publication keeps a sound bus sound** when its event takes a new id. -/
theorem sound_publishEventInternal (hu : Uuids env) {b : Bus} (hb : Sound env b)
    {replies : Replies} {request : PublishEventRequest} {only replayDeliveryId : Option String}
    (hnew : ∀ deliveryId, replayDeliveryId = some deliveryId →
      ∀ event ∈ b.events, event.eventId ≠ "replay-" ++ deliveryId) :
    Sound env ((publishEventInternal env scope replies request only replayDeliveryId).run b).2 := by
  by_cases h : ∃ topic, findTopic scope.topics request = some topic
      ∧ Accepts env topic.packPath topic.payloadSchemaRef request.payload
  · obtain ⟨topic, htopic, hschema⟩ := h
    obtain ⟨event, served, more, hevent, -, hall, hids, hafter⟩ :=
      @publishEventInternal_after env scope b replies request only replayDeliveryId topic htopic hschema
    have hid : event.eventId = eventIdOf env b replayDeliveryId := by rw [hevent]; rfl
    have hlogged : Sound env (logged b event replayDeliveryId) := sound_logged hu hb hid hnew
    rw [hafter]
    exact sound_withCalls (sound_applyAll hu hlogged event.payload hall hids) more
  · rw [publishEventInternal_refused h]
    exact hb

/-- The dead letters a publication adds were written under the declarations of its scope. -/
theorem declaredIn_publishEventInternal {b : Bus} {replies : Replies} {request : PublishEventRequest}
    {only replayDeliveryId : Option String} {letter : DeadLetter}
    (hletter : letter
      ∈ ((publishEventInternal env scope replies request only replayDeliveryId).run b).2.deadLetters) :
    letter ∈ b.deadLetters ∨ DeclaredIn env scope letter := by
  by_cases h : ∃ topic, findTopic scope.topics request = some topic
      ∧ Accepts env topic.packPath topic.payloadSchemaRef request.payload
  · obtain ⟨topic, htopic, hschema⟩ := h
    obtain ⟨event, served, more, hevent, hmem, hall, hids, hafter⟩ :=
      @publishEventInternal_after env scope b replies request only replayDeliveryId topic htopic hschema
    rw [hafter] at hletter
    have hletter : letter ∈ (applyAll event.payload _ served).deadLetters := hletter
    rw [applyAll_deadLetters] at hletter
    refine (List.mem_append.mp hletter).imp id fun hletter => ?_
    obtain ⟨s, hs, hsome, -⟩ := letter_drawn hall hids hletter
    refine declaredIn_of_served htopic ?_ ?_ (hmem s hs) (hall s hs) hsome
    · rw [hevent]
      exact hschema
    · rw [hevent]
      exact ⟨rfl, rfl⟩
  · rw [publishEventInternal_refused h] at hletter
    exact Or.inl hletter

/-! ## Replays of dead letters -/

/-- Whether a scope still lets a dead letter be delivered: the topic of its event accepts
the payload, and of the subscriptions with the letter's id exactly the one that failed
matches the event. -/
structure Redeliverable (env : Env) (scope : Scope) (letter : DeadLetter) : Prop where
  topic : ∃ topic, findTopic scope.topics letter.record.event.request = some topic
    ∧ Accepts env topic.packPath topic.payloadSchemaRef letter.record.event.payload
  alone : scope.subscriptions.filter (isMatch letter.record.event (some letter.record.subscriptionId))
    = [letter.subscription]

/-- The condition on a step: a dead letter is replayed only once, and where it can be
delivered to the subscription that failed and no other. -/
def StepOk (env : Env) (b : Bus) : Op → Prop
  | .publish _ _ _ => True
  | .replay _ _ none _ => True
  | .replay scope _ (some deliveryId) _ => ∀ letter,
      findDeadLetter b.deadLetters deliveryId = some letter →
        (∀ event ∈ b.events, event.eventId ≠ "replay-" ++ deliveryId)
          ∧ Redeliverable env scope letter

/-- What the replay of a dead letter is for: the recorded event is written again, and the
subscription that failed, and no other, is called with its payload. -/
structure Redelivers (letter : DeadLetter) (before after : Bus) : Prop where
  event : ∃ event, after.events = before.events ++ [event]
    ∧ event.topic = letter.record.event.topic ∧ event.eventType = letter.record.event.eventType
    ∧ event.payload = letter.record.event.payload
    ∧ event.correlationId = letter.record.event.correlationId
    ∧ event.source = letter.record.event.source
  called : ∃ made, made ≠ [] ∧ after.invocations = before.invocations
    ++ calls letter.subscription letter.record.event.payload made

/-- What a step of a history is for: a replay of a dead letter redelivers it, and the event
a replay by event id selects is the only one of that id. -/
def StepSound (env : Env) (b : Bus) : Op → Prop
  | .publish _ _ _ => True
  | .replay scope eventId (some deliveryId) replies => ∀ letter,
      findDeadLetter b.deadLetters deliveryId = some letter →
        Redelivers letter b (exec env (.replay scope eventId (some deliveryId) replies) b)
  | .replay _ eventId none _ => ∀ id, eventId = some id → ∀ event, findEvent b.events id = some event →
      ∀ other ∈ b.events, other.eventId = id → other = event

theorem findDeadLetter_some {letters : List DeadLetter} {deliveryId : String} {letter : DeadLetter}
    (h : findDeadLetter letters deliveryId = some letter) :
    letter ∈ letters ∧ letter.record.deliveryId = deliveryId := by
  unfold findDeadLetter at h
  have hid := List.find?_some h
  exact ⟨List.mem_of_find?_eq_some h, beq_iff_eq.mp hid⟩

theorem findEvent_some {events : List CapabilityEventEnvelope} {eventId : String}
    {event : CapabilityEventEnvelope} (h : findEvent events eventId = some event) :
    event ∈ events ∧ event.eventId = eventId := by
  unfold findEvent at h
  have hid := List.find?_some h
  exact ⟨List.mem_of_find?_eq_some h, beq_iff_eq.mp hid⟩

/-- The replay of a dead letter is a publication of its event. -/
theorem replayEvent_run {b : Bus} {replies : Replies} {eventId : Option String} {deliveryId : String}
    {letter : DeadLetter} (h : findDeadLetter b.deadLetters deliveryId = some letter) :
    (replayEvent env scope replies eventId (some deliveryId)).run b
      = (publishEventInternal env scope replies letter.record.event.request
          (some letter.record.subscriptionId) (some letter.record.deliveryId)).run b := by
  unfold replayEvent
  simp only [Eff.bind_run, Eff.read_run, h]

/-- Delivering to one subscription whose schema accepts the payload calls it, and writes no
event. -/
theorem deliverEach_singleton {event : CapabilityEventEnvelope}
    {subscription : ResolvedSubscriptionRecord} (replies : Replies) (report : PublishReport) (b : Bus)
    (h : Accepts env subscription.packPath subscription.payloadSchemaRef event.payload) :
    ∃ made, made ≠ []
      ∧ ((deliverEach env replies event [subscription] report).run b).2.invocations
        = b.invocations ++ calls subscription event.payload made
      ∧ ((deliverEach env replies event [subscription] report).run b).2.events = b.events := by
  by_cases hservable : Servable env (replies 0) event.payload subscription
  · obtain ⟨s, rfl, hs, -, hrun⟩ := deliver_of_servable report b hservable
    have hnil : s.replies ≠ [] := by
      intro hnil
      have := hs.attempted
      rw [hnil] at this
      exact absurd this (by decide)
    refine ⟨s.replies, hnil, ?_, ?_⟩
    · rw [deliverEach, Eff.bind_run_of_ok hrun]
      rfl
    · rw [deliverEach, Eff.bind_run_of_ok hrun]
      rfl
  · obtain ⟨e, made, hrun, hmade⟩ := deliver_of_not_servable report b hservable
    refine ⟨made, hmade h, ?_, ?_⟩
    · rw [deliverEach, Eff.bind_run_of_error hrun]
      rfl
    · rw [deliverEach, Eff.bind_run_of_error hrun]
      rfl

theorem isMatch_congr {event again : CapabilityEventEnvelope} (only : Option String)
    (htopic : event.topic = again.topic) (htype : event.eventType = again.eventType)
    (hpayload : event.payload = again.payload) : isMatch event only = isMatch again only := by
  funext item
  unfold isMatch
  rw [htopic, htype, hpayload]

theorem findTopic_some {topics : List ResolvedTopicRecord} {event : CapabilityEventEnvelope}
    {topic : ResolvedTopicRecord} (h : findTopic topics event.request = some topic) :
    topic.topic = event.topic ∧ topic.eventType = event.eventType := by
  unfold findTopic at h
  have hfound := List.find?_some h
  rw [Bool.and_eq_true, beq_iff_eq] at hfound
  exact ⟨hfound.1, (beq_iff_eq.mp hfound.2).symm⟩

/-- **A replay that can be delivered redelivers** the dead letter. -/
theorem redelivers_of_redeliverable {b : Bus} {replies : Replies} {eventId : Option String}
    {deliveryId : String} {letter : DeadLetter}
    (hfind : findDeadLetter b.deadLetters deliveryId = some letter)
    (haccepted : LetterAccepted env letter) (hletter : Redeliverable env scope letter) :
    Redelivers letter b (exec env (.replay scope eventId (some deliveryId) replies) b) := by
  obtain ⟨topic, htopic, hschema⟩ := hletter.topic
  obtain ⟨hname, htype⟩ := findTopic_some htopic
  have hexec : exec env (.replay scope eventId (some deliveryId) replies) b
      = ((publishEventInternal env scope replies letter.record.event.request
          (some letter.record.subscriptionId) (some letter.record.deliveryId)).run b).2 := by
    show ((replayEvent env scope replies eventId (some deliveryId)).run b).2 = _
    rw [replayEvent_run hfind]
  rw [hexec, publishEventInternal_run htopic hschema]
  generalize hevent : envelopeOf env b topic letter.record.event.request
    (some letter.record.deliveryId) = event
  have htopic' : event.topic = letter.record.event.topic := by rw [← hevent, ← hname]; rfl
  have htype' : event.eventType = letter.record.event.eventType := by rw [← hevent, ← htype]; rfl
  have hpayload : event.payload = letter.record.event.payload := by rw [← hevent]; rfl
  rw [isMatch_congr _ htopic' htype' hpayload, hletter.alone]
  obtain ⟨made, hmade, hinvocations, hevents⟩ := deliverEach_singleton replies
    ⟨[letter.subscription].length, 0, 0⟩ (logged b event (some letter.record.deliveryId))
    (by rw [hpayload]; exact haccepted)
  refine ⟨⟨event, hevents, htopic', htype', hpayload, ?_, ?_⟩, ⟨made, hmade, ?_⟩⟩
  · rw [← hevent]
    rfl
  · rw [← hevent]
    rfl
  · rw [hinvocations, hpayload]
    rfl

theorem isMatch_only {event : CapabilityEventEnvelope} {item : ResolvedSubscriptionRecord}
    (h : isMatch event none item = true) : isMatch event (some item.subscriptionId) item = true := by
  unfold isMatch at h ⊢
  simp only [Bool.and_eq_true, beq_self_eq_true, and_true] at h ⊢
  exact h

/-- A list with at most one element that has one. -/
theorem eq_singleton_of_mem {α : Type} {l : List α} {a : α} (hmem : a ∈ l) (hlen : l.length ≤ 1) :
    l = [a] := by
  match l, hmem with
  | [b], hmem => rw [List.mem_singleton.mp hmem]
  | _ :: _ :: _, _ =>
    simp only [List.length_cons] at hlen
    omega

/-- Under the declarations a letter was written under, it can be delivered unless another
matching subscription has the same id. -/
theorem redeliverable_of_declared {letter : DeadLetter} (h : DeclaredIn env scope letter)
    (hone : (scope.subscriptions.filter
      (isMatch letter.record.event (some letter.record.subscriptionId))).length ≤ 1) :
    Redeliverable env scope letter where
  topic := h.topic
  alone := by
    refine eq_singleton_of_mem (List.mem_filter.mpr ⟨h.declared, ?_⟩) hone
    rw [h.subscriptionId]
    exact isMatch_only h.matching

/-- Where every declared subscription has an id of its own, no two share a letter's. -/
theorem filter_isMatch_length {subscriptions : List ResolvedSubscriptionRecord}
    {event : CapabilityEventEnvelope} {id : String}
    (h : (subscriptions.map ResolvedSubscriptionRecord.subscriptionId).Nodup) :
    (subscriptions.filter (isMatch event (some id))).length ≤ 1 := by
  have hnodup : ((subscriptions.filter (isMatch event (some id))).map
      ResolvedSubscriptionRecord.subscriptionId).Nodup :=
    (List.filter_sublist.map ResolvedSubscriptionRecord.subscriptionId).nodup h
  have hids : ∀ found ∈ (subscriptions.filter (isMatch event (some id))).map
      ResolvedSubscriptionRecord.subscriptionId, found = id := by
    intro found hfound
    obtain ⟨item, hitem, rfl⟩ := List.mem_map.mp hfound
    have hmatch := (List.mem_filter.mp hitem).2
    unfold isMatch at hmatch
    simp only [Bool.and_eq_true, beq_iff_eq] at hmatch
    exact hmatch.1.2.symm
  rw [List.eq_replicate_of_mem hids, List.nodup_replicate, List.length_map] at hnodup
  exact hnodup

/-! ## Histories -/

/-- One step under the condition keeps a sound bus sound. -/
theorem sound_exec (hu : Uuids env) {b : Bus} {op : Op} (hok : StepOk env b op)
    (hb : Sound env b) : Sound env (exec env op b) := by
  cases op with
  | publish scope request replies =>
    exact sound_publishEventInternal hu hb fun deliveryId h => nomatch h
  | replay scope eventId deliveryId replies =>
    cases deliveryId with
    | none =>
      cases eventId with
      | none => exact hb
      | some id =>
        show Sound env ((replayEvent env scope replies (some id) none).run b).2
        unfold replayEvent
        simp only [Eff.bind_run, Eff.read_run]
        cases findEvent b.events id with
        | none => exact hb
        | some event => exact sound_publishEventInternal hu hb fun deliveryId h => nomatch h
    | some deliveryId =>
      show Sound env ((replayEvent env scope replies eventId (some deliveryId)).run b).2
      cases hfind : findDeadLetter b.deadLetters deliveryId with
      | none =>
        unfold replayEvent
        simp only [Eff.bind_run, Eff.read_run, hfind]
        exact hb
      | some letter =>
        rw [replayEvent_run hfind]
        refine sound_publishEventInternal hu hb fun id hid => ?_
        cases hid
        rw [(findDeadLetter_some hfind).2]
        exact (hok letter hfind).1

theorem stepSound_of_sound {b : Bus} {op : Op} (hok : StepOk env b op) (hb : Sound env b) :
    StepSound env b op := by
  cases op with
  | publish scope request replies => trivial
  | replay scope eventId deliveryId replies =>
    cases deliveryId with
    | none =>
      intro id _ event hfind other hother hid
      obtain ⟨hmem, hsame⟩ := findEvent_some hfind
      exact List.inj_on_of_nodup_map hb.eventIds hother hmem (hid.trans hsame.symm)
    | some deliveryId =>
      intro letter hfind
      exact redelivers_of_redeliverable hfind (hb.letters letter (findDeadLetter_some hfind).1)
        (hok letter hfind).2

/-- A history is sound: event ids differ in every state, and every step does what it is for. -/
def HistorySound (env : Env) (ops : List Op) : Prop :=
  ((Run.run (exec env) ops Bus.empty).events.map CapabilityEventEnvelope.eventId).Nodup
    ∧ ∀ step ∈ Run.steps (exec env) ops Bus.empty,
        (step.1.events.map CapabilityEventEnvelope.eventId).Nodup ∧ StepSound env step.1 step.2

/-- **Every history whose steps meet the condition is sound.** -/
theorem history_sound {ops : List Op} (hu : Uuids env)
    (hok : ∀ step ∈ Run.steps (exec env) ops Bus.empty, StepOk env step.1 step.2) :
    HistorySound env ops := by
  obtain ⟨hend, hsteps⟩ := Run.invariant_run (sound_empty env)
    (fun _ _ hok hb => sound_exec hu hok hb) hok
  refine ⟨hend.eventIds, fun step hstep => ⟨(hsteps step hstep).eventIds, ?_⟩⟩
  exact stepSound_of_sound (hok step hstep) (hsteps step hstep)

/-! ## Histories under the same declarations -/

/-- The dead letters a step adds were written under its declarations. -/
theorem declaredIn_exec {b : Bus} {op : Op} {letter : DeadLetter}
    (hletter : letter ∈ (exec env op b).deadLetters) :
    letter ∈ b.deadLetters ∨ DeclaredIn env op.scope letter := by
  cases op with
  | publish scope request replies => exact declaredIn_publishEventInternal hletter
  | replay scope eventId deliveryId replies =>
    have hletter : letter
        ∈ ((replayEvent env scope replies eventId deliveryId).run b).2.deadLetters := hletter
    cases deliveryId with
    | none =>
      cases eventId with
      | none => exact Or.inl hletter
      | some id =>
        unfold replayEvent at hletter
        simp only [Eff.bind_run, Eff.read_run] at hletter
        cases hfind : findEvent b.events id with
        | none =>
          rw [hfind] at hletter
          exact Or.inl hletter
        | some event =>
          rw [hfind] at hletter
          exact declaredIn_publishEventInternal hletter
    | some deliveryId =>
      cases hfind : findDeadLetter b.deadLetters deliveryId with
      | none =>
        unfold replayEvent at hletter
        simp only [Eff.bind_run, Eff.read_run, hfind] at hletter
        exact Or.inl hletter
      | some found =>
        rw [replayEvent_run hfind] at hletter
        exact declaredIn_publishEventInternal hletter

/-- What is left of the condition while the declarations stay the same. -/
def ReplayedOnce (b : Bus) : Op → Prop
  | .publish _ _ _ => True
  | .replay _ _ none _ => True
  | .replay scope _ (some deliveryId) _ => ∀ letter,
      findDeadLetter b.deadLetters deliveryId = some letter →
        (∀ event ∈ b.events, event.eventId ≠ "replay-" ++ deliveryId)
          ∧ (scope.subscriptions.filter
              (isMatch letter.record.event (some letter.record.subscriptionId))).length ≤ 1

/-- **Under the same declarations** a history meets the condition where each delivery is
replayed once and no two matching subscriptions share the id of a letter. -/
theorem stepOk_of_same_scope {ops : List Op} (hscope : ∀ op ∈ ops, op.scope = scope)
    (honce : ∀ step ∈ Run.steps (exec env) ops Bus.empty, ReplayedOnce step.1 step.2) :
    ∀ step ∈ Run.steps (exec env) ops Bus.empty, StepOk env step.1 step.2 := by
  have hdeclared : ∀ step ∈ Run.steps (exec env) ops Bus.empty,
      ∀ letter ∈ step.1.deadLetters, DeclaredIn env scope letter := by
    refine (@Run.invariant_run _ _ (exec env)
      (fun b => ∀ letter ∈ b.deadLetters, DeclaredIn env scope letter)
      (fun _ op => op.scope = scope) ops Bus.empty (fun _ h => absurd h List.not_mem_nil) ?_ ?_).2
    · intro b op hop hb letter hletter
      rcases declaredIn_exec hletter with hletter | hletter
      · exact hb letter hletter
      · exact hop ▸ hletter
    · exact fun step hstep => hscope step.2 (Run.mem_of_mem_steps hstep)
  intro ⟨b, op⟩ hstep
  cases op with
  | publish scope request replies => trivial
  | replay scope' eventId deliveryId replies =>
    cases deliveryId with
    | none => trivial
    | some deliveryId =>
      intro letter hfind
      obtain ⟨hnew, hone⟩ := honce _ hstep letter hfind
      have hsame : scope' = scope := hscope _ (Run.mem_of_mem_steps hstep)
      have hletter := hdeclared _ hstep letter (findDeadLetter_some hfind).1
      exact ⟨hnew, redeliverable_of_declared (hsame ▸ hletter) hone⟩

/-! ## Two packs with a subscription of the same id -/

theorem uuids_demo : Uuids demoEnv where
  injective := demoUuid_injective
  not_replay := by
    intro n deliveryId h
    have h := congrArg (fun text => text.toList.head?) h
    unfold demoEnv demoUuid at h
    simp only [String.toList_append] at h
    cases h

def succeeded : FlowOutcome := ⟨true, none, none, none, .Exec⟩

def refused : FlowOutcome := ⟨false, none, none, some "mailbox full", .Exec⟩

/-- Only the first subscription of a publication fails. -/
def firstRefused : Replies := fun i _ => .ok (if i = 0 then refused else succeeded)

def sharedScope : Scope where
  topics := [demoTopic]
  subscriptions := [demoSubscription "on-order" "mail", demoSubscription "on-order" "audit"]

/-- A publication and a replay of the delivery that failed. -/
def failedThenReplayed (scope : Scope) : List Op :=
  [.publish scope demoRequest firstRefused,
    .replay scope none (some (demoUuid 1)) fun _ _ => .ok succeeded]

/-- The delivery to the one pack failed; its replay calls the other pack too. -/
theorem replay_calls_another_pack : ¬ ∀ (env : Env) (ops : List Op), Uuids env → HistorySound env ops := by
  intro h
  let published := exec demoEnv (.publish sharedScope demoRequest firstRefused) Bus.empty
  let replay : Op := .replay sharedScope none (some (demoUuid 1)) fun _ _ => .ok succeeded
  have hsound : StepSound demoEnv published replay :=
    ((h demoEnv (failedThenReplayed sharedScope) uuids_demo).2 (published, replay)
      (List.mem_cons_of_mem _ List.mem_cons_self)).2
  obtain ⟨letter, hfind⟩ : ∃ letter, findDeadLetter published.deadLetters (demoUuid 1) = some letter :=
    Option.isSome_iff_exists.mp (by decide +kernel)
  obtain ⟨made, -, hcalled⟩ := (hsound letter hfind).called
  have hpacks := congrArg (List.map fun call => call.subscription.packId) hcalled
  have hbefore : published.invocations.map (fun call => call.subscription.packId)
      = ["mail", "mail", "audit"] := by decide +kernel
  have hafter : (exec demoEnv replay published).invocations.map (fun call => call.subscription.packId)
      = ["mail", "mail", "audit", "mail", "audit"] := by decide +kernel
  rw [List.map_append, hbefore, hafter] at hpacks
  have hmore : ["mail", "audit"] = (calls letter.subscription letter.record.event.payload made).map
      fun call => call.subscription.packId := (List.append_right_inj ["mail", "mail", "audit"]).mp hpacks
  have hall : ∀ pack ∈ ["mail", "audit"], pack = letter.subscription.packId := by
    rw [hmore]
    intro pack hpack
    obtain ⟨call, hcall, rfl⟩ := List.mem_map.mp hpack
    obtain ⟨reply, -, rfl⟩ := List.mem_map.mp hcall
    rfl
  exact absurd ((hall "mail" (by decide)).trans (hall "audit" (by decide)).symm) (by decide)

/-- A delivery replayed twice writes two events of one id. -/
example :
    (Run.run (exec demoEnv)
        (failedThenReplayed demoScope
          ++ [.replay demoScope none (some (demoUuid 1)) fun _ _ => .ok succeeded])
        Bus.empty).events.map CapabilityEventEnvelope.eventId
      = [demoUuid 0, "replay-" ++ demoUuid 1, "replay-" ++ demoUuid 1] := by
  decide +kernel

/-- One replay of a delivery to a subscription with an id of its own. -/
theorem history_sound_demo : HistorySound demoEnv (failedThenReplayed demoScope) := by
  refine history_sound uuids_demo
    (@stepOk_of_same_scope demoEnv demoScope (failedThenReplayed demoScope) ?_ ?_)
  · intro op hop
    rcases List.mem_pair.mp hop with rfl | rfl <;> rfl
  · intro step hstep
    rcases List.mem_pair.mp hstep with rfl | rfl
    · trivial
    · exact fun letter _ => ⟨by decide +kernel, filter_isMatch_length (by decide)⟩

end CapabilityEvents
