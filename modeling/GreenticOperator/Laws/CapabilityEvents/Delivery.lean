import GreenticOperator.CapabilityEvents.Publish
import Mathlib.Data.List.Infix
import Mathlib.Data.List.Range
import Mathlib.Data.Nat.Find

/-!
# Accounting for deliveries

A subscription is served when it gets one delivery record and, exactly if that says `err`,
one dead letter (`Accounted`). `deliverEach_spec` is the whole effect of the delivery loop:
it serves a prefix of the matching subscriptions, and all of them exactly where each one's
schema accepts the payload and each attempt asked for is answered (`AllServable`). An
error of the schema check or of the runner ends the loop, so the subscription it belongs to
and everything after it get no record at all.

`publish_accounted_iff` is the accounting law with that condition.
-/

namespace CapabilityEvents

open RunnerHost

/-! ## Attempts -/

/-- An attempt that was answered with a failure. -/
def IsFailure (reply : Except String FlowOutcome) : Prop :=
  ∃ outcome, reply = .ok outcome ∧ outcome.success = false

/-- An attempt that was answered with success. -/
def IsSuccess (reply : Except String FlowOutcome) : Prop :=
  ∃ outcome, reply = .ok outcome ∧ outcome.success = true

/-- Every attempt asked for is answered: up to the limit, none that only failures precede
is an error of the runner. -/
def Answered (replies : Nat → Except String FlowOutcome) (limit : Nat) : Prop :=
  ∀ a < limit, (∀ b < a, IsFailure (replies b)) → ∃ outcome, replies a = .ok outcome

/-- The first `n` attempts for a subscription. -/
def calls (subscription : ResolvedSubscriptionRecord) (payload : Json.Value)
    (replies : List (Except String FlowOutcome)) : List Invocation :=
  replies.map fun reply => ⟨subscription, payload, reply⟩

/-- The answers to `n` attempts from the `k`th on. -/
def answers (replies : Nat → Except String FlowOutcome) (k n : Nat) :
    List (Except String FlowOutcome) := (List.range n).map fun a => replies (k + a)

theorem answers_succ (replies : Nat → Except String FlowOutcome) (k n : Nat) :
    answers replies k (n + 1) = replies k :: answers replies (k + 1) n := by
  unfold answers
  rw [List.range_succ_eq_map, List.map_cons, List.map_map]
  congr 1
  apply List.map_congr_left
  intro a _
  simp only [Function.comp_apply, Nat.succ_eq_add_one]
  congr 1
  omega

theorem answers_concat (replies : Nat → Except String FlowOutcome) (n : Nat) :
    answers replies 0 (n + 1) = answers replies 0 n ++ [replies n] := by
  simp only [answers, List.range_succ, List.map_append, List.map_cons, List.map_nil, Nat.zero_add]

theorem mem_answers {replies : Nat → Except String FlowOutcome} {n : Nat}
    {reply : Except String FlowOutcome} :
    reply ∈ answers replies 0 n ↔ ∃ a < n, replies a = reply := by
  simp only [answers, List.mem_map, List.mem_range, Nat.zero_add]

def withCalls (b : Bus) (more : List Invocation) : Bus :=
  { b with invocations := b.invocations ++ more }

variable {env : Env} {replies : Nat → Except String FlowOutcome}
  {envelope : CapabilityEventEnvelope} {subscription : ResolvedSubscriptionRecord}

/-- Failures are passed over, each after one call. -/
theorem attemptDelivery_failures (n k attempts : Nat) (finalError : Option String)
    (report : PublishReport) (b : Bus) (h : ∀ a < k, IsFailure (replies (attempts + a))) :
    ∃ finalError', (k = 0 → finalError' = finalError) ∧ (0 < k → finalError'.isSome = true)
      ∧ (attemptDelivery env replies envelope subscription (k + n) attempts finalError report).run b
        = (attemptDelivery env replies envelope subscription n (attempts + k) finalError' report).run
          (withCalls b (calls subscription envelope.payload (answers replies attempts k))) := by
  induction k generalizing attempts finalError b with
  | zero =>
    refine ⟨finalError, fun _ => rfl, fun h => absurd h (Nat.lt_irrefl 0), ?_⟩
    simp only [withCalls, calls, answers, List.range_zero, List.map_nil, List.append_nil,
      Nat.zero_add, Nat.add_zero]
  | succ k ih =>
    obtain ⟨outcome, hreply, hfail⟩ := h 0 (Nat.succ_pos k)
    have hrest : ∀ a < k, IsFailure (replies (attempts + 1 + a)) := by
      intro a ha
      have := h (a + 1) (Nat.succ_lt_succ ha)
      rwa [Nat.add_comm a 1, ← Nat.add_assoc] at this
    obtain ⟨finalError', hzero, hpos, hrun⟩ := ih (attempts + 1)
      (some (outcome.error.getD "capability invocation failed"))
      (withCalls b [⟨subscription, envelope.payload, replies attempts⟩]) hrest
    refine ⟨finalError', fun h => absurd h (Nat.succ_ne_zero k), fun _ => ?_, ?_⟩
    · rcases Nat.eq_zero_or_pos k with hk | hk
      · rw [hzero hk]
        rfl
      · exact hpos hk
    · rw [Nat.add_zero] at hreply
      have hstep : (attemptDelivery env replies envelope subscription (k + 1 + n) attempts finalError
            report).run b
          = (attemptDelivery env replies envelope subscription (k + n) (attempts + 1)
              (some (outcome.error.getD "capability invocation failed")) report).run
            (withCalls b [⟨subscription, envelope.payload, replies attempts⟩]) := by
        rw [show k + 1 + n = k + n + 1 by omega, attemptDelivery]
        simp only [Eff.bind_run, Eff.modify_run, Eff.lift_run, hreply, hfail, Bool.false_eq_true,
          ↓reduceIte]
        rfl
      rw [hstep, hrun, show attempts + 1 + k = attempts + (k + 1) by omega]
      simp only [withCalls, calls, answers_succ, List.map_cons, List.append_assoc,
        List.singleton_append]

/-- Where every attempt asked for is answered, either one succeeds after failures, or all
up to the limit fail; otherwise one errs after failures. -/
theorem attempts_cases (replies : Nat → Except String FlowOutcome) (limit : Nat) :
    (Answered replies limit ∧ ∃ a < limit, (∀ b < a, IsFailure (replies b)) ∧ IsSuccess (replies a))
      ∨ (Answered replies limit ∧ ∀ a < limit, IsFailure (replies a))
      ∨ (¬ Answered replies limit ∧ ∃ a < limit, (∀ b < a, IsFailure (replies b))
          ∧ ∃ e, replies a = .error e) := by
  by_cases hall : ∀ a < limit, IsFailure (replies a)
  · refine .inr (.inl ⟨fun a ha _ => ?_, hall⟩)
    obtain ⟨outcome, hreply, -⟩ := hall a ha
    exact ⟨outcome, hreply⟩
  · classical
    have hex : ∃ a, a < limit ∧ ¬ IsFailure (replies a) := by
      simpa only [not_forall, exists_prop] using hall
    obtain ⟨hlt, hfirst⟩ := Nat.find_spec hex
    have hbefore : ∀ b < Nat.find hex, IsFailure (replies b) := by
      intro b hb
      by_contra hnot
      exact Nat.find_min hex hb ⟨Nat.lt_trans hb hlt, hnot⟩
    generalize Nat.find hex = a at hlt hfirst hbefore
    cases hreply : replies a with
    | error e =>
      refine .inr (.inr ⟨fun hanswered => ?_, a, hlt, hbefore, e, hreply⟩)
      obtain ⟨outcome, hok⟩ := hanswered a hlt hbefore
      rw [hreply] at hok
      cases hok
    | ok outcome =>
      have hsuccess : outcome.success = true := by
        by_contra hnot
        exact hfirst ⟨outcome, hreply, Bool.not_eq_true _ ▸ hnot⟩
      refine .inl ⟨fun a' ha' hfail => ?_, a, hlt, hbefore, outcome, hreply, hsuccess⟩
      rcases Nat.lt_trichotomy a' a with hlt' | rfl | hgt
      · obtain ⟨o, ho, -⟩ := hbefore a' hlt'
        exact ⟨o, ho⟩
      · exact ⟨outcome, hreply⟩
      · exact absurd (hfail a hgt) hfirst

/-! ## One subscription -/

/-- What serving a subscription leaves behind. -/
structure Served where
  subscription : ResolvedSubscriptionRecord
  replies : List (Except String FlowOutcome)
  record : CapabilityDeliveryRecord
  letter : Option DeadLetter

/-- Whether a schema accepts a payload. -/
def Accepts (env : Env) (packPath : String) (schemaRef : Option String) (payload : Json.Value) : Prop :=
  ∀ schema, schemaRef = some schema → env.validateSchema packPath schema payload = .ok ()

/-- A subscription served: at least one and at most the allowed attempts, none after a
success, one record, and a dead letter of the same delivery exactly where all failed. -/
structure Accounted (env : Env) (envelope : CapabilityEventEnvelope) (served : Served) : Prop where
  accepted : Accepts env served.subscription.packPath served.subscription.payloadSchemaRef
    envelope.payload
  eventId : served.record.eventId = envelope.eventId
  subscriptionId : served.record.subscriptionId = served.subscription.subscriptionId
  capabilityId : served.record.capabilityId = served.subscription.capabilityId
  op : served.record.op = served.subscription.op
  attempted : 1 ≤ served.replies.length
  bounded : served.replies.length ≤ served.subscription.attemptLimit
  failures : ∀ reply ∈ served.replies.dropLast, IsFailure reply
  ended : (served.record.status = "ok" ∧ (∃ reply, served.replies.getLast? = some reply ∧ IsSuccess reply)
      ∧ served.letter = none)
    ∨ (served.record.status = "err" ∧ (∀ reply ∈ served.replies, IsFailure reply)
      ∧ served.replies.length = served.subscription.attemptLimit
      ∧ ∃ letter, served.letter = some letter
        ∧ letter.record.deliveryId = served.record.deliveryId
        ∧ letter.record.event = envelope
        ∧ letter.record.subscriptionId = served.subscription.subscriptionId
        ∧ letter.subscription = served.subscription)

/-- The bus after serving one subscription. -/
def Served.apply (payload : Json.Value) (b : Bus) (served : Served) : Bus :=
  { b with
    invocations := b.invocations ++ calls served.subscription payload served.replies
    deliveries := b.deliveries ++ [served.record]
    deadLetters := b.deadLetters ++ served.letter.toList
    drawn := b.drawn + 1
    ticks := b.ticks + if served.letter.isSome then 2 else 1 }

/-- The report after serving one subscription. -/
def PublishReport.count (report : PublishReport) (served : Served) : PublishReport :=
  if served.letter.isSome then { report with failedDeliveries := report.failedDeliveries + 1 }
  else { report with successfulDeliveries := report.successfulDeliveries + 1 }

theorem checkSchema_ok {packPath context : String} {schemaRef : Option String}
    {payload : Json.Value} (h : Accepts env packPath schemaRef payload) :
    checkSchema env packPath schemaRef payload context = .ok () := by
  unfold checkSchema
  cases schemaRef with
  | none => rfl
  | some schema =>
    simp only [h schema rfl]
    rfl

theorem checkSchema_error {packPath context : String} {schemaRef : Option String}
    {payload : Json.Value} (h : ¬ Accepts env packPath schemaRef payload) :
    checkSchema env packPath schemaRef payload context = .error context := by
  unfold checkSchema
  cases schemaRef with
  | none => exact absurd (fun _ h => nomatch h) h
  | some schema =>
    cases hv : env.validateSchema packPath schema payload with
    | error e => simp only [hv, Except.mapError]
    | ok u =>
      refine absurd (fun schema' heq => ?_) h
      cases heq
      exact hv

/-- The condition under which a subscription is served. -/
def Servable (env : Env) (replies : Nat → Except String FlowOutcome) (payload : Json.Value)
    (subscription : ResolvedSubscriptionRecord) : Prop :=
  Accepts env subscription.packPath subscription.payloadSchemaRef payload
    ∧ Answered replies subscription.attemptLimit

theorem attemptLimit_pos (subscription : ResolvedSubscriptionRecord) :
    0 < subscription.attemptLimit := Nat.lt_of_lt_of_le Nat.zero_lt_one (Nat.le_max_right _ _)

variable (env replies envelope subscription) in
/-- What a success at the `a`th attempt leaves. -/
def okServed (b : Bus) (a : Nat) : Served where
  subscription
  replies := answers replies 0 (a + 1)
  record :=
    { deliveryId := env.uuid b.drawn, eventId := envelope.eventId
      subscriptionId := subscription.subscriptionId, capabilityId := subscription.capabilityId
      op := subscription.op, status := "ok", attempts := 0 + a + 1, error := none
      deliveredAtUnixMs := env.clock b.ticks }
  letter := none

variable (env replies envelope subscription) in
/-- What failing every attempt leaves. -/
def errServed (b : Bus) (error : String) : Served where
  subscription
  replies := answers replies 0 subscription.attemptLimit
  record :=
    { deliveryId := env.uuid b.drawn, eventId := envelope.eventId
      subscriptionId := subscription.subscriptionId, capabilityId := subscription.capabilityId
      op := subscription.op, status := "err", attempts := subscription.attemptLimit
      error := some error, deliveredAtUnixMs := env.clock b.ticks }
  letter := some
    { record :=
        { deliveryId := env.uuid b.drawn, event := envelope
          subscriptionId := subscription.subscriptionId, capabilityId := subscription.capabilityId
          op := subscription.op, attempts := subscription.attemptLimit, error
          failedAtUnixMs := env.clock (b.ticks + 1) }
      subscription }

theorem accounted_okServed (b : Bus) {a : Nat}
    (hschema : Accepts env subscription.packPath subscription.payloadSchemaRef envelope.payload)
    (ha : a < subscription.attemptLimit)
    (hbefore : ∀ i < a, IsFailure (replies i)) (hsuccess : IsSuccess (replies a)) :
    Accounted env envelope (okServed env replies envelope subscription b a) where
  accepted := hschema
  eventId := rfl
  subscriptionId := rfl
  capabilityId := rfl
  op := rfl
  attempted := by simp [okServed, answers]
  bounded := by
    simp only [okServed, answers, List.length_map, List.length_range]
    exact ha
  failures := by
    intro reply hreply
    simp only [okServed, answers_concat, List.dropLast_concat] at hreply
    obtain ⟨i, hi, rfl⟩ := mem_answers.mp hreply
    exact hbefore i hi
  ended := by
    refine .inl ⟨rfl, ⟨replies a, ?_, hsuccess⟩, rfl⟩
    simp only [okServed, answers_concat, List.getLast?_concat]

theorem accounted_errServed (b : Bus) (error : String)
    (hschema : Accepts env subscription.packPath subscription.payloadSchemaRef envelope.payload)
    (hall : ∀ i < subscription.attemptLimit, IsFailure (replies i)) :
    Accounted env envelope (errServed env replies envelope subscription b error) where
  accepted := hschema
  eventId := rfl
  subscriptionId := rfl
  capabilityId := rfl
  op := rfl
  attempted := by
    simp only [errServed, answers, List.length_map, List.length_range]
    exact attemptLimit_pos subscription
  bounded := by simp [errServed, answers]
  failures := by
    intro reply hreply
    obtain ⟨i, hi, rfl⟩ := mem_answers.mp (List.dropLast_subset _ hreply)
    exact hall i hi
  ended := by
    refine .inr ⟨rfl, fun reply hreply => ?_, by simp [errServed, answers], _, rfl, rfl, rfl, rfl, rfl⟩
    obtain ⟨i, hi, rfl⟩ := mem_answers.mp hreply
    exact hall i hi

theorem deliver_of_success {a : Nat} (report : PublishReport) (b : Bus)
    (hschema : Accepts env subscription.packPath subscription.payloadSchemaRef envelope.payload)
    (ha : a < subscription.attemptLimit) (hbefore : ∀ i < a, IsFailure (replies i))
    (hsuccess : IsSuccess (replies a)) :
    (deliver env replies envelope subscription report).run b
      = (.ok (report.count (okServed env replies envelope subscription b a)),
          (okServed env replies envelope subscription b a).apply envelope.payload b) := by
  obtain ⟨outcome, hreply, hok⟩ := hsuccess
  obtain ⟨n, hn⟩ : ∃ n, subscription.attemptLimit = a + (n + 1) :=
    ⟨subscription.attemptLimit - a - 1, by omega⟩
  have hbefore' : ∀ i < a, IsFailure (replies (0 + i)) := by
    simpa only [Nat.zero_add] using hbefore
  obtain ⟨finalError, -, -, hrun⟩ :=
    @attemptDelivery_failures env replies envelope subscription (n + 1) a 0 none report b hbefore'
  have hattempts : (attemptDelivery env replies envelope subscription subscription.attemptLimit 0 none
        report).run b
      = (.ok (none, report.count (okServed env replies envelope subscription b a)),
          (okServed env replies envelope subscription b a).apply envelope.payload b) := by
    rw [hn, hrun, attemptDelivery, Nat.zero_add]
    simp only [Eff.bind_run, Eff.modify_run, Eff.lift_run, hreply, hok, ↓reduceIte]
    simp only [withCalls, Served.apply, okServed, calls, answers_concat, hreply, List.map_append,
      List.map_cons, List.map_nil, List.append_assoc, Nat.zero_add, Option.toList_none,
      List.append_nil, Option.isSome_none, Bool.false_eq_true, ↓reduceIte]
    rfl
  unfold deliver
  simp only [Eff.bind_run, Eff.lift_run, checkSchema_ok hschema, hattempts]
  rfl

theorem deliver_of_failures (report : PublishReport) (b : Bus)
    (hschema : Accepts env subscription.packPath subscription.payloadSchemaRef envelope.payload)
    (hall : ∀ i < subscription.attemptLimit, IsFailure (replies i)) :
    ∃ error, (deliver env replies envelope subscription report).run b
      = (.ok (report.count (errServed env replies envelope subscription b error)),
          (errServed env replies envelope subscription b error).apply envelope.payload b) := by
  have hall' : ∀ i < subscription.attemptLimit, IsFailure (replies (0 + i)) := by
    simpa only [Nat.zero_add] using hall
  obtain ⟨finalError, -, hsome, hrun⟩ :=
    @attemptDelivery_failures env replies envelope subscription 0 subscription.attemptLimit 0 none
      report b hall'
  obtain ⟨error, rfl⟩ := Option.isSome_iff_exists.mp (hsome (attemptLimit_pos subscription))
  refine ⟨error, ?_⟩
  rw [Nat.add_zero] at hrun
  unfold deliver
  simp only [Eff.bind_run, Eff.lift_run, checkSchema_ok hschema, hrun]
  rfl

/-- A subscription that cannot be served ends the loop without a record. -/
theorem deliver_of_not_servable (report : PublishReport) (b : Bus)
    (h : ¬ Servable env replies envelope.payload subscription) :
    ∃ e made, (deliver env replies envelope subscription report).run b
        = (.error e, withCalls b (calls subscription envelope.payload made))
      ∧ (Accepts env subscription.packPath subscription.payloadSchemaRef envelope.payload →
          made ≠ []) := by
  by_cases hschema : Accepts env subscription.packPath subscription.payloadSchemaRef envelope.payload
  · have hanswered : ¬ Answered replies subscription.attemptLimit := fun ha => h ⟨hschema, ha⟩
    rcases attempts_cases replies subscription.attemptLimit with ⟨ha, -⟩ | ⟨ha, -⟩ | ⟨-, hcase⟩
    · exact absurd ha hanswered
    · exact absurd ha hanswered
    · obtain ⟨a, ha, hbefore, e, hreply⟩ := hcase
      obtain ⟨n, hn⟩ : ∃ n, subscription.attemptLimit = a + (n + 1) :=
        ⟨subscription.attemptLimit - a - 1, by omega⟩
      have hbefore' : ∀ i < a, IsFailure (replies (0 + i)) := by
        simpa only [Nat.zero_add] using hbefore
      obtain ⟨finalError, -, -, hrun⟩ :=
        @attemptDelivery_failures env replies envelope subscription (n + 1) a 0 none report b hbefore'
      refine ⟨e, answers replies 0 (a + 1), ?_, fun _ => by simp [answers]⟩
      unfold deliver
      simp only [Eff.bind_run, Eff.lift_run, checkSchema_ok hschema]
      rw [hn, hrun, attemptDelivery, Nat.zero_add]
      simp only [Eff.bind_run, Eff.modify_run, Eff.lift_run, hreply]
      simp only [withCalls, calls, answers_concat, hreply, List.map_append, List.map_cons,
        List.map_nil, List.append_assoc]
  · refine ⟨s!"invalid payload for subscription {subscription.subscriptionId}", [], ?_,
      fun h => absurd h hschema⟩
    unfold deliver
    simp only [Eff.bind_run, Eff.lift_run, checkSchema_error hschema]
    simp only [withCalls, calls, List.map_nil, List.append_nil]

/-- **Serving one subscription.** -/
theorem deliver_of_servable (report : PublishReport) (b : Bus)
    (h : Servable env replies envelope.payload subscription) :
    ∃ served : Served, served.subscription = subscription ∧ Accounted env envelope served
      ∧ served.record.deliveryId = env.uuid b.drawn
      ∧ (deliver env replies envelope subscription report).run b
        = (.ok (report.count served), served.apply envelope.payload b) := by
  obtain ⟨hschema, hanswered⟩ := h
  rcases attempts_cases replies subscription.attemptLimit with ⟨-, hcase⟩ | ⟨-, hall⟩ | ⟨hnot, -⟩
  · obtain ⟨a, ha, hbefore, hsuccess⟩ := hcase
    exact ⟨_, rfl, accounted_okServed b hschema ha hbefore hsuccess, rfl,
      deliver_of_success report b hschema ha hbefore hsuccess⟩
  · obtain ⟨error, hrun⟩ := deliver_of_failures report b hschema hall
    exact ⟨_, rfl, accounted_errServed b error hschema hall, rfl, hrun⟩
  · exact absurd hanswered hnot

/-! ## The loop -/

/-- The bus after serving subscriptions one after the other. -/
def applyAll (payload : Json.Value) (b : Bus) (served : List Served) : Bus :=
  served.foldl (Served.apply payload) b

/-- Every matching subscription can be served, each with its own answers. -/
def AllServable (env : Env) (replies : Replies) (payload : Json.Value)
    (matched : List ResolvedSubscriptionRecord) : Prop :=
  ∀ i subscription, matched[i]? = some subscription →
    Servable env (replies i) payload subscription

theorem allServable_cons {replies : Replies} {payload : Json.Value}
    {matched : List ResolvedSubscriptionRecord} :
    AllServable env replies payload (subscription :: matched)
      ↔ Servable env (replies 0) payload subscription
        ∧ AllServable env (fun i => replies (i + 1)) payload matched := by
  constructor
  · intro h
    exact ⟨h 0 subscription rfl, fun i s hs => h (i + 1) s hs⟩
  · rintro ⟨hfirst, hrest⟩ i s hs
    cases i with
    | zero =>
      cases hs
      exact hfirst
    | succ i => exact hrest i s hs

/-- The ids of the deliveries of a loop, which draws one for each. -/
def DrawnFrom (env : Env) (first : Nat) (served : List Served) : Prop :=
  ∀ i s, served[i]? = some s → s.record.deliveryId = env.uuid (first + i)

theorem drawnFrom_nil (first : Nat) : DrawnFrom env first [] := by
  intro i s hs
  cases hs

theorem drawnFrom_cons {first : Nat} {s : Served} {served : List Served}
    (hs : s.record.deliveryId = env.uuid first) (h : DrawnFrom env (first + 1) served) :
    DrawnFrom env first (s :: served) := by
  intro i s' hs'
  cases i with
  | zero =>
    cases hs'
    exact hs
  | succ i =>
    have := h i s' hs'
    rwa [Nat.add_assoc, Nat.add_comm 1 i] at this

/-- **The loop** serves a prefix of the matching subscriptions. Where all of them can be
served it serves them all and reports each; otherwise it stops at the first that cannot,
with an error. -/
theorem deliverEach_spec (replies : Replies) (matched : List ResolvedSubscriptionRecord)
    (report : PublishReport) (b : Bus) :
    ∃ served more, served.map Served.subscription <+: matched
      ∧ (∀ s ∈ served, Accounted env envelope s) ∧ DrawnFrom env b.drawn served
      ∧ ((AllServable env replies envelope.payload matched ∧ served.map Served.subscription = matched
          ∧ (deliverEach env replies envelope matched report).run b
            = (.ok (served.foldl PublishReport.count report), applyAll envelope.payload b served))
        ∨ (¬ AllServable env replies envelope.payload matched ∧ served.length < matched.length
          ∧ ∃ e, (deliverEach env replies envelope matched report).run b
            = (.error e, withCalls (applyAll envelope.payload b served) more))) := by
  induction matched generalizing replies report b with
  | nil =>
    have hnone : AllServable env replies envelope.payload [] := by
      intro i s hs
      cases hs
    exact ⟨[], [], List.prefix_rfl, fun _ h => absurd h List.not_mem_nil, drawnFrom_nil _,
      .inl ⟨hnone, rfl, rfl⟩⟩
  | cons subscription matched ih =>
    by_cases hfirst : Servable env (replies 0) envelope.payload subscription
    · obtain ⟨s, rfl, haccounted, hid, hrun⟩ := deliver_of_servable report b hfirst
      obtain ⟨served, more, hprefix, hall, hids, hend⟩ := ih (fun i => replies (i + 1))
        (report.count s) (s.apply envelope.payload b)
      refine ⟨s :: served, more, ?_, ?_, drawnFrom_cons hid hids, ?_⟩
      · rw [List.map_cons]
        exact List.cons_prefix_cons.mpr ⟨rfl, hprefix⟩
      · intro s' hs'
        rcases List.mem_cons.mp hs' with rfl | hs'
        · exact haccounted
        · exact hall s' hs'
      · have hstep : (deliverEach env replies envelope (s.subscription :: matched) report).run b
            = (deliverEach env (fun i => replies (i + 1)) envelope matched (report.count s)).run
              (s.apply envelope.payload b) := Eff.bind_run_of_ok hrun
        rw [hstep, allServable_cons]
        rcases hend with ⟨hservable, hmap, hok⟩ | ⟨hnot, hlen, herror⟩
        · exact .inl ⟨⟨hfirst, hservable⟩, by rw [List.map_cons, hmap], hok⟩
        · exact .inr ⟨fun h => hnot h.2, Nat.succ_lt_succ hlen, herror⟩
    · obtain ⟨e, made, hrun, -⟩ := deliver_of_not_servable report b hfirst
      refine ⟨[], calls subscription envelope.payload made, List.nil_prefix,
        fun _ h => absurd h List.not_mem_nil, drawnFrom_nil _, .inr ⟨?_, ?_, e, ?_⟩⟩
      · exact fun h => hfirst (allServable_cons.mp h).1
      · exact Nat.succ_pos _
      · exact Eff.bind_run_of_error hrun

@[simp] theorem applyAll_cons (payload : Json.Value) (b : Bus) (s : Served) (served : List Served) :
    applyAll payload b (s :: served) = applyAll payload (s.apply payload b) served := rfl

theorem applyAll_events (payload : Json.Value) (b : Bus) (served : List Served) :
    (applyAll payload b served).events = b.events := by
  induction served generalizing b with
  | nil => rfl
  | cons s served ih => exact ih _

theorem applyAll_deliveries (payload : Json.Value) (b : Bus) (served : List Served) :
    (applyAll payload b served).deliveries = b.deliveries ++ served.map Served.record := by
  induction served generalizing b with
  | nil => exact (List.append_nil _).symm
  | cons s served ih =>
    rw [applyAll_cons, ih, List.map_cons]
    exact List.append_assoc _ _ _

theorem applyAll_deadLetters (payload : Json.Value) (b : Bus) (served : List Served) :
    (applyAll payload b served).deadLetters
      = b.deadLetters ++ served.flatMap fun s => s.letter.toList := by
  induction served generalizing b with
  | nil => exact (List.append_nil _).symm
  | cons s served ih =>
    rw [applyAll_cons, ih, List.flatMap_cons]
    exact List.append_assoc _ _ _

theorem applyAll_invocations (payload : Json.Value) (b : Bus) (served : List Served) :
    (applyAll payload b served).invocations
      = b.invocations ++ served.flatMap fun s => calls s.subscription payload s.replies := by
  induction served generalizing b with
  | nil => exact (List.append_nil _).symm
  | cons s served ih =>
    rw [applyAll_cons, ih, List.flatMap_cons]
    exact List.append_assoc _ _ _

theorem applyAll_drawn (payload : Json.Value) (b : Bus) (served : List Served) :
    (applyAll payload b served).drawn = b.drawn + served.length := by
  induction served generalizing b with
  | nil => rfl
  | cons s served ih =>
    rw [applyAll_cons, ih, List.length_cons]
    show b.drawn + 1 + served.length = _
    omega

/-- Every delivery counts once, as successful or as failed. -/
theorem count_sum (report : PublishReport) (served : List Served) :
    (served.foldl PublishReport.count report).matchedSubscriptions = report.matchedSubscriptions
      ∧ (served.foldl PublishReport.count report).successfulDeliveries
          + (served.foldl PublishReport.count report).failedDeliveries
        = report.successfulDeliveries + report.failedDeliveries + served.length := by
  induction served generalizing report with
  | nil => exact ⟨rfl, rfl⟩
  | cons s served ih =>
    obtain ⟨hmatched, hsum⟩ := ih (report.count s)
    simp only [List.foldl_cons, List.length_cons]
    rw [hmatched, hsum]
    unfold PublishReport.count
    split
    · exact ⟨rfl, by simp only; omega⟩
    · exact ⟨rfl, by simp only; omega⟩

/-! ## A publication -/

/-- The id of the event a publication writes. -/
def eventIdOf (env : Env) (b : Bus) : Option String → String
  | some deliveryId => "replay-" ++ deliveryId
  | none => env.uuid b.drawn

/-- The event a publication writes. -/
def envelopeOf (env : Env) (b : Bus) (topic : ResolvedTopicRecord) (request : PublishEventRequest)
    (replayDeliveryId : Option String) : CapabilityEventEnvelope where
  eventId := eventIdOf env b replayDeliveryId
  topic := topic.topic
  eventType := topic.eventType
  payload := request.payload
  correlationId := request.correlationId
  source := request.source
  publishedAtUnixMs := env.clock b.ticks

/-- The bus once the event is written. -/
def logged (b : Bus) (event : CapabilityEventEnvelope) (replayDeliveryId : Option String) : Bus :=
  { b with
    events := b.events ++ [event]
    drawn := b.drawn + if replayDeliveryId.isSome then 0 else 1
    ticks := b.ticks + 1 }

/-- The event is written, and the loop runs over the matching subscriptions. -/
theorem publishEventInternal_run {scope : Scope} {replies : Replies} {request : PublishEventRequest}
    {only replayDeliveryId : Option String} {b : Bus} {topic : ResolvedTopicRecord}
    (htopic : findTopic scope.topics request = some topic)
    (hschema : Accepts env topic.packPath topic.payloadSchemaRef request.payload) :
    let event := envelopeOf env b topic request replayDeliveryId
    let matched := scope.subscriptions.filter (isMatch event only)
    (publishEventInternal env scope replies request only replayDeliveryId).run b
      = (deliverEach env replies event matched ⟨matched.length, 0, 0⟩).run
          (logged b event replayDeliveryId) := by
  intro event matched
  unfold publishEventInternal
  simp only [htopic, Eff.bind_run, Eff.lift_run, checkSchema_ok hschema]
  cases replayDeliveryId <;> rfl

/-- Ids are unique, and those not drawn yet occur nowhere. -/
structure Fresh (env : Env) (b : Bus) : Prop where
  injective : Function.Injective env.uuid
  eventIds : ∀ record ∈ b.deliveries, ∀ n, b.drawn ≤ n → record.eventId ≠ env.uuid n
  deliveryIds : ∀ letter ∈ b.deadLetters, ∀ n, b.drawn ≤ n → letter.record.deliveryId ≠ env.uuid n

/-- The accounting law of a publication: one record of the event for each matching
subscription, a dead letter of the same delivery exactly where it says `err`, the attempts
as allowed, and a report that adds up. -/
structure PublishAccounted (env : Env) (matched : List ResolvedSubscriptionRecord)
    (event : CapabilityEventEnvelope) (before after : Bus)
    (result : Except String PublishReport) : Prop where
  served : ∃ served : List Served, served.map Served.subscription = matched
    ∧ (∀ s ∈ served, Accounted env event s)
    ∧ after.deliveries.filter (fun record => record.eventId == event.eventId)
      = served.map Served.record
    ∧ after.invocations = before.invocations
        ++ served.flatMap (fun s => calls s.subscription event.payload s.replies)
    ∧ ∀ s ∈ served, s.record.status = "err"
        ↔ ∃ letter ∈ after.deadLetters, letter.record.deliveryId = s.record.deliveryId
  counts : ∀ report, result = .ok report → report.matchedSubscriptions = matched.length
    ∧ report.matchedSubscriptions = report.successfulDeliveries + report.failedDeliveries

theorem filter_records {event : CapabilityEventEnvelope} {served : List Served}
    (h : ∀ s ∈ served, Accounted env event s) :
    (served.map Served.record).filter (fun record => record.eventId == event.eventId)
      = served.map Served.record := by
  rw [List.filter_eq_self]
  intro record hrecord
  obtain ⟨s, hs, rfl⟩ := List.mem_map.mp hrecord
  exact beq_iff_eq.mpr (h s hs).eventId

theorem filter_old {b : Bus} (hfresh : Fresh env b) :
    b.deliveries.filter (fun record => record.eventId == env.uuid b.drawn) = [] := by
  rw [List.filter_eq_nil_iff]
  intro record hrecord
  rw [beq_iff_eq]
  exact hfresh.eventIds record hrecord b.drawn (Nat.le_refl _)

/-- The letter a served subscription left, if any, is of its own delivery. -/
theorem letter_deliveryId {event : CapabilityEventEnvelope} {s : Served} (h : Accounted env event s)
    {letter : DeadLetter} (hletter : s.letter = some letter) :
    letter.record.deliveryId = s.record.deliveryId ∧ s.record.status = "err" := by
  rcases h.ended with ⟨-, -, hnone⟩ | ⟨hstatus, -, -, letter', hsome, hid, -⟩
  · rw [hnone] at hletter
    cases hletter
  · rw [hsome, Option.some.injEq] at hletter
    exact ⟨hletter ▸ hid, hstatus⟩

/-- A record says `err` exactly where some dead letter has its delivery id. -/
theorem status_err_iff {event : CapabilityEventEnvelope} {served : List Served}
    {first : Nat} {old : List DeadLetter} (hinj : Function.Injective env.uuid)
    (hold : ∀ letter ∈ old, ∀ n, first ≤ n → letter.record.deliveryId ≠ env.uuid n)
    (hall : ∀ s ∈ served, Accounted env event s) (hids : DrawnFrom env first served)
    {s : Served} (hs : s ∈ served) :
    s.record.status = "err"
      ↔ ∃ letter ∈ old ++ served.flatMap (fun s => s.letter.toList),
          letter.record.deliveryId = s.record.deliveryId := by
  obtain ⟨i, hi⟩ := List.mem_iff_getElem?.mp hs
  constructor
  · intro hstatus
    rcases (hall s hs).ended with ⟨hok, -⟩ | ⟨-, -, -, letter, hsome, hid, -⟩
    · rw [hok] at hstatus
      exact absurd hstatus (by decide)
    · refine ⟨letter, List.mem_append_right _ (List.mem_flatMap.mpr ⟨s, hs, ?_⟩), hid⟩
      rw [hsome]
      exact List.mem_cons_self
  · rintro ⟨letter, hletter, hid⟩
    rw [hids i s hi] at hid
    rcases List.mem_append.mp hletter with hletter | hletter
    · exact absurd hid (hold letter hletter _ (Nat.le_add_right _ _))
    · obtain ⟨s', hs', hletter⟩ := List.mem_flatMap.mp hletter
      obtain ⟨hid', hstatus'⟩ := letter_deliveryId (hall s' hs') (Option.mem_toList.mp hletter)
      obtain ⟨j, hj⟩ := List.mem_iff_getElem?.mp hs'
      rw [hid', hids j s' hj] at hid
      have hij : i = j := by
        have := hinj hid
        omega
      subst hij
      rw [hi, Option.some.injEq] at hj
      rw [hj]
      exact hstatus'

section Publish

variable {scope : Scope} {allReplies : Replies} {request : PublishEventRequest} {b : Bus}
  {topic : ResolvedTopicRecord}

/-- The subscriptions a publication is for. -/
def matchedBy (env : Env) (scope : Scope) (b : Bus) (topic : ResolvedTopicRecord)
    (request : PublishEventRequest) : List ResolvedSubscriptionRecord :=
  scope.subscriptions.filter (isMatch (envelopeOf env b topic request none) none)

theorem publishEvent_run (htopic : findTopic scope.topics request = some topic)
    (hschema : Accepts env topic.packPath topic.payloadSchemaRef request.payload) :
    (publishEvent env scope allReplies request).run b
      = (deliverEach env allReplies (envelopeOf env b topic request none)
          (matchedBy env scope b topic request) ⟨(matchedBy env scope b topic request).length, 0, 0⟩).run
        (logged b (envelopeOf env b topic request none) none) :=
  publishEventInternal_run htopic hschema

theorem publishAccounted_of_allServable (htopic : findTopic scope.topics request = some topic)
    (hschema : Accepts env topic.packPath topic.payloadSchemaRef request.payload)
    (hfresh : Fresh env b)
    (h : AllServable env allReplies request.payload (matchedBy env scope b topic request)) :
    PublishAccounted env (matchedBy env scope b topic request) (envelopeOf env b topic request none) b
      ((publishEvent env scope allReplies request).run b).2
      ((publishEvent env scope allReplies request).run b).1 := by
  rw [publishEvent_run htopic hschema]
  generalize hevent : envelopeOf env b topic request none = event
  have hpayload : event.payload = request.payload := by rw [← hevent]; rfl
  have hid : event.eventId = env.uuid b.drawn := by rw [← hevent]; rfl
  obtain ⟨served, more, -, hall, hids, hend⟩ := @deliverEach_spec env event
    allReplies (matchedBy env scope b topic request)
    ⟨(matchedBy env scope b topic request).length, 0, 0⟩ (logged b event none)
  rw [hpayload] at hend
  obtain ⟨-, hmatched, hrun⟩ := hend.resolve_right fun hnot => hnot.1 h
  rw [hrun]
  refine ⟨⟨served, hmatched, hall, ?_, ?_, fun s hs => ?_⟩, fun report hreport => ?_⟩
  · rw [applyAll_deliveries, List.filter_append, filter_records hall, hid]
    show b.deliveries.filter _ ++ _ = _
    rw [filter_old hfresh, List.nil_append]
  · rw [applyAll_invocations, hpayload]
    rfl
  · rw [applyAll_deadLetters]
    refine status_err_iff hfresh.injective (fun letter hletter n hn => ?_) hall hids hs
    exact hfresh.deliveryIds letter hletter n (Nat.le_of_succ_le hn)
  · obtain ⟨hcount, hsum⟩ := count_sum ⟨(matchedBy env scope b topic request).length, 0, 0⟩ served
    obtain rfl := Except.ok.inj hreport
    have hlength : served.length = (matchedBy env scope b topic request).length := by
      rw [← hmatched, List.length_map]
    refine ⟨hcount, ?_⟩
    rw [hcount, hsum, hlength]
    simp only [Nat.zero_add]

/-- A subscription that is not served is missing from the records. -/
theorem allServable_of_publishAccounted (htopic : findTopic scope.topics request = some topic)
    (hschema : Accepts env topic.packPath topic.payloadSchemaRef request.payload)
    (hfresh : Fresh env b)
    (h : PublishAccounted env (matchedBy env scope b topic request) (envelopeOf env b topic request none) b
      ((publishEvent env scope allReplies request).run b).2
      ((publishEvent env scope allReplies request).run b).1) :
    AllServable env allReplies request.payload (matchedBy env scope b topic request) := by
  rw [publishEvent_run htopic hschema] at h
  generalize hevent : envelopeOf env b topic request none = event at h
  have hpayload : event.payload = request.payload := by rw [← hevent]; rfl
  have hid : event.eventId = env.uuid b.drawn := by rw [← hevent]; rfl
  obtain ⟨served, more, -, hall, -, hend⟩ := @deliverEach_spec env event
    allReplies (matchedBy env scope b topic request)
    ⟨(matchedBy env scope b topic request).length, 0, 0⟩ (logged b event none)
  rw [hpayload] at hend
  rcases hend with ⟨hservable, -⟩ | ⟨-, hshort, e, hrun⟩
  · exact hservable
  · obtain ⟨served', hmatched, -, hrecords, -⟩ := h.served
    have hfilter : (withCalls (applyAll request.payload (logged b event none) served) more).deliveries.filter
        (fun record => record.eventId == event.eventId) = served.map Served.record := by
      show (applyAll request.payload (logged b event none) served).deliveries.filter _ = _
      rw [applyAll_deliveries, List.filter_append, filter_records hall, hid]
      show b.deliveries.filter _ ++ _ = _
      rw [filter_old hfresh, List.nil_append]
    rw [hrun, hfilter] at hrecords
    have hlength := congrArg List.length hrecords
    rw [List.length_map, List.length_map] at hlength
    have hlength' := congrArg List.length hmatched
    rw [List.length_map] at hlength'
    omega

/-- **A publication is accounted for exactly where every matching subscription can be
served**: its schema accepts the payload, and the runner answers each attempt asked for. -/
theorem publish_accounted_iff (htopic : findTopic scope.topics request = some topic)
    (hschema : Accepts env topic.packPath topic.payloadSchemaRef request.payload)
    (hfresh : Fresh env b) :
    PublishAccounted env (matchedBy env scope b topic request) (envelopeOf env b topic request none) b
        ((publishEvent env scope allReplies request).run b).2
        ((publishEvent env scope allReplies request).run b).1
      ↔ AllServable env allReplies request.payload (matchedBy env scope b topic request) :=
  ⟨allServable_of_publishAccounted htopic hschema hfresh,
    publishAccounted_of_allServable htopic hschema hfresh⟩

end Publish

/-! ## A runner error in the middle -/

/-- Ids of the shape of a random UUID. -/
def demoUuid (n : Nat) : String := "0e5f3c1a-7d2b-4c9e-8f60-00000000000" ++ Nat.repr n

theorem demoUuid_injective : Function.Injective demoUuid := by
  intro m n h
  exact Text.toString_nat_injective ((String.append_right_inj _).mp h)

def demoEnv : Env where
  uuid := demoUuid
  clock := fun n => 1700000000000 + UInt64.ofNat n
  validateSchema := fun _ _ _ => .ok ()

theorem fresh_empty : Fresh demoEnv Bus.empty where
  injective := demoUuid_injective
  eventIds := fun _ h => absurd h List.not_mem_nil
  deliveryIds := fun _ h => absurd h List.not_mem_nil

def demoTopic : ResolvedTopicRecord := ⟨"topic://orders", "order.created", "packs/shop.gtpack", none⟩

def demoSubscription (id packId : String) : ResolvedSubscriptionRecord where
  subscriptionId := id
  topic := "topic://orders"
  eventType := "order.created"
  packId
  packPath := "packs/" ++ packId ++ ".gtpack"
  capabilityId := "cap://" ++ packId ++ ".handle.v1"
  op := "handle"
  payloadSchemaRef := none
  filterJsonPointer := none
  filterEquals := none
  maxAttempts := 2

def demoScope : Scope where
  topics := [demoTopic]
  subscriptions := [demoSubscription "sub-a" "mail", demoSubscription "sub-b" "audit"]

def demoRequest : PublishEventRequest := ⟨"topic://orders", none, .object [], none, none⟩

/-- The runner cannot reach the capability of the first subscription; the second one is
never told of the event. -/
theorem publish_skips_after_runner_error :
    ¬ ∀ (env : Env) (scope : Scope) (replies : Replies) (request : PublishEventRequest) (b : Bus)
      (topic : ResolvedTopicRecord), findTopic scope.topics request = some topic →
      Accepts env topic.packPath topic.payloadSchemaRef request.payload → Fresh env b →
      PublishAccounted env (matchedBy env scope b topic request) (envelopeOf env b topic request none) b
        ((publishEvent env scope replies request).run b).2
        ((publishEvent env scope replies request).run b).1 := by
  intro h
  let replies : Replies := fun i _ =>
    if i = 0 then .error "capability not found"
    else .ok { success := true, output := none, raw := none, error := none, mode := .Exec }
  have hschema : Accepts demoEnv demoTopic.packPath demoTopic.payloadSchemaRef demoRequest.payload :=
    fun _ _ => rfl
  have hservable := allServable_of_publishAccounted rfl hschema fresh_empty
    (h demoEnv demoScope replies demoRequest Bus.empty demoTopic rfl hschema fresh_empty)
  obtain ⟨-, hanswered⟩ := hservable 0 (demoSubscription "sub-a" "mail") (by decide)
  obtain ⟨outcome, hreply⟩ := hanswered 0 (attemptLimit_pos _) (fun i hi => absurd hi (Nat.not_lt_zero i))
  cases hreply

/-- A runner that answers all: the first subscription takes the event when it is asked again, the second never does. -/
def demoReplies : Replies := fun i a =>
  .ok { success := i = 0 ∧ a = 1, output := none, raw := none, error := none, mode := .Exec }

/-- One publication in an empty bus is accounted for. -/
theorem publish_accounted_demo :
    PublishAccounted demoEnv (matchedBy demoEnv demoScope Bus.empty demoTopic demoRequest)
      (envelopeOf demoEnv Bus.empty demoTopic demoRequest none) Bus.empty
      ((publishEvent demoEnv demoScope demoReplies demoRequest).run Bus.empty).2
      ((publishEvent demoEnv demoScope demoReplies demoRequest).run Bus.empty).1 := by
  have hanswered : AllServable demoEnv demoReplies demoRequest.payload
      (matchedBy demoEnv demoScope Bus.empty demoTopic demoRequest) :=
    fun _ _ _ => ⟨fun _ _ => rfl, fun _ _ _ => ⟨_, rfl⟩⟩
  exact (publish_accounted_iff rfl (fun _ _ => rfl) fresh_empty).mpr hanswered

end CapabilityEvents
