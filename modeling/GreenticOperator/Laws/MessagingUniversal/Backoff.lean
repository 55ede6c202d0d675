import GreenticOperator.MessagingUniversal.Retry
import GreenticOperator.Laws.MessagingUniversal.Egress

/-!
# How long the next attempt waits

The delay of a policy stays within its two bounds, grows with the attempt, and no step of its
computation leaves the machine word (`RetryPolicyWords.Bounded`). The send loop has a second
source of delays: the error of a provider may say how long to wait, and the loop then waits that
long, whatever the policy says. `every_delay_has_source` names the source of every delay of a
batch.
-/

namespace MessagingUniversal

open RunnerHost Retry Words

/-! ## The policy, in numbers -/

namespace RetryPolicy

variable (policy : RetryPolicy)

theorem backoffMs_le (attempt : Nat) : policy.backoffMs attempt ≤ policy.maxDelayMs :=
  Nat.min_le_right _ _

theorem backoffMs_mono {a b : Nat} (h : a ≤ b) : policy.backoffMs a ≤ policy.backoffMs b := by
  have hshift : min (a - 1) 63 ≤ min (b - 1) 63 := by omega
  have hmultiplier : 2 ^ min (a - 1) 63 ≤ 2 ^ min (b - 1) 63 :=
    Nat.pow_le_pow_right (by decide) hshift
  have hbase := Nat.mul_le_mul_left policy.baseDelayMs hmultiplier
  unfold backoffMs
  dsimp only
  omega

theorem delayWithJitter_le (attempt jitter : Nat) :
    policy.delayWithJitter attempt jitter ≤ policy.maxDelayMs + policy.jitterMs := by
  have := policy.backoffMs_le attempt
  unfold delayWithJitter
  omega

theorem delayWithJitter_mono {a b : Nat} (h : a ≤ b) (jitter : Nat) :
    policy.delayWithJitter a jitter ≤ policy.delayWithJitter b jitter := by
  have := policy.backoffMs_mono h
  unfold delayWithJitter
  omega

end RetryPolicy

/-! ## The policy, in machine words -/

namespace RetryPolicyWords

variable (policy : RetryPolicyWords)

/-- The backoff has a value, the one of the policy in numbers. -/
theorem backoffMs_value (attempt : UInt32) :
    ∃ ms, policy.backoffMs attempt = some ms ∧ ms.toNat = policy.value.backoffMs attempt.toNat := by
  have hshift : (min (saturatingSub attempt 1) 63).toNat = min (attempt.toNat - 1) 63 := by
    simp
  obtain ⟨multiplier, hmultiplier, hpower⟩ :=
    checkedShl_one (n := min (saturatingSub attempt 1) 63) (by omega)
  refine ⟨min (saturatingMul policy.baseDelayMs multiplier) policy.maxDelayMs, ?_, ?_⟩
  · simp only [backoffMs, hmultiplier, Option.bind_eq_bind, Option.bind_some]
    rfl
  · rw [toNat_min, toNat_saturatingMul, hpower, hshift]
    rfl

theorem delayWithJitter_value (attempt : UInt32) (jitter : UInt64) :
    ∃ ms, policy.delayWithJitter attempt jitter = some ms
      ∧ ms.toNat = policy.value.delayWithJitter attempt.toNat jitter.toNat := by
  obtain ⟨backoff, hbackoff, hvalue⟩ := policy.backoffMs_value attempt
  refine ⟨saturatingAdd backoff (min jitter policy.jitterMs), ?_, ?_⟩
  · simp only [delayWithJitter, hbackoff, Option.bind_eq_bind, Option.bind_some]
    rfl
  · rw [toNat_saturatingAdd, toNat_min, hvalue]
    rfl

/-- The policy of a batch in words, and in numbers. -/
def ofRetries (retries : UInt32) : RetryPolicyWords where
  maxAttempts := UInt32.ofNat (RetryPolicy.ofRetries retries).maxAttempts

theorem ofRetries_value (retries : UInt32) :
    (ofRetries retries).value = RetryPolicy.ofRetries retries := by
  have hlt : (RetryPolicy.ofRetries retries).maxAttempts < 2 ^ 32 := by
    unfold RetryPolicy.ofRetries u32Max
    dsimp only
    omega
  show { maxAttempts := (UInt32.ofNat (RetryPolicy.ofRetries retries).maxAttempts).toNat :
    RetryPolicy } = _
  rw [UInt32.toNat_ofNat_of_lt' hlt]
  rfl

/-- What is promised of a policy: its delays have a value within the two bounds, and a later
attempt waits no shorter. -/
structure Bounded (policy : RetryPolicyWords) : Prop where
  backoff_le : ∀ attempt, ∃ ms, policy.backoffMs attempt = some ms ∧ ms ≤ policy.maxDelayMs
  delay_le : ∀ attempt jitter, jitter ≤ policy.jitterMs →
    ∃ ms, policy.delayWithJitter attempt jitter = some ms
      ∧ ms.toNat ≤ policy.maxDelayMs.toNat + policy.jitterMs.toNat
  backoff_mono : ∀ a b, a ≤ b → ∀ early late, policy.backoffMs a = some early →
    policy.backoffMs b = some late → early ≤ late
  delay_mono : ∀ a b, a ≤ b → ∀ jitter early late,
    policy.delayWithJitter a jitter = some early → policy.delayWithJitter b jitter = some late →
    early ≤ late

theorem bounded : policy.Bounded where
  backoff_le attempt := by
    obtain ⟨ms, hms, hvalue⟩ := policy.backoffMs_value attempt
    refine ⟨ms, hms, UInt64.le_iff_toNat_le.mpr ?_⟩
    rw [hvalue]
    exact policy.value.backoffMs_le attempt.toNat
  delay_le attempt jitter _ := by
    obtain ⟨ms, hms, hvalue⟩ := policy.delayWithJitter_value attempt jitter
    refine ⟨ms, hms, ?_⟩
    rw [hvalue]
    exact policy.value.delayWithJitter_le attempt.toNat jitter.toNat
  backoff_mono a b h early late hearly hlate := by
    obtain ⟨ms, hms, hvalue⟩ := policy.backoffMs_value a
    obtain ⟨ms', hms', hvalue'⟩ := policy.backoffMs_value b
    rw [hearly, Option.some.injEq] at hms
    rw [hlate, Option.some.injEq] at hms'
    rw [UInt64.le_iff_toNat_le, hms, hms', hvalue, hvalue']
    exact policy.value.backoffMs_mono (UInt32.le_iff_toNat_le.mp h)
  delay_mono a b h jitter early late hearly hlate := by
    obtain ⟨ms, hms, hvalue⟩ := policy.delayWithJitter_value a jitter
    obtain ⟨ms', hms', hvalue'⟩ := policy.delayWithJitter_value b jitter
    rw [hearly, Option.some.injEq] at hms
    rw [hlate, Option.some.injEq] at hms'
    rw [UInt64.le_iff_toNat_le, hms, hms', hvalue, hvalue']
    exact policy.value.delayWithJitter_mono (UInt32.le_iff_toNat_le.mp h) jitter.toNat

end RetryPolicyWords

/-! ## The send loop -/

/-- The two bounds of the policy of a batch, together. -/
def delayBound (e : Egress) : Nat :=
  (RetryPolicy.ofRetries e.retries).maxDelayMs + (RetryPolicy.ofRetries e.retries).jitterMs

/-- The delay `ms` after a failed attempt `k` for message `i`: what the error of the provider asks
for, or the delay of the policy where it asks for none. -/
structure Delayed (e : Egress) (s : Surroundings) (i k ms : Nat) (outcome : FlowOutcome) : Prop where
  sent : s.reply i k .sendPayload = .ok outcome
  failed : outcome.success = false
  again : (parseNodeError e.codec.readObject outcome).retryable = true
  source : (∃ asked, (parseNodeError e.codec.readObject outcome).backoffMs = some asked
        ∧ ms = asked.toNat)
      ∨ (parseNodeError e.codec.readObject outcome).backoffMs = none
        ∧ ms = (RetryPolicy.ofRetries e.retries).delayWithJitter k (s.jitter i k)
        ∧ ms ≤ delayBound e

variable {e : Egress} {s : Surroundings} {i : Nat} {envelope : ChannelMessageEnvelope}

/-- An attempt waits for nothing. -/
theorem wait_notMem_attemptOnce (ms k : Nat) :
    Event.wait ms ∉ (attemptOnce e s i envelope k).1 := by
  have hcount : (attemptOnce e s i envelope k).1.countP
      (fun event => match event with | .wait _ => true | _ => false) = 0 :=
    countP_attemptOnce (fun _ _ _ => rfl) rfl k
  rw [List.countP_eq_zero] at hcount
  intro hmem
  exact hcount _ hmem rfl

theorem wait_notMem_giveUp (ms k : Nat) (b : NodeErrorDetails) :
    Event.wait ms ∉ ((attempts e s i envelope).giveUp k b).1 := by
  have hcases : (s.append i = .ok ()
        ∧ ∃ entry, (attempts e s i envelope).giveUp k b = ([.deadLetter entry], .ok ()))
      ∨ ∃ err, s.append i = .error err ∧ (attempts e s i envelope).giveUp k b = ([], .error err) := giveUp_cases k b
  rcases hcases with ⟨-, entry, hgiven⟩ | ⟨err, -, hgiven⟩
  · rw [hgiven]
    simp
  · rw [hgiven]
    simp

/-- An attempt that fails has sent, and fails with the error of the outcome. -/
theorem failed_of_attemptOnce {k : Nat} {b : NodeErrorDetails} {retry : Bool}
    (h : (attemptOnce e s i envelope k).2 = .failed b retry) :
    ∃ outcome, s.reply i k .sendPayload = .ok outcome ∧ outcome.success = false
      ∧ b = parseNodeError e.codec.readObject outcome ∧ retry = b.retryable := by
  dsimp only [attemptOnce] at h
  cases hplan : renderPlan e (s.reply i k .renderPlan) with
  | error err => rw [hplan] at h; cases h
  | ok plan =>
    rw [hplan] at h
    dsimp only at h
    split at h
    · cases h
    · cases hsent : s.reply i k .sendPayload with
      | error err => rw [hsent] at h; cases h
      | ok outcome =>
        rw [hsent] at h
        dsimp only at h
        split at h
        · cases h
        · next hsuccess =>
          cases h
          exact ⟨outcome, rfl, by simpa using hsuccess, rfl, rfl⟩

/-- **One message**: every delay comes after an attempt that failed and is not the last. -/
theorem delayed_of_mem_sendMessage {ms : Nat} (h : .wait ms ∈ (sendMessage e s i envelope).1) :
    ∃ k outcome, 1 ≤ k ∧ k < maxAttempts e ∧ Delayed e s i k ms outcome := by
  obtain ⟨j, b, hj, hfailed, hpause⟩ :=
    Loop.mem_pause_of_mem_run (wait_notMem_attemptOnce ms) (wait_notMem_giveUp ms) h
  obtain ⟨outcome, hsent, hsuccess, hb, hretry⟩ := failed_of_attemptOnce hfailed
  have hms : ms = pauseMs (.ofRetries e.retries) (s.jitter i (1 + j)) (1 + j) b := by
    simpa [attempts] using hpause
  subst hb
  refine ⟨1 + j, outcome, by omega, ?_, hsent, hsuccess, hretry.symm, ?_⟩
  · show 1 + j < (RetryPolicy.ofRetries e.retries).maxAttempts
    omega
  · unfold pauseMs at hms
    split at hms
    · next asked hasked => exact .inl ⟨asked, hasked, hms⟩
    · next hasked =>
      refine .inr ⟨hasked, hms, ?_⟩
      rw [hms]
      exact RetryPolicy.delayWithJitter_le _ _ _

/-- The record of message `j` of a batch is that of its send. -/
theorem getElem?_sendAll {messages : List ChannelMessageEnvelope} {j : Nat} {log : List Event}
    (h : (sendAll e s i messages).1[j]? = some log) :
    ∃ envelope, log = (sendMessage e s (i + j) envelope).1 := by
  induction messages generalizing i j with
  | nil => simp [sendAll] at h
  | cons envelope rest ih =>
    cases j with
    | zero =>
      rw [sendAll_head, Option.some.injEq] at h
      exact ⟨envelope, h.symm⟩
    | succ j =>
      rcases hsend : sendMessage e s i envelope with ⟨record, err | _⟩
      · simp [sendAll, hsend] at h
      · simp only [sendAll, hsend, List.getElem?_cons_succ] at h
        obtain ⟨later, hlater⟩ := ih h
        exact ⟨later, by rw [hlater, show i + 1 + j = i + (j + 1) from by omega]⟩

/-- Every delay of a batch is within the bounds of its policy. -/
def DelaysWithin (e : Egress) (s : Surroundings) (envelopes : List ChannelMessageEnvelope) : Prop :=
  ∀ log ∈ (runEndToEnd e s envelopes).1, ∀ ms, .wait ms ∈ log → ms ≤ delayBound e

/-- **The source of every delay.** The delays of a policy are bounded. In a batch each delay
follows a failed attempt that is not the last one for its message, and is the one its provider
asks for; where it asks for none, it is the delay of the policy, within its bounds. -/
theorem every_delay_has_source :
    (∀ policy : RetryPolicyWords, policy.Bounded)
      ∧ ∀ (e : Egress) (s : Surroundings) (envelopes : List ChannelMessageEnvelope) (i : Nat)
          (log : List Event), (runEndToEnd e s envelopes).1[i]? = some log →
          ∀ ms, .wait ms ∈ log →
            ∃ k outcome, 1 ≤ k ∧ k < maxAttempts e ∧ Delayed e s i k ms outcome := by
  refine ⟨RetryPolicyWords.bounded, fun e s envelopes i log hlog ms hms => ?_⟩
  unfold runEndToEnd at hlog
  split at hlog
  · simp at hlog
  · obtain ⟨envelope, hrecord⟩ := getElem?_sendAll hlog
    rw [Nat.zero_add] at hrecord
    rw [hrecord] at hms
    exact delayed_of_mem_sendMessage hms

/-- A provider whose error asks for ten minutes. -/
def asksTenMinutes : Surroundings where
  prepare := .ok ()
  appFlow _ _ := .ok []
  openHost := .ok ()
  reply _ _ op :=
    .ok { success := op != .sendPayload,
          output := some (.object [("body_b64", .string "aGVsbG8="),
            ("content_type", .string "text/plain")]),
          raw := none, error := some "\x7b\"backoff-ms\":600000,\"retryable\":true\x7d",
          mode := .Exec }
  append _ := .ok ()
  jitter _ _ := 0
  jobId _ := "job"
  now _ := "now"

/-- A batch with one retry. The error it reads asks for ten minutes. -/
def patientEgress : Egress where
  provider := "messaging-telegram"
  canonicalType := "messaging-telegram"
  ctx := ⟨"demo", none, none⟩
  sendPayloadFlag := true
  dryRun := false
  retries := 1
  codec := ⟨fun _ => "", fun _ => "", fun _ =>
    some [("backoff-ms", .number (.posInt 600000)), ("retryable", .bool true)]⟩

def Event.waitsFor (ms : Nat) : Event → Bool
  | wait other => other == ms
  | _ => false

theorem wait_mem_patient :
    .wait 600000 ∈ (sendMessage patientEgress asksTenMinutes 0 (note "m1")).1 := by
  have hwaited : (sendMessage patientEgress asksTenMinutes 0 (note "m1")).1.any
      (Event.waitsFor 600000) = true := by decide
  obtain ⟨event, hevent, hwaits⟩ := List.any_eq_true.mp hwaited
  cases event with
  | wait ms =>
    rw [Event.waitsFor, beq_iff_eq] at hwaits
    rwa [← hwaits]
  | _ => cases hwaits

/-- The ten minutes are those the provider asks for. -/
theorem ten_minutes_have_source :
    ∃ k outcome, 1 ≤ k ∧ k < maxAttempts patientEgress
      ∧ Delayed patientEgress asksTenMinutes 0 k 600000 outcome :=
  every_delay_has_source.2 patientEgress asksTenMinutes [note "m1"] 0 _ rfl 600000 wait_mem_patient

/-- A provider that asks for ten minutes is waited for ten minutes. -/
theorem provider_delay_unbounded :
    ¬ ((∀ policy : RetryPolicyWords, policy.Bounded)
      ∧ ∀ (e : Egress) (s : Surroundings) (envelopes : List ChannelMessageEnvelope),
        DelaysWithin e s envelopes) := by
  rintro ⟨-, h⟩
  have hle := h patientEgress asksTenMinutes [note "m1"] _ List.mem_cons_self 600000 wait_mem_patient
  exact absurd hle (by decide)

end MessagingUniversal
