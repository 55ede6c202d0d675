import GreenticOperator.MessagingUniversal.Egress

/-!
# What becomes of a batch

Every message of a batch should be attempted, no more often than one time and the retries, and
end in one acknowledged send or in one dead letter (`Accounted`). `accounted_iff` is the exact
condition on the replies of the provider. An attempt whose plan is refused, or whose send has no
outcome, ends the batch; a send that succeeds ends the message, whatever the provider says in
its output.
-/

namespace MessagingUniversal

open Json RunnerHost Retry

/-! ## The promise -/

/-- A send the provider acknowledged: it succeeded, and its output does not report `ok=false`. -/
def acknowledged (outcome : FlowOutcome) : Bool :=
  outcome.success && !((outcome.output.bind fun v => v.get "ok").bind Value.asBool == some false)

def Event.isAttempt : Event → Bool
  | attempt _ => true
  | _ => false

def Event.isAcknowledged (ack : FlowOutcome → Bool) : Event → Bool
  | call .sendPayload _ (.ok outcome) => ack outcome
  | _ => false

def Event.isDeadLetter : Event → Bool
  | deadLetter _ => true
  | _ => false

/-- A message ends in one acknowledged send or in one dead letter, and not in both. -/
def EndsOnce (ack : FlowOutcome → Bool) (record : List Event) : Prop :=
  record.countP (Event.isAcknowledged ack) = 1 ∧ record.countP Event.isDeadLetter = 0
    ∨ record.countP (Event.isAcknowledged ack) = 0 ∧ record.countP Event.isDeadLetter = 1

/-- The batch with sending enabled. -/
def Egress.sending (e : Egress) : Egress := { e with sendPayloadFlag := true, dryRun := false }

/-- A message is attempted, within the retries, and ends once. -/
def AccountedFor (ack : FlowOutcome → Bool) (e : Egress) (record : List Event) : Prop :=
  1 ≤ record.countP Event.isAttempt ∧ record.countP Event.isAttempt ≤ e.retries.toNat + 1
    ∧ EndsOnce ack record

/-- Every message of a batch that is sent is accounted for. -/
def Accounted (ack : FlowOutcome → Bool) (e : Egress) (s : Surroundings)
    (envelopes : List ChannelMessageEnvelope) : Prop :=
  ∀ messages, outbound s envelopes = .ok messages → ∀ i, i < messages.length →
    AccountedFor ack e (((runEndToEnd e.sending s envelopes).1[i]?).getD [])

/-! ## The condition -/

def maxAttempts (e : Egress) : Nat := (RetryPolicy.ofRetries e.retries).maxAttempts

def retryable (e : Egress) (outcome : FlowOutcome) : Bool :=
  (parseNodeError e.codec.readObject outcome).retryable

/-- The send of attempt `k` for message `i` fails in a way that may be mended. -/
def Mendable (e : Egress) (s : Surroundings) (i k : Nat) : Prop :=
  ∃ outcome, s.reply i k .sendPayload = .ok outcome ∧ outcome.success = false
    ∧ retryable e outcome = true

/-- The plan of attempt `k` is made, its send has an outcome, which is acknowledged where it is a
success, and the dead letter of a last failure is written. -/
structure Settles (ack : FlowOutcome → Bool) (e : Egress) (s : Surroundings) (i k : Nat) : Prop where
  planned : ∃ outcome, s.reply i k .renderPlan = .ok outcome ∧ outcome.success = true
  sent : ∃ outcome, s.reply i k .sendPayload = .ok outcome
    ∧ (outcome.success = true → ack outcome = true)
    ∧ (outcome.success = false → k = maxAttempts e ∨ retryable e outcome = false →
        s.append i = .ok ())

/-- Every attempt that is reached settles. -/
def AllSettle (ack : FlowOutcome → Bool) (e : Egress) (s : Surroundings) (i : Nat) : Prop :=
  ∀ k, 1 ≤ k → k ≤ maxAttempts e → (∀ j, 1 ≤ j → j < k → Mendable e s i j) → Settles ack e s i k

/-! ## One attempt -/

variable {ack : FlowOutcome → Bool} {e : Egress} {s : Surroundings} {i : Nat}
  {envelope : ChannelMessageEnvelope}

theorem renderPlan_ok_iff {reply : Except String FlowOutcome} :
    (∃ plan, renderPlan e reply = .ok plan) ↔ ∃ outcome, reply = .ok outcome ∧ outcome.success = true := by
  unfold renderPlan ensureSuccess
  cases reply with
  | error err => simp [bind, Except.bind]
  | ok outcome => cases h : outcome.success <;> simp [bind, Except.bind, h, pure, Except.pure]

@[simp] theorem renderPlan_sending (reply : Except String FlowOutcome) :
    renderPlan e.sending reply = renderPlan e reply := rfl

/-- **What an attempt comes to**: it ends the batch without settling, ends the message with a send
that succeeded, or fails. -/
theorem attemptOnce_cases (hack : ∀ outcome, ack outcome = true → outcome.success = true) (k : Nat) :
    (∃ log err, attemptOnce e.sending s i envelope k = (log, .done (.error err))
        ∧ log.countP (Event.isAcknowledged ack) = 0 ∧ ¬ Settles ack e s i k)
      ∨ ∃ log outcome, s.reply i k .sendPayload = .ok outcome
        ∧ (∃ planned, s.reply i k .renderPlan = .ok planned ∧ planned.success = true)
        ∧ ((outcome.success = true ∧ attemptOnce e.sending s i envelope k = (log, .done (.ok ()))
            ∧ log.countP (Event.isAcknowledged ack) = if ack outcome then 1 else 0)
          ∨ (outcome.success = false
            ∧ attemptOnce e.sending s i envelope k
              = (log, .failed (parseNodeError e.codec.readObject outcome) (retryable e outcome))
            ∧ log.countP (Event.isAcknowledged ack) = 0)) := by
  unfold attemptOnce
  cases hplan : renderPlan e (s.reply i k .renderPlan) with
  | error err =>
    refine .inl ⟨_, err, by simp only [renderPlan_sending, hplan]; rfl, rfl, fun hsettles => ?_⟩
    obtain ⟨plan, hok⟩ := renderPlan_ok_iff.mpr hsettles.planned
    rw [hplan] at hok
    cases hok
  | ok plan =>
    have hplanned := renderPlan_ok_iff.mp ⟨plan, hplan⟩
    simp only [renderPlan_sending, hplan]
    cases hsent : s.reply i k .sendPayload with
    | error err =>
      refine .inl ⟨_, err, rfl, rfl, fun hsettles => ?_⟩
      obtain ⟨outcome, hok, -⟩ := hsettles.sent
      rw [hsent] at hok
      cases hok
    | ok outcome =>
      cases hsuccess : outcome.success with
      | true =>
        refine .inr ⟨_, outcome, rfl, hplanned, .inl ⟨hsuccess, by simp only [hsuccess]; rfl, ?_⟩⟩
        cases hacked : ack outcome <;> simp [Event.isAcknowledged, hacked]
      | false =>
        refine .inr ⟨_, outcome, rfl, hplanned, .inr ⟨hsuccess, by simp only [hsuccess]; rfl, ?_⟩⟩
        have hrefused : ack outcome = false := by
          by_contra hacked
          rw [hack outcome (by simpa using hacked)] at hsuccess
          cases hsuccess
        simp [Event.isAcknowledged, hrefused]

/-- Besides its calls an attempt writes nothing but its number. -/
theorem countP_attemptOnce {p : Event → Bool} (hcall : ∀ op input reply, p (.call op input reply) = false)
    (hpreview : p .preview = false) (k : Nat) :
    (attemptOnce e s i envelope k).1.countP p = [Event.attempt k].countP p := by
  dsimp only [attemptOnce]
  cases renderPlan e (s.reply i k .renderPlan) with
  | error err => simp [List.countP_cons, hcall]
  | ok plan =>
    dsimp only
    split
    · simp [List.countP_cons, hcall, hpreview]
    · cases s.reply i k .sendPayload with
      | error err => simp [List.countP_cons, hcall]
      | ok outcome =>
        dsimp only
        split <;> simp [List.countP_cons, hcall]

/-! ## One message -/

theorem one_le_maxAttempts (e : Egress) : 1 ≤ maxAttempts e := Nat.le_max_right _ 1

theorem maxAttempts_le (e : Egress) : maxAttempts e ≤ e.retries.toNat + 1 := by
  show max (min (e.retries.toNat + 1) u32Max) 1 ≤ e.retries.toNat + 1
  omega

def Planned (s : Surroundings) (i k : Nat) : Prop :=
  ∃ outcome, s.reply i k .renderPlan = .ok outcome ∧ outcome.success = true

theorem not_mendable_of_success {k : Nat} {outcome : FlowOutcome}
    (hsent : s.reply i k .sendPayload = .ok outcome) (hsuccess : outcome.success = true) :
    ¬ Mendable e s i k := by
  rintro ⟨other, hother, hfailed, -⟩
  rw [hsent, Except.ok.injEq] at hother
  rw [← hother, hsuccess] at hfailed
  cases hfailed

/-- A send that succeeds settles where it is acknowledged. -/
theorem settles_iff_of_success {k : Nat} {outcome : FlowOutcome} (hplanned : Planned s i k)
    (hsent : s.reply i k .sendPayload = .ok outcome) (hsuccess : outcome.success = true) :
    Settles ack e s i k ↔ ack outcome = true := by
  constructor
  · rintro ⟨-, other, hother, hacked, -⟩
    rw [hsent, Except.ok.injEq] at hother
    subst hother
    exact hacked hsuccess
  · refine fun hacked => ⟨hplanned, outcome, hsent, fun _ => hacked, fun hfailed => ?_⟩
    rw [hsuccess] at hfailed
    cases hfailed

/-- A last send that fails settles where its dead letter is written. -/
theorem settles_iff_of_failure {k : Nat} {outcome : FlowOutcome} (hplanned : Planned s i k)
    (hsent : s.reply i k .sendPayload = .ok outcome) (hfailed : outcome.success = false)
    (hlast : k = maxAttempts e ∨ retryable e outcome = false) :
    Settles ack e s i k ↔ s.append i = .ok () := by
  constructor
  · rintro ⟨-, other, hother, -, happend⟩
    rw [hsent, Except.ok.injEq] at hother
    subst hother
    exact happend hfailed hlast
  · refine fun happend => ⟨hplanned, outcome, hsent, fun hsuccess => ?_, fun _ _ => happend⟩
    rw [hfailed] at hsuccess
    cases hsuccess

/-- The attempts before the last one settle on their own. -/
theorem allSettle_iff {k : Nat} (hpos : 1 ≤ k) (hmax : k ≤ maxAttempts e)
    (hearlier : ∀ j, 1 ≤ j → j < k → Planned s i j ∧ Mendable e s i j)
    (hlast : Mendable e s i k → k = maxAttempts e) :
    AllSettle ack e s i ↔ Settles ack e s i k := by
  constructor
  · exact fun h => h k hpos hmax fun j hj hlt => (hearlier j hj hlt).2
  · intro h j hj hjmax hreached
    rcases Nat.lt_trichotomy j k with hlt | rfl | hgt
    · obtain ⟨hplanned, outcome, hsent, hfailed, hretry⟩ := hearlier j hj hlt
      refine ⟨hplanned, outcome, hsent, fun hsuccess => ?_, fun _ hfinal => ?_⟩
      · rw [hfailed] at hsuccess
        cases hsuccess
      · rcases hfinal with heq | hno
        · omega
        · rw [hretry] at hno
          cases hno
    · exact h
    · have := hlast (hreached k hpos hgt)
      omega

/-- What an attempt that fails writes: no acknowledgement, and the pause after it. -/
theorem tried_of_failed (hack : ∀ outcome, ack outcome = true → outcome.success = true) {k : Nat}
    {b : NodeErrorDetails} {retry : Bool}
    (h : (attemptOnce e.sending s i envelope k).2 = .failed b retry) :
    ((attempts e.sending s i envelope).tried k).countP Event.isAttempt = 1
      ∧ ((attempts e.sending s i envelope).tried k).countP (Event.isAcknowledged ack) = 0
      ∧ ((attempts e.sending s i envelope).tried k).countP Event.isDeadLetter = 0
      ∧ Planned s i k ∧ ∃ outcome, s.reply i k .sendPayload = .ok outcome
        ∧ outcome.success = false ∧ retryable e outcome = retry := by
  have hattempt := @countP_attemptOnce e.sending s i envelope Event.isAttempt (fun _ _ _ => rfl) rfl k
  have hdead := @countP_attemptOnce e.sending s i envelope Event.isDeadLetter (fun _ _ _ => rfl) rfl k
  rcases @attemptOnce_cases ack e s i envelope hack k with
    ⟨log, err, honce, -, -⟩ | ⟨log, outcome, hsent, hplanned,
      ⟨hsuccess, honce, -⟩ | ⟨hsuccess, honce, hacked⟩⟩
  · rw [honce] at h
    cases h
  · rw [honce] at h
    cases h
  · rw [honce] at h hattempt hdead
    cases h
    have htried : (attempts e.sending s i envelope).tried k = log
        ++ [.wait (pauseMs (.ofRetries e.retries) (s.jitter i k) k
              (parseNodeError e.codec.readObject outcome))] := by
      simp only [Loop.tried, attempts, honce]
      rfl
    rw [htried]
    simp only [List.countP_append, hattempt, hdead, hacked]
    exact ⟨rfl, rfl, rfl, hplanned, outcome, hsent, hsuccess, rfl⟩

/-- What is known of the first `n` attempts for a message where all of them may be mended. -/
structure Earlier (ack : FlowOutcome → Bool) (e : Egress) (s : Surroundings) (i : Nat)
    (envelope : ChannelMessageEnvelope) (n : Nat) : Prop where
  attempted : ((attempts e.sending s i envelope).passed 1 n).countP Event.isAttempt = n
  unacknowledged : ((attempts e.sending s i envelope).passed 1 n).countP (Event.isAcknowledged ack) = 0
  noDeadLetter : ((attempts e.sending s i envelope).passed 1 n).countP Event.isDeadLetter = 0
  mendable : ∀ k, 1 ≤ k → k < 1 + n → Planned s i k ∧ Mendable e s i k

theorem earlier_of_failed (hack : ∀ outcome, ack outcome = true → outcome.success = true) {n : Nat}
    (h : ∀ j, j < n → ∃ b, ((attempts e.sending s i envelope).once (1 + j)).2 = .failed b true) :
    Earlier ack e s i envelope n := by
  have hpassed := fun j (hj : j < n) =>
    let ⟨_, hb⟩ := h j hj
    @tried_of_failed ack e s i envelope hack _ _ _ hb
  have hattempts := Loop.countP_passed fun j hj => (hpassed j hj).1
  refine ⟨by rw [hattempts, Nat.mul_one], Loop.countP_passed fun j hj => (hpassed j hj).2.1,
    Loop.countP_passed fun j hj => (hpassed j hj).2.2.1, fun k hk hlt => ?_⟩
  obtain ⟨m, rfl⟩ := Nat.exists_eq_add_of_le hk
  obtain ⟨-, -, -, hplanned, hmend⟩ := hpassed m (by omega)
  exact ⟨hplanned, hmend⟩

/-- What is proved of a message: it is attempted within the retries; it ends once where every
attempt that is reached settles, and the batch then goes on. -/
structure Concludes (ack : FlowOutcome → Bool) (e : Egress) (s : Surroundings) (i : Nat)
    (ran : List Event × Except String Unit) : Prop where
  tried : 1 ≤ ran.1.countP Event.isAttempt
  within : ran.1.countP Event.isAttempt ≤ e.retries.toNat + 1
  ends_iff : EndsOnce ack ran.1 ↔ AllSettle ack e s i
  goes_on : EndsOnce ack ran.1 → ran.2 = .ok ()

/-- Where the batch goes on, and where not, after a last attempt that failed. -/
theorem giveUp_cases (k : Nat) (b : NodeErrorDetails) :
    (s.append i = .ok () ∧ ∃ entry, (attempts e s i envelope).giveUp k b = ([.deadLetter entry], .ok ()))
      ∨ ∃ err, s.append i = .error err ∧ (attempts e s i envelope).giveUp k b = ([], .error err) := by
  dsimp only [attempts]
  cases s.append i with
  | ok _ => exact .inl ⟨rfl, _, rfl⟩
  | error err => exact .inr ⟨err, rfl, rfl⟩

/-- A message whose last attempt is done. -/
theorem concludes_of_done (hack : ∀ outcome, ack outcome = true → outcome.success = true) {n : Nat}
    (hn : 1 + n ≤ maxAttempts e) (hearlier : Earlier ack e s i envelope n) {a : Except String Unit}
    (hdone : (attemptOnce e.sending s i envelope (1 + n)).2 = .done a) :
    Concludes ack e s i ((attempts e.sending s i envelope).passed 1 n
      ++ (attemptOnce e.sending s i envelope (1 + n)).1, a) := by
  have hmax := maxAttempts_le e
  have hattempt : (attemptOnce e.sending s i envelope (1 + n)).1.countP Event.isAttempt = 1 :=
    countP_attemptOnce (fun _ _ _ => rfl) rfl (1 + n)
  have hdead : (attemptOnce e.sending s i envelope (1 + n)).1.countP Event.isDeadLetter = 0 :=
    countP_attemptOnce (fun _ _ _ => rfl) rfl (1 + n)
  have hends : EndsOnce ack ((attempts e.sending s i envelope).passed 1 n
        ++ (attemptOnce e.sending s i envelope (1 + n)).1)
      ↔ (attemptOnce e.sending s i envelope (1 + n)).1.countP (Event.isAcknowledged ack) = 1 := by
    rw [EndsOnce, List.countP_append, List.countP_append, hearlier.unacknowledged,
      hearlier.noDeadLetter, hdead]
    omega
  suffices hlast : ((attemptOnce e.sending s i envelope (1 + n)).1.countP (Event.isAcknowledged ack) = 1
      ↔ AllSettle ack e s i) ∧ ((attemptOnce e.sending s i envelope (1 + n)).1.countP
        (Event.isAcknowledged ack) = 1 → a = .ok ()) by
    refine ⟨?_, ?_, hends.trans hlast.1, fun h => hlast.2 (hends.mp h)⟩
    · rw [List.countP_append, hattempt]
      omega
    · rw [List.countP_append, hearlier.attempted, hattempt]
      omega
  rcases @attemptOnce_cases ack e s i envelope hack (1 + n) with
    ⟨log, err, honce, hacked, hunsettled⟩ | ⟨log, outcome, hsent, hplanned,
      ⟨hsuccess, honce, hacked⟩ | ⟨hsuccess, honce, -⟩⟩
  · -- The batch ends here, with neither.
    have hall : ¬ AllSettle ack e s i := fun h =>
      hunsettled (h (1 + n) (by omega) hn fun k hk hlt => (hearlier.mendable k hk hlt).2)
    rw [honce, hacked]
    simp [hall]
  · have hall : AllSettle ack e s i ↔ Settles ack e s i (1 + n) :=
      allSettle_iff (by omega) hn hearlier.mendable fun hmend =>
        absurd hmend (not_mendable_of_success hsent hsuccess)
    rw [honce] at hdone
    cases hdone
    rw [honce, hacked, hall, settles_iff_of_success hplanned hsent hsuccess]
    cases ack outcome <;> simp
  · rw [honce] at hdone
    cases hdone

/-- A message whose last attempt failed, and so is given up. -/
theorem concludes_of_failed (hack : ∀ outcome, ack outcome = true → outcome.success = true) {n : Nat}
    (hn : 1 + n ≤ maxAttempts e) (hearlier : Earlier ack e s i envelope n) {b : NodeErrorDetails}
    {retry : Bool} (hfailed : (attemptOnce e.sending s i envelope (1 + n)).2 = .failed b retry)
    (hlast : retry = true → 1 + n = maxAttempts e) :
    Concludes ack e s i ((attempts e.sending s i envelope).passed 1 n
      ++ (attemptOnce e.sending s i envelope (1 + n)).1
      ++ ((attempts e.sending s i envelope).giveUp (1 + n) b).1,
      ((attempts e.sending s i envelope).giveUp (1 + n) b).2) := by
  have hmax := maxAttempts_le e
  have hattempt : (attemptOnce e.sending s i envelope (1 + n)).1.countP Event.isAttempt = 1 :=
    countP_attemptOnce (fun _ _ _ => rfl) rfl (1 + n)
  have hdead : (attemptOnce e.sending s i envelope (1 + n)).1.countP Event.isDeadLetter = 0 :=
    countP_attemptOnce (fun _ _ _ => rfl) rfl (1 + n)
  rcases @attemptOnce_cases ack e s i envelope hack (1 + n) with
    ⟨log, err, honce, -, -⟩ | ⟨log, outcome, hsent, hplanned,
      ⟨hsuccess, honce, -⟩ | ⟨hsuccess, honce, hacked⟩⟩
  · rw [honce] at hfailed
    cases hfailed
  · rw [honce] at hfailed
    cases hfailed
  · rw [honce] at hfailed hattempt hdead ⊢
    cases hfailed
    have hfinal : 1 + n = maxAttempts e ∨ retryable e outcome = false := by
      cases hretry : retryable e outcome with
      | true => exact .inl (hlast hretry)
      | false => exact .inr rfl
    have hall : AllSettle ack e s i ↔ s.append i = .ok () := by
      rw [← settles_iff_of_failure hplanned hsent hsuccess hfinal]
      refine allSettle_iff (by omega) hn hearlier.mendable fun ⟨other, hother, _, hretry⟩ => ?_
      rw [hsent, Except.ok.injEq] at hother
      subst hother
      exact hlast hretry
    -- After the attempts only the dead letter counts.
    have hends : ∀ given : List Event, given.countP (Event.isAcknowledged ack) = 0 →
        (EndsOnce ack ((attempts e.sending s i envelope).passed 1 n ++ log ++ given)
          ↔ given.countP Event.isDeadLetter = 1) := by
      intro given hgiven
      rw [EndsOnce, List.countP_append, List.countP_append, List.countP_append, List.countP_append,
        hearlier.unacknowledged, hearlier.noDeadLetter, hdead, hacked, hgiven]
      omega
    have htries : ∀ given : List Event, given.countP Event.isAttempt = 0 →
        ((attempts e.sending s i envelope).passed 1 n ++ log ++ given).countP Event.isAttempt = n + 1 := by
      intro given hgiven
      rw [List.countP_append, List.countP_append, hearlier.attempted, hattempt, hgiven]
    rcases @giveUp_cases e.sending s i envelope (1 + n) (parseNodeError e.codec.readObject outcome) with
      ⟨happend, entry, hgiven⟩ | ⟨err, happend, hgiven⟩
    · rw [hgiven]
      refine ⟨by rw [htries _ rfl]; omega, by rw [htries _ rfl]; omega, ?_, fun _ => rfl⟩
      rw [hends _ rfl, hall]
      exact iff_of_true rfl happend
    · rw [hgiven]
      have hlost : ¬ EndsOnce ack ((attempts e.sending s i envelope).passed 1 n ++ log ++ []) := by
        rw [hends _ rfl]
        exact nofun
      refine ⟨by rw [htries _ rfl]; omega, by rw [htries _ rfl]; omega, ?_, fun h => absurd h hlost⟩
      rw [hall, happend]
      exact iff_of_false hlost nofun

/-- **One message** is attempted within the retries and ends once where every attempt that is
reached settles. -/
theorem concludes_sendMessage (hack : ∀ outcome, ack outcome = true → outcome.success = true) :
    Concludes ack e s i (sendMessage e.sending s i envelope) := by
  obtain ⟨n, hn, hbefore, hlast⟩ := (attempts e.sending s i envelope).run_cases (maxAttempts e - 1) 1
  have hone := one_le_maxAttempts e
  have hearlier := @earlier_of_failed ack e s i envelope hack n hbefore
  rcases hlast with ⟨a, ha, hrun⟩ | ⟨b, retry, hb, hfinal, hrun⟩
  · have hmessage : sendMessage e.sending s i envelope = _ := hrun
    rw [hmessage]
    exact concludes_of_done hack (by omega) hearlier ha
  · have hmessage : sendMessage e.sending s i envelope = _ := hrun
    rw [hmessage]
    exact concludes_of_failed hack (by omega) hearlier hb fun hretry => by
      have := hfinal hretry
      omega

theorem accountedFor_iff (hack : ∀ outcome, ack outcome = true → outcome.success = true) :
    AccountedFor ack e (sendMessage e.sending s i envelope).1 ↔ AllSettle ack e s i := by
  have hmessage := @concludes_sendMessage ack e s i envelope hack
  exact ⟨fun h => hmessage.ends_iff.mp h.2.2,
    fun h => ⟨hmessage.tried, hmessage.within, hmessage.ends_iff.mpr h⟩⟩

/-! ## The batch -/

/-- A message whose attempts all settle lets the rest of the batch be sent. -/
theorem sendAll_cons_of_settle (hack : ∀ outcome, ack outcome = true → outcome.success = true)
    (rest : List ChannelMessageEnvelope) (h : AllSettle ack e s i) :
    (sendAll e.sending s i (envelope :: rest)).1
      = (sendMessage e.sending s i envelope).1 :: (sendAll e.sending s (i + 1) rest).1 := by
  have hmessage := @concludes_sendMessage ack e s i envelope hack
  have hresult := hmessage.goes_on (hmessage.ends_iff.mpr h)
  rcases hsend : sendMessage e.sending s i envelope with ⟨log, result⟩
  rw [hsend] at hresult
  subst hresult
  simp only [sendAll, hsend]

theorem sendAll_head (rest : List ChannelMessageEnvelope) :
    (sendAll e s i (envelope :: rest)).1[0]? = some (sendMessage e s i envelope).1 := by
  rcases hsend : sendMessage e s i envelope with ⟨log, err | _⟩ <;> simp [sendAll, hsend]

theorem sendAll_accounted_iff (hack : ∀ outcome, ack outcome = true → outcome.success = true)
    (i : Nat) (messages : List ChannelMessageEnvelope) :
    (∀ j, j < messages.length →
        AccountedFor ack e (((sendAll e.sending s i messages).1[j]?).getD []))
      ↔ ∀ j, j < messages.length → AllSettle ack e s (i + j) := by
  induction messages generalizing i with
  | nil => simp
  | cons envelope rest ih =>
    have hhead : AccountedFor ack e (((sendAll e.sending s i (envelope :: rest)).1[0]?).getD [])
        ↔ AllSettle ack e s i := by
      rw [sendAll_head, Option.getD_some, accountedFor_iff hack]
    have htail (hsettle : AllSettle ack e s i) (j : Nat) :
        ((sendAll e.sending s i (envelope :: rest)).1[j + 1]?).getD []
          = ((sendAll e.sending s (i + 1) rest).1[j]?).getD [] := by
      rw [sendAll_cons_of_settle hack rest hsettle, List.getElem?_cons_succ]
    constructor
    · intro h j hj
      have hsettle := hhead.mp (h 0 (Nat.succ_pos _))
      cases j with
      | zero => exact hsettle
      | succ j =>
        have hrest := (ih (i + 1)).mp fun m hm => by
          rw [← htail hsettle m]
          exact h (m + 1) (Nat.succ_lt_succ hm)
        rw [show i + (j + 1) = i + 1 + j from by omega]
        exact hrest j (Nat.lt_of_succ_lt_succ hj)
    · intro h j hj
      have hsettle := h 0 (Nat.succ_pos _)
      cases j with
      | zero => exact hhead.mpr hsettle
      | succ j =>
        rw [htail hsettle j]
        refine (ih (i + 1)).mpr (fun m hm => ?_) j (Nat.lt_of_succ_lt_succ hj)
        rw [show i + 1 + m = i + (m + 1) from by omega]
        exact h (m + 1) (Nat.succ_lt_succ hm)

/-- Every message of the batch settles at every attempt that is reached. -/
def BatchSettles (ack : FlowOutcome → Bool) (e : Egress) (s : Surroundings)
    (envelopes : List ChannelMessageEnvelope) : Prop :=
  ∀ messages, outbound s envelopes = .ok messages → ∀ i, i < messages.length → AllSettle ack e s i

/-- **When a batch is accounted for**, for any notion of an acknowledged send that asks for a
success at least. -/
theorem accounted_iff_of_success (hack : ∀ outcome, ack outcome = true → outcome.success = true)
    (envelopes : List ChannelMessageEnvelope) :
    Accounted ack e s envelopes ↔ BatchSettles ack e s envelopes := by
  unfold Accounted BatchSettles
  refine forall₂_congr fun messages houtbound => ?_
  have hrun : runEndToEnd e.sending s envelopes = sendAll e.sending s 0 messages := by
    rw [runEndToEnd, houtbound]
  have hbatch := @sendAll_accounted_iff ack e s hack 0 messages
  simp only [Nat.zero_add] at hbatch
  rw [hrun, hbatch]

/-- **When a batch is accounted for.** -/
theorem accounted_iff (e : Egress) (s : Surroundings) (envelopes : List ChannelMessageEnvelope) :
    Accounted acknowledged e s envelopes ↔ BatchSettles acknowledged e s envelopes :=
  accounted_iff_of_success (fun _ h => (Bool.and_eq_true_iff.mp h).1) envelopes

/-- A message as the app flow leaves it. -/
def note (id : String) : ChannelMessageEnvelope where
  id := id
  channel := "demo"
  sessionId := "s1"
  text := some "hello"
  attachments := []
  correlationId := none
  fromId := none
  value := .object [("id", .string id)]

def quietEgress : Egress where
  provider := "messaging-telegram"
  canonicalType := "messaging-telegram"
  ctx := ⟨"demo", none, none⟩
  sendPayloadFlag := true
  dryRun := false
  retries := 0
  codec := ⟨fun _ => "", fun _ => "", fun _ => none⟩

/-- A provider that acknowledges every send, and plans every message but the first. -/
def firstPlanFails : Surroundings where
  prepare := .ok ()
  appFlow _ _ := .ok []
  openHost := .ok ()
  reply i _ op :=
    if i = 0 ∧ op = .renderPlan then .error "render_plan trapped"
    else .ok { success := true, output := some (.object [("ok", .bool true)]), raw := none,
               error := none, mode := .Exec }
  append _ := .ok ()
  jitter _ _ := 0
  jobId _ := "job"
  now _ := "now"

/-- The second message of a batch whose first plan fails is never attempted. -/
theorem failed_plan_drops_rest :
    ¬ ∀ (e : Egress) (s : Surroundings) (envelopes : List ChannelMessageEnvelope),
      Accounted acknowledged e s envelopes := by
  intro h
  have hsecond := h quietEgress firstPlanFails [note "m1", note "m2"] _ rfl 1 (by decide)
  exact absurd hsecond.1 (by decide)

end MessagingUniversal
