import GreenticOperator.Laws.Subscriptions.Lifecycle
import Mathlib.Algebra.Order.Ring.Int

/-!
# Which states are renewed, and until when

`renew_due` is meant to try every stored state whose expiration, less the skew, has come,
and to ask each time for an expiration in the future (`RenewsDue`). The listing is one
result for all states, the skew is cut to 64 bits before it is subtracted, and the target
is one day after the old expiration; each of these can go wrong only for states that are
due, and `renewDue_iff` says exactly when none does.

The subtraction itself never goes wrong (`isDue_iff`): where it leaves the type, the end of
the type compares with the current time as the exact difference would.
-/

namespace Subscriptions

open Disk RunnerHost RuntimeState SubscriptionService SubscriptionStore Scheduler

/-! ## Numbers -/

theorem toInt_ofIntClamp (x : Int) :
    (Int64.ofIntClamp x).toInt = max (-2 ^ 63) (min x (2 ^ 63 - 1)) := by
  have hmin : Int64.minValue.toInt = -2 ^ 63 := by decide
  have hmax : Int64.maxValue.toInt = 2 ^ 63 - 1 := by decide
  unfold Int64.ofIntClamp
  split
  next hl =>
    split
    next hr =>
      rw [Int64.toInt_ofIntLE]
      omega
    next hr => omega
  next hl => omega

theorem toNat_toUInt64 (x : Int64) :
    (x.toUInt64.toNat : Int) = if 0 ≤ x.toInt then x.toInt else x.toInt + 2 ^ 64 := by
  have hlt : x.toUInt64.toNat < 2 ^ 64 := x.toUInt64.toNat_lt
  have hcond : x.toInt = if 2 * x.toUInt64.toNat < 2 ^ 64 then (x.toUInt64.toNat : Int)
      else x.toUInt64.toNat - 2 ^ 64 := BitVec.toInt_eq_toNat_cond x.toBitVec
  split at hcond <;> split <;> omega

/-- A skew as the comparison uses it: its milliseconds, cut to a signed 64-bit number. -/
def cutSkew (skew : Duration) : Int := (skew.asMillis : Int).bmod (2 ^ 64)

theorem cutSkew_le (skew : Duration) : cutSkew skew ≤ skew.asMillis := by
  unfold cutSkew
  rw [Int.bmod_def]
  split <;> omega

theorem toInt_skewMs (skew : Duration) : (Int64.ofNat skew.asMillis).toInt = cutSkew skew :=
  Int64.toInt_ofNat'

/-- **The test of a state**, over the integers. -/
theorem isDue_iff (now : Int64) (skew : Duration) (state : SubscriptionState) :
    isDue now (Int64.ofNat skew.asMillis) state = true
      ↔ ∃ expiration, state.expirationUnixMs = some expiration
          ∧ min (expiration.toInt - cutSkew skew) (2 ^ 63 - 1) ≤ now.toInt := by
  unfold isDue saturatingSub
  have hnow := now.le_toInt
  cases state.expirationUnixMs with
  | none => simp
  | some expiration =>
    simp only [decide_eq_true_eq, Int64.le_iff_toInt_le, toInt_ofIntClamp, toInt_skewMs,
      Option.some.injEq, exists_eq_left']
    omega

/-! ## The states due, over the integers -/

/-- What the listing is meant to give: the states of the readable state files. -/
def readable (files : List (Path × Contents SubscriptionState)) : List SubscriptionState :=
  files.filterMap fun entry =>
    if isStateFile entry.1 then
      match entry.2 with
      | .value state => some state
      | .unreadable => none
    else none

/-- Every state file of the store can be read. -/
def AllReadable (files : List (Path × Contents SubscriptionState)) : Prop :=
  ∀ entry ∈ files, isStateFile entry.1 = true → entry.2 ≠ .unreadable

theorem collectStates_of_allReadable {files : List (Path × Contents SubscriptionState)}
    (h : AllReadable files) : collectStates files = .ok (readable files) := by
  induction files with
  | nil => rfl
  | cons entry files ih =>
    obtain ⟨path, contents⟩ := entry
    have ih := ih fun entry hentry => h entry (List.mem_cons_of_mem _ hentry)
    unfold collectStates
    cases hpath : isStateFile path with
    | false =>
      rw [if_neg Bool.false_ne_true, ih]
      simp [readable, hpath]
    | true =>
      rw [if_pos rfl]
      cases contents with
      | unreadable => exact absurd rfl (h _ List.mem_cons_self hpath)
      | value state =>
        rw [ih]
        simp [readable, hpath, Except.map]

theorem allReadable_of_collectStates {files : List (Path × Contents SubscriptionState)}
    {states : List SubscriptionState} (h : collectStates files = .ok states) :
    AllReadable files := by
  induction files generalizing states with
  | nil => exact fun _ hentry => nomatch hentry
  | cons entry files ih =>
    obtain ⟨path, contents⟩ := entry
    unfold collectStates at h
    intro entry hentry hpath
    cases hfile : isStateFile path with
    | false =>
      rw [hfile, if_neg Bool.false_ne_true] at h
      rcases List.mem_cons.mp hentry with rfl | hentry
      · rw [hfile] at hpath
        cases hpath
      · exact ih h entry hentry hpath
    | true =>
      rw [hfile, if_pos rfl] at h
      cases contents with
      | unreadable => cases h
      | value state =>
        rcases List.mem_cons.mp hentry with rfl | hentry
        · intro hunreadable
          cases hunreadable
        · cases hrest : collectStates files with
          | error e =>
            rw [hrest] at h
            cases h
          | ok rest => exact ih hrest entry hentry hpath

/-- Whether a state's expiration, less the skew, has come. -/
def dueAt (now : Int64) (skew : Duration) (state : SubscriptionState) : Bool :=
  match state.expirationUnixMs with
  | some expiration => expiration.toInt - skew.asMillis ≤ now.toInt
  | none => false

theorem dueAt_of_isDue {now : Int64} {skew : Duration} {state : SubscriptionState}
    (h : isDue now (Int64.ofNat skew.asMillis) state = true) : dueAt now skew state = true := by
  obtain ⟨expiration, hexp, hle⟩ := (isDue_iff now skew state).mp h
  have hcut := cutSkew_le skew
  have htop := expiration.toInt_lt
  unfold dueAt
  rw [hexp]
  simp only [decide_eq_true_eq]
  omega

/-! ## What the loop tries -/

/-- The renewals the loop tries. -/
def tried (now skewMs : Int64) (readings : Nat → Int64) (states : List SubscriptionState) :
    List Attempt :=
  (states.filter (isDue now skewMs)).mapIdx fun i state => ⟨state, renewRequest (readings i) state⟩

variable {scheduler : Scheduler}

theorem leaves_attempts_renewOnce (provider : String) (request : SubscriptionRenewRequest) :
    Eff.Leaves World.attempts (scheduler.service.renewOnce provider request) := by
  unfold renewOnce
  apply Eff.Leaves.bind (Eff.Leaves.lift _ _)
  intro payload
  apply Eff.Leaves.bind (fun _ => rfl)
  intro outcome
  exact Eff.Leaves.bind (Eff.Leaves.lift _ _) fun _ => Eff.Leaves.pure _ _

theorem leaves_attempts_writeState (state : SubscriptionState) :
    Eff.Leaves World.attempts (scheduler.writeState state) := by
  unfold Scheduler.writeState
  apply Eff.Leaves.bind (Eff.Leaves.read _ _)
  intro disk
  exact Eff.Leaves.bind (Eff.Leaves.lift _ _) fun _ _ => rfl

/-- A renewal is one attempt, however it ends. -/
theorem attempts_renewBinding (now : Int64) (state : SubscriptionState) (w : World) :
    ((scheduler.renewBinding now state).run w).2.attempts
      = w.attempts ++ [⟨state, renewRequest now state⟩] := by
  have hrest : Eff.Leaves World.attempts (scheduler.service.renewOnce state.provider
      (renewRequest now state) >>= scheduler.writeState) :=
    Eff.Leaves.bind (leaves_attempts_renewOnce _ _) leaves_attempts_writeState
  rw [renewBinding, Eff.bind_run, Eff.modify_run]
  exact hrest _

/-- **The loop tries every state that passes the test**, whatever the renewals before it did. -/
theorem attempts_renewEach (now skewMs : Int64) (readings : Nat → Int64)
    (states : List SubscriptionState) (w : World) :
    ((scheduler.renewEach now skewMs readings states).run w).2.attempts
      = w.attempts ++ tried now skewMs readings states := by
  induction states generalizing readings w with
  | nil => exact (List.append_nil _).symm
  | cons state rest ih =>
    unfold renewEach
    cases hdue : isDue now skewMs state with
    | false =>
      rw [if_neg Bool.false_ne_true, ih]
      simp only [tried, List.filter_cons, hdue, Bool.false_eq_true, ↓reduceIte]
    | true =>
      rw [if_pos rfl, Eff.bind_run, Eff.attempt_run]
      show ((scheduler.renewEach now skewMs (fun i => readings (i + 1)) rest).run _).2.attempts = _
      rw [ih, attempts_renewBinding]
      simp only [tried, List.filter_cons, hdue, ↓reduceIte, List.mapIdx_cons, List.append_assoc,
        List.singleton_append]

/-- The state files of a scheduler's store, in the order they are listed. -/
def stateFiles (scheduler : Scheduler) (w : World) : List (Path × Contents SubscriptionState) :=
  under (resolve scheduler.store.base) w.disk

theorem attempts_renewDue_of_allReadable {w : World} (now : Int64) (readings : Nat → Int64)
    (skew : Duration) (h : AllReadable (stateFiles scheduler w)) :
    ((scheduler.renewDue now readings skew).run w).2.attempts
      = w.attempts ++ tried now (Int64.ofNat skew.asMillis) readings
          (readable (stateFiles scheduler w)) := by
  have hlist : scheduler.store.listStates w.disk = .ok (readable (stateFiles scheduler w)) :=
    collectStates_of_allReadable h
  unfold renewDue
  simp only [Eff.bind_run, Eff.read_run, Eff.lift_run, hlist]
  exact attempts_renewEach now _ readings _ w

/-- One state file that cannot be read and nothing is tried. -/
theorem attempts_renewDue_of_unreadable {w : World} (now : Int64) (readings : Nat → Int64)
    (skew : Duration) (h : ¬ AllReadable (stateFiles scheduler w)) :
    ((scheduler.renewDue now readings skew).run w).2.attempts = w.attempts := by
  unfold renewDue
  simp only [Eff.bind_run, Eff.read_run, Eff.lift_run]
  cases hlist : scheduler.store.listStates w.disk with
  | error e => rfl
  | ok states => exact absurd (allReadable_of_collectStates hlist) h

/-! ## Targets -/

/-- A target was computed without overflow and lies in the future. -/
def FutureTarget (now reading : Int64) (state : SubscriptionState) (target : Option UInt64) : Prop :=
  (targetBase reading state).toNat + defaultRenewExtensionMs.toNat < 2 ^ 64
    ∧ ∃ t, target = some t ∧ now.toInt < t.toNat

/-- One day after the expiration is in the future, or the expiration is not positive and one
day after the reading is. A reading before 1970 counts from the other end of the type. -/
def TargetAhead (now reading : Int64) (state : SubscriptionState) : Prop :=
  match state.expirationUnixMs.filter (fun ms => 0 < ms) with
  | some expiration => now.toInt < expiration.toInt + 86400000
  | none => if 0 ≤ reading.toInt then now.toInt < reading.toInt + 86400000
      else reading.toInt < -86400000

theorem futureTarget_iff (now reading : Int64) (state : SubscriptionState) :
    FutureTarget now reading state (some (nextExpirationTarget reading state))
      ↔ TargetAhead now reading state := by
  have hext : defaultRenewExtensionMs.toNat = 86400000 := rfl
  have hnow := now.toInt_lt
  unfold FutureTarget TargetAhead nextExpirationTarget
  simp only [Option.some.injEq, exists_eq_left', UInt64.toNat_add, hext]
  unfold targetBase
  cases hexp : state.expirationUnixMs.filter (fun ms => 0 < ms) with
  | some expiration =>
    have hpos : (0 : Int64) < expiration := by
      have := (Option.filter_eq_some_iff.mp hexp).2
      simpa using this
    have hpos : 0 < expiration.toInt := by
      rw [Int64.lt_iff_toInt_lt] at hpos
      simpa using hpos
    have hcast := toNat_toUInt64 expiration
    have htop := expiration.toInt_lt
    rw [if_pos (by omega)] at hcast
    simp only
    omega
  | none =>
    have hcast := toNat_toUInt64 reading
    have htop := reading.toInt_lt
    have hbot := reading.le_toInt
    simp only
    by_cases hreading : 0 ≤ reading.toInt
    · rw [if_pos hreading] at hcast ⊢
      omega
    · rw [if_neg hreading] at hcast ⊢
      constructor
      · intro h
        omega
      · intro h
        omega

/-! ## The exact condition -/

/-- The stored states whose expiration, less the skew, has come. -/
def dueStates (scheduler : Scheduler) (now : Int64) (skew : Duration) (w : World) :
    List SubscriptionState :=
  (readable (stateFiles scheduler w)).filter (dueAt now skew)

/-- What `renew_due` is for: it tries exactly the states that are due, and asks each time
for an expiration in the future. -/
structure RenewsDue (scheduler : Scheduler) (now : Int64) (readings : Nat → Int64)
    (skew : Duration) (before after : World) : Prop where
  tries : ∃ attempts, after.attempts = before.attempts ++ attempts
    ∧ attempts.map Attempt.state = dueStates scheduler now skew before
    ∧ ∀ i attempt, attempts[i]? = some attempt →
        FutureTarget now (readings i) attempt.state attempt.request.expirationTargetUnixMs

/-- The condition: no state is due, or every state file can be read and each due state is
still due by the cut skew and has a target ahead. -/
def RenewsDueWhen (scheduler : Scheduler) (now : Int64) (readings : Nat → Int64)
    (skew : Duration) (w : World) : Prop :=
  ∀ i state, (dueStates scheduler now skew w)[i]? = some state →
    AllReadable (stateFiles scheduler w)
      ∧ (∀ expiration, state.expirationUnixMs = some expiration →
          min (expiration.toInt - cutSkew skew) (2 ^ 63 - 1) ≤ now.toInt)
      ∧ TargetAhead now (readings i) state

theorem map_state_tried (now skewMs : Int64) (readings : Nat → Int64)
    (states : List SubscriptionState) :
    (tried now skewMs readings states).map Attempt.state = states.filter (isDue now skewMs) := by
  apply List.ext_getElem?
  intro i
  simp only [tried, List.getElem?_map, List.getElem?_mapIdx, Option.map_map]
  cases (states.filter (isDue now skewMs))[i]? <;> rfl

theorem renewsDueWhen_of_renewsDue {now : Int64} {readings : Nat → Int64} {skew : Duration}
    {w : World}
    (h : RenewsDue scheduler now readings skew w ((scheduler.renewDue now readings skew).run w).2) :
    RenewsDueWhen scheduler now readings skew w := by
  obtain ⟨attempts, hattempts, hstates, htargets⟩ := h.tries
  intro i state hstate
  by_cases hall : AllReadable (stateFiles scheduler w)
  · rw [attempts_renewDue_of_allReadable now readings skew hall, List.append_cancel_left_eq]
      at hattempts
    subst hattempts
    have htested := map_state_tried now (Int64.ofNat skew.asMillis) readings
      (readable (stateFiles scheduler w))
    rw [hstates] at htested
    have hmem : state ∈ (readable (stateFiles scheduler w)).filter
        (isDue now (Int64.ofNat skew.asMillis)) := htested ▸ List.mem_of_getElem? hstate
    refine ⟨hall, fun expiration hexp => ?_, ?_⟩
    · obtain ⟨expiration', hexp', hle⟩ := (isDue_iff now skew state).mp (List.mem_filter.mp hmem).2
      rw [hexp, Option.some.injEq] at hexp'
      exact hexp' ▸ hle
    · rw [htested] at hstate
      have htarget := htargets i ⟨state, renewRequest (readings i) state⟩ (by
        rw [tried, List.getElem?_mapIdx, hstate]
        rfl)
      exact (futureTarget_iff now (readings i) state).mp htarget
  · rw [attempts_renewDue_of_unreadable now readings skew hall] at hattempts
    have hnone : attempts = [] := List.self_eq_append_right.mp hattempts
    rw [hnone] at hstates
    rw [← hstates] at hstate
    cases hstate

theorem renewsDue_of_renewsDueWhen {now : Int64} {readings : Nat → Int64} {skew : Duration}
    {w : World} (h : RenewsDueWhen scheduler now readings skew w) :
    RenewsDue scheduler now readings skew w ((scheduler.renewDue now readings skew).run w).2 := by
  by_cases hall : AllReadable (stateFiles scheduler w)
  · -- The test of the code picks the states that are due.
    have hsame : (readable (stateFiles scheduler w)).filter (isDue now (Int64.ofNat skew.asMillis))
        = dueStates scheduler now skew w := by
      apply List.filter_congr
      intro state hmem
      rw [Bool.eq_iff_iff]
      refine ⟨dueAt_of_isDue, fun hdue => ?_⟩
      obtain ⟨i, hi⟩ := List.mem_iff_getElem?.mp (List.mem_filter.mpr ⟨hmem, hdue⟩)
      obtain ⟨-, hcut, -⟩ := h i state hi
      rw [isDue_iff]
      unfold dueAt at hdue
      cases hexp : state.expirationUnixMs with
      | none => simp [hexp] at hdue
      | some expiration => exact ⟨expiration, rfl, hcut expiration hexp⟩
    refine ⟨_, attempts_renewDue_of_allReadable now readings skew hall, ?_, ?_⟩
    · rw [map_state_tried, hsame]
    · intro i attempt hattempt
      rw [tried, List.getElem?_mapIdx, hsame] at hattempt
      obtain ⟨state, hstate, rfl⟩ := Option.map_eq_some_iff.mp hattempt
      exact (futureTarget_iff now (readings i) state).mpr (h i state hstate).2.2
  · refine ⟨[], ?_, ?_, fun i attempt hattempt => nomatch hattempt⟩
    · rw [attempts_renewDue_of_unreadable now readings skew hall, List.append_nil]
    · cases hdue : dueStates scheduler now skew w with
      | nil => rfl
      | cons state rest =>
        have hzero : (dueStates scheduler now skew w)[0]? = some state := by
          rw [hdue]
          rfl
        exact absurd (h 0 state hzero).1 hall

/-- **`renew_due` does what it is for exactly under the condition.** -/
theorem renewDue_iff (scheduler : Scheduler) (now : Int64) (readings : Nat → Int64)
    (skew : Duration) (w : World) :
    RenewsDue scheduler now readings skew w ((scheduler.renewDue now readings skew).run w).2
      ↔ RenewsDueWhen scheduler now readings skew w :=
  ⟨renewsDueWhen_of_renewsDue, renewsDue_of_renewsDueWhen⟩

/-- A state that expired two days ago is asked to be renewed until yesterday. -/
theorem renewDue_asks_for_the_past :
    ¬ ∀ (scheduler : Scheduler) (now : Int64) (readings : Nat → Int64) (skew : Duration) (w : World),
      RenewsDue scheduler now readings skew w ((scheduler.renewDue now readings skew).run w).2 := by
  intro h
  let w : World :=
    { emptyWorld with
      disk := ⟨[(["state", "subscriptions", "bind-1.json"], .value webhookState)], []⟩ }
  let skew : Duration := ⟨0, 0, by decide⟩
  have hwhen := renewsDueWhen_of_renewsDue (h demoScheduler 1700172800000 (fun _ => 1700172800000) skew w)
  have hdue : (dueStates demoScheduler 1700172800000 skew w)[0]? = some webhookState := by
    decide +kernel
  have hahead := (hwhen 0 webhookState hdue).2.2
  have hknown : webhookState.expirationUnixMs.filter (fun ms => 0 < ms) = some 1700000000000 := by
    decide
  rw [TargetAhead, hknown] at hahead
  exact absurd hahead (by decide +kernel)

end Subscriptions
