import GreenticOperator.Cli.PlanItem
import GreenticOperator.Laws.ProviderConfig.Drift
import Mathlib.Data.List.Perm.Subperm

/-!
# What a run of a plan accounts for

Every run starts a part of its plan, in every interleaving (`started_subperm`), and every run comes
to an end (`exists_result`). Whether it starts all of it, and whether an `Ok` speaks for all of
it, depends on the outcomes that are not errors (`accountsForAll_iff`): a flow that reports a
failure and an item left out count as done, and a panic takes a thread without a word.
-/

namespace Cli

universe u

variable {Item : Type u} {outcome : Item → ItemOutcome} {plan : List Item}

/-! ## Outcomes -/

/-- An item whose call neither fails nor panics. -/
def ItemOutcome.returnsOk : ItemOutcome → Bool
  | .returned (.ok _) => true
  | _ => false

theorem ItemOutcome.returnsOk_eq_false (ending : ItemOutcome) :
    ending.returnsOk = false ↔ ending.panics = true ∨ ending.error?.isSome = true := by
  match ending with
  | .panicked => simp [returnsOk, panics]
  | .returned (.ok _) => simp [returnsOk, panics, error?]
  | .returned (.error _) => simp [returnsOk, error?]

theorem ItemOutcome.not_panics_of_error {ending : ItemOutcome} (h : ending.error?.isSome = true) :
    ending.panics = false := by
  match ending, h with
  | .returned (.error _), _ => rfl

/-! ## One after another -/

theorem runSequential_append (outcome : Item → ItemOutcome) (bestEffort : Bool) (plan : List Item) :
    ∃ rest, (runSequential outcome bestEffort plan).started ++ rest = plan := by
  induction plan with
  | nil => exact ⟨[], rfl⟩
  | cons item plan ih =>
    obtain ⟨rest, hrest⟩ := ih
    unfold runSequential
    split
    next => exact ⟨plan, rfl⟩
    next =>
      split
      next => exact ⟨rest, congrArg (item :: ·) hrest⟩
      next => exact ⟨plan, rfl⟩
    next => exact ⟨rest, congrArg (item :: ·) hrest⟩

theorem runSequential_result (outcome : Item → ItemOutcome) (bestEffort : Bool) (plan : List Item) :
    (runSequential outcome bestEffort plan).result.isSome = true := by
  induction plan with
  | nil => rfl
  | cons item plan ih =>
    unfold runSequential
    split
    next => rfl
    next =>
      split
      next => exact ih
      next => rfl
    next => exact ih

/-- With `best_effort` only a panic before the last item keeps an item from its start. -/
theorem runSequential_best (outcome : Item → ItemOutcome) (plan : List Item) :
    (runSequential outcome true plan).started = plan
      ↔ ∀ item ∈ plan.dropLast, (outcome item).panics = false := by
  induction plan with
  | nil => simp [runSequential]
  | cons item plan ih =>
    have hgo : (outcome item).panics = false → (runSequential outcome true (item :: plan)).started
        = item :: (runSequential outcome true plan).started := by
      intro hpanics
      rw [runSequential]
      match outcome item, hpanics with
      | .returned (.ok _), _ => rfl
      | .returned (.error _), _ => rfl
    cases plan with
    | nil =>
      refine iff_of_true ?_ fun _ h => absurd h List.not_mem_nil
      unfold runSequential
      match outcome item with
      | .panicked => rfl
      | .returned (.ok _) => rfl
      | .returned (.error _) => rfl
    | cons second plan =>
      rw [List.dropLast_cons_of_ne_nil (List.cons_ne_nil _ _), List.forall_mem_cons, ← ih]
      cases hpanics : (outcome item).panics with
      | false => simp [hgo hpanics]
      | true =>
        have hstarted : (runSequential outcome true (item :: second :: plan)).started = [item] := by
          rw [runSequential]
          match outcome item, hpanics with
          | .panicked, _ => rfl
        simp [hstarted]

/-- Without `best_effort` an `Ok` says that no item failed or panicked. -/
theorem runSequential_ok (outcome : Item → ItemOutcome) (plan : List Item) :
    (runSequential outcome false plan).result = some .ok
      ↔ ∀ item ∈ plan, (outcome item).returnsOk = true := by
  induction plan with
  | nil => simp [runSequential]
  | cons item plan ih =>
    rw [List.forall_mem_cons, ← ih, runSequential]
    match outcome item with
    | .panicked => simp [ItemOutcome.returnsOk]
    | .returned (.error _) => simp [ItemOutcome.returnsOk]
    | .returned (.ok _) => simp [ItemOutcome.returnsOk, Report.after]

theorem runSequential_started (h : ∀ item ∈ plan, (outcome item).returnsOk = true) :
    (runSequential outcome false plan).started = plan := by
  induction plan with
  | nil => rfl
  | cons item plan ih =>
    obtain ⟨hitem, hplan⟩ := List.forall_mem_cons.mp h
    rw [runSequential]
    match outcome item, hitem with
    | .returned (.ok _), _ => exact congrArg (item :: ·) (ih hplan)

/-! ## In threads -/

section Threads

variable {parallel : Nat} {bestEffort : Bool} {schedule : List Nat}

theorem threads_accounts (outcome : Item → ItemOutcome) (parallel : Nat) (schedule : List Nat) (plan : List Item) :
    Pool.Accounts (fun item => (outcome item).panics) parallel plan.reverse (threads outcome parallel schedule plan) :=
  Pool.accounts_run parallel plan.reverse schedule

/-- What threads start before they are joined. -/
def reached (outcome : Item → ItemOutcome) (parallel : Nat) (plan : List Item) : List Item :=
  Pool.reach (fun item => (outcome item).panics) parallel plan.reverse

theorem exists_append_reached (outcome : Item → ItemOutcome) (parallel : Nat) (plan : List Item) :
    ∃ rest, reached outcome parallel plan ++ rest = plan.reverse := Pool.exists_append_reach parallel plan.reverse

theorem runParallel_subperm (outcome : Item → ItemOutcome) (parallel : Nat) (bestEffort : Bool)
    (schedule : List Nat) (plan : List Item) :
    (runParallel outcome parallel bestEffort schedule plan).started.Subperm plan := by
  obtain ⟨rest, hrest⟩ := exists_append_reached outcome parallel plan
  rw [reached, (threads_accounts outcome parallel schedule plan).reach, List.append_assoc] at hrest
  refine List.Subperm.trans ?_ (List.reverse_perm plan).subperm
  rw [← hrest]
  exact (List.sublist_append_left _ _).subperm

theorem runParallel_result :
    (runParallel outcome parallel bestEffort schedule plan).result.isSome = true
      ↔ (threads outcome parallel schedule plan).over = true := by
  show (if (threads outcome parallel schedule plan).over then some _ else none).isSome = true ↔ _
  cases (threads outcome parallel schedule plan).over <;> simp

/-- Threads start everything where they outnumber the panics of the items that are not started last. -/
theorem runParallel_perm_iff (h1 : 1 < parallel)
    (hend : (runParallel outcome parallel bestEffort schedule plan).result.isSome = true) :
    (runParallel outcome parallel bestEffort schedule plan).started.Perm plan
      ↔ (plan.tail.countP fun item => (outcome item).panics) < parallel := by
  have hstarted := (threads_accounts outcome parallel schedule plan).started_of_over (runParallel_result.mp hend)
  obtain ⟨rest, hrest⟩ := exists_append_reached outcome parallel plan
  have hall : (reached outcome parallel plan).Perm plan ↔ reached outcome parallel plan = plan.reverse := by
    constructor
    · intro hperm
      refine List.IsPrefix.eq_of_length ⟨rest, hrest⟩ ?_
      rw [hperm.length_eq, List.length_reverse]
    · intro heq
      rw [heq]
      exact List.reverse_perm plan
  show (threads outcome parallel schedule plan).started.Perm plan ↔ _
  rw [hstarted]
  refine hall.trans ?_
  rw [reached, Pool.reach_eq_self_iff, List.dropLast_reverse, List.countP_reverse, List.reverse_eq_nil_iff]
  refine or_iff_right_of_imp ?_
  rintro rfl
  exact h1.pos

/-- The threads gather no error where none of the items they start fails. -/
theorem runParallel_errors (hend : (runParallel outcome parallel bestEffort schedule plan).result.isSome = true) :
    (runParallel outcome parallel bestEffort schedule plan).errors = []
      ↔ ∀ item ∈ (runParallel outcome parallel bestEffort schedule plan).started, (outcome item).error? = none := by
  have hover := runParallel_result.mp hend
  have haccounts := threads_accounts outcome parallel schedule plan
  have hcount := haccounts.countP_ended_of_over hover fun item => (outcome item).error?.isSome
  rw [← haccounts.started_of_over hover] at hcount
  show (threads outcome parallel schedule plan).ended.filterMap _ = [] ↔ _
  rw [List.filterMap_eq_nil_iff]
  have hnone : (∀ item ∈ (threads outcome parallel schedule plan).ended, (outcome item).error? = none)
      ↔ (threads outcome parallel schedule plan).ended.countP (fun item => (outcome item).error?.isSome) = 0 := by
    simp [List.countP_eq_zero]
  rw [hnone, hcount, List.countP_eq_zero]
  refine forall₂_congr fun item _ => ?_
  rw [Bool.and_eq_true, not_and, ← Option.not_isSome_iff_eq_none]
  constructor
  · intro h hsome
    exact h hsome (by simp [ItemOutcome.not_panics_of_error hsome])
  · intro h hsome
    exact absurd hsome h

theorem runParallel_ok (hend : (runParallel outcome parallel false schedule plan).result.isSome = true) :
    (runParallel outcome parallel false schedule plan).result = some .ok
      ↔ (runParallel outcome parallel false schedule plan).errors = [] := by
  have hover := runParallel_result.mp hend
  unfold runParallel joined
  simp only [hover, if_true, Option.some.injEq]
  cases (threads outcome parallel schedule plan).ended.filterMap fun item => (outcome item).error? <;> simp

end Threads

/-! ## What is accounted for -/

/-- **Every planned item runs once, and failures are reported**: an item is started at most once;
every item is started in threads, and with `best_effort`; and without it an `Ok` says that every
item was started and its flow succeeded. -/
structure AccountsForAll (outcome : Item → ItemOutcome) (parallel : Nat) (bestEffort : Bool) (plan : List Item) :
    Prop where
  once : ∀ schedule, (runPlan outcome parallel bestEffort schedule plan).started.Subperm plan
  every : 1 < parallel ∨ bestEffort = true → ∀ schedule,
    (runPlan outcome parallel bestEffort schedule plan).result.isSome = true →
    (runPlan outcome parallel bestEffort schedule plan).started.Perm plan
  reported : bestEffort = false → ∀ schedule,
    (runPlan outcome parallel bestEffort schedule plan).result = some .ok →
    (runPlan outcome parallel bestEffort schedule plan).started.Perm plan
      ∧ ∀ item ∈ plan, (outcome item).flowSucceeded = true

/-- Every flow succeeds, or something happens that the run answers with an error. -/
def Answered (outcome : Item → ItemOutcome) (answers : ItemOutcome → Bool) (plan : List Item) : Prop :=
  (∀ item ∈ plan, (outcome item).flowSucceeded = true) ∨ ∃ item ∈ plan, answers (outcome item) = true

/-- What a run comes across of panics and of failures that are not errors: in sequence a panic ends
the run, and in threads a panic takes one of them. -/
def NothingLost (outcome : Item → ItemOutcome) (parallel : Nat) (bestEffort : Bool) (plan : List Item) : Prop :=
  if parallel ≤ 1 then
    if bestEffort then ∀ item ∈ plan.dropLast, (outcome item).panics = false
    else Answered outcome (fun ending => ending.panics || ending.error?.isSome) plan
  else
    (plan.tail.countP fun item => (outcome item).panics) < parallel
      ∧ (bestEffort = true ∨ Answered outcome (fun ending => ending.error?.isSome) plan)

theorem started_subperm (outcome : Item → ItemOutcome) (parallel : Nat) (bestEffort : Bool)
    (schedule : List Nat) (plan : List Item) :
    (runPlan outcome parallel bestEffort schedule plan).started.Subperm plan := by
  unfold runPlan
  split
  next =>
    obtain ⟨rest, hrest⟩ := runSequential_append outcome bestEffort plan
    exact (List.IsPrefix.sublist ⟨rest, hrest⟩).subperm
  next => exact runParallel_subperm outcome parallel bestEffort schedule plan

/-- **Every run comes to an end**, however its threads were interleaved so far. -/
theorem exists_result (outcome : Item → ItemOutcome) (parallel : Nat) (bestEffort : Bool)
    (schedule : List Nat) (plan : List Item) :
    ∃ more, (runPlan outcome parallel bestEffort (schedule ++ more) plan).result.isSome = true := by
  unfold runPlan
  split
  next => exact ⟨[], runSequential_result outcome bestEffort plan⟩
  next =>
    obtain ⟨more, hover⟩ := Pool.exists_over (fun item => (outcome item).panics)
      (threads outcome parallel schedule plan)
    refine ⟨more, runParallel_result.mpr ?_⟩
    unfold threads Run.run at hover ⊢
    rw [List.foldl_append]
    exact hover

/-- Without `best_effort`, where an `Ok` comes exactly of no answered item, it speaks for all of them
exactly where no other item is left to speak for. -/
theorem answered_iff {answers : ItemOutcome → Bool} {ok : Prop}
    (hok : ok ↔ ∀ item ∈ plan, answers (outcome item) = false) :
    (ok → ∀ item ∈ plan, (outcome item).flowSucceeded = true) ↔ Answered outcome answers plan := by
  unfold Answered
  constructor
  · intro h
    by_cases hsome : ∃ item ∈ plan, answers (outcome item) = true
    · exact .inr hsome
    · refine .inl (h (hok.mpr fun item hmem => ?_))
      exact Bool.eq_false_iff.mpr fun htrue => hsome ⟨item, hmem, htrue⟩
  · rintro (hall | ⟨item, hmem, htrue⟩) h
    · exact hall
    · rw [hok.mp h item hmem] at htrue
      cases htrue

theorem accountsForAll_sequential (outcome : Item → ItemOutcome) {parallel : Nat} (h : parallel ≤ 1)
    (bestEffort : Bool) (plan : List Item) :
    AccountsForAll outcome parallel bestEffort plan ↔ NothingLost outcome parallel bestEffort plan := by
  have hrun (schedule : List Nat) : runPlan outcome parallel bestEffort schedule plan
      = runSequential outcome bestEffort plan := by
    rw [runPlan, if_pos h]
  have hnotmany : ¬ 1 < parallel := Nat.not_lt.mpr h
  unfold NothingLost
  rw [if_pos h]
  cases bestEffort with
  | true =>
    rw [if_pos rfl, ← runSequential_best]
    constructor
    · intro hall
      have hperm := hall.every (.inr rfl) [] (hrun [] ▸ runSequential_result outcome true plan)
      rw [hrun] at hperm
      obtain ⟨rest, hrest⟩ := runSequential_append outcome true plan
      exact (List.IsPrefix.eq_of_length ⟨rest, hrest⟩ hperm.length_eq)
    · intro hstarted
      refine ⟨fun schedule => started_subperm outcome parallel true schedule plan, fun _ schedule _ => ?_, fun hfalse => absurd hfalse (by simp)⟩
      rw [hrun, hstarted]
  | false =>
    rw [if_neg Bool.false_ne_true]
    have hok : (runSequential outcome false plan).result = some .ok
        ↔ ∀ item ∈ plan, ((outcome item).panics || (outcome item).error?.isSome) = false := by
      rw [runSequential_ok]
      refine forall₂_congr fun item _ => ?_
      rw [← Bool.not_eq_false, ItemOutcome.returnsOk_eq_false]
      simp [not_or]
    rw [← answered_iff hok]
    constructor
    · intro hall hresult
      exact (hall.reported rfl [] (hrun [] ▸ hresult)).2
    · intro hall
      refine ⟨fun schedule => started_subperm outcome parallel false schedule plan, fun hmany => ?_, fun _ schedule hresult => ?_⟩
      · exact absurd hmany (by simp [hnotmany])
      · rw [hrun] at hresult ⊢
        rw [runSequential_started ((runSequential_ok outcome plan).mp hresult)]
        exact ⟨.refl plan, hall hresult⟩

theorem accountsForAll_parallel (outcome : Item → ItemOutcome) {parallel : Nat} (h : ¬ parallel ≤ 1)
    (bestEffort : Bool) (plan : List Item) :
    AccountsForAll outcome parallel bestEffort plan ↔ NothingLost outcome parallel bestEffort plan := by
  have hrun (schedule : List Nat) : runPlan outcome parallel bestEffort schedule plan
      = runParallel outcome parallel bestEffort schedule plan := by
    rw [runPlan, if_neg h]
  have hmany : 1 < parallel := Nat.not_le.mp h
  obtain ⟨schedule, hend⟩ := exists_result outcome parallel bestEffort [] plan
  rw [List.nil_append, hrun] at hend
  unfold NothingLost
  rw [if_neg h]
  have hok {schedule : List Nat} (hall : (plan.tail.countP fun item => (outcome item).panics) < parallel)
      (hend : (runParallel outcome parallel false schedule plan).result.isSome = true) :
      (runParallel outcome parallel false schedule plan).result = some .ok
        ↔ ∀ item ∈ plan, (outcome item).error?.isSome = false := by
    rw [runParallel_ok hend, runParallel_errors hend]
    have hperm := (runParallel_perm_iff hmany hend).mpr hall
    simp only [Option.isSome_eq_false_iff, Option.isNone_iff_eq_none]
    exact forall_congr' fun item => imp_congr_left hperm.mem_iff
  constructor
  · intro hall
    have hcount := (runParallel_perm_iff hmany hend).mp
      (hrun schedule ▸ hall.every (.inl hmany) schedule (hrun schedule ▸ hend))
    refine ⟨hcount, ?_⟩
    cases bestEffort with
    | true => exact .inl rfl
    | false =>
      refine .inr ((answered_iff (hok hcount hend)).mp fun hresult => ?_)
      exact (hall.reported rfl schedule (hrun schedule ▸ hresult)).2
  · rintro ⟨hcount, hanswered⟩
    refine ⟨fun schedule => started_subperm outcome parallel bestEffort schedule plan, fun _ schedule hend => ?_, ?_⟩
    · rw [hrun] at hend ⊢
      exact (runParallel_perm_iff hmany hend).mpr hcount
    · rintro rfl schedule hresult
      rw [hrun] at hresult ⊢
      have hend : (runParallel outcome parallel false schedule plan).result.isSome = true := by rw [hresult]; rfl
      refine ⟨(runParallel_perm_iff hmany hend).mpr hcount, ?_⟩
      exact (answered_iff (hok hcount hend)).mpr (hanswered.resolve_left Bool.false_ne_true) hresult

/-- **A run accounts for all of its plan** exactly where nothing is lost: in sequence and with
`best_effort`, no item but the last panics; in sequence without it, every flow succeeds, or some
item fails or panics; in threads, they outnumber the panics of the items that are not started last,
and without `best_effort` every flow succeeds, or some item fails. -/
theorem accountsForAll_iff (outcome : Item → ItemOutcome) (parallel : Nat) (bestEffort : Bool) (plan : List Item) :
    AccountsForAll outcome parallel bestEffort plan ↔ NothingLost outcome parallel bestEffort plan := by
  by_cases h : parallel ≤ 1
  · exact accountsForAll_sequential outcome h bestEffort plan
  · exact accountsForAll_parallel outcome h bestEffort plan

/-! ## A flow that reports a failure -/

/-- A setup whose component knows nothing of setups, and whose flow exits with a failure. -/
def failingSetup : ItemInput where
  action := .Setup
  providerId := "messaging-telegram"
  flowId := "setup_default"
  pack := ⟨"pack", none⟩
  missingSecrets := none
  setupAnswers := .ok (.object [], none)
  calls := ⟨.ok false, fun _ => .ok (.object [])⟩
  successRecord := .ok ()
  written := .ok ()
  launch := ⟨.ok (), .ok ⟨false, none⟩, .ok (), .ok ()⟩

/-- Its run returns `Ok`. -/
theorem failed_flow_reported_done :
    ¬ AccountsForAll (planItemOutcome ProviderConfig.plainDigest ProviderConfig.envelopePath false
      ProviderConfig.emptyRoot) 1 false [failingSetup] := by
  intro h
  have hflow := (h.reported rfl [] rfl).2 failingSetup List.mem_cons_self
  cases hflow

end Cli
