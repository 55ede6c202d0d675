import GreenticOperator.Lib.Run
import Mathlib.Data.List.Count
import Mathlib.Order.WellFounded
import Mathlib.Algebra.Order.Ring.Int

/-!
# Pool — workers that take tasks from one queue

A pool has a number of workers and one queue. A worker takes the next task, ends it and comes
back for another, until the queue is empty; a task may be fatal to its worker. An interleaving is
the list of workers that move, one after another (`Run.run`).

What a pool starts does not depend on the interleaving: every pool that is over has started the
tasks up to the one that took its last worker (`started_of_over`), and has ended those that are
not fatal (`countP_ended_of_over`). Some interleaving brings every pool to an end (`exists_over`).
-/

namespace Pool

universe u

variable {T : Type u}

inductive Worker (T : Type u)
  | idle
  | busy (task : T)
  | lost
  | stopped
deriving DecidableEq, Repr

/-- The tasks still queued, those started, those ended by a worker that survived them, and the
workers. -/
structure State (T : Type u) where
  queue : List T
  started : List T
  ended : List T
  workers : List (Worker T)
deriving Repr

def start (n : Nat) (queue : List T) : State T := ⟨queue, [], [], List.replicate n .idle⟩

/-- The next move of one worker. -/
def move (fatal : T → Bool) (i : Nat) (s : State T) : State T :=
  match s.workers[i]? with
  | some .idle =>
    match s.queue with
    | [] => { s with workers := s.workers.set i .stopped }
    | task :: rest =>
      { s with queue := rest, started := s.started ++ [task], workers := s.workers.set i (.busy task) }
  | some (.busy task) =>
    if fatal task then { s with workers := s.workers.set i .lost }
    else { s with ended := s.ended ++ [task], workers := s.workers.set i .idle }
  | _ => s

def Worker.gone : Worker T → Bool
  | .lost | .stopped => true
  | _ => false

/-- No worker moves any more. -/
def State.over (s : State T) : Bool := s.workers.all Worker.gone

/-- What `n` workers start of a queue: everything up to the task that is fatal to the last one. -/
def reach (fatal : T → Bool) : Nat → List T → List T
  | 0, _ => []
  | _ + 1, [] => []
  | n + 1, task :: rest => task :: reach fatal (if fatal task then n else n + 1) rest

variable {fatal : T → Bool}

/-! ## What is reached -/

@[simp] theorem reach_zero (queue : List T) : reach fatal 0 queue = [] := by rw [reach]

@[simp] theorem reach_nil (n : Nat) : reach fatal n [] = [] := by cases n <;> rw [reach]

/-- A beginning of the queue is reached, and the rest with what workers it leaves. -/
theorem exists_append_reach (n : Nat) (queue : List T) : ∃ rest, reach fatal n queue ++ rest = queue := by
  induction queue generalizing n with
  | nil => exact ⟨[], by rw [reach_nil, List.append_nil]⟩
  | cons task queue ih =>
    cases n with
    | zero => exact ⟨task :: queue, by rw [reach_zero, List.nil_append]⟩
    | succ n =>
      obtain ⟨rest, hrest⟩ := ih (if fatal task then n else n + 1)
      exact ⟨rest, by rw [reach, List.cons_append, hrest]⟩

/-- Everything is reached where the workers outnumber the fatal tasks before the last task. -/
theorem reach_eq_self_iff (n : Nat) (queue : List T) :
    reach fatal n queue = queue ↔ queue = [] ∨ queue.dropLast.countP fatal < n := by
  induction queue generalizing n with
  | nil => simp
  | cons task queue ih =>
    cases n with
    | zero => simp
    | succ n =>
      rw [reach, List.cons.injEq, ih]
      cases queue with
      | nil => simp
      | cons second queue =>
        rw [List.dropLast_cons_of_ne_nil (List.cons_ne_nil _ _), List.countP_cons]
        cases fatal task <;> simp

/-! ## What one move does -/

/-- A worker that its task will take, or has taken, away. -/
def Worker.doomed (fatal : T → Bool) : Worker T → Bool
  | .busy task => fatal task
  | .lost => true
  | _ => false

/-- A worker busy with a task of a kind that is not fatal. -/
def Worker.holds (fatal p : T → Bool) : Worker T → Bool
  | .busy task => p task && !fatal task
  | _ => false

/-- **The books of a pool**: every task is queued or started, every fatal task started has its
worker, every other one is ended or held, and a worker only stops at an empty queue. -/
structure Accounts (fatal : T → Bool) (n : Nat) (queue : List T) (s : State T) : Prop where
  length : s.workers.length = n
  reach : reach fatal n queue = s.started ++ reach fatal (n - s.started.countP fatal) s.queue
  doomed : s.started.countP fatal = s.workers.countP (Worker.doomed fatal)
  ended : ∀ p : T → Bool, (s.started.countP fun task => p task && !fatal task)
    = s.ended.countP p + s.workers.countP (Worker.holds fatal p)
  survived : ∀ task ∈ s.ended, fatal task = false
  stopped : .stopped ∈ s.workers → s.queue = []

theorem accounts_start (n : Nat) (queue : List T) : Accounts fatal n queue (start n queue) where
  length := List.length_replicate
  reach := by simp [start]
  doomed := by simp [start, List.countP_replicate, Worker.doomed]
  ended p := by simp [start, List.countP_replicate, Worker.holds]
  survived := fun _ h => absurd h List.not_mem_nil
  stopped h := by simp [start] at h

/-- What replacing one worker does to a count of workers. -/
theorem countP_set_add {workers : List (Worker T)} {i : Nat} {worker : Worker T}
    (h : workers[i]? = some worker) (p : Worker T → Bool) (next : Worker T) :
    (workers.set i next).countP p + (if p worker then 1 else 0)
      = workers.countP p + (if p next then 1 else 0) := by
  obtain ⟨hi, hget⟩ := List.getElem?_eq_some_iff.mp h
  have hle : (if p worker then 1 else 0) ≤ workers.countP p := by
    split
    next hp => exact List.countP_pos_iff.mpr ⟨worker, hget ▸ List.getElem_mem hi, hp⟩
    next => exact Nat.zero_le _
  rw [List.countP_set hi, hget]
  omega

/-- A worker that is not doomed leaves fewer doomed ones than workers. -/
theorem doomed_lt {workers : List (Worker T)} {i : Nat} {worker : Worker T}
    (h : workers[i]? = some worker) (hp : worker.doomed fatal = false) :
    workers.countP (Worker.doomed fatal) < workers.length := by
  refine lt_of_le_of_ne List.countP_le_length fun heq => ?_
  rw [List.countP_eq_length] at heq
  obtain ⟨hi, rfl⟩ := List.getElem?_eq_some_iff.mp h
  rw [heq _ (List.getElem_mem hi)] at hp
  cases hp

theorem stopped_mem_set {workers : List (Worker T)} {i : Nat} {next : Worker T} (hnext : next ≠ .stopped)
    (h : .stopped ∈ workers.set i next) : .stopped ∈ workers :=
  (List.mem_or_eq_of_mem_set h).resolve_right (Ne.symm hnext)

variable {n : Nat} {queue : List T} {s : State T} {i : Nat}

theorem accounts_take {task : T} {rest : List T} (h : Accounts fatal n queue s)
    (hworker : s.workers[i]? = some .idle) (hqueue : s.queue = task :: rest) :
    Accounts fatal n queue { s with
      queue := rest, started := s.started ++ [task], workers := s.workers.set i (.busy task) } where
  length := by rw [List.length_set, h.length]
  reach := by
    have hlt : s.workers.countP (Worker.doomed fatal) < s.workers.length := doomed_lt hworker rfl
    rw [← h.doomed, h.length] at hlt
    obtain ⟨left, hleft⟩ : ∃ left, n - s.started.countP fatal = left + 1 := ⟨_, (Nat.succ_pred_eq_of_pos
      (Nat.sub_pos_of_lt hlt)).symm⟩
    rw [h.reach, hqueue, hleft, Pool.reach, List.countP_append, List.countP_singleton, List.append_assoc,
      List.singleton_append]
    congr 3
    cases fatal task with
    | false =>
      simp only [Bool.false_eq_true, ↓reduceIte]
      omega
    | true =>
      simp only [↓reduceIte]
      omega
  doomed := by
    have hset := countP_set_add hworker (Worker.doomed fatal) (.busy task)
    simp only [Worker.doomed, Bool.false_eq_true, ↓reduceIte, Nat.add_zero] at hset
    rw [List.countP_append, List.countP_singleton, h.doomed]
    exact hset.symm
  ended p := by
    have hset := countP_set_add hworker (Worker.holds fatal p) (.busy task)
    simp only [Worker.holds, Bool.false_eq_true, ↓reduceIte, Nat.add_zero] at hset
    rw [List.countP_append, List.countP_singleton, h.ended p, Nat.add_assoc]
    exact congrArg _ hset.symm
  survived := h.survived
  stopped hmem := by
    have := h.stopped (stopped_mem_set (by simp) hmem)
    rw [hqueue] at this
    cases this

theorem accounts_stop (h : Accounts fatal n queue s) (hworker : s.workers[i]? = some .idle)
    (hqueue : s.queue = []) : Accounts fatal n queue { s with workers := s.workers.set i .stopped } where
  length := by rw [List.length_set, h.length]
  reach := h.reach
  doomed := by
    have hset := countP_set_add hworker (Worker.doomed fatal) .stopped
    simp only [Worker.doomed, Bool.false_eq_true, ↓reduceIte, Nat.add_zero] at hset
    rw [h.doomed, hset]
  ended p := by
    have hset := countP_set_add hworker (Worker.holds fatal p) .stopped
    simp only [Worker.holds, Bool.false_eq_true, ↓reduceIte, Nat.add_zero] at hset
    rw [h.ended p, hset]
  survived := h.survived
  stopped _ := hqueue

theorem accounts_lose {task : T} (h : Accounts fatal n queue s) (hworker : s.workers[i]? = some (.busy task))
    (hfatal : fatal task = true) : Accounts fatal n queue { s with workers := s.workers.set i .lost } where
  length := by rw [List.length_set, h.length]
  reach := h.reach
  doomed := by
    have hset := countP_set_add hworker (Worker.doomed fatal) .lost
    simp only [Worker.doomed, hfatal, ↓reduceIte, Nat.add_right_cancel_iff] at hset
    rw [h.doomed, hset]
  ended p := by
    have hset := countP_set_add hworker (Worker.holds fatal p) .lost
    simp only [Worker.holds, hfatal, Bool.not_true, Bool.and_false, Bool.false_eq_true, ↓reduceIte,
      Nat.add_zero] at hset
    rw [h.ended p, hset]
  survived := h.survived
  stopped hmem := h.stopped (stopped_mem_set (by simp) hmem)

theorem accounts_finish {task : T} (h : Accounts fatal n queue s)
    (hworker : s.workers[i]? = some (.busy task)) (hfatal : fatal task = false) :
    Accounts fatal n queue { s with ended := s.ended ++ [task], workers := s.workers.set i .idle } where
  length := by rw [List.length_set, h.length]
  reach := h.reach
  doomed := by
    have hset := countP_set_add hworker (Worker.doomed fatal) .idle
    simp only [Worker.doomed, hfatal, Bool.false_eq_true, ↓reduceIte, Nat.add_zero] at hset
    rw [h.doomed, hset]
  ended p := by
    have hset := countP_set_add hworker (Worker.holds fatal p) .idle
    simp only [Worker.holds, hfatal, Bool.not_false, Bool.and_true, Bool.false_eq_true, ↓reduceIte,
      Nat.add_zero] at hset
    show _ = (s.ended ++ [task]).countP p + (s.workers.set i .idle).countP _
    rw [h.ended p, List.countP_append, List.countP_singleton, ← hset]
    omega
  survived := by
    intro other hmem
    rcases List.mem_append.mp hmem with hmem | hmem
    · exact h.survived other hmem
    · rw [List.mem_singleton.mp hmem, hfatal]
  stopped hmem := h.stopped (stopped_mem_set (by simp) hmem)

/-- **One move keeps the books.** -/
theorem accounts_move (h : Accounts fatal n queue s) (i : Nat) : Accounts fatal n queue (move fatal i s) := by
  unfold move
  split
  next hworker =>
    split
    next hqueue => exact accounts_stop h hworker hqueue
    next hqueue => exact accounts_take h hworker hqueue
  next hworker =>
    split
    next hfatal => exact accounts_lose h hworker hfatal
    next hfatal => exact accounts_finish h hworker (Bool.eq_false_iff.mpr hfatal)
  next => exact h

theorem accounts_run (n : Nat) (queue : List T) (schedule : List Nat) :
    Accounts fatal n queue (Run.run (move fatal) schedule (start n queue)) :=
  (Run.invariant_run (accounts_start n queue) (fun _ i (_ : True) h => accounts_move h i) fun _ _ => trivial).1

/-! ## Pools that are over -/

theorem gone_of_over (hover : s.over = true) {worker : Worker T} (h : worker ∈ s.workers) :
    worker = .lost ∨ worker = .stopped := by
  have := List.all_eq_true.mp hover worker h
  cases worker <;> simp_all [Worker.gone]

/-- **What a pool starts**, in every interleaving. -/
theorem Accounts.started_of_over (h : Accounts fatal n queue s) (hover : s.over = true) :
    s.started = Pool.reach fatal n queue := by
  have hrest : Pool.reach fatal (n - s.started.countP fatal) s.queue = [] := by
    by_cases hstopped : .stopped ∈ s.workers
    · rw [h.stopped hstopped, reach_nil]
    · have hall : s.workers.countP (Worker.doomed fatal) = s.workers.length := by
        refine List.countP_eq_length.mpr fun worker hmem => ?_
        rcases gone_of_over hover hmem with rfl | rfl
        · rfl
        · exact absurd hmem hstopped
      rw [h.doomed, hall, h.length, Nat.sub_self, reach_zero]
  rw [h.reach, hrest, List.append_nil]

/-- **What a pool ends**: of the tasks it started those that are not fatal. -/
theorem Accounts.countP_ended_of_over (h : Accounts fatal n queue s) (hover : s.over = true) (p : T → Bool) :
    s.ended.countP p = (Pool.reach fatal n queue).countP fun task => p task && !fatal task := by
  have hnone : s.workers.countP (Worker.holds fatal p) = 0 := by
    refine List.countP_eq_zero.mpr fun worker hmem => ?_
    rcases gone_of_over hover hmem with rfl | rfl <;> simp [Worker.holds]
  rw [← h.started_of_over hover, h.ended p, hnone, Nat.add_zero]

/-! ## Coming to an end -/

/-- What a worker has left to do before it comes back to the queue. -/
def Worker.weight : Worker T → Nat
  | .idle => 1
  | .busy _ => 2
  | _ => 0

def State.weight (s : State T) : Nat := 3 * s.queue.length + (s.workers.map Worker.weight).sum

theorem sum_set_add {workers : List (Worker T)} {i : Nat} {worker : Worker T} (h : workers[i]? = some worker)
    (next : Worker T) : ((workers.set i next).map Worker.weight).sum + worker.weight
      = (workers.map Worker.weight).sum + next.weight := by
  induction workers generalizing i with
  | nil => cases h
  | cons first workers ih =>
    cases i with
    | zero =>
      rw [List.getElem?_cons_zero, Option.some.injEq] at h
      subst h
      simp only [List.set_cons_zero, List.map_cons, List.sum_cons]
      omega
    | succ i =>
      have := ih h
      simp only [List.set_cons_succ, List.map_cons, List.sum_cons]
      omega

/-- A pool that is not over has a worker whose move brings it nearer to its end. -/
theorem exists_weight_lt (hover : s.over = false) : ∃ i, (move fatal i s).weight < s.weight := by
  obtain ⟨worker, hmem, hgone⟩ : ∃ worker ∈ s.workers, worker.gone = false := by
    simpa [State.over] using hover
  obtain ⟨i, hi, hget⟩ := List.getElem_of_mem hmem
  have hworker : s.workers[i]? = some worker := by rw [List.getElem?_eq_getElem hi, hget]
  refine ⟨i, ?_⟩
  unfold move State.weight
  cases worker with
  | idle =>
    rw [hworker]
    cases hqueue : s.queue with
    | nil =>
      have := sum_set_add hworker .stopped
      simp only [Worker.weight] at this ⊢
      omega
    | cons task rest =>
      have := sum_set_add hworker (.busy task)
      simp only [Worker.weight, List.length_cons] at this ⊢
      omega
  | busy task =>
    rw [hworker]
    cases hfatal : fatal task with
    | false =>
      have := sum_set_add hworker .idle
      simp only [Worker.weight, hfatal, Bool.false_eq_true, ↓reduceIte] at this ⊢
      omega
    | true =>
      have := sum_set_add hworker .lost
      simp only [Worker.weight, hfatal, ↓reduceIte] at this ⊢
      omega
  | lost => cases hgone
  | stopped => cases hgone

/-- **Every pool comes to an end** in some interleaving. -/
theorem exists_over (fatal : T → Bool) (s : State T) :
    ∃ schedule, (Run.run (move fatal) schedule s).over = true := by
  induction hweight : s.weight using Nat.strong_induction_on generalizing s with
  | _ weight ih =>
    cases hover : s.over with
    | true => exact ⟨[], hover⟩
    | false =>
      obtain ⟨i, hlt⟩ : ∃ i, (move fatal i s).weight < s.weight := exists_weight_lt hover
      obtain ⟨schedule, hend⟩ := ih _ (hweight ▸ hlt) (move fatal i s) rfl
      exact ⟨i :: schedule, hend⟩

end Pool
