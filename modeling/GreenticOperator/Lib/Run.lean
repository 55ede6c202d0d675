/-!
# Run — what a sequence of operations passes through

`steps` lists, for every operation of a run, the state before it and the operation. A
property of every step of a run follows from a property of one step and an invariant
(`invariant_run`).
-/

namespace Run

universe u v

variable {S : Type u} {O : Type v}

/-- The state after a sequence of operations. -/
def run (exec : O → S → S) (ops : List O) (s : S) : S := ops.foldl (fun s op => exec op s) s

/-- The operations of a run, each with the state it starts in. -/
def steps (exec : O → S → S) : List O → S → List (S × O)
  | [], _ => []
  | op :: ops, s => (s, op) :: steps exec ops (exec op s)

/-- **An invariant of a run**: what holds at the start, and is kept by every operation that
meets a condition, holds wherever a run passes whose operations all meet it. -/
theorem invariant_run {exec : O → S → S} {Inv : S → Prop} {Ok : S → O → Prop} {ops : List O} {s : S}
    (hinit : Inv s) (hstep : ∀ s op, Ok s op → Inv s → Inv (exec op s))
    (hok : ∀ step ∈ steps exec ops s, Ok step.1 step.2) :
    Inv (run exec ops s) ∧ ∀ step ∈ steps exec ops s, Inv step.1 := by
  induction ops generalizing s with
  | nil => exact ⟨hinit, fun _ h => absurd h List.not_mem_nil⟩
  | cons op ops ih =>
    obtain ⟨hend, hsteps⟩ := ih (hstep s op (hok (s, op) List.mem_cons_self) hinit)
      fun step hmem => hok step (List.mem_cons_of_mem _ hmem)
    refine ⟨hend, fun step hmem => ?_⟩
    rcases List.mem_cons.mp hmem with rfl | hmem
    · exact hinit
    · exact hsteps step hmem

theorem mem_of_mem_steps {exec : O → S → S} {ops : List O} {s : S} {step : S × O}
    (h : step ∈ steps exec ops s) : step.2 ∈ ops := by
  induction ops generalizing s with
  | nil => cases h
  | cons op ops ih =>
    rcases List.mem_cons.mp h with rfl | h
    · exact List.mem_cons_self
    · exact List.mem_cons_of_mem op (ih h)

/-- What is executed after a first part of a run starts where that part ends. -/
theorem mem_steps_append (exec : O → S → S) (first rest : List O) (op : O) (s : S) :
    (run exec first s, op) ∈ steps exec (first ++ op :: rest) s := by
  induction first generalizing s with
  | nil => exact List.mem_cons_self
  | cons _ first ih => exact List.mem_cons_of_mem _ (ih _)

end Run
