import GreenticOperator.Lib.Run
import Mathlib.Data.List.Basic

/-!
# Threads — computations that take turns over one shared state

A thread has a state of its own. A step of a thread changes it and the shared state, and says what was done;
what all threads do is kept in one record, in the order in which it is done. Threads are begun and advanced
in any order (`exec`), each step with what comes from outside.

What holds of a thread and its own part of the record is kept whatever the others do (`own_of_run`); what
holds of the shared state and the whole record is kept where every step keeps it (`shared_of_run`).
-/

namespace Threads

universe u v w x

variable {L : Type u} {S : Type v} {E : Type w} {X : Type x}

structure State (L : Type u) (S : Type v) (E : Type w) where
  threads : List L
  shared : S
  record : List (Nat × E)

/-- What a step leads to: the thread and the shared state after it, and what was done. -/
structure Outcome (L : Type u) (S : Type v) (E : Type w) where
  thread : L
  shared : S
  done : List E

inductive Op (L : Type u) (X : Type x)
  | begin (thread : L)
  | advance (i : Nat) (outside : X)

def start (shared : S) : State L S E := ⟨[], shared, []⟩

def exec (step : X → L → S → Outcome L S E) (op : Op L X) (s : State L S E) : State L S E :=
  match op with
  | .begin thread => { s with threads := s.threads ++ [thread] }
  | .advance i outside =>
    match s.threads[i]? with
    | none => s
    | some thread =>
      let outcome := step outside thread s.shared
      { threads := s.threads.set i outcome.thread
        shared := outcome.shared
        record := s.record ++ outcome.done.map (Prod.mk i) }

/-- What one thread has done. -/
def own (i : Nat) (record : List (Nat × E)) : List E :=
  record.filterMap fun entry => if entry.1 = i then some entry.2 else none

theorem own_append (i : Nat) (record later : List (Nat × E)) : own i (record ++ later) = own i record ++ own i later :=
  List.filterMap_append

theorem own_map_self (i : Nat) (done : List E) : own i (done.map (Prod.mk i)) = done := by
  rw [own, List.filterMap_map]
  simp

theorem own_map_of_ne {i j : Nat} (h : j ≠ i) (done : List E) : own i (done.map (Prod.mk j)) = [] := by
  rw [own, List.filterMap_map, List.filterMap_eq_nil_iff]
  intro e _
  exact if_neg h

theorem mem_own_iff {i : Nat} {record : List (Nat × E)} {e : E} : e ∈ own i record ↔ (i, e) ∈ record := by
  simp only [own, List.mem_filterMap, Option.ite_none_right_eq_some, Option.some.injEq, Prod.exists]
  constructor
  · rintro ⟨j, e', hmem, rfl, rfl⟩
    exact hmem
  · exact fun hmem => ⟨i, e, hmem, rfl, rfl⟩

/-- What holds of each entry of a record and of what stands before it. -/
def Throughout {α : Type x} (P : List α → α → Prop) (record : List α) : Prop :=
  ∀ front entry back, record = front ++ entry :: back → P front entry

theorem throughout_nil {α : Type x} {P : List α → α → Prop} : Throughout P [] := by
  intro front entry back h
  exact absurd h (List.append_ne_nil_of_right_ne_nil front (List.cons_ne_nil entry back)).symm

theorem Throughout.append {α : Type x} {P : List α → α → Prop} {record : List α} {entry : α} (h : Throughout P record)
    (hentry : P record entry) : Throughout P (record ++ [entry]) := by
  intro front other back heq
  rcases List.eq_nil_or_concat back with rfl | ⟨rest, last, rfl⟩
  · obtain ⟨rfl, hlast⟩ := List.append_inj' heq rfl
    rw [← List.singleton_inj.mp hlast]
    exact hentry
  · rw [List.concat_eq_append, ← List.cons_append, ← List.append_assoc] at heq
    obtain ⟨hrecord, -⟩ := List.append_inj' heq rfl
    exact h front other rest hrecord

/-- Every thread is as its own part of the record has it, and the record is of threads that were begun. -/
structure OwnHolds (Inv : L → List E → Prop) (s : State L S E) : Prop where
  holds : ∀ i thread, s.threads[i]? = some thread → Inv thread (own i s.record)
  begun : ∀ entry ∈ s.record, entry.1 < s.threads.length

theorem OwnHolds.begin {Inv : L → List E → Prop} {s : State L S E} (h : OwnHolds Inv s) {thread : L}
    (hbegin : Inv thread []) : OwnHolds Inv { s with threads := s.threads ++ [thread] } := by
  refine ⟨fun i other hi => ?_, fun entry hentry => ?_⟩
  · dsimp only at hi ⊢
    rcases Nat.lt_or_ge i s.threads.length with hlt | hge
    · rw [List.getElem?_append_left hlt] at hi
      exact h.holds i other hi
    · rw [List.getElem?_append_right hge] at hi
      obtain ⟨-, rfl⟩ := List.getElem?_eq_some_iff.mp hi
      -- Nothing was done yet by a thread that is only begun now.
      have hnone : own i s.record = [] := by
        rw [own, List.filterMap_eq_nil_iff]
        intro entry hentry
        exact if_neg (Nat.ne_of_lt (Nat.lt_of_lt_of_le (h.begun entry hentry) hge))
      rw [hnone, List.getElem_singleton]
      exact hbegin
  · rw [List.length_append]
    exact Nat.lt_add_right _ (h.begun entry hentry)

theorem OwnHolds.advance {Inv : L → List E → Prop} {step : X → L → S → Outcome L S E} {s : State L S E}
    (h : OwnHolds Inv s) {i : Nat} {outside : X}
    (hstep : ∀ thread done, Inv thread done →
      Inv (step outside thread s.shared).thread (done ++ (step outside thread s.shared).done)) :
    OwnHolds Inv (exec step (.advance i outside) s) := by
  unfold exec
  dsimp only
  cases hthread : s.threads[i]? with
  | none => exact h
  | some thread =>
    obtain ⟨hlt, -⟩ := List.getElem?_eq_some_iff.mp hthread
    refine ⟨fun j other hj => ?_, fun entry hentry => ?_⟩
    · dsimp only at hj ⊢
      rw [own_append]
      rcases eq_or_ne i j with rfl | hne
      · rw [List.getElem?_set_self hlt, Option.some.injEq] at hj
        subst hj
        rw [own_map_self]
        exact hstep thread _ (h.holds i thread hthread)
      · rw [List.getElem?_set_ne hne] at hj
        rw [own_map_of_ne hne, List.append_nil]
        exact h.holds j other hj
    · rw [List.length_set]
      rcases List.mem_append.mp hentry with hentry | hentry
      · exact h.begun entry hentry
      · obtain ⟨e, -, rfl⟩ := List.mem_map.mp hentry
        exact hlt

theorem ownHolds_of_run {Inv : L → List E → Prop} {step : X → L → S → Outcome L S E} {ops : List (Op L X)} {shared : S}
    (hbegin : ∀ thread, .begin thread ∈ ops → Inv thread [])
    (hstep : ∀ j outside, .advance j outside ∈ ops → ∀ thread shared done, Inv thread done →
      Inv (step outside thread shared).thread (done ++ (step outside thread shared).done)) :
    OwnHolds Inv (Run.run (exec step) ops (start shared)) := by
  refine (@Run.invariant_run _ _ (exec step) (OwnHolds Inv) (fun _ op => op ∈ ops) _ _ ⟨?_, ?_⟩ ?_
    fun step hstep => Run.mem_of_mem_steps hstep).1
  · exact fun i thread hi => by cases hi
  · exact fun entry hentry => absurd hentry List.not_mem_nil
  · intro s op hop h
    cases op with
    | begin thread => exact h.begin (hbegin thread hop)
    | advance j outside => exact h.advance fun thread done => hstep j outside hop thread s.shared done

/-- **What a thread keeps of itself** holds in every run, whatever the other threads do. -/
theorem own_of_run {Inv : L → List E → Prop} {step : X → L → S → Outcome L S E} {ops : List (Op L X)} {shared : S}
    (hbegin : ∀ thread, .begin thread ∈ ops → Inv thread [])
    (hstep : ∀ j outside, .advance j outside ∈ ops → ∀ thread shared done, Inv thread done →
      Inv (step outside thread shared).thread (done ++ (step outside thread shared).done))
    {i : Nat} {thread : L} (hthread : (Run.run (exec step) ops (start shared)).threads[i]? = some thread) :
    Inv thread (own i (Run.run (exec step) ops (start shared)).record) :=
  (ownHolds_of_run hbegin hstep).holds i thread hthread

/-- Whatever is recorded was done by a thread that was begun. -/
theorem exists_thread_of_run {step : X → L → S → Outcome L S E} {ops : List (Op L X)} {shared : S} {entry : Nat × E}
    (h : entry ∈ (Run.run (exec step) ops (start shared)).record) :
    ∃ thread, (Run.run (exec step) ops (start shared)).threads[entry.1]? = some thread := by
  have hall : OwnHolds (fun _ _ => True) (Run.run (exec step) ops (start shared)) :=
    ownHolds_of_run (fun _ _ => trivial) fun _ _ _ _ _ _ _ => trivial
  exact ⟨_, List.getElem?_eq_getElem (hall.begun entry h)⟩

/-- **What the threads keep together** holds in every run. -/
theorem shared_of_run {Inv : S → List (Nat × E) → Prop} {step : X → L → S → Outcome L S E} {ops : List (Op L X)}
    {shared : S} (hstart : Inv shared [])
    (hstep : ∀ i outside, .advance i outside ∈ ops → ∀ thread shared record, Inv shared record →
      Inv (step outside thread shared).shared (record ++ (step outside thread shared).done.map (Prod.mk i))) :
    Inv (Run.run (exec step) ops (start shared)).shared (Run.run (exec step) ops (start shared)).record := by
  refine (@Run.invariant_run _ _ (exec step) (fun s => Inv s.shared s.record) (fun _ op => op ∈ ops) _ _ hstart ?_
    fun step hstep => Run.mem_of_mem_steps hstep).1
  intro s op hop h
  cases op with
  | begin thread => exact h
  | advance i outside =>
    unfold exec
    dsimp only
    cases hthread : s.threads[i]? with
    | none => exact h
    | some thread => exact hstep i outside hop thread s.shared s.record h

end Threads
