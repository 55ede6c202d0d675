import Mathlib.Data.List.Basic

/-!
# Prompt — loops that read lines until one of them ends them

A line that a loop reads ends it or leaves it in another state. At the end of the input a read gives
nothing, and what a loop makes of that is its own matter: one that stays as it is reads on forever, and so
it ends exactly where a line of its input ends it (`isSome_run_iff`). One that ends then makes at most one
read more than there are lines (`isSome_run_of_onEnd`).
-/

namespace Prompt

universe u v

inductive Turn (σ : Type u) (ρ : Type v)
  | again (state : σ)
  | done (result : ρ)
deriving DecidableEq, Repr

structure Loop (σ : Type u) (ρ : Type v) where
  onLine : σ → String → Turn σ ρ
  /-- What a read makes of the end of the input. -/
  onEnd : σ → Turn σ ρ

namespace Loop

variable {σ : Type u} {ρ : Type v}

/-- The result of a loop that makes at most so many reads, where it comes to one. -/
def run (loop : Loop σ ρ) : Nat → List String → σ → Option ρ
  | 0, _, _ => none
  | n + 1, [], s =>
    match loop.onEnd s with
    | .again s' => run loop n [] s'
    | .done r => some r
  | n + 1, line :: rest, s =>
    match loop.onLine s line with
    | .again s' => run loop n rest s'
    | .done r => some r

/-- What the lines of an input leave. -/
def feed (loop : Loop σ ρ) : List String → σ → Turn σ ρ
  | [], s => .again s
  | line :: rest, s =>
    match loop.onLine s line with
    | .again s' => feed loop rest s'
    | .done r => .done r

variable {loop : Loop σ ρ} {script : List String} {s s' : σ} {r : ρ} {n : Nat}

theorem feed_cons_of_again {line : String} {rest : List String} (h : loop.onLine s line = .again s') :
    loop.feed (line :: rest) s = loop.feed rest s' := by
  rw [feed, h]

theorem feed_cons_of_done {line : String} {rest : List String} (h : loop.onLine s line = .done r) :
    loop.feed (line :: rest) s = .done r := by
  rw [feed, h]

/-- A loop is ended by the lines where one of them ends it, after those before it. -/
theorem feed_eq_done_iff : loop.feed script s = .done r
    ↔ ∃ front line back s', script = front ++ line :: back ∧ loop.feed front s = .again s'
      ∧ loop.onLine s' line = .done r := by
  induction script generalizing s with
  | nil =>
    refine iff_of_false nofun ?_
    rintro ⟨front, line, back, s', heq, -⟩
    cases front <;> cases heq
  | cons line rest ih =>
    cases hline : loop.onLine s line with
    | again s' =>
      rw [feed_cons_of_again hline, ih]
      constructor
      · rintro ⟨front, last, back, s'', rfl, hfront, hlast⟩
        exact ⟨line :: front, last, back, s'', rfl, (feed_cons_of_again hline).trans hfront, hlast⟩
      · rintro ⟨front, last, back, s'', heq, hfront, hlast⟩
        cases front with
        | nil =>
          cases hfront
          cases heq
          rw [hline] at hlast
          cases hlast
        | cons first front =>
          cases heq
          rw [feed_cons_of_again hline] at hfront
          exact ⟨front, last, back, s'', rfl, hfront, hlast⟩
    | done r' =>
      rw [feed_cons_of_done hline]
      constructor
      · rintro ⟨⟩
        exact ⟨[], line, rest, s, rfl, rfl, hline⟩
      · rintro ⟨front, last, back, s'', heq, hfront, hlast⟩
        cases front with
        | nil =>
          cases hfront
          cases heq
          rw [← hline, hlast]
        | cons first front =>
          cases heq
          rw [feed_cons_of_done hline] at hfront
          cases hfront

theorem run_of_feed_done (h : loop.feed script s = .done r) (hn : script.length ≤ n) : loop.run n script s = some r := by
  induction script generalizing s n with
  | nil => cases h
  | cons line rest ih =>
    cases n with
    | zero => cases hn
    | succ n =>
      rw [run]
      cases hline : loop.onLine s line with
      | again s' =>
        rw [feed_cons_of_again hline] at h
        exact ih h (Nat.le_of_succ_le_succ hn)
      | done r' =>
        rw [feed_cons_of_done hline] at h
        cases h
        rfl

theorem run_of_feed_again (h : loop.feed script s = .again s') (n : Nat) :
    loop.run (script.length + n) script s = loop.run n [] s' := by
  induction script generalizing s with
  | nil =>
    cases h
    rw [List.length_nil, Nat.zero_add]
  | cons line rest ih =>
    rw [List.length_cons, Nat.add_right_comm, run]
    cases hline : loop.onLine s line with
    | again s'' =>
      rw [feed_cons_of_again hline] at h
      exact ih h
    | done r =>
      rw [feed_cons_of_done hline] at h
      cases h

/-- A loop that stays as it is at the end of the input never ends there. -/
theorem run_nil_of_stays (h : loop.onEnd s = .again s) (n : Nat) : loop.run n [] s = none := by
  induction n with
  | zero => rfl
  | succ n ih =>
    rw [run, h]
    exact ih

/-- **A loop that stays as it is at the end of the input** ends where a line of its input ends it, whatever reads it
is given beyond those of the lines. -/
theorem isSome_run_iff (hend : ∀ s, loop.onEnd s = .again s) (hn : script.length ≤ n) :
    (loop.run n script s).isSome ↔ ∃ r, loop.feed script s = .done r := by
  cases hfeed : loop.feed script s with
  | again s' =>
    obtain ⟨extra, rfl⟩ := Nat.exists_eq_add_of_le hn
    rw [run_of_feed_again hfeed, run_nil_of_stays (hend s')]
    exact iff_of_false nofun nofun
  | done r =>
    rw [run_of_feed_done hfeed hn]
    exact iff_of_true rfl ⟨r, rfl⟩

/-- **A loop that ends at the end of the input** makes at most one read more than there are lines. -/
theorem isSome_run_of_onEnd (hend : ∀ s, ∃ r, loop.onEnd s = .done r) :
    (loop.run (script.length + 1) script s).isSome := by
  cases hfeed : loop.feed script s with
  | again s' =>
    obtain ⟨r, hr⟩ := hend s'
    rw [run_of_feed_again hfeed, run, hr]
    rfl
  | done r =>
    rw [run_of_feed_done hfeed (Nat.le_succ _)]
    rfl

end Loop

end Prompt
