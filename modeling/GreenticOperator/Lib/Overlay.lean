import GreenticOperator.Lib.LastWins
import GreenticOperator.Lib.Run
import Mathlib.Logic.Function.Basic

/-!
# Overlay — tables that are written and filled

A write puts entries into a table, over what is there; a fill puts entries in only where nothing is there. After a
run of writes and fills a key has what was written to it last, or else what it had at the start, or else what it
was filled with first (`run_eq`). So it does not matter which writes a fill comes before.
-/

namespace Overlay

universe u v

open LastWins

variable {K : Type u} {V : Type v} [DecidableEq K]

/-- A change of a table. -/
inductive Change (K : Type u) (V : Type v)
  | write (entries : List (K × V))
  | fill (entries : List (K × V))

def Change.apply : Change K V → (K → Option V) → K → Option V
  | .write entries, table, k => (last entries k).or (table k)
  | .fill entries, table, k => (table k).or (last entries k)

def Change.writes : Change K V → List (K × V)
  | .write entries => entries
  | .fill _ => []

def Change.fills : Change K V → List (K × V)
  | .write _ => []
  | .fill entries => entries

/-- All that is written in a run. -/
def written (changes : List (Change K V)) : List (K × V) := changes.flatMap Change.writes

/-- What a key is filled with first. -/
def filled (changes : List (Change K V)) (k : K) : Option V := changes.findSome? fun change => last change.fills k

variable {table : K → Option V} {entries : List (K × V)}

theorem apply_eq (change : Change K V) (table : K → Option V) (k : K) :
    change.apply table k = (last change.writes k).or ((table k).or (last change.fills k)) := by
  have hnil : last ([] : List (K × V)) k = none := rfl
  cases change with
  | write entries => rw [Change.writes, Change.fills, hnil, Option.or_none, Change.apply]
  | fill entries => rw [Change.writes, Change.fills, hnil, Option.none_or, Change.apply]

/-- **After a run** a key has what was written last, what it had, or what it was filled with first. -/
theorem run_eq (changes : List (Change K V)) (table : K → Option V) (k : K) :
    Run.run Change.apply changes table k = (last (written changes) k).or ((table k).or (filled changes k)) := by
  induction changes using List.reverseRecOn with
  | nil => rw [Run.run, List.foldl_nil, filled, List.findSome?_nil, Option.or_none]; rfl
  | append_singleton changes change ih =>
    have hrun : Run.run Change.apply (changes ++ [change]) table
        = change.apply (Run.run Change.apply changes table) := List.foldl_append ..
    have hwritten : written (changes ++ [change]) = written changes ++ change.writes := by
      rw [written, List.flatMap_append, List.flatMap_singleton, written]
    have hfilled : filled (changes ++ [change]) k = (filled changes k).or (last change.fills k) := by
      rw [filled, List.findSome?_append, List.findSome?_singleton, filled]
    rw [hrun, apply_eq, ih, hwritten, hfilled, last_append]
    simp only [Option.or_assoc]

/-- Nothing that is there is lost. -/
theorem isSome_run (changes : List (Change K V)) {k : K} (h : (table k).isSome) :
    (Run.run Change.apply changes table k).isSome := by
  rw [run_eq]
  simp [h]

/-! ## Entries one after another -/

theorem foldl_update (entries : List (K × V)) (table : K → Option V) :
    entries.foldl (fun (table : K → Option V) entry => Function.update table entry.1 (some entry.2)) table
      = (Change.write entries).apply table := by
  induction entries generalizing table with
  | nil => rfl
  | cons entry entries ih =>
    funext k
    rw [List.foldl_cons, ih, Change.apply, Change.apply, last_cons, Function.update_apply, Option.or_assoc]
    by_cases hk : entry.1 = k
    · rw [if_pos hk, if_pos hk.symm, Option.some_or]
    · rw [if_neg hk, if_neg (Ne.symm hk), Option.none_or]

/-- Entries that are missing are written as they are filled in. -/
theorem write_eq_fill (h : ∀ entry ∈ entries, table entry.1 = none) :
    (Change.write entries).apply table = (Change.fill entries).apply table := by
  funext k
  rw [Change.apply, Change.apply]
  cases hlast : last entries k with
  | none => rw [Option.none_or, Option.or_none]
  | some v =>
    obtain ⟨entry, hentry, rfl⟩ := List.mem_map.mp (last_isSome.mp (Option.isSome_of_mem hlast))
    rw [h entry hentry, Option.none_or, Option.or_none]

/-- Of the entries of a fill, only those matter that are missing. -/
theorem fill_filter (entries : List (K × V)) (table : K → Option V) :
    (Change.fill (entries.filter fun entry => (table entry.1).isNone)).apply table
      = (Change.fill entries).apply table := by
  funext k
  rw [Change.apply, Change.apply]
  cases htable : table k with
  | some v => rw [Option.some_or, Option.some_or]
  | none =>
    have hkept : (fun entry : K × V => decide (entry.1 = k) && (table entry.1).isNone)
        = fun entry => decide (entry.1 = k) := by
      funext entry
      by_cases hk : entry.1 = k
      · simp [hk, htable]
      · simp [hk]
    rw [last, last, List.filter_filter, hkept]

end Overlay
