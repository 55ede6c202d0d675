import GreenticOperator.Gmap.Parse
import GreenticOperator.Lib.LastWins

/-!
# The access decision, in closed form

`evalPolicy` carries an index next to the decision it keeps. The index of the rule in hand
is always the larger one, so the walk is the one of `LastWins.best` for the selector
`selector` (`evalPolicy_eq_best`). Everything later sections say about decisions goes
through that law: what one appended rule does (`evalPolicy_append`), and that only the
last policy of each path counts (`evalPolicy_congr`).
-/

namespace Gmap

/-- What of a rule a decision can depend on. -/
def GmapRule.entry (rule : GmapRule) : GmapPath × Policy := (rule.path, rule.policy)

def entries (rules : List GmapRule) : List (GmapPath × Policy) := rules.map GmapRule.entry

@[simp] theorem entries_nil : entries [] = [] := rfl

@[simp] theorem entries_cons (rule : GmapRule) (rules : List GmapRule) :
    entries (rule :: rules) = (rule.path, rule.policy) :: entries rules := rfl

@[simp] theorem entries_append (xs ys : List GmapRule) :
    entries (xs ++ ys) = entries xs ++ entries ys := List.map_append

theorem map_fst_entries (rules : List GmapRule) :
    (entries rules).map Prod.fst = rules.map GmapRule.path := by
  simp only [entries, List.map_map]
  rfl

/-- The global path, which `_` denotes. -/
abbrev GmapPath.global : GmapPath := ⟨none, none, none⟩

/-- The paths that match a target inside one pack, from the most to the least specific. -/
def packCandidates (target : GmapPath) (pack : String) : List GmapPath :=
  (match target.flow, target.node with
    | some flow, some node => [⟨some pack, some flow, some node⟩]
    | _, _ => [])
  ++ (match target.flow with
    | some flow => if flow == "_" then [] else [⟨some pack, some flow, none⟩]
    | none => [])
  ++ [⟨some pack, none, none⟩, ⟨some pack, some "_", none⟩, .global]

/-- The paths that match a target, from the most to the least specific. -/
def pathCandidates (target : GmapPath) : List GmapPath :=
  match target.pack with
  | none => [.global]
  | some pack => packCandidates target pack

theorem mem_pathCandidates (path target : GmapPath) :
    path ∈ pathCandidates target ↔ matchesTarget path target = true := by
  obtain ⟨tpack, tflow, tnode⟩ := target
  obtain ⟨pack, flow, node⟩ := path
  cases tpack <;> cases tflow <;> cases tnode <;> cases pack <;> cases flow <;> cases node <;>
    simp only [pathCandidates, packCandidates, matchesTarget] <;> grind

theorem pathCandidates_sorted (target : GmapPath) :
    (pathCandidates target).Pairwise fun a b => specificityRank b < specificityRank a := by
  obtain ⟨tpack, tflow, tnode⟩ := target
  cases tpack <;> cases tflow <;> cases tnode <;>
    simp only [pathCandidates, packCandidates] <;> (try split) <;> simp_all [specificityRank]

/-- Gmap paths as keys of a last-match-wins rule list. -/
def selector : LastWins.Selector GmapPath GmapPath where
  covers := matchesTarget
  rank := specificityRank
  candidates := pathCandidates
  mem_candidates := mem_pathCandidates
  candidates_sorted := pathCandidates_sorted

@[simp] theorem selector_covers : selector.covers = matchesTarget := rfl

@[simp] theorem selector_rank : selector.rank = specificityRank := rfl

/-- The pair a decision is made of. -/
def MatchDecision.toPair (d : MatchDecision) : Policy × Nat := (d.policy, d.rank)

def MatchDecision.ofPair (d : Policy × Nat) : MatchDecision := ⟨d.1, d.2⟩

/-- The walk from an index beyond the kept one is the walk of `LastWins`. -/
theorem evalPolicyFrom_eq (target : GmapPath) (rules : List GmapRule) (idx : Nat)
    (best : Option MatchDecision) (bestIndex : Nat) (h : best.isSome = true → bestIndex < idx) :
    evalPolicyFrom target rules idx best bestIndex
      = ((entries rules).foldl (LastWins.step selector target)
          (best.map MatchDecision.toPair)).map MatchDecision.ofPair := by
  induction rules generalizing idx best bestIndex with
  | nil =>
    cases best with
    | none => rfl
    | some d => rfl
  | cons rule rules ih =>
    simp only [entries_cons, List.foldl_cons, evalPolicyFrom]
    cases hm : matchesTarget rule.path target with
    | false =>
      have hstep : LastWins.step selector target (best.map MatchDecision.toPair)
          (rule.path, rule.policy) = best.map MatchDecision.toPair := by
        simp only [LastWins.step, selector_covers, hm, Bool.false_eq_true, ↓reduceIte]
      rw [hstep]
      exact ih (idx + 1) best bestIndex fun hb => Nat.lt_succ_of_lt (h hb)
    | true =>
      cases best with
      | none =>
        have hstep : LastWins.step selector target none (rule.path, rule.policy)
            = some (rule.policy, specificityRank rule.path) := by
          simp only [LastWins.step, selector_covers, selector_rank, hm, ↓reduceIte]
        simp only [Bool.not_true, Bool.false_eq_true, ↓reduceIte, Option.map_none, hstep]
        exact ih (idx + 1) _ idx fun _ => Nat.lt_succ_self idx
      | some current =>
        have hidx : bestIndex < idx := h rfl
        have hstep : LastWins.step selector target (some current.toPair) (rule.path, rule.policy)
            = if current.rank ≤ specificityRank rule.path
                then some (rule.policy, specificityRank rule.path) else some current.toPair := by
          unfold LastWins.step MatchDecision.toPair
          by_cases hle : current.rank ≤ specificityRank rule.path <;>
            simp [hm, hle]
        have htest : (decide (specificityRank rule.path > current.rank)
            || (specificityRank rule.path == current.rank && decide (idx > bestIndex)))
            = decide (current.rank ≤ specificityRank rule.path) := by
          rw [Bool.eq_iff_iff]
          simp only [Bool.or_eq_true, Bool.and_eq_true, decide_eq_true_eq, beq_iff_eq]
          omega
        simp only [Bool.not_true, Bool.false_eq_true, ↓reduceIte, Option.map_some, hstep, htest,
          decide_eq_true_eq]
        split
        next => exact ih (idx + 1) _ idx fun _ => Nat.lt_succ_self idx
        next => exact ih (idx + 1) _ bestIndex fun _ => Nat.lt_succ_of_lt hidx

/-- **The decision is `LastWins.best`** over the entries of the rules. -/
theorem evalPolicy_eq_best (rules : List GmapRule) (target : GmapPath) :
    evalPolicy rules target
      = (LastWins.best selector (entries rules) target).map MatchDecision.ofPair := by
  apply evalPolicyFrom_eq
  intro h
  cases h

/-- What a decision becomes when a rule of path `path` with policy `policy` is the last
one: the rule's own where it matches at least as specifically as the decision before. -/
def overriddenBy (path : GmapPath) (policy : Policy) (target : GmapPath)
    (before : Option MatchDecision) : Option MatchDecision :=
  if matchesTarget path target = true
      ∧ (∀ d, before = some d → d.rank ≤ specificityRank path) then
    some ⟨policy, specificityRank path⟩
  else before

/-- **One more rule at the end** overrides what it matches at least as specifically. -/
theorem evalPolicy_append (rules : List GmapRule) (rule : GmapRule) (target : GmapPath) :
    evalPolicy (rules ++ [rule]) target
      = overriddenBy rule.path rule.policy target (evalPolicy rules target) := by
  rw [evalPolicy_eq_best, evalPolicy_eq_best, entries_append, entries_cons, entries_nil,
    LastWins.best_append_singleton]
  unfold LastWins.step overriddenBy
  by_cases hm : matchesTarget rule.path target = true
  · cases LastWins.best selector (entries rules) target with
    | none => simp [hm, MatchDecision.ofPair]
    | some d =>
      obtain ⟨v, n⟩ := d
      by_cases hle : n ≤ specificityRank rule.path <;>
        simp [hm, hle, MatchDecision.ofPair]
  · simp [hm]

/-- Rule lists that agree on the last policy of every path decide alike. -/
theorem evalPolicy_congr {xs ys : List GmapRule}
    (h : ∀ path, LastWins.last (entries xs) path = LastWins.last (entries ys) path)
    (target : GmapPath) : evalPolicy xs target = evalPolicy ys target := by
  rw [evalPolicy_eq_best, evalPolicy_eq_best,
    LastWins.best_congr selector (t := target) fun k _ => h k]

end Gmap
