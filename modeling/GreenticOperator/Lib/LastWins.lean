import GreenticOperator.Lib.StableSort
import Mathlib.Data.List.Induction
import Mathlib.Data.List.Nodup

/-!
# LastWins — rule lists in which the most specific match decides, and the last one among equals

A rule list is a list of keys with values. A `Selector` says which keys match a target,
how specific a key is, and lists the keys that match a target from the most to the least
specific; no two of them are equally specific. `best` walks a rule list once and keeps a
match when it is at least as specific as the one kept so far.

`best_append_singleton` says what one more rule does. `best_eq_findSome` is the closed
form: the decision is read off the matching keys in order of specificity, each with the
value of its last rule (`last`). So a rule list decides as a map from keys to values does
(`best_eq_decision`), two that agree on the last value of every key decide alike
(`best_congr`), and whatever reorders rules without reordering
the rules of one key, such as a stable sort, keeps every decision (`last_insertionSort`).
-/

namespace LastWins

universe u v w

variable {K : Type u} {V : Type v} {T : Type w} [DecidableEq K]

/-- Which keys match a target, and how specific they are. -/
structure Selector (K : Type u) (T : Type w) where
  covers : K → T → Bool
  rank : K → Nat
  candidates : T → List K
  mem_candidates : ∀ k t, k ∈ candidates t ↔ covers k t = true
  candidates_sorted : ∀ t, (candidates t).Pairwise fun a b => rank b < rank a

/-- The value the last rule of a key carries. -/
def last (rules : List (K × V)) (k : K) : Option V :=
  (rules.filter fun r => decide (r.1 = k)).getLast?.map Prod.snd

/-- One more rule: kept when it matches and nothing more specific was kept before. -/
def step (S : Selector K T) (t : T) (kept : Option (V × Nat)) (r : K × V) : Option (V × Nat) :=
  if S.covers r.1 t then
    match kept with
    | none => some (r.2, S.rank r.1)
    | some (v, n) => if n ≤ S.rank r.1 then some (r.2, S.rank r.1) else some (v, n)
  else kept

/-- The decision of a rule list at a target, with the rank it was taken at. -/
def best (S : Selector K T) (rules : List (K × V)) (t : T) : Option (V × Nat) :=
  rules.foldl (step S t) none

omit [DecidableEq K] in
theorem best_append_singleton (S : Selector K T) (rules : List (K × V)) (r : K × V) (t : T) :
    best S (rules ++ [r]) t = step S t (best S rules t) r := by
  simp only [best, List.foldl_append, List.foldl_cons, List.foldl_nil]

theorem last_append (xs ys : List (K × V)) (k : K) :
    last (xs ++ ys) k = (last ys k).or (last xs k) := by
  simp only [last, List.filter_append, List.getLast?_append, Option.map_or]

theorem last_singleton (r : K × V) (k : K) :
    last [r] k = if r.1 = k then some r.2 else none := by
  by_cases h : r.1 = k <;> simp [last, h]

theorem last_cons (r : K × V) (rules : List (K × V)) (k : K) :
    last (r :: rules) k = (last rules k).or (if r.1 = k then some r.2 else none) := by
  rw [← List.singleton_append, last_append, last_singleton]

theorem last_eq_none {rules : List (K × V)} {k : K} :
    last rules k = none ↔ k ∉ rules.map Prod.fst := by
  simp only [last, Option.map_eq_none_iff, List.getLast?_eq_none_iff, List.filter_eq_nil_iff,
    decide_eq_true_eq, List.mem_map, not_exists, not_and]

theorem last_isSome {rules : List (K × V)} {k : K} :
    (last rules k).isSome = true ↔ k ∈ rules.map Prod.fst := by
  rw [Option.isSome_iff_ne_none, Ne, last_eq_none, not_not]

/-! ## The closed form -/

/-- What one key contributes: the value of its last rule, at its rank. -/
def verdict (S : Selector K T) (rules : List (K × V)) (k : K) : Option (V × Nat) :=
  (last rules k).map fun v => (v, S.rank k)

theorem verdict_rank {S : Selector K T} {rules : List (K × V)} {k : K} {d : V × Nat}
    (h : verdict S rules k = some d) : d.2 = S.rank k := by
  obtain ⟨v, -, rfl⟩ := Option.map_eq_some_iff.mp h
  rfl

theorem verdict_append_singleton (S : Selector K T) (rules : List (K × V)) (r : K × V) (k : K) :
    verdict S (rules ++ [r]) k
      = if r.1 = k then some (r.2, S.rank k) else verdict S rules k := by
  simp only [verdict, last_append, last_singleton]
  split <;> simp

/-- Reading a sorted list of keys whose verdicts change at one key only. -/
theorem findSome_step (S : Selector K T) (rules : List (K × V)) (r : K × V) {t : T}
    (ks : List K) (hmem : r.1 ∈ ks → S.covers r.1 t = true)
    (hsorted : ks.Pairwise fun a b => S.rank b < S.rank a) :
    ks.findSome? (verdict S (rules ++ [r]))
      = if r.1 ∈ ks then step S t (ks.findSome? (verdict S rules)) r
        else ks.findSome? (verdict S rules) := by
  induction ks with
  | nil => rfl
  | cons k ks ih =>
    obtain ⟨hbelow, hsorted⟩ := List.pairwise_cons.mp hsorted
    have ih := ih (fun h => hmem (List.mem_cons_of_mem k h)) hsorted
    by_cases hk : r.1 = k
    · -- The rule's own key: everything after it in the list is less specific.
      have hnot : r.1 ∉ ks := fun h => Nat.lt_irrefl _ (hk ▸ hbelow _ h)
      rw [if_neg hnot] at ih
      have hcovers : S.covers r.1 t = true := hmem (hk ▸ List.mem_cons_self)
      simp only [List.findSome?_cons, verdict_append_singleton, hk, List.mem_cons,
        true_or, if_true, step, hk ▸ hcovers]
      cases hv : verdict S rules k with
      | some d =>
        obtain ⟨v, n⟩ := d
        have hn := verdict_rank hv
        simp only at hn
        simp [hn]
      | none =>
        cases hf : ks.findSome? (verdict S rules) with
        | none => rfl
        | some d =>
          obtain ⟨v, n⟩ := d
          obtain ⟨k', hk', hv'⟩ := List.exists_of_findSome?_eq_some hf
          have hn := verdict_rank hv'
          simp only at hn
          have := hbelow k' hk'
          rw [← hn] at this
          simp [Nat.le_of_lt this]
    · have hin_iff : r.1 ∈ k :: ks ↔ r.1 ∈ ks := by simp only [List.mem_cons, hk, false_or]
      rw [List.findSome?_cons, List.findSome?_cons, verdict_append_singleton, if_neg hk]
      cases hv : verdict S rules k with
      | none => simpa only [hin_iff] using ih
      | some d =>
        -- A more specific key already decided; the new rule cannot take over.
        by_cases hin : r.1 ∈ ks
        · have hbelow := hbelow _ hin
          rw [← verdict_rank hv] at hbelow
          obtain ⟨v, n⟩ := d
          simp only [hin_iff, if_pos hin, step, hmem (List.mem_cons_of_mem k hin), if_true,
            if_neg (Nat.not_le.mpr hbelow)]
        · simp only [hin_iff, if_neg hin]

/-- **The closed form**: the decision is the first verdict among the matching keys, taken
from the most to the least specific. -/
theorem best_eq_findSome (S : Selector K T) (rules : List (K × V)) (t : T) :
    best S rules t = (S.candidates t).findSome? (verdict S rules) := by
  induction rules using List.reverseRecOn with
  | nil =>
    symm
    apply List.findSome?_eq_none_iff.mpr
    intro k _
    rfl
  | append_singleton rules r ih =>
    rw [best_append_singleton,
      findSome_step S rules r (t := t) _ (fun h => (S.mem_candidates _ _).mp h)
        (S.candidates_sorted t), ih]
    split
    next => rfl
    next h =>
      have : S.covers r.1 t = false := by
        rw [← Bool.not_eq_true]
        exact fun hc => h ((S.mem_candidates _ _).mpr hc)
      simp only [step, this, Bool.false_eq_true, ↓reduceIte]

/-- Lists that agree on the last value of every matching key decide alike. -/
theorem best_congr (S : Selector K T) {xs ys : List (K × V)} {t : T}
    (h : ∀ k ∈ S.candidates t, last xs k = last ys k) : best S xs t = best S ys t := by
  have aux : ∀ ks : List K, (∀ k ∈ ks, last xs k = last ys k) →
      ks.findSome? (verdict S xs) = ks.findSome? (verdict S ys) := by
    intro ks hks
    induction ks with
    | nil => rfl
    | cons k ks ih =>
      simp only [List.findSome?_cons, verdict, hks k List.mem_cons_self,
        ih fun k' hk' => hks k' (List.mem_cons_of_mem k hk')]
  rw [best_eq_findSome, best_eq_findSome]
  exact aux _ h

/-- The rank a decision was taken at belongs to exactly one matching key, and the value is
that of its last rule. -/
theorem last_of_best {S : Selector K T} {rules : List (K × V)} {t : T} {k : K} {v : V}
    (hk : S.covers k t = true) (h : best S rules t = some (v, S.rank k)) :
    last rules k = some v := by
  rw [best_eq_findSome] at h
  obtain ⟨k', hk', hv⟩ := List.exists_of_findSome?_eq_some h
  have hrank : S.rank k = S.rank k' := verdict_rank hv
  have hnodup : ((S.candidates t).map S.rank).Nodup :=
    List.pairwise_map.mpr ((S.candidates_sorted t).imp fun h => (Nat.ne_of_lt h).symm)
  have hsame : k' = k :=
    List.inj_on_of_nodup_map hnodup hk' ((S.mem_candidates k t).mpr hk) hrank.symm
  subst hsame
  obtain ⟨v', hv', heq⟩ := Option.map_eq_some_iff.mp hv
  rw [hv', Option.some.injEq]
  exact congrArg Prod.fst heq

/-- A key present in the list keeps every less specific key from deciding. -/
theorem rank_le_of_best {S : Selector K T} {rules : List (K × V)} {t : T} {k : K} {d : V × Nat}
    (hk : S.covers k t = true) (hmem : k ∈ rules.map Prod.fst)
    (h : best S rules t = some d) : S.rank k ≤ d.2 := by
  have hkc := (S.mem_candidates k t).mpr hk
  rw [best_eq_findSome] at h
  have hsorted := S.candidates_sorted t
  generalize S.candidates t = ks at hkc h hsorted
  induction ks with
  | nil => cases hkc
  | cons c cs ih =>
    obtain ⟨hbelow, hsorted⟩ := List.pairwise_cons.mp hsorted
    rw [List.findSome?_cons] at h
    cases hv : verdict S rules c with
    | some d' =>
      rw [hv] at h
      cases h
      rw [verdict_rank hv]
      rcases List.mem_cons.mp hkc with rfl | hin
      · exact Nat.le_refl _
      · exact Nat.le_of_lt (hbelow k hin)
    | none =>
      rw [hv] at h
      rcases List.mem_cons.mp hkc with rfl | hin
      · have : last rules k = none := by
          cases hl : last rules k with
          | none => rfl
          | some v => simp [verdict, hl] at hv
        exact absurd hmem (last_eq_none.mp this)
      · exact ih hin h hsorted

/-- A decision comes from the last rule of some matching key. -/
theorem exists_of_best {S : Selector K T} {rules : List (K × V)} {t : T} {d : V × Nat}
    (h : best S rules t = some d) :
    ∃ k, S.covers k t = true ∧ last rules k = some d.1 ∧ d.2 = S.rank k := by
  rw [best_eq_findSome] at h
  obtain ⟨k, hk, hv⟩ := List.exists_of_findSome?_eq_some h
  obtain ⟨v, hlast, rfl⟩ := Option.map_eq_some_iff.mp hv
  exact ⟨k, (S.mem_candidates k t).mp hk, hlast, rfl⟩

/-- A key of the list that matches leaves no target undecided. -/
theorem best_isSome {S : Selector K T} {rules : List (K × V)} {t : T} {k : K}
    (hk : S.covers k t = true) (hmem : k ∈ rules.map Prod.fst) :
    (best S rules t).isSome = true := by
  rw [best_eq_findSome, List.findSome?_isSome_iff]
  refine ⟨k, (S.mem_candidates k t).mpr hk, ?_⟩
  rw [verdict, Option.isSome_map]
  exact last_isSome.mpr hmem

/-! ## Maps of keys -/

/-- The decision of a map that gives keys their values: that of the most specific key it has. -/
def decision (S : Selector K T) (m : K → Option V) (t : T) : Option (V × Nat) :=
  (S.candidates t).findSome? fun k => (m k).map fun v => (v, S.rank k)

/-- A rule list decides as the map of the last values of its keys. -/
theorem best_eq_decision (S : Selector K T) (rules : List (K × V)) (t : T) :
    best S rules t = decision S (last rules) t := best_eq_findSome S rules t

omit [DecidableEq K] in
/-- **The decision is the most specific one**: a value is decided exactly where a matching key has it and no
more specific matching key has any. -/
theorem decision_eq_some_iff {S : Selector K T} {m : K → Option V} {t : T} {v : V} {n : Nat} :
    decision S m t = some (v, n) ↔ ∃ k, S.covers k t = true ∧ m k = some v ∧ S.rank k = n
      ∧ ∀ other, S.covers other t = true → n < S.rank other → m other = none := by
  have aux : ∀ ks : List K, (ks.Pairwise fun a b => S.rank b < S.rank a) →
      ((ks.findSome? fun k => (m k).map fun v => (v, S.rank k)) = some (v, n)
        ↔ ∃ k ∈ ks, m k = some v ∧ S.rank k = n ∧ ∀ other ∈ ks, n < S.rank other → m other = none) := by
    intro ks hsorted
    induction ks with
    | nil => simp
    | cons k ks ih =>
      obtain ⟨hbelow, hsorted⟩ := List.pairwise_cons.mp hsorted
      rw [List.findSome?_cons]
      cases hk : m k with
      | none =>
        rw [Option.map_none]
        dsimp only
        rw [ih hsorted]
        constructor
        · rintro ⟨key, hkey, hv, hn, hmost⟩
          refine ⟨key, List.mem_cons_of_mem k hkey, hv, hn, fun other hother hlt => ?_⟩
          rcases List.mem_cons.mp hother with rfl | hother
          · exact hk
          · exact hmost other hother hlt
        · rintro ⟨key, hkey, hv, hn, hmost⟩
          rcases List.mem_cons.mp hkey with rfl | hkey
          · rw [hk] at hv
            cases hv
          · exact ⟨key, hkey, hv, hn, fun other hother => hmost other (List.mem_cons_of_mem k hother)⟩
      | some w =>
        rw [Option.map_some]
        dsimp only
        rw [Option.some.injEq, Prod.mk.injEq]
        constructor
        · rintro ⟨rfl, rfl⟩
          refine ⟨k, List.mem_cons_self, hk, rfl, fun other hother hlt => ?_⟩
          rcases List.mem_cons.mp hother with rfl | hother
          · exact absurd hlt (Nat.lt_irrefl _)
          · exact absurd (hbelow other hother) (Nat.lt_asymm hlt)
        · rintro ⟨key, hkey, hv, hn, hmost⟩
          rcases List.mem_cons.mp hkey with rfl | hkey
          · rw [hk, Option.some.injEq] at hv
            exact ⟨hv, hn⟩
          · have hnone := hmost k List.mem_cons_self (hn ▸ hbelow key hkey)
            rw [hk] at hnone
            cases hnone
  unfold decision
  rw [aux _ (S.candidates_sorted t)]
  simp only [S.mem_candidates]

/-! ## Stable sorting -/

/-- A stable sort that ties the rules of one key keeps the last value of every key. -/
theorem last_insertionSort {α : Type*} (f : α → K × V) (r : α → α → Prop) [DecidableRel r]
    (htie : ∀ a b, (f a).1 = (f b).1 → r a b) (rules : List α) (k : K) :
    last ((rules.insertionSort r).map f) k = last (rules.map f) k := by
  unfold last
  rw [List.filter_map, List.filter_map, StableSort.filter_insertionSort_of_tie]
  intro a b ha hb
  exact htie a b ((of_decide_eq_true ha).trans (of_decide_eq_true hb).symm)

end LastWins
