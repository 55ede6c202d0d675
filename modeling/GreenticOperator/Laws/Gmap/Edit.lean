import GreenticOperator.Laws.Gmap.Line

/-!
# What an edit does to the access decisions

`upsertPolicy` is meant to act on decisions as if the rule `(path, policy)` were appended
to the file (`evalPolicy_append`). Each of its two ways to write the file is first read
back as entries, then compared with that.

* The canonical rewrite renders every rule of the file. It reads back as the sorted rules
  where each path reads back from its own text (`ReadsBack`); the sort is stable, so it
  changes no decision.
* The rewrite that keeps lines replaces the first rule line whose path prints as the given
  text, or adds a line at the end.

Both change the first rule of the path while the last one decides, so a second rule for
the same path undoes the edit. `upsert_faithful_iff` is the exact condition under which
the edit is faithful for both policies; its hard half finds, for any path that does not
read back, a target whose decision the rewrite changes.
-/

namespace Gmap

open Text LastWins

/-! ## Decisions at the path of a rule -/

theorem matchesTarget_self {path : GmapPath} (h : path.Parsed) :
    matchesTarget path path = true := by
  cases h <;> simp [matchesTarget]

/-- `pack/_` where the pack has a rule of its own, which every target of `pack/_` prefers. -/
def Shadowed (path : GmapPath) (paths : List GmapPath) : Prop :=
  path.flow = some "_" ∧ path.node = none ∧ ⟨path.pack, none, none⟩ ∈ paths

/-- At the target a path itself denotes, only the pack rule of a `pack/_` is more specific. -/
theorem rank_le_of_matches {path other : GmapPath} (h : path.Parsed)
    (hm : matchesTarget other path = true) :
    specificityRank other ≤ specificityRank path
      ∨ path.flow = some "_" ∧ path.node = none ∧ other = ⟨path.pack, none, none⟩ := by
  obtain ⟨pack, flow, node⟩ := other
  cases h <;> cases pack <;> cases flow <;> cases node <;>
    simp [matchesTarget, specificityRank] at hm ⊢ <;> grind

theorem mem_map_fst_of_last {es : List (GmapPath × Policy)} {path : GmapPath} {policy : Policy}
    (h : last es path = some policy) : path ∈ es.map Prod.fst :=
  last_isSome.mp (by rw [h]; rfl)

/-- No decision at the target of an unshadowed path is more specific than the path. -/
theorem rank_le_of_eval {rules : List GmapRule} {path : GmapPath} (hp : path.Parsed)
    (hs : ¬ Shadowed path (rules.map GmapRule.path)) {d : MatchDecision}
    (h : evalPolicy rules path = some d) : d.rank ≤ specificityRank path := by
  rw [evalPolicy_eq_best, Option.map_eq_some_iff] at h
  obtain ⟨pair, hbest, rfl⟩ := h
  obtain ⟨k, hk, hlast, hrank⟩ := exists_of_best hbest
  rcases rank_le_of_matches hp hk with hle | ⟨hflow, hnode, rfl⟩
  · show pair.2 ≤ specificityRank path
    rw [hrank]
    exact hle
  · refine absurd ⟨hflow, hnode, ?_⟩ hs
    rw [← map_fst_entries]
    exact mem_map_fst_of_last hlast

/-- A path of the list takes the decision at its own target unless it is shadowed. -/
theorem eval_at_path {rules : List GmapRule} {path : GmapPath} (hp : path.Parsed)
    (hmem : path ∈ rules.map GmapRule.path) (hs : ¬ Shadowed path (rules.map GmapRule.path)) :
    ∃ policy, evalPolicy rules path = some ⟨policy, specificityRank path⟩ := by
  have hmem' : path ∈ (entries rules).map Prod.fst := by rwa [map_fst_entries]
  obtain ⟨d, hd⟩ := Option.isSome_iff_exists.mp
    (best_isSome (S := selector) (matchesTarget_self hp) hmem')
  have heval : evalPolicy rules path = some (MatchDecision.ofPair d) := by
    rw [evalPolicy_eq_best, hd]
    rfl
  have hle := rank_le_of_eval hp hs heval
  have hge := rank_le_of_best (S := selector) (matchesTarget_self hp) hmem' hd
  have hrank : d.2 = specificityRank path := Nat.le_antisymm hle hge
  exact ⟨d.1, by rw [heval, ← hrank]; rfl⟩

/-- A decision of a path's own rank at its own target is its last policy. -/
theorem last_of_eval {rules : List GmapRule} {path : GmapPath} {policy : Policy}
    (hp : path.Parsed) (h : evalPolicy rules path = some ⟨policy, specificityRank path⟩) :
    last (entries rules) path = some policy := by
  rw [evalPolicy_eq_best, Option.map_eq_some_iff] at h
  obtain ⟨⟨v, n⟩, hbest, heq⟩ := h
  cases heq
  exact last_of_best (S := selector) (matchesTarget_self hp) hbest

/-! ## Reading rendered rules -/

/-- A path that its own text, written into a line, denotes. -/
structure ReadsBack (path : GmapPath) : Prop where
  lineSafe : LineSafe path.toString
  not_underscore : path ≠ .packUnderscore

/-- The entries the rendered line of a rule contributes. -/
def ruleReads (rule : GmapRule) : Option (List (GmapPath × Policy)) :=
  readLines (split '\n' (ruleLine rule.path.toString rule.policy))

theorem split_append_newline (s t : String) :
    split '\n' (s ++ "\n" ++ t) = split '\n' s ++ split '\n' t := by
  simp only [split, String.toList_append, List.append_assoc]
  rw [show "\n".toList = ['\n'] from rfl, List.singleton_append,
    List.splitOn_append_cons_self, List.map_append]

theorem split_of_not_mem {s : String} (h : '\n' ∉ s.toList) : split '\n' s = [s] := by
  rw [split, List.splitOn_eq_singleton h, List.map_singleton, String.ofList_toList]

theorem newline_not_mem_ruleLine {text : String} (policy : Policy) (h : '\n' ∉ text.toList) :
    '\n' ∉ (ruleLine text policy).toList := by
  rw [toList_ruleLine, List.mem_append, not_or]
  exact ⟨h, newline_not_mem_policySuffix policy⟩

/-- A line-safe path reads back from its rule line. -/
theorem readLines_ruleLine {text : String} {path : GmapPath} (policy : Policy)
    (hsafe : LineSafe text) (hp : (parsePath text 0).toOption = some path) :
    readLines (split '\n' (ruleLine text policy)) = some [(path, policy)] := by
  rw [split_of_not_mem (newline_not_mem_ruleLine policy hsafe.no_newline)]
  simp only [readLines, readLine_ruleLine policy hsafe hp]
  rfl

theorem renderRules_cons (rule : GmapRule) (rules : List GmapRule) :
    renderRules (rule :: rules)
      = ruleLine rule.path.toString rule.policy ++ "\n" ++ renderRules rules := by
  have hfold : ∀ (rs : List GmapRule) (s : String),
      rs.foldl (fun output rule => output ++ (ruleLine rule.path.toString rule.policy ++ "\n")) s
        = s ++ renderRules rs := by
    intro rs
    induction rs with
    | nil => intro s; simp [renderRules]
    | cons r rs ih =>
      intro s
      have hrender : renderRules (r :: rs)
          = ruleLine r.path.toString r.policy ++ "\n" ++ renderRules rs := by
        show List.foldl _ _ (r :: rs) = _
        rw [List.foldl_cons, ih, String.empty_append]
      rw [List.foldl_cons, ih, hrender, String.append_assoc]
  show List.foldl _ _ (rule :: rules) = _
  rw [List.foldl_cons, hfold, String.empty_append]

/-- A rendered file reads rule by rule. -/
theorem readLines_renderRules_cons (rule : GmapRule) (rules : List GmapRule) :
    readLines (split '\n' (renderRules (rule :: rules)))
      = (ruleReads rule).bind fun here =>
          (readLines (split '\n' (renderRules rules))).map fun later => here ++ later := by
  rw [renderRules_cons, split_append_newline, readLines_append]
  rfl

theorem ruleReads_of_readsBack {rule : GmapRule} (hp : rule.path.Parsed)
    (h : ReadsBack rule.path) : ruleReads rule = some [rule.entry] := by
  rw [ruleReads, split_of_not_mem (newline_not_mem_ruleLine _ h.lineSafe.no_newline)]
  simp only [readLines, readLine_ruleLine rule.policy h.lineSafe
    (parsePath_toString hp h.not_underscore 0), Option.bind_eq_bind, Option.bind_some,
    List.append_nil]
  rfl

/-- Rules that read back are read back in order. -/
theorem readLines_renderRules {rules : List GmapRule} (hp : ∀ rule ∈ rules, rule.path.Parsed)
    (h : ∀ rule ∈ rules, ReadsBack rule.path) :
    readLines (split '\n' (renderRules rules)) = some (entries rules) := by
  induction rules with
  | nil => decide
  | cons rule rules ih =>
    rw [readLines_renderRules_cons,
      ruleReads_of_readsBack (hp rule List.mem_cons_self) (h rule List.mem_cons_self),
      ih (fun r hr => hp r (List.mem_cons_of_mem rule hr))
        (fun r hr => h r (List.mem_cons_of_mem rule hr))]
    rfl

/-- Every entry of a rendered file was read from the line of one of its rules. -/
theorem mem_readLines_renderRules {rules : List GmapRule} {es : List (GmapPath × Policy)}
    {entry : GmapPath × Policy} (h : readLines (split '\n' (renderRules rules)) = some es)
    (hmem : entry ∈ es) : ∃ rule ∈ rules, ∃ here, ruleReads rule = some here ∧ entry ∈ here := by
  induction rules generalizing es with
  | nil =>
    rw [show readLines (split '\n' (renderRules [])) = some [] from by decide] at h
    cases h
    cases hmem
  | cons rule rules ih =>
    rw [readLines_renderRules_cons] at h
    obtain ⟨here, hhere, hrest⟩ := Option.bind_eq_some_iff.mp h
    obtain ⟨later, hlater, rfl⟩ := Option.map_eq_some_iff.mp hrest
    rcases List.mem_append.mp hmem with hmem | hmem
    · exact ⟨rule, List.mem_cons_self, here, hhere, hmem⟩
    · obtain ⟨rule', hrule', hreads⟩ := ih hlater hmem
      exact ⟨rule', List.mem_cons_of_mem rule hrule', hreads⟩

/-! ## The canonical rewrite -/

/-- The rules after `upsert_rule`. -/
def upserted (rules : List GmapRule) (path : GmapPath) (policy : Policy) : List GmapRule :=
  (setFirst path policy rules).getD (rules ++ [⟨path, policy, rules.length + 1⟩])

theorem upsertRule_eq {rules : List GmapRule} {rulePath : String} {path : GmapPath}
    (policy : Policy) (h : parsePath rulePath 0 = .ok path) :
    upsertRule rules rulePath policy = .ok (upserted rules path policy) := by
  unfold upsertRule upserted
  rw [h]
  cases hset : setFirst path policy rules <;> simp [hset, bind, Except.bind, pure, Except.pure]

theorem setFirst_eq_some {path : GmapPath} {policy : Policy} {rules rules' : List GmapRule}
    (h : setFirst path policy rules = some rules') :
    ∃ front rule back, rules = front ++ rule :: back ∧ rule.path = path
      ∧ path ∉ front.map GmapRule.path
      ∧ rules' = front ++ { rule with policy } :: back := by
  induction rules generalizing rules' with
  | nil => cases h
  | cons rule rules ih =>
    unfold setFirst at h
    split at h
    next heq =>
      cases h
      exact ⟨[], rule, rules, rfl, heq, List.not_mem_nil, rfl⟩
    next hne =>
      obtain ⟨rest, hrest, rfl⟩ := Option.map_eq_some_iff.mp h
      obtain ⟨front, r, back, rfl, hpath, hfront, rfl⟩ := ih hrest
      refine ⟨rule :: front, r, back, rfl, hpath, ?_, rfl⟩
      simp only [List.map_cons, List.mem_cons, not_or]
      exact ⟨fun h => hne h.symm, hfront⟩

theorem setFirst_eq_none {path : GmapPath} {policy : Policy} {rules : List GmapRule}
    (h : setFirst path policy rules = none) : path ∉ rules.map GmapRule.path := by
  induction rules with
  | nil => exact List.not_mem_nil
  | cons rule rules ih =>
    unfold setFirst at h
    split at h
    next => cases h
    next hne =>
      simp only [List.map_cons, List.mem_cons, not_or]
      exact ⟨fun h => hne h.symm, ih (Option.map_eq_none_iff.mp h)⟩

theorem mem_upserted {rules : List GmapRule} {path x : GmapPath} {policy : Policy} :
    x ∈ (upserted rules path policy).map GmapRule.path
      ↔ x = path ∨ x ∈ rules.map GmapRule.path := by
  unfold upserted
  cases h : setFirst path policy rules with
  | none =>
    simp only [Option.getD_none, List.map_append, List.mem_append, List.map_cons, List.map_nil,
      List.mem_singleton]
    exact Or.comm
  | some rules' =>
    obtain ⟨front, rule, back, rfl, rfl, -, rfl⟩ := setFirst_eq_some h
    simp only [Option.getD_some, List.map_append, List.map_cons, List.mem_append, List.mem_cons]
    tauto

/-- The last policies after `upsert_rule`: those of an appended rule, unless a second rule
of the path follows the one changed. -/
theorem last_upserted (rules : List GmapRule) (path x : GmapPath) (policy : Policy) :
    last (entries (upserted rules path policy)) x
      = if x = path then
          (if (rules.map GmapRule.path).count path ≤ 1 then some policy
            else last (entries rules) path)
        else last (entries rules) x := by
  unfold upserted
  cases h : setFirst path policy rules with
  | none =>
    have hnot := setFirst_eq_none h
    rw [Option.getD_none, entries_append, last_append, entries_cons, entries_nil, last_singleton,
      List.count_eq_zero_of_not_mem hnot]
    by_cases hx : x = path
    · simp [hx]
    · simp [hx, Ne.symm hx]
  | some rules' =>
    obtain ⟨front, rule, back, rfl, rfl, hfront, rfl⟩ := setFirst_eq_some h
    simp only [Option.getD_some, entries_append, entries_cons, last_append, last_cons]
    by_cases hx : x = rule.path
    · subst hx
      simp only [List.map_append, List.map_cons, List.count_append,
        List.count_eq_zero_of_not_mem hfront, List.count_cons_self, Nat.zero_add, ↓reduceIte]
      by_cases hback : rule.path ∈ back.map GmapRule.path
      · have hcount := List.count_pos_iff.mpr hback
        have hsome : (last (entries back) rule.path).isSome = true :=
          last_isSome.mpr (by rwa [map_fst_entries])
        obtain ⟨v, hv⟩ := Option.isSome_iff_exists.mp hsome
        rw [if_neg (by omega), hv]
        rfl
      · have hnone : last (entries back) rule.path = none :=
          last_eq_none.mpr (by rwa [map_fst_entries])
        rw [if_pos (by rw [List.count_eq_zero_of_not_mem hback]), hnone]
        rfl
    · simp [hx, Ne.symm hx]

theorem last_sortRules (rules : List GmapRule) (path : GmapPath) :
    last (entries (sortRules rules)) path = last (entries rules) path := by
  apply last_insertionSort GmapRule.entry
  intro a b hab
  have hpath : a.path = b.path := hab
  rw [hpath]
  simp [keyLe]

theorem mem_sortRules {rules : List GmapRule} {rule : GmapRule} :
    rule ∈ sortRules rules ↔ rule ∈ rules :=
  (List.perm_insertionSort _ rules).mem_iff

end Gmap
