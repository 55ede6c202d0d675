import GreenticOperator.Laws.Gmap.Faithful
import Mathlib.Logic.Function.Basic

/-!
# Runs of edits

A gmap file stands for an access map, which gives paths their policies; what is decided at a target is the
policy of the most specific path of the map that matches it. An edit updates the map at one path
(`Holds.edit`), in a file with comments as in one without, so a run of edits leads to the map they update
one after another (`runEdits_refines`), and only the last edit of each path counts. No edit loses a comment
(`comments_kept`).
-/

namespace Gmap

open Text LastWins

/-! ## Access maps -/

/-- The policies that paths are given. -/
abbrev AccessMap := GmapPath → Option Policy

/-- What a map decides at a target. -/
def AccessMap.decide (map : AccessMap) (target : GmapPath) : Option MatchDecision :=
  (decision selector map target).map MatchDecision.ofPair

/-- Rules decide as the map of the last policies of their paths. -/
theorem evalPolicy_eq_decide (rules : List GmapRule) (target : GmapPath) :
    evalPolicy rules target = AccessMap.decide (last (entries rules)) target := by
  rw [evalPolicy_eq_best, best_eq_decision]
  rfl

/-- An edit of a path that its own text denotes. -/
structure Edit where
  path : GmapPath
  policy : Policy
  parsed : path.Parsed
  readsBack : ReadsBack path

def Edit.update (map : AccessMap) (edit : Edit) : AccessMap :=
  Function.update map edit.path (some edit.policy)

/-- The file that edits leave, one after another; each is made with `upsert_policy`. -/
def runEdits (file : Option String) (edits : List Edit) : Except String (Option String) :=
  edits.foldlM (fun file edit => some <$> upsertPolicy file edit.path.toString edit.policy) file

/-- A file with one rule for each path of the map and no other, each read back from its own text. Where there
is no file, the map is empty. -/
structure Holds (file : Option String) (map : AccessMap) : Prop where
  read : ∃ rules, parseStr (file.getD "") = .ok rules ∧ (rules.map GmapRule.path).Nodup
    ∧ (∀ path ∈ rules.map GmapRule.path, ReadsBack path) ∧ last (entries rules) = map

theorem holds_none : Holds none fun _ => none :=
  ⟨[], rfl, List.nodup_nil, fun _ h => absurd h List.not_mem_nil, rfl⟩

/-! ## One edit -/

theorem toString_inj {path other : GmapPath} (hp : path.Parsed) (ho : other.Parsed)
    (hback : ReadsBack path) (hother : ReadsBack other) (h : path.toString = other.toString) : path = other := by
  have hpath := parsePath_toString hp hback.not_underscore 0
  rw [h, parsePath_toString ho hother.not_underscore 0, Option.some.injEq] at hpath
  exact hpath.symm

theorem parsePath_of_readsBack {path : GmapPath} (hp : path.Parsed) (hback : ReadsBack path) :
    parsePath path.toString 0 = .ok path := by
  have hpath := parsePath_toString hp hback.not_underscore 0
  cases h : parsePath path.toString 0 with
  | error err =>
    rw [h] at hpath
    cases hpath
  | ok other =>
    rw [h] at hpath
    exact congrArg Except.ok (Option.some.inj hpath)

section Step

variable {rules : List GmapRule} {path : GmapPath} {policy : Policy}

/-- The rules up to the first that prints as a path, that one, which is of the path, and those after it. -/
theorem exists_cut (hparsed : ∀ p ∈ rules.map GmapRule.path, p.Parsed)
    (hback : ∀ p ∈ rules.map GmapRule.path, ReadsBack p) (hp : path.Parsed) (hown : ReadsBack path)
    {rule : GmapRule} {later : List GmapRule}
    (hcut : rules.dropWhile (fun rule => rule.path.toString != path.toString) = rule :: later) :
    rule.path = path ∧ rules = rules.takeWhile (fun rule => rule.path.toString != path.toString) ++ rule :: later := by
  have hmem : rule ∈ rules := (List.dropWhile_suffix _).subset (hcut ▸ List.mem_cons_self)
  have hhead := List.head?_dropWhile_not (fun rule : GmapRule => rule.path.toString != path.toString) rules
  rw [hcut] at hhead
  have htext : rule.path.toString = path.toString := by simpa using hhead
  have hrule := List.mem_map_of_mem (f := GmapRule.path) hmem
  refine ⟨toString_inj (hparsed _ hrule) hp (hback _ hrule) hown htext, ?_⟩
  conv_lhs => rw [← List.takeWhile_append_dropWhile (l := rules)
    (p := fun rule => rule.path.toString != path.toString), hcut]

/-- Where no path has two rules, the first one of a path is its last. -/
theorem firstIsLast_of_nodup (hnodup : (rules.map GmapRule.path).Nodup)
    (hparsed : ∀ p ∈ rules.map GmapRule.path, p.Parsed)
    (hback : ∀ p ∈ rules.map GmapRule.path, ReadsBack p) (hp : path.Parsed) (hown : ReadsBack path) :
    FirstIsLast path.toString rules path := by
  unfold FirstIsLast
  cases hcut : rules.dropWhile (fun rule => rule.path.toString != path.toString) with
  | nil => trivial
  | cons rule later =>
    obtain ⟨hrule, hrules⟩ := exists_cut hparsed hback hp hown hcut
    rw [hrules, List.map_append, List.map_cons, hrule] at hnodup
    exact ⟨(List.nodup_cons.mp (List.nodup_append.mp hnodup).2.1).1, .inl hrule⟩

/-- The line of a path is changed in its place, or put after the others. -/
theorem nodup_spliced (hnodup : (rules.map GmapRule.path).Nodup)
    (hparsed : ∀ p ∈ rules.map GmapRule.path, p.Parsed)
    (hback : ∀ p ∈ rules.map GmapRule.path, ReadsBack p) (hp : path.Parsed) (hown : ReadsBack path) :
    ((spliced path.toString [(path, policy)] (entries rules)).map Prod.fst).Nodup := by
  unfold spliced
  rw [dropWhile_entries, takeWhile_entries]
  cases hcut : rules.dropWhile (fun rule => rule.path.toString != path.toString) with
  | nil =>
    rw [List.dropWhile_eq_nil_iff] at hcut
    simp only [entries_nil]
    rw [List.map_append, map_fst_entries, List.map_singleton, List.nodup_append]
    refine ⟨hnodup, List.nodup_singleton _, ?_⟩
    rintro p hmem q hq rfl
    rw [List.mem_singleton] at hq
    subst hq
    obtain ⟨rule, hrule, heq⟩ := List.mem_map.mp hmem
    have hne := hcut rule hrule
    rw [heq, bne_self_eq_false] at hne
    cases hne
  | cons rule later =>
    obtain ⟨hrule, hrules⟩ := exists_cut hparsed hback hp hown hcut
    rw [hrules, List.map_append, List.map_cons, hrule] at hnodup
    simp only [entries_cons]
    rw [List.map_append, List.map_append, map_fst_entries, map_fst_entries]
    exact hnodup

theorem nodup_upserted (hnodup : (rules.map GmapRule.path).Nodup) :
    ((upserted rules path policy).map GmapRule.path).Nodup := by
  unfold upserted
  cases h : setFirst path policy rules with
  | none =>
    rw [Option.getD_none, List.map_append, List.map_singleton, List.nodup_append]
    refine ⟨hnodup, List.nodup_singleton _, ?_⟩
    rintro p hmem q hq rfl
    rw [List.mem_singleton] at hq
    have hpath : p = path := hq
    exact setFirst_eq_none h (hpath ▸ hmem)
  | some rules' =>
    obtain ⟨front, rule, back, rfl, rfl, -, rfl⟩ := setFirst_eq_some h
    rw [Option.getD_some, List.map_append, List.map_cons]
    rwa [List.map_append, List.map_cons] at hnodup

end Step

/-- The entries a file is read back as say which map it holds. -/
theorem holds_of_read {output : String} {es : List (GmapPath × Policy)} {map : AccessMap}
    (hread : readLines (split '\n' output) = some es) (hnodup : (es.map Prod.fst).Nodup)
    (hback : ∀ path ∈ es.map Prod.fst, ReadsBack path) (hlast : last es = map) : Holds (some output) map := by
  obtain ⟨rules, hparse, rfl⟩ := exists_parseStr hread
  rw [map_fst_entries] at hnodup hback
  exact ⟨rules, hparse, hnodup, hback, hlast⟩

/-- **One edit** updates the map that a file holds. -/
theorem Holds.edit {file : Option String} {map : AccessMap} (h : Holds file map) (edit : Edit) :
    ∃ output, upsertPolicy file edit.path.toString edit.policy = .ok output
      ∧ Holds (some output) (edit.update map) := by
  obtain ⟨rules, hparse, hnodup, hback, rfl⟩ := h.read
  have hparsed : ∀ p ∈ rules.map GmapRule.path, p.Parsed := fun p hp => parsed_of_parseStr hparse hp
  have hpath := parsePath_of_readsBack edit.parsed edit.readsBack
  have hlast : ∀ p, edit.update (last (entries rules)) p
      = if p = edit.path then some edit.policy else last (entries rules) p :=
    fun p => Function.update_apply _ _ _ _
  change ∃ output, upsertPolicy (some (file.getD "")) edit.path.toString edit.policy = .ok output ∧ _
  cases hb : containsCommentsOrBlanks (file.getD "") with
  | true =>
    obtain ⟨output, hout, hread⟩ :=
      upsertPreservingLines_read edit.path.toString edit.policy (parseStr_ok hparse)
    rw [readLines_ruleLine edit.policy edit.readsBack.lineSafe (parsePath_toOption_some hpath)] at hread
    refine ⟨output, (upsertPolicy_preserving edit.policy hb).trans hout, holds_of_read hread
      (nodup_spliced hnodup hparsed hback edit.parsed edit.readsBack) (fun p hp => ?_) (funext fun p => ?_)⟩
    · obtain ⟨entry, hentry, rfl⟩ := List.mem_map.mp hp
      rcases mem_spliced hentry with hnew | hold
      · rw [List.mem_singleton.mp hnew]
        exact edit.readsBack
      · exact hback _ (map_fst_entries rules ▸ List.mem_map_of_mem hold)
    · rw [hlast, last_spliced_of_firstIsLast edit.policy
        (firstIsLast_of_nodup hnodup hparsed hback edit.parsed edit.readsBack)]
  | false =>
    have hall : ∀ p, p = edit.path ∨ p ∈ rules.map GmapRule.path → p.Parsed ∧ ReadsBack p := by
      rintro p (rfl | hp)
      · exact ⟨edit.parsed, edit.readsBack⟩
      · exact ⟨hparsed p hp, hback p hp⟩
    refine ⟨_, upsertPolicy_canonical edit.policy hb hparse hpath, holds_of_read
      (readLines_canonical edit.policy (fun p hp => (hall p hp).1) fun p hp => (hall p hp).2) ?_ (fun p hp => ?_)
      (funext fun p => ?_)⟩
    · rw [map_fst_entries]
      exact ((List.perm_insertionSort _ _).map _).nodup_iff.mpr (nodup_upserted hnodup)
    · rw [map_fst_entries] at hp
      obtain ⟨rule, hrule, rfl⟩ := List.mem_map.mp hp
      exact (hall _ (mem_sorted_upserted hrule)).2
    · rw [last_sortRules, last_upserted, hlast, if_pos (List.nodup_iff_count_le_one.mp hnodup _)]

/-! ## A run -/

/-- The map after the edits. -/
def updates (map : AccessMap) (edits : List Edit) : AccessMap := edits.foldl Edit.update map

theorem runEdits_holds {file : Option String} {map : AccessMap} (h : Holds file map) (edits : List Edit) :
    ∃ output, runEdits file edits = .ok output ∧ Holds output (updates map edits) := by
  induction edits generalizing file map with
  | nil => exact ⟨file, rfl, h⟩
  | cons edit edits ih =>
    obtain ⟨output, hout, hholds⟩ := h.edit edit
    obtain ⟨final, hfinal, hend⟩ := ih hholds
    refine ⟨final, ?_, hend⟩
    rw [runEdits, List.foldlM_cons, hout]
    exact hfinal

def Edit.entry (edit : Edit) : GmapPath × Policy := (edit.path, edit.policy)

/-- After the edits a path has the policy of its last one, or the one it had. -/
theorem updates_apply (map : AccessMap) (edits : List Edit) (path : GmapPath) :
    updates map edits path = (last (edits.map Edit.entry) path).or (map path) := by
  induction edits generalizing map with
  | nil => rfl
  | cons edit edits ih =>
    rw [updates, List.foldl_cons, ← updates, ih, List.map_cons, last_cons, Option.or_assoc, Edit.update,
      Function.update_apply]
    by_cases h : path = edit.path
    · rw [if_pos h, if_pos (show edit.entry.1 = path from h.symm), Option.some_or]
      rfl
    · rw [if_neg h, if_neg (show ¬edit.entry.1 = path from fun heq => h heq.symm), Option.none_or]

/-- **A run of edits refines the map**: every edit is made, and afterwards a policy is decided at a target exactly
where the most specific matching path that was edited, or had a rule, has it: from its last edit, or else from the
file. -/
theorem runEdits_refines {file : Option String} {map : AccessMap} (h : Holds file map) (edits : List Edit) :
    ∃ output rules, runEdits file edits = .ok output ∧ parseStr (output.getD "") = .ok rules
      ∧ Holds output (updates map edits)
      ∧ ∀ target d, evalPolicy rules target = some d ↔ ∃ path, matchesTarget path target = true
        ∧ (last (edits.map Edit.entry) path).or (map path) = some d.policy ∧ specificityRank path = d.rank
        ∧ ∀ other, matchesTarget other target = true → d.rank < specificityRank other →
          (last (edits.map Edit.entry) other).or (map other) = none := by
  obtain ⟨output, hout, hholds⟩ := runEdits_holds h edits
  obtain ⟨rules, hparse, hnodup, hback, hlast⟩ := hholds.read
  refine ⟨output, rules, hout, hparse, hholds, fun target d => ?_⟩
  simp only [← updates_apply]
  rw [evalPolicy_eq_decide, hlast, AccessMap.decide]
  have hsome := @decision_eq_some_iff _ _ _ selector (updates map edits) target d.policy d.rank
  rw [selector_covers, selector_rank] at hsome
  rw [← hsome]
  constructor
  · intro heq
    obtain ⟨pair, hpair, rfl⟩ := Option.map_eq_some_iff.mp heq
    exact hpair
  · intro heq
    rw [heq]
    rfl

/-- The flow `main` of a pack is made public. -/
def publicMain : Edit where
  path := ⟨some "pack", some "main", none⟩
  policy := .Public
  parsed := .flow (by decide) (by decide) (by decide) (by decide)
  readsBack := ⟨⟨by decide, by decide, by decide, by decide⟩, by decide⟩

theorem holds_team : Holds (some "# team\n_ = forbidden\n")
    (Function.update (fun _ => none) GmapPath.global (some .Forbidden)) := by
  refine ⟨[⟨.global, .Forbidden, 2⟩], by decide, by decide, fun path hpath => ?_, funext fun path => ?_⟩
  · rw [List.map_singleton, List.mem_singleton] at hpath
    subst hpath
    exact ⟨⟨by decide, by decide, by decide, by decide⟩, by decide⟩
  · rw [entries_cons, entries_nil, last_singleton, Function.update_apply]
    simp only [eq_comm]

/-- A file with a comment, in which a flow of a pack is made public and the map forbids all else. -/
theorem runEdits_refines_team : ∃ output rules,
    runEdits (some "# team\n_ = forbidden\n") [publicMain] = .ok output ∧ parseStr (output.getD "") = .ok rules
      ∧ Holds output (updates (Function.update (fun _ => none) GmapPath.global (some .Forbidden)) [publicMain])
      ∧ ∀ target d, evalPolicy rules target = some d ↔ ∃ path, matchesTarget path target = true
        ∧ (last ([publicMain].map Edit.entry) path).or
          (Function.update (fun _ => none) GmapPath.global (some .Forbidden) path) = some d.policy
        ∧ specificityRank path = d.rank
        ∧ ∀ other, matchesTarget other target = true → d.rank < specificityRank other →
          (last ([publicMain].map Edit.entry) other).or
            (Function.update (fun _ => none) GmapPath.global (some .Forbidden) other) = none :=
  runEdits_refines holds_team [publicMain]

/-! ## Comments -/

def isComment (line : String) : Bool := startsWithChar '#' (trim line)

/-- The comment lines of a file. -/
def comments (contents : String) : List String := (split '\n' contents).filter isComment

theorem isComment_empty : isComment "" = false := by decide

theorem comments_append_newline (s : String) : comments (s ++ "\n") = comments s := by
  have h := split_append_newline s ""
  rw [String.append_empty] at h
  rw [comments, h, List.filter_append, show split '\n' "" = [""] from by decide, List.filter_singleton,
    isComment_empty]
  exact List.append_nil _

theorem isComment_of_not_skipped {line : String} (h : skipsLine (trim line) = false) : isComment line = false := by
  rw [skipsLine, Bool.or_eq_false_iff] at h
  exact h.2

/-- The walk over the lines keeps each comment. -/
theorem comments_of_replaceLine {text : String} {policy : Policy} {ls lines : List String} {updated : Bool}
    (hpieces : ∀ l ∈ ls, '\n' ∉ l.toList) (h : replaceLine text policy ls = .ok (lines, updated)) :
    (ls.filter isComment).Sublist ((lines.flatMap (split '\n')).filter isComment) := by
  induction ls generalizing lines updated with
  | nil => exact List.nil_sublist _
  | cons line ls ih =>
    have hline := split_of_not_mem (hpieces line List.mem_cons_self)
    have hrest := fun l hl => hpieces l (List.mem_cons_of_mem line hl)
    -- A line that is kept stays whole, and the walk goes on behind it.
    have hkept : ∀ {rest : List String} {found : Bool}, replaceLine text policy ls = .ok (rest, found) →
        ((line :: ls).filter isComment).Sublist (((line :: rest).flatMap (split '\n')).filter isComment) := by
      intro rest found hwalk
      rw [List.flatMap_cons, hline, List.filter_append, ← List.singleton_append, List.filter_append]
      exact (List.Sublist.refl _).append (ih hrest hwalk)
    rw [replaceLine] at h
    cases hskip : skipsLine (trim line) with
    | true =>
      rw [hskip, if_pos rfl] at h
      cases hwalk : replaceLine text policy ls with
      | error err =>
        rw [hwalk] at h
        cases h
      | ok walk =>
        rw [hwalk] at h
        cases h
        exact hkept hwalk
    | false =>
      rw [hskip, if_neg Bool.false_ne_true] at h
      cases hrule : parseRuleLine (trim line) 0 with
      | error err =>
        rw [hrule] at h
        cases h
      | ok rule =>
        rw [hrule] at h
        by_cases htext : rule.path.toString = text
        · simp only [bind, Except.bind, if_pos htext] at h
          cases h
          rw [List.filter_cons_of_neg (by rw [isComment_of_not_skipped hskip]; exact Bool.false_ne_true),
            List.flatMap_cons, flatMap_split_of_not_mem hrest, List.filter_append]
          exact List.sublist_append_right _ _
        · simp only [bind, Except.bind, if_neg htext] at h
          cases hwalk : replaceLine text policy ls with
          | error err =>
            rw [hwalk] at h
            cases h
          | ok walk =>
            rw [hwalk] at h
            cases h
            exact hkept hwalk

theorem comments_of_preserving {contents text output : String} {policy : Policy}
    (h : upsertPreservingLines contents text policy = .ok output) :
    (comments contents).Sublist (comments output) := by
  rw [upsertPreservingLines] at h
  cases hwalk : replaceLine text policy (split '\n' contents) with
  | error err =>
    rw [hwalk] at h
    cases h
  | ok walk =>
    obtain ⟨lines, updated⟩ := walk
    rw [hwalk] at h
    have hlines := comments_of_replaceLine (fun _ hl => newline_not_mem_split hl) hwalk
    -- Whatever is put behind the lines, the file ends with a line feed.
    have hclosed : ∀ {ls : List String}, (comments contents).Sublist ((ls.flatMap (split '\n')).filter isComment) →
        (comments contents).Sublist (comments
          (if endsWithChar '\n' (joinWith '\n' ls) then joinWith '\n' ls else joinWith '\n' ls ++ "\n")) := by
      intro ls hls
      have hjoined : (comments contents).Sublist (comments (joinWith '\n' ls)) := by
        cases ls with
        | nil => exact hls.trans (List.nil_sublist _)
        | cons l ls =>
          change (comments contents).Sublist ((split '\n' (joinWith '\n' (l :: ls))).filter isComment)
          rwa [split_joinWith_flatMap (by simp)]
      split
      · exact hjoined
      · rwa [comments_append_newline]
    simp only [bind, Except.bind, pure, Except.pure] at h
    cases h
    apply hclosed
    split
    · exact hlines
    · refine hlines.trans ?_
      split
      · rw [List.append_assoc, List.flatMap_append, List.filter_append]
        exact List.sublist_append_left _ _
      · rw [List.flatMap_append, List.filter_append]
        exact List.sublist_append_left _ _

/-- A file that is written anew has no comments. -/
theorem comments_eq_nil {contents : String} (h : containsCommentsOrBlanks contents = false) :
    comments contents = [] := by
  rw [comments, List.filter_eq_nil_iff]
  intro line hline hcomment
  obtain ⟨piece, hpiece, rfl⟩ := List.mem_map.mp hline
  obtain ⟨tail, htail, hshape⟩ := map_trim_linesOf (contents.toList.splitOn '\n')
  have hmem := List.mem_map_of_mem (f := trimChars) hpiece
  rw [← htail] at hmem
  rcases List.mem_append.mp hmem with hmem | hmem
  · obtain ⟨other, hother, heq⟩ := List.mem_map.mp hmem
    rw [containsCommentsOrBlanks, List.any_eq_false] at h
    refine h (String.ofList other) (List.mem_map_of_mem hother) ?_
    rw [skipsLine, Bool.or_eq_true]
    refine .inr ?_
    rw [isComment] at hcomment
    rwa [trim, String.toList_ofList, heq, ← String.toList_ofList (l := piece), ← trim]
  · rcases hshape with rfl | rfl
    · cases hmem
    · rw [List.mem_singleton] at hmem
      rw [isComment, trim, String.toList_ofList, hmem] at hcomment
      cases hcomment

/-- **No run of edits loses a comment**, whatever the paths are: those of the file are there afterwards, in
their order. -/
theorem comments_kept {file output : Option String} {edits : List (String × Policy)}
    (h : edits.foldlM (fun file edit => some <$> upsertPolicy file edit.1 edit.2) file = .ok output) :
    (comments (file.getD "")).Sublist (comments (output.getD "")) := by
  induction edits generalizing file with
  | nil =>
    cases h
    exact List.Sublist.refl _
  | cons edit edits ih =>
    rw [List.foldlM_cons] at h
    cases hstep : upsertPolicy file edit.1 edit.2 with
    | error err =>
      rw [hstep] at h
      cases h
    | ok written =>
      rw [hstep] at h
      refine List.Sublist.trans ?_ (ih h)
      cases hb : containsCommentsOrBlanks (file.getD "") with
      | true =>
        rw [upsertPolicy, hb, if_pos rfl] at hstep
        exact comments_of_preserving hstep
      | false =>
        rw [comments_eq_nil hb]
        exact List.nil_sublist _

theorem comments_kept_team :
    (comments "# team\n_ = forbidden\n").Sublist (comments "# team\n_ = forbidden\n\npack = public\n") :=
  @comments_kept (some "# team\n_ = forbidden\n") (some "# team\n_ = forbidden\n\npack = public\n")
    [("pack", .Public)] (by decide)

end Gmap
