import GreenticOperator.Laws.Gmap.Preserve

/-!
# When an edit is faithful

`Upserts` is what allowing or forbidding a path is for: the rewritten file parses, every
decision is the one a rule appended to the file would give, and the path itself gets the
policy. `UpsertSafe` is a condition on the file and the path under which both rewrites
deliver that (`upserts_of_safe`): each is read back as entries, and the last policy of
every path is compared with the one after an appended rule.
-/

namespace Gmap

open Text LastWins

/-- Writing `policy` for `text` acts on decisions as a rule appended to the file does, and
decides its own target. -/
def Upserts (contents text : String) (rules : List GmapRule) (path : GmapPath)
    (policy : Policy) : Prop :=
  ∃ output rules', upsertPolicy (some contents) text policy = .ok output
    ∧ parseStr output = .ok rules'
    ∧ (∀ target, evalPolicy rules' target = overriddenBy path policy target (evalPolicy rules target))
    ∧ (evalPolicy rules' path).map MatchDecision.policy = some policy

/-- The first rule that prints as the path text is the last one of the path, and losing its
own path leaves that path a later rule. -/
def FirstIsLast (text : String) (rules : List GmapRule) (path : GmapPath) : Prop :=
  match rules.dropWhile (fun rule => rule.path.toString != text) with
  | [] => True
  | rule :: later => path ∉ later.map GmapRule.path
      ∧ (rule.path = path ∨ rule.path ∈ later.map GmapRule.path)

/-- The condition under which an edit is faithful. -/
def UpsertSafe (contents text : String) (rules : List GmapRule) (path : GmapPath) : Prop :=
  ¬ Shadowed path (rules.map GmapRule.path)
    ∧ if containsCommentsOrBlanks contents then
        LineSafe text ∧ FirstIsLast text rules path
      else
        (∀ p, p = path ∨ p ∈ rules.map GmapRule.path → ReadsBack p)
          ∧ (rules.map GmapRule.path).count path ≤ 1

/-! ## The condition is enough -/

theorem evalPolicy_entries_congr {xs ys : List GmapRule} {es : List (GmapPath × Policy)}
    (hx : entries xs = es) (h : ∀ path, last es path = last (entries ys) path)
    (target : GmapPath) : evalPolicy xs target = evalPolicy ys target :=
  evalPolicy_congr (fun path => by rw [hx]; exact h path) target

/-- An appended rule decides its own target unless the path is shadowed. -/
theorem overriddenBy_self {rules : List GmapRule} {path : GmapPath} (policy : Policy)
    (hp : path.Parsed) (hs : ¬ Shadowed path (rules.map GmapRule.path)) :
    overriddenBy path policy path (evalPolicy rules path)
      = some ⟨policy, specificityRank path⟩ := by
  unfold overriddenBy
  rw [if_pos ⟨matchesTarget_self hp, fun d hd => rank_le_of_eval hp hs hd⟩]

/-- Reading back as the old entries with the new policy last is all an edit needs. -/
theorem upserts_of_read {contents text : String} {rules : List GmapRule} {path : GmapPath}
    {policy : Policy} {output : String} {es : List (GmapPath × Policy)} (hp : path.Parsed)
    (hs : ¬ Shadowed path (rules.map GmapRule.path))
    (hout : upsertPolicy (some contents) text policy = .ok output)
    (hread : readLines (split '\n' output) = some es)
    (hlast : ∀ p, last es p = if p = path then some policy else last (entries rules) p) :
    Upserts contents text rules path policy := by
  obtain ⟨rules', hparse, hentries⟩ := exists_parseStr hread
  have heval : ∀ target, evalPolicy rules' target
      = overriddenBy path policy target (evalPolicy rules target) := by
    intro target
    rw [← evalPolicy_append rules ⟨path, policy, 0⟩ target]
    refine evalPolicy_entries_congr hentries (fun p => ?_) target
    rw [hlast, entries_append, last_append, entries_cons, entries_nil, last_singleton]
    by_cases hpath : p = path
    · simp [hpath]
    · simp [hpath, Ne.symm hpath]
  refine ⟨output, rules', hout, hparse, heval, ?_⟩
  rw [heval, overriddenBy_self policy hp hs]
  rfl

theorem dropWhile_entries (text : String) (rules : List GmapRule) :
    (entries rules).dropWhile (fun entry => entry.1.toString != text)
      = entries (rules.dropWhile fun rule => rule.path.toString != text) := by
  rw [entries, List.dropWhile_map]
  rfl

theorem takeWhile_entries (text : String) (rules : List GmapRule) :
    (entries rules).takeWhile (fun entry => entry.1.toString != text)
      = entries (rules.takeWhile fun rule => rule.path.toString != text) := by
  rw [entries, List.takeWhile_map]
  rfl

/-- The last policies after the rewrite that keeps lines, where the new line reads as `here`. -/
theorem last_spliced (text : String) (here : List (GmapPath × Policy)) (rules : List GmapRule)
    (p : GmapPath) :
    last (spliced text here (entries rules)) p
      = match rules.dropWhile (fun rule => rule.path.toString != text) with
        | [] => (last here p).or (last (entries rules) p)
        | _ :: later => (last (entries later) p).or ((last here p).or
            (last (entries (rules.takeWhile fun rule => rule.path.toString != text)) p)) := by
  unfold spliced
  rw [dropWhile_entries, takeWhile_entries]
  cases rules.dropWhile (fun rule => rule.path.toString != text) with
  | nil => simp only [entries_nil, last_append]
  | cons rule later => simp only [entries_cons, last_append, Option.or_assoc]

/-- The last policies before it. -/
theorem last_cut (text : String) {rules later : List GmapRule} {rule : GmapRule} (p : GmapPath)
    (h : rules.dropWhile (fun rule => rule.path.toString != text) = rule :: later) :
    last (entries rules) p
      = (last (entries later) p).or ((if rule.path = p then some rule.policy else none).or
          (last (entries (rules.takeWhile fun rule => rule.path.toString != text)) p)) := by
  conv_lhs => rw [← List.takeWhile_append_dropWhile (l := rules)
    (p := fun rule => rule.path.toString != text), h]
  rw [entries_append, entries_cons, last_append, last_cons, Option.or_assoc]

theorem last_entries_eq_none {rules : List GmapRule} {p : GmapPath} :
    last (entries rules) p = none ↔ p ∉ rules.map GmapRule.path := by
  rw [last_eq_none, map_fst_entries]

/-- Replacing the first rule of the printed path, which is also the last of the path, is
appending one. -/
theorem last_spliced_of_firstIsLast {text : String} {rules : List GmapRule} {path : GmapPath}
    (policy : Policy) (h : FirstIsLast text rules path) (p : GmapPath) :
    last (spliced text [(path, policy)] (entries rules)) p
      = if p = path then some policy else last (entries rules) p := by
  unfold FirstIsLast at h
  rw [last_spliced, last_singleton]
  cases hcut : rules.dropWhile (fun rule => rule.path.toString != text) with
  | nil =>
    by_cases hp : p = path
    · simp [hp]
    · simp [hp, Ne.symm hp]
  | cons rule later =>
    rw [hcut] at h
    obtain ⟨hlater, hown⟩ := h
    simp only
    by_cases hp : p = path
    · subst hp
      rw [last_entries_eq_none.mpr hlater]
      simp
    · rw [last_cut text p hcut]
      simp only [Ne.symm hp, hp, ↓reduceIte, Option.none_or]
      by_cases hrule : rule.path = p
      · -- The rule that was replaced was not the last of its own path.
        have hsome : (last (entries later) p).isSome = true := by
          rw [Option.isSome_iff_ne_none, Ne, last_entries_eq_none, not_not, ← hrule]
          exact hown.resolve_left fun heq => hp (hrule ▸ heq)
        obtain ⟨v, hv⟩ := Option.isSome_iff_exists.mp hsome
        simp [hv]
      · simp [hrule]

theorem entry_mem_entries {rules : List GmapRule} {rule : GmapRule} (h : rule ∈ rules) :
    (rule.path, rule.policy) ∈ entries rules := List.mem_map_of_mem h

/-- The rule line a path of a parsed file was read from. -/
theorem exists_line {contents : String} {rules : List GmapRule} {rule : GmapRule}
    (h : parseStr contents = .ok rules) (hmem : rule ∈ rules) :
    ∃ line ∈ split '\n' contents,
      (parsePath (trim (splitOnce '=' (trim line)).1) 0).toOption = some rule.path := by
  obtain ⟨line, hline, here, hread, hin⟩ := mem_readLines (parseStr_ok h) (entry_mem_entries hmem)
  exact ⟨line, hline, (readLine_mem hread hin).2⟩

theorem parsed_of_parseStr {contents : String} {rules : List GmapRule} {path : GmapPath}
    (h : parseStr contents = .ok rules) (hmem : path ∈ rules.map GmapRule.path) : path.Parsed := by
  obtain ⟨rule, hrule, rfl⟩ := List.mem_map.mp hmem
  obtain ⟨line, -, hpath⟩ := exists_line h hrule
  exact parsed_of_parsePath hpath

/-- What `upsert_policy` writes on the canonical branch. -/
theorem upsertPolicy_canonical {contents text : String} {rules : List GmapRule} {path : GmapPath}
    (policy : Policy) (hb : containsCommentsOrBlanks contents = false)
    (hc : parseStr contents = .ok rules) (hp : parsePath text 0 = .ok path) :
    upsertPolicy (some contents) text policy
      = .ok (renderRules (sortRules (upserted rules path policy))) := by
  simp only [upsertPolicy, Option.getD_some, hb, Bool.false_eq_true, ↓reduceIte, hc,
    upsertRule_eq policy hp, bind, Except.bind]
  rfl

theorem upsertPolicy_preserving {contents text : String} (policy : Policy)
    (hb : containsCommentsOrBlanks contents = true) :
    upsertPolicy (some contents) text policy = upsertPreservingLines contents text policy := by
  simp only [upsertPolicy, Option.getD_some, hb, ↓reduceIte]

theorem mem_sorted_upserted {rules : List GmapRule} {path : GmapPath} {policy : Policy}
    {rule : GmapRule} (h : rule ∈ sortRules (upserted rules path policy)) :
    rule.path = path ∨ rule.path ∈ rules.map GmapRule.path :=
  mem_upserted.mp (List.mem_map_of_mem (mem_sortRules.mp h))

/-- The canonical rewrite of rules that read back reads as the sorted rules. -/
theorem readLines_canonical {rules : List GmapRule} {path : GmapPath} (policy : Policy)
    (hparsed : ∀ p, p = path ∨ p ∈ rules.map GmapRule.path → p.Parsed)
    (hback : ∀ p, p = path ∨ p ∈ rules.map GmapRule.path → ReadsBack p) :
    readLines (split '\n' (renderRules (sortRules (upserted rules path policy))))
      = some (entries (sortRules (upserted rules path policy))) :=
  readLines_renderRules (fun _ h => hparsed _ (mem_sorted_upserted h))
    fun _ h => hback _ (mem_sorted_upserted h)

theorem upserts_of_safe {contents text : String} {rules : List GmapRule} {path : GmapPath}
    (hc : parseStr contents = .ok rules) (hp : parsePath text 0 = .ok path)
    (h : UpsertSafe contents text rules path) (policy : Policy) :
    Upserts contents text rules path policy := by
  obtain ⟨hs, hbranch⟩ := h
  have hpath := parsePath_toOption_some hp
  have hparsed := parsed_of_parsePath hpath
  cases hb : containsCommentsOrBlanks contents with
  | true =>
    rw [hb, if_pos rfl] at hbranch
    obtain ⟨hsafe, hfirst⟩ := hbranch
    obtain ⟨output, hout, hread⟩ := upsertPreservingLines_read text policy (parseStr_ok hc)
    rw [readLines_ruleLine policy hsafe hpath] at hread
    rw [← upsertPolicy_preserving policy hb] at hout
    exact upserts_of_read hparsed hs hout hread (last_spliced_of_firstIsLast policy hfirst)
  | false =>
    rw [hb, if_neg Bool.false_ne_true] at hbranch
    obtain ⟨hback, hcount⟩ := hbranch
    have hall : ∀ p, p = path ∨ p ∈ rules.map GmapRule.path → p.Parsed := by
      rintro p (rfl | hmem)
      · exact hparsed
      · exact parsed_of_parseStr hc hmem
    refine upserts_of_read hparsed hs (upsertPolicy_canonical policy hb hc hp)
      (readLines_canonical policy hall hback) fun p => ?_
    rw [last_sortRules, last_upserted, if_pos hcount]

/-!
## What an edit decides at its own path

An edit changes the first rule of its path, and the rules after it keep their say
(`laterRules`). Where the edited file can be read back rule by rule (`Legible`), the decision
at the path is the last of those, or else the policy written (`decides_at_path`).
-/

/-- The file is read back after an edit as the rules it was meant to hold, and no rule for a
whole pack comes before the path. -/
structure Legible (contents text : String) (rules : List GmapRule) (path : GmapPath) : Prop where
  unshadowed : ¬ Shadowed path (rules.map GmapRule.path)
  safe : LineSafe text
  own : ReadsBack path
  others : containsCommentsOrBlanks contents = false →
    ∀ p ∈ rules.map GmapRule.path, ReadsBack p

/-- The rules after the one that an edit changes. -/
def laterRules (contents text : String) (rules : List GmapRule) (path : GmapPath) :
    List GmapRule :=
  if containsCommentsOrBlanks contents then
    (rules.dropWhile fun rule => rule.path.toString != text).tail
  else (rules.dropWhile fun rule => rule.path != path).tail

theorem mem_spliced {text : String} {here es : List (GmapPath × Policy)}
    {entry : GmapPath × Policy} (h : entry ∈ spliced text here es) : entry ∈ here ∨ entry ∈ es := by
  unfold spliced at h
  have hdrop := List.dropWhile_suffix (l := es) fun entry => entry.1.toString != text
  have htake := List.takeWhile_prefix (l := es) fun entry => entry.1.toString != text
  split at h
  next =>
    exact (List.mem_append.mp h).symm
  next first after hcut =>
    rw [hcut] at hdrop
    rcases List.mem_append.mp h with h | h
    · exact .inr (htake.subset h)
    · rcases List.mem_append.mp h with h | h
      · exact .inl h
      · exact .inr (hdrop.subset (List.mem_cons_of_mem first h))

theorem exists_cons_split {α : Type*} {x : α} {l : List α} {P : α → List α → Prop} :
    (∃ front a back, x :: l = front ++ a :: back ∧ P a back)
      ↔ P x l ∨ ∃ front a back, l = front ++ a :: back ∧ P a back := by
  constructor
  · rintro ⟨front, a, back, heq, hp⟩
    cases front with
    | nil =>
      obtain ⟨rfl, rfl⟩ := List.cons.inj heq
      exact .inl hp
    | cons y front => exact .inr ⟨front, a, back, (List.cons.inj heq).2, hp⟩
  · rintro (hp | ⟨front, a, back, rfl, hp⟩)
    · exact ⟨[], x, l, rfl, hp⟩
    · exact ⟨x :: front, a, back, rfl, hp⟩

theorem any_linesOf (pieces : List (List Char)) :
    (linesOf pieces).any (fun line => skipsLine (trim (String.ofList line))) = true
      ↔ ∃ front piece back, pieces = front ++ piece :: back
        ∧ skipsLine (trim (String.ofList piece)) = true ∧ (piece ≠ [] ∨ back ≠ []) := by
  induction pieces with
  | nil => simp [linesOf]
  | cons piece rest ih =>
    rw [exists_cons_split]
    cases rest with
    | nil =>
      by_cases hnil : piece = []
      · simp [linesOf, hnil]
      · simp [linesOf, hnil]
    | cons next rest =>
      rw [← ih, linesOf, List.any_cons, Bool.or_eq_true]
      have htrim : trim (String.ofList (stripCr piece)) = trim (String.ofList piece) := by
        simp only [trim, String.toList_ofList, trimChars_stripCr]
      rw [htrim]
      simp

/-- A file has comments or blank lines where one of its pieces is skipped, other than an empty one at
its end. -/
theorem containsCommentsOrBlanks_iff {contents : String} :
    containsCommentsOrBlanks contents = true
      ↔ ∃ front piece back, split '\n' contents = front ++ piece :: back
        ∧ skipsLine (trim piece) = true ∧ (piece ≠ "" ∨ back ≠ []) := by
  unfold containsCommentsOrBlanks lines
  rw [List.any_map]
  refine (any_linesOf _).trans ⟨?_, ?_⟩
  · rintro ⟨front, piece, back, hsplit, hskip, hlast⟩
    refine ⟨front.map String.ofList, String.ofList piece, back.map String.ofList, ?_, hskip, ?_⟩
    · rw [split, hsplit, List.map_append, List.map_cons]
    · exact hlast.imp (fun h heq => h (String.ofList_injective heq)) fun h heq => h (List.map_eq_nil_iff.mp heq)
  · rintro ⟨front, piece, back, hsplit, hskip, hlast⟩
    have hchars := congrArg (List.map String.toList) hsplit
    rw [split, List.map_map, List.map_append, List.map_cons] at hchars
    simp only [Function.comp_def, String.toList_ofList, List.map_id'] at hchars
    refine ⟨_, _, _, hchars, by rwa [String.ofList_toList], ?_⟩
    exact hlast.imp (fun h heq => h (String.toList_eq_nil_iff.mp heq)) fun h heq => h (List.map_eq_nil_iff.mp heq)

/-- Only the pack `_` prints as a text that denotes another path. -/
theorem eq_packUnderscore_of_toString {text : String} {path other : GmapPath}
    (hp : (parsePath text 0).toOption = some path) (hother : other.Parsed)
    (htext : other.toString = text) (hne : other ≠ path) :
    other = .packUnderscore ∧ path = .global := by
  by_cases hunderscore : other = .packUnderscore
  · subst hunderscore
    subst htext
    refine ⟨rfl, ?_⟩
    have hglobal : (parsePath GmapPath.packUnderscore.toString 0).toOption = some .global := by
      decide
    rw [hglobal, Option.some.injEq] at hp
    exact hp.symm
  · have hself := parsePath_toString hother hunderscore 0
    rw [htext, hp, Option.some.injEq] at hself
    exact absurd hself.symm hne

/-! ### The kind of the file -/

/-- A text that ends with a line feed, or gets one, is cut into the same pieces and no other rule. -/
theorem split_closed {ls : List String} (hne : ls ≠ []) (hpieces : ∀ l ∈ ls, '\n' ∉ l.toList) :
    ∃ tail, split '\n' (if endsWithChar '\n' (joinWith '\n' ls) then joinWith '\n' ls
      else joinWith '\n' ls ++ "\n") = ls ++ tail := by
  split
  · exact ⟨[], by rw [split_joinWith hne hpieces, List.append_nil]⟩
  · refine ⟨[""], ?_⟩
    have h := split_append_newline (joinWith '\n' ls) ""
    rw [String.append_empty] at h
    rw [h, split_joinWith hne hpieces]
    rfl

/-- A piece stays where another one is replaced. -/
theorem exists_split_of_replaced {α : Type*} {front back front' back' : List α} {a b : α} (c : α)
    (h : front ++ a :: back = front' ++ b :: back') (hne : a ≠ b) :
    ∃ before after, front' ++ c :: back' = before ++ a :: after ∧ (back ≠ [] → after ≠ []) := by
  rcases List.append_eq_append_iff.mp h with ⟨middle, rfl, hrest⟩ | ⟨middle, rfl, hrest⟩
  · cases middle with
    | nil => exact absurd (List.cons.inj hrest).1 hne
    | cons d middle =>
      obtain ⟨rfl, -⟩ := List.cons.inj hrest
      exact ⟨front, middle ++ c :: back', by simp, fun _ => by simp⟩
  · cases middle with
    | nil => exact absurd (List.cons.inj hrest).1.symm hne
    | cons d middle =>
      obtain ⟨rfl, rfl⟩ := List.cons.inj hrest
      exact ⟨front' ++ c :: middle, back, by simp, id⟩

/-- A file with comments or blank lines keeps one. -/
theorem containsCommentsOrBlanks_preserving {contents text output : String} {rules : List GmapRule}
    {policy : Policy} (hsafe : LineSafe text) (hb : containsCommentsOrBlanks contents = true)
    (hc : parseStr contents = .ok rules) (hout : upsertPreservingLines contents text policy = .ok output) :
    containsCommentsOrBlanks output = true := by
  obtain ⟨front, piece, back, hsplit, hskip, hlast⟩ := containsCommentsOrBlanks_iff.mp hb
  have hpieces : ∀ l ∈ split '\n' contents, '\n' ∉ l.toList := fun _ => newline_not_mem_split
  have hline := newline_not_mem_ruleLine policy hsafe.no_newline
  have hkeeps : ∀ ls before after, ls = before ++ piece :: after → (piece ≠ "" ∨ after ≠ []) →
      (∀ l ∈ ls, '\n' ∉ l.toList) → containsCommentsOrBlanks (if endsWithChar '\n' (joinWith '\n' ls) then
        joinWith '\n' ls else joinWith '\n' ls ++ "\n") = true := by
    rintro ls before after rfl hend hall
    obtain ⟨tail, htail⟩ := split_closed (by simp) hall
    refine containsCommentsOrBlanks_iff.mpr ⟨before, piece, after ++ tail, ?_, hskip, ?_⟩
    · rw [htail, List.append_assoc, List.cons_append]
    · exact hend.imp id fun hne heq => hne (List.append_eq_nil_iff.mp heq).1
  unfold upsertPreservingLines at hout
  rcases replaceLine_read text policy (parseStr_ok hc) with
    ⟨hkeep, -⟩ | ⟨front', line, back', entry, after, hls, hrep, hfront, hback, hdrop⟩
  · rw [hkeep] at hout
    obtain rfl := Except.ok.inj hout
    simp only [Bool.false_eq_true, if_false]
    generalize split '\n' contents = ls at hsplit hpieces
    subst hsplit
    split
    · refine hkeeps _ front (back ++ [""] ++ [ruleLine text policy]) (by simp) (.inr (by simp)) ?_
      simp only [List.mem_append, List.mem_singleton]
      rintro l ((hl | rfl) | rfl)
      · exact hpieces l (List.mem_append.mpr hl)
      · decide
      · exact hline
    · refine hkeeps _ front (back ++ [ruleLine text policy]) (by simp) (.inr (by simp)) ?_
      simp only [List.mem_append, List.mem_singleton]
      rintro l (hl | rfl)
      · exact hpieces l (List.mem_append.mpr hl)
      · exact hline
  · -- The line that is replaced carries a rule, so it is not the piece that is skipped.
    have hread := parseStr_ok hc
    rw [hls, readLines_append, hfront] at hread
    have hother : piece ≠ line := by
      rintro rfl
      simp only [readLines, readLine, hskip, if_true, hback, Option.bind_some, Option.bind_eq_bind,
        Option.pure_def, List.nil_append, Option.map_some, Option.some.injEq] at hread
      have hcut := List.append_cancel_left (hread.trans (List.takeWhile_append_dropWhile
        (l := entries rules) (p := fun entry => entry.1.toString != text)).symm)
      rw [hdrop] at hcut
      exact List.cons_ne_self entry after hcut.symm
    obtain ⟨before, later, hreplaced, hlater⟩ :=
      exists_split_of_replaced (ruleLine text policy) (hsplit.symm.trans hls) hother
    rw [hrep] at hout
    obtain rfl := Except.ok.inj hout
    simp only [if_true]
    refine hkeeps _ before later hreplaced (hlast.imp id hlater) fun l hl => ?_
    rw [hls] at hpieces
    rcases List.mem_append.mp hl with hl | hl
    · exact hpieces l (List.mem_append_left _ hl)
    · rcases List.mem_cons.mp hl with rfl | hl
      · exact hline
      · exact hpieces l (List.mem_append_right _ (List.mem_cons_of_mem line hl))

/-- Rules that read back are written without comments and blank lines. -/
theorem containsCommentsOrBlanks_renderRules {rules : List GmapRule} (hp : ∀ rule ∈ rules, rule.path.Parsed)
    (h : ∀ rule ∈ rules, ReadsBack rule.path) : containsCommentsOrBlanks (renderRules rules) = false := by
  have hsplit : split '\n' (renderRules rules)
      = rules.map (fun rule => ruleLine rule.path.toString rule.policy) ++ [""] := by
    induction rules with
    | nil => decide
    | cons rule rules ih =>
      have hrule := newline_not_mem_ruleLine rule.policy (h rule List.mem_cons_self).lineSafe.no_newline
      rw [renderRules_cons, split_append_newline, split_of_not_mem hrule,
        ih (fun r hr => hp r (List.mem_cons_of_mem rule hr)) fun r hr => h r (List.mem_cons_of_mem rule hr)]
      rfl
  rw [Bool.eq_false_iff]
  intro hb
  obtain ⟨front, piece, back, hpieces, hskip, hlast⟩ := containsCommentsOrBlanks_iff.mp hb
  rw [hsplit] at hpieces
  have hmem : piece ∈ rules.map fun rule => ruleLine rule.path.toString rule.policy := by
    rcases hlast with hne | hne
    · have hin : piece ∈ rules.map (fun rule => ruleLine rule.path.toString rule.policy) ++ [""] :=
        hpieces ▸ List.mem_append_right front List.mem_cons_self
      exact (List.mem_append.mp hin).resolve_right fun hempty => hne (List.mem_singleton.mp hempty)
    · have hdrop := congrArg List.dropLast hpieces
      rw [List.dropLast_concat, List.dropLast_append_of_ne_nil (List.cons_ne_nil _ _),
        List.dropLast_cons_of_ne_nil hne] at hdrop
      rw [hdrop]
      exact List.mem_append_right front List.mem_cons_self
  obtain ⟨rule, hrule, rfl⟩ := List.mem_map.mp hmem
  have hsafe := (h rule hrule).lineSafe
  have hne := ne_empty_of_parsePath (parsePath_toString (hp rule hrule) (h rule hrule).not_underscore 0)
  rw [trim_ruleLine rule.policy hsafe.trimmed hne, skipsLine_ruleLine rule.policy hne, hsafe.no_hash] at hskip
  cases hskip

/-! ### The entries after an edit -/

/-- The entries with the first one of a path replaced, or with one added at the end. -/
def setEntry (path : GmapPath) (policy : Policy) : List (GmapPath × Policy) → List (GmapPath × Policy)
  | [] => [(path, policy)]
  | entry :: rest =>
    if entry.1 = path then (path, policy) :: rest else entry :: setEntry path policy rest

theorem entries_setFirst (rules : List GmapRule) (path : GmapPath) (policy : Policy) :
    (setFirst path policy rules).elim (entries rules ++ [(path, policy)]) entries
      = setEntry path policy (entries rules) := by
  induction rules with
  | nil => rfl
  | cons rule rules ih =>
    rw [setFirst, entries_cons, setEntry]
    by_cases hpath : rule.path = path
    · rw [if_pos hpath, if_pos hpath, Option.elim_some, entries_cons, hpath]
    · rw [if_neg hpath, if_neg hpath, ← ih]
      cases setFirst path policy rules with
      | none => rfl
      | some rules' => rfl

theorem entries_upserted (rules : List GmapRule) (path : GmapPath) (policy : Policy) :
    entries (upserted rules path policy) = setEntry path policy (entries rules) := by
  rw [← entries_setFirst, upserted]
  cases setFirst path policy rules with
  | none => exact entries_append _ _
  | some rules' => rfl

/-- What a file is read as after an edit that is read back, from what it was read as: the line is
replaced in place, or the rules are sorted. -/
def editedEntries (keepsLines : Bool) (text : String) (path : GmapPath) (policy : Policy)
    (es : List (GmapPath × Policy)) : List (GmapPath × Policy) :=
  if keepsLines then spliced text [(path, policy)] es
  else (setEntry path policy es).insertionSort fun a b => keyLe (canonicalKey a.1) (canonicalKey b.1) = true

theorem entries_sortRules (rules : List GmapRule) :
    entries (sortRules rules)
      = (entries rules).insertionSort fun a b => keyLe (canonicalKey a.1) (canonicalKey b.1) = true :=
  List.map_insertionSort _ _ _ _ fun _ _ _ _ => Iff.rfl

theorem mem_editedEntries {keepsLines : Bool} {text : String} {path : GmapPath} {policy : Policy}
    {es : List (GmapPath × Policy)} {entry : GmapPath × Policy}
    (h : entry ∈ editedEntries keepsLines text path policy es) : entry = (path, policy) ∨ entry ∈ es := by
  have hset : ∀ es : List (GmapPath × Policy), entry ∈ setEntry path policy es →
      entry = (path, policy) ∨ entry ∈ es := by
    intro es
    induction es with
    | nil => exact fun h => .inl (List.mem_singleton.mp h)
    | cons other es ih =>
      rw [setEntry]
      split
      · exact fun h => (List.mem_cons.mp h).imp id (List.mem_cons_of_mem other)
      · rintro (_ | ⟨_, h⟩)
        · exact .inr List.mem_cons_self
        · exact (ih h).imp id (List.mem_cons_of_mem other)
  unfold editedEntries at h
  split at h
  · exact (mem_spliced h).imp List.mem_singleton.mp id
  · exact hset es ((List.mem_insertionSort _).mp h)

/-- **What an edited file is read as.** -/
theorem readLines_edited {contents text output : String} {rules : List GmapRule} {path : GmapPath}
    {policy : Policy} (hc : parseStr contents = .ok rules) (hp : parsePath text 0 = .ok path)
    (h : Legible contents text rules path) (hout : upsertPolicy (some contents) text policy = .ok output) :
    readLines (split '\n' output)
        = some (editedEntries (containsCommentsOrBlanks contents) text path policy (entries rules))
      ∧ containsCommentsOrBlanks output = containsCommentsOrBlanks contents := by
  have hpath := parsePath_toOption_some hp
  unfold editedEntries
  cases hb : containsCommentsOrBlanks contents with
  | true =>
    rw [upsertPolicy_preserving policy hb] at hout
    obtain ⟨output', hout', hread⟩ := upsertPreservingLines_read text policy (parseStr_ok hc)
    obtain rfl := Except.ok.inj (hout.symm.trans hout')
    rw [readLines_ruleLine policy h.safe hpath] at hread
    exact ⟨hread, containsCommentsOrBlanks_preserving h.safe hb hc hout⟩
  | false =>
    obtain rfl := Except.ok.inj ((upsertPolicy_canonical policy hb hc hp).symm.trans hout)
    have hback : ∀ p, p = path ∨ p ∈ rules.map GmapRule.path → ReadsBack p := by
      rintro p (rfl | hmem)
      · exact h.own
      · exact h.others hb p hmem
    have hall : ∀ p, p = path ∨ p ∈ rules.map GmapRule.path → p.Parsed := by
      rintro p (rfl | hmem)
      · exact parsed_of_parsePath hpath
      · exact parsed_of_parseStr hc hmem
    refine ⟨(readLines_canonical policy hall hback).trans ?_, ?_⟩
    · rw [entries_sortRules, entries_upserted]
      rfl
    · exact containsCommentsOrBlanks_renderRules (fun _ hr => hall _ (mem_sorted_upserted hr))
        fun _ hr => hback _ (mem_sorted_upserted hr)

/-! ### The rules after the edited one -/

theorem filter_tail_dropWhile {α : Type*} (p : α → Bool) (l : List α) :
    ((l.dropWhile fun a => !p a).tail).filter p = (l.filter p).tail := by
  induction l with
  | nil => rfl
  | cons a l ih =>
    cases h : p a with
    | false => rw [List.dropWhile_cons_of_pos (by simp [h]), List.filter_cons_of_neg (by simp [h]), ih]
    | true =>
      rw [List.dropWhile_cons_of_neg (by simp [h]), List.filter_cons_of_pos h]
      rfl

/-- The entries after the one that an edit changes. -/
def laterEntries (keepsLines : Bool) (text : String) (path : GmapPath) (es : List (GmapPath × Policy)) :
    List (GmapPath × Policy) :=
  if keepsLines then (es.dropWhile fun entry => entry.1.toString != text).tail
  else (es.dropWhile fun entry => entry.1 != path).tail

theorem entries_laterRules (contents text : String) (rules : List GmapRule) (path : GmapPath) :
    entries (laterRules contents text rules path)
      = laterEntries (containsCommentsOrBlanks contents) text path (entries rules) := by
  unfold laterRules laterEntries entries
  split
  · rw [List.map_tail, List.dropWhile_map]
    rfl
  · rw [List.map_tail, List.dropWhile_map]
    rfl

/-- The last policy after the first entry of a path, where the entries are sorted. -/
theorem last_laterEntries_sorted (text : String) (path : GmapPath) (es : List (GmapPath × Policy)) :
    last (laterEntries false text path
        (es.insertionSort fun a b => keyLe (canonicalKey a.1) (canonicalKey b.1) = true)) path
      = last (laterEntries false text path es) path := by
  have hlast : ∀ l : List (GmapPath × Policy), last (laterEntries false text path l) path
      = ((l.filter fun entry => decide (entry.1 = path)).tail.getLast?).map Prod.snd := by
    intro l
    rw [← filter_tail_dropWhile]
    rfl
  rw [hlast, hlast, StableSort.filter_insertionSort_of_tie]
  intro a b ha hb
  rw [of_decide_eq_true ha, of_decide_eq_true hb]
  simp [keyLe]

theorem laterEntries_setEntry (text : String) (path : GmapPath) (policy : Policy) (es : List (GmapPath × Policy)) :
    laterEntries false text path (setEntry path policy es) = laterEntries false text path es := by
  have hskip : ∀ {entry : GmapPath × Policy} {rest : List (GmapPath × Policy)}, entry.1 ≠ path →
      laterEntries false text path (entry :: rest) = laterEntries false text path rest := fun hne =>
    congrArg List.tail (List.dropWhile_cons_of_pos (bne_iff_ne.mpr hne))
  have hfirst : ∀ {policy : Policy} {rest : List (GmapPath × Policy)},
      laterEntries false text path ((path, policy) :: rest) = rest := fun {policy} {rest} =>
    congrArg List.tail (@List.dropWhile_cons_of_neg _ _ (path, policy) rest (by simp))
  induction es with
  | nil => exact hfirst
  | cons entry es ih =>
    rw [setEntry]
    by_cases hpath : entry.1 = path
    · obtain ⟨own, before⟩ := entry
      obtain rfl : own = path := hpath
      rw [if_pos rfl, hfirst, hfirst]
    · rw [if_neg hpath, hskip hpath, hskip hpath, ih]

/-- An edit leaves the rules after the edited one their say. -/
theorem last_laterEntries_edited {text : String} {path : GmapPath} (hp : (parsePath text 0).toOption = some path)
    (keepsLines : Bool) (policy : Policy) {es : List (GmapPath × Policy)} (hparsed : ∀ entry ∈ es, entry.1.Parsed) :
    last (laterEntries keepsLines text path (editedEntries keepsLines text path policy es)) path
      = last (laterEntries keepsLines text path es) path := by
  cases keepsLines with
  | false =>
    rw [editedEntries, if_neg Bool.false_ne_true, last_laterEntries_sorted, laterEntries_setEntry]
  | true =>
    have hfront : ∀ entry ∈ es.takeWhile (fun entry => entry.1.toString != text),
        (entry.1.toString != text) = true := fun entry hentry =>
      List.mem_takeWhile_imp (p := fun entry : GmapPath × Policy => entry.1.toString != text) hentry
    unfold editedEntries laterEntries spliced
    simp only [if_true]
    cases hcut : es.dropWhile (fun entry => entry.1.toString != text) with
    | nil =>
      rw [List.dropWhile_append_of_pos (List.dropWhile_eq_nil_iff.mp hcut)]
      cases h : (path.toString != text) with
      | true => rw [List.dropWhile_cons_of_pos (p := fun entry : GmapPath × Policy => entry.1.toString != text) h]; rfl
      | false =>
        rw [List.dropWhile_cons_of_neg (p := fun entry : GmapPath × Policy => entry.1.toString != text) (by simp [h])]
        rfl
    | cons entry after =>
      -- The rule that is replaced prints as the text, and so does its path.
      have hmem : entry ∈ es := (List.dropWhile_suffix _).subset (hcut ▸ List.mem_cons_self)
      have hprints : entry.1.toString = text := by
        have h := List.head?_dropWhile_not (fun entry : GmapPath × Policy => entry.1.toString != text) es
        rw [hcut] at h
        simpa using h
      have hown : path.toString = text := by
        by_cases hsame : entry.1 = path
        · rw [← hsame, hprints]
        · obtain ⟨hunderscore, rfl⟩ := eq_packUnderscore_of_toString hp (hparsed entry hmem) hprints hsame
          rw [← hprints, hunderscore]
          rfl
      rw [List.dropWhile_append_of_pos hfront, List.singleton_append,
        List.dropWhile_cons_of_neg (p := fun entry : GmapPath × Policy => entry.1.toString != text) (by simp [hown])]
      rfl

/-- **An edited file can be edited again**, with the same rules after the one that is changed. -/
theorem Legible.again {contents text output : String} {rules : List GmapRule} {path : GmapPath}
    {policy : Policy} (hc : parseStr contents = .ok rules) (hp : parsePath text 0 = .ok path)
    (h : Legible contents text rules path) (hout : upsertPolicy (some contents) text policy = .ok output) :
    ∃ rules', parseStr output = .ok rules' ∧ Legible output text rules' path
      ∧ entries rules' = editedEntries (containsCommentsOrBlanks contents) text path policy (entries rules)
      ∧ last (entries (laterRules output text rules' path)) path
        = last (entries (laterRules contents text rules path)) path := by
  obtain ⟨hread, hkind⟩ := readLines_edited hc hp h hout
  obtain ⟨rules', hparse, hentries⟩ := exists_parseStr hread
  have hpaths : ∀ p ∈ rules'.map GmapRule.path, p = path ∨ p ∈ rules.map GmapRule.path := by
    intro p hmem
    rw [← map_fst_entries, hentries] at hmem
    obtain ⟨entry, hentry, rfl⟩ := List.mem_map.mp hmem
    rcases mem_editedEntries hentry with rfl | hold
    · exact .inl rfl
    · rw [← map_fst_entries]
      exact .inr (List.mem_map_of_mem hold)
  refine ⟨rules', hparse, ⟨?_, h.safe, h.own, fun hb p hmem => ?_⟩, hentries, ?_⟩
  · rintro ⟨hflow, hnode, hpack⟩
    rcases hpaths _ hpack with hown | hold
    · rw [← hown] at hflow
      cases hflow
    · exact h.unshadowed ⟨hflow, hnode, hold⟩
  · rcases hpaths p hmem with rfl | hold
    · exact h.own
    · exact h.others (hkind.symm.trans hb) p hold
  · rw [entries_laterRules, entries_laterRules, hkind, hentries]
    refine last_laterEntries_edited (parsePath_toOption_some hp) _ policy fun entry hentry => ?_
    refine parsed_of_parseStr hc ?_
    rw [← map_fst_entries]
    exact List.mem_map_of_mem hentry

end Gmap
