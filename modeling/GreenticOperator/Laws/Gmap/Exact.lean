import GreenticOperator.Laws.Gmap.Faithful
import Mathlib.Data.Finset.Max

/-!
# The exact condition of a faithful edit

`upsert_faithful_iff`: an edit is faithful for both policies exactly where `UpsertSafe`
holds. A path whose last rule the rewrite does not reach keeps its policy, so it cannot
follow both. A path that does not read back is missed at its own target; that argument is
a descent on `GmapPath.weight`. Whatever is read from a line that does not read back
weighs less than the path of the line, so the heaviest such path would have to be read
from the line of a `pack/_` that its pack hides. The pack then weighs as much, and the line
of a `pack/_` never reads as a pack other than `_`.
-/

namespace Gmap

open Text LastWins

/-! ## Targets that show what was read -/

/-- A path that nothing in the file hides is read from the rewritten file. -/
theorem mem_paths_of_eval {rules rules' : List GmapRule} {path x : GmapPath} {policy : Policy}
    (hpath : path.Parsed) (hx : x.Parsed)
    (heval : evalPolicy rules' x = overriddenBy path policy x (evalPolicy rules x))
    (hmem : x = path ∨ x ∈ rules.map GmapRule.path)
    (hs : ¬ Shadowed x (path :: rules.map GmapRule.path)) :
    x ∈ rules'.map GmapRule.path := by
  have hs' : ¬ Shadowed x (rules.map GmapRule.path) :=
    fun h => hs ⟨h.1, h.2.1, List.mem_cons_of_mem path h.2.2⟩
  have hread : ∃ policy', evalPolicy rules' x = some ⟨policy', specificityRank x⟩ := by
    rw [heval]
    rcases hmem with rfl | hmem
    · exact ⟨policy, overriddenBy_self policy hx hs'⟩
    · obtain ⟨before, hbefore⟩ := eval_at_path hx hmem hs'
      unfold overriddenBy
      rw [hbefore]
      split
      next h =>
        obtain ⟨hm, hle⟩ := h
        have hle := hle _ rfl
        rcases rank_le_of_matches hx hm with hge | ⟨hflow, hnode, hpack⟩
        · exact ⟨policy, by rw [Nat.le_antisymm hge hle]⟩
        · exact absurd ⟨hflow, hnode, hpack ▸ List.mem_cons_self⟩ hs
      next => exact ⟨before, rfl⟩
  obtain ⟨policy', hread⟩ := hread
  rw [← map_fst_entries]
  exact mem_map_fst_of_last (last_of_eval hx hread)

/-- An edit that works for both policies is not hidden by a rule of the pack. -/
theorem not_shadowed_of_upserts {contents text : String} {rules : List GmapRule} {path : GmapPath}
    (hp : path.Parsed) (h : ∀ policy, Upserts contents text rules path policy) :
    ¬ Shadowed path (rules.map GmapRule.path) := by
  rintro ⟨hflow, hnode, hmem⟩
  have hcovers : selector.covers ⟨path.pack, none, none⟩ path = true := by
    cases hp <;> simp [matchesTarget] at hflow ⊢
  have hrank : specificityRank path < specificityRank ⟨path.pack, none, none⟩ := by
    cases hp <;> simp_all [specificityRank]
  rw [← map_fst_entries] at hmem
  obtain ⟨d, hd⟩ := Option.isSome_iff_exists.mp (best_isSome hcovers hmem)
  have hge := rank_le_of_best hcovers hmem hd
  have hbefore : evalPolicy rules path = some (MatchDecision.ofPair d) := by
    rw [evalPolicy_eq_best, hd]
    rfl
  have hkeeps : ∀ policy, overriddenBy path policy path (evalPolicy rules path)
      = some (MatchDecision.ofPair d) := by
    intro policy
    unfold overriddenBy
    rw [hbefore, if_neg]
    rintro ⟨-, hle⟩
    exact absurd (hle _ rfl) (Nat.not_le.mpr (Nat.lt_of_lt_of_le hrank hge))
  have hpolicy : ∀ policy, d.1 = policy := by
    intro policy
    obtain ⟨_, rules', -, -, heval, hself⟩ := h policy
    rw [heval, hkeeps, Option.map_some, Option.some.injEq] at hself
    exact hself
  exact absurd ((hpolicy .Public).symm.trans (hpolicy .Forbidden)) (by decide)

/-- What an edit reads back as ends, for its path, with its policy. -/
theorem last_of_upserts {contents text : String} {rules : List GmapRule} {path : GmapPath}
    {policy : Policy} (hp : path.Parsed) (hs : ¬ Shadowed path (rules.map GmapRule.path))
    (h : Upserts contents text rules path policy) :
    ∃ output es, upsertPolicy (some contents) text policy = .ok output
      ∧ readLines (split '\n' output) = some es ∧ last es path = some policy := by
  obtain ⟨output, rules', hout, hparse, heval, -⟩ := h
  refine ⟨output, entries rules', hout, parseStr_ok hparse, last_of_eval hp ?_⟩
  rw [heval, overriddenBy_self policy hp hs]

/-- Reading that does not depend on the policy written cannot follow it. -/
theorem false_of_last_const {contents text : String} {rules : List GmapRule} {path : GmapPath}
    (hp : path.Parsed) (h : ∀ policy, Upserts contents text rules path policy)
    (kept : Option Policy)
    (hconst : ∀ policy output es, upsertPolicy (some contents) text policy = .ok output →
      readLines (split '\n' output) = some es → last es path = kept) : False := by
  have hs := not_shadowed_of_upserts hp h
  have hkept : ∀ policy, kept = some policy := by
    intro policy
    obtain ⟨output, es, hout, hread, hlast⟩ := last_of_upserts hp hs (h policy)
    rw [← hconst policy output es hout hread, hlast]
  exact absurd ((hkept .Public).symm.trans (hkept .Forbidden)) (by decide)

/-! ## The rewrite that keeps lines -/

/-- The new line of a text that is not line safe never reads as the path of the text. -/
theorem last_eq_none_of_not_lineSafe {text : String} {path : GmapPath} {policy : Policy}
    {here : List (GmapPath × Policy)} (hp : (parsePath text 0).toOption = some path)
    (hsafe : ¬ LineSafe text)
    (hread : readLines (split '\n' (ruleLine text policy)) = some here) :
    last here path = none := by
  rw [last_eq_none]
  intro hmem
  obtain ⟨⟨_, policy'⟩, hentry, rfl⟩ := List.mem_map.mp hmem
  have hsize := size_of_mem_readLines hread hentry
  exact hsafe (hsize.2 (Nat.le_of_eq (size_parsePath hp).symm))

/-- The entries the rewrite that keeps lines reads back as. -/
theorem read_preserving {contents text : String} {rules : List GmapRule} {policy : Policy}
    {output : String} {es : List (GmapPath × Policy)}
    (hb : containsCommentsOrBlanks contents = true) (hc : parseStr contents = .ok rules)
    (hout : upsertPolicy (some contents) text policy = .ok output)
    (hread : readLines (split '\n' output) = some es) :
    ∃ here, readLines (split '\n' (ruleLine text policy)) = some here
      ∧ es = spliced text here (entries rules) := by
  obtain ⟨output', hout', hread'⟩ := upsertPreservingLines_read text policy (parseStr_ok hc)
  rw [upsertPolicy_preserving policy hb, hout', Except.ok.injEq] at hout
  subst hout
  rw [hread'] at hread
  obtain ⟨here, hhere, rfl⟩ := Option.map_eq_some_iff.mp hread
  exact ⟨here, hhere, rfl⟩

theorem lineSafe_of_upserts {contents text : String} {rules : List GmapRule} {path : GmapPath}
    (hb : containsCommentsOrBlanks contents = true) (hc : parseStr contents = .ok rules)
    (hp : (parsePath text 0).toOption = some path)
    (h : ∀ policy, Upserts contents text rules path policy) : LineSafe text := by
  by_contra hsafe
  apply false_of_last_const (parsed_of_parsePath hp) h <|
    if (rules.dropWhile fun rule => rule.path.toString != text).isEmpty then last (entries rules) path
    else (last (entries (rules.dropWhile fun rule => rule.path.toString != text).tail) path).or
      (last (entries (rules.takeWhile fun rule => rule.path.toString != text)) path)
  intro policy output es hout hread
  obtain ⟨here, hhere, rfl⟩ := read_preserving hb hc hout hread
  rw [last_spliced, last_eq_none_of_not_lineSafe hp hsafe hhere]
  cases rules.dropWhile (fun rule => rule.path.toString != text) <;> rfl

theorem firstIsLast_of_upserts {contents text : String} {rules : List GmapRule} {path : GmapPath}
    (hb : containsCommentsOrBlanks contents = true) (hc : parseStr contents = .ok rules)
    (hp : (parsePath text 0).toOption = some path)
    (h : ∀ policy, Upserts contents text rules path policy) : FirstIsLast text rules path := by
  have hsafe := lineSafe_of_upserts hb hc hp h
  have hparsed := parsed_of_parsePath hp
  have hspliced : ∀ policy output es, upsertPolicy (some contents) text policy = .ok output →
      readLines (split '\n' output) = some es →
      es = spliced text [(path, policy)] (entries rules) := by
    intro policy output es hout hread
    obtain ⟨here, hhere, rfl⟩ := read_preserving hb hc hout hread
    rw [readLines_ruleLine policy hsafe hp, Option.some.injEq] at hhere
    rw [hhere]
  unfold FirstIsLast
  cases hcut : rules.dropWhile (fun rule => rule.path.toString != text) with
  | nil => trivial
  | cons rule later =>
    have hmem : rule ∈ rules := List.dropWhile_subset _ (hcut ▸ List.mem_cons_self)
    have hprinted : rule.path.toString = text := by
      have := List.head?_dropWhile_not (fun rule : GmapRule => rule.path.toString != text) rules
      simpa [hcut] using this
    refine ⟨?_, ?_⟩
    · -- A later rule of the path would keep deciding.
      intro hlater
      have hsome : (last (entries later) path).isSome = true := by
        rw [Option.isSome_iff_ne_none, Ne, last_entries_eq_none, not_not]
        exact hlater
      apply false_of_last_const hparsed h (last (entries later) path)
      intro policy output es hout hread
      rw [hspliced policy output es hout hread, last_spliced, hcut]
      obtain ⟨v, hv⟩ := Option.isSome_iff_exists.mp hsome
      simp [hv]
    · by_contra hlost
      rw [not_or] at hlost
      obtain ⟨hne, hlater⟩ := hlost
      have hown := parsed_of_parseStr hc (List.mem_map_of_mem hmem)
      obtain ⟨hpack, hglobal⟩ := eq_packUnderscore_of_toString hp hown hprinted hne
      obtain ⟨output, rules', hout, hparse, heval, -⟩ := h .Public
      -- At the pack `_` the file had a decision of that pack, and the new file has none.
      have hread : rule.path ∈ rules'.map GmapRule.path := by
        refine mem_paths_of_eval hparsed hown (heval _) (.inr (List.mem_map_of_mem hmem)) ?_
        rintro ⟨hflow, -⟩
        rw [hpack] at hflow
        cases hflow
      rw [← map_fst_entries, hspliced .Public output _ hout (parseStr_ok hparse), ← last_isSome,
        last_spliced, hcut] at hread
      have hfront : last (entries (rules.takeWhile fun rule => rule.path.toString != text))
          rule.path = none := by
        rw [last_entries_eq_none]
        intro hin
        obtain ⟨other, hother, heq⟩ := List.mem_map.mp hin
        have := List.mem_takeWhile_imp hother
        rw [heq, hprinted] at this
        simp at this
      simp [last_entries_eq_none.mpr hlater, hfront, last_singleton, Ne.symm hne] at hread

/-! ## The canonical rewrite -/

/-- The size of a path, with the global path below the others of its size. -/
def GmapPath.weight (path : GmapPath) : Nat :=
  2 * path.size + if path = .global then 0 else 1

theorem weight_lt_of_size_lt {x y : GmapPath} (h : x.size < y.size) : x.weight < y.weight := by
  unfold GmapPath.weight
  split <;> split <;> omega

/-- A line that does not read back reads as something smaller, unless it is the one of the
pack `_`. -/
theorem size_lt_of_ruleReads {rule : GmapRule} {here : List (GmapPath × Policy)}
    {entry : GmapPath × Policy} (hread : ruleReads rule = some here) (hmem : entry ∈ here)
    (hback : ¬ ReadsBack rule.path) (hne : rule.path ≠ .packUnderscore) :
    entry.1.size < rule.path.size := by
  obtain ⟨hle, hsafe⟩ := size_of_mem_readLines hread hmem
  refine Nat.lt_of_le_of_ne hle fun heq => hback ⟨hsafe (Nat.le_of_eq heq.symm), hne⟩

theorem lineSafe_underscore : LineSafe "_" := ⟨by decide, by decide, by decide, by decide⟩

theorem weight_lt_of_ruleReads {rule : GmapRule} {here : List (GmapPath × Policy)}
    {entry : GmapPath × Policy} (hread : ruleReads rule = some here) (hmem : entry ∈ here)
    (hback : ¬ ReadsBack rule.path) : entry.1.weight < rule.path.weight := by
  by_cases hunderscore : rule.path = .packUnderscore
  · have hglobal : (parsePath "_" 0).toOption = some GmapPath.global := by decide
    have hline := readLines_ruleLine rule.policy lineSafe_underscore hglobal
    rw [ruleReads, hunderscore, show GmapPath.packUnderscore.toString = "_" from rfl, hline,
      Option.some.injEq] at hread
    subst hread
    rw [List.mem_singleton.mp hmem, hunderscore]
    show GmapPath.global.weight < GmapPath.packUnderscore.weight
    decide
  · exact weight_lt_of_size_lt (size_lt_of_ruleReads hread hmem hback hunderscore)

theorem toList_packAll (b : String) :
    (GmapPath.toString ⟨some b, some "_", none⟩).toList = b.toList ++ ['/', '_'] := by
  simp only [GmapPath.toString, String.toList_append, List.append_assoc]
  rfl

/-- A pack that reads back makes its `pack/_` read back. -/
theorem readsBack_packAll {b : String} (hb : b ≠ "") (h : ReadsBack ⟨some b, none, none⟩) :
    ReadsBack ⟨some b, some "_", none⟩ := by
  obtain ⟨⟨htrim, hnewline, hequals, hhash⟩, -⟩ := h
  simp only [GmapPath.toString] at htrim hnewline hequals hhash
  have hlist := toList_packAll b
  refine ⟨⟨?_, ?_, ?_, ?_⟩, by simp⟩
  · apply String.toList_injective
    rw [toList_trim, hlist]
    apply trimChars_eq_self_of_ends
    · intro c hc
      rw [List.head?_append_of_ne_nil _ (toList_ne_nil hb)] at hc
      exact head_of_trimmed htrim hc
    · intro c hc
      rw [List.getLast?_append] at hc
      cases hc
      decide
  · simp [hlist, hnewline]
  · simp [hlist, hequals]
  · rw [startsWithChar, hlist, List.head?_append_of_ne_nil _ (toList_ne_nil hb)]
    exact hhash

/-- Of the text of a `pack/_` only white space in front of the pack is lost. -/
theorem trimChars_packAll (chars : List Char) :
    trimChars (chars ++ ['/', '_']) = chars.dropWhile isWhitespace ++ ['/', '_'] := by
  conv_lhs => rw [← List.takeWhile_append_dropWhile (p := isWhitespace) (l := chars),
    List.append_assoc, trimChars_append_left fun c hc => List.mem_takeWhile_imp hc]
  apply trimChars_eq_self_of_ends
  · intro c hc
    cases hkept : chars.dropWhile isWhitespace with
    | nil =>
      rw [hkept] at hc
      cases hc
      decide
    | cons d rest =>
      have hd := List.head?_dropWhile_not isWhitespace chars
      rw [hkept] at hc hd
      cases hc
      simpa using hd
  · intro c hc
    rw [List.getLast?_append] at hc
    cases hc
    decide

/-- The line of a `pack/_` reads as a `pack/_` again, or as the pack `_`. -/
theorem ruleReads_packAll {b : String} {policy : Policy} {line : Nat}
    {here : List (GmapPath × Policy)} {entry : GmapPath × Policy}
    (hnewline : '\n' ∉ b.toList) (hequals : '=' ∉ b.toList) (hslash : '/' ∉ b.toList)
    (hread : ruleReads ⟨⟨some b, some "_", none⟩, policy, line⟩ = some here)
    (hmem : entry ∈ here) :
    entry.1.flow = some "_" ∨ entry.1 = .packUnderscore := by
  have hlist := toList_packAll b
  have hno : '\n' ∉ (GmapPath.toString ⟨some b, some "_", none⟩).toList := by
    simp [hlist, hnewline]
  unfold ruleReads at hread
  simp only [split_of_not_mem (newline_not_mem_ruleLine policy hno)] at hread
  obtain ⟨text, htext, here', hhere, hentry⟩ := mem_readLines hread hmem
  rw [List.mem_singleton] at htext
  subst htext
  obtain ⟨-, hpath⟩ := readLine_mem hhere hentry
  let kept := b.toList.dropWhile isWhitespace
  have htrim : trimChars (b.toList ++ ['/', '_']) = kept ++ ['/', '_'] := trimChars_packAll b.toList
  have hcut : trim (splitOnce '=' (trim (ruleLine
      (GmapPath.toString ⟨some b, some "_", none⟩) policy))).1 = String.ofList (kept ++ ['/', '_']) := by
    apply String.toList_injective
    rw [toList_trim, fst_splitOnce, String.toList_ofList, toList_trim, toList_ruleLine, hlist,
      String.toList_ofList, ← htrim]
    apply lineText_of_no_equals policy
    · rw [htrim]
      exact List.append_ne_nil_of_right_ne_nil _ (List.cons_ne_nil _ _)
    · intro h
      have := mem_of_mem_trimChars h
      simp [hequals] at this
  rw [hcut, parsePath_eq, if_neg] at hpath
  · have hkept : '/' ∉ kept := fun h => hslash (List.dropWhile_subset _ h)
    rw [segments, split, String.toList_ofList, splitOn_slash_append hkept,
      List.splitOn_eq_singleton (by decide)] at hpath
    by_cases hempty : String.ofList kept = ""
    · rw [List.map_cons, hempty] at hpath
      exact .inr (Option.some.inj hpath).symm
    · rw [List.map_cons, List.filter_cons, if_pos (bne_empty hempty)] at hpath
      exact .inl (by rw [← Option.some.inj hpath])
  · intro h
    have h := congrArg (fun s => '/' ∈ s.toList) h
    simp at h

/-- Everything the line of a rule of the list reads as. -/
def ReadFrom (paths : List GmapPath) (x : GmapPath) : Prop :=
  ∃ rule here policy, rule.path ∈ paths ∧ ruleReads rule = some here ∧ (x, policy) ∈ here

section Descent

variable {paths : List GmapPath}

/-- A path that nothing hides and that does not read back. -/
structure Lost (paths : List GmapPath) (x : GmapPath) : Prop where
  mem : x ∈ paths
  not_readsBack : ¬ ReadsBack x
  not_shadowed : ¬ Shadowed x paths

/-- Packs are never hidden. -/
theorem lost_pack {b : String} (hmem : ⟨some b, none, none⟩ ∈ paths)
    (hback : ¬ ReadsBack ⟨some b, none, none⟩) : Lost paths ⟨some b, none, none⟩ :=
  ⟨hmem, hback, fun h => nomatch h.1⟩

theorem eq_packAll_of_shadowed {x : GmapPath} (hx : x.Parsed) (h : Shadowed x paths) :
    ∃ b, x = ⟨some b, some "_", none⟩ ∧ b ≠ "" ∧ '/' ∉ b.toList
      ∧ ⟨some b, none, none⟩ ∈ paths := by
  obtain ⟨hflow, hnode, hmem⟩ := h
  cases hx with
  | global => cases hflow
  | pack => cases hflow
  | @flow p f h1 h2 h3 h4 =>
    cases hflow
    exact ⟨p, rfl, h1, h2, hmem⟩
  | node => cases hnode

/-- Where some path does not read back, some path is lost. -/
theorem exists_lost (hparsed : ∀ x ∈ paths, x.Parsed) {x : GmapPath} (hmem : x ∈ paths)
    (hback : ¬ ReadsBack x) : ∃ y, Lost paths y := by
  by_cases hs : Shadowed x paths
  · obtain ⟨b, rfl, hb, -, hpack⟩ := eq_packAll_of_shadowed (hparsed x hmem) hs
    exact ⟨_, lost_pack hpack fun h => hback (readsBack_packAll hb h)⟩
  · exact ⟨x, hmem, hback, hs⟩

theorem exists_heaviest {y : GmapPath} (hy : Lost paths y) :
    ∃ x, Lost paths x ∧ ∀ z, Lost paths z → z.weight ≤ x.weight := by
  classical
  have hne : (paths.toFinset.filter (Lost paths)).Nonempty :=
    ⟨y, Finset.mem_filter.mpr ⟨List.mem_toFinset.mpr hy.mem, hy⟩⟩
  obtain ⟨x, hx, hmax⟩ := Finset.exists_max_image _ GmapPath.weight hne
  refine ⟨x, (Finset.mem_filter.mp hx).2, fun z hz => hmax z ?_⟩
  exact Finset.mem_filter.mpr ⟨List.mem_toFinset.mpr hz.mem, hz⟩

/-- The heaviest lost path was read from the line of a `pack/_` its pack hides. -/
theorem heaviest_readFrom (hparsed : ∀ x ∈ paths, x.Parsed)
    (hread : ∀ x ∈ paths, ¬ Shadowed x paths → ReadFrom paths x) {x : GmapPath}
    (hx : Lost paths x) (hmax : ∀ z, Lost paths z → z.weight ≤ x.weight) :
    ∃ b policy line here policy', ruleReads ⟨⟨some b, some "_", none⟩, policy, line⟩ = some here
      ∧ (x, policy') ∈ here ∧ ¬ ReadsBack ⟨some b, some "_", none⟩
      ∧ b ≠ "" ∧ '/' ∉ b.toList ∧ ⟨some b, some "_", none⟩ ∈ paths
      ∧ ⟨some b, none, none⟩ ∈ paths := by
  obtain ⟨⟨source, policy, line⟩, here, policy', hsource, hreads, hmem⟩ :=
    hread x hx.mem hx.not_shadowed
  have hback : ¬ ReadsBack source := by
    intro h
    have hself : ruleReads ⟨source, policy, line⟩ = some [(source, policy)] :=
      ruleReads_of_readsBack (hparsed source hsource) h
    rw [hreads, Option.some.injEq] at hself
    rw [hself, List.mem_singleton] at hmem
    cases hmem
    exact hx.not_readsBack h
  have hshadowed : Shadowed source paths := by
    by_contra hs
    have hlt := weight_lt_of_ruleReads hreads hmem hback
    exact absurd (hmax source ⟨hsource, hback, hs⟩) (Nat.not_le.mpr hlt)
  obtain ⟨b, rfl, hb, hslash, hpack⟩ := eq_packAll_of_shadowed (hparsed source hsource) hshadowed
  exact ⟨b, policy, line, here, policy', hreads, hmem, hback, hb, hslash, hsource, hpack⟩

theorem size_packAll (b : String) :
    (⟨some b, some "_", none⟩ : GmapPath).size = (⟨some b, none, none⟩ : GmapPath).size + 1 := by
  simp only [GmapPath.size, GmapPath.toString, textSize_append, textSize_slash]
  rfl

/-- What is smaller than a `pack/_` is at most as heavy as the pack. -/
theorem weight_le_pack {x : GmapPath} {b : String}
    (h : x.size < GmapPath.size ⟨some b, some "_", none⟩) :
    x.weight ≤ GmapPath.weight ⟨some b, none, none⟩ := by
  rw [size_packAll] at h
  have hb : (⟨some b, none, none⟩ : GmapPath) ≠ .global := by simp
  unfold GmapPath.weight
  rw [if_neg hb]
  split <;> omega

/-- **Rules that can all be read are all read from their own lines.** -/
theorem readsBack_of_readFrom (hparsed : ∀ x ∈ paths, x.Parsed)
    (hread : ∀ x ∈ paths, ¬ Shadowed x paths → ReadFrom paths x)
    (hplain : ∀ b, ⟨some b, some "_", none⟩ ∈ paths → ⟨some b, none, none⟩ ∈ paths →
      '\n' ∉ b.toList ∧ '=' ∉ b.toList) :
    ∀ x ∈ paths, ReadsBack x := by
  intro y hy
  by_contra hback
  obtain ⟨y, hy⟩ := exists_lost hparsed hy hback
  obtain ⟨x, hx, hmax⟩ := exists_heaviest hy
  obtain ⟨b, policy, line, here, policy', hreads, hmem, hback, hb, hslash, hall, hpack⟩ :=
    heaviest_readFrom hparsed hread hx hmax
  have hlost := lost_pack hpack fun h => hback (readsBack_packAll hb h)
  -- The pack is as heavy as what was read from its `pack/_`, so it is a heaviest one too.
  have hsize := size_lt_of_ruleReads hreads hmem hback (by simp)
  have hheavy : x.weight ≤ GmapPath.weight ⟨some b, none, none⟩ := weight_le_pack hsize
  have hmax' : ∀ z, Lost paths z → z.weight ≤ GmapPath.weight ⟨some b, none, none⟩ := by
    intro z hz
    have := hmax z hz
    omega
  obtain ⟨b', policy2, line2, here2, policy2', hreads2, hmem2, -, -, hslash2, hall2, hpack2⟩ :=
    heaviest_readFrom hparsed hread hlost hmax'
  obtain ⟨hnewline, hequals⟩ := hplain b' hall2 hpack2
  rcases ruleReads_packAll hnewline hequals hslash2 hreads2 hmem2 with hflow | hname
  · cases hflow
  · cases hname
    exact hback ⟨⟨by decide, by decide, by decide, by decide⟩, by decide⟩

end Descent

/-- The pack of a rule of a parsed file holds neither a line feed nor `=`. -/
theorem pack_plain {contents : String} {rules : List GmapRule} {path : GmapPath} {b : String}
    (hc : parseStr contents = .ok rules) (hmem : path ∈ rules.map GmapRule.path)
    (hb : path.pack = some b) : '\n' ∉ b.toList ∧ '=' ∉ b.toList := by
  obtain ⟨rule, hrule, rfl⟩ := List.mem_map.mp hmem
  obtain ⟨line, hline, hpath⟩ := exists_line hc hrule
  have hnewline := newline_not_mem_split hline
  have hchars := mem_of_mem_pack hpath hb
  rw [toList_trim, fst_splitOnce, String.toList_ofList, toList_trim] at hchars
  refine ⟨fun h => hnewline ?_, fun h => ?_⟩
  · exact mem_of_mem_trimChars (List.takeWhile_subset _ (mem_of_mem_trimChars (hchars _ h)))
  · have := List.mem_takeWhile_imp (mem_of_mem_trimChars (hchars _ h))
    simp at this

theorem readsBack_of_upserts {contents text : String} {rules : List GmapRule} {path : GmapPath}
    (hb : containsCommentsOrBlanks contents = false) (hc : parseStr contents = .ok rules)
    (hp : parsePath text 0 = .ok path) {policy : Policy}
    (h : Upserts contents text rules path policy) :
    ∀ p, p = path ∨ p ∈ rules.map GmapRule.path → ReadsBack p := by
  have hpath := parsed_of_parsePath (parsePath_toOption_some hp)
  have hparsed : ∀ p ∈ path :: rules.map GmapRule.path, p.Parsed := by
    intro p hmem
    rcases List.mem_cons.mp hmem with rfl | hmem
    · exact hpath
    · exact parsed_of_parseStr hc hmem
  obtain ⟨output, rules', hout, hparse, heval, -⟩ := h
  rw [upsertPolicy_canonical policy hb hc hp, Except.ok.injEq] at hout
  subst hout
  have hread : ∀ x ∈ path :: rules.map GmapRule.path,
      ¬ Shadowed x (path :: rules.map GmapRule.path) →
      ReadFrom (path :: rules.map GmapRule.path) x := by
    intro x hx hs
    have hmem := mem_paths_of_eval hpath (hparsed x hx) (heval x) (List.mem_cons.mp hx) hs
    rw [← map_fst_entries] at hmem
    obtain ⟨⟨_, policy'⟩, hentry, rfl⟩ := List.mem_map.mp hmem
    obtain ⟨rule, hrule, here, hreads, hin⟩ := mem_readLines_renderRules (parseStr_ok hparse) hentry
    exact ⟨rule, here, policy', List.mem_cons.mpr (mem_sorted_upserted hrule), hreads, hin⟩
  have hplain : ∀ b, ⟨some b, some "_", none⟩ ∈ path :: rules.map GmapRule.path →
      ⟨some b, none, none⟩ ∈ path :: rules.map GmapRule.path →
      '\n' ∉ b.toList ∧ '=' ∉ b.toList := by
    -- The two paths differ, so one of them is the path of a rule of the file.
    intro b hall hpack
    rcases List.mem_cons.mp hall with heq | hall
    · rcases List.mem_cons.mp hpack with heq' | hpack
      · rw [← heq] at heq'
        cases heq'
      · exact pack_plain hc hpack rfl
    · exact pack_plain hc hall rfl
  intro p hmem
  exact readsBack_of_readFrom hparsed hread hplain p (List.mem_cons.mpr hmem)

theorem count_le_one_of_upserts {contents text : String} {rules : List GmapRule} {path : GmapPath}
    (hb : containsCommentsOrBlanks contents = false) (hc : parseStr contents = .ok rules)
    (hp : parsePath text 0 = .ok path)
    (h : ∀ policy, Upserts contents text rules path policy) :
    (rules.map GmapRule.path).count path ≤ 1 := by
  have hpath := parsed_of_parsePath (parsePath_toOption_some hp)
  have hback := readsBack_of_upserts hb hc hp (h .Public)
  have hall : ∀ p, p = path ∨ p ∈ rules.map GmapRule.path → p.Parsed := by
    rintro p (rfl | hmem)
    · exact hpath
    · exact parsed_of_parseStr hc hmem
  by_contra hcount
  apply false_of_last_const hpath h (last (entries rules) path)
  intro policy output es hout hread
  rw [upsertPolicy_canonical policy hb hc hp, Except.ok.injEq] at hout
  subst hout
  rw [readLines_canonical policy hall hback, Option.some.injEq] at hread
  rw [← hread, last_sortRules, last_upserted, if_pos rfl, if_neg hcount]

/-! ## The condition is exact -/

/-- **An edit is faithful exactly where it is safe.** -/
theorem upsert_faithful_iff {contents text : String} {rules : List GmapRule} {path : GmapPath}
    (hc : parseStr contents = .ok rules) (hp : parsePath text 0 = .ok path) :
    (∀ policy, Upserts contents text rules path policy)
      ↔ UpsertSafe contents text rules path := by
  constructor
  · intro h
    have hpath := parsePath_toOption_some hp
    refine ⟨not_shadowed_of_upserts (parsed_of_parsePath hpath) h, ?_⟩
    cases hb : containsCommentsOrBlanks contents with
    | true => exact ⟨lineSafe_of_upserts hb hc hpath h, firstIsLast_of_upserts hb hc hpath h⟩
    | false => exact ⟨readsBack_of_upserts hb hc hp (h .Public), count_le_one_of_upserts hb hc hp h⟩
  · exact fun h => upserts_of_safe hc hp h

/-- A file with two rules for one pack: forbidding the pack changes the first, and the
second keeps it public. -/
theorem upsert_missed_by_later_rule :
    ¬ ∀ (contents text : String) (rules : List GmapRule) (path : GmapPath) (policy : Policy),
      parseStr contents = .ok rules → parsePath text 0 = .ok path →
      Upserts contents text rules path policy := by
  intro h
  obtain ⟨output, rules', hout, hparse, -, hself⟩ := h "# team\npack = forbidden\npack = public\n" "pack"
    [⟨⟨some "pack", none, none⟩, .Forbidden, 2⟩, ⟨⟨some "pack", none, none⟩, .Public, 3⟩]
    ⟨some "pack", none, none⟩ .Forbidden (by decide) (by decide)
  have hwritten : upsertPolicy (some "# team\npack = forbidden\npack = public\n") "pack" .Forbidden
      = .ok "# team\npack = forbidden\npack = public\n" := by decide
  have hread : parseStr "# team\npack = forbidden\npack = public\n"
      = .ok [⟨⟨some "pack", none, none⟩, .Forbidden, 2⟩, ⟨⟨some "pack", none, none⟩, .Public, 3⟩] := by
    decide
  rw [hwritten, Except.ok.injEq] at hout
  subst hout
  rw [hread, Except.ok.injEq] at hparse
  subst hparse
  exact absurd hself (by decide)

/-- A map with a flow rule: editing the pack is faithful exactly where it is safe. -/
theorem upsert_faithful_pack :
    (∀ policy, Upserts "_ = forbidden\npack/main = public\n" "pack"
        [⟨.global, .Forbidden, 1⟩, ⟨⟨some "pack", some "main", none⟩, .Public, 2⟩]
        ⟨some "pack", none, none⟩ policy)
      ↔ UpsertSafe "_ = forbidden\npack/main = public\n" "pack"
        [⟨.global, .Forbidden, 1⟩, ⟨⟨some "pack", some "main", none⟩, .Public, 2⟩]
        ⟨some "pack", none, none⟩ :=
  upsert_faithful_iff (by decide) (by decide)

/-!
## Rendering and reading back

A file that is read and rendered again should say the same (`RoundTrips`): in the order of
its rules the rendering reads as the same paths and policies, and in canonical order it
decides as the file does.

A rendered line reads as at most one rule, so a rendering that reads as all the rules reads
each of them from its own line. `roundTrips_iff` says which rules that is possible for:
those whose paths read back from their own text (`ReadsBack`).
-/

/-- Rendering the rules, in their order and in canonical order, loses nothing. -/
structure RoundTrips (rules : List GmapRule) : Prop where
  rendered : ∃ rules', parseStr (renderRules rules) = .ok rules' ∧ entries rules' = entries rules
  canonical : ∃ rules', parseStr (renderRules (sortRules rules)) = .ok rules'
    ∧ ∀ target, evalPolicy rules' target = evalPolicy rules target

/-! ### What a rendered line reads as -/

/-- The text of a parsed path is made of the characters of the text it was parsed from. -/
theorem mem_of_mem_toString {raw : String} {path : GmapPath}
    (h : (parsePath raw 0).toOption = some path) {c : Char} (hc : c ∈ path.toString.toList) :
    c ∈ raw.toList ∨ c = '/' := by
  rw [parsePath_eq] at h
  split at h
  next hraw =>
    cases h
    rw [hraw]
    exact .inl hc
  next =>
    have hmem : ∀ seg ∈ segments raw, c ∈ seg.toList → c ∈ raw.toList :=
      fun seg hseg hin => mem_of_mem_segments hseg c hin
    generalize segments raw = segs at h hmem
    match segs, h with
    | [p], h =>
      cases h
      exact .inl (hmem p (by simp) hc)
    | [p, f], h =>
      cases h
      simp only [GmapPath.toString, String.toList_append, toList_slash, List.mem_append,
        List.mem_singleton] at hc
      rcases hc with (hc | hc) | hc
      · exact .inl (hmem p (by simp) hc)
      · exact .inr hc
      · exact .inl (hmem f (by simp) hc)
    | [p, f, m], h =>
      cases h
      simp only [GmapPath.toString, String.toList_append, toList_slash, List.mem_append,
        List.mem_singleton] at hc
      rcases hc with (((hc | hc) | hc) | hc) | hc
      · exact .inl (hmem p (by simp) hc)
      · exact .inr hc
      · exact .inl (hmem f (by simp) hc)
      · exact .inr hc
      · exact .inl (hmem m (by simp) hc)

theorem newline_not_mem_toString {contents : String} {rules : List GmapRule} {rule : GmapRule}
    (hc : parseStr contents = .ok rules) (hmem : rule ∈ rules) : '\n' ∉ rule.path.toString.toList := by
  obtain ⟨line, hline, hpath⟩ := exists_line hc hmem
  intro hnewline
  rcases mem_of_mem_toString hpath hnewline with h | h
  · rw [toList_trim, fst_splitOnce, String.toList_ofList, toList_trim] at h
    exact newline_not_mem_split hline
      (mem_of_mem_trimChars (List.takeWhile_subset _ (mem_of_mem_trimChars h)))
  · exact absurd h (by decide)

/-- A line without line feeds reads as at most one rule. -/
theorem length_ruleReads_le {rule : GmapRule} {here : List (GmapPath × Policy)}
    (hnewline : '\n' ∉ rule.path.toString.toList) (h : ruleReads rule = some here) :
    here.length ≤ 1 := by
  rw [ruleReads, split_of_not_mem (newline_not_mem_ruleLine _ hnewline)] at h
  simp only [readLines, Option.bind_eq_bind, Option.bind_some, Option.pure_def] at h
  obtain ⟨read, hread, heq⟩ := Option.bind_eq_some_iff.mp h
  rw [List.append_nil, Option.some.injEq] at heq
  subst heq
  rcases readLine_cases hread with ⟨-, rfl⟩ | ⟨rule', -, -, rfl⟩
  · exact Nat.zero_le 1
  · exact Nat.le_refl 1

/-- A rendering that reads as all the rules reads each of them from its own line. -/
theorem ruleReads_of_readLines {rules : List GmapRule}
    (hnewline : ∀ rule ∈ rules, '\n' ∉ rule.path.toString.toList) {es : List (GmapPath × Policy)}
    (h : readLines (split '\n' (renderRules rules)) = some es) :
    es.length ≤ rules.length
      ∧ (es = entries rules → ∀ rule ∈ rules, ruleReads rule = some [rule.entry]) := by
  induction rules generalizing es with
  | nil =>
    rw [show readLines (split '\n' (renderRules [])) = some [] from by decide, Option.some.injEq] at h
    subst h
    exact ⟨Nat.le_refl 0, fun _ _ hmem => absurd hmem List.not_mem_nil⟩
  | cons rule rules ih =>
    rw [readLines_renderRules_cons] at h
    obtain ⟨here, hhere, hrest⟩ := Option.bind_eq_some_iff.mp h
    obtain ⟨later, hlater, rfl⟩ := Option.map_eq_some_iff.mp hrest
    have hone := length_ruleReads_le (hnewline rule List.mem_cons_self) hhere
    obtain ⟨hle, hown⟩ := ih (fun r hr => hnewline r (List.mem_cons_of_mem rule hr)) hlater
    refine ⟨?_, fun heq => ?_⟩
    · rw [List.length_append, List.length_cons]
      omega
    · -- The line of the first rule cannot be skipped: the rest reads as too few.
      have hlength := congrArg List.length heq
      rw [entries_cons, List.length_append, List.length_cons, entries, List.length_map] at hlength
      obtain ⟨entry, rfl⟩ := List.length_eq_one_iff.mp (show here.length = 1 by omega)
      rw [entries_cons, List.singleton_append, List.cons.injEq] at heq
      obtain ⟨rfl, hlater⟩ := heq
      exact List.forall_mem_cons.mpr ⟨hhere, hown hlater⟩

/-- A line that reads as its own rule reads back. -/
theorem readsBack_of_ruleReads {rule : GmapRule} (h : ruleReads rule = some [rule.entry]) :
    ReadsBack rule.path := by
  refine ⟨(size_of_mem_readLines h List.mem_cons_self).2 (Nat.le_refl _), fun hunderscore => ?_⟩
  have hglobal : (parsePath "_" 0).toOption = some GmapPath.global := by decide
  have hline := readLines_ruleLine rule.policy lineSafe_underscore hglobal
  rw [ruleReads, hunderscore, show GmapPath.packUnderscore.toString = "_" from rfl, hline] at h
  have hpath := congrArg Prod.fst (List.singleton_inj.mp (Option.some.inj h))
  change GmapPath.global = rule.path at hpath
  rw [hunderscore] at hpath
  cases hpath

/-! ### Round trips -/

theorem readsBack_of_roundTrips {contents : String} {rules : List GmapRule}
    (hc : parseStr contents = .ok rules) (h : RoundTrips rules) :
    ∀ rule ∈ rules, ReadsBack rule.path := by
  obtain ⟨rules', hparse, hentries⟩ := h.rendered
  have hread := parseStr_ok hparse
  rw [hentries] at hread
  have hown := (ruleReads_of_readLines (fun rule hmem => newline_not_mem_toString hc hmem) hread).2 rfl
  exact fun rule hmem => readsBack_of_ruleReads (hown rule hmem)

theorem roundTrips_of_readsBack {contents : String} {rules : List GmapRule}
    (hc : parseStr contents = .ok rules) (h : ∀ rule ∈ rules, ReadsBack rule.path) :
    RoundTrips rules := by
  have hparsed : ∀ rule ∈ rules, rule.path.Parsed :=
    fun rule hmem => parsed_of_parseStr hc (List.mem_map_of_mem hmem)
  refine ⟨exists_parseStr (readLines_renderRules hparsed h), ?_⟩
  have hsorted : ∀ rule ∈ sortRules rules, rule.path.Parsed :=
    fun rule hmem => hparsed rule (mem_sortRules.mp hmem)
  obtain ⟨rules', hparse, hentries⟩ := exists_parseStr (readLines_renderRules hsorted
    fun rule hmem => h rule (mem_sortRules.mp hmem))
  exact ⟨rules', hparse, evalPolicy_entries_congr hentries (last_sortRules rules)⟩

/-- **A file makes the round trip exactly** where each of its paths reads back. -/
theorem roundTrips_iff {contents : String} {rules : List GmapRule} (hc : parseStr contents = .ok rules) :
    RoundTrips rules ↔ ∀ rule ∈ rules, ReadsBack rule.path :=
  ⟨readsBack_of_roundTrips hc, roundTrips_of_readsBack hc⟩

/-- A file with a comment, a doubled slash and a blank inside a segment. -/
theorem roundTrips_iff_demo :
    RoundTrips [⟨⟨some "my pack", some "_", none⟩, .Public, 2⟩, ⟨.global, .Forbidden, 4⟩]
      ↔ ∀ rule ∈ [(⟨⟨some "my pack", some "_", none⟩, .Public, 2⟩ : GmapRule), ⟨.global, .Forbidden, 4⟩],
        ReadsBack rule.path := by
  have hc : parseStr "# team\nmy pack//_ = public\n\n_=forbidden"
      = .ok [⟨⟨some "my pack", some "_", none⟩, .Public, 2⟩, ⟨.global, .Forbidden, 4⟩] := by decide
  exact roundTrips_iff hc

/-- The pack `#x` is written back as a comment. -/
theorem comment_loses_rule : ¬ ∀ (contents : String) (rules : List GmapRule),
    parseStr contents = .ok rules → RoundTrips rules := by
  intro h
  have hc : parseStr "/#x = forbidden\n" = .ok [⟨⟨some "#x", none, none⟩, .Forbidden, 1⟩] := by decide
  have hback := readsBack_of_roundTrips hc (h _ _ hc) _ List.mem_cons_self
  exact absurd hback.lineSafe.no_hash (by decide)

end Gmap
