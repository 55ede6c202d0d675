import GreenticOperator.Laws.Gmap.Parse

/-!
# Rule lines

The editor writes rules as lines `path = policy`. A path text is *line safe* when such a
line reads as the path the text denotes. `readLine_ruleLine` says that the four conditions
of `LineSafe` are enough, and `size_of_mem_readLines` that they are necessary: whatever
the line of a text reads as has no more characters in its path than the text, and as many
only where the text is line safe.
-/

namespace Gmap

open Text

/-- A path text that a rule line and a text made of lines leave intact. -/
structure LineSafe (text : String) : Prop where
  trimmed : trim text = text
  no_newline : '\n' ∉ text.toList
  no_equals : '=' ∉ text.toList
  no_hash : startsWithChar '#' text = false

/-- The characters a rule line has after its path. -/
def policySuffix (policy : Policy) : List Char := ' ' :: '=' :: ' ' :: (policyString policy).toList

theorem toList_ruleLine (text : String) (policy : Policy) :
    (ruleLine text policy).toList = text.toList ++ policySuffix policy := by
  simp only [ruleLine, String.toList_append, List.append_assoc]
  rfl

theorem getLast_append_policySuffix (l : List Char) (policy : Policy) {c : Char}
    (h : (l ++ policySuffix policy).getLast? = some c) : isWhitespace c = false := by
  rw [List.getLast?_append] at h
  cases policy
  · cases h
    decide
  · cases h
    decide

theorem newline_not_mem_policySuffix (policy : Policy) : '\n' ∉ policySuffix policy := by
  cases policy <;> decide

/-- White space before the policy suffix is all that trimming a rule line can take. -/
theorem trimChars_append_policySuffix {l : List Char} (policy : Policy)
    (hhead : ∀ c, l.head? = some c → isWhitespace c = false) (hne : l ≠ []) :
    trimChars (l ++ policySuffix policy) = l ++ policySuffix policy := by
  apply trimChars_eq_self_of_ends
  · intro c hc
    obtain ⟨d, l, rfl⟩ := List.exists_cons_of_ne_nil hne
    exact hhead c hc
  · exact fun c => getLast_append_policySuffix l policy

theorem trimChars_eq_toList_of_trim {s : String} (h : trim s = s) : trimChars s.toList = s.toList := by
  rw [← toList_trim, h]

/-! ## A line-safe path reads back -/

theorem parsePolicy_policyString (policy : Policy) :
    (parsePolicy (policyString policy) 0).toOption = some policy := by
  cases policy <;> decide

theorem ne_empty_of_parsePath {text : String} {path : GmapPath}
    (h : (parsePath text 0).toOption = some path) : text ≠ "" := by
  rintro rfl
  exact absurd h (by rw [show (parsePath "" 0).toOption = none from by decide]; exact nofun)

theorem toList_ne_nil {s : String} (h : s ≠ "") : s.toList ≠ [] := by
  intro hnil
  exact h (String.toList_injective (by rw [hnil]; rfl))

theorem head_of_trimmed {text : String} (h : trim text = text) {c : Char}
    (hc : text.toList.head? = some c) : isWhitespace c = false := by
  rw [← trimChars_eq_toList_of_trim h] at hc
  exact head_trimChars hc

theorem trim_ruleLine {text : String} (policy : Policy) (h : trim text = text) (hne : text ≠ "") :
    trim (ruleLine text policy) = ruleLine text policy := by
  apply String.toList_injective
  rw [toList_trim, toList_ruleLine]
  exact trimChars_append_policySuffix policy (fun c => head_of_trimmed h) (toList_ne_nil hne)

theorem skipsLine_ruleLine {text : String} (policy : Policy) (hne : text ≠ "") :
    skipsLine (ruleLine text policy) = startsWithChar '#' text := by
  obtain ⟨c, l, hl⟩ := List.exists_cons_of_ne_nil (toList_ne_nil hne)
  have hline : ruleLine text policy ≠ "" := by
    intro h
    have h := congrArg String.toList h
    rw [toList_ruleLine, hl] at h
    cases h
  simp only [skipsLine, beq_eq_false_iff_ne.mpr hline, Bool.false_or, startsWithChar,
    toList_ruleLine, hl, List.cons_append, List.head?_cons]

theorem takeWhile_append_policySuffix {l : List Char} (policy : Policy) (h : '=' ∉ l) :
    (l ++ policySuffix policy).takeWhile (· != '=') = l ++ [' '] := by
  have hl : ∀ c ∈ l, (c != '=') = true := fun c hc => bne_iff_ne.mpr fun heq => h (heq ▸ hc)
  rw [List.takeWhile_append_of_pos hl]
  rfl

theorem dropWhile_append_policySuffix {l : List Char} (policy : Policy) (h : '=' ∉ l) :
    (l ++ policySuffix policy).dropWhile (· != '=') = '=' :: ' ' :: (policyString policy).toList := by
  have hl : ∀ c ∈ l, (c != '=') = true := fun c hc => bne_iff_ne.mpr fun heq => h (heq ▸ hc)
  rw [List.dropWhile_append_of_pos hl]
  rfl

theorem trimChars_append_blank (l : List Char) : trimChars (l ++ [' ']) = trimChars l := by
  apply trimChars_append_right
  intro c hc
  rw [List.mem_singleton.mp hc]
  decide

theorem trim_policyText (policy : Policy) :
    trim (String.ofList (' ' :: (policyString policy).toList)) = policyString policy := by
  cases policy <;> decide

theorem policyString_ne_empty (policy : Policy) : policyString policy ≠ "" := by
  cases policy <;> decide

theorem rawParts_ruleLine {text : String} (policy : Policy) (hsafe : LineSafe text)
    (hne : text ≠ "") : rawParts (ruleLine text policy) = some (text, policyString policy) := by
  have htrim : trim (String.ofList (text.toList ++ [' '])) = text := by
    apply String.toList_injective
    rw [toList_trim, String.toList_ofList, trimChars_append_blank,
      trimChars_eq_toList_of_trim hsafe.trimmed]
  simp only [rawParts, splitOnce, toList_ruleLine,
    takeWhile_append_policySuffix policy hsafe.no_equals,
    dropWhile_append_policySuffix policy hsafe.no_equals, htrim, hne, Option.map_some,
    trim_policyText, policyString_ne_empty policy, ↓reduceIte]

/-- **The line of a line-safe path** reads as that path. -/
theorem readLine_ruleLine {text : String} {path : GmapPath} (policy : Policy)
    (hsafe : LineSafe text) (hpath : (parsePath text 0).toOption = some path) :
    readLine (ruleLine text policy) = some [(path, policy)] := by
  have hne := ne_empty_of_parsePath hpath
  have hentry := parseRuleLine_entry (ruleLine text policy) 0
  rw [rawParts_ruleLine policy hsafe hne] at hentry
  simp only [Option.bind_some, hpath, parsePolicy_policyString, Option.map_some] at hentry
  have hentry := congrArg (Option.map fun entry => [entry]) hentry
  rw [Option.map_map] at hentry
  simp only [readLine, trim_ruleLine policy hsafe.trimmed hne, skipsLine_ruleLine policy hne,
    hsafe.no_hash, Bool.false_eq_true, ↓reduceIte]
  exact hentry

/-! ## Only a line-safe path reads back -/

theorem rawParts_fst {line : String} {parts : String × String} (h : rawParts line = some parts) :
    parts.1 = trim (splitOnce '=' line).1 := by
  unfold rawParts at h
  simp only at h
  generalize trim (splitOnce '=' line).1 = rawPath at h ⊢
  generalize (splitOnce '=' line).2.map trim = policyPart at h
  by_cases hpath : rawPath = ""
  · rw [if_pos hpath] at h
    cases h
  · rw [if_neg hpath] at h
    cases policyPart with
    | none => cases h
    | some rawPolicy =>
      simp only at h
      by_cases hpolicy : rawPolicy = ""
      · rw [if_pos hpolicy] at h
        cases h
      · rw [if_neg hpolicy, Option.some.injEq] at h
        rw [← h]

/-- What a line that contributes an entry looks like. -/
theorem readLine_mem {line : String} {es : List (GmapPath × Policy)} {path : GmapPath}
    {policy : Policy} (h : readLine line = some es) (hmem : (path, policy) ∈ es) :
    skipsLine (trim line) = false
      ∧ (parsePath (trim (splitOnce '=' (trim line)).1) 0).toOption = some path := by
  unfold readLine at h
  split at h
  next =>
    cases h
    cases hmem
  next hskip =>
    refine ⟨Bool.not_eq_true _ ▸ hskip, ?_⟩
    obtain ⟨rule, hrule, rfl⟩ := Option.map_eq_some_iff.mp h
    have hentry := parseRuleLine_entry (trim line) 0
    rw [hrule, Option.map_some, ← List.mem_singleton.mp hmem] at hentry
    obtain ⟨parts, hparts, hrest⟩ := Option.bind_eq_some_iff.mp hentry.symm
    obtain ⟨path', hpath', hpol⟩ := Option.bind_eq_some_iff.mp hrest
    obtain ⟨policy', -, heq⟩ := Option.map_eq_some_iff.mp hpol
    cases heq
    rw [← rawParts_fst hparts]
    exact hpath'

theorem fst_splitOnce (c : Char) (s : String) :
    (splitOnce c s).1 = String.ofList (s.toList.takeWhile (· != c)) := by
  unfold splitOnce
  split <;> rfl

theorem takeWhile_append_of_mem {l : List Char} (h : '=' ∈ l) (m : List Char) :
    (l ++ m).takeWhile (· != '=') = l.takeWhile (· != '=') := by
  rw [List.takeWhile_append, if_neg]
  intro hlen
  have hself := (List.takeWhile_prefix (· != '=')).eq_of_length hlen
  have := List.takeWhile_eq_self_iff.mp hself '=' h
  simp at this

/-- Cutting at a character loses it. -/
theorem countP_takeWhile_lt {l : List Char} (h : '=' ∈ l) :
    (l.takeWhile (· != '=')).countP notSlash < l.countP notSlash := by
  have hsplit := List.takeWhile_append_dropWhile (p := (· != '=')) (l := l)
  cases hd : l.dropWhile (· != '=') with
  | nil =>
    have := List.dropWhile_eq_nil_iff.mp hd '=' h
    simp at this
  | cons c rest =>
    have hc : (c != '=') = false := by
      have := List.head?_dropWhile_not (· != '=') l
      simpa [hd] using this
    have hc : notSlash c = true := by
      rw [bne_eq_false_iff_eq.mp hc]
      decide
    rw [hd] at hsplit
    conv_rhs => rw [← hsplit]
    simp only [List.countP_append, List.countP_cons, hc, ↓reduceIte]
    omega

/-- The path text of a line, as the reader cuts it out. -/
def lineText (line : List Char) : List Char :=
  trimChars ((trimChars line).takeWhile (· != '='))

/-- A rule line up to white space at its ends, where its path is not blank. -/
theorem exists_trimChars_ruleLine {l : List Char} (policy : Policy) (hnil : trimChars l ≠ []) :
    ∃ back, (∀ c ∈ back, isWhitespace c = true)
      ∧ trimChars (l ++ policySuffix policy) = trimChars l ++ back ++ policySuffix policy := by
  obtain ⟨front, back, hl, hfront, hback⟩ := trimChars_decomp l
  refine ⟨back, hback, ?_⟩
  conv_lhs => rw [hl, List.append_assoc, List.append_assoc, trimChars_append_left hfront,
    ← List.append_assoc]
  apply trimChars_append_policySuffix
  · intro c hc
    rw [List.head?_append_of_ne_nil _ hnil] at hc
    exact head_trimChars hc
  · simp [hnil]

theorem mem_trimChars_of_not_whitespace {l : List Char} {c : Char} (hc : isWhitespace c = false)
    (h : c ∈ l) : c ∈ trimChars l := by
  obtain ⟨front, back, hl, hfront, hback⟩ := trimChars_decomp l
  rw [hl, List.mem_append, List.mem_append] at h
  rcases h with (h | h) | h
  · rw [hfront c h] at hc
    cases hc
  · exact h
  · rw [hback c h] at hc
    cases hc

theorem mem_of_mem_trimChars {l : List Char} {c : Char} (h : c ∈ trimChars l) : c ∈ l := by
  obtain ⟨front, back, hl, -, -⟩ := trimChars_decomp l
  rw [hl]
  exact List.mem_append_left _ (List.mem_append_right _ h)

/-- A path text without `=` is cut out of its line up to white space at its ends. -/
theorem lineText_of_no_equals {l : List Char} (policy : Policy) (hnil : trimChars l ≠ [])
    (heq : '=' ∉ trimChars l) : lineText (l ++ policySuffix policy) = trimChars l := by
  obtain ⟨back, hback, hline⟩ := exists_trimChars_ruleLine policy hnil
  have hback' : '=' ∉ trimChars l ++ back := by
    simp only [List.mem_append, not_or]
    exact ⟨heq, fun h => absurd (hback _ h) (by decide)⟩
  unfold lineText
  rw [hline, takeWhile_append_policySuffix policy hback', trimChars_append_blank,
    trimChars_append_right hback, trimChars_idem]

/-- The path text a rule line yields has no more characters than the text written into it,
and as many only where that text has no `=` and no white space at its ends. -/
theorem countP_lineText (l : List Char) (policy : Policy) :
    (lineText (l ++ policySuffix policy)).countP notSlash ≤ l.countP notSlash
      ∧ (l.countP notSlash ≤ (lineText (l ++ policySuffix policy)).countP notSlash →
          '=' ∉ l ∧ trimChars l = l) := by
  by_cases hnil : trimChars l = []
  · -- Nothing but white space: the line is `= policy`, and its path text is empty.
    have hall := trimChars_eq_nil.mp hnil
    have htext : lineText (l ++ policySuffix policy) = [] := by
      unfold lineText
      rw [trimChars_append_left hall]
      cases policy <;> decide
    rw [htext]
    refine ⟨Nat.zero_le _, fun h => ?_⟩
    have hlnil : l = [] := by
      have hcount : l.countP notSlash = l.length :=
        List.countP_eq_length.mpr fun c hc => notSlash_of_isWhitespace c (hall c hc)
      rw [hcount] at h
      exact List.length_eq_zero_iff.mp (Nat.le_zero.mp h)
    rw [hlnil]
    exact ⟨List.not_mem_nil, rfl⟩
  · have hle := countP_trimChars_le notSlash l
    by_cases heq : '=' ∈ trimChars l
    · obtain ⟨back, -, hline⟩ := exists_trimChars_ruleLine policy hnil
      have htext : lineText (l ++ policySuffix policy)
          = trimChars ((trimChars l).takeWhile (· != '=')) := by
        unfold lineText
        rw [hline, List.append_assoc, takeWhile_append_of_mem heq]
      have hlt := countP_takeWhile_lt heq
      have hle' := countP_trimChars_le notSlash ((trimChars l).takeWhile (· != '='))
      rw [htext]
      exact ⟨by omega, fun h => by omega⟩
    · rw [lineText_of_no_equals policy hnil heq]
      refine ⟨hle, fun h => ⟨fun hmem => heq (mem_trimChars_of_not_whitespace (by decide) hmem), ?_⟩⟩
      exact trimChars_eq_self_of_countP notSlash_of_isWhitespace h

theorem countP_lineText_le (line : List Char) :
    (lineText line).countP notSlash ≤ line.countP notSlash := by
  have h1 := countP_trimChars_le notSlash line
  have h2 := (List.takeWhile_sublist (· != '=') (l := trimChars line)).countP_le (p := notSlash)
  have h3 := countP_trimChars_le notSlash ((trimChars line).takeWhile (· != '='))
  unfold lineText
  omega

/-- The size of a path read from a line. -/
theorem size_of_mem_readLine {line : String} {es : List (GmapPath × Policy)} {path : GmapPath}
    {policy : Policy} (h : readLine line = some es) (hmem : (path, policy) ∈ es) :
    path.size = (lineText line.toList).countP notSlash := by
  obtain ⟨-, hpath⟩ := readLine_mem h hmem
  rw [size_parsePath hpath, textSize, fst_splitOnce, toList_trim, String.toList_ofList, toList_trim]
  rfl

theorem mem_readLines {ls : List String} {es : List (GmapPath × Policy)}
    {entry : GmapPath × Policy} (h : readLines ls = some es) (hmem : entry ∈ es) :
    ∃ line ∈ ls, ∃ here, readLine line = some here ∧ entry ∈ here := by
  induction ls generalizing es with
  | nil =>
    cases h
    cases hmem
  | cons l ls ih =>
    obtain ⟨here, hhere, hrest⟩ := Option.bind_eq_some_iff.mp h
    obtain ⟨later, hlater, heq⟩ := Option.bind_eq_some_iff.mp hrest
    cases heq
    rcases List.mem_append.mp hmem with hmem | hmem
    · exact ⟨l, List.mem_cons_self, here, hhere, hmem⟩
    · obtain ⟨line, hline, hread⟩ := ih hlater hmem
      exact ⟨line, List.mem_cons_of_mem l hline, hread⟩

/-- The piece of the text that a piece of its line was made from, and the characters the line can
have lost. -/
theorem exists_part_of_piece {text : String} {policy : Policy} {piece : List Char}
    (hpiece : piece ∈ (text.toList ++ policySuffix policy).splitOn '\n') :
    ∃ part ∈ text.toList.splitOn '\n', (lineText piece).countP notSlash ≤ part.countP notSlash
      ∧ (part.countP notSlash ≤ (lineText piece).countP notSlash → piece = part ++ policySuffix policy →
          '=' ∉ part ∧ trimChars part = part)
      ∧ (piece = part ++ policySuffix policy ∨ '\n' ∈ text.toList) := by
  obtain ⟨init, last, hsplit, hsplit'⟩ :=
    splitOn_append_of_not_mem text.toList (newline_not_mem_policySuffix policy)
  rw [hsplit'] at hpiece
  rcases List.mem_append.mp hpiece with hinit | hlast
  · refine ⟨piece, hsplit ▸ List.mem_append_left _ hinit, countP_lineText_le piece, ?_, .inr ?_⟩
    · intro _ heq
      have := congrArg List.length heq
      simp [policySuffix] at this
    · by_contra hno
      rw [List.splitOn_eq_singleton hno] at hsplit
      have := congrArg List.length hsplit
      simp only [List.length_singleton, List.length_append, Nat.right_eq_add] at this
      rw [List.length_eq_zero_iff.mp this] at hinit
      cases hinit
  · rw [List.mem_singleton] at hlast
    subst hlast
    exact ⟨last, hsplit ▸ List.mem_append_right _ List.mem_cons_self, (countP_lineText last policy).1,
      fun hle _ => (countP_lineText last policy).2 hle, .inl rfl⟩

/-- **What the line of a text reads as** never has more characters in its path than the
text, and has as many only where the text is line safe. -/
theorem size_of_mem_readLines {text : String} {policy : Policy}
    {es : List (GmapPath × Policy)} {path : GmapPath} {policy' : Policy}
    (h : readLines (split '\n' (ruleLine text policy)) = some es) (hmem : (path, policy') ∈ es) :
    path.size ≤ textSize text ∧ (textSize text ≤ path.size → LineSafe text) := by
  obtain ⟨line, hline, here, hread, hin⟩ := mem_readLines h hmem
  have hsize := size_of_mem_readLine hread hin
  obtain ⟨piece, hpiece, rfl⟩ := List.mem_map.mp hline
  rw [String.toList_ofList] at hsize
  rw [toList_ruleLine] at hpiece
  obtain ⟨part, hpart, hle, hsafe, hshape⟩ := exists_part_of_piece hpiece
  rw [← hsize] at hle hsafe
  have hpiece := countP_piece (p := notSlash) hpart
  refine ⟨Nat.le_trans hle hpiece.1, fun hge => ?_⟩
  have hno : '\n' ∉ text.toList := by
    intro hin
    have := hpiece.2 (by decide) hin
    unfold textSize at hge
    omega
  have hpart : part = text.toList := by
    rw [List.splitOn_eq_singleton hno, List.mem_singleton] at hpart
    exact hpart
  subst hpart
  have hshape := hshape.resolve_right hno
  obtain ⟨heq, htrim⟩ := hsafe hge hshape
  have htrim : trim text = text := String.toList_injective (by rw [toList_trim, htrim])
  refine ⟨htrim, hno, heq, ?_⟩
  by_cases hempty : text = ""
  · rw [hempty]
    rfl
  · rw [← skipsLine_ruleLine policy hempty, ← trim_ruleLine policy htrim hempty]
    have hline : String.ofList piece = ruleLine text policy :=
      String.toList_injective (by rw [String.toList_ofList, toList_ruleLine, hshape])
    rw [← hline]
    exact (readLine_mem hread hin).1

end Gmap
