import Mathlib.Data.List.Chain
import GreenticOperator.SecretName

/-!
# The canonical form of secret names

Every canonical name is in normal form (`normal_canonicalSecretName`), and a name in normal form is
its own canonical name (`canonicalSecretName_of_normal`). So taking the canonical name a second
time changes nothing. A key path has the canonical names of its segments, in their order
(`keySegments_canonicalSecretKeyPath`); a segment of white space alone is no segment.
-/

namespace SecretName

/-- Characters of a canonical name, without two underscores in a row and none at the ends. -/
structure Normal (l : List Char) : Prop where
  kept : ∀ c ∈ l, normalizeChar c = some c
  single : l.IsChain fun a b => ¬(a = '_' ∧ b = '_')
  ne_nil : l ≠ []
  head : l.head? ≠ some '_'
  last : l.getLast? ≠ some '_'

/-! ## Single characters -/

theorem isUpper_iff {c : Char} : c.isUpper = true ↔ 65 ≤ c.val.toNat ∧ c.val.toNat ≤ 90 := by
  change decide (c.val ≥ 'A'.val ∧ c.val ≤ 'Z'.val) = true ↔ _
  rw [decide_eq_true_iff]
  exact Iff.rfl

theorem isLower_iff {c : Char} : c.isLower = true ↔ 97 ≤ c.val.toNat ∧ c.val.toNat ≤ 122 := by
  change (decide (c.val ≥ 'a'.val) && decide (c.val ≤ 'z'.val)) = true ↔ _
  rw [Bool.and_eq_true, decide_eq_true_iff, decide_eq_true_iff]
  exact Iff.rfl

theorem not_isUpper_of_isLower {c : Char} (h : c.isLower = true) : ¬c.isUpper = true := by
  rw [isUpper_iff]
  rw [isLower_iff] at h
  omega

theorem toLower_of_not_isUpper {c : Char} (h : ¬c.isUpper = true) : c.toLower = c := by
  unfold Char.toLower
  exact dif_neg fun hrange => h (isUpper_iff.mpr hrange)

theorem isLower_toLower {c : Char} (h : c.isUpper = true) : c.toLower.isLower = true := by
  have hrange := isUpper_iff.mp h
  unfold Char.toLower
  have hletter : c.val ≥ 'A'.val ∧ c.val ≤ 'Z'.val := hrange
  rw [dif_pos hletter, isLower_iff]
  simp only [Char.reduceVal, UInt32.toNat_add, UInt32.reduceSub, UInt32.reduceToNat]
  omega

theorem normalizeChar_of_lower {c : Char} (h : c.isLower = true) : normalizeChar c = some c := by
  unfold normalizeChar
  rw [if_neg (not_isUpper_of_isLower h), if_pos (by rw [h]; rfl)]

theorem normalizeChar_self {c d : Char} (h : normalizeChar c = some d) : normalizeChar d = some d := by
  unfold normalizeChar at h
  split at h
  next hupper =>
    cases h
    exact normalizeChar_of_lower (isLower_toLower hupper)
  next hupper =>
    split at h
    next hkept =>
      cases h
      unfold normalizeChar
      rw [if_neg hupper, if_pos hkept]
    next =>
      split at h
      next => cases h; rfl
      next => cases h

theorem slash_not_kept : normalizeChar '/' ≠ some '/' := by decide

/-- The case of an ASCII letter does not matter. -/
theorem normalizeChar_toLower (c : Char) : normalizeChar c.toLower = normalizeChar c := by
  by_cases h : c.isUpper = true
  · have hlower : normalizeChar c = some c.toLower := by unfold normalizeChar; rw [if_pos h]
    rw [hlower, normalizeChar_self hlower]
  · rw [toLower_of_not_isUpper h]

/-! ## The loop -/

theorem kept_normalizeChars {prevUnderscore : Bool} {l : List Char} :
    ∀ c ∈ normalizeChars prevUnderscore l, normalizeChar c = some c := by
  induction l generalizing prevUnderscore with
  | nil => exact fun c hc => absurd hc List.not_mem_nil
  | cons ch rest ih =>
    unfold normalizeChars
    split
    next => exact ih
    next normalized hnormalized =>
      have hself := normalizeChar_self hnormalized
      have hcons : ∀ p, ∀ c ∈ normalized :: normalizeChars p rest, normalizeChar c = some c := by
        intro p c hc
        rcases List.mem_cons.mp hc with rfl | hc
        · exact hself
        · exact ih c hc
      split
      · split
        · exact ih
        · exact hcons true
      · exact hcons false

/-- The loop yields no two underscores in a row, and none at once after one. -/
theorem single_normalizeChars (prevUnderscore : Bool) (l : List Char) :
    (normalizeChars prevUnderscore l).IsChain (fun a b => ¬(a = '_' ∧ b = '_'))
      ∧ (prevUnderscore = true → (normalizeChars prevUnderscore l).head? ≠ some '_') := by
  induction l generalizing prevUnderscore with
  | nil => exact ⟨.nil, nofun⟩
  | cons ch rest ih =>
    unfold normalizeChars
    split
    next => exact ih prevUnderscore
    next normalized _ =>
      split
      next hunder =>
        split
        next hprev => exact ⟨(ih true).1, fun _ => (ih true).2 rfl⟩
        next hprev =>
          refine ⟨List.isChain_cons.mpr ⟨fun b hb => ?_, (ih true).1⟩, fun h => absurd h hprev⟩
          rintro ⟨-, rfl⟩
          exact (ih true).2 rfl hb
      next hother =>
        exact ⟨List.isChain_cons.mpr ⟨fun b _ h => hother h.1, (ih false).1⟩,
          fun _ h => hother (Option.some.inj h)⟩

/-- The loop leaves a list alone that it could have made. -/
theorem normalizeChars_eq_self {prevUnderscore : Bool} {l : List Char}
    (hkept : ∀ c ∈ l, normalizeChar c = some c) (hsingle : l.IsChain fun a b => ¬(a = '_' ∧ b = '_'))
    (hhead : prevUnderscore = true → l.head? ≠ some '_') : normalizeChars prevUnderscore l = l := by
  induction l generalizing prevUnderscore with
  | nil => rfl
  | cons ch rest ih =>
    obtain ⟨hnext, hrest⟩ := List.isChain_cons.mp hsingle
    have ih' : ∀ p, (p = true → rest.head? ≠ some '_') → normalizeChars p rest = rest :=
      fun _ => ih (fun c hc => hkept c (List.mem_cons_of_mem ch hc)) hrest
    unfold normalizeChars
    rw [hkept ch List.mem_cons_self]
    dsimp only
    by_cases hunder : ch = '_'
    · have hprev : ¬prevUnderscore = true := fun hp => hhead hp (congrArg some hunder)
      rw [if_pos hunder, if_neg hprev, ih' true fun _ hmem => hnext '_' hmem ⟨hunder, rfl⟩]
    · rw [if_neg hunder, ih' false nofun]

theorem normalizeChars_map_toLower (prevUnderscore : Bool) (l : List Char) :
    normalizeChars prevUnderscore (l.map Char.toLower) = normalizeChars prevUnderscore l := by
  induction l generalizing prevUnderscore with
  | nil => rfl
  | cons ch rest ih =>
    rw [List.map_cons]
    unfold normalizeChars
    rw [normalizeChar_toLower]
    simp only [ih]

/-! ## The name -/

/-- The characters of a result without the underscores around it. -/
def trimmed (l : List Char) : List Char := (l.dropWhile (· == '_')).rdropWhile (· == '_')

theorem canonicalSecretName_eq (raw : String) :
    canonicalSecretName raw =
      if trimmed (normalizeChars false raw.toList) = [] then "secret"
      else String.ofList (trimmed (normalizeChars false raw.toList)) := by
  unfold canonicalSecretName Text.trimEndMatches Text.trimStartMatches trimmed
  simp only [String.toList_ofList, String.ofList_eq_empty_iff]

theorem normal_trimmed {l : List Char} (hkept : ∀ c ∈ l, normalizeChar c = some c)
    (hsingle : l.IsChain fun a b => ¬(a = '_' ∧ b = '_')) (hne : trimmed l ≠ []) : Normal (trimmed l) := by
  have hprefix : trimmed l <+: l.dropWhile (· == '_') := List.rdropWhile_prefix _ _
  have hwithin : trimmed l <:+: l := hprefix.isInfix.trans (List.dropWhile_suffix _).isInfix
  refine ⟨fun c hc => hkept c (hwithin.mem hc), hsingle.infix hwithin, hne, fun h => ?_, fun h => ?_⟩
  · have hdrop : (l.dropWhile (· == '_')).head? = some '_' := by
      obtain ⟨rest, hrest⟩ := hprefix
      rw [← hrest, List.head?_append_of_ne_nil _ hne, h]
    have hnot := List.head?_dropWhile_not (· == '_') l
    rw [hdrop] at hnot
    cases hnot
  · have hnot := List.rdropWhile_last_not (· == '_') (l.dropWhile (· == '_')) hne
    rw [List.getLast?_eq_getLast_of_ne_nil hne] at h
    exact hnot (beq_iff_eq.mpr (Option.some.inj h))

theorem trimmed_of_normal {l : List Char} (h : Normal l) : trimmed l = l := by
  unfold trimmed
  rw [List.dropWhile_beq_eq_self_of_head?_ne h.head, List.rdropWhile_eq_self_iff]
  intro hl hlast
  exact h.last (List.getLast?_eq_getLast_of_ne_nil hl ▸ congrArg some (beq_iff_eq.mp hlast))

/-- A name in normal form is its own canonical name. -/
theorem canonicalSecretName_of_normal {name : String} (h : Normal name.toList) :
    canonicalSecretName name = name := by
  have hself : normalizeChars false name.toList = name.toList :=
    normalizeChars_eq_self h.kept h.single fun hf => absurd hf Bool.false_ne_true
  rw [canonicalSecretName_eq, hself, trimmed_of_normal h, if_neg h.ne_nil, String.ofList_toList]

/-- **Every canonical name is in normal form.** -/
theorem normal_canonicalSecretName (raw : String) : Normal (canonicalSecretName raw).toList := by
  rw [canonicalSecretName_eq]
  split
  next =>
    have hkept : ∀ c ∈ ['s', 'e', 'c', 'r', 'e', 't'], normalizeChar c = some c := by
      simp only [List.forall_mem_cons]
      exact ⟨rfl, rfl, rfl, rfl, rfl, rfl, nofun⟩
    exact ⟨hkept, by decide, by decide, by decide, by decide⟩
  next hne =>
    rw [String.toList_ofList]
    exact normal_trimmed kept_normalizeChars (single_normalizeChars false raw.toList).1 hne

theorem canonicalSecretName_idem (raw : String) :
    canonicalSecretName (canonicalSecretName raw) = canonicalSecretName raw :=
  canonicalSecretName_of_normal (normal_canonicalSecretName raw)

theorem slash_not_mem_canonicalSecretName (raw : String) : '/' ∉ (canonicalSecretName raw).toList :=
  fun h => slash_not_kept ((normal_canonicalSecretName raw).kept '/' h)

/-- A name and the name in small letters have one canonical name. -/
theorem canonicalSecretName_toLower (raw : String) :
    canonicalSecretName (String.ofList (raw.toList.map Char.toLower)) = canonicalSecretName raw := by
  rw [canonicalSecretName_eq, canonicalSecretName_eq, String.toList_ofList, normalizeChars_map_toLower]

/-! ## Key paths -/

theorem kept_iff {c : Char} : normalizeChar c = some c ↔ c.isLower = true ∨ c.isDigit = true ∨ c = '_' := by
  constructor
  · intro h
    unfold normalizeChar at h
    split at h
    next hupper =>
      have hlower := isLower_toLower hupper
      rw [Option.some.inj h] at hlower
      exact .inl hlower
    next =>
      split at h
      next hkept => simpa [or_assoc] using hkept
      next =>
        split at h
        next => exact .inr (.inr (Option.some.inj h).symm)
        next => cases h
  · rintro (hlower | hdigit | rfl)
    · exact normalizeChar_of_lower hlower
    · unfold normalizeChar
      have hupper : ¬c.isUpper = true := by
        rw [isUpper_iff]
        simp only [Char.isDigit, ge_iff_le, UInt32.le_iff_toNat_le, Bool.and_eq_true, decide_eq_true_eq,
          UInt32.reduceToNat, Char.reduceVal] at hdigit
        omega
      simp [hupper, hdigit]
    · rfl

theorem not_isWhitespace_of_kept {c : Char} (h : normalizeChar c = some c) : Text.isWhitespace c = false := by
  have hcode : (97 ≤ c.toNat ∧ c.toNat ≤ 122) ∨ (48 ≤ c.toNat ∧ c.toNat ≤ 57) ∨ c.toNat = 95 := by
    rcases kept_iff.mp h with hlower | hdigit | rfl
    · exact .inl (isLower_iff.mp hlower)
    · exact .inr (.inl (by simpa [Char.isDigit, UInt32.le_iff_toNat_le] using hdigit))
    · exact .inr (.inr rfl)
  unfold Text.isWhitespace
  simp only [Bool.or_eq_false_iff, Bool.and_eq_false_iff, decide_eq_false_iff_not, beq_eq_false_iff_ne, ne_eq]
  omega

/-- A canonical name is no blank text. -/
theorem trim_canonicalSecretName (raw : String) : (Text.trim (canonicalSecretName raw)).isEmpty = false := by
  have hnormal := normal_canonicalSecretName raw
  rw [← Bool.not_eq_true, Text.trim_isEmpty_iff]
  intro hblank
  obtain ⟨c, hc⟩ := List.exists_mem_of_ne_nil _ hnormal.ne_nil
  have hwhite := hblank c hc
  rw [not_isWhitespace_of_kept (hnormal.kept c hc)] at hwhite
  cases hwhite

/-- **A key path keeps its segments**, each under its canonical name. -/
theorem keySegments_canonicalSecretKeyPath (raw : String) :
    keySegments (canonicalSecretKeyPath raw) = (keySegments raw).map canonicalSecretName := by
  unfold canonicalSecretKeyPath
  generalize keySegments raw = segments
  cases segments with
  | nil => decide
  | cons segment rest =>
    have hslash : ∀ name ∈ (segment :: rest).map canonicalSecretName, '/' ∉ name.toList := by
      intro name hname
      obtain ⟨raw, -, rfl⟩ := List.mem_map.mp hname
      exact slash_not_mem_canonicalSecretName raw
    rw [keySegments, Text.split_joinWith (by simp) hslash, List.filter_eq_self]
    intro name hname
    obtain ⟨raw, -, rfl⟩ := List.mem_map.mp hname
    rw [trim_canonicalSecretName]
    rfl

theorem canonicalSecretKeyPath_idem (raw : String) :
    canonicalSecretKeyPath (canonicalSecretKeyPath raw) = canonicalSecretKeyPath raw := by
  have hmap : (keySegments (canonicalSecretKeyPath raw)).map canonicalSecretName = (keySegments raw).map canonicalSecretName := by
    rw [keySegments_canonicalSecretKeyPath, List.map_map]
    refine List.map_congr_left fun segment _ => ?_
    rw [Function.comp_apply, canonicalSecretName_idem]
  show Text.joinWith '/' ((keySegments (canonicalSecretKeyPath raw)).map canonicalSecretName) = _
  rw [hmap]
  rfl

/-- A name in the form that names are stored in. -/
structure Canonical (name : String) : Prop where
  not_empty : name ≠ ""
  chars : ∀ c ∈ name.toList, c.isLower = true ∨ c.isDigit = true ∨ c = '_'
  start : Text.startsWithChar '_' name = false
  stop : Text.endsWithChar '_' name = false
  single : ¬['_', '_'] <:+: name.toList

theorem Normal.canonical {name : String} (h : Normal name.toList) : Canonical name where
  not_empty heq := h.ne_nil (String.toList_eq_nil_iff.mpr heq)
  chars c hc := kept_iff.mp (h.kept c hc)
  start := beq_eq_false_iff_ne.mpr h.head
  stop := beq_eq_false_iff_ne.mpr h.last
  single hinfix := by
    have hchain := h.single.infix hinfix
    simp at hchain

/-- **Canonical names and key paths**: a name is brought into normal form, a path has its segments that
are not blank brought into it, and neither changes when that is done again. -/
theorem canonical_forms (raw : String) :
    Canonical (canonicalSecretName raw)
      ∧ canonicalSecretName (canonicalSecretName raw) = canonicalSecretName raw
      ∧ keySegments (canonicalSecretKeyPath raw) = (keySegments raw).map canonicalSecretName
      ∧ canonicalSecretKeyPath raw = Text.joinWith '/' ((keySegments raw).map canonicalSecretName)
      ∧ canonicalSecretKeyPath (canonicalSecretKeyPath raw) = canonicalSecretKeyPath raw :=
  ⟨(normal_canonicalSecretName raw).canonical, canonicalSecretName_idem raw,
    keySegments_canonicalSecretKeyPath raw, rfl, canonicalSecretKeyPath_idem raw⟩

/-- The pieces between slashes that are not empty, blank or not. -/
def nonEmptyPieces (raw : String) : List String := (Text.split '/' raw).filter fun piece => !piece.isEmpty

/-- A segment of white space alone is not kept, though it is not empty. -/
theorem white_segment_dropped :
    ¬∀ raw, (nonEmptyPieces (canonicalSecretKeyPath raw)).length = (nonEmptyPieces raw).length := by
  intro h
  have hpath := h "a/ /b"
  revert hpath
  decide +kernel

end SecretName
