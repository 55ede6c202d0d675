import Mathlib.Data.List.Infix
import Mathlib.Data.List.DropRight
import Mathlib.Data.String.Basic

/-!
# Text — trimming, splitting and joining strings

Strings are read through their characters. `trim` removes the characters with the
Unicode `White_Space` property from both ends; `split` cuts at one separator
character and keeps empty pieces, so `joinWith` inverts it (`joinWith_split`, and
`split_joinWith` where no piece holds the separator); `lines` cuts at line feeds the
way a line reader does: no final empty line, and one carriage return before the line
feed belongs to the line end.

The laws say what `trim` leaves (`trimChars_decomp`), when it does nothing
(`trimChars_eq_self_of_ends`), and that it loses count only where it removes something
(`trimChars_eq_self_of_countP`). `replace` goes over a text once, from the left; it keeps a text
without the part (`replace_of_not_contains`).
-/

namespace Text

/-- The characters with the Unicode `White_Space` property. -/
def isWhitespace (c : Char) : Bool :=
  let n := c.toNat
  (0x9 ≤ n && n ≤ 0xD) || n == 0x20 || n == 0x85 || n == 0xA0 || n == 0x1680
    || (0x2000 ≤ n && n ≤ 0x200A) || n == 0x2028 || n == 0x2029 || n == 0x202F
    || n == 0x205F || n == 0x3000

/-- The characters left after white space is removed from both ends. -/
def trimChars (l : List Char) : List Char :=
  (l.dropWhile isWhitespace).rdropWhile isWhitespace

/-- A string without the white space at its ends. -/
def trim (s : String) : String :=
  String.ofList (trimChars s.toList)

/-- The pieces between the occurrences of a separator, empty pieces included. -/
def split (c : Char) (s : String) : List String :=
  (s.toList.splitOn c).map String.ofList

/-- The piece before the first separator. -/
def firstPart (c : Char) (s : String) : String := (split c s).head?.getD ""

/-- Strings joined by one separator character. -/
def joinWith (c : Char) (ls : List String) : String :=
  String.ofList ([c].intercalate (ls.map String.toList))

/-- The part before the first separator, and the part after it where there is one. -/
def splitOnce (c : Char) (s : String) : String × Option String :=
  let before := s.toList.takeWhile (· != c)
  match s.toList.dropWhile (· != c) with
  | [] => (String.ofList before, none)
  | _ :: after => (String.ofList before, some (String.ofList after))

/-- Whether the first character is `c`. -/
def startsWithChar (c : Char) (s : String) : Bool :=
  s.toList.head? == some c

/-- Whether the last character is `c`. -/
def endsWithChar (c : Char) (s : String) : Bool :=
  s.toList.getLast? == some c

/-- A line without the one carriage return its line feed may follow. -/
def stripCr (l : List Char) : List Char :=
  if l.getLast? = some '\r' then l.dropLast else l

/-- The lines of a text already cut at its line feeds: every piece but the last was
ended by one, and the last is a line only when it holds something. -/
def linesOf : List (List Char) → List (List Char)
  | [] => []
  | [last] => if last = [] then [] else [last]
  | piece :: next :: rest => stripCr piece :: linesOf (next :: rest)

/-- The lines of a text. -/
def lines (s : String) : List String :=
  (linesOf (s.toList.splitOn '\n')).map String.ofList

/-- ASCII letters made small, everything else kept. -/
def toAsciiLowercase (s : String) : String :=
  String.ofList (s.toList.map fun c => if 'A' ≤ c ∧ c ≤ 'Z' then Char.ofNat (c.toNat + 32) else c)

/-- Equality up to the case of ASCII letters. -/
def eqIgnoreAsciiCase (s t : String) : Bool :=
  toAsciiLowercase s == toAsciiLowercase t

/-- What follows a given beginning, where the text begins with it. -/
def stripPrefix (front s : String) : Option String :=
  if front.toList.isPrefixOf s.toList then some (String.ofList (s.toList.drop front.toList.length))
  else none

/-- A text without the characters `c` at its start. -/
def trimStartMatches (c : Char) (s : String) : String := String.ofList (s.toList.dropWhile (· == c))

/-- A text without the characters `c` at its end. -/
def trimEndMatches (c : Char) (s : String) : String := String.ofList (s.toList.rdropWhile (· == c))

/-- What follows the first occurrence of a text, where there is one. -/
def afterFirst (part s : String) : Option String :=
  (s.toList.tails.find? part.toList.isPrefixOf).map fun rest => String.ofList (rest.drop part.toList.length)

def contains (part s : String) : Bool := s.toList.tails.any part.toList.isPrefixOf

/-- The piece after the last separator. -/
def lastPart (c : Char) (s : String) : String := (split c s).getLast?.getD ""

/-- What stands before the last separator, or everything where there is none. -/
def beforeLast (c : Char) (s : String) : String :=
  if c ∈ s.toList then String.ofList (s.toList.rdropWhile (· != c)).dropLast else s

def isAsciiAlphanumeric (c : Char) : Bool :=
  ('a' ≤ c && c ≤ 'z') || ('A' ≤ c && c ≤ 'Z') || ('0' ≤ c && c ≤ '9')

/-- A text without the characters `c` at its ends. -/
def trimMatches (c : Char) (s : String) : String := trimEndMatches c (trimStartMatches c s)

def startsWith (front s : String) : Bool := front.toList.isPrefixOf s.toList

def endsWith (back s : String) : Bool := back.toList.isSuffixOf s.toList

/-- A text without its end, where it ends so. -/
def stripSuffix (back s : String) : Option String :=
  if endsWith back s then some (String.ofList (s.toList.take (s.toList.length - back.toList.length)))
  else none

/-- The characters up to a byte of their encoding and those from it on, where a character starts
at it or the text ends there. -/
def splitAtByte : Nat → List Char → Option (List Char × List Char)
  | 0, l => some ([], l)
  | _ + 1, [] => none
  | n + 1, c :: l =>
    if c.utf8Size ≤ n + 1 then
      (splitAtByte (n + 1 - c.utf8Size) l).map fun parts => (c :: parts.1, parts.2)
    else none

/-- The words of a text. -/
def splitWhitespace (s : String) : List String :=
  ((s.toList.splitOnP isWhitespace).filter (· != [])).map String.ofList

/-! ## Parts -/

theorem contains_iff {part s : String} : contains part s = true ↔ part.toList <:+: s.toList := by
  unfold contains
  rw [List.any_eq_true, List.infix_iff_prefix_suffix]
  constructor
  · rintro ⟨rest, hrest, hprefix⟩
    exact ⟨rest, List.isPrefixOf_iff_prefix.mp hprefix, (List.mem_tails _ _).mp hrest⟩
  · rintro ⟨rest, hprefix, hrest⟩
    exact ⟨rest, (List.mem_tails _ _).mpr hrest, List.isPrefixOf_iff_prefix.mpr hprefix⟩

theorem contains_self (s : String) : contains s s = true := contains_iff.mpr List.infix_rfl

/-- What is left of a text without its end is a part of it. -/
theorem stripSuffix_prefix {back s rest : String} (h : stripSuffix back s = some rest) :
    rest.toList <+: s.toList := by
  unfold stripSuffix at h
  split at h
  next =>
    rw [← Option.some.inj h, String.toList_ofList]
    exact List.take_prefix _ _
  next => cases h

/-! ## Trimming -/

theorem toList_trim (s : String) : (trim s).toList = trimChars s.toList := by
  simp only [trim, String.toList_ofList]

/-- What trimming leaves, with the white space it took from each end. -/
theorem trimChars_decomp (l : List Char) :
    ∃ front back, l = front ++ trimChars l ++ back
      ∧ (∀ c ∈ front, isWhitespace c = true) ∧ (∀ c ∈ back, isWhitespace c = true) := by
  refine ⟨l.takeWhile isWhitespace,
    (l.dropWhile isWhitespace).rtakeWhile isWhitespace, ?_, ?_, ?_⟩
  · rw [List.append_assoc, trimChars, List.rdropWhile_append_rtakeWhile,
      List.takeWhile_append_dropWhile]
  · intro c hc
    exact List.mem_takeWhile_imp hc
  · intro c hc
    exact List.mem_rtakeWhile_imp hc

theorem trimChars_eq_nil {l : List Char} : trimChars l = [] ↔ ∀ c ∈ l, isWhitespace c = true := by
  constructor
  · intro h c hc
    obtain ⟨front, back, hl, hfront, hback⟩ := trimChars_decomp l
    rw [h, List.append_nil] at hl
    rw [hl, List.mem_append] at hc
    exact hc.elim (hfront c) (hback c)
  · intro h
    rw [trimChars, List.dropWhile_eq_nil_iff.mpr h, List.rdropWhile_nil]

/-- White space before a text is trimmed away with the rest. -/
theorem trimChars_append_left {w : List Char} (hw : ∀ c ∈ w, isWhitespace c = true)
    (l : List Char) : trimChars (w ++ l) = trimChars l := by
  induction w with
  | nil => rfl
  | cons c w ih =>
    have hc : isWhitespace c = true := hw c List.mem_cons_self
    rw [trimChars, List.cons_append, List.dropWhile_cons_of_pos hc]
    exact ih fun d hd => hw d (List.mem_cons_of_mem c hd)

theorem dropWhile_append_of_exists {p : Char → Bool} {l : List Char}
    (h : ∃ c ∈ l, p c = false) (m : List Char) :
    (l ++ m).dropWhile p = l.dropWhile p ++ m := by
  induction l with
  | nil =>
    obtain ⟨c, hc, -⟩ := h
    cases hc
  | cons d l ih =>
    cases hd : p d with
    | false => simp only [List.cons_append, List.dropWhile_cons, hd, Bool.false_eq_true, ↓reduceIte]
    | true =>
      simp only [List.cons_append, List.dropWhile_cons, hd, ↓reduceIte]
      refine ih ?_
      obtain ⟨c, hc, hpc⟩ := h
      rcases List.mem_cons.mp hc with rfl | hc
      · rw [hd] at hpc
        cases hpc
      · exact ⟨c, hc, hpc⟩

/-- White space after a text is trimmed away with the rest. -/
theorem trimChars_append_right {w : List Char} (hw : ∀ c ∈ w, isWhitespace c = true)
    (l : List Char) : trimChars (l ++ w) = trimChars l := by
  by_cases hl : ∀ c ∈ l, isWhitespace c = true
  · have hall : ∀ c ∈ l ++ w, isWhitespace c = true := by
      intro c hc
      exact (List.mem_append.mp hc).elim (hl c) (hw c)
    rw [trimChars_eq_nil.mpr hall, trimChars_eq_nil.mpr hl]
  · simp only [not_forall, Bool.not_eq_true] at hl
    obtain ⟨c, hc, hcw⟩ := hl
    have hdrop := dropWhile_append_of_exists ⟨c, hc, hcw⟩ w
    rw [trimChars, trimChars, hdrop]
    clear hdrop
    induction w using List.reverseRecOn with
    | nil => rw [List.append_nil]
    | append_singleton w d ih =>
      have hd : isWhitespace d = true := hw d (by simp)
      rw [← List.append_assoc, List.rdropWhile_concat_pos _ _ _ hd]
      exact ih fun e he => hw e (List.mem_append_left _ he)

/-- A text whose first and last characters are not white space is trimmed already. -/
theorem trimChars_eq_self_of_ends {l : List Char}
    (hhead : ∀ c, l.head? = some c → isWhitespace c = false)
    (hlast : ∀ c, l.getLast? = some c → isWhitespace c = false) : trimChars l = l := by
  have hdrop : l.dropWhile isWhitespace = l := by
    cases l with
    | nil => rfl
    | cons c l => exact List.dropWhile_cons_of_neg (by simp [hhead c rfl])
  rw [trimChars, hdrop, List.rdropWhile_eq_self_iff]
  intro hl
  rw [hlast _ (List.getLast?_eq_some_getLast hl)]
  exact Bool.false_ne_true

/-- The first character of a trimmed text is not white space. -/
theorem head_trimChars {l : List Char} {c : Char} (h : (trimChars l).head? = some c) :
    isWhitespace c = false := by
  cases hl : l.dropWhile isWhitespace with
  | nil => simp [trimChars, hl] at h
  | cons d rest =>
    have hd : isWhitespace d = false := by
      have hne : l.dropWhile isWhitespace ≠ [] := by rw [hl]; exact List.cons_ne_nil d rest
      have := List.head_dropWhile_not isWhitespace hne
      simpa only [hl, List.head_cons] using this
    have hprefix := List.rdropWhile_prefix isWhitespace (l.dropWhile isWhitespace)
    rw [hl] at hprefix
    rw [trimChars, hl] at h
    obtain ⟨t, ht⟩ := hprefix
    cases hr : List.rdropWhile isWhitespace (d :: rest) with
    | nil => simp [hr] at h
    | cons e es =>
      rw [hr] at h ht
      simp only [List.head?_cons, Option.some.injEq] at h
      simp only [List.cons_append, List.cons.injEq] at ht
      rw [← h, ht.1]
      exact hd

/-- The last character of a trimmed text is not white space. -/
theorem getLast_trimChars {l : List Char} {c : Char} (h : (trimChars l).getLast? = some c) :
    isWhitespace c = false := by
  have hne : trimChars l ≠ [] := by
    intro hnil
    rw [hnil] at h
    cases h
  rw [List.getLast?_eq_some_getLast hne, Option.some.injEq] at h
  have := List.rdropWhile_last_not isWhitespace (l.dropWhile isWhitespace) hne
  rw [← h, ← Bool.not_eq_true]
  exact this

/-- A text trims to nothing where it is all white space. -/
theorem trim_isEmpty_iff {s : String} :
    (trim s).isEmpty = true ↔ ∀ c ∈ s.toList, isWhitespace c = true := by
  rw [String.isEmpty_iff, ← String.toList_eq_nil_iff, toList_trim, trimChars_eq_nil]

/-- What follows a beginning that ends in white space, in a trimmed text, is not blank. -/
theorem stripPrefix_trim_not_blank {front s rest : String} {c : Char}
    (hfront : front.toList.getLast? = some c) (hc : isWhitespace c = true)
    (h : stripPrefix front (trim s) = some rest) : (trim rest).isEmpty = false := by
  rw [← Bool.not_eq_true, trim_isEmpty_iff]
  intro hblank
  unfold stripPrefix at h
  split at h
  next hstarts =>
    cases h
    rw [String.toList_ofList] at hblank
    rw [List.isPrefixOf_iff_prefix, List.prefix_iff_eq_append] at hstarts
    -- The last character of the trimmed text lies in the blank rest or ends the beginning.
    obtain ⟨d, hlast⟩ : ∃ d, (trim s).toList.getLast? = some d := by
      rw [← hstarts, List.getLast?_append, hfront]
      cases (List.drop front.toList.length (trim s).toList).getLast? with
      | none => exact ⟨c, rfl⟩
      | some d => exact ⟨d, rfl⟩
    have hd : isWhitespace d = true := by
      rw [← hstarts, List.getLast?_append, hfront] at hlast
      cases hrest : (List.drop front.toList.length (trim s).toList).getLast? with
      | none =>
        rw [hrest] at hlast
        cases hlast
        exact hc
      | some e =>
        rw [hrest] at hlast
        cases hlast
        exact hblank d (List.mem_of_getLast? hrest)
    rw [toList_trim] at hlast
    rw [getLast_trimChars hlast] at hd
    cases hd
  next => cases h

theorem trimChars_idem (l : List Char) : trimChars (trimChars l) = trimChars l :=
  trimChars_eq_self_of_ends (fun _ h => head_trimChars h) (fun _ h => getLast_trimChars h)

/-- Trimming never gains characters. -/
theorem countP_trimChars_le (p : Char → Bool) (l : List Char) :
    (trimChars l).countP p ≤ l.countP p := by
  obtain ⟨front, back, hl, -, -⟩ := trimChars_decomp l
  conv_rhs => rw [hl]
  simp only [List.countP_append]
  omega

/-- Trimming that loses no character of a kind white space belongs to does nothing. -/
theorem trimChars_eq_self_of_countP {p : Char → Bool}
    (hp : ∀ c, isWhitespace c = true → p c = true) {l : List Char}
    (h : l.countP p ≤ (trimChars l).countP p) : trimChars l = l := by
  obtain ⟨front, back, hl, hfront, hback⟩ := trimChars_decomp l
  have hcount : l.countP p = front.countP p + (trimChars l).countP p + back.countP p := by
    conv_lhs => rw [hl]
    simp only [List.countP_append]
  have hf : front.countP p = front.length :=
    List.countP_eq_length.mpr fun c hc => hp c (hfront c hc)
  have hb : back.countP p = back.length :=
    List.countP_eq_length.mpr fun c hc => hp c (hback c hc)
  have hfnil : front = [] := List.length_eq_zero_iff.mp (by omega)
  have hbnil : back = [] := List.length_eq_zero_iff.mp (by omega)
  rw [hfnil, hbnil, List.nil_append, List.append_nil] at hl
  exact hl.symm

/-! ## Splitting and joining -/

theorem joinWith_split (c : Char) (s : String) : joinWith c (split c s) = s := by
  simp only [joinWith, split, List.map_map]
  rw [show (String.toList ∘ String.ofList) = id from funext fun l => String.toList_ofList,
    List.map_id, List.intercalate_splitOn, String.ofList_toList]

theorem split_joinWith {c : Char} {ls : List String} (hne : ls ≠ [])
    (h : ∀ l ∈ ls, c ∉ l.toList) : split c (joinWith c ls) = ls := by
  simp only [joinWith, split, String.toList_ofList]
  rw [List.splitOn_intercalate c _ (by simpa using hne), List.map_map,
    show (String.ofList ∘ String.toList) = id from funext fun l => String.ofList_toList,
    List.map_id]
  intro l hl
  obtain ⟨s, hs, rfl⟩ := List.mem_map.mp hl
  exact h s hs

/-- No piece of a split holds the separator. -/
theorem not_mem_of_mem_splitOn {c : Char} {l piece : List Char} (h : piece ∈ l.splitOn c) :
    c ∉ piece := by
  induction l generalizing piece with
  | nil =>
    rw [List.splitOn_nil, List.mem_singleton] at h
    rw [h]
    exact List.not_mem_nil
  | cons d l ih =>
    rw [List.splitOn_cons_eq_if_modifyHead] at h
    split at h
    next hd =>
      rcases List.mem_cons.mp h with rfl | h
      · exact List.not_mem_nil
      · exact ih h
    next hd =>
      cases hs : l.splitOn c with
      | nil => exact absurd hs (List.splitOn_ne_nil c l)
      | cons first rest =>
        rw [hs, List.modifyHead_cons] at h
        rcases List.mem_cons.mp h with rfl | h
        · have hfirst := ih (hs ▸ List.mem_cons_self)
          have hne : c ≠ d := by
            intro heq
            subst heq
            simp at hd
          simp only [List.mem_cons, not_or]
          exact ⟨hne, hfirst⟩
        · exact ih (hs ▸ List.mem_cons_of_mem first h)

/-- A suffix without the separator extends the last piece and no other. -/
theorem splitOn_append_of_not_mem {c : Char} (l : List Char) {s : List Char} (hs : c ∉ s) :
    ∃ init last, l.splitOn c = init ++ [last] ∧ (l ++ s).splitOn c = init ++ [last ++ s] := by
  induction l with
  | nil => exact ⟨[], [], List.splitOn_nil c, List.splitOn_eq_singleton hs⟩
  | cons d l ih =>
    obtain ⟨init, last, hl, hls⟩ := ih
    rw [List.cons_append, List.splitOn_cons_eq_if_modifyHead,
      List.splitOn_cons_eq_if_modifyHead, hl, hls]
    split
    · exact ⟨[] :: init, last, rfl, rfl⟩
    · cases init with
      | nil => exact ⟨[], d :: last, rfl, rfl⟩
      | cons first init => exact ⟨(d :: first) :: init, last, rfl, rfl⟩

/-- A piece of a split has no more characters of a kind than the whole, and strictly
fewer when the separator is of that kind and occurs. -/
theorem countP_piece {c : Char} {p : Char → Bool} {l piece : List Char}
    (h : piece ∈ l.splitOn c) :
    piece.countP p ≤ l.countP p ∧ (p c = true → c ∈ l → piece.countP p < l.countP p) := by
  induction l generalizing piece with
  | nil =>
    rw [List.splitOn_nil, List.mem_singleton] at h
    rw [h]
    exact ⟨Nat.le_refl _, fun _ hc => absurd hc List.not_mem_nil⟩
  | cons d l ih =>
    rw [List.splitOn_cons_eq_if_modifyHead] at h
    split at h
    next hd =>
      have hdc : d = c := by simpa using hd
      rcases List.mem_cons.mp h with rfl | h
      · refine ⟨by simp, fun hp _ => ?_⟩
        rw [List.countP_cons, hdc, hp]
        simp
      · have := (ih h).1
        rw [List.countP_cons]
        refine ⟨by omega, fun hp _ => ?_⟩
        rw [hdc, hp]
        simp only [↓reduceIte]
        omega
    next hd =>
      have hdc : c ≠ d := by
        intro heq
        subst heq
        simp at hd
      cases hs : l.splitOn c with
      | nil => exact absurd hs (List.splitOn_ne_nil c l)
      | cons first rest =>
        rw [hs, List.modifyHead_cons] at h
        rcases List.mem_cons.mp h with rfl | h
        · have hfirst := ih (hs ▸ List.mem_cons_self)
          simp only [List.countP_cons]
          refine ⟨by omega, fun hp hc => ?_⟩
          have := hfirst.2 hp ((List.mem_cons.mp hc).resolve_left hdc)
          omega
        · have hpiece := ih (hs ▸ List.mem_cons_of_mem first h)
          simp only [List.countP_cons]
          refine ⟨by omega, fun hp hc => ?_⟩
          have := hpiece.2 hp ((List.mem_cons.mp hc).resolve_left hdc)
          omega

/-! ## Lines -/

theorem isWhitespace_cr : isWhitespace '\r' = true := by decide

theorem trimChars_stripCr (l : List Char) : trimChars (stripCr l) = trimChars l := by
  unfold stripCr
  split
  next h =>
    have hne : l ≠ [] := by
      intro hnil
      rw [hnil] at h
      cases h
    have hlast : l.getLast hne = '\r' := by
      rwa [List.getLast?_eq_some_getLast hne, Option.some.injEq] at h
    conv_rhs => rw [← List.dropLast_append_getLast hne, hlast]
    refine (trimChars_append_right ?_ _).symm
    intro c hc
    rw [List.mem_singleton.mp hc]
    exact isWhitespace_cr
  next => rfl

/-- Up to trimming, the lines of a text are its pieces between line feeds, without a
final piece that is empty. -/
theorem map_trim_linesOf (pieces : List (List Char)) :
    ∃ tail, (linesOf pieces).map trimChars ++ tail = pieces.map trimChars
      ∧ (tail = [] ∨ tail = [[]]) := by
  induction pieces with
  | nil => exact ⟨[], rfl, .inl rfl⟩
  | cons piece rest ih =>
    cases rest with
    | nil =>
      by_cases hnil : piece = []
      · subst hnil
        exact ⟨[[]], rfl, .inr rfl⟩
      · refine ⟨[], ?_, .inl rfl⟩
        simp only [linesOf, if_neg hnil, List.map_cons, List.map_nil, List.append_nil]
    | cons next rest =>
      obtain ⟨tail, htail, hshape⟩ := ih
      refine ⟨tail, ?_, hshape⟩
      simp only [linesOf, List.map_cons, trimChars_stripCr, List.cons_append] at htail ⊢
      rw [htail]

/-- Separators at the start of a text only make empty pieces. -/
theorem filter_split_trimStartMatches (c : Char) (s : String) :
    (split c (trimStartMatches c s)).filter (· ≠ "") = (split c s).filter (· ≠ "") := by
  have hlist : ∀ l : List Char,
      (((l.dropWhile (· == c)).splitOn c).map String.ofList).filter (· ≠ "")
        = ((l.splitOn c).map String.ofList).filter (· ≠ "") := by
    intro l
    induction l with
    | nil => rfl
    | cons d l ih =>
      by_cases hd : d = c
      · subst hd
        rw [List.dropWhile_cons, if_pos (beq_self_eq_true d), ih, List.splitOn_cons_eq_if_modifyHead,
          if_pos (beq_self_eq_true d), List.map_cons, List.filter_cons_of_neg (by simp)]
      · rw [List.dropWhile_cons_of_neg (by simpa using hd)]
  unfold split trimStartMatches
  rw [String.toList_ofList]
  exact hlist s.toList

/-! ## Beginnings -/

theorem stripPrefix_eq_some_iff {front s rest : String} :
    stripPrefix front s = some rest ↔ s = front ++ rest := by
  unfold stripPrefix
  constructor
  · intro h
    split at h
    next hprefix =>
      rw [List.isPrefixOf_iff_prefix, List.prefix_iff_eq_append] at hprefix
      rw [Option.some.injEq] at h
      rw [← h]
      apply String.toList_injective
      rw [String.toList_append, String.toList_ofList, hprefix]
    next => cases h
  · rintro rfl
    rw [String.toList_append, if_pos (List.isPrefixOf_iff_prefix.mpr (List.prefix_append _ _)),
      List.drop_left, String.ofList_toList]

theorem stripPrefix_eq_none_iff {front s : String} :
    stripPrefix front s = none ↔ ¬ front.toList <+: s.toList := by
  unfold stripPrefix
  rw [← List.isPrefixOf_iff_prefix]
  split <;> simp_all

/-! ## The piece before the first separator -/

theorem head_splitOn (c : Char) (l : List Char) :
    (l.splitOn c).head? = some (l.takeWhile (· != c)) := by
  induction l with
  | nil => rfl
  | cons d l ih =>
    rw [List.splitOn_cons_eq_if_modifyHead, List.takeWhile_cons]
    by_cases hd : d = c
    · subst hd
      simp only [beq_self_eq_true, ↓reduceIte, List.head?_cons, bne_self_eq_false, Bool.false_eq_true]
    · simp only [beq_eq_false_iff_ne.mpr hd, bne_iff_ne.mpr hd, Bool.false_eq_true, ↓reduceIte]
      cases hl : l.splitOn c with
      | nil => exact absurd hl (List.splitOn_ne_nil c l)
      | cons first rest =>
        rw [hl, List.head?_cons, Option.some.injEq] at ih
        rw [List.modifyHead_cons, List.head?_cons, ih]

theorem toList_firstPart (c : Char) (s : String) :
    (firstPart c s).toList = s.toList.takeWhile (· != c) := by
  unfold firstPart split
  rw [List.head?_map, head_splitOn, Option.map_some, Option.getD_some, String.toList_ofList]

theorem takeWhile_append_sep {c : Char} {l : List Char} (h : c ∉ l) (rest : List Char) :
    (l ++ c :: rest).takeWhile (· != c) = l := by
  have hl : ∀ d ∈ l, (d != c) = true := fun d hd => bne_iff_ne.mpr fun heq => h (heq ▸ hd)
  rw [List.takeWhile_append_of_pos hl, List.takeWhile_cons_of_neg (by simp), List.append_nil]

theorem takeWhile_of_not_mem {c : Char} {l : List Char} (h : c ∉ l) : l.takeWhile (· != c) = l :=
  List.takeWhile_eq_self_iff.mpr fun _ hd => bne_iff_ne.mpr fun heq => h (heq ▸ hd)

theorem not_mem_firstPart (c : Char) (s : String) : c ∉ (firstPart c s).toList := by
  rw [toList_firstPart]
  intro hmem
  have := List.mem_takeWhile_imp hmem
  simp at this

/-- A text is its first piece and what follows it: nothing, or a separator and more. -/
theorem exists_eq_firstPart_append (c : Char) (s : String) :
    ∃ rest, s = firstPart c s ++ rest ∧ (rest = "" ∨ startsWithChar c rest = true) := by
  refine ⟨String.ofList (s.toList.dropWhile (· != c)), ?_, ?_⟩
  · apply String.toList_injective
    rw [String.toList_append, toList_firstPart, String.toList_ofList, List.takeWhile_append_dropWhile]
  · unfold startsWithChar
    rw [String.toList_ofList]
    have hhead := List.head?_dropWhile_not (· != c) s.toList
    cases hdrop : s.toList.dropWhile (· != c) with
    | nil => exact .inl rfl
    | cons d rest =>
      rw [hdrop] at hhead
      refine .inr ?_
      have hd : d = c := by simpa using hhead
      rw [List.head?_cons, hd, beq_self_eq_true]

theorem firstPart_append {c : Char} {s rest : String} (hs : c ∉ s.toList)
    (hrest : rest = "" ∨ startsWithChar c rest = true) : firstPart c (s ++ rest) = s := by
  apply String.toList_injective
  rw [toList_firstPart, String.toList_append]
  rcases hrest with rfl | hrest
  · rw [String.toList_empty, List.append_nil, takeWhile_of_not_mem hs]
  · unfold startsWithChar at hrest
    cases hlist : rest.toList with
    | nil =>
      rw [hlist] at hrest
      cases hrest
    | cons d more =>
      rw [hlist, List.head?_cons, beq_iff_eq, Option.some.injEq] at hrest
      subst hrest
      exact takeWhile_append_sep hs more

/-! ## Replacing -/

/-- The characters with every occurrence of a part replaced, from the left; some at the start are passed over. -/
def replaceFrom (part new : List Char) : Nat → List Char → List Char
  | _, [] => []
  | skipped + 1, _ :: rest => replaceFrom part new skipped rest
  | 0, c :: rest =>
    if part.isPrefixOf (c :: rest) then new ++ replaceFrom part new (part.length - 1) rest
    else c :: replaceFrom part new 0 rest

/-- A text with every occurrence of a part, which is not empty, replaced. -/
def replace (part new s : String) : String := String.ofList (replaceFrom part.toList new.toList 0 s.toList)

theorem replaceFrom_of_not_infix {part l : List Char} (new : List Char) (h : ¬part <:+: l) :
    replaceFrom part new 0 l = l := by
  induction l with
  | nil => rfl
  | cons c rest ih =>
    have hhere : ¬part.isPrefixOf (c :: rest) = true := fun hbegins =>
      h (List.isPrefixOf_iff_prefix.mp hbegins).isInfix
    have hrest : ¬part <:+: rest := fun hinside => h (hinside.trans (List.suffix_cons c rest).isInfix)
    rw [replaceFrom, if_neg hhere, ih hrest]

/-- A text without the part stays. -/
theorem replace_of_not_contains {part s : String} (new : String) (h : contains part s = false) :
    replace part new s = s := by
  have hnot : ¬part.toList <:+: s.toList := fun hinside => by
    rw [contains_iff.mpr hinside] at h
    cases h
  rw [replace, replaceFrom_of_not_infix _ hnot, String.ofList_toList]

theorem replaceFrom_length (part new l : List Char) : replaceFrom part new l.length l = [] := by
  induction l with
  | nil => rfl
  | cons c rest ih => exact ih

/-- The part itself becomes what takes its place. -/
theorem replace_self {part : String} (new : String) (h : part ≠ "") : replace part new part = new := by
  have hpart : part.toList ≠ [] := fun hnil => h (String.toList_inj.mp hnil)
  obtain ⟨c, rest, hcons⟩ := List.exists_cons_of_ne_nil hpart
  have hbegins : (c :: rest).isPrefixOf (c :: rest) = true := List.isPrefixOf_iff_prefix.mpr List.prefix_rfl
  rw [replace, hcons, replaceFrom, if_pos hbegins, List.length_cons, Nat.add_sub_cancel, replaceFrom_length,
    List.append_nil, String.ofList_toList]

example : replace "ab" "c" "xabab" = "xcc" := by decide

/-- A number is told by its decimal text. -/
theorem toString_nat_injective : Function.Injective (toString : Nat → String) := by
  intro m n h
  have hdigits : Nat.toDigits 10 m = Nat.toDigits 10 n := by
    have hlist := congrArg String.toList h
    rwa [Nat.toString_eq_ofList_toDigits, Nat.toString_eq_ofList_toDigits, String.toList_ofList,
      String.toList_ofList] at hlist
  rw [← @Nat.ofDigitChars_ten_toDigits m, hdigits, Nat.ofDigitChars_ten_toDigits]

end Text
