import GreenticOperator.Laws.Gmap.Edit

/-!
# The rewrite that keeps lines

`upsertPreservingLines` cuts the file at its line feeds, changes one piece or adds one, and
joins the pieces again. `upsertPreservingLines_read` says what the result reads as: the
entries before and after the first rule that prints as the given path, with what the new
line reads as between them (`spliced`). The new line need not read as one entry: a path
text with line feeds makes several lines out of it.
-/

namespace Gmap

open Text LastWins

/-- The entries of a file with the first one of that printed path replaced, or with
entries added at the end where there is none. -/
def spliced (text : String) (here es : List (GmapPath × Policy)) : List (GmapPath × Policy) :=
  match es.dropWhile (fun entry => entry.1.toString != text) with
  | [] => es ++ here
  | _ :: after => es.takeWhile (fun entry => entry.1.toString != text) ++ (here ++ after)

/-- A joined text is cut at its line feeds, those inside its pieces too. -/
theorem split_joinWith_flatMap {ls : List String} (h : ls ≠ []) :
    split '\n' (joinWith '\n' ls) = ls.flatMap (split '\n') := by
  obtain ⟨l, ls, rfl⟩ := List.exists_cons_of_ne_nil h
  induction ls generalizing l with
  | nil =>
    simp only [joinWith, List.map_cons, List.map_nil, List.intercalate_singleton, String.ofList_toList,
      List.flatMap_cons, List.flatMap_nil, List.append_nil]
  | cons l' ls ih =>
    have hjoin : joinWith '\n' (l :: l' :: ls) = l ++ "\n" ++ joinWith '\n' (l' :: ls) := by
      apply String.toList_injective
      simp only [joinWith, String.toList_ofList, String.toList_append, List.map_cons, List.intercalate_cons_cons]
      rfl
    rw [hjoin, split_append_newline, List.flatMap_cons, ih l' (by simp)]

/-- The pieces a joined text is cut into again. -/
theorem readLines_split_joinWith (ls : List String) :
    readLines (split '\n' (joinWith '\n' ls)) = readLines (ls.flatMap (split '\n')) := by
  cases ls with
  | nil => decide
  | cons l ls => rw [split_joinWith_flatMap (List.cons_ne_nil l ls)]

/-- A line feed at the end of a text is not a rule. -/
theorem readLines_split_newline (s : String) :
    readLines (split '\n' (s ++ "\n")) = readLines (split '\n' s) := by
  have h := split_append_newline s ""
  rw [String.append_empty] at h
  rw [h, readLines_append, show readLines (split '\n' "") = some [] from by decide]
  cases readLines (split '\n' s) <;> simp

/-- Pieces between line feeds stay whole. -/
theorem flatMap_split_of_not_mem {ls : List String} (h : ∀ l ∈ ls, '\n' ∉ l.toList) :
    ls.flatMap (split '\n') = ls := by
  induction ls with
  | nil => rfl
  | cons l ls ih =>
    rw [List.flatMap_cons, split_of_not_mem (h l List.mem_cons_self),
      ih fun l' hl' => h l' (List.mem_cons_of_mem l hl')]
    rfl

theorem newline_not_mem_split {contents line : String} (h : line ∈ split '\n' contents) :
    '\n' ∉ line.toList := by
  obtain ⟨piece, hpiece, rfl⟩ := List.mem_map.mp h
  rw [String.toList_ofList]
  exact not_mem_of_mem_splitOn hpiece

/-- A line that carries a rule contributes exactly that rule's entry. -/
theorem readLine_cases {line : String} {es : List (GmapPath × Policy)} (h : readLine line = some es) :
    (skipsLine (trim line) = true ∧ es = [])
      ∨ ∃ rule, skipsLine (trim line) = false ∧ parseRuleLine (trim line) 0 = .ok rule
          ∧ es = [rule.entry] := by
  unfold readLine at h
  split at h
  next hskip =>
    cases h
    exact .inl ⟨hskip, rfl⟩
  next hskip =>
    rw [Bool.not_eq_true] at hskip
    cases hrule : parseRuleLine (trim line) 0 with
    | error e =>
      rw [hrule] at h
      cases h
    | ok rule =>
      rw [hrule] at h
      cases h
      exact .inr ⟨rule, hskip, rfl, rfl⟩

/-- What the walk over some lines with these entries does: it either keeps every line and finds no
rule of that printed path, or replaces the line of the first one. -/
def Walks (text : String) (policy : Policy) (ls : List String) (es : List (GmapPath × Policy)) : Prop :=
  (replaceLine text policy ls = .ok (ls, false)
      ∧ es.dropWhile (fun entry => entry.1.toString != text) = [])
    ∨ ∃ front line back entry after, ls = front ++ line :: back
        ∧ replaceLine text policy ls = .ok (front ++ ruleLine text policy :: back, true)
        ∧ readLines front = some (es.takeWhile fun entry => entry.1.toString != text)
        ∧ readLines back = some after
        ∧ es.dropWhile (fun entry => entry.1.toString != text) = entry :: after

/-- A line in front that is kept, as no entry of it has that printed path. -/
theorem Walks.kept {text : String} {policy : Policy} {line : String} {ls : List String}
    {here later : List (GmapPath × Policy)} (hhere : readLine line = some here)
    (hother : ∀ entry ∈ here, (entry.1.toString != text) = true)
    (hstep : ∀ {lines found}, replaceLine text policy ls = .ok (lines, found) →
      replaceLine text policy (line :: ls) = .ok (line :: lines, found))
    (h : Walks text policy ls later) : Walks text policy (line :: ls) (here ++ later) := by
  rcases h with ⟨hkeep, hnone⟩ | ⟨front, line', back, entry, after, rfl, hrep, hfront, hback, hdrop⟩
  · refine .inl ⟨hstep hkeep, ?_⟩
    rw [List.dropWhile_append_of_pos hother, hnone]
  · refine .inr ⟨line :: front, line', back, entry, after, rfl, hstep hrep, ?_, hback, ?_⟩
    · rw [List.takeWhile_append_of_pos hother]
      simp only [readLines, hhere, hfront]
      rfl
    · rw [List.dropWhile_append_of_pos hother, hdrop]

/-- **The walk over the lines**, step by step. -/
theorem replaceLine_read (text : String) (policy : Policy) {ls : List String}
    {es : List (GmapPath × Policy)} (h : readLines ls = some es) : Walks text policy ls es := by
  induction ls generalizing es with
  | nil =>
    cases h
    exact .inl ⟨rfl, rfl⟩
  | cons line ls ih =>
    obtain ⟨here, hhere, hrest⟩ := Option.bind_eq_some_iff.mp h
    obtain ⟨later, hlater, heq⟩ := Option.bind_eq_some_iff.mp hrest
    cases heq
    rcases readLine_cases hhere with ⟨hskip, rfl⟩ | ⟨rule, hskip, hrule, rfl⟩
    · refine (ih hlater).kept hhere nofun fun hwalk => ?_
      simp only [replaceLine, hskip, ↓reduceIte, hwalk]
      rfl
    · by_cases hpath : rule.path.toString = text
      · have htest : (rule.path.toString != text) = false := bne_eq_false_iff_eq.mpr hpath
        refine .inr ⟨[], line, ls, rule.entry, later, rfl, ?_, ?_, hlater, ?_⟩
        · simp only [replaceLine, hskip, Bool.false_eq_true, ↓reduceIte, hrule, bind, Except.bind,
            hpath]
          rfl
        · simp only [List.cons_append, List.takeWhile_cons, GmapRule.entry, htest,
            Bool.false_eq_true, ↓reduceIte]
          rfl
        · simp only [List.cons_append, List.nil_append, List.dropWhile_cons, GmapRule.entry, htest,
            Bool.false_eq_true, ↓reduceIte]
      · refine (ih hlater).kept hhere (fun entry hentry => ?_) fun hwalk => ?_
        · rw [List.mem_singleton.mp hentry]
          exact bne_iff_ne.mpr hpath
        · simp only [replaceLine, hskip, Bool.false_eq_true, ↓reduceIte, hrule, bind, Except.bind,
            hpath, hwalk]
          rfl

/-- The text `upsert_preserving_lines` ends with: joined lines, closed by a line feed. -/
theorem readLines_closed (ls : List String) :
    readLines (split '\n' (if endsWithChar '\n' (joinWith '\n' ls) then joinWith '\n' ls
        else joinWith '\n' ls ++ "\n"))
      = readLines (ls.flatMap (split '\n')) := by
  split
  · exact readLines_split_joinWith ls
  · rw [readLines_split_newline, readLines_split_joinWith]

/-- **What the rewritten file reads as**: the old entries with the first one of that printed
path replaced by whatever the new line reads as. -/
theorem upsertPreservingLines_read {contents : String} {es : List (GmapPath × Policy)}
    (text : String) (policy : Policy) (h : readLines (split '\n' contents) = some es) :
    ∃ output, upsertPreservingLines contents text policy = .ok output
      ∧ readLines (split '\n' output)
        = (readLines (split '\n' (ruleLine text policy))).map fun here => spliced text here es := by
  have hpieces : ∀ l ∈ split '\n' contents, '\n' ∉ l.toList := fun _ => newline_not_mem_split
  unfold upsertPreservingLines spliced
  rcases replaceLine_read text policy h with
    ⟨hkeep, hnone⟩ | ⟨front, line, back, entry, after, hls, hrep, hfront, hback, hdrop⟩
  · rw [hkeep, hnone]
    refine ⟨_, rfl, ?_⟩
    simp only [Bool.false_eq_true, ↓reduceIte]
    rw [readLines_closed]
    generalize split '\n' contents = ls at h hpieces
    have hself := flatMap_split_of_not_mem hpieces
    split
    · rw [List.flatMap_append, List.flatMap_append, hself, readLines_append, readLines_append, h]
      simp only [List.flatMap_cons, List.flatMap_nil, List.append_nil,
        show readLines (split '\n' "") = some [] from by decide, Option.bind_some, Option.map_some]
    · rw [List.flatMap_append, hself, readLines_append, h]
      simp only [List.flatMap_cons, List.flatMap_nil, List.append_nil, Option.bind_some]
  · rw [hrep, hdrop]
    refine ⟨_, rfl, ?_⟩
    simp only [↓reduceIte]
    rw [readLines_closed]
    rw [hls] at hpieces
    have hf := flatMap_split_of_not_mem fun l hl => hpieces l (List.mem_append_left _ hl)
    have hb := flatMap_split_of_not_mem fun l hl =>
      hpieces l (List.mem_append_right _ (List.mem_cons_of_mem line hl))
    rw [List.flatMap_append, List.flatMap_cons, hf, hb, readLines_append, readLines_append, hfront,
      hback]
    simp only [Option.bind_some, Option.map_some]
    cases readLines (split '\n' (ruleLine text policy)) <;> rfl

/-!
## The beginnings of a file

A write that is cut short leaves a beginning of the file. It is not read, or reads as a beginning
of the entries of the file (`readLines_beginning`), and there is one for each beginning of those
(`exists_beginning`). A file with a rule has one that does not parse, which ends in the first
character of that rule (`exists_unread_beginning`).
-/

/-! ### Pieces of a beginning -/

end Gmap
