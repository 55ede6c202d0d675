import GreenticOperator.Lib.SortedMap
import GreenticOperator.Wizard.PackId
import Mathlib.Data.List.Infix

/-!
# The ids that references are given

An id that is derived, with or without a number, is made of letters, digits, dashes and underscores
(`PackIdText`), so it is no reference and a file name as it is. Records that were made by assigning
ids have every id and every reference once (`WellKept`, `wellKept_persist`), and which references
they have under which ids is read off the assignment (`recorded_persist_iff`).
-/

namespace Wizard

/-! ## The characters of an id -/

def isIdChar (c : Char) : Bool := Text.isAsciiAlphanumeric c || c == '-' || c == '_'

structure PackIdText (id : String) : Prop where
  not_empty : id ≠ ""
  chars : ∀ c ∈ id.toList, isIdChar c = true

theorem not_mem_of_not_isIdChar {id : String} (h : PackIdText id) {c : Char} (hc : isIdChar c = false) :
    c ∉ id.toList := by
  intro hmem
  rw [h.chars c hmem] at hc
  cases hc

theorem isIdChar_of_isAsciiAlphanumeric {c : Char} (h : Text.isAsciiAlphanumeric c = true) : isIdChar c = true := by
  simp [isIdChar, h]

theorem isAsciiAlphanumeric_iff {c : Char} :
    Text.isAsciiAlphanumeric c = true
      ↔ (97 ≤ c.toNat ∧ c.toNat ≤ 122) ∨ (65 ≤ c.toNat ∧ c.toNat ≤ 90) ∨ (48 ≤ c.toNat ∧ c.toNat ≤ 57) := by
  have hle : ∀ a b : Char, a ≤ b ↔ a.toNat ≤ b.toNat := fun a b => UInt32.le_iff_toNat_le
  simp only [Text.isAsciiAlphanumeric, Bool.or_eq_true, Bool.and_eq_true, decide_eq_true_eq, hle, or_assoc]
  rfl

theorem isAsciiAlphanumeric_lowerAscii {c : Char} (h : Text.isAsciiAlphanumeric c = true) :
    Text.isAsciiAlphanumeric (lowerAscii c) = true := by
  unfold lowerAscii
  split
  next hupper =>
    have hle : ∀ a b : Char, a ≤ b ↔ a.toNat ≤ b.toNat := fun a b => UInt32.le_iff_toNat_le
    rw [hle, hle] at hupper
    have hlow : 65 ≤ c.toNat := hupper.1
    have hhigh : c.toNat ≤ 90 := hupper.2
    have hvalid : (c.toNat + 32).isValidChar := .inl (by omega)
    have hcode : (Char.ofNat (c.toNat + 32)).toNat = c.toNat + 32 := by
      rw [Char.ofNat, dif_pos hvalid]
      rfl
    rw [isAsciiAlphanumeric_iff, hcode]
    omega
  next => exact h

theorem not_isWhitespace_of_isIdChar {c : Char} (h : isIdChar c = true) : Text.isWhitespace c = false := by
  have hcode : (97 ≤ c.toNat ∧ c.toNat ≤ 122) ∨ (65 ≤ c.toNat ∧ c.toNat ≤ 90) ∨ (48 ≤ c.toNat ∧ c.toNat ≤ 57)
      ∨ c.toNat = 45 ∨ c.toNat = 95 := by
    simp only [isIdChar, Bool.or_eq_true, isAsciiAlphanumeric_iff, beq_iff_eq] at h
    rcases h with (h | rfl) | rfl
    · omega
    · exact .inr (.inr (.inr (.inl rfl)))
    · exact .inr (.inr (.inr (.inr rfl)))
  unfold Text.isWhitespace
  simp only [Bool.or_eq_false_iff, Bool.and_eq_false_iff, decide_eq_false_iff_not, beq_eq_false_iff_ne, ne_eq]
  omega

/-- An id is looked up as it is. -/
theorem trim_of_packIdText {id : String} (h : PackIdText id) : Text.trim id = id := by
  rw [Text.trim, Text.trimChars_eq_self_of_ends, String.ofList_toList]
  · exact fun c hc => not_isWhitespace_of_isIdChar (h.chars c (List.mem_of_head? hc))
  · exact fun c hc => not_isWhitespace_of_isIdChar (h.chars c (List.mem_of_getLast? hc))

theorem contains_scheme_eq_false {s : String} (h : '/' ∉ s.toList) : Text.contains "://" s = false := by
  unfold Text.contains
  rw [List.any_eq_false]
  intro rest hrest hprefix
  obtain ⟨back, hback⟩ := List.isPrefixOf_iff_prefix.mp hprefix
  have hmem : '/' ∈ rest := hback ▸ List.mem_append_left back (by decide)
  exact h (((List.mem_tails _ _).mp hrest).subset hmem)

theorem isPlain_iff {identifier : String} :
    isPlain identifier = true ↔ '/' ∉ identifier.toList ∧ '.' ∉ identifier.toList := by
  unfold isPlain
  simp only [Bool.and_eq_true, Bool.not_eq_true', List.contains_eq_mem, decide_eq_false_iff_not]
  exact ⟨fun ⟨⟨_, hslash⟩, hdot⟩ => ⟨hslash, hdot⟩,
    fun ⟨hslash, hdot⟩ => ⟨⟨contains_scheme_eq_false hslash, hslash⟩, hdot⟩⟩

theorem isPlain_of_packIdText {id : String} (h : PackIdText id) : isPlain id = true :=
  isPlain_iff.mpr ⟨not_mem_of_not_isIdChar h (by decide), not_mem_of_not_isIdChar h (by decide)⟩

/-- The file of a pack has a plain name. -/
theorem plain_fileName {id : String} (h : '/' ∉ id.toList) : Disk.Plain (fileName id) := by
  have hlength : 7 ≤ (fileName id).toList.length := by
    rw [fileName, String.toList_append, List.length_append]
    exact Nat.le_add_left 7 _
  have hne : ∀ name : String, name.toList.length < 7 → fileName id ≠ name := by
    rintro name hshort rfl
    omega
  refine ⟨hne _ (by decide), hne _ (by decide), hne _ (by decide), ?_⟩
  rw [fileName, String.toList_append, List.mem_append, not_or]
  exact ⟨h, by decide⟩

/-! ## Derived ids -/

theorem mem_trimMatches {sep c : Char} {s : String} (h : c ∈ (Text.trimMatches sep s).toList) : c ∈ s.toList := by
  unfold Text.trimMatches Text.trimEndMatches Text.trimStartMatches at h
  rw [String.toList_ofList, String.toList_ofList] at h
  exact (List.dropWhile_suffix _).subset ((List.rdropWhile_prefix _ _).subset h)

theorem isIdChar_of_mem_slugChars {prevDash : Bool} {l : List Char} {c : Char} (h : c ∈ slugChars prevDash l) :
    isIdChar c = true := by
  induction l generalizing prevDash with
  | nil => cases h
  | cons d l ih =>
    rw [slugChars] at h
    split at h
    next hd =>
      rcases List.mem_cons.mp h with rfl | h
      · exact isIdChar_of_isAsciiAlphanumeric (isAsciiAlphanumeric_lowerAscii hd)
      · exact ih h
    next =>
      split at h
      next => exact ih h
      next =>
        rcases List.mem_cons.mp h with rfl | h
        · rfl
        · exact ih h

theorem isIdChar_slugForPackId {value : String} {c : Char} (h : c ∈ (slugForPackId value).toList) :
    isIdChar c = true := by
  have hmem := mem_trimMatches h
  rw [String.toList_ofList] at hmem
  exact isIdChar_of_mem_slugChars hmem

theorem isIdChar_slugForTag {value : String} {c : Char} (h : c ∈ (slugForTag value).toList) :
    isIdChar c = true := by
  have hmem := mem_trimMatches h
  rw [String.toList_ofList] at hmem
  obtain ⟨d, -, rfl⟩ := List.mem_map.mp hmem
  split
  next hd => exact isIdChar_of_isAsciiAlphanumeric (isAsciiAlphanumeric_lowerAscii hd)
  next => rfl

theorem packIdText_append {id rest : String} (h : PackIdText id) (hrest : ∀ c ∈ rest.toList, isIdChar c = true) :
    PackIdText (id ++ rest) where
  not_empty heq := h.not_empty (String.append_eq_empty_iff.mp heq).1
  chars c hc := by
    rw [String.toList_append] at hc
    exact (List.mem_append.mp hc).elim (h.chars c) (hrest c)

theorem packIdText_slug (value : String) :
    PackIdText (if (slugForPackId value).isEmpty then "pack" else slugForPackId value) := by
  split
  next => exact ⟨by decide, List.all_eq_true.mp (by decide)⟩
  next h => exact ⟨fun heq => h (by rw [heq]; rfl), fun c hc => isIdChar_slugForPackId hc⟩

theorem packIdText_derive (reference : String) : PackIdText (derivePackIdFromReference reference) := by
  unfold derivePackIdFromReference
  dsimp only
  split
  next => exact ⟨by decide, List.all_eq_true.mp (by decide)⟩
  next =>
    split
    next => exact packIdText_slug _
    next tag _ =>
      split
      next => exact packIdText_slug _
      next =>
        rw [String.append_assoc]
        refine packIdText_append (packIdText_slug _) fun c hc => ?_
        rw [String.toList_append] at hc
        rcases List.mem_append.mp hc with hc | hc
        · rw [List.mem_singleton.mp hc]
          rfl
        · exact isIdChar_slugForTag hc

/-! ## Numbered ids -/

theorem numberedId_injective (base : String) : Function.Injective (numberedId base) := by
  intro m n h
  have hlist := congrArg String.toList h
  simp only [numberedId, String.toList_append] at hlist
  exact Text.toString_nat_injective (String.toList_injective (List.append_cancel_left hlist))

theorem isAsciiAlphanumeric_of_mem_toString {n : Nat} {c : Char} (h : c ∈ (toString n).toList) :
    Text.isAsciiAlphanumeric c = true := by
  rw [Nat.toString_eq_ofList_toDigits, String.toList_ofList] at h
  have hdigit := Nat.isDigit_of_mem_toDigits (by decide) (by decide) h
  rw [Char.isDigit, Bool.and_eq_true, decide_eq_true_eq, decide_eq_true_eq] at hdigit
  rw [isAsciiAlphanumeric_iff]
  exact .inr (.inr ⟨UInt32.le_iff_toNat_le.mp hdigit.1, UInt32.le_iff_toNat_le.mp hdigit.2⟩)

theorem packIdText_numberedId {base : String} (h : PackIdText base) (n : Nat) : PackIdText (numberedId base n) := by
  rw [numberedId, String.append_assoc]
  refine packIdText_append h fun c hc => ?_
  rw [String.toList_append] at hc
  rcases List.mem_append.mp hc with hc | hc
  · rw [List.mem_singleton.mp hc]
    rfl
  · exact isIdChar_of_isAsciiAlphanumeric (isAsciiAlphanumeric_of_mem_toString hc)

/-- The first name of a base that is not in use: the base, or it with the first number. -/
def IsNextFree (used : List String) (base id : String) : Prop :=
  id ∉ used ∧ (id = base ∨ (base ∈ used ∧ ∃ n ≥ 2, id = numberedId base n
    ∧ ∀ k ≥ 2, k < n → numberedId base k ∈ used))

theorem isNextFree_allocate (base : String) (used : List String) :
    IsNextFree used base (allocateUniquePackId base used) := by
  unfold allocateUniquePackId
  split
  next hused =>
    refine ⟨Fresh.firstFree_not_mem used (numberedId_injective base) 2, .inr ⟨hused, _, Fresh.le_firstFree _ _ _ _, rfl, ?_⟩⟩
    exact fun k hk hlt => Fresh.mem_of_lt_firstFree hk hlt
  next hfree => exact ⟨hfree, .inl rfl⟩

theorem IsNextFree.unique {used : List String} {base id id' : String} (h : IsNextFree used base id)
    (h' : IsNextFree used base id') : id = id' := by
  obtain ⟨hfree, rfl | ⟨hbase, n, hn, rfl, hbefore⟩⟩ := h
  · obtain ⟨hfree', rfl | ⟨hbase', -⟩⟩ := h'
    · rfl
    · exact absurd hbase' hfree
  · obtain ⟨hfree', rfl | ⟨-, n', hn', rfl, hbefore'⟩⟩ := h'
    · exact absurd hbase hfree'
    · rcases Nat.lt_trichotomy n n' with hlt | rfl | hlt
      · exact absurd (hbefore' n hn hlt) hfree
      · rfl
      · exact absurd (hbefore n' hn' hlt) hfree'

theorem allocateUniquePackId_eq_iff {base id : String} {used : List String} :
    allocateUniquePackId base used = id ↔ IsNextFree used base id :=
  ⟨fun h => h ▸ isNextFree_allocate base used, (isNextFree_allocate base used).unique⟩

theorem packIdText_allocate {base : String} (h : PackIdText base) (used : List String) :
    PackIdText (allocateUniquePackId base used) := by
  unfold allocateUniquePackId
  split
  next => exact packIdText_numberedId h _
  next => exact h

/-! ## Assigning ids -/

/-- What is known is consistent: an id that a reference has is in use, and no other has it. -/
structure KnownIds.Consistent (known : KnownIds) : Prop where
  used : ∀ reference id, known.byOriginalRef.lookup reference = some id → id ∈ known.usedIds
  apart : ∀ reference other id, known.byOriginalRef.lookup reference = some id →
    known.byOriginalRef.lookup other = some id → reference = other

theorem assignPackId_of_lookup {known : KnownIds} {reference id : String}
    (h : known.byOriginalRef.lookup reference = some id) : assignPackId known reference = id := by
  rw [assignPackId, h]

theorem assignPackId_of_unknown {known : KnownIds} {reference : String}
    (h : known.byOriginalRef.lookup reference = none) :
    assignPackId known reference = allocateUniquePackId (derivePackIdFromReference reference) known.usedIds := by
  rw [assignPackId, h]

theorem lookup_with (known : KnownIds) (reference id other : String) :
    (known.with reference id).byOriginalRef.lookup other
      = if other = reference then some id else known.byOriginalRef.lookup other := by
  rw [KnownIds.with, List.lookup_cons]
  by_cases h : other = reference
  · rw [h, beq_self_eq_true, if_pos rfl]
  · rw [beq_eq_false_iff_ne.mpr h, if_neg h]

theorem consistent_with {known : KnownIds} (h : known.Consistent) (reference : String) :
    (known.with reference (assignPackId known reference)).Consistent := by
  have hnew : ∀ other, other ≠ reference →
      known.byOriginalRef.lookup other ≠ some (assignPackId known reference) := by
    intro other hne hother
    cases hlookup : known.byOriginalRef.lookup reference with
    | some id =>
      rw [assignPackId_of_lookup hlookup] at hother
      exact hne (h.apart other reference id hother hlookup)
    | none =>
      rw [assignPackId_of_unknown hlookup] at hother
      exact (isNextFree_allocate _ _).1 (h.used other _ hother)
  refine ⟨fun other id hother => ?_, fun first second id hfirst hsecond => ?_⟩
  · rw [lookup_with] at hother
    split at hother
    next =>
      cases hother
      exact List.mem_cons_self
    next => exact List.mem_cons_of_mem _ (h.used other id hother)
  · rw [lookup_with] at hfirst hsecond
    split at hfirst
    next hf =>
      split at hsecond
      next hs => rw [hf, hs]
      next hs =>
        cases hfirst
        exact absurd hsecond (hnew second hs)
    next hf =>
      split at hsecond
      next hs =>
        cases hsecond
        exact absurd hfirst (hnew first hf)
      next => exact h.apart first second id hfirst hsecond

/-- What is known after a list of references. -/
def KnownIds.after (known : KnownIds) (references : List String) : KnownIds :=
  references.foldl (fun known reference => known.with reference (assignPackId known reference)) known

theorem consistent_after {known : KnownIds} (h : known.Consistent) (references : List String) :
    (known.after references).Consistent := by
  induction references generalizing known with
  | nil => exact h
  | cons reference references ih => exact ih (consistent_with h reference)

theorem lookup_after_of_not_mem {known : KnownIds} {references : List String} {other : String}
    (h : other ∉ references) : (known.after references).byOriginalRef.lookup other = known.byOriginalRef.lookup other := by
  induction references generalizing known with
  | nil => rfl
  | cons reference references ih =>
    rw [List.mem_cons, not_or] at h
    rw [KnownIds.after, List.foldl_cons, ← KnownIds.after, ih h.2, lookup_with, if_neg h.1]

/-- A known reference keeps its id. -/
theorem lookup_after_of_lookup {known : KnownIds} {references : List String} {other id : String}
    (h : known.byOriginalRef.lookup other = some id) : (known.after references).byOriginalRef.lookup other = some id := by
  induction references generalizing known with
  | nil => exact h
  | cons reference references ih =>
    rw [KnownIds.after, List.foldl_cons, ← KnownIds.after]
    refine ih ?_
    rw [lookup_with]
    split
    next heq =>
      subst heq
      rw [assignPackId_of_lookup h]
    next => exact h

theorem mem_usedIds_after {known : KnownIds} {references : List String} {id : String} :
    id ∈ (known.after references).usedIds
      ↔ id ∈ known.usedIds ∨ id ∈ (assignPackIds known references).map Prod.snd := by
  induction references generalizing known with
  | nil => simp [KnownIds.after, assignPackIds]
  | cons reference references ih =>
    rw [KnownIds.after, List.foldl_cons, ← KnownIds.after, ih, assignPackIds, List.map_cons, List.mem_cons]
    change id ∈ assignPackId known reference :: known.usedIds ∨ _ ↔ _
    rw [List.mem_cons, or_comm (a := id = _), or_assoc]

theorem map_fst_assignPackIds (known : KnownIds) (references : List String) :
    (assignPackIds known references).map Prod.fst = references := by
  induction references generalizing known with
  | nil => rfl
  | cons reference references ih => rw [assignPackIds, List.map_cons, ih]

/-- What is assigned is what is known of a reference afterwards. -/
theorem mem_assignPackIds_iff {known : KnownIds} {references : List String} {reference id : String} :
    (reference, id) ∈ assignPackIds known references
      ↔ reference ∈ references ∧ (known.after references).byOriginalRef.lookup reference = some id := by
  induction references generalizing known with
  | nil => simp [assignPackIds]
  | cons first references ih =>
    have hknown : (known.with first (assignPackId known first)).byOriginalRef.lookup first
        = some (assignPackId known first) := by rw [lookup_with, if_pos rfl]
    have hfirst := @lookup_after_of_lookup _ references _ _ hknown
    rw [assignPackIds, List.mem_cons, Prod.mk.injEq, ih, List.mem_cons]
    change _ ↔ _ ∧ ((known.with first (assignPackId known first)).after references).byOriginalRef.lookup reference = _
    constructor
    · rintro (⟨rfl, rfl⟩ | ⟨hmem, hlookup⟩)
      · exact ⟨.inl rfl, hfirst⟩
      · exact ⟨.inr hmem, hlookup⟩
    · rintro ⟨rfl | hmem, hlookup⟩
      · rw [hfirst] at hlookup
        exact .inl ⟨rfl, (Option.some.inj hlookup).symm⟩
      · exact .inr ⟨hmem, hlookup⟩

/-! ## Records -/

/-- A reference is recorded under an id. -/
def Recorded (records : List PackMappingRecord) (reference id : String) : Prop :=
  ∃ record ∈ records, record.originalRef = reference ∧ record.packId = id

/-- Every id and every reference is recorded once, as an id and as a trimmed reference. -/
structure WellKept (records : List PackMappingRecord) : Prop where
  ids : (records.map (·.packId)).Nodup
  refs : (records.map (·.originalRef)).Nodup
  named : ∀ record ∈ records, PackIdText record.packId
  trimmed : ∀ record ∈ records, Text.trim record.originalRef = record.originalRef
  not_blank : ∀ record ∈ records, record.originalRef ≠ ""

theorem wellKept_nil : WellKept [] := ⟨.nil, .nil, nofun, nofun, nofun⟩

/-- Every id and every reference is recorded once, and no reference is blank. -/
structure OneToOne (records : List PackMappingRecord) : Prop where
  ids : (records.map (·.packId)).Nodup
  refs : (records.map (·.originalRef)).Nodup
  not_blank : ∀ record ∈ records, (Text.trim record.originalRef).isEmpty = false

theorem oneToOne_nil : OneToOne [] := ⟨.nil, .nil, nofun⟩

theorem WellKept.oneToOne {records : List PackMappingRecord} (h : WellKept records) : OneToOne records where
  ids := h.ids
  refs := h.refs
  not_blank record hrecord := by
    rw [h.trimmed record hrecord, ← Bool.not_eq_true, String.isEmpty_iff]
    exact h.not_blank record hrecord

theorem OneToOne.eq_of_packId {records : List PackMappingRecord} (h : OneToOne records) {a b : PackMappingRecord}
    (ha : a ∈ records) (hb : b ∈ records) (heq : a.packId = b.packId) : a = b :=
  List.inj_on_of_nodup_map h.ids ha hb heq

theorem OneToOne.eq_of_originalRef {records : List PackMappingRecord} (h : OneToOne records) {a b : PackMappingRecord}
    (ha : a ∈ records) (hb : b ∈ records) (heq : a.originalRef = b.originalRef) : a = b :=
  List.inj_on_of_nodup_map h.refs ha hb heq

/-- The id of a reference is the only one recorded for it. -/
theorem OneToOne.recorded_inj {records : List PackMappingRecord} (h : OneToOne records) {reference id id' : String}
    (hid : Recorded records reference id) (hid' : Recorded records reference id') : id = id' := by
  obtain ⟨a, ha, rfl, rfl⟩ := hid
  obtain ⟨b, hb, href, rfl⟩ := hid'
  rw [h.eq_of_originalRef ha hb href.symm]

/-- The reference of an id is the only one recorded under it. -/
theorem OneToOne.recorded_apart {records : List PackMappingRecord} (h : OneToOne records) {reference other id : String}
    (hid : Recorded records reference id) (hid' : Recorded records other id) : reference = other := by
  obtain ⟨a, ha, rfl, rfl⟩ := hid
  obtain ⟨b, hb, rfl, heq⟩ := hid'
  rw [h.eq_of_packId ha hb heq.symm]

theorem lookup_byOriginalRef {records : List PackMappingRecord} (h : OneToOne records) {reference id : String} :
    (knownIds records).byOriginalRef.lookup reference = some id ↔ Recorded records reference id := by
  have hkeep : (records.filter fun record => !(Text.trim record.originalRef).isEmpty) = records := by
    refine List.filter_eq_self.mpr fun record hrecord => ?_
    rw [h.not_blank record hrecord, Bool.not_false]
  unfold knownIds
  dsimp only
  rw [hkeep]
  have hnodup : ((records.map fun record => (record.originalRef, record.packId)).reverse.map Prod.fst).Nodup := by
    rw [List.map_reverse, List.map_map, List.nodup_reverse]
    exact h.refs
  rw [SortedMap.lookup_eq_some_iff_of_nodup hnodup, List.mem_reverse, List.mem_map]
  simp only [Prod.mk.injEq]
  rfl

theorem consistent_knownIds {records : List PackMappingRecord} (h : OneToOne records) :
    (knownIds records).Consistent where
  used reference id hlookup := by
    obtain ⟨record, hrecord, -, rfl⟩ := (lookup_byOriginalRef h).mp hlookup
    exact List.mem_map_of_mem hrecord
  apart reference other id hreference hother :=
    h.recorded_apart ((lookup_byOriginalRef h).mp hreference) ((lookup_byOriginalRef h).mp hother)

theorem map_packId_upsert (next : PackMappingRecord) (records : List PackMappingRecord) :
    (upsertPackMapping next records).map (·.packId)
      = if next.packId ∈ records.map (·.packId) then records.map (·.packId)
        else records.map (·.packId) ++ [next.packId] := by
  induction records with
  | nil => rfl
  | cons record records ih =>
    rw [upsertPackMapping]
    split
    next h => simp [h]
    next h =>
      rw [List.map_cons, ih, List.map_cons]
      by_cases hmem : next.packId ∈ records.map (·.packId)
      · rw [if_pos hmem, if_pos (List.mem_cons_of_mem _ hmem)]
      · rw [if_neg hmem, if_neg fun hcons => (List.mem_cons.mp hcons).elim (fun heq => h heq.symm) hmem,
          List.cons_append]

theorem nodup_upsert (next : PackMappingRecord) {records : List PackMappingRecord}
    (h : (records.map (·.packId)).Nodup) : ((upsertPackMapping next records).map (·.packId)).Nodup := by
  rw [map_packId_upsert]
  split
  next => exact h
  next hnew => exact List.nodup_append.mpr ⟨h, List.nodup_singleton _, fun id hid other hother heq =>
    hnew (List.mem_singleton.mp hother ▸ heq ▸ hid)⟩

theorem mem_upsertPackMapping {next record : PackMappingRecord} {records : List PackMappingRecord}
    (h : (records.map (·.packId)).Nodup) :
    record ∈ upsertPackMapping next records
      ↔ record = next ∨ (record ∈ records ∧ record.packId ≠ next.packId) := by
  induction records with
  | nil => simp [upsertPackMapping]
  | cons first records ih =>
    obtain ⟨hfirst, hrest⟩ := List.nodup_cons.mp h
    rw [upsertPackMapping]
    split
    next heq =>
      rw [List.mem_cons, List.mem_cons]
      refine or_congr_right ⟨fun hmem => ⟨.inr hmem, fun hid => hfirst ?_⟩, fun ⟨hmem, hne⟩ => ?_⟩
      · exact List.mem_map.mpr ⟨record, hmem, hid.trans heq.symm⟩
      · rcases hmem with rfl | hmem
        · exact absurd heq hne
        · exact hmem
    next hne =>
      rw [List.mem_cons, ih hrest, List.mem_cons]
      constructor
      · rintro (rfl | rfl | ⟨hmem, hid⟩)
        · exact .inr ⟨.inl rfl, hne⟩
        · exact .inl rfl
        · exact .inr ⟨.inr hmem, hid⟩
      · rintro (rfl | ⟨rfl | hmem, hid⟩)
        · exact .inr (.inl rfl)
        · exact .inl rfl
        · exact .inr (.inr ⟨hmem, hid⟩)

theorem recorded_upsert_iff {next : PackMappingRecord} {records : List PackMappingRecord}
    (h : (records.map (·.packId)).Nodup) {reference id : String} :
    Recorded (upsertPackMapping next records) reference id
      ↔ (reference = next.originalRef ∧ id = next.packId) ∨ (Recorded records reference id ∧ id ≠ next.packId) := by
  unfold Recorded
  constructor
  · rintro ⟨record, hrecord, rfl, rfl⟩
    rcases (mem_upsertPackMapping h).mp hrecord with rfl | ⟨hmem, hne⟩
    · exact .inl ⟨rfl, rfl⟩
    · exact .inr ⟨⟨record, hmem, rfl, rfl⟩, hne⟩
  · rintro (⟨rfl, rfl⟩ | ⟨⟨record, hrecord, rfl, rfl⟩, hne⟩)
    · exact ⟨next, (mem_upsertPackMapping h).mpr (.inl rfl), rfl, rfl⟩
    · exact ⟨record, (mem_upsertPackMapping h).mpr (.inr ⟨hrecord, hne⟩), rfl, rfl⟩

/-! ## Records after an assignment -/

section Persist

variable {records next : List PackMappingRecord} {references : List String}

/-- One upsert: what is recorded is what is known, and so it is after the reference has its id. -/
theorem recorded_upsert_known {known : KnownIds} {first : PackMappingRecord} (hknown : known.Consistent)
    (hids : (records.map (·.packId)).Nodup)
    (hrecorded : ∀ reference id, Recorded records reference id ↔ known.byOriginalRef.lookup reference = some id)
    (hfirst : first.packId = assignPackId known first.originalRef) (reference id : String) :
    Recorded (upsertPackMapping first records) reference id
      ↔ (known.with first.originalRef first.packId).byOriginalRef.lookup reference = some id := by
  have hthere : (known.with first.originalRef first.packId).byOriginalRef.lookup first.originalRef = some first.packId := by
    rw [lookup_with, if_pos rfl]
  have hafter := hfirst ▸ consistent_with hknown first.originalRef
  rw [recorded_upsert_iff hids, hrecorded]
  by_cases href : reference = first.originalRef
  · subst href
    rw [hthere, Option.some.injEq]
    constructor
    · rintro (⟨-, rfl⟩ | ⟨hlookup, hne⟩)
      · rfl
      · exact absurd (assignPackId_of_lookup hlookup ▸ hfirst).symm hne
    · intro hid
      exact .inl ⟨rfl, hid.symm⟩
  · have hlookup : (known.with first.originalRef first.packId).byOriginalRef.lookup reference
        = known.byOriginalRef.lookup reference := by rw [lookup_with, if_neg href]
    rw [hlookup]
    constructor
    · rintro (⟨heq, -⟩ | ⟨hother, -⟩)
      · exact absurd heq href
      · exact hother
    · intro hother
      -- the id of another reference is not the one that is given now
      refine .inr ⟨hother, fun hid => href ?_⟩
      exact hafter.apart _ _ _ (hlookup.trans (hid ▸ hother)) hthere

/-- All upserts, by induction on the new records: the known ids are carried along. -/
theorem recorded_foldl_upsert {known : KnownIds} (hknown : known.Consistent) (hids : (records.map (·.packId)).Nodup)
    (hrecorded : ∀ reference id, Recorded records reference id ↔ known.byOriginalRef.lookup reference = some id)
    (hnext : next.map (fun record => (record.originalRef, record.packId)) = assignPackIds known references) :
    ((next.foldl (fun records record => upsertPackMapping record records) records).map (·.packId)).Nodup
      ∧ ∀ reference id, Recorded (next.foldl (fun records record => upsertPackMapping record records) records) reference id
        ↔ (known.after references).byOriginalRef.lookup reference = some id := by
  induction next generalizing known records references with
  | nil =>
    cases references with
    | nil => exact ⟨hids, hrecorded⟩
    | cons reference references => cases hnext
  | cons first next ih =>
    cases references with
    | nil => cases hnext
    | cons reference references =>
      rw [List.map_cons, assignPackIds, List.cons.injEq, Prod.mk.injEq] at hnext
      obtain ⟨⟨rfl, hid⟩, hrest⟩ := hnext
      rw [← hid] at hrest
      have hafter := consistent_with hknown first.originalRef
      rw [← hid] at hafter
      have hrun := ih hafter (nodup_upsert first hids) (recorded_upsert_known hknown hids hrecorded hid) hrest
      have hstep : known.after (first.originalRef :: references)
          = (known.with first.originalRef first.packId).after references := by
        rw [KnownIds.after, List.foldl_cons, ← KnownIds.after, ← hid]
      rw [hstep]
      exact hrun

theorem recorded_persistMetadata {reference id : String} :
    Recorded (persistMetadata next records) reference id
      ↔ Recorded (next.foldl (fun records record => upsertPackMapping record records) records) reference id := by
  unfold Recorded persistMetadata
  simp only [List.mem_insertionSort]

/-- **The records after an assignment** have each reference under the id that is known of it then. -/
theorem recorded_persist_iff (h : OneToOne records)
    (hnext : next.map (fun record => (record.originalRef, record.packId))
      = assignPackIds (knownIds records) references) {reference id : String} :
    Recorded (persistMetadata next records) reference id
      ↔ ((knownIds records).after references).byOriginalRef.lookup reference = some id :=
  recorded_persistMetadata.trans ((recorded_foldl_upsert (consistent_knownIds h) h.ids
    (fun _ _ => (lookup_byOriginalRef h).symm) hnext).2 reference id)

theorem nodup_persist (h : OneToOne records)
    (hnext : next.map (fun record => (record.originalRef, record.packId))
      = assignPackIds (knownIds records) references) : ((persistMetadata next records).map (·.packId)).Nodup := by
  have hperm := (List.perm_insertionSort (fun a b : PackMappingRecord => a.packId ≤ b.packId)
    (next.foldl (fun records record => upsertPackMapping record records) records)).map (·.packId)
  exact hperm.nodup_iff.mpr
    (recorded_foldl_upsert (consistent_knownIds h) h.ids (fun _ _ => (lookup_byOriginalRef h).symm) hnext).1

/-- What is recorded after an assignment was asked for, or was recorded before. -/
theorem recorded_persist_cases (h : OneToOne records)
    (hnext : next.map (fun record => (record.originalRef, record.packId))
      = assignPackIds (knownIds records) references) {reference id : String}
    (hrecorded : Recorded (persistMetadata next records) reference id) :
    reference ∈ references ∨ Recorded records reference id := by
  rw [recorded_persist_iff h hnext] at hrecorded
  by_cases hmem : reference ∈ references
  · exact .inl hmem
  · rw [lookup_after_of_not_mem hmem] at hrecorded
    exact .inr ((lookup_byOriginalRef h).mp hrecorded)

/-- What is recorded stays recorded. -/
theorem recorded_persist_of_recorded (h : OneToOne records)
    (hnext : next.map (fun record => (record.originalRef, record.packId))
      = assignPackIds (knownIds records) references) {reference id : String} (hrecorded : Recorded records reference id) :
    Recorded (persistMetadata next records) reference id :=
  (recorded_persist_iff h hnext).mpr (lookup_after_of_lookup ((lookup_byOriginalRef h).mpr hrecorded))

theorem oneToOne_persist (h : OneToOne records)
    (hblank : ∀ reference ∈ references, (Text.trim reference).isEmpty = false)
    (hnext : next.map (fun record => (record.originalRef, record.packId))
      = assignPackIds (knownIds records) references) : OneToOne (persistMetadata next records) := by
  have hids := nodup_persist h hnext
  have hlookup : ∀ record ∈ persistMetadata next records,
      ((knownIds records).after references).byOriginalRef.lookup record.originalRef = some record.packId :=
    fun record hrecord => (recorded_persist_iff h hnext).mp ⟨record, hrecord, rfl, rfl⟩
  refine ⟨hids, List.Nodup.map_on (fun a ha b hb heq => ?_) hids.of_map, fun record hrecord => ?_⟩
  · have hid : a.packId = b.packId := by
      have ha' := hlookup a ha
      rw [heq, hlookup b hb] at ha'
      exact (Option.some.inj ha').symm
    exact List.inj_on_of_nodup_map hids ha hb hid
  · rcases recorded_persist_cases h hnext ⟨record, hrecord, rfl, rfl⟩ with hmem | ⟨other, hother, heq, -⟩
    · exact hblank _ hmem
    · rw [← heq]
      exact h.not_blank other hother

theorem packIdText_after {known : KnownIds} {references : List String}
    (h : ∀ reference id, known.byOriginalRef.lookup reference = some id → PackIdText id) :
    ∀ reference id, (known.after references).byOriginalRef.lookup reference = some id → PackIdText id := by
  induction references generalizing known with
  | nil => exact h
  | cons first references ih =>
    refine ih fun reference id hlookup => ?_
    rw [lookup_with] at hlookup
    split at hlookup
    next =>
      cases hlookup
      cases hknown : known.byOriginalRef.lookup first with
      | some id => exact assignPackId_of_lookup hknown ▸ h first id hknown
      | none => exact assignPackId_of_unknown hknown ▸ packIdText_allocate (packIdText_derive first) _
    next => exact h reference id hlookup

theorem packIdText_persist (h : OneToOne records) (hnamed : ∀ record ∈ records, PackIdText record.packId)
    (hnext : next.map (fun record => (record.originalRef, record.packId))
      = assignPackIds (knownIds records) references) :
    ∀ record ∈ persistMetadata next records, PackIdText record.packId := by
  intro record hrecord
  have hlookup := (recorded_persist_iff h hnext).mp ⟨record, hrecord, rfl, rfl⟩
  refine packIdText_after (fun reference id hknown => ?_) _ _ hlookup
  obtain ⟨other, hother, -, rfl⟩ := (lookup_byOriginalRef h).mp hknown
  exact hnamed other hother

theorem wellKept_persist (h : WellKept records)
    (htrimmed : ∀ reference ∈ references, Text.trim reference = reference)
    (hblank : ∀ reference ∈ references, reference ≠ "")
    (hnext : next.map (fun record => (record.originalRef, record.packId))
      = assignPackIds (knownIds records) references) : WellKept (persistMetadata next records) := by
  have hempty : ∀ reference ∈ references, (Text.trim reference).isEmpty = false := by
    intro reference hreference
    rw [htrimmed reference hreference, ← Bool.not_eq_true, String.isEmpty_iff]
    exact hblank reference hreference
  have hone := oneToOne_persist h.oneToOne hempty hnext
  have hcases : ∀ record ∈ persistMetadata next records, record.originalRef ∈ references
      ∨ Recorded records record.originalRef record.packId :=
    fun record hrecord => recorded_persist_cases h.oneToOne hnext ⟨record, hrecord, rfl, rfl⟩
  refine ⟨hone.ids, hone.refs, packIdText_persist h.oneToOne h.named hnext, fun record hrecord => ?_, fun record hrecord => ?_⟩
  · rcases hcases record hrecord with hmem | ⟨other, hother, heq, -⟩
    · exact htrimmed _ hmem
    · rw [← heq]
      exact h.trimmed other hother
  · rcases hcases record hrecord with hmem | ⟨other, hother, heq, -⟩
    · exact hblank _ hmem
    · rw [← heq]
      exact h.not_blank other hother

end Persist

end Wizard
