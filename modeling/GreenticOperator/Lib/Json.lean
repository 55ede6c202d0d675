import GreenticOperator.Lib.SortedMap
import GreenticOperator.Lib.Text

/-!
# Json — JSON values and the lookups programs make in them

A number is an unsigned or a negative 64-bit integer, or a floating-point number kept as
its text. Every lookup is total: asking a value for something it is not answers `none`.
-/

namespace Json

inductive Number
  | posInt (n : UInt64)
  | negInt (n : Int64)
  | float (text : String)
deriving DecidableEq, Repr

inductive Value
  | null
  | bool (b : Bool)
  | number (n : Number)
  | string (s : String)
  | array (items : List Value)
  | object (fields : List (String × Value))
deriving Repr

namespace Value

/-- The value of a field, where the value is an object that has it. -/
def get (key : String) : Value → Option Value
  | object fields => fields.lookup key
  | _ => none

def asStr : Value → Option String
  | string s => some s
  | _ => none

def asBool : Value → Option Bool
  | bool b => some b
  | _ => none

def asArray : Value → Option (List Value)
  | array items => some items
  | _ => none

def asObject : Value → Option (List (String × Value))
  | object fields => some fields
  | _ => none

/-- The number as a signed 64-bit integer, where it is one. -/
def asI64 : Value → Option Int64
  | number (.posInt n) => if n.toNat < 2 ^ 63 then some (Int64.ofNat n.toNat) else none
  | number (.negInt n) => some n
  | _ => none

/-- The number as an unsigned 64-bit integer, where it is one. -/
def asU64 : Value → Option UInt64
  | number (.posInt n) => some n
  | _ => none

/-- An array index as a path segment writes it: digits, without a leading zero. -/
def parseIndex (token : String) : Option Nat :=
  if token.toList = [] ∨ (token.toList.head? = some '0' ∧ token.length ≠ 1) then none
  else if token.toList.all Char.isDigit then
    some (token.toList.foldl (fun n c => n * 10 + (c.toNat - '0'.toNat)) 0)
  else none

/-- The value at the end of a path of names and indices. -/
def follow : List String → Value → Option Value
  | [], v => some v
  | token :: rest, object fields => (fields.lookup token).bind (follow rest)
  | token :: rest, array items =>
    (parseIndex token).bind fun i => (items[i]?).bind (follow rest)
  | _ :: _, _ => none

/-- A pointer segment without its escapes: `~1` stands for a slash and `~0` for a tilde. -/
def unescape : List Char → List Char
  | '~' :: '1' :: rest => '/' :: unescape rest
  | '~' :: '0' :: rest => '~' :: unescape rest
  | c :: rest => c :: unescape rest
  | [] => []

/-- The value a JSON pointer text denotes. -/
def pointer (text : String) (v : Value) : Option Value :=
  if text = "" then some v
  else if Text.startsWithChar '/' text then
    follow ((Text.split '/' text).tail.map fun token => String.ofList (unescape token.toList)) v
  else none

/-- Fields in the order of their names, with one more or a new value for one of them. -/
def insertField (name : String) (v : Value) : List (String × Value) → List (String × Value)
  | [] => [(name, v)]
  | (other, w) :: rest =>
    if name = other then (name, v) :: rest
    else if name < other then (name, v) :: (other, w) :: rest
    else (other, w) :: insertField name v rest

/-- An object of fields given in any order; the last value of a name counts. -/
def ofFields (fields : List (String × Value)) : Value :=
  object (fields.foldl (fun done field => insertField field.1 field.2 done) [])

/-- A text, or null where there is none. -/
def ofOption : Option String → Value
  | some s => string s
  | none => null

def ofNat (n : Nat) : Value := number (.posInt (UInt64.ofNat n))

def ofBytes (bytes : List UInt8) : Value := array (bytes.map fun b => ofNat b.toNat)

/-- A field that is left out where there is no value. -/
def present (name : String) (v : Option Value) : List (String × Value) :=
  (v.map fun v => (name, v)).toList

/-- The field of a record that may be missing or null; a field given twice is an error. -/
def optionalField {α : Type} (read : Value → Option α) (name : String)
    (fields : List (String × Value)) : Option (Option α) :=
  match fields.filter fun field => field.1 == name with
  | [] => some none
  | [(_, v)] => if v matches .null then some none else (read v).map some
  | _ => none

theorem lookup_insertField (key name : String) (v : Value) (fields : List (String × Value)) :
    (insertField name v fields).lookup key = if key = name then some v else fields.lookup key := by
  induction fields with
  | nil =>
    unfold insertField
    by_cases h : key = name
    · rw [if_pos h, h, List.lookup_cons_self]
    · rw [if_neg h, List.lookup_cons, beq_eq_false_iff_ne.mpr h]
  | cons field rest ih =>
    obtain ⟨other, w⟩ := field
    unfold insertField
    by_cases h : key = name
    · rw [if_pos h] at ih ⊢
      subst h
      split
      · rw [List.lookup_cons_self]
      · split
        · rw [List.lookup_cons_self]
        next hother _ => rw [List.lookup_cons, beq_eq_false_iff_ne.mpr hother, ih]
    · rw [if_neg h] at ih ⊢
      have hname := beq_eq_false_iff_ne.mpr h
      split
      next hother => rw [List.lookup_cons, hname, List.lookup_cons, ← hother, hname]
      · split
        · rw [List.lookup_cons, hname]
        · rw [List.lookup_cons, List.lookup_cons, ih]

/-- Where no name is given twice, a lookup finds exactly the fields there are. -/
theorem lookup_eq_some_iff {fields : List (String × Value)} (h : (fields.map Prod.fst).Nodup)
    {key : String} {v : Value} : fields.lookup key = some v ↔ (key, v) ∈ fields :=
  SortedMap.lookup_eq_some_iff_of_nodup h

/-- A field given once has the value it was given. -/
theorem get_ofFields_cons {key : String} {v : Value} {fields : List (String × Value)}
    (h : ∀ field ∈ fields, key ≠ field.1) : (ofFields ((key, v) :: fields)).get key = some v := by
  have hrest : ∀ done : List (String × Value), done.lookup key = some v →
      (fields.foldl (fun done field => insertField field.1 field.2 done) done).lookup key = some v := by
    induction fields with
    | nil => exact fun _ hdone => hdone
    | cons field fields ih =>
      intro done hdone
      refine ih (fun other hother => h other (List.mem_cons_of_mem field hother)) _ ?_
      rw [lookup_insertField, if_neg (h field List.mem_cons_self), hdone]
  exact hrest _ (by rw [lookup_insertField, if_pos rfl])

/-! ### Objects of fields with names of their own -/

theorem insertField_perm {name : String} {v : Value} {fields : List (String × Value)}
    (h : name ∉ fields.map Prod.fst) : (insertField name v fields).Perm ((name, v) :: fields) := by
  induction fields with
  | nil => exact List.Perm.refl _
  | cons field rest ih =>
    obtain ⟨other, w⟩ := field
    obtain ⟨hne, hrest⟩ := not_or.mp (List.mem_cons.not.mp h)
    unfold insertField
    rw [if_neg hne]
    split
    · exact List.Perm.refl _
    · exact ((ih hrest).cons (other, w)).trans (List.Perm.swap (name, v) (other, w) rest)

/-- Where no name is given twice, an object has exactly the fields it was given. -/
theorem ofFields_perm {fields : List (String × Value)} (h : (fields.map Prod.fst).Nodup) :
    ∃ stored, ofFields fields = object stored ∧ stored.Perm fields := by
  have hfold : ∀ done : List (String × Value), ((fields ++ done).map Prod.fst).Nodup →
      (fields.foldl (fun done field => insertField field.1 field.2 done) done).Perm (fields ++ done) := by
    clear h
    induction fields with
    | nil => exact fun done _ => List.Perm.refl done
    | cons field fields ih =>
      intro done hnodup
      have hfresh : field.1 ∉ done.map Prod.fst := fun hmem => by
        rw [List.cons_append, List.map_cons, List.nodup_cons, List.map_append] at hnodup
        exact hnodup.1 (List.mem_append_right _ hmem)
      have hmoved : (field :: fields ++ done).Perm (fields ++ insertField field.1 field.2 done) :=
        List.perm_middle.symm.trans ((insertField_perm hfresh).symm.append_left fields)
      have hstep := ih (insertField field.1 field.2 done) ((hmoved.map Prod.fst).nodup_iff.mp hnodup)
      exact hstep.trans hmoved.symm
  refine ⟨_, rfl, ?_⟩
  simpa using hfold [] (by simpa using h)

theorem insertField_eq_alter (name : String) (v : Value) (fields : List (String × Value)) :
    insertField name v fields = SortedMap.alter name (fun _ => v) fields := by
  induction fields with
  | nil => rfl
  | cons field rest ih =>
    obtain ⟨other, w⟩ := field
    rw [insertField, SortedMap.alter, ih]
    split
    next heq => rw [heq]
    next => rfl

/-- The fields of an object are in the order of their names. -/
theorem ordered_ofFields (fields : List (String × Value)) :
    ∃ stored, ofFields fields = object stored ∧ SortedMap.Ordered stored := by
  suffices h : ∀ done, SortedMap.Ordered done →
      SortedMap.Ordered (fields.foldl (fun done field => insertField field.1 field.2 done) done) from
    ⟨_, rfl, h [] SortedMap.ordered_nil⟩
  induction fields with
  | nil => exact fun _ hdone => hdone
  | cons field fields ih =>
    intro done hdone
    refine ih _ ?_
    show SortedMap.Ordered (insertField field.1 field.2 done)
    rw [insertField_eq_alter]
    exact SortedMap.ordered_alter field.1 _ hdone

theorem lookup_perm {stored fields : List (String × Value)} (h : stored.Perm fields)
    (hnodup : (fields.map Prod.fst).Nodup) (key : String) : stored.lookup key = fields.lookup key := by
  have hstored : (stored.map Prod.fst).Nodup := (h.map Prod.fst).nodup_iff.mpr hnodup
  refine Option.ext fun v => ?_
  rw [lookup_eq_some_iff hstored, lookup_eq_some_iff hnodup, h.mem_iff]

/-- A field of an object of fields with names of their own. -/
theorem get_ofFields {fields : List (String × Value)} (h : (fields.map Prod.fst).Nodup) (key : String) :
    (ofFields fields).get key = fields.lookup key := by
  obtain ⟨stored, heq, hperm⟩ := ofFields_perm h
  rw [heq]
  exact lookup_perm hperm h key

/-- An object does not remember the order its fields were given in. -/
theorem ofFields_eq_of_perm {fields other : List (String × Value)} (h : fields.Perm other)
    (hnodup : (fields.map Prod.fst).Nodup) : ofFields fields = ofFields other := by
  obtain ⟨stored, heq, hordered⟩ := ordered_ofFields fields
  obtain ⟨stored', heq', hordered'⟩ := ordered_ofFields other
  have hnodup' : (other.map Prod.fst).Nodup := (h.map Prod.fst).nodup_iff.mp hnodup
  rw [heq, heq', hordered.ext hordered' fun key => ?_]
  have hget := get_ofFields hnodup key
  have hget' := get_ofFields hnodup' key
  rw [heq] at hget
  rw [heq'] at hget'
  exact hget.trans ((lookup_perm h hnodup' key).trans hget'.symm)

theorem filter_key_of_nodup {fields : List (String × Value)} (h : (fields.map Prod.fst).Nodup) (key : String) :
    (fields.filter fun field => field.1 == key) = ((fields.lookup key).map fun v => (key, v)).toList := by
  induction fields with
  | nil => rfl
  | cons field fields ih =>
    obtain ⟨other, w⟩ := field
    rw [List.map_cons, List.nodup_cons] at h
    rw [List.filter_cons, List.lookup_cons]
    by_cases hkey : key = other
    · subst hkey
      have hnone : fields.lookup key = none := by
        refine Option.eq_none_iff_forall_not_mem.mpr fun v hv => h.1 ?_
        exact List.mem_map.mpr ⟨(key, v), (lookup_eq_some_iff h.2).mp hv, rfl⟩
      simp [ih h.2, hnone]
    · have hother : (other == key) = false := beq_eq_false_iff_ne.mpr (Ne.symm hkey)
      have hkey' : (key == other) = false := beq_eq_false_iff_ne.mpr hkey
      simp only [hother, hkey', Bool.false_eq_true, ↓reduceIte, ih h.2]

@[simp] theorem lookup_present (key name : String) (v : Option Value) :
    (present name v).lookup key = if key = name then v else none := by
  cases v with
  | none => simp [present]
  | some v =>
    by_cases h : key = name
    · simp [present, h]
    · simp [present, List.lookup_cons, beq_eq_false_iff_ne.mpr h, h]

end Value

end Json
