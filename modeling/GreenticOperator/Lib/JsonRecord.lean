import GreenticOperator.Lib.Json

/-!
# JsonRecord — records read from JSON values

A record is read field by field. A field has its name once or an error is the outcome; one that is
missing is what the record says of it, or an error. A field may be known under a second name. A
record may also be given as an array of its fields in their order.

`field_eq` says what a field of an object is read as, where the object has names of its own, and
`exists_written` that an object written from such fields is read so. What is written in a list is
read back in it (`listOf_array`).
-/

namespace Json.Value

variable {α β : Type}

/-- A field of a record, with what it is where it is missing; a field given twice is an error. -/
def field (missing : Option α) (read : Value → Option α) (name : String) (fields : List (String × Value)) :
    Option α :=
  match fields.filter fun field => field.1 == name with
  | [] => missing
  | [(_, v)] => read v
  | _ => none

/-- A value that may be null. -/
def nullable (read : Value → Option α) : Value → Option (Option α)
  | null => some none
  | v => (read v).map some

def listOf (read : Value → Option α) (v : Value) : Option (List α) := v.asArray.bind fun items => items.mapM read

/-- A value that is a text or else an object. -/
def textOrRecord (text : String → α) (record : List (String × Value) → Option α) : Value → Option α
  | string s => some (text s)
  | object fields => record fields
  | _ => none

def requiredText (name : String) (fields : List (String × Value)) : Option String := field none asStr name fields

/-- A text that may be missing or null. -/
def optionalText (name : String) (fields : List (String × Value)) : Option (Option String) :=
  optionalField asStr name fields

/-- A list that is empty where it is missing. -/
def listField (read : Value → Option α) (name : String) (fields : List (String × Value)) : Option (List α) :=
  field (some []) (listOf read) name fields

/-- An object that is empty where it is missing. -/
def mapField (name : String) (fields : List (String × Value)) : Option (List (String × Value)) :=
  field (some []) asObject name fields

/-- Fields of which one may be given under a second name. -/
def withAlias (other name : String) (fields : List (String × Value)) : List (String × Value) :=
  fields.map fun field => (if field.1 = other then name else field.1, field.2)

/-- The name of a variant without fields, which is a text or the name of a null. -/
def unitVariant : Value → Option String
  | string s => some s
  | object [(name, null)] => some name
  | _ => none

/-- The fields of a record that is an object, or an array of at least the needed ones. -/
def recordFields (names : List String) (needed : Nat) : Value → Option (List (String × Value))
  | object fields => some fields
  | array items => if needed ≤ items.length ∧ items.length ≤ names.length then some (names.zip items) else none
  | _ => none

/-! ### What is read back -/

theorem optionalField_eq (read : Value → Option α) (name : String) (fields : List (String × Value)) :
    optionalField read name fields = field (some none) (nullable read) name fields := by
  unfold optionalField field
  generalize (fields.filter fun field => field.1 == name) = found
  match found with
  | [] => rfl
  | [(_, v)] => cases v <;> rfl
  | _ :: _ :: _ => rfl

/-- **What a field is read as** is what it has, where no name is given twice. -/
theorem field_eq {stored fields : List (String × Value)} (hperm : stored.Perm fields)
    (hnodup : (fields.map Prod.fst).Nodup) (missing : Option α) (read : Value → Option α) (name : String) :
    field missing read name stored = (fields.lookup name).elim missing read := by
  have hstored : (stored.map Prod.fst).Nodup := (hperm.map Prod.fst).nodup_iff.mpr hnodup
  unfold field
  rw [filter_key_of_nodup hstored, lookup_perm hperm hnodup]
  cases fields.lookup name <;> rfl

/-- Fields none of which has the second name are what they are. -/
theorem withAlias_of_not_mem {other name : String} {fields : List (String × Value)}
    (h : other ∉ fields.map Prod.fst) : withAlias other name fields = fields := by
  refine (List.map_congr_left fun field hfield => ?_).trans (List.map_id fields)
  have hne : field.1 ≠ other := fun heq => h (List.mem_map.mpr ⟨field, hfield, heq⟩)
  rw [if_neg hne]
  rfl

theorem listOf_array {read : Value → Option α} (write : α → Value) (h : ∀ a, read (write a) = some a)
    (items : List α) : listOf read (array (items.map write)) = some items := by
  show (items.map write).mapM read = some items
  induction items with
  | nil => rfl
  | cons a items ih => simp [List.mapM_cons, h a, ih]

/-- What the fields of an object are read as that was written from fields with names of their own. -/
structure Written (stored fields : List (String × Value)) : Prop where
  withAlias : ∀ other ∉ fields.map Prod.fst, ∀ name, Value.withAlias other name stored = stored
  field : ∀ {γ : Type} (missing : Option γ) (read : Value → Option γ) (name : String),
    Value.field missing read name stored = (fields.lookup name).elim missing read

theorem exists_written {fields : List (String × Value)} (hnodup : (fields.map Prod.fst).Nodup) :
    ∃ stored, ofFields fields = object stored ∧ Written stored fields := by
  obtain ⟨stored, heq, hperm⟩ := ofFields_perm hnodup
  refine ⟨stored, heq, fun other hother name => ?_, fun missing read name => field_eq hperm hnodup missing read name⟩
  exact withAlias_of_not_mem fun hmem => hother ((hperm.map Prod.fst).mem_iff.mp hmem)

/-- **A record that is read from its fields** is read from the object they are written as. -/
theorem textOrRecord_ofFields {text : String → α} {record : List (String × Value) → Option α}
    {fields : List (String × Value)} {a : α} (hnodup : (fields.map Prod.fst).Nodup)
    (hread : ∀ stored, Written stored fields → record stored = some a) :
    textOrRecord text record (ofFields fields) = some a := by
  obtain ⟨stored, heq, hwritten⟩ := exists_written hnodup
  rw [heq]
  exact hread stored hwritten

theorem asObject_ofFields {record : List (String × Value) → Option α} {fields : List (String × Value)} {a : α}
    (hnodup : (fields.map Prod.fst).Nodup) (hread : ∀ stored, Written stored fields → record stored = some a) :
    ((ofFields fields).asObject >>= record) = some a := by
  obtain ⟨stored, heq, hwritten⟩ := exists_written hnodup
  rw [heq]
  exact hread stored hwritten

theorem recordFields_ofFields {fields : List (String × Value)} {names : List String} {needed : Nat}
    {read : List (String × Value) → Option α} {a : α} (hnodup : (fields.map Prod.fst).Nodup)
    (hread : ∀ stored, Written stored fields → read stored = some a) :
    (recordFields names needed (ofFields fields)).bind read = some a := by
  obtain ⟨stored, heq, hwritten⟩ := exists_written hnodup
  rw [heq]
  exact hread stored hwritten

namespace Written

variable {stored fields : List (String × Value)} (h : Written stored fields) {name : String}

include h

theorem requiredText {s : String} (hlookup : fields.lookup name = some (string s)) :
    Value.requiredText name stored = some s := by
  rw [Value.requiredText, h.field, hlookup]
  rfl

/-- A text that may be null or left out is read back. -/
theorem optionalText {s : Option String}
    (hlookup : fields.lookup name = some (ofOption s) ∨ fields.lookup name = s.map string) :
    Value.optionalText name stored = some s := by
  rw [Value.optionalText, optionalField_eq, h.field]
  rcases hlookup with hlookup | hlookup <;> rw [hlookup] <;> cases s <;> rfl

/-- A list is read back where each of its items is. -/
theorem listField {read : Value → Option α} {write : α → Value} (hread : ∀ a, read (write a) = some a)
    {items : List α} (hlookup : fields.lookup name = some (array (items.map write))) :
    Value.listField read name stored = some items := by
  rw [Value.listField, h.field, hlookup]
  exact listOf_array write hread items

theorem mapField {entries : List (String × Value)} (hlookup : fields.lookup name = some (object entries)) :
    Value.mapField name stored = some entries := by
  rw [Value.mapField, h.field, hlookup]
  rfl

end Written

end Json.Value
