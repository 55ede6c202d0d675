import GreenticOperator.Lib.Json
import Mathlib.Algebra.Order.Ring.Int

/-!
# Cbor — CBOR values, and what they are as JSON

The keys of a map are different from each other. Not every value has a JSON form: bytes, tagged
values, maps with a key that is no text and integers of more than 64 bits have none. What a field
of a JSON form is, is the JSON form of the field (`get_toJson`).
-/

namespace Cbor

inductive CborValue
  | null
  | bool (b : Bool)
  | integer (n : Int)
  | float (text : String)
  | bytes (data : List UInt8)
  | text (s : String)
  | array (items : List CborValue)
  | map (entries : List (CborValue × CborValue))
  | tag (number : Nat) (v : CborValue)

abbrev Entries := List (CborValue × CborValue)

/-- The value of a text key. -/
def mapGet (map : Entries) (key : String) : Option CborValue :=
  map.findSome? fun entry =>
    match entry.1 with
    | .text text => if text = key then some entry.2 else none
    | _ => none

/-- An integer as a machine word; none for one that does not fit. -/
def toUsize (n : Int) : Option Nat := if 0 ≤ n ∧ n < 2 ^ 64 then some n.toNat else none

/-- An integer as a machine word, without the bits that do not fit. -/
def wrapUsize (n : Int) : Nat := (n % 2 ^ 64).toNat

/-! ## JSON -/

/-- An integer of 64 bits, with or without a sign. -/
def integerToJson (n : Int) : Option Json.Value :=
  if 0 ≤ n ∧ n < 2 ^ 64 then some (.number (.posInt (UInt64.ofNat n.toNat)))
  else if -2 ^ 63 ≤ n ∧ n < 0 then some (.number (.negInt (Int64.ofInt n)))
  else none

/-- A floating-point number that is not finite is null. -/
def floatToJson (text : String) : Json.Value :=
  if text ∈ ["NaN", "inf", "-inf"] then .null else .number (.float text)

mutual

def toJson : CborValue → Option Json.Value
  | .null => some .null
  | .bool b => some (.bool b)
  | .integer n => integerToJson n
  | .float text => some (floatToJson text)
  | .bytes _ => none
  | .text s => some (.string s)
  | .array items => do return .array (← itemsToJson items)
  | .map entries => do
    return .object ((← entriesToJson entries).foldr (fun field done => Json.Value.insertField field.1 field.2 done) [])
  | .tag _ _ => none

def itemsToJson : List CborValue → Option (List Json.Value)
  | [] => some []
  | v :: rest => do return (← toJson v) :: (← itemsToJson rest)

def entriesToJson : List (CborValue × CborValue) → Option (List (String × Json.Value))
  | [] => some []
  | (.text key, v) :: rest => do return (key, ← toJson v) :: (← entriesToJson rest)
  | _ :: _ => none

end

theorem lookup_foldr_insertField (key : String) (fields : List (String × Json.Value)) :
    (fields.foldr (fun field done => Json.Value.insertField field.1 field.2 done) []).lookup key
      = fields.lookup key := by
  induction fields with
  | nil => rfl
  | cons field fields ih =>
    rw [List.foldr_cons, Json.Value.lookup_insertField, ih, List.lookup_cons]
    by_cases hkey : key = field.1
    · simp [hkey]
    · simp [hkey, beq_eq_false_iff_ne.mpr hkey]

/-- The fields of a map's JSON form are the JSON forms of its values. -/
theorem lookup_entriesToJson {entries : Entries} {fields : List (String × Json.Value)}
    (h : entriesToJson entries = some fields) (key : String) :
    (fields.lookup key = none ∧ mapGet entries key = none)
      ∨ ∃ v j, mapGet entries key = some v ∧ toJson v = some j ∧ fields.lookup key = some j := by
  induction entries generalizing fields with
  | nil =>
    cases h
    exact .inl ⟨rfl, rfl⟩
  | cons entry rest ih =>
    obtain ⟨k, v⟩ := entry
    cases k with
    | text name =>
      simp only [entriesToJson, Option.bind_eq_bind, Option.bind_eq_some_iff, Option.pure_def,
        Option.some.injEq] at h
      obtain ⟨j, hj, tail, htail, rfl⟩ := h
      by_cases hkey : name = key
      · refine .inr ⟨v, j, ?_, hj, ?_⟩
        · simp [mapGet, hkey]
        · simp [hkey]
      · have hkey' : (key == name) = false := beq_eq_false_iff_ne.mpr (Ne.symm hkey)
        have hget : mapGet ((.text name, v) :: rest) key = mapGet rest key := by
          simp [mapGet, hkey]
        rw [hget, List.lookup_cons, hkey']
        exact ih htail
    | null => cases h
    | bool b => cases h
    | integer n => cases h
    | float text => cases h
    | bytes data => cases h
    | array items => cases h
    | map entries => cases h
    | tag number v => cases h

/-- **A field of a JSON form** is the JSON form of the field. -/
theorem get_toJson {entries : Entries} {j : Json.Value} (h : toJson (.map entries) = some j) (key : String) :
    j.get key = (mapGet entries key).bind toJson := by
  simp only [toJson, Option.bind_eq_bind, Option.bind_eq_some_iff, Option.pure_def, Option.some.injEq] at h
  obtain ⟨fields, hfields, rfl⟩ := h
  rw [Json.Value.get, lookup_foldr_insertField]
  rcases lookup_entriesToJson hfields key with ⟨hnone, hget⟩ | ⟨v, w, hget, hw, hsome⟩
  · rw [hnone, hget, Option.bind_none]
  · rw [hsome, hget, Option.bind_some, hw]

/-- The values of a map with a JSON form have one. -/
theorem toJson_of_mapGet {entries : Entries} {j : Json.Value} (h : toJson (.map entries) = some j)
    {key : String} {v : CborValue} (hget : mapGet entries key = some v) : ∃ w, toJson v = some w := by
  simp only [toJson, Option.bind_eq_bind, Option.bind_eq_some_iff, Option.pure_def, Option.some.injEq] at h
  obtain ⟨fields, hfields, rfl⟩ := h
  rcases lookup_entriesToJson hfields key with ⟨-, hnone⟩ | ⟨v', w, hget', hw, -⟩
  · rw [hnone] at hget
    cases hget
  · rw [hget'] at hget
    cases hget
    exact ⟨w, hw⟩

/-- An item of a JSON form is the JSON form of the item. -/
theorem getElem?_itemsToJson {items : List CborValue} {js : List Json.Value}
    (h : itemsToJson items = some js) (i : Nat) : js[i]? = (items[i]?).bind toJson := by
  induction items generalizing js i with
  | nil =>
    cases h
    rfl
  | cons v rest ih =>
    simp only [itemsToJson, Option.bind_eq_bind, Option.bind_eq_some_iff, Option.pure_def,
      Option.some.injEq] at h
    obtain ⟨j, hj, tail, htail, rfl⟩ := h
    cases i with
    | zero => simp [hj]
    | succ i => simpa using ih htail i

/-- The items of an array with a JSON form have one. -/
theorem toJson_of_getElem? {items : List CborValue} {js : List Json.Value} (h : itemsToJson items = some js)
    {i : Nat} {v : CborValue} (hget : items[i]? = some v) : ∃ j, toJson v = some j := by
  induction items generalizing js i with
  | nil => cases hget
  | cons w rest ih =>
    simp only [itemsToJson, Option.bind_eq_bind, Option.bind_eq_some_iff, Option.pure_def,
      Option.some.injEq] at h
    obtain ⟨j, hj, tail, htail, -⟩ := h
    cases i with
    | zero =>
      cases hget
      exact ⟨j, hj⟩
    | succ i => exact ih htail hget

/-- The kind of JSON value that a value's JSON form is. -/
inductive JsonForm : CborValue → Json.Value → Prop
  | null : JsonForm .null .null
  | bool (b : Bool) : JsonForm (.bool b) (.bool b)
  | word (n : Int) (i : Nat) (h : toUsize n = some i) : JsonForm (.integer n) (.number (.posInt (UInt64.ofNat i)))
  | negative (n : Int) (h : toUsize n = none) : JsonForm (.integer n) (.number (.negInt (Int64.ofInt n)))
  | notFinite (text : String) : JsonForm (.float text) .null
  | float (text : String) : JsonForm (.float text) (.number (.float text))
  | text (s : String) : JsonForm (.text s) (.string s)
  | array (items : List CborValue) (js : List Json.Value) (h : itemsToJson items = some js) :
      JsonForm (.array items) (.array js)
  | map (entries : Entries) (fields : List (String × Json.Value)) : JsonForm (.map entries) (.object fields)

theorem lt_of_toUsize {n : Int} {i : Nat} (h : toUsize n = some i) : i < 2 ^ 64 := by
  unfold toUsize at h
  split at h
  · cases h
    omega
  · cases h

/-- An integer that fits is a word with all its bits. -/
theorem wrapUsize_of_toUsize {n : Int} {i : Nat} (h : toUsize n = some i) : wrapUsize n = i := by
  unfold toUsize at h
  split at h
  next hword =>
    cases h
    rw [wrapUsize, Int.emod_eq_of_lt hword.1 hword.2]
  · cases h

theorem jsonForm_of_toJson {v : CborValue} {j : Json.Value} (h : toJson v = some j) : JsonForm v j := by
  cases v with
  | null =>
    cases h
    exact .null
  | bool b =>
    cases h
    exact .bool b
  | integer n =>
    unfold toJson integerToJson at h
    split at h
    next hword =>
      cases h
      exact .word n n.toNat (if_pos hword)
    next hword =>
      split at h
      · cases h
        exact .negative n (if_neg hword)
      · cases h
  | float text =>
    unfold toJson floatToJson at h
    split at h
    · cases h
      exact .notFinite text
    · cases h
      exact .float text
  | bytes data => cases h
  | text s =>
    cases h
    exact .text s
  | array items =>
    simp only [toJson, Option.bind_eq_bind, Option.bind_eq_some_iff, Option.pure_def, Option.some.injEq] at h
    obtain ⟨js, hjs, rfl⟩ := h
    exact .array items js hjs
  | map entries =>
    simp only [toJson, Option.bind_eq_bind, Option.bind_eq_some_iff, Option.pure_def, Option.some.injEq] at h
    obtain ⟨fields, -, rfl⟩ := h
    exact .map entries _
  | tag number v => cases h

end Cbor
