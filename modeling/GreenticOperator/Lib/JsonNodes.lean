import GreenticOperator.Lib.Json

/-!
# Nodes of JSON values

A node is reached from a value by names of fields and positions of items (`nodeAt`). A property that some
node has is looked for in the value and all that is inside (`anyNode`), and the numbers of a value are
changed wherever they stand (`mapNumbers`). Proofs about all values go by `induct`.
-/

namespace Json.Value

inductive Step
  | field (key : String)
  | item (i : Nat)
deriving DecidableEq, Repr

/-- The node at the end of a path. -/
def nodeAt : List Step → Value → Option Value
  | [], v => some v
  | .field key :: rest, object fields => (fields.lookup key).bind (nodeAt rest)
  | .item i :: rest, array items => items[i]?.bind (nodeAt rest)
  | _ :: _, _ => none

mutual

/-- Some node has the property: the value, or one inside. -/
def anyNode (p : Value → Bool) : Value → Bool
  | array items => p (array items) || anyItem p items
  | object fields => p (object fields) || anyField p fields
  | null => p null
  | bool b => p (bool b)
  | number n => p (number n)
  | string s => p (string s)

def anyItem (p : Value → Bool) : List Value → Bool
  | [] => false
  | v :: rest => anyNode p v || anyItem p rest

def anyField (p : Value → Bool) : List (String × Value) → Bool
  | [] => false
  | (_, v) :: rest => anyNode p v || anyField p rest

end

mutual

/-- The value with other numbers. -/
def mapNumbers (f : Number → Number) : Value → Value
  | array items => array (mapItems f items)
  | object fields => object (mapFields f fields)
  | number n => number (f n)
  | null => null
  | bool b => bool b
  | string s => string s

def mapItems (f : Number → Number) : List Value → List Value
  | [] => []
  | v :: rest => mapNumbers f v :: mapItems f rest

def mapFields (f : Number → Number) : List (String × Value) → List (String × Value)
  | [] => []
  | (key, v) :: rest => (key, mapNumbers f v) :: mapFields f rest

end

mutual

/-- Two values are the same. -/
def same : Value → Value → Bool
  | null, null => true
  | bool a, bool b => a == b
  | number a, number b => a == b
  | string a, string b => a == b
  | array items, array others => sameItems items others
  | object fields, object others => sameFields fields others
  | _, _ => false

def sameItems : List Value → List Value → Bool
  | [], [] => true
  | v :: rest, w :: others => same v w && sameItems rest others
  | _, _ => false

def sameFields : List (String × Value) → List (String × Value) → Bool
  | [], [] => true
  | (key, v) :: rest, (other, w) :: others => key == other && same v w && sameFields rest others
  | _, _ => false

end

/-- The values whose number another one takes the place of. -/
def isChanged (f : Number → Number) : Value → Bool
  | number n => f n != n
  | _ => false

/-- In no object a name is given twice. -/
def hasDuplicate : Value → Bool
  | object fields => !decide (fields.map Prod.fst).Nodup
  | _ => false

/-- Induction over values: what holds of an array or object follows from what holds of all that is in it. -/
@[elab_as_elim]
theorem induct {motive : Value → Prop} (null : motive null) (bool : ∀ b, motive (bool b))
    (number : ∀ n, motive (number n)) (string : ∀ s, motive (string s))
    (array : ∀ items, (∀ v ∈ items, motive v) → motive (array items))
    (object : ∀ fields, (∀ field ∈ fields, motive field.2) → motive (object fields)) (v : Value) : motive v :=
  @Value.rec motive (fun items => ∀ v ∈ items, motive v) (fun fields => ∀ field ∈ fields, motive field.2)
    (fun field => motive field.2) null bool number string array object
    (fun _ h => absurd h List.not_mem_nil)
    (fun _ _ hfirst hrest => List.forall_mem_cons.mpr ⟨hfirst, hrest⟩)
    (fun _ h => absurd h List.not_mem_nil)
    (fun _ _ hfirst hrest => List.forall_mem_cons.mpr ⟨hfirst, hrest⟩)
    (fun _ _ h => h) v

theorem same_iff {v w : Value} : same v w = true ↔ v = w := by
  induction v using induct generalizing w with
  | null => cases w <;> simp [same]
  | bool b => cases w <;> simp [same]
  | number n => cases w <;> simp [same]
  | string s => cases w <;> simp [same]
  | array items ih =>
    cases w with
    | array others =>
      rw [same, array.injEq]
      induction items generalizing others with
      | nil => cases others <;> simp [sameItems]
      | cons v rest ih' =>
        rw [List.forall_mem_cons] at ih
        cases others with
        | nil => simp [sameItems]
        | cons w others => rw [sameItems, Bool.and_eq_true, ih.1, ih' ih.2, List.cons.injEq]
    | _ => simp [same]
  | object fields ih =>
    cases w with
    | object others =>
      rw [same, object.injEq]
      induction fields generalizing others with
      | nil => cases others <;> simp [sameFields]
      | cons field rest ih' =>
        obtain ⟨key, v⟩ := field
        rw [List.forall_mem_cons] at ih
        cases others with
        | nil => simp [sameFields]
        | cons other others =>
          rw [sameFields, Bool.and_eq_true, Bool.and_eq_true, beq_iff_eq, ih.1, ih' ih.2, List.cons.injEq, Prod.ext_iff]
    | _ => simp [same]

instance : DecidableEq Value := fun _ _ => decidable_of_iff _ same_iff

/-! ## Some node -/

section Any

variable {p : Value → Bool} {items : List Value} {fields : List (String × Value)} {v node : Value}

theorem anyItem_eq (p : Value → Bool) (items : List Value) : anyItem p items = items.any (anyNode p) := by
  induction items with
  | nil => rfl
  | cons v rest ih => rw [anyItem, ih, List.any_cons]

theorem anyField_eq (p : Value → Bool) (fields : List (String × Value)) :
    anyField p fields = fields.any fun field => anyNode p field.2 := by
  induction fields with
  | nil => rfl
  | cons field rest ih =>
    obtain ⟨key, v⟩ := field
    rw [anyField, ih, List.any_cons]

theorem anyNode_array_eq_false :
    anyNode p (array items) = false ↔ p (array items) = false ∧ ∀ v ∈ items, anyNode p v = false := by
  rw [anyNode, Bool.or_eq_false_iff, anyItem_eq, List.any_eq_false]
  simp only [Bool.not_eq_true]

theorem anyNode_object_eq_false :
    anyNode p (object fields) = false ↔ p (object fields) = false ∧ ∀ field ∈ fields, anyNode p field.2 = false := by
  rw [anyNode, Bool.or_eq_false_iff, anyField_eq, List.any_eq_false]
  simp only [Bool.not_eq_true]

/-- Where no name is given twice, some node is at the end of a path. -/
theorem exists_nodeAt (hunique : anyNode hasDuplicate v = false) (h : anyNode p v = true) :
    ∃ path node, nodeAt path v = some node ∧ p node = true := by
  induction v using induct with
  | null => exact ⟨[], _, rfl, h⟩
  | bool b => exact ⟨[], _, rfl, h⟩
  | number n => exact ⟨[], _, rfl, h⟩
  | string s => exact ⟨[], _, rfl, h⟩
  | array items ih =>
    rw [anyNode, Bool.or_eq_true, anyItem_eq, List.any_eq_true] at h
    rcases h with h | ⟨w, hw, h⟩
    · exact ⟨[], _, rfl, h⟩
    · obtain ⟨path, node, hnode, hp⟩ := ih w hw ((anyNode_array_eq_false.mp hunique).2 w hw) h
      obtain ⟨i, hi⟩ := List.mem_iff_getElem?.mp hw
      refine ⟨.item i :: path, node, ?_, hp⟩
      rw [nodeAt, hi, Option.bind_some, hnode]
  | object fields ih =>
    rw [anyNode, Bool.or_eq_true, anyField_eq, List.any_eq_true] at h
    rcases h with h | ⟨⟨key, w⟩, hw, h⟩
    · exact ⟨[], _, rfl, h⟩
    · obtain ⟨hself, hinside⟩ := anyNode_object_eq_false.mp hunique
      obtain ⟨path, node, hnode, hp⟩ := ih _ hw (hinside _ hw) h
      have hnodup : (fields.map Prod.fst).Nodup := by simpa [hasDuplicate] using hself
      refine ⟨.field key :: path, node, ?_, hp⟩
      rw [nodeAt, (lookup_eq_some_iff hnodup).mpr hw, Option.bind_some, hnode]

end Any

/-! ## Other numbers -/

section Numbers

variable {f : Number → Number} {v : Value}

theorem mapItems_eq (f : Number → Number) (items : List Value) : mapItems f items = items.map (mapNumbers f) := by
  induction items with
  | nil => rfl
  | cons v rest ih => rw [mapItems, ih, List.map_cons]

theorem lookup_mapFields (f : Number → Number) (fields : List (String × Value)) (key : String) :
    (mapFields f fields).lookup key = (fields.lookup key).map (mapNumbers f) := by
  induction fields with
  | nil => rfl
  | cons field rest ih =>
    obtain ⟨other, v⟩ := field
    rw [mapFields, List.lookup_cons, List.lookup_cons, ih]
    split <;> rfl

/-- Only numbers change. -/
theorem asStr_mapNumbers (f : Number → Number) (v : Value) : (mapNumbers f v).asStr = v.asStr := by
  cases v <;> rfl

theorem nodeAt_mapNumbers (f : Number → Number) (path : List Step) (v : Value) :
    nodeAt path (mapNumbers f v) = (nodeAt path v).map (mapNumbers f) := by
  induction path generalizing v with
  | nil => rfl
  | cons step rest ih =>
    cases v with
    | object fields =>
      cases step with
      | field key =>
        rw [mapNumbers, nodeAt, nodeAt, lookup_mapFields]
        cases fields.lookup key with
        | none => rfl
        | some w => exact ih w
      | item i => rfl
    | array items =>
      cases step with
      | field key => rfl
      | item i =>
        rw [mapNumbers, nodeAt, nodeAt, mapItems_eq, List.getElem?_map]
        cases items[i]? with
        | none => rfl
        | some w => exact ih w
    | null => cases step <;> rfl
    | bool b => cases step <;> rfl
    | number n => cases step <;> rfl
    | string s => cases step <;> rfl

theorem follow_mapNumbers (f : Number → Number) (path : List String) (v : Value) :
    follow path (mapNumbers f v) = (follow path v).map (mapNumbers f) := by
  induction path generalizing v with
  | nil => rfl
  | cons token rest ih =>
    cases v with
    | object fields =>
      rw [mapNumbers, follow, follow, lookup_mapFields]
      cases fields.lookup token with
      | none => rfl
      | some w => exact ih w
    | array items =>
      rw [mapNumbers, follow, follow, mapItems_eq]
      cases parseIndex token with
      | none => rfl
      | some i =>
        rw [Option.bind_some, Option.bind_some, List.getElem?_map]
        cases items[i]? with
        | none => rfl
        | some w => exact ih w
    | null => rfl
    | bool b => rfl
    | number n => rfl
    | string s => rfl

theorem mapFields_eq_self {fields : List (String × Value)} (h : ∀ field ∈ fields, mapNumbers f field.2 = field.2) :
    mapFields f fields = fields := by
  induction fields with
  | nil => rfl
  | cons field rest ih =>
    obtain ⟨key, v⟩ := field
    rw [List.forall_mem_cons] at h
    rw [mapFields, h.1, ih h.2]

/-- Where no number is changed, the value stays. -/
theorem mapNumbers_eq_self (h : anyNode (isChanged f) v = false) : mapNumbers f v = v := by
  induction v using induct with
  | null => rfl
  | bool b => rfl
  | string s => rfl
  | number n =>
    have hn : f n = n := by simpa [anyNode, isChanged] using h
    rw [mapNumbers, hn]
  | array items ih =>
    rw [mapNumbers, mapItems_eq]
    have hitems : ∀ w ∈ items, mapNumbers f w = id w := fun w hw => ih w hw ((anyNode_array_eq_false.mp h).2 w hw)
    rw [List.map_congr_left hitems, List.map_id]
  | object fields ih =>
    rw [mapNumbers, mapFields_eq_self fun field hfield => ih field hfield ((anyNode_object_eq_false.mp h).2 field hfield)]

theorem mapFields_eq_iff {fields : List (String × Value)} :
    mapFields f fields = fields ↔ ∀ field ∈ fields, mapNumbers f field.2 = field.2 := by
  refine ⟨fun h => ?_, mapFields_eq_self⟩
  induction fields with
  | nil => exact fun _ hfield => absurd hfield List.not_mem_nil
  | cons field rest ih =>
    obtain ⟨key, v⟩ := field
    rw [mapFields, List.cons.injEq, Prod.mk.injEq] at h
    exact List.forall_mem_cons.mpr ⟨h.1.2, ih h.2⟩

/-- Where the value stays, no number is changed. -/
theorem anyNode_isChanged_of_eq (h : mapNumbers f v = v) : anyNode (isChanged f) v = false := by
  induction v using induct with
  | null => rfl
  | bool b => rfl
  | string s => rfl
  | number n =>
    rw [mapNumbers, number.injEq] at h
    simp [anyNode, isChanged, h]
  | array items ih =>
    rw [mapNumbers, array.injEq, mapItems_eq] at h
    refine anyNode_array_eq_false.mpr ⟨rfl, fun w hw => ih w hw ?_⟩
    exact List.map_inj_left.mp (h.trans (List.map_id items).symm) w hw
  | object fields ih =>
    rw [mapNumbers, object.injEq, mapFields_eq_iff] at h
    exact anyNode_object_eq_false.mpr ⟨rfl, fun field hfield => ih field hfield (h field hfield)⟩

/-- A property that does not depend on numbers. -/
theorem anyNode_mapNumbers {p : Value → Bool} (hp : ∀ v, p (mapNumbers f v) = p v) (v : Value) :
    anyNode p (mapNumbers f v) = anyNode p v := by
  induction v using induct with
  | null => rfl
  | bool b => rfl
  | string s => rfl
  | number n => exact hp (number n)
  | array items ih =>
    have hself := hp (array items)
    rw [mapNumbers] at hself ⊢
    rw [anyNode, anyNode, hself]
    congr 1
    clear hself
    induction items with
    | nil => rfl
    | cons w rest ih' =>
      rw [List.forall_mem_cons] at ih
      rw [mapItems, anyItem, anyItem, ih.1, ih' ih.2]
  | object fields ih =>
    have hself := hp (object fields)
    rw [mapNumbers] at hself ⊢
    rw [anyNode, anyNode, hself]
    congr 1
    clear hself
    induction fields with
    | nil => rfl
    | cons field rest ih' =>
      obtain ⟨key, w⟩ := field
      rw [List.forall_mem_cons] at ih
      rw [mapFields, anyField, anyField, ih.1, ih' ih.2]

end Numbers

end Json.Value
