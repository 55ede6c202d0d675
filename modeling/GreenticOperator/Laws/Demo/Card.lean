import GreenticOperator.HttpIngress.TelegramForm
import GreenticOperator.Lib.Preorder

/-!
# What two readers find in a card

The elements of a card are a tree: the children of an element are its items and then the items of its
columns. The one reader visits all of them and lists the inputs; the other goes only into containers,
columns and sets of columns and lists the ids of text inputs. So the ids of the second are among those of
the first, and are all of them exactly where each text input has an id and is in such elements alone
(`collectInputIds_of_inputs`).
-/

namespace Demo.Card

open Json Json.Value
open HttpIngress (collectInputIds inputIdsOf inputIdsOfItems inputIdsOfColumns inputIdsOfEach)

/-! ## The tree of elements -/

def itemsOf (element : Value) : List Value := (getArray element "items").getD []

def columnsOf (element : Value) : List Value := (getArray element "columns").getD []

def opensItems (element : Value) : Bool := getStr element "type" = some "Container" ∨ getStr element "type" = some "Column"

def opensColumns (element : Value) : Bool := getStr element "type" = some "ColumnSet"

theorem sizeOf_lt_of_mem_getArray {element child : Value} {key : String}
    (h : child ∈ (getArray element key).getD []) : sizeOf child < sizeOf element := by
  cases harray : getArray element key with
  | none =>
    rw [harray] at h
    cases h
  | some items =>
    rw [harray, Option.getD_some] at h
    obtain ⟨value, hvalue, hitems⟩ := Option.bind_eq_some_iff.mp harray
    cases element with
    | object fields =>
      cases value with
      | array items' =>
        cases hitems
        have hchild := List.sizeOf_lt_of_mem h
        obtain ⟨front, back, hfields, -⟩ := List.lookup_eq_some_iff.mp hvalue
        have hmem : (key, array items) ∈ fields := by
          rw [hfields]
          exact List.mem_append_right _ List.mem_cons_self
        have hfield := List.sizeOf_lt_of_mem hmem
        simp only [Value.object.sizeOf_spec, Value.array.sizeOf_spec, Prod.mk.sizeOf_spec] at hfield ⊢
        omega
      | _ => cases hitems
    | _ => cases hvalue

/-- The elements below an element, with which of them the forms look for. -/
noncomputable def elements : Preorder.Tree Value where
  children element := (itemsOf element).map (opensItems element, ·)
    ++ ((columnsOf element).flatMap itemsOf).map (opensColumns element, ·)
  size element := sizeOf element
  size_lt := by
    intro element child hchild
    rcases List.mem_append.mp hchild with hchild | hchild
    · obtain ⟨item, hitem, rfl⟩ := List.mem_map.mp hchild
      exact sizeOf_lt_of_mem_getArray hitem
    · obtain ⟨below, hbelow, rfl⟩ := List.mem_map.mp hchild
      obtain ⟨column, hcolumn, hitem⟩ := List.mem_flatMap.mp hbelow
      exact (sizeOf_lt_of_mem_getArray hitem).trans (sizeOf_lt_of_mem_getArray hcolumn)

theorem kids_true (element : Value) :
    elements.kids true element = itemsOf element ++ (columnsOf element).flatMap itemsOf := by
  have hall : ∀ flagged : List (Bool × Value), flagged.filter (fun child => true || child.1) = flagged :=
    fun flagged => List.filter_eq_self.mpr fun _ _ => rfl
  unfold Preorder.Tree.kids
  rw [hall]
  show (List.map _ _ ++ List.map _ _).map Prod.snd = _
  rw [List.map_append, List.map_map, List.map_map]
  exact congrArg₂ (· ++ ·) (List.map_id _) (List.map_id _)

theorem filter_flagged (flag : Bool) (values : List Value) :
    ((values.map (flag, ·)).filter fun child => false || child.1).map Prod.snd = if flag then values else [] := by
  rw [List.filter_map, List.map_map]
  cases flag with
  | true =>
    have hall : (fun child : Bool × Value => false || child.1) ∘ (true, ·) = fun _ => true := rfl
    rw [hall, List.filter_true]
    exact List.map_id values
  | false =>
    have hnone : (fun child : Bool × Value => false || child.1) ∘ (false, ·) = fun _ => false := rfl
    rw [hnone, List.filter_false]
    rfl

theorem kids_false (element : Value) : elements.kids false element
    = (if opensItems element then itemsOf element else [])
      ++ (if opensColumns element then (columnsOf element).flatMap itemsOf else []) := by
  unfold Preorder.Tree.kids
  show ((List.map _ _ ++ List.map _ _).filter _).map Prod.snd = _
  rw [List.filter_append, List.map_append, filter_flagged, filter_flagged]

/-! ## The two visits -/

section Visits

variable {β : Type} {key : String} {visit : List Value → List β} {visitField : List (String × Value) → List β}

/-- What goes through the fields up to the one of a name visits the array there. -/
theorem visitField_eq (hvisit : visit [] = []) (hnil : visitField [] = [])
    (harray : ∀ other children rest, visitField ((other, array children) :: rest)
      = if other = key then visit children else visitField rest)
    (hother : ∀ other value rest, (∀ children, value ≠ array children) →
      visitField ((other, value) :: rest) = if other = key then [] else visitField rest)
    (fields : List (String × Value)) : visitField fields = visit ((getArray (object fields) key).getD []) := by
  induction fields with
  | nil => rw [hnil, ← hvisit]; rfl
  | cons field fields ih =>
    obtain ⟨other, value⟩ := field
    have hlookup : getArray (object ((other, value) :: fields)) key
        = if other = key then value.asArray else getArray (object fields) key := by
      show (((other, value) :: fields).lookup key).bind asArray
        = if other = key then value.asArray else (fields.lookup key).bind asArray
      rw [List.lookup_cons]
      by_cases hkey : other = key
      · rw [if_pos hkey, hkey, beq_self_eq_true]
        rfl
      · rw [if_neg hkey, beq_eq_false_iff_ne.mpr (Ne.symm hkey)]
    rw [hlookup]
    by_cases hvalue : ∃ children, value = array children
    · obtain ⟨children, rfl⟩ := hvalue
      rw [harray, ih]
      split
      · rfl
      · rfl
    · have hnot : value.asArray = none := by
        cases value with
        | array children => exact absurd ⟨children, rfl⟩ hvalue
        | _ => rfl
      rw [hother _ _ _ fun children heq => hvalue ⟨children, heq⟩, ih, hnot]
      split
      · exact hvisit.symm
      · rfl

/-- What visits elements one after the other visits the parts of a list one after the other. -/
theorem visit_append {one : Value → List β} (hnil : visit [] = [])
    (hcons : ∀ item rest, visit (item :: rest) = one item ++ visit rest) (items rest : List Value) :
    visit (items ++ rest) = visit items ++ visit rest := by
  induction items with
  | nil => rw [hnil]; rfl
  | cons item items ih => rw [List.cons_append, hcons, hcons, ih, List.append_assoc]

/-- What visits the items of each of several columns visits them all. -/
theorem visitEach_eq {visitEach : List Value → List β} {one : Value → List β} (hvisit : visit [] = [])
    (hcons : ∀ item rest, visit (item :: rest) = one item ++ visit rest) (hnil : visitEach [] = [])
    (hobject : ∀ fields rest, visitEach (object fields :: rest) = visit (itemsOf (object fields)) ++ visitEach rest)
    (hother : ∀ value rest, (∀ fields, value ≠ object fields) → visitEach (value :: rest) = visitEach rest)
    (columns : List Value) : visitEach columns = visit (columns.flatMap itemsOf) := by
  induction columns with
  | nil => rw [hnil, List.flatMap_nil, hvisit]
  | cons column columns ih =>
    rw [List.flatMap_cons, visit_append hvisit hcons]
    cases column with
    | object fields => rw [hobject, ih]
    | _ =>
      rw [hother _ _ (by simp), ih]
      show _ = visit [] ++ _
      rw [hvisit, List.nil_append]

end Visits

theorem inputsOfItems_eq (fields : List (String × Value)) :
    inputsOfItems fields = collectInputs (itemsOf (object fields)) := by
  refine visitField_eq (by rw [collectInputs]) (by rw [inputsOfItems]) ?_ ?_ fields
  · intro other children rest
    rw [inputsOfItems]
  · intro other value rest hvalue
    rw [inputsOfItems]
    exact hvalue

theorem inputsOfEach_eq (columns : List Value) : inputsOfEach columns = collectInputs (columns.flatMap itemsOf) := by
  refine visitEach_eq (by rw [collectInputs]) (fun item rest => by rw [collectInputs]) (by rw [inputsOfEach]) ?_ ?_ columns
  · intro fields rest
    rw [inputsOfEach, inputsOfItems_eq]
  · intro value rest hvalue
    rw [inputsOfEach]
    exact hvalue

theorem inputsOfColumns_eq (fields : List (String × Value)) :
    inputsOfColumns fields = collectInputs ((columnsOf (object fields)).flatMap itemsOf) := by
  rw [← inputsOfEach_eq]
  refine visitField_eq (by rw [inputsOfEach]) (by rw [inputsOfColumns]) ?_ ?_ fields
  · intro other children rest
    rw [inputsOfColumns]
  · intro other value rest hvalue
    rw [inputsOfColumns]
    exact hvalue

theorem collectInputs_append (items rest : List Value) :
    collectInputs (items ++ rest) = collectInputs items ++ collectInputs rest :=
  visit_append (by rw [collectInputs]) (fun item rest => by rw [collectInputs]) items rest

/-- The parser visits an element, all that is below it, and what comes after it. -/
theorem collectInputs_cons (element : Value) (rest : List Value) :
    collectInputs (element :: rest)
      = (parseInput element).toList ++ collectInputs (elements.kids true element) ++ collectInputs rest := by
  have hbelow : inputsBelow element = collectInputs (elements.kids true element) := by
    rw [kids_true]
    cases element with
    | object fields => rw [inputsBelow, inputsOfItems_eq, inputsOfColumns_eq, collectInputs_append]
    | _ => rfl
  rw [collectInputs, hbelow]

theorem inputIdsOfItems_eq (fields : List (String × Value)) :
    inputIdsOfItems fields = collectInputIds (itemsOf (object fields)) := by
  refine visitField_eq (by rw [collectInputIds]) (by rw [inputIdsOfItems]) ?_ ?_ fields
  · intro other children rest
    rw [inputIdsOfItems]
  · intro other value rest hvalue
    rw [inputIdsOfItems]
    exact hvalue

theorem inputIdsOfEach_eq (columns : List Value) :
    inputIdsOfEach columns = collectInputIds (columns.flatMap itemsOf) := by
  refine visitEach_eq (by rw [collectInputIds]) (fun item rest => by rw [collectInputIds]) (by rw [inputIdsOfEach])
    ?_ ?_ columns
  · intro fields rest
    rw [inputIdsOfEach, inputIdsOfItems_eq]
  · intro value rest hvalue
    rw [inputIdsOfEach]
    exact hvalue

theorem inputIdsOfColumns_eq (fields : List (String × Value)) :
    inputIdsOfColumns fields = collectInputIds ((columnsOf (object fields)).flatMap itemsOf) := by
  rw [← inputIdsOfEach_eq]
  refine visitField_eq (by rw [inputIdsOfEach]) (by rw [inputIdsOfColumns]) ?_ ?_ fields
  · intro other children rest
    rw [inputIdsOfColumns]
  · intro other value rest hvalue
    rw [inputIdsOfColumns]
    exact hvalue

def isTextInput (element : Value) : Bool := getStr element "type" = some "Input.Text"

/-- The id that an element has of its own, where it is a text input. -/
def ownTextId (element : Value) : Option String := if isTextInput element then getStr element "id" else none

/-- The forms visit an element, the open ones of those below it, and what comes after it. -/
theorem collectInputIds_cons (element : Value) (rest : List Value) :
    collectInputIds (element :: rest)
      = (ownTextId element).toList ++ collectInputIds (elements.kids false element) ++ collectInputIds rest := by
  have hone : inputIdsOf element = (ownTextId element).toList ++ collectInputIds (elements.kids false element) := by
    have hnil : collectInputIds [] = [] := by rw [collectInputIds]
    rw [kids_false]
    unfold ownTextId isTextInput opensItems opensColumns
    cases element with
    | object fields =>
      rw [inputIdsOf]
      split
      next htype => simp [htype, hnil]
      next htype => simp [htype, inputIdsOfItems_eq]
      next htype => simp [htype, inputIdsOfItems_eq]
      next htype => simp [htype, inputIdsOfColumns_eq]
      next htext hcontainer hcolumn hset =>
        simp [eq_false htext, eq_false hcontainer, eq_false hcolumn, eq_false hset, hnil]
    | _ => rfl
  rw [collectInputIds, hone]

/-! ## What is found where -/

/-- The element at a place of a body. -/
noncomputable def elementAt (place : List Nat) (body : List Value) : Option Value := elements.nodeIn place body

/-- A place that is reached through containers, columns and sets of columns alone. -/
def inOpen (place : List Nat) (body : List Value) : Prop := elements.meetsIn false place body = true

theorem collectInputs_eq (body : List Value) :
    collectInputs body = (elements.pathsIn body).filterMap fun place => (elementAt place body).bind parseInput :=
  elements.visit_all_eq (by rw [collectInputs]) collectInputs_cons body

theorem collectInputIds_eq (body : List Value) : collectInputIds body
    = (elements.pathsIn body).filterMap fun place =>
        if elements.meetsIn false place body then (elementAt place body).bind ownTextId else none :=
  elements.visit_open_eq (by rw [collectInputIds]) collectInputIds_cons body

/-- The ids of the text inputs among the inputs of a card. -/
def textIds (inputs : List CardInput) : List String :=
  (inputs.filter fun input => input.inputType = some "Input.Text").map (·.id)

/-- The id that the parser lists of a text input: its own, or another. -/
def listedId (element : Value) : Option String :=
  if isTextInput element then some (((getStr element "id").or (getStr element "dataId")).getD "<unnamed-input>") else none

theorem textId_parseInput (element : Value) :
    ((parseInput element).toList.filter fun input => decide (input.inputType = some "Input.Text")).map (·.id)
      = (listedId element).toList := by
  unfold listedId isTextInput
  by_cases htext : getStr element "type" = some "Input.Text"
  · have hobject : ∃ fields, element.asObject = some fields := by
      cases element with
      | object fields => exact ⟨fields, rfl⟩
      | _ => cases htext
    obtain ⟨fields, hfields⟩ := hobject
    have hinput : Text.startsWith "input" ((some "Input.Text").map Text.toAsciiLowercase |>.getD "") = true := by decide
    have hparse : parseInput element = some {
        id := ((getStr element "id").or (getStr element "dataId")).getD "<unnamed-input>"
        label := (getStr element "title").or (getStr element "label")
        placeholder := getStr element "placeholder"
        inputType := some "Input.Text" } := by
      unfold parseInput
      rw [hfields, htext]
      exact if_pos hinput
    rw [hparse, decide_eq_true htext]
    rfl
  · rw [decide_eq_false htext]
    cases hparse : parseInput element with
    | none => rfl
    | some input =>
      have htype : input.inputType = getStr element "type" := by
        unfold parseInput at hparse
        split at hparse
        next => cases hparse
        next =>
          dsimp only at hparse
          split at hparse
          next =>
            cases hparse
            rfl
          next => cases hparse
      rw [Option.toList_some, List.filter_cons_of_neg (by rw [htype, decide_eq_true_iff]; exact htext)]
      rfl

theorem textIds_collectInputs (body : List Value) : textIds (collectInputs body)
    = (elements.pathsIn body).filterMap fun place => (elementAt place body).bind listedId := by
  rw [collectInputs_eq, List.filterMap_eq_flatMap_toList, List.filterMap_eq_flatMap_toList, textIds,
    List.filter_flatMap, List.map_flatMap]
  refine List.flatMap_congr fun place _ => ?_
  cases elementAt place body with
  | none => rfl
  | some element => exact textId_parseInput element

/-- An input as cards have it. -/
def IsInput (element : Value) : Prop :=
  ∃ kind, getStr element "type" = some kind ∧ Text.startsWith "Input." kind = true

theorem parseInput_of_isInput {element : Value} (h : IsInput element) {id : String} (hid : getStr element "id" = some id) :
    ∃ input, parseInput element = some input ∧ input.id = id := by
  obtain ⟨kind, hkind, hstarts⟩ := h
  have hlower : Text.startsWith "input" (Text.toAsciiLowercase kind) = true := by
    rw [Text.startsWith, List.isPrefixOf_iff_prefix] at hstarts ⊢
    have hlist : (Text.toAsciiLowercase kind).toList
        = kind.toList.map fun c => if 'A' ≤ c ∧ c ≤ 'Z' then Char.ofNat (c.toNat + 32) else c := String.toList_ofList
    rw [hlist]
    refine List.IsPrefix.trans ?_ (hstarts.map _)
    decide
  obtain ⟨fields, hfields⟩ : ∃ fields, element.asObject = some fields := by
    cases element with
    | object fields => exact ⟨fields, rfl⟩
    | _ => cases hkind
  refine ⟨⟨id, (getStr element "title").or (getStr element "label"), getStr element "placeholder", some kind⟩,
    ?_, rfl⟩
  unfold parseInput
  rw [hfields, hkind, hid]
  exact if_pos hlower

/-- What the forms find at a place the parser lists. -/
theorem finds_less {body : List Value} : ∀ place ∈ elements.pathsIn body, ∀ id,
    (if elements.meetsIn false place body then (elementAt place body).bind ownTextId else none) = some id →
      (elementAt place body).bind listedId = some id := by
  intro place _ id hid
  split at hid
  next =>
    obtain ⟨element, helement, hown⟩ := Option.bind_eq_some_iff.mp hid
    refine Option.bind_eq_some_iff.mpr ⟨element, helement, ?_⟩
    unfold ownTextId at hown
    unfold listedId
    split at hown
    next htext => rw [if_pos htext, hown]; rfl
    next => cases hown
  next => cases hid

theorem collectInputIds_sublist (body : List Value) :
    (collectInputIds body).Sublist (textIds (collectInputs body)) := by
  rw [collectInputIds_eq, textIds_collectInputs]
  exact Preorder.sublist_of_finds_less finds_less

/-- **What is listed of the inputs of a card.** Every element whose type begins so and that has an id, on any level
of items and of items of columns, is listed once, in the order of the card; what the forms ask for is among the ids
of the text inputs, and is all of them exactly where each has an id and is in containers, columns and sets of columns
alone. -/
theorem collectInputIds_of_inputs (body : List Value) :
    (∃ places : List (List Nat), places.Pairwise (List.Lex (· < ·))
      ∧ (∀ place, place ∈ places
          ↔ ∃ element, elementAt place body = some element ∧ (parseInput element).isSome = true)
      ∧ places.map (fun place => (elementAt place body).bind parseInput) = (collectInputs body).map some)
    ∧ (∀ element id, IsInput element → getStr element "id" = some id →
        ∃ input, parseInput element = some input ∧ input.id = id)
    ∧ (collectInputIds body).Sublist (textIds (collectInputs body))
    ∧ (collectInputIds body = textIds (collectInputs body)
        ↔ ∀ place element, elementAt place body = some element → isTextInput element = true →
            (getStr element "id").isSome = true ∧ inOpen place body) := by
  refine ⟨?_, fun element id h hid => parseInput_of_isInput h hid, ?_⟩
  · refine ⟨(elements.pathsIn body).filter fun place => ((elementAt place body).bind parseInput).isSome,
      (elements.pairwise_pathsIn body).filter _, ?_, ?_⟩
    · intro place
      rw [List.mem_filter, elements.mem_pathsIn_iff]
      show (elementAt place body).isSome = true ∧ _ ↔ _
      cases elementAt place body with
      | none => exact iff_of_false (fun h => nomatch h.1) fun ⟨_, h, _⟩ => nomatch h
      | some element => simp
    · rw [collectInputs_eq]
      induction elements.pathsIn body with
      | nil => rfl
      | cons place places ih =>
        rw [List.filter_cons, List.filterMap_cons]
        cases hfound : (elementAt place body).bind parseInput with
        | none => exact ih
        | some input => simp [hfound, ih]
  · refine ⟨collectInputIds_sublist body, ?_⟩
    rw [collectInputIds_eq, textIds_collectInputs, Preorder.filterMap_eq_iff_of_finds_less finds_less]
    constructor
    · intro h place element helement htext
      have hmem : place ∈ elements.pathsIn body := by
        rw [elements.mem_pathsIn_iff]
        exact Option.isSome_iff_exists.mpr ⟨element, helement⟩
      have hlisted : ((elementAt place body).bind listedId).isSome = true := by
        rw [helement, Option.bind_some, listedId, if_pos htext]
        rfl
      have hown := h place hmem hlisted
      rw [helement, Option.bind_some, ownTextId, if_pos htext] at hown
      by_cases hopen : elements.meetsIn false place body = true
      · rw [if_pos hopen] at hown
        exact ⟨hown, hopen⟩
      · rw [if_neg hopen] at hown
        cases hown
    · intro h place hmem hlisted
      obtain ⟨id, hid⟩ := Option.isSome_iff_exists.mp hlisted
      obtain ⟨element, helement, hlistedId⟩ := Option.bind_eq_some_iff.mp hid
      have htext : isTextInput element = true := by
        by_contra hnot
        rw [listedId, if_neg hnot] at hlistedId
        cases hlistedId
      obtain ⟨hown, hopen⟩ := h place element helement htext
      have hmeets : elements.meetsIn false place body = true := hopen
      rw [if_pos hmeets, helement, Option.bind_some, ownTextId, if_pos htext]
      exact hown

/-- An input without an id of its own, and one in an element of another type, are listed and not asked for. -/
theorem listed_and_not_asked :
    textIds (collectInputs [object [("dataId", string "note"), ("type", string "Input.Text")],
        object [("items", array [object [("id", string "token"), ("type", string "Input.Text")]]),
          ("type", string "container")]]) = ["note", "token"]
    ∧ collectInputIds [object [("dataId", string "note"), ("type", string "Input.Text")],
        object [("items", array [object [("id", string "token"), ("type", string "Input.Text")]]),
          ("type", string "container")]] = [] := by
  decide +kernel

end Demo.Card
