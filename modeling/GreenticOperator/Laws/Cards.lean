import GreenticOperator.Cards
import GreenticOperator.Lib.Outcome

/-!
# What the rendering of a card promises

A rendered card should have no placeholder and no action that opens the start, each node that had none should
stay, a payload without any should stay as it is, and rendering again should leave the card as it is (`RendersWell`).
`rendersWell_iff` is the exact condition: what is looked for in the text of a card is not what is in the card,
and the replacements may put a placeholder together.
-/

namespace Cards

open Json Json.Value

/-! ## Texts -/

namespace Resolution

theorem rewriteText_of_not (resolution : Resolution) {text : String} (h : hasPlaceholder text = false) :
    resolution.rewriteText text = text := by
  obtain ⟨hstart, hname⟩ := Bool.or_eq_false_iff.mp h
  rw [rewriteText, Text.replace_of_not_contains _ hstart, Text.replace_of_not_contains _ hname]

theorem rewriteText_connectionName (resolution : Resolution) :
    resolution.rewriteText connectionNamePlaceholder = resolution.connectionName.getD "" := by
  have hstart : Text.contains startUrlPlaceholder connectionNamePlaceholder = false := by decide +kernel
  rw [rewriteText, Text.replace_of_not_contains _ hstart, Text.replace_self _ (by decide)]

/-- What was resolved has no placeholder. -/
structure Free (resolution : Resolution) : Prop where
  startUrl : hasPlaceholder resolution.startUrl = false
  connectionName : ∀ name, resolution.connectionName = some name → hasPlaceholder name = false

theorem Free.getD {resolution : Resolution} (h : resolution.Free) :
    hasPlaceholder (resolution.connectionName.getD "") = false := by
  cases hname : resolution.connectionName with
  | none =>
    rw [Option.getD_none]
    decide
  | some name => exact h.connectionName name hname

end Resolution

theorem mem_brace {text : String} (h : hasPlaceholder text = true) : '{' ∈ text.toList := by
  rw [hasPlaceholder, Bool.or_eq_true, Text.contains_iff, Text.contains_iff] at h
  rcases h with h | h
  · exact h.subset (by decide)
  · exact h.subset (by decide)

/-- The type of an action that opens a URL has no placeholder. -/
theorem not_hasPlaceholder_of_isOpenUrl {text : String} (h : isOpenUrl text = true) : hasPlaceholder text = false := by
  rw [← Bool.not_eq_true]
  intro hplaceholder
  rw [isOpenUrl, Text.eqIgnoreAsciiCase, beq_iff_eq] at h
  have hlower : '{' ∈ (Text.toAsciiLowercase text).toList := by
    rw [Text.toAsciiLowercase, String.toList_ofList]
    exact List.mem_map.mpr ⟨'{', mem_brace hplaceholder, by decide⟩
  rw [h] at hlower
  revert hlower
  decide

theorem not_hasPlaceholder_startMarker : hasPlaceholder startMarker = false := by decide

/-! ## Nodes -/

/-- What a rendering is to leave none of: a text with a placeholder, and an action that opens the start. -/
def bears : Value → Bool
  | .string text => hasPlaceholder text
  | v => isStartAction v

def HasNone (v : Value) : Prop := anyNode bears v = false

/-- What a node bears once it is rewritten, said of the node as it was. -/
def bearsAfter (resolution : Resolution) : Value → Bool
  | .string text => hasPlaceholder (resolution.rewriteText text)
  | .object fields =>
    if isOauthStart fields then resolution.startUrl == startMarker
    else ((fields.lookup "type").bind asStr).any (fun itemType => isOpenUrl (resolution.rewriteText itemType))
      && ((fields.lookup "url").bind asStr).any fun url => resolution.rewriteText url == startMarker
  | _ => false

section Rewrite

variable {resolution : Resolution} {start : Bool} {fields : List (String × Value)} {v w node : Value} {key : String}

theorem asStr_rewrite (resolution : Resolution) (v : Value) :
    (resolution.rewriteOauthFields v).asStr = v.asStr.map resolution.rewriteText := by
  cases v <;> rfl

theorem eq_string_of_asStr {text : String} (h : v.asStr = some text) : v = .string text := by
  cases v <;> cases h
  rfl

/-- An entry that is neither the start of a sign-in nor the name of a connection is rewritten. -/
theorem lookup_rewriteEntries_of_kept (h : fields.lookup key = some w) (hurl : (start && key == "url") = false)
    (hname : (key == "connectionName" && w.asStr == some connectionNamePlaceholder) = false) :
    (resolution.rewriteEntries start fields).lookup key = some (resolution.rewriteOauthFields w) := by
  induction fields with
  | nil => cases h
  | cons field rest ih =>
    obtain ⟨other, u⟩ := field
    by_cases hkey : key = other
    · subst hkey
      rw [List.lookup_cons_self, Option.some.injEq] at h
      subst h
      rw [Resolution.rewriteEntries, hurl, hname, if_neg (by decide), if_neg (by decide), List.lookup_cons_self]
    · have hother := beq_eq_false_iff_ne.mpr hkey
      rw [List.lookup_cons, hother] at h
      rw [Resolution.rewriteEntries]
      split
      · rw [List.lookup_cons, hother, ih h]
      · split
        · split
          · rw [List.lookup_cons, hother, ih h]
          · exact ih h
        · rw [List.lookup_cons, hother, ih h]

theorem lookup_rewriteEntries (resolution : Resolution) (start : Bool) (fields : List (String × Value))
    (hkey : key ≠ "connectionName") :
    (resolution.rewriteEntries start fields).lookup key
      = (fields.lookup key).map fun w =>
        if start && key == "url" then .string (resolution.rewriteText resolution.startUrl)
        else resolution.rewriteOauthFields w := by
  induction fields with
  | nil => rfl
  | cons field rest ih =>
    obtain ⟨other, u⟩ := field
    rw [Resolution.rewriteEntries]
    by_cases hother : key = other
    · subst hother
      rw [List.lookup_cons_self, beq_eq_false_iff_ne.mpr hkey, Bool.false_and]
      split
      · rw [List.lookup_cons_self]
        simp [*]
      · rw [if_neg (by decide), List.lookup_cons_self]
        simp [*]
    · have hne := beq_eq_false_iff_ne.mpr hother
      rw [List.lookup_cons, hne]
      split
      · rw [List.lookup_cons, hne, ih]
      · split
        · split
          · rw [List.lookup_cons, hne, ih]
          · exact ih
        · rw [List.lookup_cons, hne, ih]

/-- Whether an object opens the start once it is rewritten. -/
theorem isOauthStart_rewrite (hfree : resolution.Free) :
    isOauthStart (resolution.rewriteEntries (isOauthStart fields) fields) = bearsAfter resolution (.object fields) := by
  rw [bearsAfter, isOauthStart, lookup_rewriteEntries _ _ _ (by decide), lookup_rewriteEntries _ _ _ (by decide)]
  have htype : ("type" == "url") = false := by decide
  rw [htype, beq_self_eq_true, Bool.and_false, Bool.and_true]
  cases hstart : isOauthStart fields with
  | true =>
    rw [isOauthStart, Bool.and_eq_true, beq_iff_eq] at hstart
    obtain ⟨hopen, hurl⟩ := hstart
    obtain ⟨itemType, htype, hopen⟩ := Option.any_eq_true _ _ |>.mp hopen
    obtain ⟨t, ht, htext⟩ := Option.bind_eq_some_iff.mp htype
    obtain ⟨u, hu, -⟩ := Option.bind_eq_some_iff.mp hurl
    rw [ht, hu, eq_string_of_asStr htext]
    simp only [Option.map_some, Option.bind_some, asStr, Resolution.rewriteOauthFields, Bool.false_eq_true, if_false,
      if_true, Option.any_some, resolution.rewriteText_of_not (not_hasPlaceholder_of_isOpenUrl hopen), hopen,
      resolution.rewriteText_of_not hfree.startUrl, Bool.true_and]
    rfl
  | false =>
    simp only [Bool.false_eq_true, if_false]
    have htype : ((fields.lookup "type").map resolution.rewriteOauthFields).bind asStr
        = ((fields.lookup "type").bind asStr).map resolution.rewriteText := by
      simp only [Option.bind_map, Option.map_bind, Function.comp_def, asStr_rewrite]
    have hurl : ((fields.lookup "url").map resolution.rewriteOauthFields).bind asStr
        = ((fields.lookup "url").bind asStr).map resolution.rewriteText := by
      simp only [Option.bind_map, Option.map_bind, Function.comp_def, asStr_rewrite]
    rw [htype, hurl, Option.any_map]
    congr 1
    cases (fields.lookup "url").bind asStr with
    | none => simp
    | some url => simp

/-- The fields of an object bear something once it is rewritten, where one of them does. -/
theorem anyField_rewrite (hfree : resolution.Free)
    (hurl : ∀ field ∈ fields, start = true → field.1 = "url" → field.2 = .string startMarker)
    (ih : ∀ field ∈ fields,
      anyNode bears (resolution.rewriteOauthFields field.2) = anyNode (bearsAfter resolution) field.2) :
    anyField bears (resolution.rewriteEntries start fields) = anyField (bearsAfter resolution) fields := by
  induction fields with
  | nil => rfl
  | cons field rest ih' =>
    obtain ⟨key, v⟩ := field
    rw [List.forall_mem_cons] at hurl ih
    have hrest := ih' hurl.2 ih.2
    rw [Resolution.rewriteEntries, anyField]
    split
    next hkey =>
      rw [Bool.and_eq_true, beq_iff_eq] at hkey
      have hv : v = .string startMarker := hurl.1 hkey.1 hkey.2
      have hbefore : anyNode (bearsAfter resolution) v = false := by
        rw [hv, anyNode, bearsAfter, resolution.rewriteText_of_not not_hasPlaceholder_startMarker]
        exact not_hasPlaceholder_startMarker
      rw [anyField, hrest, hbefore, anyNode, bears, resolution.rewriteText_of_not hfree.startUrl, hfree.startUrl]
    next =>
      split
      next hname =>
        rw [Bool.and_eq_true, beq_iff_eq, beq_iff_eq] at hname
        have hbefore : anyNode (bearsAfter resolution) v = false := by
          rw [eq_string_of_asStr hname.2, anyNode, bearsAfter, resolution.rewriteText_connectionName]
          exact hfree.getD
        rw [hbefore, Bool.false_or]
        split
        next name heq =>
          have hfreeName := hfree.connectionName name heq
          rw [anyField, hrest, anyNode, bears, resolution.rewriteText_of_not hfreeName, hfreeName, Bool.false_or]
        next => exact hrest
      next => rw [anyField, ih.1, hrest]

/-- **What a card bears once it is rewritten**, said of the card as it was. -/
theorem anyNode_rewrite (hfree : resolution.Free) (hunique : anyNode hasDuplicate v = false) :
    anyNode bears (resolution.rewriteOauthFields v) = anyNode (bearsAfter resolution) v := by
  induction v using induct with
  | null => rfl
  | bool b => rfl
  | number n => rfl
  | string text => rfl
  | array items ih =>
    have hitems := (anyNode_array_eq_false.mp hunique).2
    rw [Resolution.rewriteOauthFields, anyNode, anyNode]
    congr 1
    clear hunique
    induction items with
    | nil => rfl
    | cons v rest ih' =>
      rw [List.forall_mem_cons] at ih hitems
      rw [Resolution.rewriteItems, anyItem, anyItem, ih.1 hitems.1, ih' ih.2 hitems.2]
  | object fields ih =>
    obtain ⟨hself, hinside⟩ := anyNode_object_eq_false.mp hunique
    have hnodup : (fields.map Prod.fst).Nodup := by simpa [hasDuplicate] using hself
    rw [Resolution.rewriteOauthFields, anyNode, anyNode, ← isOauthStart_rewrite hfree]
    refine congrArg _ (anyField_rewrite hfree (fun field hfield hstart hkey => ?_) fun field hfield =>
      ih field hfield (hinside field hfield))
    rw [isOauthStart, Bool.and_eq_true, beq_iff_eq] at hstart
    obtain ⟨u, hu, htext⟩ := Option.bind_eq_some_iff.mp hstart.2
    have hlookup := (lookup_eq_some_iff hnodup).mpr hfield
    rw [hkey, hu, Option.some.injEq] at hlookup
    rw [← hlookup, eq_string_of_asStr htext]

theorem rewriteEntries_of_hasNone (hfields : ∀ field ∈ fields, HasNone field.2)
    (ih : ∀ field ∈ fields, resolution.rewriteOauthFields field.2 = field.2) :
    resolution.rewriteEntries false fields = fields := by
  induction fields with
  | nil => rfl
  | cons field rest ih' =>
    obtain ⟨key, v⟩ := field
    rw [List.forall_mem_cons] at hfields ih
    have hname : (key == "connectionName" && v.asStr == some connectionNamePlaceholder) = false := by
      rw [Bool.and_eq_false_iff, beq_eq_false_iff_ne, beq_eq_false_iff_ne]
      refine .inr fun htext => ?_
      have hbears : anyNode bears (.string connectionNamePlaceholder) = true := by decide +kernel
      have hnone := hfields.1
      rw [HasNone, eq_string_of_asStr htext, hbears] at hnone
      cases hnone
    rw [Resolution.rewriteEntries, Bool.false_and, hname, if_neg (by decide), if_neg (by decide), ih.1,
      ih' hfields.2 ih.2]

/-- What has none stays. -/
theorem rewrite_of_hasNone (h : HasNone v) : resolution.rewriteOauthFields v = v := by
  induction v using induct with
  | null => rfl
  | bool b => rfl
  | number n => rfl
  | string text => exact congrArg Value.string (resolution.rewriteText_of_not h)
  | array items ih =>
    have hitems := (anyNode_array_eq_false.mp h).2
    rw [Resolution.rewriteOauthFields]
    congr 1
    clear h
    induction items with
    | nil => rfl
    | cons v rest ih' =>
      rw [List.forall_mem_cons] at ih hitems
      rw [Resolution.rewriteItems, ih.1 hitems.1, ih' ih.2 hitems.2]
  | object fields ih =>
    obtain ⟨hself, hinside⟩ := anyNode_object_eq_false.mp h
    have hstart : isOauthStart fields = false := hself
    rw [Resolution.rewriteOauthFields, hstart]
    exact congrArg Value.object
      (rewriteEntries_of_hasNone hinside fun field hfield => ih field hfield (hinside field hfield))

/-- Numbers have no part in the rewriting. -/
theorem mapNumbers_rewrite (f : Number → Number) (v : Value) :
    mapNumbers f (resolution.rewriteOauthFields v) = resolution.rewriteOauthFields (mapNumbers f v) := by
  induction v using induct with
  | null => rfl
  | bool b => rfl
  | number n => rfl
  | string text => rfl
  | array items ih =>
    rw [Resolution.rewriteOauthFields, mapNumbers, mapNumbers, Resolution.rewriteOauthFields]
    congr 1
    induction items with
    | nil => rfl
    | cons v rest ih' =>
      rw [List.forall_mem_cons] at ih
      rw [Resolution.rewriteItems, mapItems, mapItems, Resolution.rewriteItems, ih.1, ih' ih.2]
  | object fields ih =>
    have hstart : isOauthStart (mapFields f fields) = isOauthStart fields := by
      simp only [isOauthStart, lookup_mapFields, Option.bind_map, Function.comp_def, asStr_mapNumbers]
    rw [Resolution.rewriteOauthFields, mapNumbers, mapNumbers, Resolution.rewriteOauthFields, hstart]
    congr 1
    clear hstart
    generalize isOauthStart fields = start
    induction fields with
    | nil => rfl
    | cons field rest ih' =>
      obtain ⟨key, v⟩ := field
      rw [List.forall_mem_cons] at ih
      rw [mapFields, Resolution.rewriteEntries, Resolution.rewriteEntries, asStr_mapNumbers]
      split
      · rw [mapFields, mapNumbers, ih' ih.2]
      · split
        · split
          · rw [mapFields, mapNumbers, ih' ih.2]
          · exact ih' ih.2
        · rw [mapFields, ih.1, ih' ih.2]

end Rewrite

/-! ### Nodes that stay -/

/-- The URL of an action that opens the start. -/
def IsStartUrl (path : List Step) (card : Value) : Prop :=
  ∃ front fields, path = front ++ [.field "url"] ∧ nodeAt front card = some (.object fields)
    ∧ isOauthStart fields = true

/-- A node that had nothing to be rewritten, and is not the URL of such an action, is where it was. -/
def KeepsNodes (before after : Value) : Prop :=
  ∀ path node, nodeAt path before = some node → HasNone node → ¬IsStartUrl path before →
    nodeAt path after = some node

section Nodes

variable {resolution : Resolution} {fields : List (String × Value)} {v w node : Value} {key : String} {path : List Step}

theorem isStartUrl_field (hw : fields.lookup key = some w) (h : IsStartUrl path w) :
    IsStartUrl (.field key :: path) (.object fields) := by
  obtain ⟨front, inner, rfl, hfront, hstart⟩ := h
  refine ⟨.field key :: front, inner, rfl, ?_, hstart⟩
  rw [nodeAt, hw, Option.bind_some, hfront]

theorem isStartUrl_item {items : List Value} {i : Nat} (hw : items[i]? = some w) (h : IsStartUrl path w) :
    IsStartUrl (.item i :: path) (.array items) := by
  obtain ⟨front, inner, rfl, hfront, hstart⟩ := h
  refine ⟨.item i :: front, inner, rfl, ?_, hstart⟩
  rw [nodeAt, hw, Option.bind_some, hfront]

theorem nodeAt_string {text : String} (h : nodeAt path (.string text) = some node) :
    path = [] ∧ node = .string text := by
  cases path with
  | nil =>
    cases h
    exact ⟨rfl, rfl⟩
  | cons step rest => cases step <;> cases h

theorem getElem?_rewriteItems (items : List Value) (i : Nat) :
    (resolution.rewriteItems items)[i]? = items[i]?.map resolution.rewriteOauthFields := by
  induction items generalizing i with
  | nil => rfl
  | cons v rest ih =>
    rw [Resolution.rewriteItems]
    cases i with
    | zero => rfl
    | succ i => exact ih i

theorem keepsNodes_rewrite (resolution : Resolution) (v : Value) : KeepsNodes v (resolution.rewriteOauthFields v) := by
  intro path node hnode hnone hurl
  induction path generalizing v with
  | nil =>
    cases hnode
    rw [nodeAt, rewrite_of_hasNone hnone]
  | cons step rest ih =>
    cases v with
    | object fields =>
      cases step with
      | field key =>
        obtain ⟨w, hw, hinner⟩ := Option.bind_eq_some_iff.mp hnode
        have hkept : (isOauthStart fields && key == "url") = false := by
          rw [← Bool.not_eq_true, Bool.and_eq_true, beq_iff_eq]
          rintro ⟨hstart, rfl⟩
          have hmarker := hstart
          rw [isOauthStart, Bool.and_eq_true, beq_iff_eq] at hmarker
          obtain ⟨u, hu, htext⟩ := Option.bind_eq_some_iff.mp hmarker.2
          rw [hw, Option.some.injEq] at hu
          rw [hu, eq_string_of_asStr htext] at hinner
          obtain ⟨rfl, -⟩ := nodeAt_string hinner
          exact hurl ⟨[], fields, rfl, rfl, hstart⟩
        have hname : (key == "connectionName" && w.asStr == some connectionNamePlaceholder) = false := by
          rw [← Bool.not_eq_true, Bool.and_eq_true, beq_iff_eq, beq_iff_eq]
          rintro ⟨-, htext⟩
          rw [eq_string_of_asStr htext] at hinner
          obtain ⟨-, rfl⟩ := nodeAt_string hinner
          have hbears : anyNode bears (.string connectionNamePlaceholder) = true := by decide +kernel
          rw [HasNone, hbears] at hnone
          cases hnone
        rw [Resolution.rewriteOauthFields, nodeAt, lookup_rewriteEntries_of_kept hw hkept hname, Option.bind_some]
        exact ih w hinner fun hinside => hurl (isStartUrl_field hw hinside)
      | item i => cases hnode
    | array items =>
      cases step with
      | field key => cases hnode
      | item i =>
        obtain ⟨w, hw, hnode⟩ := Option.bind_eq_some_iff.mp hnode
        rw [Resolution.rewriteOauthFields, nodeAt, getElem?_rewriteItems, hw, Option.map_some, Option.bind_some]
        exact ih w hnode fun hinside => hurl (isStartUrl_item hw hinside)
    | null => cases step <;> cases hnode
    | bool b => cases step <;> cases hnode
    | number n => cases step <;> cases hnode
    | string text => cases step <;> cases hnode

/-- No number is the URL of an action. -/
theorem not_isStartUrl_of_number {n : Number} (h : nodeAt path v = some (.number n)) : ¬IsStartUrl path v := by
  rintro ⟨front, fields, rfl, hfront, hstart⟩
  have hnode : nodeAt (front ++ [.field "url"]) v = fields.lookup "url" := by
    clear h
    induction front generalizing v with
    | nil =>
      cases hfront
      rw [List.nil_append, nodeAt]
      cases fields.lookup "url" <;> rfl
    | cons step rest ih =>
      cases v with
      | object inner =>
        cases step with
        | field key =>
          obtain ⟨w, hw, hfront⟩ := Option.bind_eq_some_iff.mp hfront
          rw [List.cons_append, nodeAt, hw, Option.bind_some, ih hfront]
        | item i => cases hfront
      | array items =>
        cases step with
        | field key => cases hfront
        | item i =>
          obtain ⟨w, hw, hfront⟩ := Option.bind_eq_some_iff.mp hfront
          rw [List.cons_append, nodeAt, hw, Option.bind_some, ih hfront]
      | null => cases step <;> cases hfront
      | bool b => cases step <;> cases hfront
      | number n => cases step <;> cases hfront
      | string text => cases step <;> cases hfront
  rw [isOauthStart, Bool.and_eq_true, beq_iff_eq] at hstart
  obtain ⟨u, hu, htext⟩ := Option.bind_eq_some_iff.mp hstart.2
  rw [hnode, hu, eq_string_of_asStr htext] at h
  cases h

end Nodes

/-! ## Rendering -/

/-- What is written is read back, but for numbers that are written in one way and read as another one; and in
what is read no name is given twice. -/
structure JsonText.Lawful (json : JsonText) (reread : Number → Number) : Prop where
  fromSlice : ∀ {v bytes}, json.toVec v = .ok bytes → json.fromSlice bytes = some (v.mapNumbers reread)
  fromStr : ∀ {v text}, json.toText v = .ok text → json.fromStr text = some (v.mapNumbers reread)
  unique : ∀ {text v}, json.fromStr text = some v → anyNode hasDuplicate v = false

/-- What is promised of a payload with a card that is rendered. -/
structure RendersWell (json : JsonText) (providerType : String) (payloadBytes : List UInt8) (found : Found)
    (rendered : List UInt8) : Prop where
  card : ∃ after, findCard json rendered = .ok (some after) ∧ HasNone after.card ∧ KeepsNodes found.card after.card
  unchanged : HasNone found.card → found.requestSeed = none → rendered = payloadBytes
  again : ∀ resolveCapability twice, renderIfNeeded json providerType rendered resolveCapability = .ok twice →
    ∃ before after, findCard json rendered = .ok (some before) ∧ findCard json twice = .ok (some after)
      ∧ after.card = before.card

/-- The replacements leave nothing behind, every number is read as it is written, and a payload without anything
to be rewritten is written as it was. -/
structure Settles (json : JsonText) (reread : Number → Number) (payloadBytes : List UInt8) (found : Found)
    (resolution : Resolution) (resolved : Value) : Prop where
  card : anyNode (bearsAfter resolution) found.card = false
  numbers : anyNode (isChanged reread) found.card = false
  recorded : HasNone found.card → found.requestSeed = none → ∀ text, json.toText found.card = .ok text →
    json.toVec (found.recorded resolution text resolved) = .ok payloadBytes

section Render

variable {json : JsonText} {providerType : String} {payloadBytes rendered : List UInt8} {found : Found}
  {resolveCapability : String → String → List UInt8 → Except String Value}

theorem findCard_ok_iff : findCard json payloadBytes = .ok (some found) ↔
    json.fromSlice payloadBytes = some found.payload ∧ found.payload.asObject.isSome = true
      ∧ (found.payload.pointer "/metadata/adaptive_card").bind asStr = some found.raw
      ∧ json.fromStr found.raw = some found.card := by
  obtain ⟨payload, raw, card⟩ := found
  unfold findCard
  cases json.fromSlice payloadBytes with
  | none => simp
  | some read =>
    dsimp only
    cases hobject : read.asObject with
    | none =>
      simp only [reduceCtorEq, Except.ok.injEq, Option.some.injEq, false_iff, not_and]
      rintro rfl hsome
      rw [hobject] at hsome
      cases hsome
    | some fields =>
      dsimp only
      cases htext : (read.pointer "/metadata/adaptive_card").bind asStr with
      | none =>
        simp only [reduceCtorEq, Except.ok.injEq, Option.some.injEq, false_iff, not_and]
        rintro rfl - hsome
        rw [htext] at hsome
        cases hsome
      | some text =>
        dsimp only
        cases hread : json.fromStr text with
        | none =>
          simp only [reduceCtorEq, Option.some.injEq, false_iff, not_and]
          rintro rfl - hsome hcard
          rw [htext, Option.some.injEq] at hsome
          rw [← hsome, hread] at hcard
          cases hcard
        | some v =>
          simp only [Except.ok.injEq, Option.some.injEq, Found.mk.injEq]
          constructor
          · rintro ⟨rfl, rfl, rfl⟩
            exact ⟨rfl, by rw [hobject]; rfl, htext, hread⟩
          · rintro ⟨rfl, -, hsome, hcard⟩
            rw [htext, Option.some.injEq] at hsome
            subst hsome
            rw [hread, Option.some.injEq] at hcard
            exact ⟨rfl, rfl, hcard⟩

theorem render_of_not_needed (hfound : findCard json payloadBytes = .ok (some found)) (h : found.needsResolving = false) :
    renderIfNeeded json providerType payloadBytes resolveCapability = .ok payloadBytes := by
  unfold renderIfNeeded
  rw [hfound]
  change (if !found.needsResolving then _ else _) = _
  rw [h]
  rfl

/-- What a rendering that is needed comes to. -/
theorem render_of_needed (hfound : findCard json payloadBytes = .ok (some found)) (h : found.needsResolving = true)
    (hrendered : renderIfNeeded json providerType payloadBytes resolveCapability = .ok rendered) :
    ∃ input resolved resolution text,
      json.toVec (buildCardResolveRequest found.requestSeed found.payload providerType) = .ok input
      ∧ resolveCapability Capabilities.capOauthCardV1 "oauth.card.resolve" input = .ok resolved
      ∧ resolutionOf providerType resolved = .ok resolution
      ∧ json.toText (resolution.rewriteOauthFields found.card) = .ok text
      ∧ json.toVec (found.recorded resolution text resolved) = .ok rendered := by
  unfold renderIfNeeded at hrendered
  rw [hfound] at hrendered
  change (if !found.needsResolving then _ else _) = _ at hrendered
  rw [h] at hrendered
  obtain ⟨input, hinput, hrendered⟩ := Outcome.bind_eq_ok_iff.mp hrendered
  obtain ⟨resolved, hresolved, hrendered⟩ := Outcome.bind_eq_ok_iff.mp hrendered
  obtain ⟨resolution, hresolution, hrendered⟩ := Outcome.bind_eq_ok_iff.mp hrendered
  obtain ⟨text, htext, hrendered⟩ := Outcome.bind_eq_ok_iff.mp hrendered
  exact ⟨input, resolved, resolution, text, hinput, hresolved, hresolution, htext, hrendered⟩

/-- The renderer of the runner host, with the capability called in between, renders the same. -/
theorem renderIfNeeded_eq (json : JsonText) (providerType : String) (payloadBytes : List UInt8)
    (resolveCapability : String → String → List UInt8 → Except String Value) :
    renderIfNeeded json providerType payloadBytes resolveCapability
      = ((renderer json).request providerType payloadBytes).bind fun input =>
        input.elim (.ok payloadBytes) fun input =>
          (resolveCapability Capabilities.capOauthCardV1 "oauth.card.resolve" input).bind
            ((renderer json).rewrite providerType payloadBytes) := by
  unfold renderIfNeeded renderer
  dsimp only
  cases findCard json payloadBytes with
  | error message => rfl
  | ok found =>
    cases found with
    | none => rfl
    | some found =>
      change (if !found.needsResolving then _ else _) = Except.bind (if !found.needsResolving then _ else _) _
      cases found.needsResolving with
      | false => rfl
      | true =>
        change Except.bind (json.toVec _) _ = Except.bind (Except.bind (json.toVec _) _) _
        cases json.toVec (buildCardResolveRequest found.requestSeed found.payload providerType) <;> rfl

/-! ### The payload that is written -/

theorem pointer_adaptiveCard (payload : Value) :
    payload.pointer "/metadata/adaptive_card" = follow ["metadata", "adaptive_card"] payload := by
  have htokens : (Text.split '/' "/metadata/adaptive_card").tail.map (fun token => String.ofList (unescape token.toList))
      = ["metadata", "adaptive_card"] := by decide +kernel
  rw [pointer, if_neg (by decide), if_pos (by decide), htokens]

/-- The metadata of a payload with a card is an object. -/
theorem exists_metadata {payload : Value} {raw : String}
    (h : (payload.pointer "/metadata/adaptive_card").bind asStr = some raw) :
    ∃ fields metadata, payload = .object fields ∧ fields.lookup "metadata" = some (.object metadata) := by
  rw [pointer_adaptiveCard] at h
  obtain ⟨node, hnode, -⟩ := Option.bind_eq_some_iff.mp h
  cases payload with
  | object fields =>
    obtain ⟨metadata, hmetadata, hnode⟩ := Option.bind_eq_some_iff.mp hnode
    cases metadata with
    | object inner => exact ⟨fields, inner, rfl, hmetadata⟩
    | array items =>
      have hindex : parseIndex "adaptive_card" = none := by decide
      rw [follow, hindex] at hnode
      cases hnode
    | null => cases hnode
    | bool b => cases hnode
    | number n => cases hnode
    | string text => cases hnode
  | array items =>
    have hindex : parseIndex "metadata" = none := by decide
    rw [follow, hindex] at hnode
    cases hnode
  | null => cases hnode
  | bool b => cases hnode
  | number n => cases hnode
  | string text => cases hnode

/-- In the payload that is written the card is the rewritten one. -/
theorem findCard_recorded {reread : Number → Number} (hjson : json.Lawful reread)
    (hfound : findCard json payloadBytes = .ok (some found)) {resolution : Resolution} {text : String} {resolved : Value}
    (htext : json.toText (resolution.rewriteOauthFields found.card) = .ok text)
    (hrendered : json.toVec (found.recorded resolution text resolved) = .ok rendered) :
    findCard json rendered = .ok (some ⟨mapNumbers reread (found.recorded resolution text resolved), text,
      mapNumbers reread (resolution.rewriteOauthFields found.card)⟩) := by
  obtain ⟨-, -, hraw, -⟩ := findCard_ok_iff.mp hfound
  obtain ⟨fields, metadata, hpayload, hmetadata⟩ := exists_metadata hraw
  have hrecorded : found.recorded resolution text resolved
      = .object (insertField "metadata" (.object (found.recordIn resolution text resolved metadata)) fields) := by
    rw [Found.recorded, hpayload]
    dsimp only
    rw [hmetadata]
  have hcard : (found.recordIn resolution text resolved metadata).lookup "adaptive_card" = some (.string text) := by
    unfold Found.recordIn
    dsimp only
    split
    · rw [lookup_insertField, if_neg (by decide), lookup_insertField, if_neg (by decide), lookup_insertField, if_pos rfl]
    · rw [lookup_insertField, if_neg (by decide), lookup_insertField, if_pos rfl]
  refine findCard_ok_iff.mpr ⟨hjson.fromSlice hrendered, ?_, ?_, hjson.fromStr htext⟩
  · rw [hrecorded]
    rfl
  · rw [pointer_adaptiveCard, follow_mapNumbers, hrecorded, follow, lookup_insertField, if_pos rfl, Option.bind_some,
      follow, hcard]
    rfl

/-! ### When a rendering is right -/

theorem rendersWell_of_not_needed (hfound : findCard json payloadBytes = .ok (some found))
    (h : found.needsResolving = false) :
    RendersWell json providerType payloadBytes found payloadBytes ↔ HasNone found.card := by
  constructor
  · intro hwell
    obtain ⟨after, hafter, hnone, -⟩ := hwell.card
    rw [hfound, Except.ok.injEq, Option.some.injEq] at hafter
    exact hafter ▸ hnone
  · intro hnone
    refine ⟨⟨found, hfound, hnone, fun _ _ hnode _ _ => hnode⟩, fun _ _ => rfl,
      fun resolveCapability twice htwice => ?_⟩
    rw [render_of_not_needed hfound h, Except.ok.injEq] at htwice
    exact ⟨found, found, hfound, htwice ▸ hfound, rfl⟩

/-- A card without anything to be rewritten is rendered as it is. -/
theorem card_of_rendered_again {reread : Number → Number} (hjson : json.Lawful reread)
    (hfound : findCard json payloadBytes = .ok (some found)) (hnone : HasNone found.card)
    (hnumbers : anyNode (isChanged reread) found.card = false)
    (hrendered : renderIfNeeded json providerType payloadBytes resolveCapability = .ok rendered) :
    ∃ after, findCard json rendered = .ok (some after) ∧ after.card = found.card := by
  cases hneeded : found.needsResolving with
  | false =>
    rw [render_of_not_needed hfound hneeded, Except.ok.injEq] at hrendered
    exact ⟨found, hrendered ▸ hfound, rfl⟩
  | true =>
    obtain ⟨_, _, resolution, text, -, -, -, htext, hwritten⟩ := render_of_needed hfound hneeded hrendered
    refine ⟨_, findCard_recorded hjson hfound htext hwritten, ?_⟩
    dsimp only
    rw [rewrite_of_hasNone hnone, mapNumbers_eq_self hnumbers]

theorem rendersWell_of_needed {reread : Number → Number} (hjson : json.Lawful reread)
    (hfound : findCard json payloadBytes = .ok (some found)) {resolution : Resolution} (hfree : resolution.Free)
    {text : String} {resolved : Value} (htext : json.toText (resolution.rewriteOauthFields found.card) = .ok text)
    (hrendered : json.toVec (found.recorded resolution text resolved) = .ok rendered) :
    RendersWell json providerType payloadBytes found rendered
      ↔ Settles json reread payloadBytes found resolution resolved := by
  have hwritten := findCard_recorded hjson hfound htext hrendered
  have hunique : anyNode hasDuplicate found.card = false := hjson.unique (findCard_ok_iff.mp hfound).2.2.2
  have hbears : ∀ v, bears (mapNumbers reread v) = bears v := by
    intro v
    cases v with
    | object fields => simp only [mapNumbers, bears, isStartAction, isOauthStart, lookup_mapFields, Option.bind_map,
        Function.comp_def, asStr_mapNumbers]
    | array items => rfl
    | null => rfl
    | bool b => rfl
    | number n => rfl
    | string text => rfl
  have hcard : HasNone (mapNumbers reread (resolution.rewriteOauthFields found.card))
      ↔ anyNode (bearsAfter resolution) found.card = false := by
    rw [HasNone, anyNode_mapNumbers hbears, anyNode_rewrite hfree hunique]
  have hsame : HasNone found.card → (rendered = payloadBytes
      ↔ ∀ text, json.toText found.card = .ok text →
        json.toVec (found.recorded resolution text resolved) = .ok payloadBytes) := by
    intro hnone
    rw [rewrite_of_hasNone hnone] at htext
    constructor
    · rintro rfl other hother
      rw [htext, Except.ok.injEq] at hother
      exact hother ▸ hrendered
    · intro h
      have hother := h text htext
      rw [hrendered, Except.ok.injEq] at hother
      exact hother
  constructor
  · rintro ⟨⟨after, hafter, hnone, hkeeps⟩, hunchanged, -⟩
    rw [hwritten, Except.ok.injEq, Option.some.injEq] at hafter
    subst hafter
    refine ⟨hcard.mp hnone, ?_, fun hcardNone hseed => (hsame hcardNone).mp (hunchanged hcardNone hseed)⟩
    rw [← Bool.not_eq_true]
    intro hchanged
    obtain ⟨path, node, hnode, hnumber⟩ := exists_nodeAt hunique hchanged
    cases node with
    | number n =>
      have hurl := not_isStartUrl_of_number hnode
      have hkept := hkeeps path _ hnode rfl hurl
      dsimp only at hkept
      rw [nodeAt_mapNumbers, keepsNodes_rewrite resolution found.card path _ hnode rfl hurl, Option.map_some,
        mapNumbers, Option.some.injEq, Value.number.injEq] at hkept
      rw [isChanged, hkept] at hnumber
      simp at hnumber
    | null => cases hnumber
    | bool b => cases hnumber
    | string text => cases hnumber
    | array items => cases hnumber
    | object fields => cases hnumber
  · rintro ⟨hafter, hnumbers, hrecorded⟩
    have hcardEq :
        mapNumbers reread (resolution.rewriteOauthFields found.card) = resolution.rewriteOauthFields found.card := by
      rw [mapNumbers_rewrite, mapNumbers_eq_self hnumbers]
    have hnone : HasNone (resolution.rewriteOauthFields found.card) := hcardEq ▸ hcard.mpr hafter
    rw [hcardEq] at hwritten
    refine ⟨⟨_, hwritten, hnone, keepsNodes_rewrite resolution found.card⟩,
      fun hcardNone hseed => (hsame hcardNone).mpr (hrecorded hcardNone hseed), fun again twice htwice => ?_⟩
    have hstable := anyNode_isChanged_of_eq hcardEq
    obtain ⟨after, hagain, heq⟩ := card_of_rendered_again hjson hwritten hnone hstable htwice
    exact ⟨_, after, hwritten, hagain, heq⟩

end Render

/-- What a payload with a card has to meet: where it is not rewritten the card has nothing to be rewritten, and
where it is, what is answered settles it. -/
def Meets (json : JsonText) (reread : Number → Number) (providerType : String) (payloadBytes : List UInt8)
    (found : Found) (resolveCapability : String → String → List UInt8 → Except String Value) : Prop :=
  if found.needsResolving then
    ∀ input resolved resolution,
      json.toVec (buildCardResolveRequest found.requestSeed found.payload providerType) = .ok input →
      resolveCapability Capabilities.capOauthCardV1 "oauth.card.resolve" input = .ok resolved →
      resolutionOf providerType resolved = .ok resolution → Settles json reread payloadBytes found resolution resolved
  else HasNone found.card

/-- **A rendered card is right exactly where it is met**: no placeholder and no action that opens the start is left, each
node that had none is where it was, a payload without any is returned as it is, and rendering again leaves its card
as it is. What the capability answers bears no placeholder itself. -/
theorem rendersWell_iff {json : JsonText} {reread : Number → Number} (hjson : json.Lawful reread)
    {providerType : String} {payloadBytes rendered : List UInt8} {found : Found}
    (hfound : findCard json payloadBytes = .ok (some found))
    {resolveCapability : String → String → List UInt8 → Except String Value}
    (hfree : ∀ input resolved resolution,
      resolveCapability Capabilities.capOauthCardV1 "oauth.card.resolve" input = .ok resolved →
      resolutionOf providerType resolved = .ok resolution → resolution.Free)
    (hrendered : renderIfNeeded json providerType payloadBytes resolveCapability = .ok rendered) :
    RendersWell json providerType payloadBytes found rendered
      ↔ Meets json reread providerType payloadBytes found resolveCapability := by
  unfold Meets
  cases hneeded : found.needsResolving with
  | false =>
    rw [render_of_not_needed hfound hneeded, Except.ok.injEq] at hrendered
    subst hrendered
    exact rendersWell_of_not_needed hfound hneeded
  | true =>
    rw [if_pos rfl]
    obtain ⟨input, resolved, resolution, text, hinput, hresolved, hresolution, htext, hwritten⟩ :=
      render_of_needed hfound hneeded hrendered
    rw [rendersWell_of_needed hjson hfound (hfree input resolved resolution hresolved hresolution) htext hwritten]
    constructor
    · intro hsettles other answer outcome hother hanswer houtcome
      rw [hinput, Except.ok.injEq] at hother
      subst hother
      rw [hresolved, Except.ok.injEq] at hanswer
      subst hanswer
      rw [hresolution, Except.ok.injEq] at houtcome
      exact houtcome ▸ hsettles
    · exact fun hmeets => hmeets input resolved resolution hinput hresolved hresolution

/-! ### A card that opens the start -/

/-- The text of a value, in some form, where it is known. -/
def writtenAs {β : Type} (texts : List (Value × String)) (form : String → β) (v : Value) : Except String β :=
  ((texts.find? fun entry => entry.1 == v).map fun entry => form entry.2).elim (.error "not written") .ok

/-- A codec that knows the texts of some values. -/
def tableJson (texts : List (Value × String)) : JsonText where
  fromSlice bytes := (texts.find? fun entry => entry.2.toUTF8.toList == bytes).map (·.1)
  fromStr text := (texts.find? fun entry => entry.2 == text).map (·.1)
  toVec := writtenAs texts (·.toUTF8.toList)
  toText := writtenAs texts id

theorem mem_of_written {β : Type} {texts : List (Value × String)} {form : String → β} {v : Value} {b : β}
    (h : writtenAs texts form v = .ok b) : ∃ entry ∈ texts, entry.1 = v ∧ form entry.2 = b := by
  unfold writtenAs at h
  cases hfind : texts.find? fun entry => entry.1 == v with
  | none =>
    rw [hfind] at h
    cases h
  | some entry =>
    rw [hfind] at h
    cases h
    have hsame := List.find?_some hfind
    rw [beq_iff_eq] at hsame
    exact ⟨entry, List.mem_of_find?_eq_some hfind, hsame, rfl⟩

def startCard (url : String) : Value := .object [("type", .string "Action.OpenUrl"), ("url", .string url)]

def startCardText : String := "\x7b\"type\":\"Action.OpenUrl\",\"url\":\"oauth://start\"\x7d"

def signInCardText : String := "\x7b\"type\":\"Action.OpenUrl\",\"url\":\"https://sign.in\"\x7d"

def signIn : Value := .object [("start_url", .string "https://sign.in")]

/-- A payload whose card opens the start. -/
def startFound : Found where
  payload := .object [("metadata", .object [("adaptive_card", .string startCardText)])]
  raw := startCardText
  card := startCard "oauth://start"

def startText : String :=
  "\x7b\"metadata\":\x7b\"adaptive_card\":\"\x7b\\\"type\\\":\\\"Action.OpenUrl\\\",\\\"url\\\":\\\"oauth://start\\\"\x7d\"\x7d\x7d"

def signInText : String :=
  "\x7b\"metadata\":\x7b\"adaptive_card\":\"\x7b\\\"type\\\":\\\"Action.OpenUrl\\\",\\\"url\\\":\\\"https://sign.in\\\"\x7d\""
    ++ ",\"oauth_card_resolved\":\x7b\"start_url\":\"https://sign.in\"\x7d\x7d\x7d"

/-- The values that are read and written where the start is resolved. -/
def startTexts : List (Value × String) :=
  [(startFound.payload, startText), (startFound.card, startCardText), (startCard "https://sign.in", signInCardText),
    (.object [("provider_type", .string "messaging.webchat")], "\x7b\"provider_type\":\"messaging.webchat\"\x7d"),
    (startFound.recorded ⟨"https://sign.in", none⟩ signInCardText signIn, signInText)]

theorem lawful_startTexts : (tableJson startTexts).Lawful id := by
  have hread : ∀ entry ∈ startTexts,
      (tableJson startTexts).fromSlice entry.2.toUTF8.toList = some (entry.1.mapNumbers id)
      ∧ (tableJson startTexts).fromStr entry.2 = some (entry.1.mapNumbers id)
      ∧ anyNode hasDuplicate entry.1 = false := by decide +kernel
  refine ⟨fun {v bytes} h => ?_, fun {v text} h => ?_, fun {text v} h => ?_⟩
  · obtain ⟨entry, hentry, rfl, rfl⟩ := @mem_of_written _ startTexts (·.toUTF8.toList) _ _ h
    exact (hread entry hentry).1
  · obtain ⟨entry, hentry, rfl, rfl⟩ := @mem_of_written _ startTexts id _ _ h
    exact (hread entry hentry).2.1
  · obtain ⟨entry, hentry, rfl⟩ := Option.map_eq_some_iff.mp h
    exact (hread entry (List.mem_of_find?_eq_some hentry)).2.2

theorem rendersWell_start_iff :
    RendersWell (tableJson startTexts) "messaging.webchat" startText.toUTF8.toList startFound
        signInText.toUTF8.toList
      ↔ Meets (tableJson startTexts) id "messaging.webchat" startText.toUTF8.toList startFound
        fun _ _ _ => .ok signIn := by
  refine rendersWell_iff lawful_startTexts (by decide +kernel) (fun input resolved resolution hresolved hresolution => ?_)
    (by decide +kernel)
  have hsignIn : resolutionOf "messaging.webchat" signIn = .ok ⟨"https://sign.in", none⟩ := by decide +kernel
  cases hresolved
  rw [hsignIn, Except.ok.injEq] at hresolution
  subst hresolution
  exact ⟨by decide +kernel, fun name hname => by cases hname⟩

end Cards
