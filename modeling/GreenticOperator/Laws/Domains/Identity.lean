import GreenticOperator.Laws.Domains.Doctor
import GreenticOperator.MessagingUniversal.App
import GreenticOperator.Offers.Registry

/-!
# One pack, one identity

Three readers take the id of a pack from its manifest: discovery, the offer registry and the loader
of app packs. They look in different places first, and do different things with an index that leads
nowhere; two of them read flows. They give one identity exactly where the manifest says the same in
each place they look (`oneIdentity_iff`).
-/

namespace Domains

open Cbor MessagingUniversal Offers

/-! ## What a manifest holds -/

/-- The text that a name is resolved to. -/
def nameText (symbols : Option Entries) (symbolKey : String) : CborValue → String
  | .text text => text
  | .integer idx => symbolText symbols symbolKey idx
  | _ => ""

def itemsOf : Option CborValue → List CborValue
  | some (.array items) => items
  | _ => []

/-- The field `pack_id` of the field `meta`. -/
def metaField (map : Entries) (key : String) : Option CborValue :=
  match mapGet map "meta" with
  | some (.map metaMap) => mapGet metaMap key
  | _ => none

/-- The text in the table of pack ids at an index. -/
def packIdSymbol (map : Entries) (i : Nat) : Option String :=
  match (symbolsMap map).bind (mapGet · "pack_ids") with
  | some (.array values) =>
    match values[i]? with
    | some (.text text) => some text
    | _ => none
  | _ => none

/-- What a flow is decoded to. -/
structure FlowOf (symbols : Option Entries) (item : CborValue) (flow : PackFlow) : Prop where
  isFlow : ∃ entries v, item = .map entries ∧ mapGet entries "id" = some v
    ∧ flow.id = nameText symbols "flow_ids" v
    ∧ flow.entrypoints = (itemsOf (mapGet entries "entrypoints")).map (nameText symbols "entrypoints")

section Decoded

variable {symbols : Option Entries} {symbolKey : String} {map : Entries}

theorem resolveStringSymbol_eq {value : Option CborValue} {r : Option String}
    (h : resolveStringSymbol value symbols symbolKey = .ok r) : r = value.map (nameText symbols symbolKey) := by
  cases value with
  | none =>
    cases h
    rfl
  | some v =>
    cases v with
    | text s =>
      cases h
      rfl
    | integer n =>
      cases h
      rfl
    | _ => cases h

theorem resolveEntry_eq {fallbackKey : Option String} {entry : CborValue × Nat} {r : Option String}
    (h : resolveEntry symbols symbolKey fallbackKey entry = .ok r) :
    r = some (nameText symbols symbolKey entry.1) := by
  obtain ⟨v, idx⟩ := entry
  cases v with
  | text s =>
    cases h
    rfl
  | integer n =>
    cases h
    rfl
  | _ => cases fallbackKey <;> cases h

/-- What is read of the items of an array, one by one. -/
theorem forall₂_of_mapM_zipIdx {α β ε : Type} {f : α × Nat → Except ε β} {R : α → β → Prop} {items : List α}
    {l : List β} (hf : ∀ entry b, f entry = .ok b → R entry.1 b) (h : items.zipIdx.mapM f = .ok l) :
    List.Forall₂ R items l := by
  have hall := (Outcome.forall₂_of_mapM_ok h).imp hf
  rwa [← List.forall₂_map_left_iff, List.zipIdx_map_fst] at hall

theorem resolveStringArray_eq {value : Option CborValue} {fallbackKey : Option String} {r : List String}
    (h : resolveStringArray value symbols symbolKey fallbackKey = .ok r) :
    r = (itemsOf value).map (nameText symbols symbolKey) := by
  cases value with
  | none =>
    cases h
    rfl
  | some v =>
    cases v with
    | array items =>
      obtain ⟨resolved, hresolved, h⟩ := Outcome.bind_eq_ok_iff.mp h
      cases h
      have hall := forall₂_of_mapM_zipIdx (R := fun v r => some (nameText symbols symbolKey v) = r)
        (fun _ _ hentry => (resolveEntry_eq hentry).symm) hresolved
      rw [← List.forall₂_map_left_iff, List.forall₂_eq_eq_eq] at hall
      rw [← hall, itemsOf, List.filterMap_map]
      exact congrFun List.filterMap_eq_map items
    | _ => cases h

theorem flowOf_of_decodeFlow {entry : CborValue × Nat} {flow : PackFlow}
    (h : decodeFlow symbols entry = .ok flow) : FlowOf symbols entry.1 flow := by
  obtain ⟨v, idx⟩ := entry
  cases v with
  | map entries =>
    obtain ⟨id, hid, h⟩ := Outcome.bind_eq_ok_iff.mp h
    have hid := resolveStringSymbol_eq hid
    cases hget : mapGet entries "id" with
    | none =>
      rw [hid, hget] at h
      cases h
    | some v =>
      rw [hid, hget] at h
      obtain ⟨entrypoints, hentry, h⟩ := Outcome.bind_eq_ok_iff.mp h
      cases h
      exact ⟨entries, v, rfl, hget, rfl, resolveStringArray_eq hentry⟩
  | _ => cases h

theorem forall₂_of_decodeFlows {value : Option CborValue} {flows : List PackFlow}
    (h : decodeFlows symbols value = .ok flows) : List.Forall₂ (FlowOf symbols) (itemsOf value) flows := by
  cases value with
  | none =>
    cases h
    exact .nil
  | some v =>
    cases v with
    | array items => exact forall₂_of_mapM_zipIdx (fun _ _ => flowOf_of_decodeFlow) h
    | _ => cases h

theorem decodeMeta_eq {r : Option String × List String} (h : decodeMeta symbols (mapGet map "meta") = .ok r) :
    r = ((metaField map "pack_id").map (nameText symbols "pack_ids"),
      (itemsOf (metaField map "entry_flows")).map (nameText symbols "flow_ids")) := by
  unfold metaField
  cases hmeta : mapGet map "meta" with
  | none =>
    rw [hmeta] at h
    cases h
    rfl
  | some v =>
    rw [hmeta] at h
    cases v with
    | map metaMap =>
      obtain ⟨packId, hpack, h⟩ := Outcome.bind_eq_ok_iff.mp h
      obtain ⟨entryFlows, hflows, h⟩ := Outcome.bind_eq_ok_iff.mp h
      cases h
      rw [resolveStringSymbol_eq hpack, resolveStringArray_eq hflows]
    | _ => cases h

/-- What a manifest is decoded to. -/
theorem decoded_eq {manifest : PackManifest} (h : decodeManifestLenient (.map map) = .ok manifest) :
    ∃ v flows, (mapGet map "pack_id").or (metaField map "pack_id") = some v
      ∧ manifest = {
          packMeta := some {
            packId := nameText (symbolsMap map) "pack_ids" v
            entryFlows := (itemsOf (metaField map "entry_flows")).map (nameText (symbolsMap map) "flow_ids") }
          packId := none
          flows }
      ∧ List.Forall₂ (FlowOf (symbolsMap map)) (itemsOf (mapGet map "flows")) flows := by
  obtain ⟨inMeta, hmeta, h⟩ := Outcome.bind_eq_ok_iff.mp h
  obtain ⟨topPackId, htop, h⟩ := Outcome.bind_eq_ok_iff.mp h
  have hmeta := decodeMeta_eq hmeta
  subst hmeta
  have htop := resolveStringSymbol_eq htop
  subst htop
  rw [← Option.map_or] at h
  cases hid : (mapGet map "pack_id").or (metaField map "pack_id") with
  | none =>
    rw [hid] at h
    cases h
  | some v =>
    rw [hid] at h
    obtain ⟨flows, hflows, h⟩ := Outcome.bind_eq_ok_iff.mp h
    cases h
    exact ⟨v, flows, rfl, rfl, forall₂_of_decodeFlows hflows⟩

end Decoded

/-! ## The loader of app packs -/

section App

variable {map : Entries}

/-- The text id of a flow. -/
def textId : CborValue → Option String
  | .map entries => extractTextFromMap entries "id"
  | _ => none

theorem ids_extractFlows : (extractFlows (.map map)).map AppFlowInfo.id
    = (itemsOf (mapGet map "flows")).filterMap textId := by
  have hentry : ∀ item, (parseFlowEntry item).map AppFlowInfo.id = textId item := by
    intro item
    cases item with
    | map entries => cases h : extractTextFromMap entries "id" <;> simp [parseFlowEntry, textId, h]
    | _ => rfl
  unfold extractFlows itemsOf
  dsimp only
  cases mapGet map "flows" with
  | none => rfl
  | some v =>
    cases v with
    | array items =>
      rw [List.map_filterMap]
      exact congrArg (List.filterMap · items) (funext hentry)
    | _ => rfl

theorem extractPackId_eq : extractTextOrSymbol (.map map) "pack_id" "pack_ids"
    = match mapGet map "pack_id" with
      | some (.text text) => some text
      | some (.integer idx) => packIdSymbol map (wrapUsize idx)
      | _ => none := by
  unfold extractTextOrSymbol packIdSymbol symbolsMap
  dsimp only
  cases mapGet map "pack_id" with
  | none => rfl
  | some v =>
    cases v with
    | integer idx =>
      cases mapGet map "symbols" with
      | none => rfl
      | some w => cases w <;> rfl
    | _ => rfl

end App

/-! ## The offer registry -/

section Registry

variable {map : Entries} {json : Json.Value}

def textOf : CborValue → Option String
  | .text text => some text
  | _ => none

theorem asStr_toJson {v : CborValue} {j : Json.Value} (h : toJson v = some j) : j.asStr = textOf v := by
  cases jsonForm_of_toJson h <;> rfl

/-- A value that is no map has no fields as JSON. -/
theorem get_of_not_map {v : CborValue} {j : Json.Value} (h : toJson v = some j) (hv : ∀ entries, v ≠ .map entries)
    (key : String) : j.get key = none := by
  cases jsonForm_of_toJson h with
  | map entries fields => exact absurd rfl (hv entries)
  | _ => rfl

/-- The machine word that an index is. -/
def wordOf : CborValue → Option Nat
  | .integer n => toUsize n
  | _ => none

theorem asU64_toJson {v : CborValue} {j : Json.Value} (h : toJson v = some j) :
    j.asU64.map UInt64.toNat = wordOf v := by
  cases jsonForm_of_toJson h with
  | word n i hword =>
    rw [wordOf, hword]
    exact congrArg some (UInt64.toNat_ofNat_of_lt' (lt_of_toUsize hword))
  | negative n hword =>
    rw [wordOf, hword]
    rfl
  | _ => rfl

theorem bind_asStr_toJson {v : Option CborValue} (h : ∀ w, v = some w → ∃ j, toJson w = some j) :
    (v.bind toJson).bind Json.Value.asStr = v.bind textOf := by
  cases v with
  | none => rfl
  | some w =>
    obtain ⟨j, hj⟩ := h w rfl
    rw [Option.bind_some, hj, Option.bind_some, Option.bind_some, asStr_toJson hj]

theorem metaField_toJson (h : toJson (.map map) = some json) (key : String) :
    (json.get "meta").bind (·.get key) = (metaField map key).bind toJson := by
  rw [get_toJson h]
  unfold metaField
  cases hget : mapGet map "meta" with
  | none => rfl
  | some v =>
    obtain ⟨j, hj⟩ := toJson_of_mapGet h hget
    rw [Option.bind_some, hj, Option.bind_some]
    cases v with
    | map metaMap => exact get_toJson hj key
    | _ => exact get_of_not_map hj nofun key

theorem metaField_hasJson (h : toJson (.map map) = some json) {key : String} {v : CborValue}
    (hget : metaField map key = some v) : ∃ j, toJson v = some j := by
  unfold metaField at hget
  split at hget
  next metaMap hmeta =>
    obtain ⟨j, hj⟩ := toJson_of_mapGet h hmeta
    exact toJson_of_mapGet hj hget
  · cases hget

theorem packIdSymbol_toJson (h : toJson (.map map) = some json) (i : Nat) :
    ((((json.get "symbols").bind (·.get "pack_ids")).bind Json.Value.asArray).bind fun items =>
      (items[i]?).bind Json.Value.asStr) = packIdSymbol map i := by
  rw [get_toJson h]
  unfold packIdSymbol symbolsMap
  cases hget : mapGet map "symbols" with
  | none => rfl
  | some v =>
    obtain ⟨j, hj⟩ := toJson_of_mapGet h hget
    rw [Option.bind_some, hj, Option.bind_some]
    cases v with
    | map symbols =>
      rw [get_toJson hj]
      dsimp only
      rw [Option.bind_some]
      cases htable : mapGet symbols "pack_ids" with
      | none => rfl
      | some w =>
        obtain ⟨k, hk⟩ := toJson_of_mapGet hj htable
        rw [Option.bind_some, hk, Option.bind_some]
        cases jsonForm_of_toJson hk with
        | array items js hitems =>
          dsimp only [Json.Value.asArray]
          rw [Option.bind_some, getElem?_itemsToJson hitems]
          cases hitem : items[i]? with
          | none => rfl
          | some item =>
            obtain ⟨ji, hji⟩ := toJson_of_getElem? hitems hitem
            rw [Option.bind_some, hji, Option.bind_some, asStr_toJson hji]
            cases item <;> rfl
        | _ => rfl
    | _ => rw [get_of_not_map hj nofun]; rfl

/-- What the registry reads, in terms of the manifest. -/
theorem manifestPackId_eq (h : toJson (.map map) = some json) :
    manifestPackId json
      = (((((metaField map "pack_id").bind textOf).or ((mapGet map "pack_id").bind textOf)).map Text.trim).filter
            (· ≠ "")).or
          ((((metaField map "pack_id").or (mapGet map "pack_id")).bind wordOf).bind (packIdSymbol map)) := by
  have hmeta : ((metaField map "pack_id").bind toJson).bind Json.Value.asStr = (metaField map "pack_id").bind textOf :=
    bind_asStr_toJson fun _ => metaField_hasJson h
  have htop : ((mapGet map "pack_id").bind toJson).bind Json.Value.asStr = (mapGet map "pack_id").bind textOf :=
    bind_asStr_toJson fun _ => toJson_of_mapGet h
  have hplace : ((metaField map "pack_id").bind toJson).or ((mapGet map "pack_id").bind toJson)
      = ((metaField map "pack_id").or (mapGet map "pack_id")).bind toJson := by
    cases hfield : metaField map "pack_id" with
    | none => rfl
    | some v =>
      obtain ⟨j, hj⟩ := metaField_hasJson h hfield
      simp [hj]
  have hsymbol : resolveSymbolPackId json
      = (((metaField map "pack_id").or (mapGet map "pack_id")).bind wordOf).bind (packIdSymbol map) := by
    show (((((json.get "meta").bind (·.get "pack_id")).or (json.get "pack_id")).bind Json.Value.asU64).bind
      fun idx => (((json.get "symbols").bind (·.get "pack_ids")).bind Json.Value.asArray).bind
        fun packIds => (packIds[idx.toNat]?).bind Json.Value.asStr) = _
    rw [metaField_toJson h, get_toJson h "pack_id", hplace]
    cases hv : (metaField map "pack_id").or (mapGet map "pack_id") with
    | none => rfl
    | some v =>
      obtain ⟨j, hj⟩ : ∃ j, toJson v = some j := by
        rcases Option.or_eq_some_iff.mp hv with hmem | ⟨-, hmem⟩
        · exact metaField_hasJson h hmem
        · exact toJson_of_mapGet h hmem
      rw [Option.bind_some, hj, Option.bind_some, Option.bind_some, ← asU64_toJson hj]
      cases j.asU64 with
      | none => rfl
      | some idx => exact packIdSymbol_toJson h idx.toNat
  rw [manifestPackId, metaField_toJson h, get_toJson h, hmeta, htop, hsymbol]

end Registry

/-! ## One identity -/

/-- An index that leads to a text in the table of pack ids. -/
def Leads (map : Entries) (n : Int) (t : String) : Prop := ∃ i, toUsize n = some i ∧ packIdSymbol map i = some t

/-- An index that leads to a text without the bits that do not fit, and with them. -/
def WrapsTo (map : Entries) (n : Int) (t : String) : Prop :=
  packIdSymbol map (wrapUsize n) = some t
    ∧ (toUsize n = none → (packIdSymbol map (2 ^ 64 - 1)).getD (toString (2 ^ 64 - 1)) = t)

/-- The pack ids at the top level and in `meta` that name one pack for all readers. -/
def SameId (map : Entries) : Option CborValue → Option CborValue → Prop
  | some (.text t), none => Text.trim t = t ∧ t ≠ ""
  | some (.text t), some (.text s) => Text.trim s = t ∧ t ≠ ""
  | some (.text t), some (.integer k) => (Text.trim t = t ∧ t ≠ "") ∨ (Text.trim t = "" ∧ Leads map k t)
  | some (.integer n), none => ∃ t, Leads map n t
  | some (.integer n), some (.text s) => WrapsTo map n (Text.trim s) ∧ Text.trim s ≠ ""
  | some (.integer n), some (.integer k) => ∃ t, WrapsTo map n t ∧ Leads map k t
  | _, _ => False

/-- A flow with a text id and no entrypoints. -/
def IsPlainFlow (item : CborValue) : Prop :=
  ∃ entries t, item = .map entries ∧ mapGet entries "id" = some (.text t) ∧ itemsOf (mapGet entries "entrypoints") = []

/-- The flows and the entry flows that are the same list for both readers. -/
def SameFlows (map : Entries) : Prop :=
  if itemsOf (metaField map "entry_flows") = [] then
    itemsOf (mapGet map "flows") ≠ [] ∧ ∀ item ∈ itemsOf (mapGet map "flows"), IsPlainFlow item
  else (itemsOf (metaField map "entry_flows")).map (nameText (symbolsMap map) "flow_ids")
    = (itemsOf (mapGet map "flows")).filterMap textId

/-- **One identity**: the registry's key and what the loader of app packs reads are what discovery
reads. -/
structure OneIdentity (value : CborValue) (manifest : PackManifest) (fallback packPath : String) : Prop where
  registry : (toJson value).bind manifestPackId = some (buildPackMeta manifest fallback).packId
  app : ∃ info, loadAppPackInfo packPath value = .ok info
    ∧ info.packId = (buildPackMeta manifest fallback).packId
    ∧ info.flows.map AppFlowInfo.id = (buildPackMeta manifest fallback).entryFlows

section Identity

variable {map : Entries}

theorem WrapsTo.of_leads {n : Int} {t : String} (h : Leads map n t) : WrapsTo map n t := by
  obtain ⟨i, hi, hsymbol⟩ := h
  refine ⟨by rw [wrapUsize_of_toUsize hi, hsymbol], fun hnone => ?_⟩
  rw [hi] at hnone
  cases hnone

/-- The text of an index with a table of pack ids. -/
theorem symbolText_iff {n : Int} {t : String} (h : packIdSymbol map (wrapUsize n) = some t) :
    symbolText (symbolsMap map) "pack_ids" n = t ↔ WrapsTo map n t := by
  obtain ⟨symbols, values, hsymbols, htable⟩ : ∃ symbols values, symbolsMap map = some symbols
      ∧ mapGet symbols "pack_ids" = some (.array values) := by
    unfold packIdSymbol at h
    split at h
    next values hvalues =>
      obtain ⟨symbols, hsymbols, htable⟩ := Option.bind_eq_some_iff.mp hvalues
      exact ⟨symbols, values, hsymbols, htable⟩
    · cases h
  have hget : ∀ i, (packIdSymbol map i).getD (toString i)
      = match values[i]? with
        | some (.text text) => text
        | _ => toString i := by
    intro i
    unfold packIdSymbol
    rw [hsymbols, Option.bind_some, htable]
    dsimp only
    split <;> rfl
  have htext : symbolText (symbolsMap map) "pack_ids" n
      = (packIdSymbol map ((toUsize n).getD (2 ^ 64 - 1))).getD (toString ((toUsize n).getD (2 ^ 64 - 1))) := by
    have harray : symbolArray symbols "pack_ids" = some values := by
      unfold symbolArray
      rw [htable]
    rw [hget, hsymbols]
    unfold symbolText
    dsimp only
    generalize symbolArray symbols "pack_ids" = found at harray ⊢
    subst harray
    rfl
  rw [htext]
  cases hword : toUsize n with
  | none => simp [WrapsTo, h, hword]
  | some i =>
    rw [wrapUsize_of_toUsize hword] at h
    simp [WrapsTo, h, hword, wrapUsize_of_toUsize hword]

/-- The loader of app packs has the id that discovery has. -/
theorem extract_eq_iff {v : CborValue} (hv : IsName v) (htop : mapGet map "pack_id" = some v) (t : String) :
    (extractTextOrSymbol (.map map) "pack_id" "pack_ids" = some t ∧ nameText (symbolsMap map) "pack_ids" v = t)
      ↔ match v with
        | .text s => s = t
        | .integer n => WrapsTo map n t
        | _ => False := by
  simp only [extractPackId_eq, htop]
  cases v with
  | text s => simp [nameText]
  | integer n =>
    constructor
    · rintro ⟨hsymbol, htext⟩
      exact (symbolText_iff hsymbol).mp htext
    · intro hwraps
      exact ⟨hwraps.1, (symbolText_iff hwraps.1).mpr hwraps⟩
  | _ => cases hv

/-- A text without the blanks around it, and the texts of an index where that is empty. -/
theorem trimmed_or_eq_some_iff {s t : String} {symbol : Option String} :
    ((some (Text.trim s)).filter (· ≠ "")).or symbol = some t
      ↔ (Text.trim s = t ∧ t ≠ "") ∨ (Text.trim s = "" ∧ symbol = some t) := by
  by_cases hs : Text.trim s = ""
  · rw [hs]
    constructor
    · intro h
      exact .inr ⟨rfl, by simpa using h⟩
    · rintro (⟨rfl, hne⟩ | ⟨-, h⟩)
      · exact absurd rfl hne
      · simpa using h
  · have hfilter : (some (Text.trim s)).filter (· ≠ "") = some (Text.trim s) := by simp [hs]
    rw [hfilter, Option.some_or, Option.some.injEq]
    constructor
    · intro h
      exact .inl ⟨h, h ▸ hs⟩
    · rintro (⟨h, -⟩ | ⟨h, -⟩)
      · exact h
      · exact absurd h hs

theorem bind_packIdSymbol_iff {n : Int} {t : String} :
    (toUsize n).bind (packIdSymbol map) = some t ↔ Leads map n t := Option.bind_eq_some_iff

/-- **One id**: the registry and the loader of app packs have the id that discovery has. -/
theorem sameId_iff (json : Json.Value) (hjson : toJson (.map map) = some json)
    (htop : Field map "pack_id" IsName) (hmeta : ∀ w, metaField map "pack_id" = some w → IsName w)
    {v : CborValue} (hv : (mapGet map "pack_id").or (metaField map "pack_id") = some v) :
    (manifestPackId json = some (nameText (symbolsMap map) "pack_ids" v)
        ∧ extractTextOrSymbol (.map map) "pack_id" "pack_ids" = some (nameText (symbolsMap map) "pack_ids" v))
      ↔ SameId map (mapGet map "pack_id") (metaField map "pack_id") := by
  cases hget : mapGet map "pack_id" with
  | none =>
    constructor
    · rintro ⟨-, h⟩
      simp only [extractPackId_eq, hget, reduceCtorEq] at h
    · exact False.elim
  | some w =>
    have hname : IsName w := htop w hget
    rw [hget, Option.some_or, Option.some.injEq] at hv
    subst hv
    have hboth : (manifestPackId json = some (nameText (symbolsMap map) "pack_ids" w)
          ∧ extractTextOrSymbol (.map map) "pack_id" "pack_ids" = some (nameText (symbolsMap map) "pack_ids" w))
        ↔ ∃ t, manifestPackId json = some t ∧ (extractTextOrSymbol (.map map) "pack_id" "pack_ids" = some t
          ∧ nameText (symbolsMap map) "pack_ids" w = t) := by
      constructor
      · rintro ⟨hid, happ⟩
        exact ⟨_, hid, happ, rfl⟩
      · rintro ⟨_, hid, happ, rfl⟩
        exact ⟨hid, happ⟩
    rw [hboth]
    simp only [extract_eq_iff hname hget, manifestPackId_eq hjson, hget]
    cases hfield : metaField map "pack_id" with
    | none =>
      cases w with
      | text s =>
        simp only [Option.bind_none, Option.none_or, Option.bind_some, textOf, Option.map_some, wordOf,
          trimmed_or_eq_some_iff, reduceCtorEq, and_false, or_false, exists_eq_right', SameId]
      | integer n =>
        simp only [Option.bind_none, Option.none_or, Option.bind_some, textOf, Option.map_none, Option.filter_none,
          wordOf, bind_packIdSymbol_iff, SameId]
        exact ⟨fun ⟨t, hleads, _⟩ => ⟨t, hleads⟩, fun ⟨t, hleads⟩ => ⟨t, hleads, .of_leads hleads⟩⟩
      | _ => cases hname
    | some u =>
      have hname' : IsName u := hmeta u hfield
      cases w with
      | text s =>
        cases u with
        | text s' =>
          simp only [Option.some_or, Option.bind_some, Option.bind_none, textOf, Option.map_some, wordOf,
            trimmed_or_eq_some_iff, reduceCtorEq, and_false, or_false, exists_eq_right', SameId]
        | integer k =>
          simp only [Option.none_or, Option.some_or, Option.bind_some, textOf, Option.map_some, wordOf,
            trimmed_or_eq_some_iff, bind_packIdSymbol_iff, exists_eq_right', SameId]
        | _ => cases hname'
      | integer n =>
        cases u with
        | text s' =>
          simp only [Option.some_or, Option.bind_some, Option.bind_none, textOf, Option.map_some, wordOf,
            trimmed_or_eq_some_iff, reduceCtorEq, and_false, or_false, SameId]
          constructor
          · rintro ⟨_, ⟨rfl, hne⟩, hwraps⟩
            exact ⟨hwraps, hne⟩
          · rintro ⟨hwraps, hne⟩
            exact ⟨_, ⟨rfl, hne⟩, hwraps⟩
        | integer k =>
          simp only [Option.none_or, Option.some_or, Option.bind_some, textOf, Option.map_none, Option.filter_none,
            wordOf, bind_packIdSymbol_iff, SameId]
          exact ⟨fun ⟨t, hleads, hwraps⟩ => ⟨t, hwraps, hleads⟩, fun ⟨t, hwraps, hleads⟩ => ⟨t, hleads, hwraps⟩⟩
        | _ => cases hname'
      | _ => cases hname

/-! ### Flows -/

theorem length_filterMap_le {flows : List PackFlow} {items : List CborValue} {symbols : Option Entries}
    (h : List.Forall₂ (FlowOf symbols) items flows) :
    (items.filterMap textId).length ≤ (flows.flatMap fun flow => flow.id :: flow.entrypoints).length := by
  induction h with
  | nil => exact le_rfl
  | @cons item flow _ _ _ _ ih =>
    rw [List.flatMap_cons, List.length_append, List.length_cons, List.filterMap_cons]
    cases textId item with
    | none =>
      dsimp only
      omega
    | some t =>
      rw [List.length_cons]
      omega

/-- **Flows and their entrypoints are the text ids** exactly where all flows are plain. -/
theorem flatMap_eq_iff {flows : List PackFlow} {items : List CborValue} {symbols : Option Entries}
    (h : List.Forall₂ (FlowOf symbols) items flows) :
    (items.filterMap textId = flows.flatMap fun flow => flow.id :: flow.entrypoints)
      ↔ ∀ item ∈ items, IsPlainFlow item := by
  induction h with
  | nil => simp
  | @cons item flow items flows hflow hall ih =>
    obtain ⟨entries, v, rfl, hid, hidText, hentry⟩ := hflow
    have hle := length_filterMap_le hall
    rw [List.forall_mem_cons, ← ih, List.flatMap_cons, List.filterMap_cons]
    constructor
    · intro heq
      have hlength := congrArg List.length heq
      cases v with
      | text t =>
        have htext : textId (.map entries) = some t := by
          simp [textId, extractTextFromMap, hid]
        rw [htext] at heq hlength
        rw [List.length_append, List.length_cons, List.length_cons] at hlength
        have hnil : flow.entrypoints = [] := List.length_eq_zero_iff.mp (by omega)
        rw [hnil] at hentry heq
        refine ⟨⟨entries, t, rfl, hid, List.map_eq_nil_iff.mp hentry.symm⟩, ?_⟩
        exact (List.cons.inj heq).2
      | _ =>
        have hnone : textId (.map entries) = none := by
          simp [textId, extractTextFromMap, hid]
        rw [hnone] at hlength
        rw [List.length_append, List.length_cons] at hlength
        dsimp only at hlength
        omega
    · rintro ⟨⟨_, t, heq, hid', hnone⟩, hrest⟩
      cases heq
      rw [hid] at hid'
      cases hid'
      have htext : textId (.map entries) = some t := by
        simp [textId, extractTextFromMap, hid]
      rw [htext, hidText, hentry, hnone]
      exact congrArg (t :: ·) hrest

/-- The flows of the app pack and the entry flows are the same list. -/
theorem sameFlows_iff {flows : List PackFlow} (packId fallback : String)
    (h : List.Forall₂ (FlowOf (symbolsMap map)) (itemsOf (mapGet map "flows")) flows) :
    (extractFlows (.map map)).map AppFlowInfo.id
        = (buildPackMeta {
            packMeta := some {
              packId
              entryFlows := (itemsOf (metaField map "entry_flows")).map (nameText (symbolsMap map) "flow_ids") }
            packId := none
            flows } fallback).entryFlows
      ↔ SameFlows map := by
  rw [ids_extractFlows]
  unfold SameFlows buildPackMeta
  simp only [Option.map_some, Option.getD_some]
  by_cases hentries : itemsOf (metaField map "entry_flows") = []
  · rw [if_pos hentries, hentries]
    simp only [List.map_nil, List.isEmpty_nil, if_true]
    cases hflows : itemsOf (mapGet map "flows") with
    | nil =>
      rw [hflows] at h
      cases h
      simp
    | cons item items =>
      rw [hflows] at h
      have hne : (flows.flatMap fun flow => flow.id :: flow.entrypoints).isEmpty = false := by
        cases h
        rfl
      rw [hne]
      simp only [Bool.false_eq_true, if_false, ne_eq, reduceCtorEq, not_false_eq_true, true_and]
      exact flatMap_eq_iff h
  · have hmap : ((itemsOf (metaField map "entry_flows")).map (nameText (symbolsMap map) "flow_ids")).isEmpty = false := by
      simpa using hentries
    rw [if_neg hentries, hmap]
    simp only [Bool.false_eq_true, if_false, hmap]
    exact eq_comm

theorem app_iff {packPath t : String} {ids : List String} :
    (∃ info, loadAppPackInfo packPath (.map map) = .ok info ∧ info.packId = t ∧ info.flows.map AppFlowInfo.id = ids)
      ↔ extractTextOrSymbol (.map map) "pack_id" "pack_ids" = some t
        ∧ (extractFlows (.map map)).map AppFlowInfo.id = ids := by
  unfold loadAppPackInfo
  cases extractTextOrSymbol (.map map) "pack_id" "pack_ids" with
  | none => simp
  | some packId => simp

theorem isName_metaField (h : WellTyped (fun _ => IsName) map) :
    ∀ w, metaField map "pack_id" = some w → IsName w := by
  intro w hw
  unfold metaField at hw
  split at hw
  next metaMap hmeta => exact (mapOf_map.mp (h.inMeta _ hmeta)).1 w hw
  · cases hw

end Identity

/-- **All readers give one identity** to a manifest that is accepted exactly where it has a JSON
form, its pack ids name one pack, and its flows are its entry flows. -/
theorem oneIdentity_iff {value : CborValue} {manifest : PackManifest}
    (h : decodeManifestLenient value = .ok manifest) (fallback packPath : String) :
    OneIdentity value manifest fallback packPath
      ↔ ∃ map, value = .map map ∧ (toJson value).isSome = true
        ∧ SameId map (mapGet map "pack_id") (metaField map "pack_id") ∧ SameFlows map := by
  cases value with
  | map map =>
    obtain ⟨htyped, -⟩ := decode_ok_iff.mp ⟨manifest, h⟩
    obtain ⟨v, flows, hv, rfl, hflows⟩ := decoded_eq h
    have hids := fun json hjson => sameId_iff json hjson htyped.packId (isName_metaField htyped) hv
    have hflowIds := sameFlows_iff (nameText (symbolsMap map) "pack_ids" v) fallback hflows
    constructor
    · rintro ⟨hregistry, happ⟩
      obtain ⟨json, hjson, hid⟩ := Option.bind_eq_some_iff.mp hregistry
      obtain ⟨hextract, hflowsEq⟩ := app_iff.mp happ
      refine ⟨map, rfl, ?_, (hids json hjson).mp ⟨hid, hextract⟩, hflowIds.mp hflowsEq⟩
      rw [hjson]
      rfl
    · rintro ⟨_, heq, hjson, hsame, hflowsSame⟩
      cases heq
      obtain ⟨json, hjson⟩ := Option.isSome_iff_exists.mp hjson
      obtain ⟨hid, hextract⟩ := (hids json hjson).mpr hsame
      refine ⟨?_, app_iff.mpr ⟨hextract, hflowIds.mpr hflowsSame⟩⟩
      rw [hjson]
      exact hid
  | _ => cases h

/-! ## A pack in symbol-table form -/

/-- A manifest whose pack id and flow id are indices. -/
def symbolManifest : CborValue :=
  .map [(.text "pack_id", .integer 0), (.text "flows", .array [.map [(.text "id", .integer 0)]]),
    (.text "symbols", .map [(.text "pack_ids", .array [.text "chat"]), (.text "flow_ids", .array [.text "default"])])]

/-- A manifest of the plain form. -/
def plainManifest : CborValue :=
  .map [(.text "pack_id", .text "chat"), (.text "flows", .array [.map [(.text "id", .text "default")]])]

/-- All readers agree on a manifest of the plain form. -/
theorem oneIdentity_plain :
    OneIdentity plainManifest ⟨some ⟨"chat", []⟩, none, [⟨"default", []⟩]⟩ "chat" "packs/default.gtpack" := by
  have h : decodeManifestLenient plainManifest = .ok ⟨some ⟨"chat", []⟩, none, [⟨"default", []⟩]⟩ := by rfl
  refine (oneIdentity_iff h "chat" "packs/default.gtpack").mpr ⟨_, rfl, rfl, ⟨by decide, by decide⟩, ?_⟩
  refine ⟨by simp [itemsOf, mapGet], fun item hitem => ?_⟩
  obtain rfl := List.mem_singleton.mp hitem
  exact ⟨_, "default", rfl, rfl, rfl⟩

/-- The loader of app packs finds no flow where discovery finds one. -/
theorem symbol_flow_unseen :
    ¬ ∀ value manifest fallback packPath, decodeManifestLenient value = .ok manifest →
      OneIdentity value manifest fallback packPath := by
  intro h
  have hdecode : decodeManifestLenient symbolManifest = .ok ⟨some ⟨"chat", []⟩, none, [⟨"default", []⟩]⟩ := by rfl
  obtain ⟨info, hload, -, hflows⟩ := (h _ _ "chat" "packs/default.gtpack" hdecode).app
  have hempty : loadAppPackInfo "packs/default.gtpack" symbolManifest = .ok ⟨"chat", []⟩ := by rfl
  rw [hempty] at hload
  cases hload
  cases hflows

end Domains
