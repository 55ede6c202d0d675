import GreenticOperator.Domains.Manifest
import GreenticOperator.Lib.Outcome

/-!
# The doctor and the loader

Both traversals of a manifest ask the same containers of it, and names in the same places
(`WellTyped`). The doctor asks for more of a name: an index has to lead to a text in its table,
where the loader takes the index itself (`mismatch_eq_none_iff`). The loader asks for more of the
manifest: it has to be a map, with a pack id and an id for each flow (`decode_ok_iff`). They draw
the same line exactly where the two differences cancel out (`doctor_agrees_iff`).
-/

namespace Domains

open Cbor

/-! ## Shapes -/

/-- What holds of the value of a key, where there is one. -/
def Field (map : Entries) (key : String) (p : CborValue → Prop) : Prop := ∀ v, mapGet map key = some v → p v

def ArrayOf (p : CborValue → Prop) (v : CborValue) : Prop := ∃ items, v = .array items ∧ ∀ item ∈ items, p item

def MapOf (p : Entries → Prop) (v : CborValue) : Prop := ∃ map, v = .map map ∧ p map

/-- The containers of a manifest, with names in their places; `name` says what a name is that may be
an index into the table of that key. -/
structure WellTyped (name : String → CborValue → Prop) (map : Entries) : Prop where
  packId : Field map "pack_id" (name "pack_ids")
  inMeta : Field map "meta" (MapOf fun metaMap =>
    Field metaMap "pack_id" (name "pack_ids") ∧ Field metaMap "entry_flows" (ArrayOf (name "flow_ids")))
  inFlows : Field map "flows" (ArrayOf (MapOf fun flow =>
    Field flow "id" (name "flow_ids") ∧ Field flow "entrypoints" (ArrayOf (name "entrypoints"))))

/-- A text or an index. -/
def IsName : CborValue → Prop
  | .text _ => True
  | .integer _ => True
  | _ => False

/-- A text, or an index that leads to a text where its table is there. -/
def IsSoundName (map : Entries) (symbolKey : String) (v : CborValue) : Prop :=
  valueIsStringOrSymbol v (symbolsMap map) symbolKey = true

theorem IsSoundName.isName {map : Entries} {symbolKey : String} {v : CborValue}
    (h : IsSoundName map symbolKey v) : IsName v := by
  cases v with
  | text s => trivial
  | integer n => trivial
  | _ => cases h

theorem field_of_none {map : Entries} {key : String} {p : CborValue → Prop} (h : mapGet map key = none) :
    Field map key p ↔ True := by
  simp [Field, h]

theorem field_of_some {map : Entries} {key : String} {p : CborValue → Prop} {v : CborValue}
    (h : mapGet map key = some v) : Field map key p ↔ p v := by
  simp [Field, h]

@[simp] theorem arrayOf_array {p : CborValue → Prop} {items : List CborValue} :
    ArrayOf p (.array items) ↔ ∀ item ∈ items, p item := by
  simp [ArrayOf]

@[simp] theorem mapOf_map {p : Entries → Prop} {map : Entries} : MapOf p (.map map) ↔ p map := by
  simp [MapOf]

theorem Field.mono {map : Entries} {key : String} {p q : CborValue → Prop} (hpq : ∀ v, p v → q v)
    (h : Field map key p) : Field map key q := fun v hv => hpq v (h v hv)

theorem ArrayOf.mono {p q : CborValue → Prop} (hpq : ∀ v, p v → q v) {v : CborValue} (h : ArrayOf p v) :
    ArrayOf q v := by
  obtain ⟨items, rfl, hitems⟩ := h
  exact ⟨items, rfl, fun item hitem => hpq item (hitems item hitem)⟩

theorem MapOf.mono {p q : Entries → Prop} (hpq : ∀ map, p map → q map) {v : CborValue} (h : MapOf p v) :
    MapOf q v := by
  obtain ⟨map, rfl, hmap⟩ := h
  exact ⟨map, rfl, hpq map hmap⟩

theorem WellTyped.mono {name other : String → CborValue → Prop} (hname : ∀ key v, name key v → other key v)
    {map : Entries} (h : WellTyped name map) : WellTyped other map where
  packId := h.packId.mono (hname _)
  inMeta := h.inMeta.mono fun _ => MapOf.mono fun _ hmeta =>
    ⟨hmeta.1.mono (hname _), hmeta.2.mono fun _ => ArrayOf.mono (hname _)⟩
  inFlows := h.inFlows.mono fun _ => ArrayOf.mono fun _ => MapOf.mono fun _ hflow =>
    ⟨hflow.1.mono (hname _), hflow.2.mono fun _ => ArrayOf.mono (hname _)⟩

/-! ## The diagnosis -/

section Diagnosis

variable {symbols : Option Entries} {path symbolKey : String} {map : Entries}

theorem forall_mem_zipIdx_iff {α : Type} {items : List α} {p : α → Prop} :
    (∀ entry ∈ items.zipIdx, p entry.1) ↔ ∀ item ∈ items, p item := by
  constructor
  · intro h item hitem
    rw [← List.zipIdx_map_fst 0 items] at hitem
    obtain ⟨entry, hentry, rfl⟩ := List.mem_map.mp hitem
    exact h entry hentry
  · intro h entry hentry
    exact h entry.1 (List.fst_mem_of_mem_zipIdx hentry)

theorem nameMismatch_eq_none_iff {key : String} :
    nameMismatch path symbols symbolKey (mapGet map key) = none
      ↔ Field map key fun v => valueIsStringOrSymbol v symbols symbolKey = true := by
  cases hget : mapGet map key with
  | none => simp [nameMismatch, field_of_none hget]
  | some v => simp [nameMismatch, field_of_some hget]

theorem namesMismatch_eq_none_iff {key : String} :
    namesMismatch path symbols symbolKey (mapGet map key) = none
      ↔ Field map key (ArrayOf fun v => valueIsStringOrSymbol v symbols symbolKey = true) := by
  cases hget : mapGet map key with
  | none => simp [namesMismatch, field_of_none hget]
  | some v =>
    rw [field_of_some hget]
    cases v with
    | array items =>
      simp only [namesMismatch, List.findSome?_eq_none_iff, nameMismatch, ite_eq_left_iff, reduceCtorEq, imp_false,
        Bool.not_eq_true, Bool.not_eq_false, arrayOf_array]
      exact forall_mem_zipIdx_iff (p := fun v => valueIsStringOrSymbol v symbols symbolKey = true)
    | _ => simp [namesMismatch, ArrayOf]

theorem metaMismatch_eq_none_iff :
    metaMismatch symbols (mapGet map "meta") = none
      ↔ Field map "meta" (MapOf fun metaMap =>
          (Field metaMap "pack_id" fun v => valueIsStringOrSymbol v symbols "pack_ids" = true)
          ∧ Field metaMap "entry_flows" (ArrayOf fun v => valueIsStringOrSymbol v symbols "flow_ids" = true)) := by
  cases hget : mapGet map "meta" with
  | none => simp [metaMismatch, field_of_none hget]
  | some v =>
    rw [field_of_some hget]
    cases v with
    | map metaMap =>
      simp only [metaMismatch, Option.or_eq_none_iff, nameMismatch_eq_none_iff, namesMismatch_eq_none_iff, mapOf_map]
    | _ => simp [metaMismatch, MapOf]

theorem flowMismatch_eq_none_iff {v : CborValue} :
    flowMismatch symbols path v = none
      ↔ MapOf (fun flow => (Field flow "id" fun v => valueIsStringOrSymbol v symbols "flow_ids" = true)
          ∧ Field flow "entrypoints" (ArrayOf fun v => valueIsStringOrSymbol v symbols "entrypoints" = true)) v := by
  cases v with
  | map flow =>
    simp only [flowMismatch, Option.or_eq_none_iff, nameMismatch_eq_none_iff, namesMismatch_eq_none_iff, mapOf_map]
  | _ => simp [flowMismatch, MapOf]

theorem flowsMismatch_eq_none_iff :
    flowsMismatch symbols (mapGet map "flows") = none
      ↔ Field map "flows" (ArrayOf (MapOf fun flow =>
          (Field flow "id" fun v => valueIsStringOrSymbol v symbols "flow_ids" = true)
          ∧ Field flow "entrypoints" (ArrayOf fun v => valueIsStringOrSymbol v symbols "entrypoints" = true))) := by
  cases hget : mapGet map "flows" with
  | none => simp [flowsMismatch, field_of_none hget]
  | some v =>
    rw [field_of_some hget]
    cases v with
    | array items =>
      simp only [flowsMismatch, List.findSome?_eq_none_iff, flowMismatch_eq_none_iff, arrayOf_array]
      exact forall_mem_zipIdx_iff (p := MapOf fun flow =>
        (Field flow "id" fun v => valueIsStringOrSymbol v symbols "flow_ids" = true)
        ∧ Field flow "entrypoints" (ArrayOf fun v => valueIsStringOrSymbol v symbols "entrypoints" = true))
    | _ => simp [flowsMismatch, ArrayOf]

/-- **The diagnosis finds nothing** in a map exactly where all its names are sound. -/
theorem mismatch_eq_none_iff :
    findManifestStringTypeMismatch (.map map) = none ↔ WellTyped (IsSoundName map) map := by
  simp only [findManifestStringTypeMismatch, Option.or_eq_none_iff, nameMismatch_eq_none_iff,
    metaMismatch_eq_none_iff, flowsMismatch_eq_none_iff]
  exact ⟨fun ⟨⟨hpack, hmeta⟩, hflows⟩ => ⟨hpack, hmeta, hflows⟩, fun h => ⟨⟨h.packId, h.inMeta⟩, h.inFlows⟩⟩

end Diagnosis

/-! ## The loader -/

/-- The ids that a manifest cannot do without: that of the pack, in one of its two places, and those
of the flows. -/
structure Complete (map : Entries) : Prop where
  packId : (mapGet map "pack_id").isSome = true
    ∨ ∃ metaMap, mapGet map "meta" = some (.map metaMap) ∧ (mapGet metaMap "pack_id").isSome = true
  flowIds : ∀ items flow, mapGet map "flows" = some (.array items) → .map flow ∈ items →
    (mapGet flow "id").isSome = true

section Loader

variable {symbols : Option Entries} {symbolKey : String} {map : Entries}

/-- A name is resolved to a text exactly where it is there. -/
theorem resolveStringSymbol_ok_iff (symbols : Option Entries) (symbolKey : String) {key : String} :
    (∃ r, resolveStringSymbol (mapGet map key) symbols symbolKey = .ok r) ↔ Field map key IsName := by
  cases hget : mapGet map key with
  | none => simp [resolveStringSymbol, field_of_none hget]
  | some v =>
    rw [field_of_some hget]
    cases v <;> simp [resolveStringSymbol, IsName]

theorem isSome_of_resolve {value : Option CborValue} {r : Option String}
    (h : resolveStringSymbol value symbols symbolKey = .ok r) : r.isSome = value.isSome := by
  cases value with
  | none =>
    cases h
    rfl
  | some v =>
    cases v with
    | text s =>
      cases h
      rfl
    | integer n =>
      cases h
      rfl
    | _ => cases h

/-- The other table is of no use: what is a name in one is a name in the other. -/
theorem resolveEntry_ok_iff {fallbackKey : Option String} {entry : CborValue × Nat} :
    (∃ r, resolveEntry symbols symbolKey fallbackKey entry = .ok r) ↔ IsName entry.1 := by
  obtain ⟨v, idx⟩ := entry
  cases v <;> cases fallbackKey <;> simp [resolveEntry, resolveStringSymbol, IsName]

theorem resolveStringArray_ok_iff (symbols : Option Entries) (symbolKey : String) (fallbackKey : Option String)
    {key : String} :
    (∃ r, resolveStringArray (mapGet map key) symbols symbolKey fallbackKey = .ok r)
      ↔ Field map key (ArrayOf IsName) := by
  cases hget : mapGet map key with
  | none => simp [resolveStringArray, field_of_none hget]
  | some v =>
    rw [field_of_some hget]
    cases v with
    | array items =>
      have hall := Outcome.exists_mapM_ok_iff (f := resolveEntry symbols symbolKey fallbackKey) (l := items.zipIdx)
      simp only [resolveEntry_ok_iff] at hall
      rw [forall_mem_zipIdx_iff (p := IsName)] at hall
      rw [arrayOf_array, ← hall]
      simp only [resolveStringArray, Outcome.bind_eq_ok_iff]
      constructor
      · rintro ⟨_, resolved, h, -⟩
        exact ⟨resolved, h⟩
      · rintro ⟨resolved, h⟩
        exact ⟨_, resolved, h, rfl⟩
    | _ => simp [resolveStringArray, ArrayOf]

theorem decodeMeta_ok_iff (symbols : Option Entries) :
    (∃ r, decodeMeta symbols (mapGet map "meta") = .ok r)
      ↔ Field map "meta" (MapOf fun metaMap =>
          Field metaMap "pack_id" IsName ∧ Field metaMap "entry_flows" (ArrayOf IsName)) := by
  cases hget : mapGet map "meta" with
  | none => simp [decodeMeta, field_of_none hget]
  | some v =>
    rw [field_of_some hget]
    cases v with
    | map metaMap =>
      rw [mapOf_map, ← resolveStringSymbol_ok_iff symbols "pack_ids",
        ← resolveStringArray_ok_iff symbols "flow_ids" (some "entrypoints")]
      constructor
      · rintro ⟨r, h⟩
        obtain ⟨packId, hpack, h⟩ := Outcome.bind_eq_ok_iff.mp h
        obtain ⟨entryFlows, hflows, -⟩ := Outcome.bind_eq_ok_iff.mp h
        exact ⟨⟨packId, hpack⟩, entryFlows, hflows⟩
      · rintro ⟨⟨packId, hpack⟩, entryFlows, hflows⟩
        refine ⟨(packId, entryFlows), ?_⟩
        rw [decodeMeta, hpack, hflows]
        rfl
    | _ => simp [decodeMeta, MapOf]

theorem decodeFlow_ok_iff {entry : CborValue × Nat} :
    (∃ r, decodeFlow symbols entry = .ok r)
      ↔ MapOf (fun flow => (mapGet flow "id").isSome = true ∧ Field flow "id" IsName
          ∧ Field flow "entrypoints" (ArrayOf IsName)) entry.1 := by
  obtain ⟨v, idx⟩ := entry
  cases v with
  | map flow =>
    rw [mapOf_map, ← resolveStringSymbol_ok_iff symbols "flow_ids",
      ← resolveStringArray_ok_iff symbols "entrypoints" none]
    constructor
    · rintro ⟨r, h⟩
      obtain ⟨id, hid, h⟩ := Outcome.bind_eq_ok_iff.mp h
      rw [← isSome_of_resolve hid]
      cases id with
      | none => cases h
      | some id =>
        obtain ⟨entrypoints, hentry, -⟩ := Outcome.bind_eq_ok_iff.mp h
        exact ⟨rfl, ⟨some id, hid⟩, entrypoints, hentry⟩
    · rintro ⟨hsome, ⟨id, hid⟩, entrypoints, hentry⟩
      rw [← isSome_of_resolve hid] at hsome
      obtain ⟨text, rfl⟩ := Option.isSome_iff_exists.mp hsome
      refine ⟨⟨text, entrypoints⟩, ?_⟩
      simp only [decodeFlow, hid, hentry]
      rfl
  | _ => simp [decodeFlow, MapOf]

theorem decodeFlows_ok_iff (symbols : Option Entries) :
    (∃ r, decodeFlows symbols (mapGet map "flows") = .ok r)
      ↔ Field map "flows" (ArrayOf (MapOf fun flow => (mapGet flow "id").isSome = true ∧ Field flow "id" IsName
          ∧ Field flow "entrypoints" (ArrayOf IsName))) := by
  cases hget : mapGet map "flows" with
  | none => simp [decodeFlows, field_of_none hget]
  | some v =>
    rw [field_of_some hget]
    cases v with
    | array items =>
      have hall := Outcome.exists_mapM_ok_iff (f := decodeFlow symbols) (l := items.zipIdx)
      simp only [decodeFlow_ok_iff] at hall
      rw [forall_mem_zipIdx_iff (p := MapOf fun flow => (mapGet flow "id").isSome = true ∧ Field flow "id" IsName
        ∧ Field flow "entrypoints" (ArrayOf IsName))] at hall
      rw [arrayOf_array, ← hall]
      rfl
    | _ => simp [decodeFlows, ArrayOf]

/-- The pack id of the field `meta` is there where its value is. -/
theorem isSome_of_decodeMeta {r : Option String × List String}
    (h : decodeMeta symbols (mapGet map "meta") = .ok r) :
    r.1.isSome = true ↔ ∃ metaMap, mapGet map "meta" = some (.map metaMap)
      ∧ (mapGet metaMap "pack_id").isSome = true := by
  cases hmeta : mapGet map "meta" with
  | none =>
    rw [hmeta] at h
    cases h
    simp
  | some v =>
    rw [hmeta] at h
    cases v with
    | map metaMap =>
      obtain ⟨packId, hpack, h⟩ := Outcome.bind_eq_ok_iff.mp h
      obtain ⟨entryFlows, -, h⟩ := Outcome.bind_eq_ok_iff.mp h
      cases h
      simp [isSome_of_resolve hpack]
    | _ => cases h

/-- Well typed flows with ids. -/
theorem flows_iff :
    (Field map "flows" (ArrayOf (MapOf fun flow => (mapGet flow "id").isSome = true ∧ Field flow "id" IsName
        ∧ Field flow "entrypoints" (ArrayOf IsName))))
      ↔ (Field map "flows" (ArrayOf (MapOf fun flow => Field flow "id" IsName
          ∧ Field flow "entrypoints" (ArrayOf IsName))))
        ∧ ∀ items flow, mapGet map "flows" = some (.array items) → .map flow ∈ items →
          (mapGet flow "id").isSome = true := by
  constructor
  · intro h
    refine ⟨h.mono fun _ => ArrayOf.mono fun _ => MapOf.mono fun _ hflow => hflow.2, ?_⟩
    intro items flow hitems hflow
    obtain ⟨_, heq, hall⟩ := h _ hitems
    cases heq
    obtain ⟨_, heq, hid, -⟩ := hall _ hflow
    cases heq
    exact hid
  · rintro ⟨htyped, hids⟩ v hv
    obtain ⟨items, rfl, hall⟩ := htyped v hv
    refine ⟨items, rfl, fun item hitem => ?_⟩
    obtain ⟨flow, rfl, hflow⟩ := hall item hitem
    exact ⟨flow, rfl, hids items flow hv hitem, hflow⟩

/-- **A map is loaded** exactly where it is well typed and complete. -/
theorem decode_ok_iff :
    (∃ manifest, decodeManifestLenient (.map map) = .ok manifest)
      ↔ WellTyped (fun _ => IsName) map ∧ Complete map := by
  constructor
  · rintro ⟨manifest, h⟩
    obtain ⟨inMeta, hmeta, h⟩ := Outcome.bind_eq_ok_iff.mp h
    obtain ⟨topPackId, htop, h⟩ := Outcome.bind_eq_ok_iff.mp h
    have hpack := isSome_of_resolve htop
    have hmetaPack := isSome_of_decodeMeta hmeta
    cases hid : topPackId.or inMeta.1 with
    | none =>
      rw [hid] at h
      cases h
    | some packId =>
      rw [hid] at h
      obtain ⟨flows, hflows, -⟩ := Outcome.bind_eq_ok_iff.mp h
      obtain ⟨htyped, hids⟩ := flows_iff.mp ((decodeFlows_ok_iff _).mp ⟨flows, hflows⟩)
      refine ⟨⟨(resolveStringSymbol_ok_iff _ _).mp ⟨_, htop⟩, (decodeMeta_ok_iff _).mp ⟨_, hmeta⟩, htyped⟩, ?_, hids⟩
      have hsome : (topPackId.or inMeta.1).isSome = true := by rw [hid]; rfl
      rw [Option.isSome_or, Bool.or_eq_true, hpack, hmetaPack] at hsome
      exact hsome
  · rintro ⟨htyped, hcomplete⟩
    obtain ⟨inMeta, hmeta⟩ := (decodeMeta_ok_iff (symbolsMap map)).mpr htyped.inMeta
    obtain ⟨topPackId, htop⟩ :=
      (resolveStringSymbol_ok_iff (symbolsMap map) "pack_ids").mpr htyped.packId
    obtain ⟨flows, hflows⟩ := (decodeFlows_ok_iff (symbolsMap map)).mpr
      (flows_iff.mpr ⟨htyped.inFlows, hcomplete.flowIds⟩)
    have hsome : (topPackId.or inMeta.1).isSome = true := by
      rw [Option.isSome_or, Bool.or_eq_true, isSome_of_resolve htop, isSome_of_decodeMeta hmeta]
      exact hcomplete.packId
    obtain ⟨packId, hid⟩ := Option.isSome_iff_exists.mp hsome
    refine ⟨⟨some ⟨packId, inMeta.2⟩, none, flows⟩, ?_⟩
    refine Outcome.bind_eq_ok_iff.mpr ⟨inMeta, hmeta, ?_⟩
    refine Outcome.bind_eq_ok_iff.mpr ⟨topPackId, htop, ?_⟩
    rw [hid]
    exact Outcome.bind_eq_ok_iff.mpr ⟨flows, hflows, rfl⟩

theorem parse_ok_iff {fromSlice : List UInt8 → Except String CborValue} {bytes : List UInt8} :
    (∃ manifest, parseManifestCborBytes fromSlice bytes = .ok manifest)
      ↔ ∃ value, fromSlice bytes = .ok value ∧ ∃ manifest, decodeManifestLenient value = .ok manifest := by
  unfold parseManifestCborBytes
  cases fromSlice bytes with
  | error err => simp [bind, Except.bind]
  | ok value =>
    cases hdecode : decodeManifestLenient value with
    | ok manifest => simp [bind, Except.bind, hdecode, pure, Except.pure]
    | error err =>
      cases hfind : findManifestStringTypeMismatch value <;>
        simp [bind, Except.bind, hdecode, hfind, Outcome.throw_eq]

end Loader

/-! ## The two of them -/

/-- A manifest that the doctor finds nothing in. -/
theorem issue_eq_none_iff {fromSlice : List UInt8 → Except String CborValue} {bytes : List UInt8} :
    manifestCborIssueDetail fromSlice (some bytes) = none
      ↔ ∃ value, fromSlice bytes = .ok value ∧ findManifestStringTypeMismatch value = none := by
  cases hslice : fromSlice bytes with
  | error err => simp [manifestCborIssueDetail, hslice]
  | ok value => simp [manifestCborIssueDetail, hslice]

/-- **The doctor agrees with the loader** exactly where the bytes decode to nothing, or to a map that
is not well typed or that has sound names if and only if it is complete. -/
theorem doctor_agrees_iff (fromSlice : List UInt8 → Except String CborValue) (bytes : List UInt8) :
    (manifestCborIssueDetail fromSlice (some bytes) = none
        ↔ ∃ manifest, parseManifestCborBytes fromSlice bytes = .ok manifest)
      ↔ ∀ value, fromSlice bytes = .ok value → ∃ map, value = .map map
        ∧ (WellTyped (fun _ => IsName) map → (WellTyped (IsSoundName map) map ↔ Complete map)) := by
  rw [issue_eq_none_iff, parse_ok_iff]
  cases fromSlice bytes with
  | error err => simp
  | ok value =>
    simp only [Except.ok.injEq, exists_eq_left', forall_eq']
    cases value with
    | map map =>
      rw [mismatch_eq_none_iff, decode_ok_iff]
      have hsound : WellTyped (IsSoundName map) map → WellTyped (fun _ => IsName) map :=
        WellTyped.mono fun _ _ => IsSoundName.isName
      constructor
      · intro h
        refine ⟨map, rfl, fun htyped => ?_⟩
        rw [h]
        exact ⟨And.right, fun hcomplete => ⟨htyped, hcomplete⟩⟩
      · rintro ⟨_, heq, h⟩
        cases heq
        exact ⟨fun hs => ⟨hsound hs, (h (hsound hs)).mp hs⟩, fun ⟨htyped, hcomplete⟩ => (h htyped).mpr hcomplete⟩
    | _ => simp [findManifestStringTypeMismatch, decodeManifestLenient]

/-! ## An index that leads nowhere -/

/-- A manifest with one symbol, whose pack id is the next. -/
def outOfRange : CborValue :=
  .map [(.text "pack_id", .integer 1), (.text "symbols", .map [(.text "pack_ids", .array [.text "chat"])])]

def outOfRangeBytes : List UInt8 :=
  [0xa2, 0x67, 0x70, 0x61, 0x63, 0x6b, 0x5f, 0x69, 0x64, 0x01,
    0x67, 0x73, 0x79, 0x6d, 0x62, 0x6f, 0x6c, 0x73,
    0xa1, 0x68, 0x70, 0x61, 0x63, 0x6b, 0x5f, 0x69, 0x64, 0x73, 0x81, 0x64, 0x63, 0x68, 0x61, 0x74]

/-- A decoder that knows one manifest. -/
def readOne (bytes : List UInt8) : Except String CborValue :=
  if bytes = outOfRangeBytes then .ok outOfRange else .error "unexpected data"

/-- The loader takes the index as the pack's id, the doctor reports it. -/
theorem loadable_pack_reported :
    ¬ (manifestCborIssueDetail readOne (some outOfRangeBytes) = none
      ↔ ∃ manifest, parseManifestCborBytes readOne outOfRangeBytes = .ok manifest) := by
  intro h
  have hloads : parseManifestCborBytes readOne outOfRangeBytes
      = .ok { packMeta := some { packId := "1", entryFlows := [] }, packId := none, flows := [] } := by rfl
  have hissue : manifestCborIssueDetail readOne (some outOfRangeBytes)
      = some "invalid type at pack_id (expected string)" := by rfl
  have hnone := h.mpr ⟨_, hloads⟩
  rw [hissue] at hnone
  cases hnone

end Domains
