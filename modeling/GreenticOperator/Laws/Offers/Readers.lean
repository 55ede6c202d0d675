import GreenticOperator.Capabilities.Extension
import GreenticOperator.Lib.Outcome
import GreenticOperator.Offers.Registry

/-!
# Two readers of the capabilities extension

The capability registry and the offer registry read one manifest, each in its own way. What the
first accepts the second should load, with the same priorities for the hooks among it
(`ReadersAgree`). It does exactly where every entry that looks like an offer to the second reader
is one with an id of its own, the pack id can be read, and the hooks of the extension carry a
priority (`readersAgree_iff`).
-/

namespace Offers

open Json Capabilities StaticRoutes

/-! ## What the offer registry loads -/

/-- An entry that is an offer if it looks like one. -/
def Readable (raw : Value) : Prop :=
  isCandidate raw = true →
    (offerIdOf raw).isSome = true ∧ (kindOf raw).isSome = true ∧ (providerOpOf raw).isSome = true

/-- The ids of the entries that look like offers. -/
def idsOf (raws : List Value) : List String := (raws.filter isCandidate).filterMap offerIdOf

/-- The offer of an entry. -/
def packOffer (raw : Value) (id : String) (kind : OfferKind) (providerOp : String) : PackOffer where
  id
  kind
  priority := priorityOf raw
  providerOp
  stage := trimmedField raw "stage"
  contract := trimmedField raw "contract"

variable {packRef : String} {seenIds : List String} {raw : Value}

theorem parseOffer_of_not_candidate (packRef : String) (seenIds : List String)
    (h : isCandidate raw = false) : parseOffer packRef seenIds raw = .ok none := by
  unfold parseOffer
  rw [h]
  rfl

theorem parseOffer_ok_iff {offer : Option PackOffer} (hcandidate : isCandidate raw = true) :
    parseOffer packRef seenIds raw = .ok offer ↔
      ∃ id kind providerOp, offerIdOf raw = some id ∧ id ∉ seenIds ∧ kindOf raw = some kind
        ∧ providerOpOf raw = some providerOp ∧ offer = some (packOffer raw id kind providerOp) := by
  unfold parseOffer
  rw [hcandidate]
  cases hid : offerIdOf raw with
  | none => exact iff_of_false nofun (by rintro ⟨_, _, _, h, -⟩; cases h)
  | some id =>
    by_cases hseen : seenIds.contains id = true
    · have hmem := List.contains_iff_mem.mp hseen
      refine iff_of_false (fun h => ?_) ?_
      · simp only [Bool.not_true, Bool.false_eq_true, ↓reduceIte, hseen] at h
        cases h
      · rintro ⟨other, _, _, hother, hnot, -⟩
        cases hother
        exact hnot hmem
    · have hnot : id ∉ seenIds := fun hmem => hseen (List.contains_iff_mem.mpr hmem)
      cases hkind : kindOf raw with
      | none =>
        refine iff_of_false (fun h => ?_) (by rintro ⟨_, _, _, -, -, h, -⟩; cases h)
        simp only [Bool.not_true, Bool.false_eq_true, ↓reduceIte, hseen] at h
        cases h
      | some kind =>
        cases hop : providerOpOf raw with
        | none =>
          refine iff_of_false (fun h => ?_) (by rintro ⟨_, _, _, -, -, -, h, -⟩; cases h)
          simp only [Bool.not_true, Bool.false_eq_true, ↓reduceIte, hseen] at h
          cases h
        | some providerOp =>
          simp only [Bool.not_true, Bool.false_eq_true, ↓reduceIte, hseen]
          constructor
          · intro h
            exact ⟨id, kind, providerOp, rfl, hnot, rfl, rfl, (Except.ok.inj h).symm⟩
          · rintro ⟨_, _, _, hid', -, hkind', hop', rfl⟩
            cases hid'
            cases hkind'
            cases hop'
            rfl

theorem idsOf_cons_of_not_candidate (h : isCandidate raw = false) (rest : List Value) :
    idsOf (raw :: rest) = idsOf rest := by
  unfold idsOf
  rw [List.filter_cons_of_neg (by rw [h]; exact Bool.false_ne_true)]

theorem idsOf_cons_of_candidate {id : String} (h : isCandidate raw = true) (hid : offerIdOf raw = some id)
    (rest : List Value) : idsOf (raw :: rest) = id :: idsOf rest := by
  unfold idsOf
  rw [List.filter_cons_of_pos h, List.filterMap_cons_some hid]

/-- **The loop ends well exactly** where every entry is readable and no two have one id. -/
theorem parseOffers_ok_iff {raws : List Value} :
    (∃ offers, parseOffers packRef seenIds raws = .ok offers) ↔
      (∀ raw ∈ raws, Readable raw) ∧ (idsOf raws).Nodup ∧ ∀ id ∈ idsOf raws, id ∉ seenIds := by
  induction raws generalizing seenIds with
  | nil => exact iff_of_true ⟨[], rfl⟩ ⟨nofun, .nil, nofun⟩
  | cons raw rest ih =>
    rw [List.forall_mem_cons]
    cases hcandidate : isCandidate raw with
    | false =>
      have hreadable : Readable raw := fun h => by rw [hcandidate] at h; cases h
      rw [parseOffers, parseOffer_of_not_candidate _ _ hcandidate, idsOf_cons_of_not_candidate hcandidate]
      exact ih.trans ⟨fun h => ⟨⟨hreadable, h.1⟩, h.2⟩, fun h => ⟨h.1.2, h.2⟩⟩
    | true =>
      constructor
      · rintro ⟨offers, h⟩
        rw [parseOffers] at h
        obtain ⟨parsed, hparse, h⟩ := Outcome.bind_eq_ok_iff.mp h
        obtain ⟨id, kind, providerOp, hid, hnew, hkind, hop, rfl⟩ := (parseOffer_ok_iff hcandidate).mp hparse
        obtain ⟨others, hrest, -⟩ := Outcome.bind_eq_ok_iff.mp h
        obtain ⟨hreadable, hnodup, hapart⟩ := ih.mp ⟨others, hrest⟩
        rw [idsOf_cons_of_candidate hcandidate hid, List.nodup_cons, List.forall_mem_cons]
        refine ⟨⟨fun _ => ?_, hreadable⟩, ⟨fun hmem => ?_, hnodup⟩, hnew, fun other hother hmem => ?_⟩
        · rw [hid, hkind, hop]
          exact ⟨rfl, rfl, rfl⟩
        · exact hapart id hmem List.mem_cons_self
        · exact hapart other hother (List.mem_cons_of_mem _ hmem)
      · rintro ⟨⟨hreadable, hrest⟩, hnodup, hnew⟩
        obtain ⟨hid, hkind, hop⟩ := hreadable hcandidate
        obtain ⟨id, hid⟩ := Option.isSome_iff_exists.mp hid
        obtain ⟨kind, hkind⟩ := Option.isSome_iff_exists.mp hkind
        obtain ⟨providerOp, hop⟩ := Option.isSome_iff_exists.mp hop
        rw [idsOf_cons_of_candidate hcandidate hid] at hnodup hnew
        rw [List.nodup_cons] at hnodup
        rw [List.forall_mem_cons] at hnew
        have hparse : parseOffer packRef seenIds raw = .ok (some (packOffer raw id kind providerOp)) :=
          (parseOffer_ok_iff hcandidate).mpr ⟨id, kind, providerOp, hid, hnew.1, hkind, hop, rfl⟩
        obtain ⟨others, hothers⟩ := (@ih (id :: seenIds)).mpr ⟨hrest, hnodup.2, fun other hother hmem => by
          rcases List.mem_cons.mp hmem with rfl | hmem
          · exact hnodup.1 hother
          · exact hnew.2 other hother hmem⟩
        refine ⟨packOffer raw id kind providerOp :: others, ?_⟩
        rw [parseOffers, hparse]
        change (do let offers ← parseOffers packRef (id :: seenIds) rest; pure (_ :: offers)) = _
        rw [hothers]
        rfl

/-- A manifest whose offers can be loaded. -/
structure Loadable (manifest : Value) : Prop where
  packId : (manifestPackId manifest).isSome = true
  entries : ∀ raw ∈ offersRaw manifest, Readable raw
  ids : (idsOf (offersRaw manifest)).Nodup

theorem loadPackOffers_ok_iff {manifest : Except String Value} :
    (∃ pack, loadPackOffers manifest packRef = .ok pack) ↔ ∃ v, manifest = .ok v ∧ Loadable v := by
  cases manifest with
  | error err => exact iff_of_false nofun (by rintro ⟨_, h, -⟩; cases h)
  | ok v =>
    have hloads : (∃ offers, parsePackOffers v packRef = .ok offers) ↔
        (∀ raw ∈ offersRaw v, Readable raw) ∧ (idsOf (offersRaw v)).Nodup := by
      unfold parsePackOffers
      rw [parseOffers_ok_iff]
      exact ⟨fun h => ⟨h.1, h.2.1⟩, fun h => ⟨h.1, h.2, fun _ _ => List.not_mem_nil⟩⟩
    constructor
    · rintro ⟨pack, h⟩
      refine ⟨v, rfl, ?_⟩
      obtain ⟨_, hv, h⟩ := Outcome.bind_eq_ok_iff.mp h
      cases hv
      split at h
      next => cases h
      next packId hpackId =>
        obtain ⟨offers, hoffers, -⟩ := Outcome.bind_eq_ok_iff.mp h
        obtain ⟨hentries, hids⟩ := hloads.mp ⟨offers, hoffers⟩
        exact ⟨by rw [hpackId]; rfl, hentries, hids⟩
    · rintro ⟨_, hv, hload⟩
      cases hv
      obtain ⟨packId, hpackId⟩ := Option.isSome_iff_exists.mp hload.packId
      obtain ⟨offers, hoffers⟩ := hloads.mpr ⟨hload.entries, hload.ids⟩
      refine ⟨⟨packId, packRef, offers⟩, ?_⟩
      unfold loadPackOffers
      simp only [bind, Except.bind, hpackId, hoffers]
      rfl

/-! ## What the capability registry reads -/

/-- The inline payload of the extension in a manifest. -/
def capabilitiesInline (manifest : Value) : Option Value :=
  ((manifest.get "extensions").bind (·.get extCapabilitiesV1)).bind (·.get "inline")

/-- A pack file as both readers decode its manifest. -/
structure PackViews where
  path : String
  record : CapabilityPackRecord
  manifest : Except String PackManifest
  json : Except String Value
  /-- The payload of an extension is the same value to both. -/
  same : ∀ decoded v extension payload, manifest = .ok decoded → json = .ok v →
    (decoded.extensions.getD []).lookup extCapabilitiesV1 = some extension →
    extension.inline = some (.Other payload) → capabilitiesInline v = some payload

/-- A pack whose manifest has the extension. -/
def Carries (pack : PackViews) : Prop :=
  ∃ decoded, pack.manifest = .ok decoded ∧ ((decoded.extensions.getD []).lookup extCapabilitiesV1).isSome = true

/-- The capability registry can be built of a pack. -/
def CapabilityAccepts (pack : PackViews) : Prop :=
  ∃ registry, CapabilityRegistry.buildFromPackIndex
    (fun _ => (readCapabilitiesExtension pack.manifest).map fun ext => ext.map (·.offers))
    [(pack.path, pack.record)] = .ok registry

/-- The offer registry loads a pack, and registers it where there is none of its id. -/
def OffersAccept (pack : PackViews) : Prop :=
  ∃ offers, loadPackOffers pack.json pack.path = .ok offers
    ∧ ∀ registry : OfferRegistry, registry.packRefs.lookup offers.packId = none →
      ∃ registry', registry.registerPack offers = .ok registry'

/-- The entries of the extension as the offer registry finds them. -/
def sharedEntries (pack : PackViews) : List Value :=
  match pack.json with
  | .ok v => ((capabilitiesInline v).map fun payload => entriesOf payload "offers").getD []
  | .error _ => []

/-- A hook that both registries read of one entry has one priority. -/
def SamePriorities (pack : PackViews) : Prop :=
  ∀ raw ∈ sharedEntries pack, ∀ (capability : CapabilityOfferV1) (seenIds : List String) (offer : PackOffer),
    decodeOffer raw = some capability → parseOffer pack.path seenIds raw = .ok (some offer) →
    offer.kind = .Hook → offer.priority = capability.priority

structure ReadersAgree (pack : PackViews) : Prop where
  accepts : OffersAccept pack
  priorities : SamePriorities pack

variable {pack : PackViews}

theorem readCapabilities_of_accepts (hcarries : Carries pack) (h : CapabilityAccepts pack) :
    ∃ decoded extension payload ext, pack.manifest = .ok decoded
      ∧ (decoded.extensions.getD []).lookup extCapabilitiesV1 = some extension
      ∧ extension.inline = some (.Other payload) ∧ decodeCapabilities payload = some ext := by
  obtain ⟨decoded, hdecoded, hextension⟩ := hcarries
  obtain ⟨extension, hextension⟩ := Option.isSome_iff_exists.mp hextension
  obtain ⟨registry, hbuild⟩ := h
  obtain ⟨ext, hread⟩ : ∃ ext, readCapabilitiesExtension pack.manifest = .ok ext := by
    cases hread : readCapabilitiesExtension pack.manifest with
    | ok ext => exact ⟨ext, rfl⟩
    | error err =>
      rw [hread] at hbuild
      cases hbuild
  unfold readCapabilitiesExtension at hread
  obtain ⟨_, hmanifest, hread⟩ := Outcome.bind_eq_ok_iff.mp hread
  rw [hdecoded, Except.ok.injEq] at hmanifest
  subst hmanifest
  rw [hextension] at hread
  dsimp only at hread
  cases hinline : extension.inline with
  | none => rw [hinline] at hread; cases hread
  | some inline =>
    rw [hinline] at hread
    cases inline with
    | Provider => cases hread
    | Other payload =>
      dsimp only at hread
      cases hdecode : decodeCapabilities payload with
      | none => rw [hdecode] at hread; cases hread
      | some ext => exact ⟨decoded, extension, payload, ext, hdecoded, hextension, hinline, hdecode⟩

theorem exists_of_mem_mapM_some {α β : Type} {f : α → Option β} {l : List α} {l' : List β}
    (h : l.mapM f = some l') {a : α} (ha : a ∈ l) : ∃ b, f a = some b := by
  induction l generalizing l' with
  | nil => cases ha
  | cons first l ih =>
    rw [List.mapM_cons] at h
    obtain ⟨b, hb, h⟩ := Option.bind_eq_some_iff.mp h
    obtain ⟨bs, hbs, -⟩ := Option.bind_eq_some_iff.mp h
    rcases List.mem_cons.mp ha with rfl | ha
    · exact ⟨b, hb⟩
    · exact ih hbs ha

/-- The entries of an extension that was accepted are all decoded. -/
theorem decodeOffer_of_accepts {payload : Value} {ext : CapabilitiesExtensionV1}
    (hdecode : decodeCapabilities payload = some ext) {raw : Value} (hraw : raw ∈ entriesOf payload "offers") :
    ∃ capability, decodeOffer raw = some capability := by
  unfold entriesOf at hraw
  cases hoffers : payload.get "offers" with
  | none => rw [hoffers] at hraw; cases hraw
  | some entries =>
    cases payload with
    | object fields =>
      rw [hoffers] at hraw
      unfold decodeCapabilities at hdecode
      simp only [asRecord, bind, Option.bind_some, Option.bind_eq_some_iff] at hdecode
      obtain ⟨_, -, offers, hdecoded, -⟩ := hdecode
      have hfield : fields.lookup "offers" = some entries := hoffers
      rw [hfield] at hdecoded
      cases entries with
      | array items => exact exists_of_mem_mapM_some hdecoded hraw
      | _ => cases hraw
    | _ => cases hoffers

theorem priority_of_decodeOffer {fields : List (String × Value)} {capability : CapabilityOfferV1}
    (h : decodeOffer (.object fields) = some capability) :
    orDefault 0 asI32 (fields.lookup "priority") = some capability.priority := by
  unfold decodeOffer at h
  obtain ⟨_, hfield, h⟩ := Option.bind_eq_some_iff.mp h
  cases hfield
  -- The fields before the priority.
  obtain ⟨offerId, -, h⟩ := Option.bind_eq_some_iff.mp h
  obtain ⟨capId, -, h⟩ := Option.bind_eq_some_iff.mp h
  obtain ⟨version, -, h⟩ := Option.bind_eq_some_iff.mp h
  obtain ⟨provider, -, h⟩ := Option.bind_eq_some_iff.mp h
  obtain ⟨scope, -, h⟩ := Option.bind_eq_some_iff.mp h
  obtain ⟨priority, hpriority, h⟩ := Option.bind_eq_some_iff.mp h
  -- The fields after it.
  obtain ⟨requiresSetup, -, h⟩ := Option.bind_eq_some_iff.mp h
  obtain ⟨setupQaRef, -, h⟩ := Option.bind_eq_some_iff.mp h
  obtain ⟨appliesTo, -, h⟩ := Option.bind_eq_some_iff.mp h
  obtain ⟨operationId, -, h⟩ := Option.bind_eq_some_iff.mp h
  obtain ⟨inputSchemaRef, -, h⟩ := Option.bind_eq_some_iff.mp h
  obtain ⟨outputSchemaRef, -, h⟩ := Option.bind_eq_some_iff.mp h
  obtain ⟨adapterKind, -, h⟩ := Option.bind_eq_some_iff.mp h
  cases h
  exact hpriority

/-- An entry of the extension is readable where its id and operation are. -/
theorem readable_iff_of_decodeOffer {fields : List (String × Value)} {capability : CapabilityOfferV1}
    (h : decodeOffer (.object fields) = some capability) :
    Readable (.object fields) ↔ (offerIdOf (.object fields)).isSome = true
      ∧ (providerOpOf (.object fields)).isSome = true := by
  unfold decodeOffer at h
  obtain ⟨_, hfield, h⟩ := Option.bind_eq_some_iff.mp h
  cases hfield
  obtain ⟨offerId, -, h⟩ := Option.bind_eq_some_iff.mp h
  obtain ⟨capId, hcapId, -⟩ := Option.bind_eq_some_iff.mp h
  obtain ⟨v, hcap, -⟩ := Option.bind_eq_some_iff.mp hcapId
  have hget : (Value.object fields).get "cap_id" = some v := hcap
  have hcandidate : isCandidate (.object fields) = true := by
    unfold isCandidate
    rw [hget]
    simp
  have hkind : (kindOf (.object fields)).isSome = true := by
    unfold kindOf
    rw [hget, Option.isSome_or]
    simp
  exact ⟨fun hreadable => ⟨(hreadable hcandidate).1, (hreadable hcandidate).2.2⟩,
    fun hparts _ => ⟨hparts.1, hkind, hparts.2⟩⟩

theorem asI64_of_asI32 {v : Value} {n : Int32} (h : asI32 v = some n) :
    (v.asI64).map Int64.toInt32 = some n := by
  unfold asI32 at h
  obtain ⟨m, hm, h⟩ := Option.bind_eq_some_iff.mp h
  split at h
  next => rw [hm, Option.map_some, ← h]
  next => cases h

/-- **One priority**: a hook of the extension has the same one for both exactly where it is given. -/
theorem priority_eq_iff {capability : CapabilityOfferV1} (hkind : (raw.get "kind").isSome = true)
    (h : decodeOffer raw = some capability) :
    priorityOf raw = capability.priority ↔ (raw.get "priority").isSome = true := by
  cases raw with
  | object fields =>
    have hpriority := priority_of_decodeOffer h
    have hget : (Value.object fields).get "priority" = fields.lookup "priority" := rfl
    unfold priorityOf
    rw [hget]
    cases hfield : fields.lookup "priority" with
    | none =>
      rw [hfield] at hpriority
      have hzero : (0 : Int32) = capability.priority := Option.some.inj hpriority
      rw [← hzero]
      exact iff_of_false (by decide) nofun
    | some v =>
      rw [hfield] at hpriority
      rw [Option.bind_some, asI64_of_asI32 hpriority]
      exact iff_of_true rfl rfl
  | _ => cases hkind

theorem kind_isSome_of_hook (h : kindOf raw = some .Hook) : (raw.get "kind").isSome = true := by
  unfold kindOf at h
  cases hkind : raw.get "kind" with
  | some v => rfl
  | none =>
    rw [hkind] at h
    change (if _ then some OfferKind.Capability else none) = _ at h
    split at h <;> cases h

theorem isCandidate_of_hook (h : kindOf raw = some .Hook) : isCandidate raw = true := by
  unfold isCandidate
  rw [kind_isSome_of_hook h]
  simp

/-! ## Where the readers agree -/

/-- The manifest can be loaded, and the hooks of the extension carry a priority. -/
def HooksHavePriorities (pack : PackViews) : Prop :=
  ∀ raw ∈ sharedEntries pack, kindOf raw = some .Hook → (raw.get "priority").isSome = true

theorem registerPack_of_new {registry : OfferRegistry} {offers : PackOffers}
    (h : registry.packRefs.lookup offers.packId = none) :
    ∃ registry', registry.registerPack offers = .ok registry' := by
  dsimp only [OfferRegistry.registerPack]
  rw [h, if_neg (by exact Bool.false_ne_true)]
  exact ⟨_, rfl⟩

theorem offersAccept_iff : OffersAccept pack ↔ ∃ v, pack.json = .ok v ∧ Loadable v := by
  unfold OffersAccept
  rw [← @loadPackOffers_ok_iff pack.path]
  exact exists_congr fun offers => and_iff_left fun _ hnew => registerPack_of_new hnew

theorem mem_offersRaw_of_shared {v : Value} (hjson : pack.json = .ok v) (hraw : raw ∈ sharedEntries pack) :
    raw ∈ offersRaw v := by
  unfold sharedEntries at hraw
  rw [hjson] at hraw
  dsimp only at hraw
  unfold capabilitiesInline at hraw
  cases hextensions : v.get "extensions" with
  | none => rw [hextensions] at hraw; cases hraw
  | some extensions =>
    cases extensions with
    | object fields =>
      rw [hextensions, Option.bind_some] at hraw
      cases hextension : fields.lookup extCapabilitiesV1 with
      | none =>
        have hget : (Value.object fields).get extCapabilitiesV1 = none := hextension
        rw [hget] at hraw
        cases hraw
      | some extension =>
        have hget : (Value.object fields).get extCapabilitiesV1 = some extension := hextension
        rw [hget, Option.bind_some] at hraw
        unfold offersRaw
        rw [hextensions]
        refine List.mem_append_right _ (List.mem_flatMap.mpr ⟨(extCapabilitiesV1, extension), ?_, ?_⟩)
        · obtain ⟨front, back, heq, -⟩ := List.lookup_eq_some_iff.mp hextension
          exact heq ▸ List.mem_append_right _ List.mem_cons_self
        · exact List.mem_append_right _ hraw
    | _ =>
      rw [hextensions] at hraw
      cases hraw

theorem decodeOffer_of_shared (hcarries : Carries pack) (haccepts : CapabilityAccepts pack)
    (hraw : raw ∈ sharedEntries pack) : ∃ capability, decodeOffer raw = some capability := by
  obtain ⟨decoded, extension, payload, ext, hmanifest, hextension, hinline, hdecode⟩ :=
    readCapabilities_of_accepts hcarries haccepts
  unfold sharedEntries at hraw
  cases hjson : pack.json with
  | error err => rw [hjson] at hraw; cases hraw
  | ok v =>
    rw [hjson] at hraw
    dsimp only at hraw
    rw [pack.same decoded v extension payload hmanifest hjson hextension hinline] at hraw
    exact decodeOffer_of_accepts hdecode hraw

/-- **The readers agree exactly** where the entries that look like offers are offers with ids of
their own, the pack id can be read, and the hooks of the extension carry a priority. -/
theorem readersAgree_iff (hcarries : Carries pack) (haccepts : CapabilityAccepts pack) :
    ReadersAgree pack ↔ (∃ v, pack.json = .ok v ∧ Loadable v) ∧ HooksHavePriorities pack := by
  constructor
  · rintro ⟨haccept, hpriorities⟩
    obtain ⟨v, hjson, hload⟩ := offersAccept_iff.mp haccept
    refine ⟨⟨v, hjson, hload⟩, fun raw hraw hhook => ?_⟩
    obtain ⟨capability, hdecode⟩ := decodeOffer_of_shared hcarries haccepts hraw
    have hcandidate := isCandidate_of_hook hhook
    obtain ⟨hid, -, hop⟩ := hload.entries raw (mem_offersRaw_of_shared hjson hraw) hcandidate
    obtain ⟨id, hid⟩ := Option.isSome_iff_exists.mp hid
    obtain ⟨providerOp, hop⟩ := Option.isSome_iff_exists.mp hop
    have hparse : parseOffer pack.path [] raw = .ok (some (packOffer raw id .Hook providerOp)) :=
      (parseOffer_ok_iff hcandidate).mpr ⟨id, .Hook, providerOp, hid, List.not_mem_nil, hhook, hop, rfl⟩
    exact (priority_eq_iff (kind_isSome_of_hook hhook) hdecode).mp
      (hpriorities raw hraw capability [] _ hdecode hparse rfl)
  · rintro ⟨hload, hgiven⟩
    refine ⟨offersAccept_iff.mpr hload, fun raw hraw capability seenIds offer hdecode hparse hhook => ?_⟩
    have hcandidate : isCandidate raw = true := by
      by_contra hnot
      rw [parseOffer_of_not_candidate _ _ (Bool.not_eq_true _ ▸ hnot)] at hparse
      cases hparse
    obtain ⟨id, kind, providerOp, -, -, hkind, -, hoffer⟩ := (parseOffer_ok_iff hcandidate).mp hparse
    cases hoffer
    have hkind : kindOf raw = some .Hook := hkind.trans (congrArg some hhook)
    exact (priority_eq_iff (kind_isSome_of_hook hkind) hdecode).mpr (hgiven raw hraw hkind)

/-- A pack with one entry in its extension. -/
def viewsOf (entry : Value) : PackViews where
  path := "audit.gtpack"
  record := ⟨"audit", .Messaging⟩
  manifest := .ok ⟨"audit", some [(extCapabilitiesV1, ⟨some (.Other (.object [("offers", .array [entry])]))⟩)]⟩
  json := .ok (.object [("extensions", .object [(extCapabilitiesV1,
    .object [("inline", .object [("offers", .array [entry])])])]), ("pack_id", .string "audit")])
  same := by
    intro decoded v extension payload hdecoded hjson hextension hinline
    cases hdecoded
    cases hjson
    cases hextension
    cases hinline
    rfl

/-- An entry for a hook, with some more fields. -/
def hookEntry (more : List (String × Value)) : Value :=
  .object ([("cap_id", .string "greentic.cap.op_hook.post"), ("version", .string "v1"),
    ("provider", .object [("component_ref", .string "audit"), ("op", .string "record")])] ++ more)

theorem readersAgree_hook :
    ReadersAgree (viewsOf (hookEntry [("offer_id", .string "audit.post"), ("kind", .string "hook"),
      ("priority", .ofNat 5)])) := by
  refine (readersAgree_iff ⟨_, rfl, rfl⟩ ⟨_, rfl⟩).mpr ⟨⟨_, rfl, ?_, ?_, ?_⟩, ?_⟩
  · decide
  · intro raw hraw
    rw [List.mem_singleton.mp hraw]
    exact fun _ => by decide
  · decide
  · intro raw hraw _
    rw [List.mem_singleton.mp hraw]
    rfl

/-- The second reader requires the id that is optional to the first. -/
theorem rejects_accepted : ¬ ∀ pack, Carries pack → CapabilityAccepts pack → ReadersAgree pack := by
  intro h
  obtain ⟨⟨offers, hload, -⟩, -⟩ := h (viewsOf (hookEntry [])) ⟨_, rfl, rfl⟩ ⟨_, rfl⟩
  have hfails : (loadPackOffers (viewsOf (hookEntry [])).json "audit.gtpack").isOk = false := by decide
  change loadPackOffers (viewsOf (hookEntry [])).json "audit.gtpack" = _ at hload
  rw [hload] at hfails
  cases hfails

end Offers
