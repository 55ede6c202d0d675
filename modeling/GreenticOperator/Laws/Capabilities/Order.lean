import GreenticOperator.Laws.Capabilities.Selection
import GreenticOperator.Lib.Outcome
import GreenticOperator.Lib.SortedMap
import GreenticOperator.Lib.StableSort
import Mathlib.Data.List.Pairwise
import Mathlib.Data.List.Perm.Basic

/-!
# One order of selection

A registry sorts the offers of each capability, and sorts those of all capabilities again when
it is asked for the offers in scope. Both orders agree: a capability resolves to the first of
the offers in scope that are asked for (`resolveForOp_eq_head`). Where no two offers of a
capability are tied (`Untied`), a registry does not depend on the order of its packs, and so not
on the names of their files (`sameAnswers_of_renamed`).
-/

namespace Capabilities

/-- The stable id decides between offers of one priority. -/
abbrev byPriority : CapabilityOfferRecord → CapabilityOfferRecord → Prop :=
  StableSort.ByPriority CapabilityOfferRecord.priority CapabilityOfferRecord.stableId

instance : Std.Total Precedes := inferInstanceAs (Std.Total byPriority)

instance : IsTrans CapabilityOfferRecord Precedes := inferInstanceAs (IsTrans _ byPriority)

namespace CapabilityRegistry

/-! ## What a registry is built of -/

/-- The records of one pack of an index. -/
def recordsOf (readCapabilitiesExtension : String → Except String (Option (List CapabilityOfferV1)))
    (entry : String × CapabilityPackRecord) : Except String (List CapabilityOfferRecord) := do
  let ext ← readCapabilitiesExtension entry.1
  return (ext.getD []).mapIdx fun idx offer => recordOf entry.1 entry.2 offer idx

def grouped (offers : List CapabilityOfferRecord) : List (String × List CapabilityOfferRecord) :=
  offers.foldl (fun map offer => pushOffer offer map) []

def ofOffers (offers : List CapabilityOfferRecord) : CapabilityRegistry :=
  ⟨(grouped offers).map fun e => (e.1, e.2.insertionSort Precedes)⟩

/-- The offers of a capability in the order they were found in. -/
def found (offers : List CapabilityOfferRecord) (capId : String) : List CapabilityOfferRecord :=
  offers.filter (·.capId == capId)

variable {reader : String → Except String (Option (List CapabilityOfferV1))}
  {packIndex : List (String × CapabilityPackRecord)} {registry : CapabilityRegistry}

theorem buildFromPackIndex_eq_ok_iff :
    buildFromPackIndex reader packIndex = .ok registry
      ↔ ∃ records, packIndex.mapM (recordsOf reader) = .ok records ∧ registry = ofOffers records.flatten := by
  have heq : buildFromPackIndex reader packIndex
      = packIndex.mapM (recordsOf reader) >>= fun records => .ok (ofOffers records.flatten) := rfl
  rw [heq, Outcome.bind_eq_ok_iff]
  refine exists_congr fun records => and_congr_right fun _ => ?_
  rw [Except.ok.injEq, eq_comm]

theorem pushOffer_eq_alter (offer : CapabilityOfferRecord) (map : List (String × List CapabilityOfferRecord)) :
    pushOffer offer map = SortedMap.alter offer.capId (fun old => old.getD [] ++ [offer]) map := by
  induction map with
  | nil => rfl
  | cons entry map ih =>
    unfold pushOffer SortedMap.alter
    rw [ih]
    rfl

theorem grouped_concat (offers : List CapabilityOfferRecord) (offer : CapabilityOfferRecord) :
    grouped (offers ++ [offer])
      = SortedMap.alter offer.capId (fun old => old.getD [] ++ [offer]) (grouped offers) := by
  unfold grouped
  rw [List.foldl_append, ← pushOffer_eq_alter]
  rfl

theorem ordered_grouped (offers : List CapabilityOfferRecord) : SortedMap.Ordered (grouped offers) := by
  induction offers using List.reverseRecOn with
  | nil => exact SortedMap.ordered_nil
  | append_singleton offers offer ih =>
    rw [grouped_concat]
    exact SortedMap.ordered_alter _ _ ih

theorem lookup_grouped (offers : List CapabilityOfferRecord) (capId : String) :
    (grouped offers).lookup capId
      = if found offers capId = [] then none else some (found offers capId) := by
  induction offers using List.reverseRecOn with
  | nil => rfl
  | append_singleton offers offer ih =>
    rw [grouped_concat, SortedMap.lookup_alter _ _ _ (ordered_grouped offers)]
    unfold found at ih ⊢
    rw [List.filter_append]
    by_cases hcap : capId = offer.capId
    · subst hcap
      rw [if_pos rfl, ih]
      split <;> simp [*]
    · have hnot : (offer.capId == capId) = false := beq_eq_false_iff_ne.mpr (Ne.symm hcap)
      rw [if_neg hcap, ih, List.filter_cons_of_neg (by simp [hnot]), List.filter_nil, List.append_nil]

theorem lookup_ofOffers (offers : List CapabilityOfferRecord) (capId : String) :
    (ofOffers offers).byCapId.lookup capId
      = if found offers capId = [] then none else some ((found offers capId).insertionSort Precedes) := by
  have hmap := SortedMap.lookup_map (grouped offers)
    (fun _ (group : List CapabilityOfferRecord) => group.insertionSort Precedes) capId
  refine hmap.trans ?_
  rw [lookup_grouped]
  split <;> rfl

/-- What building a registry makes sure of. -/
structure WellFormed (registry : CapabilityRegistry) : Prop where
  ordered : SortedMap.Ordered registry.byCapId
  own : ∀ e ∈ registry.byCapId, ∀ offer ∈ e.2, offer.capId = e.1
  sorted : ∀ e ∈ registry.byCapId, e.2.Pairwise Precedes

theorem wellFormed_ofOffers (offers : List CapabilityOfferRecord) : WellFormed (ofOffers offers) := by
  have hordered : SortedMap.Ordered (ofOffers offers).byCapId :=
    SortedMap.ordered_map (fun _ (group : List CapabilityOfferRecord) => group.insertionSort Precedes)
      (ordered_grouped offers)
  have hentry : ∀ e ∈ (ofOffers offers).byCapId, e.2 = (found offers e.1).insertionSort Precedes := by
    intro e he
    have hlookup := (SortedMap.lookup_eq_some_iff hordered).mpr he
    rw [lookup_ofOffers] at hlookup
    split at hlookup
    next => cases hlookup
    next => exact (Option.some.inj hlookup).symm
  refine ⟨hordered, fun e he offer hoffer => ?_, fun e he => ?_⟩
  · rw [hentry e he, List.mem_insertionSort] at hoffer
    exact eq_of_beq (List.mem_filter.mp hoffer).2
  · rw [hentry e he]
    exact List.pairwise_insertionSort _ _

theorem wellFormed_of_build (h : buildFromPackIndex reader packIndex = .ok registry) : WellFormed registry := by
  obtain ⟨records, -, rfl⟩ := buildFromPackIndex_eq_ok_iff.mp h
  exact wellFormed_ofOffers _

/-- An offer of a registry comes from the pack at its path, and has the domain of its record. -/
theorem exists_entry_of_mem_ofOffers {records : List (List CapabilityOfferRecord)}
    (hrecords : packIndex.mapM (recordsOf reader) = .ok records) {group : String × List CapabilityOfferRecord}
    (hgroup : group ∈ (ofOffers records.flatten).byCapId) {offer : CapabilityOfferRecord} (hoffer : offer ∈ group.2) :
    ∃ entry ∈ packIndex, offer.packPath = entry.1 ∧ offer.domain = entry.2.domain := by
  have hlookup := (SortedMap.lookup_eq_some_iff (wellFormed_ofOffers records.flatten).ordered).mpr hgroup
  rw [lookup_ofOffers] at hlookup
  split at hlookup
  next => cases hlookup
  next =>
    rw [← Option.some.inj hlookup, List.mem_insertionSort] at hoffer
    obtain ⟨own, hown, hoffer⟩ := List.mem_flatten.mp (List.mem_filter.mp hoffer).1
    obtain ⟨entry, hentry, hread⟩ := Outcome.exists_of_mem_mapM_ok hrecords hown
    obtain ⟨ext, -, hext⟩ := Outcome.bind_eq_ok_iff.mp hread
    cases hext
    obtain ⟨idx, hidx, rfl⟩ := List.mem_mapIdx.mp hoffer
    exact ⟨entry, hentry, rfl, rfl⟩

/-! ## Selecting in one order -/

/-- The offers among all that are asked for. -/
def asked (capId : String) (minVersion requestedOp : Option String) (offer : CapabilityOfferRecord) : Bool :=
  offer.capId == capId && (versionMatches offer.version minVersion && opMatches offer requestedOp)

theorem filter_flatMap_snd {map : List (String × List CapabilityOfferRecord)} (h : SortedMap.Ordered map)
    (hown : ∀ e ∈ map, ∀ offer ∈ e.2, offer.capId = e.1) (capId : String) :
    (map.flatMap Prod.snd).filter (·.capId == capId) = (map.lookup capId).getD [] := by
  induction map with
  | nil => rfl
  | cons entry map ih =>
    obtain ⟨key, offers⟩ := entry
    obtain ⟨hbelow, hmap⟩ := SortedMap.ordered_cons.mp h
    have ih := ih hmap fun e he => hown e (List.mem_cons_of_mem _ he)
    have hkey : ∀ offer ∈ offers, offer.capId = key := hown _ List.mem_cons_self
    rw [List.flatMap_cons, List.filter_append, ih, List.lookup_cons]
    by_cases hcap : capId = key
    · subst hcap
      have hall : offers.filter (·.capId == capId) = offers :=
        List.filter_eq_self.mpr fun offer hoffer => beq_iff_eq.mpr (hkey offer hoffer)
      rw [hall, SortedMap.lookup_eq_none_of_lt hbelow, beq_self_eq_true]
      exact List.append_nil _
    · have hnone : offers.filter (·.capId == capId) = [] := by
        refine List.filter_eq_nil_iff.mpr fun offer hoffer heq => hcap ?_
        rw [← eq_of_beq heq, hkey offer hoffer]
      rw [hnone, beq_eq_false_iff_ne.mpr hcap]
      rfl

theorem WellFormed.filter_values (h : WellFormed registry) (capId : String) :
    registry.values.filter (·.capId == capId) = registry.offersForCapability capId :=
  filter_flatMap_snd h.ordered h.own capId

theorem WellFormed.pairwise_offersForCapability (h : WellFormed registry) (capId : String) :
    (registry.offersForCapability capId).Pairwise Precedes := by
  unfold offersForCapability
  cases hlookup : registry.byCapId.lookup capId with
  | none => exact .nil
  | some offers => exact h.sorted _ ((SortedMap.lookup_eq_some_iff h.ordered).mp hlookup)

/-- The offers in scope of one capability are in the order of the capability. -/
theorem WellFormed.filter_offersInScope (h : WellFormed registry) (scope : ResolveScope) (capId : String) :
    (registry.offersInScope scope).filter (·.capId == capId)
      = (registry.offersForCapability capId).filter fun offer => scopeMatches offer.scope scope := by
  have hsorted := (h.pairwise_offersForCapability capId).filter fun offer => scopeMatches offer.scope scope
  calc (registry.offersInScope scope).filter (·.capId == capId)
      = ((registry.values.filter fun offer => scopeMatches offer.scope scope).filter
          (·.capId == capId)).insertionSort Precedes := StableSort.filter_insertionSort _ _
    _ = ((registry.offersForCapability capId).filter fun offer =>
          scopeMatches offer.scope scope).insertionSort Precedes := by
        rw [← h.filter_values, List.filter_comm]
    _ = _ := hsorted.insertionSort_eq

theorem WellFormed.resolveForOp_eq_head (h : WellFormed registry) (capId : String) (minVersion : Option String)
    (scope : ResolveScope) (requestedOp : Option String) :
    registry.resolveForOp capId minVersion scope requestedOp
      = (((registry.offersInScope scope).filter (asked capId minVersion requestedOp)).head?).map
          CapabilityOfferRecord.binding := by
  have hasked : (registry.offersInScope scope).filter (asked capId minVersion requestedOp)
      = ((registry.offersInScope scope).filter (·.capId == capId)).filter fun offer =>
        versionMatches offer.version minVersion && opMatches offer requestedOp := by
    rw [List.filter_filter]
    refine List.filter_congr fun offer _ => ?_
    exact Bool.and_comm _ _
  rw [resolveForOp_eq, selected_eq_find_inScope, hasked, List.head?_filter, h.filter_offersInScope]

theorem offersRequiringSetup_eq (registry : CapabilityRegistry) (scope : ResolveScope) :
    registry.offersRequiringSetup scope = (registry.offersInScope scope).filter (·.requiresSetup) := by
  unfold offersRequiringSetup offersInScope
  rw [StableSort.filter_insertionSort, List.filter_filter]

/-! ## The order of the packs -/

/-- No two offers of a capability have the same priority and stable id. -/
def Untied (registry : CapabilityRegistry) : Prop :=
  ∀ capId, (registry.offersForCapability capId).Pairwise fun a b =>
    (a.priority, a.stableId) ≠ (b.priority, b.stableId)

end CapabilityRegistry

def CapabilityOfferRecord.moved (rename : String → String) (offer : CapabilityOfferRecord) :
    CapabilityOfferRecord := { offer with packPath := rename offer.packPath }

def CapabilityBinding.moved (rename : String → String) (binding : CapabilityBinding) : CapabilityBinding :=
  { binding with packPath := rename binding.packPath }

namespace CapabilityRegistry

def moved (rename : String → String) (registry : CapabilityRegistry) : CapabilityRegistry :=
  ⟨registry.byCapId.map fun e => (e.1, e.2.map (·.moved rename))⟩

/-- Another registry that gives the same answers, with other paths of the packs. -/
structure SameAnswers (rename : String → String) (registry other : CapabilityRegistry) : Prop where
  resolveForOp : ∀ capId minVersion scope requestedOp,
    other.resolveForOp capId minVersion scope requestedOp
      = (registry.resolveForOp capId minVersion scope requestedOp).map (·.moved rename)
  resolveHookChain : ∀ stage opName,
    other.resolveHookChain stage opName = (registry.resolveHookChain stage opName).map (·.moved rename)
  offersInScope : ∀ scope,
    other.offersInScope scope = (registry.offersInScope scope).map (·.moved rename)
  offersRequiringSetup : ∀ scope,
    other.offersRequiringSetup scope = (registry.offersRequiringSetup scope).map (·.moved rename)

variable {rename : String → String}

theorem insertionSort_moved (rename : String → String) (offers : List CapabilityOfferRecord) :
    (offers.map (·.moved rename)).insertionSort Precedes
      = (offers.insertionSort Precedes).map (·.moved rename) :=
  (List.map_insertionSort Precedes Precedes (CapabilityOfferRecord.moved rename) offers
    fun _ _ _ _ => Iff.rfl).symm

theorem offersForCapability_moved (registry : CapabilityRegistry) (capId : String) :
    (registry.moved rename).offersForCapability capId
      = (registry.offersForCapability capId).map (·.moved rename) := by
  have hlookup := SortedMap.lookup_map registry.byCapId
    (fun _ (offers : List CapabilityOfferRecord) => offers.map (·.moved rename)) capId
  refine (congrArg (·.getD []) hlookup).trans ?_
  unfold offersForCapability
  cases registry.byCapId.lookup capId <;> rfl

theorem values_moved (registry : CapabilityRegistry) :
    (registry.moved rename).values = registry.values.map (·.moved rename) := by
  unfold values moved
  rw [List.flatMap_map, List.map_flatMap]

theorem sameAnswers_moved (rename : String → String) (registry : CapabilityRegistry) :
    SameAnswers rename registry (registry.moved rename) where
  resolveForOp capId minVersion scope requestedOp := by
    rw [resolveForOp_eq, resolveForOp_eq]
    unfold selected
    rw [offersForCapability_moved, List.find?_map, Option.map_map, Option.map_map]
    rfl
  resolveHookChain stage opName := by
    rw [resolveHookChain_eq, resolveHookChain_eq]
    unfold hookOffers
    rw [offersForCapability_moved, List.filter_map, List.map_map, List.map_map]
    rfl
  offersInScope scope := by
    unfold CapabilityRegistry.offersInScope
    rw [values_moved, List.filter_map, insertionSort_moved]
    rfl
  offersRequiringSetup scope := by
    unfold CapabilityRegistry.offersRequiringSetup
    rw [values_moved, List.filter_map, insertionSort_moved]
    rfl

theorem found_moved (offers : List CapabilityOfferRecord) (capId : String) :
    found (offers.map (·.moved rename)) capId = (found offers capId).map (·.moved rename) := by
  unfold found
  rw [List.filter_map]
  rfl

theorem offersForCapability_ofOffers (offers : List CapabilityOfferRecord) (capId : String) :
    (ofOffers offers).offersForCapability capId = (found offers capId).insertionSort Precedes := by
  unfold offersForCapability
  rw [lookup_ofOffers]
  split
  next hnil => rw [hnil]; rfl
  next => rfl

/-- Untied offers of a capability are sorted alike from whatever order they are found in. -/
theorem insertionSort_found_of_perm {offers others : List CapabilityOfferRecord}
    (huntied : Untied (ofOffers offers)) (hperm : others.Perm (offers.map (·.moved rename)))
    (capId : String) :
    (found others capId).insertionSort Precedes
      = ((found offers capId).insertionSort Precedes).map (·.moved rename) := by
  have hfound : (found others capId).Perm ((found offers capId).map (·.moved rename)) := by
    rw [← found_moved]
    exact hperm.filter _
  rw [← insertionSort_moved]
  refine (StableSort.insertionSort_eq_of_perm hfound.symm fun a ha b hb hab hba => ?_).symm
  obtain ⟨a, hamem, rfl⟩ := List.mem_map.mp ha
  obtain ⟨b, hbmem, rfl⟩ := List.mem_map.mp hb
  have hab : byPriority a b := hab
  have hba : byPriority b a := hba
  obtain ⟨hpriority, hid⟩ := StableSort.eq_of_byPriority hab hba
  have hpairwise := huntied capId
  rw [offersForCapability_ofOffers] at hpairwise
  have hsymm : Std.Symm fun a b : CapabilityOfferRecord =>
      (a.priority, a.stableId) ≠ (b.priority, b.stableId) := ⟨fun _ _ => Ne.symm⟩
  by_contra hne
  refine hpairwise.forall ((List.mem_insertionSort _).mpr hamem) ((List.mem_insertionSort _).mpr hbmem)
    (fun heq => hne (congrArg _ heq)) ?_
  exact Prod.ext hpriority hid

theorem ofOffers_of_perm {offers others : List CapabilityOfferRecord} (huntied : Untied (ofOffers offers))
    (hperm : others.Perm (offers.map (·.moved rename))) :
    ofOffers others = (ofOffers offers).moved rename := by
  refine congrArg CapabilityRegistry.mk ?_
  refine SortedMap.Ordered.ext (wellFormed_ofOffers others).ordered
    (SortedMap.ordered_map (fun _ (offers : List CapabilityOfferRecord) => offers.map (·.moved rename))
      (wellFormed_ofOffers offers).ordered) fun capId => ?_
  refine (lookup_ofOffers others capId).trans ?_
  refine Eq.trans ?_ (SortedMap.lookup_map (ofOffers offers).byCapId
    (fun _ (offers : List CapabilityOfferRecord) => offers.map (·.moved rename)) capId).symm
  rw [lookup_ofOffers, insertionSort_found_of_perm huntied hperm]
  have hnil : found others capId = [] ↔ found offers capId = [] := by
    have hfound : (found others capId).Perm ((found offers capId).map (·.moved rename)) := by
      rw [← found_moved]
      exact hperm.filter _
    rw [← List.length_eq_zero_iff, hfound.length_eq, List.length_map, List.length_eq_zero_iff]
  by_cases hempty : found offers capId = []
  · rw [if_pos hempty, if_pos (hnil.mpr hempty)]
    rfl
  · rw [if_neg hempty, if_neg (hnil.not.mpr hempty)]
    rfl

variable {reader' : String → Except String (Option (List CapabilityOfferV1))}

/-- A pack under another name has the same offers. -/
theorem recordsOf_moved {packPath : String} (pack : CapabilityPackRecord)
    (hread : reader' (rename packPath) = reader packPath) {records : List CapabilityOfferRecord}
    (h : recordsOf reader (packPath, pack) = .ok records) :
    recordsOf reader' (rename packPath, pack) = .ok (records.map (·.moved rename)) := by
  unfold recordsOf at h ⊢
  obtain ⟨ext, hext, hrecords⟩ := Outcome.bind_eq_ok_iff.mp h
  cases hrecords
  change (reader' (rename packPath) >>= fun ext => _) = _
  rw [hread, hext, List.mapIdx_eq_zipIdx_map, List.map_map]
  change Except.ok (List.mapIdx _ _) = _
  rw [List.mapIdx_eq_zipIdx_map]
  rfl

/-- The packs of an index under other names, in whatever order these have. -/
structure Renamed (rename : String → String) (packIndex packIndex' : List (String × CapabilityPackRecord))
    (reader reader' : String → Except String (Option (List CapabilityOfferV1))) : Prop where
  perm : packIndex'.Perm (packIndex.map fun entry => (rename entry.1, entry.2))
  read : ∀ entry ∈ packIndex, reader' (rename entry.1) = reader entry.1

variable {packIndex' : List (String × CapabilityPackRecord)}

theorem mapM_recordsOf_renamed (h : Renamed rename packIndex packIndex' reader reader')
    {records : List (List CapabilityOfferRecord)} (hrecords : packIndex.mapM (recordsOf reader) = .ok records) :
    ∃ records', packIndex'.mapM (recordsOf reader') = .ok records'
      ∧ records'.flatten.Perm (records.flatten.map (·.moved rename)) := by
  have hall := Outcome.forall₂_of_mapM_ok hrecords
  have hmoved : List.Forall₂ (fun entry records => recordsOf reader' entry = .ok records)
      (packIndex.map fun entry => (rename entry.1, entry.2)) (records.map (List.map (·.moved rename))) := by
    rw [List.forall₂_map_left_iff, List.forall₂_map_right_iff, List.forall₂_iff_zip]
    rw [List.forall₂_iff_zip] at hall
    refine ⟨hall.1, fun {entry} {offers} hzip => ?_⟩
    exact recordsOf_moved entry.2 (h.read entry (List.of_mem_zip hzip).1) (hall.2 hzip)
  obtain ⟨records', hforall, hperm⟩ := List.perm_comp_forall₂ h.perm hmoved
  refine ⟨records', Outcome.mapM_ok_of_forall₂ hforall, ?_⟩
  rw [List.map_flatten]
  exact hperm.flatten

theorem sameAnswers_of_renamed (hbuild : buildFromPackIndex reader packIndex = .ok registry)
    (huntied : Untied registry) (h : Renamed rename packIndex packIndex' reader reader') :
    ∃ other, buildFromPackIndex reader' packIndex' = .ok other ∧ SameAnswers rename registry other := by
  obtain ⟨records, hrecords, rfl⟩ := buildFromPackIndex_eq_ok_iff.mp hbuild
  obtain ⟨records', hrecords', hperm⟩ := mapM_recordsOf_renamed h hrecords
  refine ⟨_, buildFromPackIndex_eq_ok_iff.mpr ⟨records', hrecords', rfl⟩, ?_⟩
  rw [ofOffers_of_perm huntied hperm]
  exact sameAnswers_moved rename _

/-- **Selection follows one order.** A capability resolves to the first of the offers in scope
that are asked for, the offers that require setup are those in scope that do, and no answer
depends on the names of the packs' files. -/
theorem selection_order (hbuild : buildFromPackIndex reader packIndex = .ok registry)
    (huntied : Untied registry) :
    (∀ capId minVersion scope requestedOp,
      registry.resolveForOp capId minVersion scope requestedOp
        = ((registry.offersInScope scope).filter (asked capId minVersion requestedOp)).head?.map
            CapabilityOfferRecord.binding)
    ∧ (∀ capId minVersion scope requestedOp,
      registry.resolveForOp capId minVersion scope requestedOp = none
        ↔ (registry.offersInScope scope).filter (asked capId minVersion requestedOp) = [])
    ∧ (∀ scope, registry.offersRequiringSetup scope
        = (registry.offersInScope scope).filter (·.requiresSetup))
    ∧ ∀ rename packIndex' reader', Renamed rename packIndex packIndex' reader reader' →
        ∃ other, buildFromPackIndex reader' packIndex' = .ok other ∧ SameAnswers rename registry other := by
  have hhead := (wellFormed_of_build hbuild).resolveForOp_eq_head
  refine ⟨hhead, fun capId minVersion scope requestedOp => ?_, offersRequiringSetup_eq registry,
    fun _ _ _ hrenamed => sameAnswers_of_renamed hbuild huntied hrenamed⟩
  rw [hhead, Option.map_eq_none_iff, List.head?_eq_none_iff]

theorem untied_of_forall (h : ∀ e ∈ registry.byCapId, e.2.Pairwise fun a b =>
    (a.priority, a.stableId) ≠ (b.priority, b.stableId)) : Untied registry := by
  intro capId
  unfold offersForCapability
  cases hlookup : registry.byCapId.lookup capId with
  | none => exact .nil
  | some offers =>
    obtain ⟨front, back, heq, -⟩ := List.lookup_eq_some_iff.mp hlookup
    exact h (capId, offers) (heq ▸ List.mem_append_right _ List.mem_cons_self)

/-! An earlier file's offer comes after that of a later file. -/

def setupOffer (op : String) (priority : Int32) : CapabilityOfferV1 :=
  ⟨none, "greentic.cap.state", "v1", "state", op, none, priority, true, none, none, none, none, none, none⟩

def readTwoPacks (packPath : String) : Except String (Option (List CapabilityOfferV1)) :=
  .ok (some [setupOffer packPath (if packPath = "redis.gtpack" then 1 else 2)])

def twoPackIndex : List (String × CapabilityPackRecord) :=
  [("memory.gtpack", ⟨"memory", .Messaging⟩), ("redis.gtpack", ⟨"redis", .Messaging⟩)]

def twoPacks : CapabilityRegistry :=
  ofOffers [recordOf "memory.gtpack" ⟨"memory", .Messaging⟩ (setupOffer "memory.gtpack" 2) 0,
    recordOf "redis.gtpack" ⟨"redis", .Messaging⟩ (setupOffer "redis.gtpack" 1) 0]

theorem selection_order_twoPacks :
    twoPacks.resolveForOp "greentic.cap.state" none ⟨none, none, none⟩ none
        = ((twoPacks.offersInScope ⟨none, none, none⟩).filter
            (asked "greentic.cap.state" none none)).head?.map CapabilityOfferRecord.binding
      ∧ ∃ other, buildFromPackIndex
          (fun packPath => readTwoPacks (if packPath = "a.gtpack" then "redis.gtpack" else packPath))
          [("a.gtpack", ⟨"redis", .Messaging⟩), ("memory.gtpack", ⟨"memory", .Messaging⟩)] = .ok other
        ∧ SameAnswers (fun packPath => if packPath = "redis.gtpack" then "a.gtpack" else packPath)
            twoPacks other := by
  have hbuild : buildFromPackIndex readTwoPacks twoPackIndex = .ok twoPacks := rfl
  have horder := selection_order hbuild (untied_of_forall (by decide))
  refine ⟨horder.1 _ _ _ _, horder.2.2.2 _ _ _ ⟨?_, ?_⟩⟩
  · exact List.Perm.swap _ _ _
  · decide

end CapabilityRegistry

end Capabilities
