import GreenticOperator.Lib.SortedMap
import GreenticOperator.Lib.StableSort
import GreenticOperator.Offers.Registry
import Mathlib.Data.List.Induction
import Mathlib.Data.List.Pairwise
import Mathlib.Data.List.Perm.Basic
import Mathlib.Data.String.Basic

/-!
# The keys of the offer registry

A registry is meant to hold every offer of the packs registered in it, and to select among all
of them (`LosesNothing`). The offers of all packs share one map, whose keys put a pack id and
an offer id together, so one is lost exactly where two packs come to one key
(`losesNothing_iff`). Pack ids without a colon never do (`keysApart_of_noColon`). A registration
that fails changes nothing (`registerPackIn_error`).
-/

namespace Offers

open OfferRegistry

/-- The record of an offer of a pack. -/
def PackOffers.offerOf (pack : PackOffers) (offer : PackOffer) : Offer where
  offerKey := offerKey pack.packId offer.id
  packId := pack.packId
  packRef := pack.packRef
  id := offer.id
  kind := offer.kind
  priority := offer.priority
  providerOp := offer.providerOp
  stage := offer.stage
  contract := offer.contract

/-- The offers of some packs. -/
def accepted (packs : List PackOffers) : List Offer :=
  packs.flatMap fun pack => pack.offers.map pack.offerOf

/-- The order of selection. -/
abbrev byPriority : Offer → Offer → Prop := StableSort.ByPriority Offer.priority Offer.offerKey

/-! ## Registering -/

def insertOffers (byKey offers : List Offer) : List Offer :=
  offers.foldl (fun byKey offer => insertOffer offer byKey) byKey

theorem insertOffers_run (pack : PackOffers) (offers : List PackOffer) (registry : OfferRegistry) :
    (offers.forM fun offer => Eff.modify fun registry => { registry with
        byKey := insertOffer (pack.offerOf offer) registry.byKey }).run registry
      = (.ok (), { registry with byKey := insertOffers registry.byKey (offers.map pack.offerOf) }) := by
  induction offers generalizing registry with
  | nil => rfl
  | cons offer offers ih =>
    exact (Eff.bind_run_of_ok (Eff.modify_run _ _)).trans (ih _)

/-- A pack that is already registered from another file. -/
def Rejected (registry : OfferRegistry) (pack : PackOffers) : Prop :=
  (registry.packRefs.lookup pack.packId).any (· != pack.packRef) = true

/-- The registry with the offers of one more pack. -/
def withPack (registry : OfferRegistry) (pack : PackOffers) : OfferRegistry where
  byKey := insertOffers registry.byKey (pack.offers.map pack.offerOf)
  packRefs := if (registry.packRefs.lookup pack.packId).isSome then registry.packRefs
    else registry.packRefs ++ [(pack.packId, pack.packRef)]

theorem registerPackIn_of_rejected {registry : OfferRegistry} {pack : PackOffers} (h : Rejected registry pack) :
    ∃ err, (registerPackIn pack).run registry = (.error err, registry) := by
  unfold registerPackIn
  rw [Eff.bind_run_of_ok (Eff.read_run _ _)]
  unfold Rejected at h
  rw [if_pos h]
  exact ⟨_, rfl⟩

theorem registerPackIn_of_not_rejected {registry : OfferRegistry} {pack : PackOffers}
    (h : ¬ Rejected registry pack) :
    (registerPackIn pack).run registry = (.ok (), withPack registry pack) := by
  unfold registerPackIn
  rw [Eff.bind_run_of_ok (Eff.read_run _ _)]
  unfold Rejected at h
  rw [if_neg h]
  exact (Eff.bind_run_of_ok (Eff.modify_run _ _)).trans (insertOffers_run pack pack.offers _)

/-- The two ways to register a pack are one. -/
theorem registerPack_eq (registry : OfferRegistry) (pack : PackOffers) :
    registry.registerPack pack
      = (((registerPackIn pack).run registry).1).map fun _ => ((registerPackIn pack).run registry).2 := by
  unfold registerPackIn
  rw [Eff.bind_run_of_ok (Eff.read_run _ _)]
  dsimp only [registerPack]
  split
  next h => rfl
  next h =>
    rw [(Eff.bind_run_of_ok (Eff.modify_run _ _)).trans (insertOffers_run pack pack.offers _)]
    refine congrArg Except.ok ?_
    unfold insertOffers
    rw [List.foldl_map]
    rfl

/-- **A registration that fails** leaves the registry as it was. -/
theorem registerPackIn_error {registry registry' : OfferRegistry} {pack : PackOffers} {err : String}
    (h : (registerPackIn pack).run registry = (.error err, registry')) : registry' = registry := by
  by_cases hrejected : Rejected registry pack
  · obtain ⟨err', hrun⟩ := registerPackIn_of_rejected hrejected
    rw [h] at hrun
    exact (Prod.mk.inj hrun).2
  · rw [registerPackIn_of_not_rejected hrejected] at h
    cases h

/-- The registry after some registrations, failed ones among them. -/
def registered (packs : List PackOffers) : OfferRegistry :=
  packs.foldl (fun registry pack => ((registerPackIn pack).run registry).2) empty

/-- Packs with ids of their own. -/
def DistinctPacks (packs : List PackOffers) : Prop := packs.Pairwise fun a b => a.packId ≠ b.packId

theorem registered_concat (packs : List PackOffers) (pack : PackOffers) :
    registered (packs ++ [pack]) = ((registerPackIn pack).run (registered packs)).2 := by
  unfold registered
  rw [List.foldl_append]
  rfl

/-- Packs with ids of their own are all registered. -/
theorem registered_eq {packs : List PackOffers} (h : DistinctPacks packs) :
    registered packs = ⟨insertOffers [] (accepted packs), packs.map fun pack => (pack.packId, pack.packRef)⟩ := by
  induction packs using List.reverseRecOn with
  | nil => rfl
  | append_singleton packs pack ih =>
    obtain ⟨hpacks, -, hnew⟩ := List.pairwise_append.mp h
    have ih := ih hpacks
    have hlookup : (registered packs).packRefs.lookup pack.packId = none := by
      rw [ih, List.lookup_eq_none_iff]
      intro entry hentry
      obtain ⟨other, hother, rfl⟩ := List.mem_map.mp hentry
      exact bne_iff_ne.mpr (hnew other hother pack (List.mem_singleton_self _)).symm
    have hok : ¬ Rejected (registered packs) pack := by
      unfold Rejected
      rw [hlookup]
      exact Bool.false_ne_true
    rw [registered_concat, registerPackIn_of_not_rejected hok]
    unfold withPack
    rw [hlookup, ih]
    unfold insertOffers accepted
    rw [List.flatMap_append, List.foldl_append, List.map_append, List.flatMap_singleton]
    rfl

/-! ## The map of the offers -/

def entry (offer : Offer) : String × Offer := (offer.offerKey, offer)

theorem entries_insertOffer (offer : Offer) (byKey : List Offer) :
    (insertOffer offer byKey).map entry
      = SortedMap.alter offer.offerKey (fun _ => offer) (byKey.map entry) := by
  induction byKey with
  | nil => rfl
  | cons other byKey ih =>
    have hentry : entry other = (other.offerKey, other) := rfl
    rw [insertOffer, List.map_cons, hentry, SortedMap.alter]
    by_cases hkey : offer.offerKey = other.offerKey
    · rw [if_pos hkey, if_pos hkey, List.map_cons, ← hkey]
      rfl
    · rw [if_neg hkey, if_neg hkey]
      split
      · rfl
      · rw [List.map_cons, ih]
        rfl

/-- The offers of a registry have ascending keys. -/
theorem ordered_insertOffers {byKey : List Offer} (offers : List Offer)
    (h : SortedMap.Ordered (byKey.map entry)) : SortedMap.Ordered ((insertOffers byKey offers).map entry) := by
  induction offers generalizing byKey with
  | nil => exact h
  | cons offer offers ih =>
    refine ih ?_
    rw [entries_insertOffer]
    exact SortedMap.ordered_alter _ _ h

theorem keys_nodup_of_ordered {byKey : List Offer} (h : SortedMap.Ordered (byKey.map entry)) :
    (byKey.map Offer.offerKey).Nodup :=
  List.pairwise_map.mpr ((List.pairwise_map.mp h).imp fun hlt => hlt.ne)

theorem perm_insertOffer {offer : Offer} {byKey : List Offer}
    (h : ∀ other ∈ byKey, offer.offerKey ≠ other.offerKey) : (insertOffer offer byKey).Perm (offer :: byKey) := by
  induction byKey with
  | nil => exact .refl _
  | cons other byKey ih =>
    rw [insertOffer, if_neg (h other List.mem_cons_self)]
    split
    · exact .refl _
    · have ih := ih fun o ho => h o (List.mem_cons_of_mem _ ho)
      exact (ih.cons other).trans (.swap offer other byKey)

/-- Offers with keys of their own are all kept. -/
theorem perm_insertOffers {byKey offers : List Offer} (h : ((byKey ++ offers).map Offer.offerKey).Nodup) :
    (insertOffers byKey offers).Perm (byKey ++ offers) := by
  induction offers generalizing byKey with
  | nil => rw [List.append_nil]; exact .refl _
  | cons offer offers ih =>
    have hmiddle : (offer :: (byKey ++ offers)).Perm (byKey ++ offer :: offers) := List.perm_middle.symm
    have hnodup : ((offer :: (byKey ++ offers)).map Offer.offerKey).Nodup :=
      ((hmiddle.map Offer.offerKey).nodup_iff).mpr h
    have hnew : ∀ other ∈ byKey, offer.offerKey ≠ other.offerKey := by
      intro other hother heq
      rw [List.map_cons, List.nodup_cons] at hnodup
      exact hnodup.1 (heq ▸ List.mem_map_of_mem (List.mem_append_left _ hother))
    have hinsert : (insertOffer offer byKey ++ offers).Perm (offer :: (byKey ++ offers)) :=
      (perm_insertOffer hnew).append_right offers
    have hstep := ih (((hinsert.map Offer.offerKey).nodup_iff).mpr hnodup)
    exact hstep.trans (hinsert.trans hmiddle)

/-! ## Keys of different packs -/

/-- No two packs come to one key. -/
def KeysApart (packs : List PackOffers) : Prop :=
  ∀ pack ∈ packs, ∀ other ∈ packs, ∀ offer ∈ pack.offers, ∀ otherOffer ∈ other.offers,
    offerKey pack.packId offer.id = offerKey other.packId otherOffer.id → pack.packId = other.packId

/-- The offers of each pack have ids of their own. -/
def DistinctOffers (packs : List PackOffers) : Prop :=
  ∀ pack ∈ packs, pack.offers.Pairwise fun a b => a.id ≠ b.id

theorem offerKey_inj {packId id id' : String} : offerKey packId id = offerKey packId id' ↔ id = id' := by
  refine ⟨fun h => ?_, fun h => h ▸ rfl⟩
  have hlist := congrArg String.toList h
  simp only [offerKey, String.toList_append] at hlist
  exact String.toList_inj.mp (List.append_cancel_left hlist)

theorem keys_accepted (packs : List PackOffers) :
    (accepted packs).map Offer.offerKey
      = packs.flatMap fun pack => pack.offers.map fun offer => offerKey pack.packId offer.id := by
  unfold accepted
  rw [List.map_flatMap]
  simp only [List.map_map]
  rfl

/-- Offers of packs with ids of their own have keys of their own where no two packs come to one. -/
theorem keys_nodup_iff {packs : List PackOffers} (hpacks : DistinctPacks packs) (hoffers : DistinctOffers packs) :
    ((accepted packs).map Offer.offerKey).Nodup ↔ KeysApart packs := by
  have hwithin : ∀ pack ∈ packs, (pack.offers.map fun offer => offerKey pack.packId offer.id).Nodup :=
    fun pack hpack => List.pairwise_map.mpr
      ((hoffers pack hpack).imp fun hne hkey => hne (offerKey_inj.mp hkey))
  rw [keys_accepted, List.nodup_flatMap]
  constructor
  · rintro ⟨-, hdisjoint⟩ pack hpack other hother offer hoffer otherOffer hotherOffer hkey
    by_contra hne
    have hsymm : Std.Symm (Function.onFun List.Disjoint fun pack : PackOffers =>
        pack.offers.map fun offer => offerKey pack.packId offer.id) := 
      ⟨fun _ _ h _ hkey hother => h hother hkey⟩
    have happart := hdisjoint.forall hpack hother fun heq => hne (heq ▸ rfl)
    exact happart (List.mem_map_of_mem hoffer) (List.mem_map.mpr ⟨otherOffer, hotherOffer, hkey.symm⟩)
  · intro hapart
    refine ⟨hwithin, hpacks.imp_of_mem fun {pack other} hpack hother hne => ?_⟩
    intro key hkey hotherKey
    obtain ⟨offer, hoffer, rfl⟩ := List.mem_map.mp hkey
    obtain ⟨otherOffer, hotherOffer, hsame⟩ := List.mem_map.mp hotherKey
    exact hne (hapart pack hpack other hother offer hoffer otherOffer hotherOffer hsame.symm)

/-! ## Nothing is lost -/

def isHook (stage contract : String) (offer : Offer) : Bool :=
  offer.kind == .Hook && offer.stage == some stage && offer.contract == some contract

def isSubs (contract : Option String) (offer : Offer) : Bool :=
  offer.kind == .Subs && (contract.map fun expected => offer.contract == some expected).getD true

/-- **Nothing is lost** of some packs: their offers are the ones kept and selected, and what
cannot be registered changes nothing. -/
structure LosesNothing (packs : List PackOffers) (registry : OfferRegistry) : Prop where
  retained : registry.byKey.Perm (accepted packs)
  hooks : ∀ stage contract, registry.selectHooks stage contract
    = ((accepted packs).filter (isHook stage contract)).insertionSort byPriority
  subs : ∀ contract, registry.selectSubs contract
    = ((accepted packs).filter (isSubs contract)).insertionSort byPriority
  atomic : ∀ pack err after, (registerPackIn pack).run registry = (.error err, after) → after = registry

/-- Offers with keys of their own are selected alike from whatever order they are in. -/
theorem insertionSort_filter_of_perm {byKey offers : List Offer} (hperm : byKey.Perm offers)
    (hkeys : (byKey.map Offer.offerKey).Nodup) (p : Offer → Bool) :
    (byKey.filter p).insertionSort byPriority = (offers.filter p).insertionSort byPriority := by
  refine StableSort.insertionSort_eq_of_perm (hperm.filter p) fun a ha b hb hab hba => ?_
  exact List.inj_on_of_nodup_map hkeys (List.mem_filter.mp ha).1 (List.mem_filter.mp hb).1
    (StableSort.eq_of_byPriority hab hba).2

theorem losesNothing_of_keysApart {packs : List PackOffers} (hpacks : DistinctPacks packs)
    (hoffers : DistinctOffers packs) (h : KeysApart packs) : LosesNothing packs (registered packs) := by
  have hkeys := (keys_nodup_iff hpacks hoffers).mpr h
  have hperm : (registered packs).byKey.Perm (accepted packs) := by
    rw [registered_eq hpacks]
    exact perm_insertOffers hkeys
  have hregistered : ((registered packs).byKey.map Offer.offerKey).Nodup :=
    ((hperm.map Offer.offerKey).nodup_iff).mpr hkeys
  exact ⟨hperm, fun stage contract => insertionSort_filter_of_perm hperm hregistered (isHook stage contract),
    fun contract => insertionSort_filter_of_perm hperm hregistered (isSubs contract),
    fun _ _ _ hrun => registerPackIn_error hrun⟩

/-- **Nothing is lost exactly** where no two packs come to one key. -/
theorem losesNothing_iff {packs : List PackOffers} (hpacks : DistinctPacks packs)
    (hoffers : DistinctOffers packs) : LosesNothing packs (registered packs) ↔ KeysApart packs := by
  refine ⟨fun h => ?_, losesNothing_of_keysApart hpacks hoffers⟩
  rw [← keys_nodup_iff hpacks hoffers, ← (h.retained.map Offer.offerKey).nodup_iff, registered_eq hpacks]
  exact keys_nodup_of_ordered (ordered_insertOffers _ SortedMap.ordered_nil)

theorem packId_of_offerKey {packId : String} (id : String) (h : ':' ∉ packId.toList) :
    (offerKey packId id).toList.takeWhile (· != ':') = packId.toList := by
  have hall : ∀ c ∈ packId.toList, (c != ':') = true := by
    intro c hc
    rw [bne_iff_ne]
    exact fun heq => h (heq ▸ hc)
  simp only [offerKey, String.toList_append, List.append_assoc]
  rw [List.takeWhile_append_of_pos hall]
  exact List.append_nil _

/-- Pack ids without a colon are read off the keys. -/
theorem keysApart_of_noColon {packs : List PackOffers} (h : ∀ pack ∈ packs, ':' ∉ pack.packId.toList) :
    KeysApart packs := by
  intro pack hpack other hother offer _ otherOffer _ hkey
  have hlist := congrArg (fun key => key.toList.takeWhile (· != ':')) hkey
  rw [packId_of_offerKey _ (h pack hpack), packId_of_offerKey _ (h other hother)] at hlist
  exact String.toList_inj.mp hlist

def controlHook (id : String) (priority : Int32) : PackOffer :=
  ⟨id, .Hook, priority, "hook", some hookStagePostIngress, some hookContractControlV1⟩

def plainPacks : List PackOffers :=
  [⟨"pack-b", "pack-b.gtpack", [controlHook "offer-b" 100]⟩,
    ⟨"pack-a", "pack-a.gtpack", [controlHook "offer-a" 100, controlHook "offer-c" 10]⟩]

theorem losesNothing_plainPacks : LosesNothing plainPacks (registered plainPacks) :=
  (losesNothing_iff (by unfold DistinctPacks; decide) (by unfold DistinctOffers; decide)).mpr
    (keysApart_of_noColon (by decide))

/-- A pack whose id continues another's takes the place of its offer. -/
theorem loses_offer : ¬ ∀ packs : List PackOffers, DistinctPacks packs → DistinctOffers packs →
    LosesNothing packs (registered packs) := by
  intro h
  let packs : List PackOffers :=
    [⟨"a", "a.gtpack", [controlHook "b::c" 1]⟩, ⟨"a::b", "a-b.gtpack", [controlHook "c" 2]⟩]
  have hlength := (h packs (by unfold DistinctPacks; decide) (by unfold DistinctOffers; decide)).retained.length_eq
  exact absurd hlength (by decide)

end Offers
