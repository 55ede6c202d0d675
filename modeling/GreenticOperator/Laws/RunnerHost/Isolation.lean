import GreenticOperator.Laws.Capabilities.Order
import GreenticOperator.Laws.RunnerHost.ChainIdentity

/-!
# Offers of other scopes

A caller's scope isolates its calls (`Isolated`) where every offer with a say in them matches the scope, and
where the packs may lose (or gain) offers that do not match without a change to what capabilities resolve to,
to the hook chains and to any call. A call depends on the offers through these two alone (`invoke_withOffers`).

It fails in two ways. Hooks are not selected by scope. And an offer without an id of its own is known by its place
in its pack: it gets another id, and loses its install record, where an offer before it is left out.
`isolated_iff` says that nothing else changes (`sameSelection_of_kept`).
-/

namespace RunnerHost

open Json Domains Capabilities DemoRunnerHost CapabilityRegistry

/-- A host with other offers. -/
def DemoRunnerHost.withOffers (host : DemoRunnerHost) (registry : CapabilityRegistry) : DemoRunnerHost :=
  { host with capabilityRegistry := registry }

/-- Other offers from which a context's calls select the same. -/
structure SameSelection (host : DemoRunnerHost) (ctx : OperatorContext) (registry : CapabilityRegistry) :
    Prop where
  resolved : ∀ capId minVersion requestedOp,
    registry.resolveForOp capId minVersion (host.scopeOf ctx) requestedOp
      = host.capabilityRegistry.resolveForOp capId minVersion (host.scopeOf ctx) requestedOp
  chains : ∀ stage opName,
    registry.resolveHookChain stage opName = host.capabilityRegistry.resolveHookChain stage opName

/-- Other offers under which a context's calls stay as they are. -/
structure Unchanged (host : DemoRunnerHost) (ctx : OperatorContext) (registry : CapabilityRegistry) : Prop
    extends SameSelection host ctx registry where
  calls : ∀ s entry payloadBytes,
    invoke (host.withOffers registry) s entry payloadBytes ctx = invoke host s entry payloadBytes ctx

/-! ## Offers of packs -/

/-- An offer of a pack. -/
abbrev PackOffer := (String × CapabilityPackRecord) × CapabilityOfferV1

/-- What the pack at a path offers. -/
def declared (read : String → Except String (Option (List CapabilityOfferV1))) (packPath : String) :
    List CapabilityOfferV1 := (((read packPath).toOption.bind id).getD [])

/-- The offers of the packs of an index, each with its place among those of its pack. -/
def placed (read : String → Except String (Option (List CapabilityOfferV1)))
    (packIndex : List (String × CapabilityPackRecord)) : List (PackOffer × Nat) :=
  packIndex.flatMap fun entry => (declared read entry.1).zipIdx.map fun (offer, idx) => ((entry, offer), idx)

def offersOf (read : String → Except String (Option (List CapabilityOfferV1)))
    (packIndex : List (String × CapabilityPackRecord)) : List PackOffer := (placed read packIndex).map Prod.fst

def PackOffer.inScope (scope : ResolveScope) (offer : PackOffer) : Bool :=
  scopeMatches (offer.2.scope.getD ⟨[], [], []⟩) scope

def PackOffer.isHook (offer : PackOffer) : Bool := offer.2.capId == capOpHookPre || offer.2.capId == capOpHookPost

/-- Whether an offer, where it is a hook's, is one for an operation. -/
def PackOffer.applies (opName : String) (offer : PackOffer) : Bool :=
  (offer.2.appliesTo.getD []).isEmpty || (offer.2.appliesTo.getD []).any (· == opName)

/-- An offer that may have a say in the calls of a scope. -/
def PackOffer.counts (scope : ResolveScope) (offer : PackOffer) : Bool := offer.inScope scope || offer.isHook

/-- Whether an offer has an id of its own. -/
def PackOffer.named (offer : PackOffer) : Bool := offer.2.offerId.any fun id => !(Text.trim id).isEmpty

section Packs

variable (scope : ResolveScope) (packIndex : List (String × CapabilityPackRecord))
  (fewer more : String → Except String (Option (List CapabilityOfferV1)))

/-- The packs without some of their offers that do not match a scope. -/
structure Without : Prop where
  sublist : List.Sublist (offersOf fewer packIndex) (offersOf more packIndex)
  inScope : (offersOf fewer packIndex).filter (·.inScope scope) = (offersOf more packIndex).filter (·.inScope scope)

/-- Every offer of a hook matches a scope. -/
def HooksMatch : Prop := ∀ offer ∈ offersOf more packIndex, offer.isHook = true → offer.inScope scope = true

/-- No offer of a hook is left out. -/
def HooksKept : Prop :=
  (offersOf fewer packIndex).filter PackOffer.isHook = (offersOf more packIndex).filter PackOffer.isHook

/-- Nor is an offer before one that counts and has no id of its own: that one keeps its place. -/
structure Kept : Prop where
  hooks : HooksKept packIndex fewer more
  places : (placed fewer packIndex).filter (fun spot => spot.1.counts scope && !spot.1.named)
    = (placed more packIndex).filter fun spot => spot.1.counts scope && !spot.1.named

/-- Of each capability there is one offer at most that counts. -/
def Sole : Prop := ∀ capId,
  ((offersOf more packIndex).filter fun offer => offer.counts scope && offer.2.capId == capId).length ≤ 1

end Packs

/-- A scope isolates the calls of a host whose registry was built of packs. -/
structure Isolated (host : DemoRunnerHost) (ctx : OperatorContext) (packIndex : List (String × CapabilityPackRecord))
    (more : String → Except String (Option (List CapabilityOfferV1))) : Prop where
  inScope : ∀ offer, Influences host.capabilityRegistry (host.scopeOf ctx) offer →
    scopeMatches offer.scope (host.scopeOf ctx) = true
  unchanged : ∀ fewer registry, buildFromPackIndex fewer packIndex = .ok registry →
    Without (host.scopeOf ctx) packIndex fewer more → Unchanged host ctx registry

/-! ## What a call takes from the offers -/

section WithOffers

variable {host : DemoRunnerHost} {ctx : OperatorContext} {registry : CapabilityRegistry}

theorem evaluateHooks_withOffers (s : Surroundings) (stage : HookStage) (i : Nat)
    (chain : List CapabilityBinding) (envelope : OperationEnvelope) :
    (host.withOffers registry).evaluateHooks s stage i chain envelope
      = host.evaluateHooks s stage i chain envelope := by
  induction chain generalizing i envelope with
  | nil => rfl
  | cons binding rest ih =>
    unfold evaluateHooks
    simp only [ih]
    rfl

theorem evaluateHookChain_withOffers (s : Surroundings) (chain : List CapabilityBinding) (stage : HookStage)
    (envelope : OperationEnvelope) :
    (host.withOffers registry).evaluateHookChain s chain stage envelope
      = host.evaluateHookChain s chain stage envelope := by
  unfold evaluateHookChain
  rw [evaluateHooks_withOffers]

variable (h : SameSelection host ctx registry)

include h

theorem gate_withOffers (s : Surroundings) (envelope : OperationEnvelope) (payloadBytes : List UInt8) :
    (host.withOffers registry).evaluateTokenValidationPreHook s envelope payloadBytes ctx
      = host.evaluateTokenValidationPreHook s envelope payloadBytes ctx := by
  have hvalidator : (host.withOffers registry).resolveCapability capOauthTokenValidationV1 none
      ((host.withOffers registry).scopeOf ctx)
      = host.resolveCapability capOauthTokenValidationV1 none (host.scopeOf ctx) := h.resolved _ _ _
  unfold evaluateTokenValidationPreHook
  rw [hvalidator]
  rfl

theorem routeCapability_withOffers (s : Surroundings) (capId op : String) :
    (host.withOffers registry).routeCapability s capId op ctx = host.routeCapability s capId op ctx := by
  have hresolved : ∀ requestedOp, (host.withOffers registry).capabilityRegistry.resolveForOp capId none
      ((host.withOffers registry).scopeOf ctx) requestedOp
      = host.capabilityRegistry.resolveForOp capId none (host.scopeOf ctx) requestedOp :=
    fun requestedOp => h.resolved _ _ requestedOp
  unfold routeCapability resolveCapability resolve
  simp only [hresolved]
  rfl

theorem resolveHookChain_withOffers (stage : HookStage) (opName : String) :
    (host.withOffers registry).resolveHookChain stage opName = host.resolveHookChain stage opName :=
  h.chains stage opName

theorem passToCapability_withOffers (s : Surroundings) (route : Route) (payloadBytes : List UInt8)
    (envelope : OperationEnvelope) :
    (host.withOffers registry).passToCapability s route payloadBytes ctx envelope
      = host.passToCapability s route payloadBytes ctx envelope := by
  unfold passToCapability
  simp only [resolveHookChain_withOffers h, evaluateHookChain_withOffers]
  rfl

theorem invokeCapability_withOffers (s : Surroundings) (capId op : String) (payloadBytes : List UInt8) :
    (host.withOffers registry).invokeCapability s capId op payloadBytes ctx
      = host.invokeCapability s capId op payloadBytes ctx := by
  unfold invokeCapability
  simp only [routeCapability_withOffers h, gate_withOffers h, resolveHookChain_withOffers h,
    evaluateHookChain_withOffers, passToCapability_withOffers h]

theorem invokeProviderOpInner_withOffers (s : ProviderSurroundings) (domain : Domain)
    (providerType opId : String) (payloadBytes : List UInt8) :
    (host.withOffers registry).invokeProviderOpInner s domain providerType opId payloadBytes ctx
      = host.invokeProviderOpInner s domain providerType opId payloadBytes ctx := by
  unfold invokeProviderOpInner renderIfNeeded
  simp only [invokeCapability_withOffers h]
  rfl

theorem passToProvider_withOffers (s : ProviderSurroundings) (domain : Domain) (providerType opId : String)
    (payloadBytes : List UInt8) (envelope : OperationEnvelope) :
    (host.withOffers registry).passToProvider s domain providerType opId payloadBytes ctx envelope
      = host.passToProvider s domain providerType opId payloadBytes ctx envelope := by
  unfold passToProvider
  simp only [invokeProviderOpInner_withOffers h, resolveHookChain_withOffers h, evaluateHookChain_withOffers]
  rfl

theorem invokeProviderOp_withOffers (s : ProviderSurroundings) (domain : Domain) (providerType opId : String)
    (payloadBytes : List UInt8) :
    (host.withOffers registry).invokeProviderOp s domain providerType opId payloadBytes ctx
      = host.invokeProviderOp s domain providerType opId payloadBytes ctx := by
  unfold invokeProviderOp
  simp only [gate_withOffers h, resolveHookChain_withOffers h, evaluateHookChain_withOffers,
    passToProvider_withOffers h]

/-- A call takes nothing from the offers but what it selects from them. -/
theorem invoke_withOffers (s : ProviderSurroundings) (entry : Entry) (payloadBytes : List UInt8) :
    invoke (host.withOffers registry) s entry payloadBytes ctx = invoke host s entry payloadBytes ctx := by
  cases entry with
  | capability capId op => exact invokeCapability_withOffers h s.toSurroundings capId op payloadBytes
  | providerOp domain providerType opId => exact invokeProviderOp_withOffers h s domain providerType opId payloadBytes

end WithOffers

/-! ## Registries of packs -/

section Registries

variable {scope : ResolveScope} {packIndex : List (String × CapabilityPackRecord)}
  {fewer more : String → Except String (Option (List CapabilityOfferV1))} {registry other : CapabilityRegistry}

/-- The record of an offer at its place. -/
def recordAt (spot : PackOffer × Nat) : CapabilityOfferRecord := recordOf spot.1.1.1 spot.1.1.2 spot.1.2 spot.2

theorem appliesTo_recordAt (opName : String) (spot : PackOffer × Nat) :
    appliesTo opName (recordAt spot) = spot.1.applies opName := rfl

theorem exists_applies (offer : PackOffer) : ∃ opName, offer.applies opName = true :=
  exists_appliesTo (recordAt (offer, 0))

theorem recordsOf_eq {read : String → Except String (Option (List CapabilityOfferV1))}
    {entry : String × CapabilityPackRecord} {own : List CapabilityOfferRecord} (h : recordsOf read entry = .ok own) :
    own = ((declared read entry.1).zipIdx.map fun (offer, idx) => ((entry, offer), idx)).map recordAt := by
  obtain ⟨ext, hext, hown⟩ := Outcome.bind_eq_ok_iff.mp h
  cases hown
  rw [declared, hext, List.map_map, List.mapIdx_eq_zipIdx_map]
  rfl

/-- A registry is built of the records of the packs' offers. -/
theorem registry_eq {read : String → Except String (Option (List CapabilityOfferV1))}
    (h : buildFromPackIndex read packIndex = .ok registry) :
    registry = ofOffers ((placed read packIndex).map recordAt) := by
  obtain ⟨records, hrecords, rfl⟩ := buildFromPackIndex_eq_ok_iff.mp h
  have hall := Outcome.forall₂_of_mapM_ok hrecords
  clear h hrecords
  congr 1
  unfold placed
  rw [List.map_flatMap]
  induction hall with
  | nil => rfl
  | cons hown _ ih => rw [List.flatten_cons, List.flatMap_cons, ih, recordsOf_eq hown]

/-- The offers of a capability that satisfy a condition are those of the packs that do, in order. -/
theorem filter_offersForCapability {read : String → Except String (Option (List CapabilityOfferV1))}
    (h : buildFromPackIndex read packIndex = .ok registry) (capId : String) (p : CapabilityOfferRecord → Bool) :
    (registry.offersForCapability capId).filter p
      = (((placed read packIndex).filter fun spot => spot.1.2.capId == capId && p (recordAt spot)).map
          recordAt).insertionSort Precedes := by
  rw [registry_eq h, offersForCapability_ofOffers, StableSort.filter_insertionSort, found, List.filter_filter,
    List.filter_map]
  refine congrArg (fun l => (List.map recordAt l).insertionSort Precedes) (List.filter_congr fun spot _ => ?_)
  exact Bool.and_comm _ _

theorem stableIdOf_of_named {offer : PackOffer} (h : offer.named = true) (packId : String) (idx idx' : Nat) :
    stableIdOf packId offer.2 idx = stableIdOf packId offer.2 idx' := by
  unfold PackOffer.named at h
  unfold stableIdOf
  cases hid : offer.2.offerId with
  | none => rw [hid] at h; cases h
  | some id =>
    rw [hid, Option.any_some, Bool.not_eq_true'] at h
    dsimp only
    rw [h, if_neg Bool.false_ne_true, if_neg Bool.false_ne_true]

/-- The id of an offer without one of its own tells its place. -/
theorem idx_eq_of_not_named {offer : PackOffer} (h : offer.named = false) (packId : String) {idx idx' : Nat}
    (hid : stableIdOf packId offer.2 idx = stableIdOf packId offer.2 idx') : idx = idx' := by
  have hsynthetic : ∀ idx, stableIdOf packId offer.2 idx
      = s!"{packId}::{offer.2.capId}::{offer.2.componentRef}::{offer.2.op}::{idx}" := by
    intro idx
    unfold PackOffer.named at h
    unfold stableIdOf
    cases hid : offer.2.offerId with
    | none => rfl
    | some id =>
      rw [hid, Option.any_some, Bool.not_eq_false'] at h
      dsimp only
      rw [if_pos h]
  rw [hsynthetic, hsynthetic] at hid
  exact Text.toString_nat_injective ((String.append_right_inj _).mp hid)

/-- The records of the offers that count depend on these and on the places of those without an id alone. -/
theorem map_recordAt_eq {l l' : List (PackOffer × Nat)} (hoffers : l.map Prod.fst = l'.map Prod.fst)
    (hplaces : l.filter (fun spot => !spot.1.named) = l'.filter fun spot => !spot.1.named) :
    l.map recordAt = l'.map recordAt := by
  induction l generalizing l' with
  | nil =>
    rw [List.map_nil, eq_comm, List.map_eq_nil_iff] at hoffers
    rw [hoffers]
  | cons spot l ih =>
    cases l' with
    | nil => cases hoffers
    | cons spot' l' =>
      obtain ⟨offer, idx⟩ := spot
      obtain ⟨offer', idx'⟩ := spot'
      obtain ⟨rfl, hrest⟩ := List.cons.inj hoffers
      rw [List.map_cons, List.map_cons]
      cases hnamed : offer.named with
      | true =>
        rw [List.filter_cons_of_neg (by simp [hnamed]), List.filter_cons_of_neg (by simp [hnamed])] at hplaces
        rw [ih hrest hplaces]
        refine congrArg (· :: _) ?_
        unfold recordAt recordOf
        simp only [stableIdOf_of_named hnamed _ idx idx']
      | false =>
        rw [List.filter_cons_of_pos (by simp [hnamed]), List.filter_cons_of_pos (by simp [hnamed])] at hplaces
        obtain ⟨hplace, hrest'⟩ := List.cons.inj hplaces
        rw [ih hrest hrest', hplace]

theorem isHook_of_stage {offer : PackOffer} {stage : HookStage} (h : offer.2.capId = stage.capId) :
    offer.isHook = true := by
  unfold PackOffer.isHook
  rw [h]
  cases stage <;> rfl

theorem exists_stage {offer : PackOffer} (h : offer.isHook = true) : ∃ stage : HookStage, offer.2.capId = stage.capId := by
  rcases Bool.or_eq_true_iff.mp h with hpre | hpost
  · exact ⟨.Pre, eq_of_beq hpre⟩
  · exact ⟨.Post, eq_of_beq hpost⟩

/-- Lists with the same images have the same elements, where none of one has the image of another of the other. -/
theorem eq_of_map_eq {α β : Type} {f : α → β} {l l' : List α} (h : l.map f = l'.map f)
    (hf : ∀ a ∈ l, ∀ b ∈ l', f a = f b → a = b) : l = l' := by
  induction l generalizing l' with
  | nil => exact (List.map_eq_nil_iff.mp h.symm).symm
  | cons a l ih =>
    cases l' with
    | nil => cases h
    | cons b l' =>
      obtain ⟨hab, hrest⟩ := List.cons.inj h
      rw [hf a List.mem_cons_self b List.mem_cons_self hab,
        ih hrest fun c hc d hd => hf c (List.mem_cons_of_mem _ hc) d (List.mem_cons_of_mem _ hd)]

theorem filter_offersOf (read : String → Except String (Option (List CapabilityOfferV1))) (p : PackOffer → Bool) :
    ((placed read packIndex).filter fun spot => p spot.1).map Prod.fst = (offersOf read packIndex).filter p := by
  rw [offersOf, List.filter_map]
  rfl

theorem Without.counts (h : Without scope packIndex fewer more) (hhooks : HooksKept packIndex fewer more) :
    (offersOf fewer packIndex).filter (·.counts scope) = (offersOf more packIndex).filter (·.counts scope) := by
  refine eq_of_sublist_of_length_filter (h.sublist.filter _) fun offer hoffer => ?_
  have hpart : ∀ p : PackOffer → Bool, (∀ offer, p offer = true → offer.counts scope = true) →
      (offersOf fewer packIndex).filter p = (offersOf more packIndex).filter p →
      (((offersOf fewer packIndex).filter (·.counts scope)).filter p).length
        = (((offersOf more packIndex).filter (·.counts scope)).filter p).length := by
    intro p hp hsame
    have hboth : ∀ offer : PackOffer, (p offer && offer.counts scope) = p offer := fun offer =>
      Bool.and_eq_left_iff_imp.mpr (hp offer)
    rw [List.filter_filter, List.filter_filter]
    simp only [hboth, hsame]
  rcases Bool.or_eq_true_iff.mp (List.mem_filter.mp hoffer).2 with hscope | hhook
  · exact ⟨(·.inScope scope), hscope, hpart _ (fun offer hin => Bool.or_eq_true_iff.mpr (.inl hin)) h.inScope⟩
  · exact ⟨PackOffer.isHook, hhook, hpart _ (fun offer his => Bool.or_eq_true_iff.mpr (.inr his)) hhooks⟩

end Registries

/-! ## Isolation -/

section Isolated

variable {host : DemoRunnerHost} {ctx : OperatorContext} {packIndex : List (String × CapabilityPackRecord)}
  {fewer more : String → Except String (Option (List CapabilityOfferV1))} {registry : CapabilityRegistry}

theorem mem_offersForCapability_iff {read : String → Except String (Option (List CapabilityOfferV1))}
    (h : buildFromPackIndex read packIndex = .ok registry) {capId : String} {offer : CapabilityOfferRecord} :
    offer ∈ registry.offersForCapability capId
      ↔ ∃ spot ∈ placed read packIndex, spot.1.2.capId = capId ∧ recordAt spot = offer := by
  have hall := filter_offersForCapability h capId fun _ => true
  rw [List.filter_true] at hall
  rw [hall, List.mem_insertionSort, List.mem_map]
  refine exists_congr fun spot => ?_
  rw [List.mem_filter, Bool.and_true, beq_iff_eq, and_assoc]

/-- Every offer with a say in the calls of a scope matches it exactly where the hooks of the packs do. -/
theorem inScope_iff (hbuild : buildFromPackIndex more packIndex = .ok registry) {scope : ResolveScope} :
    (∀ offer, Influences registry scope offer → scopeMatches offer.scope scope = true)
      ↔ HooksMatch scope packIndex more := by
  rw [influences_inScope_iff]
  constructor
  · intro h offer hoffer hhook
    obtain ⟨spot, hspot, rfl⟩ := List.mem_map.mp hoffer
    obtain ⟨stage, hstage⟩ := exists_stage hhook
    exact h stage (recordAt spot) ((mem_offersForCapability_iff hbuild).mpr ⟨spot, hspot, hstage, rfl⟩)
  · intro h stage offer hoffer
    obtain ⟨spot, hspot, hstage, rfl⟩ := (mem_offersForCapability_iff hbuild).mp hoffer
    exact h spot.1 (List.mem_map_of_mem hspot) (isHook_of_stage hstage)

/-- The records of offers of a kind that counts are the same in both. -/
theorem Kept.map_recordAt {scope : ResolveScope} (h : Kept scope packIndex fewer more)
    (hwithout : Without scope packIndex fewer more) {q : PackOffer → Bool}
    (hq : ∀ offer, q offer = true → offer.counts scope = true) :
    ((placed fewer packIndex).filter fun spot => q spot.1).map recordAt
      = ((placed more packIndex).filter fun spot => q spot.1).map recordAt := by
  have hboth : ∀ offer : PackOffer, (q offer && offer.counts scope) = q offer := fun offer =>
    Bool.and_eq_left_iff_imp.mpr (hq offer)
  refine map_recordAt_eq ?_ ?_
  · have hoffers := congrArg (List.filter q) (hwithout.counts h.hooks)
    rw [List.filter_filter, List.filter_filter] at hoffers
    simp only [hboth] at hoffers
    rw [filter_offersOf, filter_offersOf, hoffers]
  · have hplaces := congrArg (List.filter fun spot : PackOffer × Nat => q spot.1) h.places
    have hthree : ∀ offer : PackOffer, (q offer && (offer.counts scope && !offer.named)) = (!offer.named && q offer) := by
      intro offer
      rw [← Bool.and_assoc, hboth, Bool.and_comm]
    rw [List.filter_filter, List.filter_filter] at hplaces
    simp only [hthree] at hplaces
    rw [List.filter_filter, List.filter_filter]
    exact hplaces

/-- **Where the places are kept** the same is selected. -/
theorem sameSelection_of_kept (hbuild : buildFromPackIndex more packIndex = .ok host.capabilityRegistry)
    (hfewer : buildFromPackIndex fewer packIndex = .ok registry) (h : Kept (host.scopeOf ctx) packIndex fewer more)
    (hwithout : Without (host.scopeOf ctx) packIndex fewer more) : SameSelection host ctx registry := by
  constructor
  · intro capId minVersion requestedOp
    have hoffers := @Kept.map_recordAt _ _ _ _ h hwithout
      (fun offer => offer.2.capId == capId && offer.inScope (host.scopeOf ctx))
      fun offer hoffer => Bool.or_eq_true_iff.mpr (.inl (Bool.and_eq_true_iff.mp hoffer).2)
    rw [resolveForOp_eq, resolveForOp_eq, selected_eq_find_inScope, selected_eq_find_inScope,
      filter_offersForCapability hbuild, filter_offersForCapability hfewer]
    exact congrArg (fun records : List CapabilityOfferRecord => ((records.insertionSort Precedes).find? _).map _) hoffers
  · intro stage opName
    have hoffers := @Kept.map_recordAt _ _ _ _ h hwithout
      (fun offer => offer.2.capId == stage.capId && offer.applies opName)
      fun offer hoffer => Bool.or_eq_true_iff.mpr
        (.inr (isHook_of_stage (eq_of_beq (Bool.and_eq_true_iff.mp hoffer).1)))
    rw [resolveHookChain_eq, resolveHookChain_eq, hookOffers, hookOffers, filter_offersForCapability hbuild,
      filter_offersForCapability hfewer]
    simp only [appliesTo_recordAt]
    rw [hoffers]

/-- How long a hook chain is. -/
theorem length_resolveHookChain {read : String → Except String (Option (List CapabilityOfferV1))}
    (h : buildFromPackIndex read packIndex = .ok registry) (stage : HookStage) (opName : String) :
    (registry.resolveHookChain stage opName).length
      = ((offersOf read packIndex).filter fun offer =>
          offer.2.capId == stage.capId && offer.applies opName).length := by
  rw [resolveHookChain_eq, List.length_map, hookOffers, filter_offersForCapability h, List.length_insertionSort,
    List.length_map, ← filter_offersOf, List.length_map]
  simp only [appliesTo_recordAt]

/-- **No hook is left out** where the hook chains stay the same. -/
theorem hooksKept_of_sameSelection (hbuild : buildFromPackIndex more packIndex = .ok host.capabilityRegistry)
    (hfewer : buildFromPackIndex fewer packIndex = .ok registry) (hsame : SameSelection host ctx registry)
    (hwithout : Without (host.scopeOf ctx) packIndex fewer more) : HooksKept packIndex fewer more := by
  refine eq_of_sublist_of_length_filter (hwithout.sublist.filter _) fun offer hoffer => ?_
  obtain ⟨stage, hstage⟩ := exists_stage (List.mem_filter.mp hoffer).2
  obtain ⟨opName, happlies⟩ := exists_applies offer
  refine ⟨fun offer => offer.2.capId == stage.capId && offer.applies opName,
    Bool.and_eq_true_iff.mpr ⟨beq_iff_eq.mpr hstage, happlies⟩, ?_⟩
  have hhook : ∀ offer : PackOffer, (offer.2.capId == stage.capId && offer.applies opName && offer.isHook)
      = (offer.2.capId == stage.capId && offer.applies opName) := by
    intro offer
    refine Bool.and_eq_left_iff_imp.mpr fun hboth => ?_
    exact @isHook_of_stage offer stage (eq_of_beq (Bool.and_eq_true_iff.mp hboth).1)
  have hlength := congrArg List.length (hsame.chains stage opName)
  rw [length_resolveHookChain hfewer, length_resolveHookChain hbuild] at hlength
  rw [List.filter_filter, List.filter_filter]
  simp only [hhook]
  exact hlength

/-- The one offer of a capability that counts is what its capability resolves to, or the hook of its stage. -/
theorem stableId_of_sole {read : String → Except String (Option (List CapabilityOfferV1))} {scope : ResolveScope}
    (h : buildFromPackIndex read packIndex = .ok registry) (hsole : Sole scope packIndex read)
    {spot : PackOffer × Nat} (hspot : spot ∈ placed read packIndex) :
    (spot.1.inScope scope = true → (registry.resolveForOp spot.1.2.capId none scope none).map CapabilityBinding.stableId
        = some (recordAt spot).stableId)
    ∧ ∀ stage : HookStage, spot.1.2.capId = stage.capId → ∀ opName, spot.1.applies opName = true →
      (registry.resolveHookChain stage opName).map CapabilityBinding.stableId = [(recordAt spot).stableId] := by
  -- A part of the offers of the capability that count is the one offer, where it is in that part.
  have hone : ∀ q : PackOffer → Bool, (∀ offer, q offer = true → offer.counts scope = true) → q spot.1 = true →
      ((placed read packIndex).filter fun other => other.1.2.capId == spot.1.2.capId && q other.1) = [spot] := by
    intro q hq hself
    have hmem : spot ∈ (placed read packIndex).filter fun other => other.1.2.capId == spot.1.2.capId && q other.1 :=
      List.mem_filter.mpr ⟨hspot, by simp [hself]⟩
    have hlength : ((placed read packIndex).filter fun other => other.1.2.capId == spot.1.2.capId && q other.1).length
        ≤ 1 := by
      refine Nat.le_trans ?_ (hsole spot.1.2.capId)
      rw [← filter_offersOf, List.length_map]
      refine (List.monotone_filter_right _ fun other hother => ?_).length_le
      obtain ⟨hcap, hother⟩ := Bool.and_eq_true_iff.mp hother
      exact Bool.and_eq_true_iff.mpr ⟨hq _ hother, hcap⟩
    obtain ⟨other, hother⟩ := List.length_eq_one_iff.mp (Nat.le_antisymm hlength (List.length_pos_of_mem hmem))
    rw [hother, List.mem_singleton] at hmem
    rw [hother, hmem]
  constructor
  · intro hscope
    have hspot := hone (·.inScope scope) (fun offer hin => Bool.or_eq_true_iff.mpr (.inl hin)) hscope
    have hfiltered : (registry.offersForCapability spot.1.2.capId).filter (fun offer => scopeMatches offer.scope scope)
        = [recordAt spot] := by
      rw [filter_offersForCapability h]
      exact congrArg (fun spots => (List.map recordAt spots).insertionSort Precedes) hspot
    rw [resolveForOp_eq, selected_eq_find_inScope, hfiltered]
    rfl
  · intro stage hstage opName happlies
    have hhook := isHook_of_stage hstage
    have hspot := hone (fun offer => offer.isHook && offer.applies opName)
      (fun offer hboth => Bool.or_eq_true_iff.mpr (.inr (Bool.and_eq_true_iff.mp hboth).1))
      (Bool.and_eq_true_iff.mpr ⟨hhook, happlies⟩)
    have hfiltered : (registry.offersForCapability stage.capId).filter (appliesTo opName) = [recordAt spot] := by
      have hsame : ∀ other : PackOffer × Nat, (other.1.2.capId == stage.capId && other.1.applies opName)
          = (other.1.2.capId == spot.1.2.capId && (other.1.isHook && other.1.applies opName)) := by
        intro other
        rw [hstage]
        cases hcap : other.1.2.capId == stage.capId with
        | false => rfl
        | true => rw [@isHook_of_stage other.1 stage (eq_of_beq hcap), Bool.true_and, Bool.true_and]
      rw [filter_offersForCapability h]
      simp only [appliesTo_recordAt, hsame]
      rw [hspot]
      rfl
    rw [resolveHookChain_eq, hookOffers, hfiltered]
    rfl

/-- **Where one offer of a capability counts**, it keeps its place where the same is selected. -/
theorem kept_of_sameSelection (hbuild : buildFromPackIndex more packIndex = .ok host.capabilityRegistry)
    (hfewer : buildFromPackIndex fewer packIndex = .ok registry) (hsame : SameSelection host ctx registry)
    (hwithout : Without (host.scopeOf ctx) packIndex fewer more) (hsole : Sole (host.scopeOf ctx) packIndex more) :
    Kept (host.scopeOf ctx) packIndex fewer more := by
  have hhooks := hooksKept_of_sameSelection hbuild hfewer hsame hwithout
  have hcounts := hwithout.counts hhooks
  have hsole' : Sole (host.scopeOf ctx) packIndex fewer := by
    intro capId
    have hpart := congrArg (List.filter fun offer : PackOffer => offer.2.capId == capId) hcounts
    rw [List.filter_filter, List.filter_filter] at hpart
    have hlength := hsole capId
    simp only [Bool.and_comm, hpart] at hlength ⊢
    exact hlength
  refine ⟨hhooks, ?_⟩
  -- The offers that count are the same one by one, and so are their places.
  have hplaces : ∀ spot ∈ placed fewer packIndex, ∀ spot' ∈ placed more packIndex, spot.1 = spot'.1 →
      spot.1.counts (host.scopeOf ctx) = true → spot.1.named = false → spot = spot' := by
    rintro ⟨offer, idx⟩ hspot ⟨offer', idx'⟩ hspot' heq hcount hnamed
    obtain rfl : offer = offer' := heq
    obtain ⟨hin, hhook⟩ := stableId_of_sole hfewer hsole' hspot
    obtain ⟨hin', hhook'⟩ := stableId_of_sole hbuild hsole hspot'
    refine congrArg (Prod.mk offer) (idx_eq_of_not_named hnamed offer.1.2.packId ?_)
    rcases Bool.or_eq_true_iff.mp hcount with hscope | his
    · have hboth := (hin hscope).symm.trans ((congrArg (Option.map CapabilityBinding.stableId)
        (hsame.resolved offer.2.capId none none)).trans (hin' hscope))
      exact Option.some.inj hboth
    · obtain ⟨stage, hstage⟩ := exists_stage his
      obtain ⟨opName, happlies⟩ := exists_applies offer
      have hboth := (hhook stage hstage opName happlies).symm.trans
        ((congrArg (List.map CapabilityBinding.stableId) (hsame.chains stage opName)).trans
          (hhook' stage hstage opName happlies))
      exact (List.cons.inj hboth).1
  refine eq_of_map_eq (f := Prod.fst) ?_ fun spot hspot spot' hspot' heq => ?_
  · have hpart := congrArg (List.filter fun offer : PackOffer => !offer.named) hcounts
    rw [filter_offersOf fewer fun offer => offer.counts (host.scopeOf ctx) && !offer.named,
      filter_offersOf more fun offer => offer.counts (host.scopeOf ctx) && !offer.named]
    simpa only [List.filter_filter, Bool.and_comm] using hpart
  · obtain ⟨hmem, hkind⟩ := List.mem_filter.mp hspot
    obtain ⟨hcount, hnamed⟩ := Bool.and_eq_true_iff.mp hkind
    exact hplaces spot hmem spot' (List.mem_filter.mp hspot').1 heq hcount (by simpa using hnamed)

end Isolated

/-- **A scope isolates its calls** but for two things: every offer with a say in them matches the scope exactly where
the hooks of the packs do, and leaving out (or adding) offers of other scopes changes nothing where none of them is a
hook's and each offer without an id keeps its place. It does change something where a hook's is left out, and, where
there is one offer of a capability, where a place is not kept. -/
theorem isolated_iff (host : DemoRunnerHost) (ctx : OperatorContext) (packIndex : List (String × CapabilityPackRecord))
    (more : String → Except String (Option (List CapabilityOfferV1)))
    (hbuild : buildFromPackIndex more packIndex = .ok host.capabilityRegistry) :
    ((∀ offer, Influences host.capabilityRegistry (host.scopeOf ctx) offer →
        scopeMatches offer.scope (host.scopeOf ctx) = true)
      ↔ HooksMatch (host.scopeOf ctx) packIndex more)
    ∧ ∀ fewer registry, buildFromPackIndex fewer packIndex = .ok registry →
      Without (host.scopeOf ctx) packIndex fewer more →
        (Kept (host.scopeOf ctx) packIndex fewer more → Unchanged host ctx registry)
        ∧ (Unchanged host ctx registry → HooksKept packIndex fewer more)
        ∧ (Sole (host.scopeOf ctx) packIndex more →
          (Unchanged host ctx registry ↔ Kept (host.scopeOf ctx) packIndex fewer more)) := by
  refine ⟨inScope_iff hbuild, fun fewer registry hfewer hwithout => ?_⟩
  have hunchanged : Kept (host.scopeOf ctx) packIndex fewer more → Unchanged host ctx registry := fun hkept =>
    have hsame := sameSelection_of_kept hbuild hfewer hkept hwithout
    ⟨hsame, invoke_withOffers hsame⟩
  exact ⟨hunchanged, fun h => hooksKept_of_sameSelection hbuild hfewer h.toSameSelection hwithout,
    fun hsole => ⟨fun h => kept_of_sameSelection hbuild hfewer h.toSameSelection hwithout hsole, hunchanged⟩⟩

/-! ## An offer that is left out -/

def demoIndex : List (String × CapabilityPackRecord) := [(demoPack.path, ⟨demoPack.packId, .OAuth⟩)]

def demoRead (offers : List CapabilityOfferV1) (_ : String) : Except String (Option (List CapabilityOfferV1)) :=
  .ok (some offers)

theorem demo_build (offers : List CapabilityOfferV1) :
    buildFromPackIndex (demoRead offers) demoIndex = .ok (demoHost offers).capabilityRegistry := rfl

/-- A hook that is for another tenant only. -/
def foreignHook : CapabilityOfferV1 := demoOffer "hook" capOpHookPre "hook.evaluate" (some ⟨[], ["other"], []⟩)

/-- An offer for another tenant, and one for all, which is to be set up and has no id. -/
def foreignState : CapabilityOfferV1 := demoOffer "other" "cap.state" "get" (some ⟨[], ["other"], []⟩)

def unnamedState : CapabilityOfferV1 :=
  { demoOffer "" "cap.state" "get" none with offerId := none, requiresSetup := true }

/-- A bundle in which that offer is installed, where it is the second of its pack. -/
def stateInstalled : ProviderSurroundings :=
  { demoReplies (answered (.object [])) with
    disk := (writeInstallRecord (.empty "bundle") .done demoCtx.tenant demoCtx.team
      (.ready "cap.state" (stableIdOf demoPack.packId unnamedState 1) demoPack.packId 0)).1 }

/-- A hook for another tenant has a say in the calls of a tenant; and an offer that is installed is not any more, where
one for another tenant before it is left out. -/
theorem foreign_offers_influence :
    (¬∀ (host : DemoRunnerHost) (ctx : OperatorContext) (packIndex : List (String × CapabilityPackRecord))
      (more : String → Except String (Option (List CapabilityOfferV1))),
      buildFromPackIndex more packIndex = .ok host.capabilityRegistry → Isolated host ctx packIndex more)
    ∧ ¬HooksMatch ((demoHost [foreignHook]).scopeOf demoCtx) demoIndex (demoRead [foreignHook])
    ∧ HooksMatch ((demoHost [foreignState, unnamedState]).scopeOf demoCtx) demoIndex
        (demoRead [foreignState, unnamedState])
    ∧ Without ((demoHost [foreignState, unnamedState]).scopeOf demoCtx) demoIndex (demoRead [unnamedState])
        (demoRead [foreignState, unnamedState])
    ∧ ¬Unchanged (demoHost [foreignState, unnamedState]) demoCtx (demoHost [unnamedState]).capabilityRegistry := by
  have hhook : ¬HooksMatch ((demoHost [foreignHook]).scopeOf demoCtx) demoIndex (demoRead [foreignHook]) := fun h =>
    absurd (h ((demoIndex.head (by decide)), foreignHook) (by decide) (by decide)) (by decide)
  refine ⟨fun h => hhook ((inScope_iff (demo_build _)).mp (h _ _ _ _ (demo_build _)).inScope), hhook, ?_,
    ⟨List.sublist_cons_self _ _, by decide⟩, fun h => ?_⟩
  · have hall : (offersOf (demoRead [foreignState, unnamedState]) demoIndex).all (!·.isHook) = true := by decide
    intro offer hoffer his
    have hnot := List.all_eq_true.mp hall offer hoffer
    rw [his] at hnot
    cases hnot
  · have hcall := congrArg (fun call => (Eff.result call).toOption.map FlowOutcome.success)
      (h.calls stateInstalled (.capability "cap.state" "get") [])
    exact absurd hcall (by decide +kernel)

/-- The hook of the other tenant may deny the operation. -/
example :
    (Eff.result (invoke (demoHost [foreignHook])
      (demoReplies (answered (.object [("decision", .string "deny")])))
      (.providerOp .Messaging "messaging.demo" "send_payload") [] demoCtx)).toOption.map FlowOutcome.success
      = some false := by
  decide +kernel

/-- An offer with an id stays where one for another tenant before it is left out. -/
theorem isolated_named :
    Unchanged (demoHost [foreignState, demoValidator]) demoCtx (demoHost [demoValidator]).capabilityRegistry := by
  have hboth := isolated_iff (demoHost [foreignState, demoValidator]) demoCtx demoIndex _ (demo_build _)
  have hwithout : Without ((demoHost [foreignState, demoValidator]).scopeOf demoCtx) demoIndex (demoRead [demoValidator])
      (demoRead [foreignState, demoValidator]) := ⟨List.sublist_cons_self _ _, by decide⟩
  exact (hboth.2 (demoRead [demoValidator]) _ (demo_build _) hwithout).1 ⟨rfl, by decide⟩

end RunnerHost
