import GreenticOperator.Capabilities.Registry

/-!
# What has a say in a call

A capability resolves to an offer that matches the caller's scope (`selected`), and what it resolves to
depends on the offers in scope only (`selected_eq_find_inScope`). The hooks of a stage are taken whatever
their scope (`hookOffers`): every offer with a say in the calls of a scope matches it exactly where all the
hooks do (`influences_inScope_iff`).
-/

namespace Capabilities

namespace CapabilityRegistry

/-- The offer that is resolved to. -/
def selected (registry : CapabilityRegistry) (capId : String) (minVersion : Option String)
    (scope : ResolveScope) (requestedOp : Option String) : Option CapabilityOfferRecord :=
  (registry.offersForCapability capId).find? fun offer =>
    versionMatches offer.version minVersion && scopeMatches offer.scope scope
      && opMatches offer requestedOp

/-- The offers a hook chain is made of. -/
def hookOffers (registry : CapabilityRegistry) (stage : HookStage) (opName : String) :
    List CapabilityOfferRecord :=
  (registry.offersForCapability stage.capId).filter (appliesTo opName)

theorem resolveForOp_eq (registry : CapabilityRegistry) (capId : String) (minVersion : Option String)
    (scope : ResolveScope) (requestedOp : Option String) :
    registry.resolveForOp capId minVersion scope requestedOp
      = (registry.selected capId minVersion scope requestedOp).map CapabilityOfferRecord.binding := by
  unfold resolveForOp selected offersForCapability
  cases registry.byCapId.lookup capId with
  | none => rfl
  | some offers => exact Option.map_eq_bind.symm

theorem resolveHookChain_eq (registry : CapabilityRegistry) (stage : HookStage) (opName : String) :
    registry.resolveHookChain stage opName
      = (registry.hookOffers stage opName).map CapabilityOfferRecord.binding := by
  unfold resolveHookChain hookOffers offersForCapability
  cases registry.byCapId.lookup stage.capId <;> rfl

/-- An offer has a say in the calls of a scope where one of them resolves to it or has it as
a hook. -/
inductive Influences (registry : CapabilityRegistry) (scope : ResolveScope) (offer : CapabilityOfferRecord) :
    Prop
  | selected (capId : String) (minVersion requestedOp : Option String)
      (h : registry.selected capId minVersion scope requestedOp = some offer)
  | hook (stage : HookStage) (opName : String) (h : offer ∈ registry.hookOffers stage opName)

/-- Every offer of a hook matches a scope. -/
def HooksInScope (registry : CapabilityRegistry) (scope : ResolveScope) : Prop :=
  ∀ stage : HookStage, ∀ offer ∈ registry.offersForCapability stage.capId,
    scopeMatches offer.scope scope = true

variable {registry : CapabilityRegistry} {scope : ResolveScope}

/-! ## Resolving -/

theorem scopeMatches_of_selected {capId : String} {minVersion requestedOp : Option String}
    {offer : CapabilityOfferRecord} (h : registry.selected capId minVersion scope requestedOp = some offer) :
    scopeMatches offer.scope scope = true := by
  have hfound := List.find?_some h
  simp only [Bool.and_eq_true] at hfound
  exact hfound.1.2

/-- What is resolved to depends on the offers in scope only. -/
theorem selected_eq_find_inScope (registry : CapabilityRegistry) (capId : String) (minVersion : Option String)
    (scope : ResolveScope) (requestedOp : Option String) :
    registry.selected capId minVersion scope requestedOp
      = ((registry.offersForCapability capId).filter fun offer => scopeMatches offer.scope scope).find?
        fun offer => versionMatches offer.version minVersion && opMatches offer requestedOp := by
  rw [List.find?_filter]
  unfold selected
  congr 1
  funext offer
  cases versionMatches offer.version minVersion <;> cases scopeMatches offer.scope scope <;>
    cases opMatches offer requestedOp <;> rfl

/-! ## Hook chains -/

theorem exists_appliesTo (offer : CapabilityOfferRecord) : ∃ opName, appliesTo opName offer = true := by
  unfold appliesTo
  cases offer.appliesToOps with
  | nil => exact ⟨"", rfl⟩
  | cons opName rest =>
    refine ⟨opName, ?_⟩
    rw [List.any_cons, beq_self_eq_true]
    rfl

/-- Every offer with a say matches the scope exactly where the hooks do. -/
theorem influences_inScope_iff :
    (∀ offer, Influences registry scope offer → scopeMatches offer.scope scope = true)
      ↔ HooksInScope registry scope := by
  constructor
  · intro h stage offer hoffer
    obtain ⟨opName, happlies⟩ := exists_appliesTo offer
    exact h offer (.hook stage opName (List.mem_filter.mpr ⟨hoffer, happlies⟩))
  · intro h offer hinfluences
    cases hinfluences with
    | selected capId minVersion requestedOp hselected => exact scopeMatches_of_selected hselected
    | hook stage opName hoffer => exact h stage offer (List.mem_filter.mp hoffer).1

/-- A sublist is the whole list where each element satisfies a predicate under which no
element is missing. -/
theorem eq_of_sublist_of_length_filter {α : Type} [DecidableEq α] {l whole : List α}
    (h : List.Sublist l whole)
    (hfilter : ∀ a ∈ whole, ∃ p : α → Bool, p a = true ∧ (l.filter p).length = (whole.filter p).length) :
    l = whole := by
  refine h.eq_of_length (List.Perm.length_eq (List.perm_iff_count.mpr fun a => ?_))
  by_cases ha : a ∈ whole
  · obtain ⟨p, hp, hlength⟩ := hfilter a ha
    have hsame := (h.filter p).eq_of_length hlength
    rw [← List.count_filter hp, hsame, List.count_filter hp]
  · rw [List.count_eq_zero_of_not_mem ha, List.count_eq_zero_of_not_mem fun hmem => ha (h.subset hmem)]

end CapabilityRegistry

end Capabilities
