import GreenticOperator.Cli.CapabilityCall
import GreenticOperator.Laws.Capabilities.Order
import GreenticOperator.Laws.RunnerHost.Gate

/-!
# The capability that is validated and the one that is invoked

A call validates against a callable of the catalog, and invokes what its capability resolves to
for the op it passes on. The two are one offer exactly where the op finds that offer before any
other of the capability, and is the op of its provider (`validatedIsInvoked_iff`).
-/

namespace Cli

open Capabilities RunnerHost

variable {host : DemoRunnerHost} {s : Surroundings} {ctx : OperatorContext} {capId op : String}

/-! ## Routes -/

/-- The binding that `invoke_capability` resolves; an OAuth broker takes its own ops only. -/
def resolvedBinding (host : DemoRunnerHost) (capId op : String) (ctx : OperatorContext) : Option CapabilityBinding :=
  if capId == capOauthBrokerV1 && !isOauthBrokerOperation (Text.trim op) then none
  else if (Text.trim op).isEmpty then host.resolveCapability capId none (host.scopeOf ctx)
  else host.capabilityRegistry.resolveForOp capId none (host.scopeOf ctx) (some (Text.trim op))

/-- The op that a route has for a binding. -/
def targetOp (capId op : String) (binding : CapabilityBinding) : String :=
  if capId == capOauthBrokerV1 || (Text.trim op).isEmpty then binding.providerOp else Text.trim op

theorem isOauthBrokerOperation_empty {op : String} (h : op.isEmpty = true) : isOauthBrokerOperation op = false := by
  rw [String.isEmpty_iff.mp h]
  decide

/-- The ops of a broker that are refused are refused before anything is resolved. -/
theorem routeCapability_refused (h : (capId == capOauthBrokerV1 && !isOauthBrokerOperation (Text.trim op)) = true) :
    ∃ outcome, host.routeCapability s capId op ctx = .ok (.inl outcome) := by
  unfold DemoRunnerHost.routeCapability
  dsimp only
  split
  next => exact ⟨_, rfl⟩
  next => exact ⟨_, rfl⟩

theorem routeCapability_eq (h : ¬(capId == capOauthBrokerV1 && !isOauthBrokerOperation (Text.trim op)) = true) :
    host.routeCapability s capId op ctx = match resolvedBinding host capId op ctx with
      | none => .ok (.inl (missingCapabilityOutcome capId op none))
      | some binding =>
        match isBindingReady s.disk ctx.tenant ctx.team binding with
        | .error e => .error e
        | .ok false => .ok (.inl (capabilityNotInstalledOutcome capId op binding.stableId))
        | .ok true =>
          match host.packsByPath binding.packPath with
          | none => .ok (.inl (capabilityRouteErrorOutcome capId op
              s!"resolved pack not found at {binding.packPath}"))
          | some pack => .ok (.inr ⟨binding, pack, targetOp capId op binding⟩) := by
  have hempty : ¬(capId == capOauthBrokerV1 && (Text.trim op).isEmpty) = true := by
    intro hempty
    obtain ⟨hcap, hempty⟩ := Bool.and_eq_true_iff.mp hempty
    refine h ?_
    rw [hcap, isOauthBrokerOperation_empty hempty]
    rfl
  unfold DemoRunnerHost.routeCapability resolvedBinding
  dsimp only
  rw [if_neg hempty, if_neg h, if_neg h]
  rfl

/-- **Where a call is routed to**: the resolved binding, once it is ready and its pack is at hand. -/
theorem routeCapability_inr_iff {route : DemoRunnerHost.Route} :
    host.routeCapability s capId op ctx = .ok (.inr route)
      ↔ resolvedBinding host capId op ctx = some route.binding
        ∧ isBindingReady s.disk ctx.tenant ctx.team route.binding = .ok true
        ∧ host.packsByPath route.binding.packPath = some route.pack
        ∧ route.targetOp = targetOp capId op route.binding := by
  by_cases hbroker : (capId == capOauthBrokerV1 && !isOauthBrokerOperation (Text.trim op)) = true
  · obtain ⟨outcome, hrefused⟩ := routeCapability_refused hbroker
    rw [hrefused, resolvedBinding, if_pos hbroker]
    simp
  rw [routeCapability_eq hbroker]
  cases resolvedBinding host capId op ctx with
  | none => simp
  | some binding =>
    simp only [Option.some.injEq]
    constructor
    · intro h
      split at h
      next => cases h
      next => cases h
      next hready =>
        split at h
        next => cases h
        next hpack =>
          obtain rfl := Sum.inr.inj (Except.ok.inj h)
          exact ⟨rfl, hready, hpack, rfl⟩
    · rintro ⟨rfl, hready, hpack, htarget⟩
      simp only [hready, hpack, ← htarget]

/-! ## Finding a callable -/

/-- The op that is asked for, if any is. -/
def opAsked (op : String) : Option String := if (Text.trim op).isEmpty then none else some (Text.trim op)

/-- **What is resolved** is the first offer of the catalog that is asked for. -/
theorem resolvedBinding_eq_head (hwf : host.capabilityRegistry.WellFormed) (ctx : OperatorContext)
    (capId op : String) :
    resolvedBinding host capId op ctx
      = if capId == capOauthBrokerV1 && !isOauthBrokerOperation (Text.trim op) then none
        else ((host.capabilityRegistry.offersInScope (host.scopeOf ctx)).find?
          (CapabilityRegistry.asked capId none (opAsked op))).map CapabilityOfferRecord.binding := by
  unfold resolvedBinding opAsked
  split
  next => rfl
  next =>
    rw [← List.head?_filter]
    split
    next => exact hwf.resolveForOp_eq_head capId none (host.scopeOf ctx) none
    next => exact hwf.resolveForOp_eq_head capId none (host.scopeOf ctx) (some (Text.trim op))

/-! ## One offer -/

/-- A binding of the offer that a callable was made of. -/
structure SameOffer (binding : CapabilityBinding) (callable : ResolvedCallableRecord) : Prop where
  stableId : binding.stableId = callable.stableId
  packId : binding.packId = callable.packId
  packPath : binding.packPath = callable.packPath

/-- What a call validates against is what it invokes: the op that is passed on resolves to the offer
of the callable, and its provider is reached with the callable's own op. -/
structure InvokesCallable (host : DemoRunnerHost) (s : Surroundings) (ctx : OperatorContext)
    (callable : ResolvedCallableRecord) (op : String) : Prop where
  resolved : ∃ binding, resolvedBinding host callable.capabilityId op ctx = some binding ∧ SameOffer binding callable
  reached : ∀ route, host.routeCapability s callable.capabilityId op ctx = .ok (.inr route) →
    route.targetOp = callable.providerOp

/-- **The capability that is validated is the one that is invoked**, in a call that finds a callable. -/
def ValidatedIsInvoked (host : DemoRunnerHost) (s : Surroundings) (ctx : OperatorContext)
    (capId operation : String) : Prop :=
  ∀ callable, findCallable (callablesOf host ctx) capId operation = some callable →
    InvokesCallable host s ctx callable (requestedOp callable operation)

/-- An op finds the offer of a callable: it is no foreign op of an OAuth broker, the offer is the
first in scope that applies to it, and, where the offer is ready and its pack at hand, it is the op
of the callable's provider, or leaves the choice to a provider with that op. -/
def FindsOffer (host : DemoRunnerHost) (s : Surroundings) (ctx : OperatorContext)
    (callable : ResolvedCallableRecord) (op : String) : Prop :=
  (callable.capabilityId = capOauthBrokerV1 → isOauthBrokerOperation (Text.trim op) = true)
    ∧ ∃ before offer after,
        host.capabilityRegistry.offersInScope (host.scopeOf ctx) = before ++ offer :: after
        ∧ (∀ other ∈ before, CapabilityRegistry.asked callable.capabilityId none (opAsked op) other = false)
        ∧ CapabilityRegistry.asked callable.capabilityId none (opAsked op) offer = true
        ∧ SameOffer offer.binding callable
        ∧ (isBindingReady s.disk ctx.tenant ctx.team offer.binding = .ok true →
            (host.packsByPath offer.packPath).isSome = true →
            targetOp callable.capabilityId op offer.binding = callable.providerOp)

theorem invokesCallable_iff (hwf : host.capabilityRegistry.WellFormed) (s : Surroundings) (ctx : OperatorContext)
    (callable : ResolvedCallableRecord) (op : String) :
    InvokesCallable host s ctx callable op ↔ FindsOffer host s ctx callable op := by
  have hhead := resolvedBinding_eq_head hwf ctx callable.capabilityId op
  constructor
  · rintro ⟨⟨binding, hbinding, hsame⟩, hreached⟩
    rw [hbinding] at hhead
    split at hhead
    next => cases hhead
    next hbroker =>
      obtain ⟨offer, hoffer, rfl⟩ := Option.map_eq_some_iff.mp hhead.symm
      obtain ⟨hasked, before, after, hsplit, hbefore⟩ := List.find?_eq_some_iff_append.mp hoffer
      refine ⟨fun hcap => ?_, before, offer, after, hsplit, fun other hmem => by simpa using hbefore other hmem,
        hasked, hsame, fun hready hpack => ?_⟩
      · simpa [hcap] using hbroker
      · obtain ⟨pack, hpack⟩ := Option.isSome_iff_exists.mp hpack
        exact hreached ⟨offer.binding, pack, _⟩ (routeCapability_inr_iff.mpr ⟨hbinding, hready, hpack, rfl⟩)
  · rintro ⟨hbroker, before, offer, after, hsplit, hbefore, hasked, hsame, htarget⟩
    have hoffer : (host.capabilityRegistry.offersInScope (host.scopeOf ctx)).find?
        (CapabilityRegistry.asked callable.capabilityId none (opAsked op)) = some offer :=
      List.find?_eq_some_iff_append.mpr ⟨hasked, before, after, hsplit, fun other hmem => by
        rw [hbefore other hmem]; rfl⟩
    rw [hoffer, if_neg] at hhead
    · refine ⟨⟨offer.binding, hhead, hsame⟩, fun route hroute => ?_⟩
      obtain ⟨hbinding, hready, hpack, hop⟩ := routeCapability_inr_iff.mp hroute
      have heq : offer.binding = route.binding := Option.some.inj (hhead.symm.trans hbinding)
      rw [hop, ← heq]
      refine htarget (heq ▸ hready) ?_
      rw [← show route.binding.packPath = offer.packPath from heq ▸ rfl, hpack]
      rfl
    · intro h
      obtain ⟨hcap, hforeign⟩ := Bool.and_eq_true_iff.mp h
      rw [hbroker (eq_of_beq hcap)] at hforeign
      cases hforeign

/-- **A call validates against what it invokes** exactly where the op it passes on finds the offer of
its callable. -/
theorem validatedIsInvoked_iff {reader : String → Except String (Option (List CapabilityOfferV1))}
    {packIndex : List (String × CapabilityPackRecord)} (host : DemoRunnerHost)
    (hbuild : CapabilityRegistry.buildFromPackIndex reader packIndex = .ok host.capabilityRegistry)
    (s : Surroundings) (ctx : OperatorContext) (capId operation : String) :
    ValidatedIsInvoked host s ctx capId operation
      ↔ ∀ callable, findCallable (callablesOf host ctx) capId operation = some callable →
        FindsOffer host s ctx callable (requestedOp callable operation) :=
  forall₂_congr fun callable _ =>
    invokesCallable_iff (CapabilityRegistry.wellFormed_of_build hbuild) s ctx callable _

/-! ## What a call reaches -/

/-- Every target that is called is called with an op. -/
def CallsTarget (opId : String) (log log' : Log) : Prop :=
  ∀ call reply, Event.invoke .target call reply ∈ log' → Event.invoke .target call reply ∈ log ∨ call.opId = opId

section CallsTarget

variable {opId : String} {α β : Type}

theorem CallsTarget.refl (log : Log) : CallsTarget opId log log := fun _ _ h => .inl h

theorem CallsTarget.trans {a b c : Log} (h : CallsTarget opId a b) (h' : CallsTarget opId b c) :
    CallsTarget opId a c := by
  intro call reply hmem
  rcases h' call reply hmem with hmem | hop
  · exact h call reply hmem
  · exact .inr hop

theorem moves_bind {x : Eff Log α} {f : α → Eff Log β} (hx : Eff.Moves (CallsTarget opId) x)
    (hf : ∀ a, Eff.Moves (CallsTarget opId) (f a)) : Eff.Moves (CallsTarget opId) (x >>= f) :=
  Eff.Moves.bind (fun h h' => h.trans h') hx hf

theorem moves_pure (a : α) : Eff.Moves (CallsTarget opId) (pure a : Eff Log α) :=
  Eff.Moves.pure CallsTarget.refl a

theorem moves_lift (x : Except String α) : Eff.Moves (CallsTarget opId) (Eff.lift x : Eff Log α) :=
  Eff.Moves.lift CallsTarget.refl x

/-- An event that calls no target, or calls it with the op. -/
theorem moves_record {event : Event} (h : ∀ call reply, event = .invoke .target call reply → call.opId = opId) :
    Eff.Moves (CallsTarget opId) (record event) := by
  intro log call reply hmem
  rcases List.mem_append.mp hmem with hmem | hmem
  · exact .inl hmem
  · exact .inr (h call reply (List.mem_singleton.mp hmem).symm)

theorem moves_invoke {purpose : Purpose} {call : ComponentCall} (reply : Except String FlowOutcome)
    (h : purpose = .target → call.opId = opId) :
    Eff.Moves (CallsTarget opId) (invokeProviderComponentOp purpose call reply) := by
  refine moves_bind (moves_record fun call' reply' heq => ?_) fun _ => moves_lift reply
  obtain ⟨rfl, rfl, -⟩ := Event.invoke.inj heq
  exact h rfl

theorem moves_evaluateHooks (stage : HookStage) (i : Nat) (chain : List CapabilityBinding)
    (envelope : OperationEnvelope) :
    Eff.Moves (CallsTarget opId) (host.evaluateHooks s stage i chain envelope) := by
  induction chain generalizing i envelope with
  | nil => exact moves_pure _
  | cons binding chain ih =>
    unfold DemoRunnerHost.evaluateHooks
    split
    next => exact ih _ _
    next =>
      split
      next => exact Eff.Moves.lift CallsTarget.refl (Except.error _)
      next =>
        refine moves_bind (moves_invoke _ fun h => by cases h) fun outcome => ?_
        dsimp only
        split
        next => exact moves_pure _
        next => exact ih _ _

theorem moves_evaluateHookChain (chain : List CapabilityBinding) (stage : HookStage)
    (envelope : OperationEnvelope) :
    Eff.Moves (CallsTarget opId) (host.evaluateHookChain s chain stage envelope) :=
  moves_bind (moves_record fun _ _ h => by cases h) fun _ => moves_evaluateHooks _ _ _ _

theorem moves_gate (envelope : OperationEnvelope) (payloadBytes : List UInt8) (ctx : OperatorContext) :
    Eff.Moves (CallsTarget opId) (host.evaluateTokenValidationPreHook s envelope payloadBytes ctx) := by
  unfold DemoRunnerHost.evaluateTokenValidationPreHook
  split
  next => exact moves_pure _
  next =>
    split
    next => exact moves_pure _
    next =>
      split
      next => exact moves_pure _
      next =>
        refine moves_bind (moves_lift _) fun ready => ?_
        cases ready with
        | false => exact moves_pure _
        | true =>
          rw [if_pos rfl]
          split
          next => exact moves_pure _
          next =>
            refine moves_bind (moves_invoke _ fun h => by cases h) fun outcome => ?_
            dsimp only
            split
            next => exact moves_pure _
            next => exact moves_pure _

theorem moves_passToCapability {route : DemoRunnerHost.Route} (hroute : route.targetOp = opId) (payloadBytes : List UInt8) (ctx : OperatorContext) (envelope : OperationEnvelope) :
    Eff.Moves (CallsTarget opId) (host.passToCapability s route payloadBytes ctx envelope) := by
  refine moves_bind (moves_record fun _ _ h => by cases h) fun _ => ?_
  refine moves_bind (moves_invoke _ fun _ => hroute) fun outcome => ?_
  exact moves_bind (moves_evaluateHookChain _ _ _) fun _ => moves_pure _

/-- **A capability call** calls its target with the op of its route. -/
theorem moves_invokeCapability (payloadBytes : List UInt8)
    (hroute : ∀ route, host.routeCapability s capId op ctx = .ok (.inr route) → route.targetOp = opId) :
    Eff.Moves (CallsTarget opId) (host.invokeCapability s capId op payloadBytes ctx) := by
  unfold DemoRunnerHost.invokeCapability
  intro log
  rw [Eff.bind_run, Eff.lift_run]
  cases hrouted : host.routeCapability s capId op ctx with
  | error message => exact CallsTarget.refl log
  | ok routed =>
    cases routed with
    | inl outcome => exact CallsTarget.refl log
    | inr route =>
      refine moves_bind (moves_gate _ _ _) (fun gate => ?_) log
      obtain ⟨tokenValidation, envelope⟩ := gate
      cases tokenValidation with
      | Denied reason => exact moves_pure _
      | Continue =>
        refine moves_bind (moves_evaluateHookChain _ _ _) fun pre => ?_
        obtain ⟨preHook, envelope⟩ := pre
        cases preHook with
        | Denied reason => exact moves_pure _
        | Continue => exact moves_passToCapability (hroute route hrouted) _ _ _

end CallsTarget

/-- A call that validates against what it invokes calls its provider with the op of the callable. -/
theorem call_of_validatedIsInvoked {args : DemoCapabilityCallArgs} {callable : ResolvedCallableRecord}
    {validatePackSchema : String → String → Json.Value → Except String Unit}
    (h : ValidatedIsInvoked host s args.ctx args.capId args.operation)
    (hcallable : findCallable (callablesOf host args.ctx) args.capId args.operation = some callable) :
    Eff.Moves (CallsTarget callable.providerOp) (args.run host s validatePackSchema) := by
  unfold DemoCapabilityCallArgs.run
  rw [hcallable]
  refine moves_bind (moves_lift _) fun input => ?_
  refine moves_bind (moves_lift _) fun _ => ?_
  refine moves_bind (moves_invokeCapability _ (h callable hcallable).reached) fun outcome => ?_
  refine moves_bind (moves_lift _) fun _ => ?_
  split
  next => exact moves_pure _
  next => exact moves_lift (Except.error _)

/-! ## An operation id that is no op of its provider -/

/-- An offer of an op of its provider, under an operation id. -/
def stateOffer (operationId : Option String) : CapabilityOfferV1 :=
  { demoOffer "state" "greentic.cap.state" "kv.get" none with operationId }

def stateRecord (operationId : Option String) : CapabilityOfferRecord :=
  recordOf demoPack.path ⟨demoPack.packId, .OAuth⟩ (stateOffer operationId) 0

/-- The surroundings of a call that nothing refuses. -/
def calmSurroundings : Surroundings := demoSurroundings (answered .null) (answered .null)

/-- The op of a provider that has no other id. -/
theorem validated_is_invoked_by_op :
    ValidatedIsInvoked (demoHost [stateOffer none]) calmSurroundings demoCtx "greentic.cap.state" "kv.get" := by
  refine (@validatedIsInvoked_iff (fun _ => .ok (some [stateOffer none])) [(demoPack.path, ⟨demoPack.packId, .OAuth⟩)]
    (demoHost [stateOffer none]) rfl _ _ _ _).mpr fun callable hcallable => ?_
  have hcallable : some (resolvedCallable demoCtx ⟨none, some "demo", none⟩ (stateRecord none)) = some callable :=
    hcallable
  rw [← Option.some.inj hcallable]
  refine ⟨fun h => absurd h (by decide), [], stateRecord none, [], rfl, fun _ h => absurd h List.not_mem_nil, rfl,
    ⟨rfl, rfl, rfl⟩, fun _ _ => rfl⟩

/-- The id is passed on in the place of the op, and reaches the provider. -/
theorem operation_id_is_invoked : ¬ ValidatedIsInvoked (demoHost [stateOffer (some "state.read")]) calmSurroundings
    demoCtx "greentic.cap.state" "state.read" := by
  intro h
  have hinvokes := h (resolvedCallable demoCtx ⟨none, some "demo", none⟩ (stateRecord (some "state.read"))) rfl
  have hop := hinvokes.reached ⟨(stateRecord (some "state.read")).binding, demoPack, "state.read"⟩ rfl
  exact absurd hop (by decide)

end Cli
