import GreenticOperator.Hooks.Cache
import GreenticOperator.Lib.Outcome
import GreenticOperator.Lib.Run

/-!
# The registry a request uses

A request uses the registry that the first request for its packs directory built
(`registryUsed_eq`), whatever became of the packs since. It is the one of the packs that are there
now as long as these are still the same (`registryUsed_eq_fresh`).
-/

namespace Hooks

open Offers RunnerHost Ingress HttpIngress

/-- The registry a request selects its hooks from, where it comes to that. -/
def registryUsed (operator : Operator) (request : HookRequest) : Option (Except String OfferRegistry) :=
  (request.foundRefs operator.disk).map fun refs =>
    (cachedOfferRegistry operator.cache operator.disk request.packsRoot refs).1

/-- The registry of the packs a request finds. -/
def freshRegistry (disk : PackFiles) (request : HookRequest) : Option (Except String OfferRegistry) :=
  (request.foundRefs disk).map (OfferRegistry.fromPackRefs (loadFrom disk))

/-- The registry that an event builds for a packs directory. -/
def builtBy (key : List String) (step : Operator × Event) : Option OfferRegistry :=
  match step.2 with
  | .change _ => none
  | .request request =>
    if components request.packsRoot = key then (freshRegistry step.1.disk request).bind Except.toOption
    else none

/-- The registry that was built first for a packs directory. -/
def firstBuilt (key : List String) (events : List Event) (operator : Operator) : Option OfferRegistry :=
  (Run.steps Operator.exec events operator).findSome? (builtBy key)

/-! ## What a request does with its registry -/

section WorldIn

variable {operator : Operator} {request : HookRequest}

theorem worldIn_hooksEnabled : (request.worldIn operator).hooksEnabled = request.world.hooksEnabled := by
  unfold HookRequest.worldIn
  rfl

theorem worldIn_packsRootExists :
    (request.worldIn operator).packsRootExists = pathExists operator.disk request.packsRoot := by
  unfold HookRequest.worldIn
  rfl

theorem worldIn_packRefs :
    (request.worldIn operator).packRefs = discoverGtpacks operator.disk request.packsRoot := by
  unfold HookRequest.worldIn
  rfl

end WorldIn

/-- **The hooks a request runs** are those its registry selects. -/
theorem applyPostIngressHooksJson_worldIn (codec : Codec) (operator : Operator) (request : HookRequest)
    (provider : String) (ctx : OperatorContext) (body : HookIngressBody) {used : Except String OfferRegistry}
    (h : registryUsed operator request = some used) :
    applyPostIngressHooksJson codec (request.worldIn operator) provider ctx body
      = used >>= fun registry => runHooks codec (request.worldIn operator) provider ctx 0
          (registry.selectHooks hookStagePostIngress hookContractControlV1) body := by
  obtain ⟨refs, hrefs, hused⟩ := Option.map_eq_some_iff.mp h
  have hregistry : (request.worldIn operator).registry = used := by
    unfold HookRequest.worldIn
    rw [hrefs]
    exact hused
  unfold HookRequest.foundRefs at hrefs
  split at hrefs
  next hon =>
    obtain ⟨henabled, hexists⟩ := Bool.and_eq_true_iff.mp hon
    split at hrefs
    next found hfound =>
      split at hrefs
      next => cases hrefs
      next hnonempty =>
        replace henabled : (request.worldIn operator).hooksEnabled = true := worldIn_hooksEnabled.trans henabled
        replace hexists : (request.worldIn operator).packsRootExists = true := worldIn_packsRootExists.trans hexists
        replace hfound : (request.worldIn operator).packRefs = .ok found := worldIn_packRefs.trans hfound
        unfold applyPostIngressHooksJson
        simp only [henabled, hexists, hfound, hregistry, hnonempty, Bool.not_true, Bool.false_eq_true,
          ↓reduceIte, bind, Except.bind]
    next => cases hrefs
  next => cases hrefs

/-! ## One event -/

theorem lookup_cachedOfferRegistry (cache : RegistryCache) (disk : PackFiles) (packsRoot : String)
    (refs : List String) (key : List String) :
    (cachedOfferRegistry cache disk packsRoot refs).2.lookup key
      = (cache.lookup key).or (if components packsRoot = key then
          (OfferRegistry.fromPackRefs (loadFrom disk) refs).toOption else none) := by
  unfold cachedOfferRegistry
  cases hcache : cache.lookup (components packsRoot) with
  | some existing =>
    by_cases hkey : components packsRoot = key
    · subst hkey
      rw [hcache]
      rfl
    · rw [if_neg hkey, Option.or_none]
  | none =>
    cases hbuild : OfferRegistry.fromPackRefs (loadFrom disk) refs with
    | error err =>
      have hnone : (if components packsRoot = key then
          (Except.error err : Except String OfferRegistry).toOption else none) = none := by
        split <;> rfl
      rw [hnone, Option.or_none]
    | ok registry =>
      dsimp only
      rw [List.lookup_cons]
      by_cases hkey : components packsRoot = key
      · subst hkey
        rw [beq_self_eq_true, hcache, if_pos rfl]
        rfl
      · rw [beq_eq_false_iff_ne.mpr (Ne.symm hkey), if_neg hkey, Option.or_none]

/-- **One event**: it adds the registry it builds where there is none yet. -/
theorem lookup_exec (event : Event) (operator : Operator) (key : List String) :
    (Operator.exec event operator).cache.lookup key
      = (operator.cache.lookup key).or (builtBy key (operator, event)) := by
  cases event with
  | change disk => exact Option.or_none.symm
  | request request =>
    have hbuilt : builtBy key (operator, .request request) = if components request.packsRoot = key then
        (freshRegistry operator.disk request).bind Except.toOption else none := rfl
    rw [hbuilt]
    unfold Operator.exec freshRegistry
    dsimp only
    cases hrefs : request.foundRefs operator.disk with
    | none =>
      rw [Option.map_none, Option.bind_none, ite_self, Option.or_none]
    | some refs => exact lookup_cachedOfferRegistry _ _ _ _ _

/-- **A run of events** keeps the first registry that is built. -/
theorem lookup_run (events : List Event) (operator : Operator) (key : List String) :
    (Run.run Operator.exec events operator).cache.lookup key
      = (operator.cache.lookup key).or (firstBuilt key events operator) := by
  induction events generalizing operator with
  | nil => exact Option.or_none.symm
  | cons event events ih =>
    refine (ih _).trans ?_
    rw [lookup_exec, Option.or_assoc]
    unfold firstBuilt
    rw [Run.steps, List.findSome?_cons]
    cases builtBy key (operator, event) <;> rfl

/-! ## The registry of a request -/

theorem registryUsed_of_cache (operator : Operator) (request : HookRequest) :
    registryUsed operator request = (freshRegistry operator.disk request).map fun fresh =>
      ((operator.cache.lookup (components request.packsRoot)).map Except.ok).getD fresh := by
  unfold registryUsed freshRegistry cachedOfferRegistry
  rw [Option.map_map]
  refine congrArg (Option.map · _) (funext fun refs => ?_)
  cases operator.cache.lookup (components request.packsRoot) with
  | some existing => rfl
  | none =>
    dsimp only [Function.comp]
    cases OfferRegistry.fromPackRefs (loadFrom operator.disk) refs <;> rfl

/-- **The registry a request uses** is the one that was first built for its packs directory since
the operator started, and that of the packs it finds where none was. -/
theorem registryUsed_eq (disk : PackFiles) (events : List Event) (request : HookRequest) :
    registryUsed (Run.run Operator.exec events ⟨disk, []⟩) request
      = (freshRegistry (Run.run Operator.exec events ⟨disk, []⟩).disk request).map fun fresh =>
        ((firstBuilt (components request.packsRoot) events ⟨disk, []⟩).map Except.ok).getD fresh := by
  rw [registryUsed_of_cache, lookup_run]
  rfl

/-- While the packs of a directory are those of the first request, its registry is theirs. -/
theorem registryUsed_eq_fresh {disk : PackFiles} {events : List Event} {request : HookRequest}
    {registry : OfferRegistry}
    (hfirst : firstBuilt (components request.packsRoot) events ⟨disk, []⟩ = some registry)
    (hsame : freshRegistry (Run.run Operator.exec events ⟨disk, []⟩).disk request = some (.ok registry)) :
    registryUsed (Run.run Operator.exec events ⟨disk, []⟩) request = some (.ok registry) := by
  rw [registryUsed_eq, hsame, hfirst]
  rfl

/-! ## A hook that comes later -/

/-- The hooks that are selected from a registry. -/
def selected (registry : OfferRegistry) : List Offer :=
  registry.selectHooks hookStagePostIngress hookContractControlV1

/-- A bundle with one pack that has some offers. -/
def bundleWith (offers : List Json.Value) : PackFiles where
  files := [(["bundle", "packs", "guard.gtpack"],
    .ok (.object [("offers", .array offers), ("pack_id", .string "guard")]))]
  dirs := [["bundle"], ["bundle", "packs"]]

def denyOffer : Json.Value :=
  .object [("contract", .string hookContractControlV1), ("id", .string "deny"), ("kind", .string "hook"),
    ("provider", .object [("op", .string "decide")]), ("stage", .string hookStagePostIngress)]

def bundleRequest : HookRequest where
  bundle := "bundle"
  world := {
    hooksVar := none
    eventHooksVar := none
    packsRootExists := true
    packRefs := .ok []
    registry := .ok OfferRegistry.empty
    reply := fun _ => .error "unreachable"
    runTarget := fun _ _ => .ok () }

/-- A hook that is added after the first request is not run. -/
theorem added_hook_not_selected : ¬ ∀ (disk : PackFiles) (events : List Event) (request : HookRequest),
    (registryUsed (Run.run Operator.exec events ⟨disk, []⟩) request).map (Except.map selected)
      = (freshRegistry (Run.run Operator.exec events ⟨disk, []⟩).disk request).map (Except.map selected) := by
  intro h
  have hstale := h (bundleWith []) [.request bundleRequest, .change (bundleWith [denyOffer])] bundleRequest
  exact absurd hstale (by decide +kernel)

end Hooks
