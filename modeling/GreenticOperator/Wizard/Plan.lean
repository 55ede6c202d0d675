import GreenticOperator.Lib.Json
import GreenticOperator.Project.Wizard
import GreenticOperator.Wizard.PackId
import Mathlib.Data.List.Dedup

/-!
# The plan of a wizard

`src/wizard.rs`. A request names packs, tenants and providers. It is normalized, so that packs are
named by their ids, and turned into a plan: the steps that are shown, and the data that is executed.
-/

namespace Wizard

open Project (TenantSelection AccessChangeSelection)

inductive WizardMode
  | Create
  | Update
  | Remove
deriving DecidableEq, Repr

def WizardMode.asStr : WizardMode → String
  | .Create => "create"
  | .Update => "update"
  | .Remove => "remove"

inductive WizardStepKind
  | NoOp
  | ResolvePacks
  | CreateBundle
  | AddPacksToBundle
  | ApplyPackSetup
  | WriteGmapRules
  | RunResolver
  | CopyResolvedManifest
  | ValidateBundle
deriving DecidableEq, Repr

structure WizardPlanStep where
  kind : WizardStepKind
  description : String
  details : List (String × String)
deriving DecidableEq, Repr

inductive WizardUpdateOp
  | PacksAdd
  | PacksRemove
  | ProvidersAdd
  | ProvidersRemove
  | TenantsAdd
  | TenantsRemove
  | AccessChange
deriving DecidableEq, Repr

inductive WizardRemoveTarget
  | Packs
  | Providers
  | TenantsTeams
deriving DecidableEq, Repr

inductive PackScope
  | Bundle
  | Global
  | Tenant (tenantId : String)
  | Team (tenantId teamId : String)
deriving DecidableEq, Repr

structure PackRemoveSelection where
  packIdentifier : String
  scope : Option PackScope
deriving DecidableEq, Repr

structure PackDefaultSelection where
  packIdentifier : String
  scope : PackScope
deriving DecidableEq, Repr

/-- The sets of operations and targets are the lists of their elements. -/
structure WizardCreateRequest where
  bundle : String
  bundleName : Option String
  packRefs : List String
  tenants : List TenantSelection
  defaultAssignments : List PackDefaultSelection
  providers : List String
  updateOps : List WizardUpdateOp
  removeTargets : List WizardRemoveTarget
  packsRemove : List PackRemoveSelection
  providersRemove : List String
  tenantsRemove : List TenantSelection
  accessChanges : List AccessChangeSelection
  setupAnswers : List (String × Json.Value)

structure WizardPlanMetadata where
  bundleName : Option String
  packRefs : List String
  tenants : List TenantSelection
  defaultAssignments : List PackDefaultSelection
  providers : List String
  updateOps : List WizardUpdateOp
  removeTargets : List WizardRemoveTarget
  packsRemove : List PackRemoveSelection
  providersRemove : List String
  tenantsRemove : List TenantSelection
  accessChanges : List AccessChangeSelection
  setupAnswers : List (String × Json.Value)

structure WizardPlan where
  mode : String
  dryRun : Bool
  bundle : String
  steps : List WizardPlanStep
  metadata : WizardPlanMetadata

/-! ## Normalizing -/

/-- The request with packs named by their ids, as the records of the bundle have them now. -/
def normalizeRequestForPlan (packsJson : PacksJson) (request : WizardCreateRequest) :
    Except String WizardCreateRequest := do
  let defaultAssignments ← request.defaultAssignments.mapM fun selection => do
    return { selection with packIdentifier := ← canonicalPackIdentifier packsJson selection.packIdentifier }
  let packsRemove ← request.packsRemove.mapM fun selection => do
    return { selection with packIdentifier := ← canonicalPackIdentifier packsJson selection.packIdentifier }
  let accessChanges ← request.accessChanges.mapM fun change => do
    return { change with packId := ← canonicalPackIdentifier packsJson change.packId }
  return { request with defaultAssignments, packsRemove, accessChanges }

/-! ## What is selected -/

/-- `Vec::sort` and then `Vec::dedup`. -/
def sortDedup (values : List String) : List String := (values.insertionSort (· ≤ ·)).dedup

theorem mem_sortDedup {values : List String} {value : String} : value ∈ sortDedup values ↔ value ∈ values := by
  unfold sortDedup
  rw [List.mem_dedup, List.mem_insertionSort]

def selectedRefs (packRefs : List String) : List String :=
  sortDedup ((packRefs.map Text.trim).filter fun value => !value.isEmpty)

def tenantLe (a b : TenantSelection) : Bool :=
  ((compare a.tenant b.tenant).then <| (compare a.team b.team).then <|
    compare a.allowPaths b.allowPaths).isLE

def selectedTenants (tenants : List TenantSelection) : List TenantSelection :=
  (tenants.map fun tenant => { tenant with allowPaths := sortDedup tenant.allowPaths }).insertionSort
    fun a b => tenantLe a b = true

/-- The elements that are given, or else those there is something to do for. -/
def givenOr {α : Type} (given : List α) (inferred : List (α × Bool)) : List α :=
  if given.isEmpty then (inferred.filter Prod.snd).map Prod.fst else given

def hasAllowPaths (tenants : List TenantSelection) : Bool := tenants.any fun tenant => !tenant.allowPaths.isEmpty

def plannedUpdateOps (request : WizardCreateRequest) (packRefs : List String)
    (tenants : List TenantSelection) : List WizardUpdateOp :=
  givenOr request.updateOps
    [(.PacksAdd, !packRefs.isEmpty),
      (.ProvidersAdd, !request.providers.isEmpty),
      (.ProvidersRemove, !request.providersRemove.isEmpty),
      (.PacksRemove, !request.packsRemove.isEmpty),
      (.TenantsAdd, !tenants.isEmpty),
      (.TenantsRemove, !request.tenantsRemove.isEmpty),
      (.AccessChange, !request.accessChanges.isEmpty || hasAllowPaths tenants)]

def plannedRemoveTargets (request : WizardCreateRequest) : List WizardRemoveTarget :=
  givenOr request.removeTargets
    [(.Packs, !request.packsRemove.isEmpty),
      (.Providers, !request.providersRemove.isEmpty),
      (.TenantsTeams, !request.tenantsRemove.isEmpty)]

/-! ## Steps -/

def step (kind : WizardStepKind) (description : String) (details : List (String × String)) : WizardPlanStep where
  kind := kind
  description := description
  details := details

def noOp (description reason : String) : WizardPlanStep := step .NoOp description [("reason", reason)]

/-- The steps of an operation; one without anything to do is shown as such. -/
def stepsFor (selected empty : Bool) (skipped : WizardPlanStep) (steps : List WizardPlanStep) :
    List WizardPlanStep :=
  if selected then if empty then [skipped] else steps else []

def validateStep : WizardPlanStep :=
  step .ValidateBundle "Validate bundle is loadable by internal demo pipeline"
    [("check", "resolved manifests present")]

def resolvePacksStep (packRefs : List String) : WizardPlanStep :=
  step .ResolvePacks "Resolve selected pack refs via distributor client" [("count", toString packRefs.length)]

def copyPacksStep (packRefs : List String) : WizardPlanStep :=
  step .AddPacksToBundle "Copy fetched packs into bundle/packs" [("count", toString packRefs.length)]

def copyManifestsStep (tenants : List TenantSelection) : WizardPlanStep :=
  step .CopyResolvedManifest "Copy state/resolved manifests into resolved/ for demo start"
    [("targets", toString tenants.length)]

def createSteps (bundle : String) (packRefs : List String) (tenants : List TenantSelection) :
    List WizardPlanStep :=
  stepsFor true packRefs.isEmpty (noOp "No pack refs selected; skipping pack resolution" "empty_pack_refs")
      [resolvePacksStep packRefs]
    ++ [step .CreateBundle "Create demo bundle scaffold using existing conventions" [("bundle", bundle)]]
    ++ stepsFor true packRefs.isEmpty (noOp "No fetched packs to add or setup" "empty_pack_refs")
      [copyPacksStep packRefs,
        step .ApplyPackSetup "Apply pack-declared setup outputs through internal setup hooks"
          [("status", "planned")]]
    ++ [step .WriteGmapRules "Write tenant/team allow rules to gmap" [("targets", toString tenants.length)],
      step .RunResolver "Run resolver pipeline (same as demo allow)" [("resolver", "project::sync_project")],
      copyManifestsStep tenants, validateStep]

def updateSteps (request : WizardCreateRequest) (packRefs : List String) (tenants : List TenantSelection)
    (ops : List WizardUpdateOp) : List WizardPlanStep :=
  let accessCount :=
    request.accessChanges.length + (tenants.filter fun tenant => !tenant.allowPaths.isEmpty).length
  [step .ValidateBundle "Validate target bundle exists before update" [("mode", "update")]]
    ++ stepsFor ops.isEmpty true (noOp "No update operations selected" "empty_update_ops") []
    ++ stepsFor (ops.contains .PacksAdd) packRefs.isEmpty
      (noOp "packs_add selected without pack refs" "empty_pack_refs")
      [resolvePacksStep packRefs, copyPacksStep packRefs]
    ++ stepsFor (ops.contains .PacksRemove) request.packsRemove.isEmpty
      (noOp "packs_remove selected without targets" "empty_packs_remove")
      [step .AddPacksToBundle "Remove pack artifacts/default links from bundle"
        [("count", toString request.packsRemove.length)]]
    ++ stepsFor (ops.contains .ProvidersAdd) (request.providers.isEmpty && packRefs.isEmpty)
      (noOp "providers_add selected without providers or new packs" "empty_providers_add")
      [step .ApplyPackSetup "Enable providers in providers/providers.json"
        [("count", toString request.providers.length)]]
    ++ stepsFor (ops.contains .ProvidersRemove) request.providersRemove.isEmpty
      (noOp "providers_remove selected without providers" "empty_providers_remove")
      [step .ApplyPackSetup "Disable/remove providers in providers/providers.json"
        [("count", toString request.providersRemove.length)]]
    ++ stepsFor (ops.contains .TenantsAdd) tenants.isEmpty
      (noOp "tenants_add selected without tenant targets" "empty_tenants_add")
      [step .WriteGmapRules "Ensure tenant/team directories and allow rules"
        [("targets", toString tenants.length)]]
    ++ stepsFor (ops.contains .TenantsRemove) request.tenantsRemove.isEmpty
      (noOp "tenants_remove selected without tenant targets" "empty_tenants_remove")
      [step .WriteGmapRules "Remove tenant/team directories and related rules"
        [("targets", toString request.tenantsRemove.length)]]
    ++ stepsFor (ops.contains .AccessChange) (accessCount == 0)
      (noOp "access_change selected without mutations" "empty_access_changes")
      [step .WriteGmapRules "Apply access rule updates" [("changes", toString accessCount)],
        step .RunResolver "Run resolver pipeline (same as demo allow/forbid)"
          [("resolver", "project::sync_project")],
        copyManifestsStep tenants]
    ++ [validateStep]

def removeSteps (request : WizardCreateRequest) (tenants : List TenantSelection)
    (targets : List WizardRemoveTarget) : List WizardPlanStep :=
  [step .ValidateBundle "Validate target bundle exists before remove" [("mode", "remove")]]
    ++ stepsFor targets.isEmpty true (noOp "No remove targets selected" "empty_remove_targets") []
    ++ stepsFor (targets.contains .Packs) request.packsRemove.isEmpty
      (noOp "packs target selected without pack identifiers" "empty_packs_remove")
      [step .AddPacksToBundle "Delete pack files/default links from bundle"
        [("count", toString request.packsRemove.length)]]
    ++ stepsFor (targets.contains .Providers) request.providersRemove.isEmpty
      (noOp "providers target selected without provider ids" "empty_providers_remove")
      [step .ApplyPackSetup "Remove provider entries from providers/providers.json"
        [("count", toString request.providersRemove.length)]]
    ++ stepsFor (targets.contains .TenantsTeams) request.tenantsRemove.isEmpty
      (noOp "tenants_teams target selected without tenant/team ids" "empty_tenants_remove")
      [step .WriteGmapRules "Delete tenant/team directories and access rules"
        [("count", toString request.tenantsRemove.length)],
        step .RunResolver "Run resolver pipeline after tenant/team removals"
          [("resolver", "project::sync_project")],
        copyManifestsStep tenants]
    ++ [validateStep]

/-! ## Plans -/

/-- What all plans of a request carry over from it. -/
def metadataOf (request : WizardCreateRequest) : WizardPlanMetadata where
  bundleName := request.bundleName
  packRefs := []
  tenants := selectedTenants request.tenants
  defaultAssignments := request.defaultAssignments
  providers := request.providers
  updateOps := request.updateOps
  removeTargets := request.removeTargets
  packsRemove := request.packsRemove
  providersRemove := request.providersRemove
  tenantsRemove := request.tenantsRemove
  accessChanges := request.accessChanges
  setupAnswers := request.setupAnswers

def applyCreate (request : WizardCreateRequest) (dryRun : Bool) : Except String WizardPlan :=
  if request.tenants.isEmpty then .error "at least one tenant selection is required"
  else
    let packRefs := selectedRefs request.packRefs
    .ok
      { mode := "create"
        dryRun := dryRun
        bundle := request.bundle
        steps := createSteps request.bundle packRefs (selectedTenants request.tenants)
        metadata := { metadataOf request with packRefs } }

def applyUpdate (request : WizardCreateRequest) (dryRun : Bool) : WizardPlan :=
  let packRefs := selectedRefs request.packRefs
  let tenants := selectedTenants request.tenants
  let updateOps := plannedUpdateOps request packRefs tenants
  { mode := WizardMode.Update.asStr
    dryRun := dryRun
    bundle := request.bundle
    steps := updateSteps request packRefs tenants updateOps
    metadata := { metadataOf request with packRefs, updateOps } }

def applyRemove (request : WizardCreateRequest) (dryRun : Bool) : WizardPlan :=
  let tenants := selectedTenants request.tenants
  let removeTargets := plannedRemoveTargets request
  { mode := WizardMode.Remove.asStr
    dryRun := dryRun
    bundle := request.bundle
    steps := removeSteps request tenants removeTargets
    metadata := { metadataOf request with removeTargets } }

def apply (mode : WizardMode) (request : WizardCreateRequest) (dryRun : Bool) : Except String WizardPlan :=
  match mode with
  | .Create => applyCreate request dryRun
  | .Update => .ok (applyUpdate request dryRun)
  | .Remove => .ok (applyRemove request dryRun)

def buildPlan (mode : WizardMode) (packsJson : PacksJson) (request : WizardCreateRequest) (dryRun : Bool) :
    Except String WizardPlan := do
  apply mode (← normalizeRequestForPlan packsJson request) dryRun

end Wizard
