import GreenticOperator.Lib.Run
import GreenticOperator.Wizard.Store

/-!
# Executing a plan

`src/wizard.rs`, `src/cli.rs`, `src/wizard_plan_builder.rs`, `src/wizard_executor.rs`. An executor goes through its tasks in a fixed order, which the plan alone decides,
and ends at the first that fails. The calls that leave the bundle's packs, tenants and manifests
alone, or reach outside of it, are given by how they end.

A request is made into a plan over the records that the bundle has, and the plan is executed. A bundle
that is there is removed before a new one is created in its place, where that is confirmed.
-/

namespace Wizard

open Disk Disk.Files
open Project (TenantSelection AccessChangeSelection Pair)

/-- One call of an executor. -/
inductive Task
  | createBundle (bundleName : Option String)
  | resolvePackRefs (packRefs : List String)
  | assignPackIds
  | copyPacks
  | linkPacks
  | upsertProviderRegistry (packRefs : List String)
  | assignDefault (assignment : PackDefaultSelection)
  | removePack (selection : PackRemoveSelection)
  | upsertProviderIds (providerIds : List String)
  | removeProviderIds (providerIds : List String)
  | seedSetupAnswers (setupAnswers : List (String × Json.Value))
  | ensureTenant (pair : Pair)
  | removeTenant (selection : TenantSelection)
  | upsertPolicy (pair : Pair) (rulePath : String) (policy : Gmap.Policy)
  | syncProject
  | copyResolved (target : Pair)

/-! ## The tasks of a plan -/

def addPacks (packRefs : List String) : List Task :=
  if packRefs.isEmpty then [] else [.resolvePackRefs packRefs, .assignPackIds, .copyPacks, .linkPacks]

/-- `ensure_tenant_and_team` of a selection; a team without a name is none. -/
def ensureSelection (selection : TenantSelection) : Task := .ensureTenant (selection.tenant, selection.team)

/-- `apply_access_and_sync`. -/
def accessAndSync (tenants : List TenantSelection) (accessChanges : List AccessChangeSelection) : List Task :=
  let changes := Project.changesOf tenants accessChanges
  let targets := Project.copyTargets changes
  (changes.flatMap fun (pair, policies) =>
      .ensureTenant pair :: policies.map fun (rulePath, policy) => .upsertPolicy pair rulePath policy)
    ++ if targets.isEmpty then [] else .syncProject :: targets.map .copyResolved

def createTasks (metadata : WizardPlanMetadata) : List Task :=
  [.createBundle metadata.bundleName]
    ++ addPacks metadata.packRefs
    ++ [.upsertProviderRegistry metadata.packRefs]
    ++ metadata.defaultAssignments.map .assignDefault
    ++ (if metadata.providers.isEmpty then [] else [.upsertProviderIds metadata.providers])
    ++ (if metadata.setupAnswers.isEmpty then [] else [.seedSetupAnswers metadata.setupAnswers])
    ++ accessAndSync metadata.tenants metadata.accessChanges

def executedUpdateOps (metadata : WizardPlanMetadata) : List WizardUpdateOp :=
  givenOr metadata.updateOps
    [(.PacksAdd, !metadata.packRefs.isEmpty),
      (.PacksRemove, !metadata.packsRemove.isEmpty),
      (.ProvidersAdd, !metadata.providers.isEmpty),
      (.ProvidersRemove, !metadata.providersRemove.isEmpty),
      (.TenantsAdd, !metadata.tenants.isEmpty),
      (.TenantsRemove, !metadata.tenantsRemove.isEmpty),
      (.AccessChange, !metadata.accessChanges.isEmpty || hasAllowPaths metadata.tenants)]

/-- The references whose packs an update adds. -/
def addedRefs (metadata : WizardPlanMetadata) : List String :=
  if (executedUpdateOps metadata).contains .PacksAdd then metadata.packRefs else []

def tasksOf (selected : Bool) (tasks : List Task) : List Task := if selected then tasks else []

def updateTasks (metadata : WizardPlanMetadata) : List Task :=
  let ops := executedUpdateOps metadata
  addPacks (addedRefs metadata)
    ++ metadata.defaultAssignments.map .assignDefault
    ++ tasksOf (ops.contains .PacksRemove) (metadata.packsRemove.map .removePack)
    ++ [.upsertProviderRegistry (addedRefs metadata)]
    ++ tasksOf (ops.contains .ProvidersAdd && !metadata.providers.isEmpty) [.upsertProviderIds metadata.providers]
    ++ tasksOf (ops.contains .ProvidersRemove && !metadata.providersRemove.isEmpty)
      [.removeProviderIds metadata.providersRemove]
    ++ tasksOf (ops.contains .TenantsAdd) (metadata.tenants.map ensureSelection)
    ++ tasksOf (ops.contains .TenantsRemove) (metadata.tenantsRemove.map .removeTenant)
    ++ tasksOf (ops.contains .AccessChange) (accessAndSync metadata.tenants metadata.accessChanges)

def executedRemoveTargets (metadata : WizardPlanMetadata) : List WizardRemoveTarget :=
  givenOr metadata.removeTargets
    [(.Packs, !metadata.packsRemove.isEmpty),
      (.Providers, !metadata.providersRemove.isEmpty),
      (.TenantsTeams, !metadata.tenantsRemove.isEmpty)]

def removeTasks (metadata : WizardPlanMetadata) : List Task :=
  let targets := executedRemoveTargets metadata
  tasksOf (targets.contains .Packs) (metadata.packsRemove.map .removePack)
    ++ tasksOf (targets.contains .Providers) [.removeProviderIds metadata.providersRemove]
    ++ tasksOf (targets.contains .TenantsTeams) (metadata.tenantsRemove.map .removeTenant)

def tasksFor : WizardMode → WizardPlanMetadata → List Task
  | .Create => createTasks
  | .Update => updateTasks
  | .Remove => removeTasks

/-! ## Carrying out a task -/

/-- What an execution finds outside of the bundle: the packs that references lead to, what becomes of
`providers.json`, where it is written, how the seeding of answers and the scan of the project end,
and the manifests it makes. -/
structure Env (α : Type) where
  fetch : String → Except String (ResolvedPackInfo α)
  registry : Task → Except String (Option String)
  seeded : Except String Unit
  scanned : Except String Unit
  manifest : Pair → String

/-- An execution on its way: the disk, and the packs that were resolved. -/
structure Execution (α : Type) where
  disk : Store α
  resolvedPacks : List (ResolvedPackInfo α)

variable {α : Type}

/-- A change of the disk, as a part of an execution. -/
def onDisk {β : Type} (x : Eff (Store α) β) : Eff (Execution α) β := fun execution =>
  ((x execution.disk).1, { execution with disk := (x execution.disk).2 })

def setResolvedPacks (packs : List (ResolvedPackInfo α)) : Eff (Execution α) Unit :=
  Eff.modify fun execution => { execution with resolvedPacks := packs }

/-- Every reference is resolved, and the packs are put in the order of the references. -/
def resolvePackRefs (fetch : String → Except String (ResolvedPackInfo α)) (packRefs : List String) :
    Except String (List (ResolvedPackInfo α)) := do
  let resolved ← packRefs.mapM fun reference => do
    return { (← fetch reference) with sourceRef := reference }
  return resolved.insertionSort fun a b => a.sourceRef ≤ b.sourceRef

def writeRegistry (bundle : Path) (registry : Except String (Option String)) : Eff (Store α) Unit := do
  match ← Eff.lift registry with
  | none => return ()
  | some payload => do
    createParents (under bundle ["providers", "providers.json"])
    writeText (under bundle ["providers", "providers.json"]) payload

def perform (bundle : Path) (env : Env α) : Task → Eff (Execution α) Unit
  | .createBundle bundleName => onDisk (createDemoBundleStructure bundle bundleName)
  | .resolvePackRefs packRefs => do setResolvedPacks (← Eff.lift (resolvePackRefs env.fetch packRefs))
  | .assignPackIds => do
    let packs ← Eff.read (·.resolvedPacks)
    setResolvedPacks (← onDisk (assignPackIdsAndPersistMetadata bundle packs))
  | .copyPacks => do
    let packs ← Eff.read (·.resolvedPacks)
    onDisk (packs.forM (copyPackIntoBundle bundle))
  | .linkPacks => do
    let packs ← Eff.read (·.resolvedPacks)
    onDisk (linkPacksToProviderDirs bundle packs)
  | .upsertProviderRegistry packRefs =>
    if packRefs.isEmpty then return ()
    else onDisk (writeRegistry bundle (env.registry (.upsertProviderRegistry packRefs)))
  | .assignDefault assignment => onDisk (applyDefaultAssignment bundle assignment)
  | .removePack selection => onDisk (applyPackRemove bundle selection)
  | .upsertProviderIds providerIds => onDisk (writeRegistry bundle (env.registry (.upsertProviderIds providerIds)))
  | .removeProviderIds providerIds => onDisk (writeRegistry bundle (env.registry (.removeProviderIds providerIds)))
  | .seedSetupAnswers _ => Eff.lift env.seeded
  | .ensureTenant pair => onDisk (ensureTenantAndTeam bundle pair)
  | .removeTenant selection => onDisk (removeTenantOrTeam bundle selection)
  | .upsertPolicy pair rulePath policy => onDisk (upsertPolicy (demoBundleGmapPath bundle pair) rulePath policy)
  | .syncProject => onDisk (syncProject bundle env.scanned env.manifest)
  | .copyResolved target => onDisk (copyResolved bundle target)

/-- The report of an execution; its packs are what a setup is run for. -/
structure WizardExecutionReport (α : Type) where
  bundle : Path
  resolvedPacks : List (ResolvedPackInfo α)
deriving DecidableEq

def validateBundleExists (bundle : Path) : Eff (Store α) Unit := do
  if ← thereAt ⟨bundle, []⟩ then do
    if ← thereAt (under bundle ["greentic.demo.yaml"]) then return ()
    else Eff.fail "bundle missing greentic.demo.yaml"
  else Eff.fail "bundle path does not exist"

def checkBundle (mode : WizardMode) (bundle : Path) : Eff (Store α) Unit :=
  match mode with
  | .Create => do
    if ← thereAt ⟨bundle, []⟩ then Eff.fail "bundle path already exists"
    else return ()
  | .Update | .Remove => validateBundleExists bundle

def runTasks (bundle : Path) (env : Env α) (tasks : List Task) : Eff (Execution α) (WizardExecutionReport α) := do
  tasks.forM (perform bundle env)
  return { bundle := bundle, resolvedPacks := ← Eff.read (·.resolvedPacks) }

/-- An execution that starts without packs. -/
def executeTasks (bundle : Path) (env : Env α) (tasks : List Task) : Eff (Store α) (WizardExecutionReport α) :=
  fun disk =>
    let (result, execution) := (runTasks bundle env tasks).run ⟨disk, []⟩
    (result, execution.disk)

/-- `execute_plan`, on the directory `bundle` that the plan names. -/
def executePlan (mode : WizardMode) (bundle : Path) (plan : WizardPlan) (env : Env α) :
    Eff (Store α) (WizardExecutionReport α) :=
  if plan.mode ≠ mode.asStr then Eff.fail ("unsupported wizard mode: " ++ plan.mode)
  else do
    checkBundle mode bundle
    executeTasks bundle env (tasksFor mode plan.metadata)

/-! ## One run of the wizard -/

structure WizardRun (α : Type) where
  mode : WizardMode
  request : WizardCreateRequest
  env : Env α
  overwrites : Bool

/-- The disk that a plan is executed on. -/
def WizardRun.prepare (bundle : Path) (run : WizardRun α) (disk : Store α) : Store α :=
  if run.mode = .Create ∧ run.overwrites then disk.removeAll bundle else disk

def WizardRun.exec (bundle : Path) (run : WizardRun α) (disk : Store α) : Store α :=
  match buildPlan run.mode (loadPacksMetadata bundle disk) run.request false with
  | .error _ => disk
  | .ok plan => ((executePlan run.mode bundle plan run.env).run (run.prepare bundle disk)).2

/-- A disk with nothing where the bundle is to be. -/
structure NothingAt (bundle : Path) (disk : Store α) : Prop where
  files : ∀ p, bundle <+: p → disk.read p = none
  dirs : ∀ p, bundle <+: p → p ∉ disk.dirs

/-- The disks that runs of the wizard lead to, from one with nothing where the bundle is to be. -/
def Reached (bundle : Path) (disk : Store α) : Prop :=
  ∃ start runs, NothingAt bundle start ∧ disk = Run.run (WizardRun.exec bundle) runs start

end Wizard
