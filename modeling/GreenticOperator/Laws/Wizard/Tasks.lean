import GreenticOperator.Laws.Wizard.Changes

/-!
# From tasks to runs of the wizard

An executor's tasks are those that add packs, put between others (`exists_tasksFor_eq`). What every
other task keeps of a disk, and adding packs keeps, an execution keeps (`keeps_executePlan`), and so
does every run of the wizard (`holds_of_reached`).
-/

namespace Wizard

open Disk Disk.Files

variable {α : Type}

/-- A property of disks that a computation keeps, whether it fails or not. -/
def KeepsDisk (holds : Store α → Prop) {β : Type} (x : Eff (Execution α) β) : Prop :=
  ∀ execution, holds execution.disk → holds (x.run execution).2.disk

section Keeps

variable {holds : Store α → Prop} {β γ : Type}

theorem keepsDisk_bind {x : Eff (Execution α) β} {f : β → Eff (Execution α) γ} (hx : KeepsDisk holds x)
    (hf : ∀ b, KeepsDisk holds (f b)) : KeepsDisk holds (x >>= f) := by
  intro execution h
  have hx := hx execution h
  rw [Eff.bind_run]
  cases hrun : x.run execution with
  | mk result execution' =>
    rw [hrun] at hx
    cases result with
    | ok b => exact hf b execution' hx
    | error message => exact hx

theorem keepsDisk_forM {tasks : List Task} {f : Task → Eff (Execution α) PUnit}
    (h : ∀ task ∈ tasks, KeepsDisk holds (f task)) : KeepsDisk holds (tasks.forM f) := by
  induction tasks with
  | nil => exact fun _ h => h
  | cons task tasks ih =>
    change KeepsDisk holds (f task >>= fun _ => tasks.forM f)
    exact keepsDisk_bind (h task List.mem_cons_self) fun _ => ih fun other hother =>
      h other (List.mem_cons_of_mem task hother)

theorem forM_append (front back : List Task) (f : Task → Eff (Execution α) PUnit) :
    (front ++ back).forM f = (front.forM f >>= fun _ => back.forM f) := by
  induction front with
  | nil => rfl
  | cons task front ih =>
    change (f task >>= fun _ => (front ++ back).forM f) = ((f task >>= fun _ => front.forM f) >>= fun _ => back.forM f)
    rw [ih]
    funext execution
    change (f task >>= _).run execution = ((f task >>= _) >>= _).run execution
    rw [Eff.bind_run, Eff.bind_run, Eff.bind_run]
    cases (f task).run execution with
    | mk result execution' => cases result <;> rfl

end Keeps

/-! ## The order of the tasks -/

/-- A task that is not one of those that add packs. -/
def Task.AddsNoPacks : Task → Prop
  | .resolvePackRefs _ | .assignPackIds | .copyPacks | .linkPacks => False
  | _ => True

/-- The references whose packs an execution adds. -/
def refsFor : WizardMode → WizardPlanMetadata → List String
  | .Create, metadata => metadata.packRefs
  | .Update, metadata => addedRefs metadata
  | .Remove, _ => []

/-- The tasks before those that add packs. -/
def tasksBefore : WizardMode → WizardPlanMetadata → List Task
  | .Create, metadata => [.createBundle metadata.bundleName]
  | .Update, _ => []
  | .Remove, _ => []

theorem addsNoPacks_tasksBefore {mode : WizardMode} {metadata : WizardPlanMetadata} {task : Task}
    (h : task ∈ tasksBefore mode metadata) : task.AddsNoPacks := by
  cases mode with
  | Create =>
    rw [List.mem_singleton.mp h]
    exact trivial
  | Update => cases h
  | Remove => cases h

theorem addsNoPacks_accessAndSync {metadata : WizardPlanMetadata} {task : Task}
    (h : task ∈ accessAndSync metadata.tenants metadata.accessChanges) : task.AddsNoPacks := by
  unfold accessAndSync at h
  rcases List.mem_append.mp h with h | h
  · obtain ⟨change, -, h⟩ := List.mem_flatMap.mp h
    rcases List.mem_cons.mp h with rfl | h
    · exact trivial
    · obtain ⟨policy, -, rfl⟩ := List.mem_map.mp h
      exact trivial
  · split at h
    next => cases h
    next =>
      rcases List.mem_cons.mp h with rfl | h
      · exact trivial
      · obtain ⟨target, -, rfl⟩ := List.mem_map.mp h
        exact trivial

theorem addsNoPacks_map {β : Type} {values : List β} {task : β → Task} {other : Task}
    (hmem : other ∈ values.map task) (h : ∀ value, (task value).AddsNoPacks) : other.AddsNoPacks := by
  obtain ⟨value, -, rfl⟩ := List.mem_map.mp hmem
  exact h value

theorem mem_of_mem_tasksOf {selected : Bool} {tasks : List Task} {task : Task} (h : task ∈ tasksOf selected tasks) :
    task ∈ tasks := by
  unfold tasksOf at h
  split at h
  next => exact h
  next => cases h

/-- **The tasks that add packs** come in one piece. -/
theorem exists_tasksFor_eq (mode : WizardMode) (metadata : WizardPlanMetadata) :
    ∃ back, tasksFor mode metadata = tasksBefore mode metadata ++ (addPacks (refsFor mode metadata) ++ back)
      ∧ ∀ task ∈ back, task.AddsNoPacks := by
  cases mode with
  | Create =>
    refine ⟨_, by
      rw [tasksFor, createTasks, tasksBefore, refsFor]
      simp only [List.append_assoc]
      rfl, ?_⟩
    simp only [List.mem_append, List.mem_singleton]
    rintro task (rfl | h | h | h | h)
    · exact trivial
    · exact addsNoPacks_map h fun _ => trivial
    · split at h
      next => cases h
      next => exact List.mem_singleton.mp h ▸ trivial
    · split at h
      next => cases h
      next => exact List.mem_singleton.mp h ▸ trivial
    · exact addsNoPacks_accessAndSync h
  | Update =>
    refine ⟨_, by
      rw [tasksFor, updateTasks, tasksBefore, refsFor, List.nil_append]
      simp only [List.append_assoc]
      rfl, ?_⟩
    simp only [List.mem_append, List.mem_singleton]
    rintro task (h | h | rfl | h | h | h | h | h)
    · exact addsNoPacks_map h fun _ => trivial
    · exact addsNoPacks_map (mem_of_mem_tasksOf h) fun _ => trivial
    · exact trivial
    · exact List.mem_singleton.mp (mem_of_mem_tasksOf h) ▸ trivial
    · exact List.mem_singleton.mp (mem_of_mem_tasksOf h) ▸ trivial
    · exact addsNoPacks_map (mem_of_mem_tasksOf h) fun _ => trivial
    · exact addsNoPacks_map (mem_of_mem_tasksOf h) fun _ => trivial
    · exact addsNoPacks_accessAndSync (mem_of_mem_tasksOf h)
  | Remove =>
    refine ⟨removeTasks metadata, rfl, ?_⟩
    unfold removeTasks
    simp only [List.mem_append]
    rintro task ((h | h) | h)
    · exact addsNoPacks_map (mem_of_mem_tasksOf h) fun _ => trivial
    · exact List.mem_singleton.mp (mem_of_mem_tasksOf h) ▸ trivial
    · exact addsNoPacks_map (mem_of_mem_tasksOf h) fun _ => trivial

/-! ## What the other tasks change -/

/-- The names of files that are written besides packs, their records and defaults. -/
def OtherName (name : String) : Prop :=
  name ∈ ["greentic.demo.yaml", "tenant.gmap", "team.gmap", "providers.json"] ∨ ∃ front, name = front ++ ".yaml"

/-- What the other tasks do besides removing tenants and packs may be done: directories are made, and
files of other names written below the bundle. -/
structure AllowsOther (ok : Change (Content α) → Prop) (bundle : Path) : Prop where
  dirs : ∀ p, ok (.mkdir p)
  files : ∀ texts name content, (under bundle texts).path.getLast? = some name → OtherName name →
    ok (.write (under bundle texts).path content)
  defaults : ∀ texts text, (under bundle texts).path.getLast? = some "default.gtpack" →
    ok (.write (under bundle texts).path (.text text))

theorem exists_defaultTarget {bundle : Path} {scope : PackScope} {target : Place}
    (h : defaultTarget bundle scope = some target) :
    ∃ texts, target = under bundle texts ∧ target.path.getLast? = some "default.gtpack" := by
  cases scope with
  | Bundle => cases h
  | Global =>
    cases h
    exact ⟨_, rfl, getLast_under bundle [] (by decide)⟩
  | Tenant tenantId =>
    cases h
    exact ⟨_, rfl, getLast_under bundle ["tenants", tenantId] (by decide)⟩
  | Team tenantId teamId =>
    cases h
    exact ⟨_, rfl, getLast_under bundle ["tenants", tenantId, "teams", teamId] (by decide)⟩

namespace AllowsOther

variable {ok : Change (Content α) → Prop} {bundle : Path}

theorem dirsAt (h : AllowsOther ok bundle) (place : Place) : AllowsDirs ok place := ⟨fun dir _ => h.dirs dir, h.dirs _⟩

theorem file (h : AllowsOther ok bundle) (texts : List String) {name : String} (hplain : Plain name)
    (hname : name ∈ ["greentic.demo.yaml", "tenant.gmap", "team.gmap", "providers.json"]) :
    AllowsFile ok (under bundle (texts ++ [name])) :=
  ⟨fun dir _ => h.dirs dir, fun content => h.files _ name content (getLast_under bundle texts hplain) (.inl hname)⟩

theorem manifest (h : AllowsOther ok bundle) (texts : List String) (pair : Project.Pair) :
    AllowsFile ok (under bundle (texts ++ [Project.resolvedManifestFilename pair])) := by
  obtain ⟨front, heq⟩ := resolvedManifestFilename_eq pair
  obtain ⟨name, hname⟩ := @exists_getLast_under_append bundle texts front ".yaml" (by decide) (by decide)
  rw [heq]
  exact ⟨fun dir _ => h.dirs dir, fun content => h.files _ _ content hname (.inr ⟨name, rfl⟩)⟩

theorem tenant (h : AllowsOther ok bundle) (pair : Project.Pair) : AllowsTenant ok bundle pair where
  tenantDirs := h.dirsAt _
  tenantFile := h.file ["tenants", pair.1] (by decide) (by decide)
  teamDirs _ _ := h.dirsAt _
  teamFile team _ := h.file ["tenants", pair.1, "teams", team] (by decide) (by decide)

theorem newBundle (h : AllowsOther ok bundle) : AllowsBundle ok bundle where
  directories _ _ := h.dirsAt _
  yaml := h.file [] (by decide) (by decide)
  defaultTenant := h.file ["tenants", "default"] (by decide) (by decide)
  demoTenant := h.file ["tenants", "demo"] (by decide) (by decide)
  demoTeam := h.file ["tenants", "demo", "teams", "default"] (by decide) (by decide)

theorem default (h : AllowsOther ok bundle) {scope : PackScope} {target : Place}
    (htarget : defaultTarget bundle scope = some target) : AllowsText ok target := by
  obtain ⟨texts, rfl, hlast⟩ := exists_defaultTarget htarget
  exact ⟨fun dir _ => h.dirs dir, fun text => h.defaults texts text hlast⟩

/-- **What the other tasks change** is of the kind that is allowed for them. -/
theorem changes (h : AllowsOther ok bundle) {env : Env α} {task : Task} (htask : task.AddsNoPacks)
    (hpack : ∀ selection, task ≠ .removePack selection)
    (htenant : ∀ selection, task = .removeTenant selection → ok (.remove (removedPlace bundle selection).path))
    (execution : Execution α) : Changes ok execution.disk ((perform bundle env task).run execution).2.disk := by
  have hproviders : AllowsFile ok (under bundle ["providers", "providers.json"]) :=
    h.file ["providers"] (by decide) (by decide)
  have hallowed : (∀ assignment, task ≠ .assignDefault assignment) → task.Allowed ok bundle := by
    intro hdefault
    cases task with
    | createBundle bundleName => exact h.newBundle
    | resolvePackRefs packRefs => exact trivial
    | assignPackIds => exact htask
    | copyPacks => exact htask
    | linkPacks => exact htask
    | upsertProviderRegistry packRefs => exact hproviders
    | upsertProviderIds providerIds => exact hproviders
    | removeProviderIds providerIds => exact hproviders
    | assignDefault assignment => exact absurd rfl (hdefault assignment)
    | removePack selection => exact absurd rfl (hpack selection)
    | seedSetupAnswers setupAnswers => exact trivial
    | ensureTenant pair => exact h.tenant pair
    | removeTenant selection => exact htenant selection rfl
    | upsertPolicy pair rulePath policy => exact (h.tenant pair).gmapFile
    | syncProject => exact ⟨h.dirsAt _, fun pair => (h.manifest ["state", "resolved"] pair).2⟩
    | copyResolved target => exact h.manifest ["resolved"] target
  by_cases hdefault : ∃ assignment, task = .assignDefault assignment
  · obtain ⟨assignment, rfl⟩ := hdefault
    rw [perform, onDisk_run]
    exact moves_applyDefaultAssignment (fun _ htarget => h.default htarget) execution.disk
  · exact changes_perform (hallowed fun assignment heq => hdefault ⟨assignment, heq⟩) execution

end AllowsOther

/-! ## Adding packs -/

/-- The packs that were resolved are given ids, copied and linked. -/
def addResolved (bundle : Path) (packs : List (ResolvedPackInfo α)) : Eff (Store α) Unit := do
  let packs ← assignPackIdsAndPersistMetadata bundle packs
  packs.forM (copyPackIntoBundle bundle)
  linkPacksToProviderDirs bundle packs

theorem perform_resolve_run {bundle : Path} {env : Env α} {packRefs : List String} (execution : Execution α) :
    (perform bundle env (.resolvePackRefs packRefs)).run execution
      = match resolvePackRefs env.fetch packRefs with
        | .error message => (.error message, execution)
        | .ok packs => (.ok (), ⟨execution.disk, packs⟩) := by
  rw [perform, Eff.bind_run, Eff.lift_run]
  cases resolvePackRefs env.fetch packRefs <;> rfl

theorem perform_assign_run {bundle : Path} {env : Env α} (disk : Store α) (packs : List (ResolvedPackInfo α)) :
    (perform bundle env .assignPackIds).run ⟨disk, packs⟩
      = match (assignPackIdsAndPersistMetadata bundle packs).run disk with
        | (.error message, disk) => (.error message, ⟨disk, packs⟩)
        | (.ok assigned, disk) => (.ok (), ⟨disk, assigned⟩) := by
  rw [perform, Eff.bind_run, Eff.read_run]
  dsimp only
  rw [Eff.bind_run, onDisk_run]
  cases (assignPackIdsAndPersistMetadata bundle packs).run disk with
  | mk result disk => cases result <;> rfl

theorem perform_copyPacks_run {bundle : Path} {env : Env α} (disk : Store α) (packs : List (ResolvedPackInfo α)) :
    (perform bundle env .copyPacks).run ⟨disk, packs⟩
      = (((packs.forM (copyPackIntoBundle bundle)).run disk).1, ⟨((packs.forM (copyPackIntoBundle bundle)).run disk).2, packs⟩) :=
  rfl

theorem perform_linkPacks_run {bundle : Path} {env : Env α} (disk : Store α) (packs : List (ResolvedPackInfo α)) :
    (perform bundle env .linkPacks).run ⟨disk, packs⟩
      = (((linkPacksToProviderDirs bundle packs).run disk).1, ⟨((linkPacksToProviderDirs bundle packs).run disk).2, packs⟩) :=
  rfl

/-- The tasks that add packs do nothing where there are none, or where they are not all resolved. -/
theorem run_addPacks (bundle : Path) (env : Env α) (packRefs : List String) (execution : Execution α) :
    ((((addPacks packRefs).forM (perform bundle env)).run execution).1,
        (((addPacks packRefs).forM (perform bundle env)).run execution).2.disk)
      = if packRefs = [] then (.ok (), execution.disk)
        else match resolvePackRefs env.fetch packRefs with
          | .error message => (.error message, execution.disk)
          | .ok packs => (addResolved bundle packs).run execution.disk := by
  unfold addPacks
  split
  next hnil =>
    rw [if_pos (List.isEmpty_iff.mp hnil)]
    rfl
  next hne =>
    rw [if_neg fun hnil => hne (List.isEmpty_iff.mpr hnil)]
    change (((perform bundle env (.resolvePackRefs packRefs) >>= fun _ =>
      perform bundle env .assignPackIds >>= fun _ => perform bundle env .copyPacks >>= fun _ =>
        perform bundle env .linkPacks >>= fun _ => pure ()).run execution).1,
      ((perform bundle env (.resolvePackRefs packRefs) >>= fun _ =>
      perform bundle env .assignPackIds >>= fun _ => perform bundle env .copyPacks >>= fun _ =>
        perform bundle env .linkPacks >>= fun _ => pure ()).run execution).2.disk) = _
    rw [Eff.bind_run, perform_resolve_run]
    cases resolvePackRefs env.fetch packRefs with
    | error message => rfl
    | ok packs =>
      dsimp only
      rw [Eff.bind_run, perform_assign_run, addResolved, Eff.bind_run]
      cases (assignPackIdsAndPersistMetadata bundle packs).run execution.disk with
      | mk result disk =>
        cases result with
        | error message => rfl
        | ok assigned =>
          dsimp only
          rw [Eff.bind_run, perform_copyPacks_run, Eff.bind_run]
          cases (assigned.forM (copyPackIntoBundle bundle)).run disk with
          | mk result disk =>
            cases result with
            | error message => rfl
            | ok _ =>
              dsimp only
              rw [Eff.bind_run, perform_linkPacks_run]
              cases (linkPacksToProviderDirs bundle assigned).run disk with
              | mk result disk => cases result <;> rfl

/-! ## Executions -/

/-- What every other task keeps, and adding packs after the tasks before it, an execution's tasks keep. -/
theorem keepsDisk_tasksFor {holds : Store α → Prop} {bundle : Path} {env : Env α} {mode : WizardMode}
    {metadata : WizardPlanMetadata}
    (hother : ∀ task ∈ tasksFor mode metadata, task.AddsNoPacks → KeepsDisk holds (perform bundle env task))
    (hadd : KeepsDisk holds ((addPacks (refsFor mode metadata)).forM (perform bundle env))) :
    KeepsDisk holds ((tasksFor mode metadata).forM (perform bundle env)) := by
  obtain ⟨back, heq, hback⟩ := exists_tasksFor_eq mode metadata
  rw [heq, forM_append]
  refine keepsDisk_bind (keepsDisk_forM fun task htask => ?_) fun _ => ?_
  · exact hother task (heq ▸ List.mem_append_left _ htask) (addsNoPacks_tasksBefore htask)
  · rw [forM_append]
    refine keepsDisk_bind hadd fun _ => keepsDisk_forM fun task htask => ?_
    exact hother task (heq ▸ List.mem_append_right _ (List.mem_append_right _ htask)) (hback task htask)

theorem keepsDisk_addPacks {holds : Store α → Prop} {bundle : Path} {env : Env α} {packRefs : List String}
    (h : ∀ packs disk, resolvePackRefs env.fetch packRefs = .ok packs → holds disk →
      holds ((addResolved bundle packs).run disk).2) :
    KeepsDisk holds ((addPacks packRefs).forM (perform bundle env)) := by
  intro execution hdisk
  have hrun := congrArg Prod.snd (run_addPacks bundle env packRefs execution)
  dsimp only at hrun
  rw [hrun]
  split
  next => exact hdisk
  next =>
    split
    next => exact hdisk
    next packs hpacks => exact h packs _ hpacks hdisk

theorem checkBundle_disk (mode : WizardMode) (bundle : Path) (disk : Store α) :
    ((checkBundle mode bundle).run disk).2 = disk := by
  have hvalidate : ((validateBundleExists bundle).run disk).2 = disk := by
    unfold validateBundleExists thereAt
    rw [Eff.bind_run, Eff.read_run]
    dsimp only
    split
    next =>
      rw [Eff.bind_run, Eff.read_run]
      dsimp only
      split <;> rfl
    next => rfl
  cases mode with
  | Create =>
    change ((checkBundle .Create bundle).run disk).2 = disk
    unfold checkBundle thereAt
    dsimp only
    rw [Eff.bind_run, Eff.read_run]
    dsimp only
    split <;> rfl
  | Update => exact hvalidate
  | Remove => exact hvalidate

/-- An execution changes nothing, or its bundle passes the check and its tasks are carried out. -/
theorem disk_executePlan (mode : WizardMode) (bundle : Path) (plan : WizardPlan) (env : Env α) (disk : Store α) :
    ((executePlan mode bundle plan env).run disk).2 = disk
      ∨ (((checkBundle mode bundle).run disk).1 = .ok ()
        ∧ ((executePlan mode bundle plan env).run disk).2
          = (((tasksFor mode plan.metadata).forM (perform bundle env)).run ⟨disk, []⟩).2.disk) := by
  unfold executePlan
  split
  next => exact .inl rfl
  next =>
    have hdisk := checkBundle_disk mode bundle disk
    rw [Eff.bind_run]
    cases hcheck : (checkBundle mode bundle).run disk with
    | mk result disk' =>
      rw [hcheck] at hdisk
      subst hdisk
      cases result with
      | error message => exact .inl rfl
      | ok _ =>
        refine .inr ⟨rfl, ?_⟩
        change ((runTasks bundle env (tasksFor mode plan.metadata)).run ⟨disk', []⟩).2.disk = _
        unfold runTasks
        rw [Eff.bind_run]
        cases ((tasksFor mode plan.metadata).forM (perform bundle env)).run ⟨disk', []⟩ with
        | mk result execution => cases result <;> rfl

theorem keeps_executePlan {holds : Store α → Prop} {mode : WizardMode} {bundle : Path} {plan : WizardPlan}
    {env : Env α} (h : KeepsDisk holds ((tasksFor mode plan.metadata).forM (perform bundle env))) {disk : Store α}
    (hdisk : holds disk) : holds ((executePlan mode bundle plan env).run disk).2 := by
  rcases disk_executePlan mode bundle plan env disk with heq | ⟨-, heq⟩
  · rw [heq]
    exact hdisk
  · rw [heq]
    exact h ⟨disk, []⟩ hdisk

end Wizard
