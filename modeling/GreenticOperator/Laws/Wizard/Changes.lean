import GreenticOperator.Wizard.Execute

/-!
# What the tasks of a wizard change on disk

Each helper of the wizard changes a few places and no others, whether it fails or not. A task may be
carried out where these places may be changed (`Task.Allowed`), and what is then changed is of that
kind (`moves_perform`). The places of packs and of their records are those of the three tasks that
add packs, which have lemmas of their own.
-/

namespace Wizard

open Disk Disk.Files
open Project (TenantSelection Pair)

variable {α : Type} {ok : Change (Content α) → Prop}

theorem moves_thereAt (path : Place) : Eff.Moves (Changes ok) (thereAt (α := α) path) := moves_read _

theorem moves_writeText {path : Place} (h : ∀ a, ok (.write path.path a)) (text : String) :
    Eff.Moves (Changes ok) (writeText path text) := moves_writeFile (h _)

theorem moves_readText (path : Place) : Eff.Moves (Changes ok) (readText (α := α) path) := by
  refine moves_bind (moves_readFile path) fun content => ?_
  cases content with
  | text text => exact moves_pure text
  | pack bytes => exact moves_fail _
  | records records => exact moves_fail _

theorem moves_copyFile {dst : Place} (h : AllowsFile ok dst) (src : Place) :
    Eff.Moves (Changes ok) (copyFile src dst) :=
  moves_bind (moves_readFile src) fun _ => moves_writeFile (h.2 _)

theorem moves_writeIfMissing {path : Place} (h : AllowsFile ok path) (contents : String) :
    Eff.Moves (Changes ok) (writeIfMissing path contents) := by
  refine moves_bind (moves_thereAt path) fun there => ?_
  split
  next => exact moves_pure ()
  next => exact moves_bind (moves_createParents h.1) fun _ => moves_writeText h.2 contents

theorem moves_readIfExists (path : Place) : Eff.Moves (Changes ok) (readIfExists (α := α) path) := by
  refine moves_bind (moves_thereAt path) fun there => ?_
  split
  next => exact moves_bind (moves_readText path) fun _ => moves_pure _
  next => exact moves_pure _

theorem moves_listIfExists (dir : Place) : Eff.Moves (Changes ok) (listIfExists (α := α) dir) := by
  refine moves_bind (moves_thereAt dir) fun there => ?_
  split
  next =>
    refine moves_bind (moves_read _) fun isDir => ?_
    split
    next => exact moves_read _
    next => exact moves_fail _
  next => exact moves_pure _

theorem moves_removeIfExists {path : Place} (h : ok (.remove path.path)) :
    Eff.Moves (Changes ok) (removeIfExists path) := by
  refine moves_bind (moves_thereAt path) fun there => ?_
  split
  next => exact moves_remove h
  next => exact moves_pure ()

/-! ## A new bundle -/

/-- The places of a new bundle may be made. -/
structure AllowsBundle (ok : Change (Content α) → Prop) (bundle : Path) : Prop where
  directories : ∀ directory ∈ demoBundleDirectories, AllowsDirs ok (under bundle [directory])
  yaml : AllowsFile ok (under bundle ["greentic.demo.yaml"])
  defaultTenant : AllowsFile ok (under bundle ["tenants", "default", "tenant.gmap"])
  demoTenant : AllowsFile ok (under bundle ["tenants", "demo", "tenant.gmap"])
  demoTeam : AllowsFile ok (under bundle ["tenants", "demo", "teams", "default", "team.gmap"])

theorem moves_createDemoBundleStructure {bundle : Path} (h : AllowsBundle ok bundle) (bundleName : Option String) :
    Eff.Moves (Changes ok) (createDemoBundleStructure bundle bundleName) := by
  refine moves_bind (moves_forM fun directory hmem => moves_createDirs (h.directories directory hmem)) fun _ => ?_
  refine moves_bind (moves_writeIfMissing h.yaml _) fun _ => ?_
  refine moves_bind (moves_writeIfMissing h.defaultTenant _) fun _ => ?_
  exact moves_bind (moves_writeIfMissing h.demoTenant _) fun _ => moves_writeIfMissing h.demoTeam _

/-! ## Packs -/

theorem moves_writePacksMetadata {bundle : Path} {records : List PackMappingRecord}
    (hdirs : ∀ dir ∈ (packsMetadataPath bundle).passed, ok (.mkdir dir))
    (h : ok (.write (packsMetadataPath bundle).path (.records records))) :
    Eff.Moves (Changes ok) (writePacksMetadata bundle records) :=
  moves_bind (moves_createParents hdirs) fun _ => moves_writeFile h

theorem moves_copyPackIntoBundle {bundle : Path} {pack : ResolvedPackInfo α}
    (h : AllowsFile ok (under bundle [pack.outputPath])) :
    Eff.Moves (Changes ok) (copyPackIntoBundle bundle pack) := by
  unfold copyPackIntoBundle
  split
  next => exact moves_fail _
  next => exact moves_bind (moves_createParents h.1) fun _ => moves_writeFile (h.2 _)

theorem moves_linkPackToProviderDir {bundle : Path} {pack : ResolvedPackInfo α}
    (hdirs : ∀ domainDir, providerDomainDir pack.packId = some domainDir →
      AllowsDirs ok (under bundle ["providers", domainDir]))
    (h : ∀ domainDir name, providerDomainDir pack.packId = some domainDir →
      (under bundle [pack.outputPath]).path.getLast? = some name →
      AllowsFile ok (under bundle ["providers", domainDir, name])) :
    Eff.Moves (Changes ok) (linkPackToProviderDir bundle pack) := by
  unfold linkPackToProviderDir
  split
  next => exact moves_pure ()
  next domainDir hdomain =>
    refine moves_bind (moves_thereAt _) fun there => ?_
    split
    next =>
      refine moves_bind (moves_createDirs (hdirs domainDir hdomain)) fun _ => ?_
      split
      next => exact moves_fail _
      next name hname =>
        refine moves_bind (moves_thereAt _) fun there => ?_
        split
        next => exact moves_pure ()
        next => exact moves_copyFile (h domainDir name hdomain hname) _
    next => exact moves_pure ()

theorem moves_resolvePackIdentifier (bundle : Path) (identifier : String) :
    Eff.Moves (Changes ok) (resolvePackIdentifier (α := α) bundle identifier) :=
  moves_bind (moves_read _) fun _ => moves_lift _

/-- A text may be written at a place, and the directories on the way to it may be made. -/
def AllowsText (ok : Change (Content α) → Prop) (place : Place) : Prop :=
  (∀ dir ∈ place.passed, ok (.mkdir dir)) ∧ ∀ text, ok (.write place.path (.text text))

theorem moves_applyDefaultAssignment {bundle : Path} {assignment : PackDefaultSelection}
    (h : ∀ target, defaultTarget bundle assignment.scope = some target → AllowsText ok target) :
    Eff.Moves (Changes ok) (applyDefaultAssignment bundle assignment) := by
  refine moves_bind (moves_resolvePackIdentifier bundle _) fun packId => ?_
  dsimp only
  split
  next => exact moves_pure ()
  next target htarget =>
    refine moves_bind (moves_thereAt _) fun there => ?_
    split
    next =>
      exact moves_bind (moves_createParents (h target htarget).1) fun _ => moves_writeFile ((h target htarget).2 _)
    next => exact moves_pure ()

theorem moves_removePackFiles {bundle : Path} {packId : String}
    (h : ∀ name, carries packId name = true → ok (.remove (bundle ++ ["packs", name]))) :
    Eff.Moves (Changes ok) (removePackFiles bundle packId) := by
  refine moves_bind (moves_listIfExists _) fun names => ?_
  exact moves_forM fun name hname => moves_remove (h name (List.mem_filter.mp hname).2)

theorem moves_readDefault (path : Place) : Eff.Moves (Changes ok) (readDefault (α := α) path) := by
  refine moves_bind (moves_thereAt path) fun there => ?_
  split
  next => exact moves_bind (moves_readText path) fun _ => moves_pure ()
  next => exact moves_pure ()

theorem moves_markDanglingDefaults (bundle : Path) :
    Eff.Moves (Changes ok) (markDanglingDefaults (α := α) bundle) := by
  refine moves_bind (moves_readDefault _) fun _ => ?_
  refine moves_bind (moves_listIfExists _) fun tenants => moves_forM fun tenant _ => ?_
  refine moves_bind (moves_readDefault _) fun _ => ?_
  exact moves_bind (moves_listIfExists _) fun teams => moves_forM fun team _ => moves_readDefault _

theorem moves_removeScope {bundle : Path} {scope : PackScope}
    (h : ∀ target, defaultTarget bundle scope = some target → ok (.remove target.path)) :
    Eff.Moves (Changes ok) (match defaultTarget bundle scope with
      | none => markDanglingDefaults (α := α) bundle
      | some target => removeIfExists target) := by
  split
  next => exact moves_markDanglingDefaults bundle
  next target htarget => exact moves_removeIfExists (h target htarget)

/-- A removal changes what goes by the id that the records give it, and the default of its scope. -/
theorem changes_applyPackRemove {bundle : Path} {selection : PackRemoveSelection} {disk : Store α}
    (h : ∀ packId, canonicalPackIdentifier (loadPacksMetadata bundle disk) selection.packIdentifier = .ok packId →
      ∀ name, carries packId name = true → ok (.remove (bundle ++ ["packs", name])))
    (htarget : ∀ target, defaultTarget bundle (selection.scope.getD .Bundle) = some target → ok (.remove target.path)) :
    Changes ok disk ((applyPackRemove bundle selection).run disk).2 := by
  have hresolve : (resolvePackIdentifier bundle selection.packIdentifier).run disk
      = (canonicalPackIdentifier (loadPacksMetadata bundle disk) selection.packIdentifier, disk) := rfl
  unfold applyPackRemove
  cases hid : canonicalPackIdentifier (loadPacksMetadata bundle disk) selection.packIdentifier with
  | error message =>
    rw [Eff.bind_run_of_error (hresolve.trans (by rw [hid]))]
    exact .refl
  | ok packId =>
    rw [Eff.bind_run_of_ok (hresolve.trans (by rw [hid]))]
    exact moves_bind (moves_removePackFiles (h packId hid)) (fun _ => moves_removeScope htarget) disk

/-! ## Tenants and manifests -/

/-- The places of a tenant or team may be made. -/
structure AllowsTenant (ok : Change (Content α) → Prop) (bundle : Path) (pair : Pair) : Prop where
  tenantDirs : AllowsDirs ok (under bundle ["tenants", pair.1, "teams"])
  tenantFile : AllowsFile ok (under bundle ["tenants", pair.1, "tenant.gmap"])
  teamDirs : ∀ team, pair.2 = some team → AllowsDirs ok (under bundle ["tenants", pair.1, "teams", team])
  teamFile : ∀ team, pair.2 = some team →
    AllowsFile ok (under bundle ["tenants", pair.1, "teams", team, "team.gmap"])

theorem AllowsTenant.gmapFile {bundle : Path} {pair : Pair} (h : AllowsTenant ok bundle pair) :
    AllowsFile ok (demoBundleGmapPath bundle pair) := by
  obtain ⟨tenant, team⟩ := pair
  cases team with
  | none => exact h.tenantFile
  | some team => exact h.teamFile team rfl

theorem moves_writeUnlessThere {path : Place} (h : AllowsFile ok path) (contents : String) :
    Eff.Moves (Changes ok) (do if ← thereAt path then return () else writeText path contents) := by
  refine moves_bind (moves_thereAt path) fun there => ?_
  split
  next => exact moves_pure ()
  next => exact moves_writeText h.2 contents

theorem moves_ensureTenantAndTeam {bundle : Path} {pair : Pair} (h : AllowsTenant ok bundle pair) :
    Eff.Moves (Changes ok) (ensureTenantAndTeam bundle pair) := by
  refine moves_bind (moves_bind (moves_createDirs h.tenantDirs) fun _ => moves_writeUnlessThere h.tenantFile _) fun _ => ?_
  split
  next team hteam =>
    split
    next => exact moves_pure ()
    next => exact moves_bind (moves_createDirs (h.teamDirs team hteam)) fun _ => moves_writeUnlessThere (h.teamFile team hteam) _
  next => exact moves_pure ()

/-- The directory that the removal of a tenant or a team removes. -/
def removedPlace (bundle : Path) (selection : TenantSelection) : Place :=
  match selection.team with
  | some team => under bundle ["tenants", selection.tenant, "teams", team]
  | none => under bundle ["tenants", selection.tenant]

theorem moves_removeTenantOrTeam {bundle : Path} {selection : TenantSelection}
    (h : ok (.remove (removedPlace bundle selection).path)) :
    Eff.Moves (Changes ok) (removeTenantOrTeam bundle selection) := by
  refine moves_bind (moves_thereAt _) fun there => ?_
  split
  next =>
    refine moves_bind (moves_read _) fun isDir => ?_
    split
    next => exact moves_remove h
    next => exact moves_fail _
  next => exact moves_pure ()

theorem moves_upsertPolicy {path : Place} (h : AllowsFile ok path) (rulePath : String) (policy : Gmap.Policy) :
    Eff.Moves (Changes ok) (upsertPolicy path rulePath policy) := by
  refine moves_bind (moves_readIfExists path) fun contents => moves_bind (moves_lift _) fun updated => ?_
  exact moves_bind (moves_createParents h.1) fun _ => moves_writeText h.2 updated

theorem resolvedManifestFilename_eq (pair : Pair) :
    ∃ front, Project.resolvedManifestFilename pair = front ++ ".yaml" := by
  obtain ⟨tenant, team⟩ := pair
  cases team with
  | none => exact ⟨toString tenant, rfl⟩
  | some team => exact ⟨toString tenant ++ "." ++ toString team, rfl⟩

/-- The place of a resolved manifest. -/
def resolvedPlace (bundle : Path) (pair : Pair) : Place :=
  under bundle ["state", "resolved", Project.resolvedManifestFilename pair]

theorem moves_syncProject {bundle : Path} (hdirs : AllowsDirs ok (under bundle ["state", "resolved"]))
    (h : ∀ pair a, ok (.write (resolvedPlace bundle pair).path a)) (scanned : Except String Unit)
    (manifest : Pair → String) : Eff.Moves (Changes ok) (syncProject bundle scanned manifest) := by
  refine moves_bind (moves_lift _) fun _ => moves_bind (moves_read _) fun pairs => ?_
  refine moves_bind (moves_createDirs hdirs) fun _ => moves_forM fun pair _ => ?_
  exact moves_writeText (h pair) _

theorem moves_copyResolved {bundle : Path} {target : Pair}
    (h : AllowsFile ok (under bundle ["resolved", Project.resolvedManifestFilename target])) :
    Eff.Moves (Changes ok) (copyResolved bundle target) := by
  refine moves_bind (moves_thereAt _) fun there => ?_
  split
  next => exact moves_bind (moves_createParents h.1) fun _ => moves_copyFile h _
  next => exact moves_pure ()

theorem moves_writeRegistry {bundle : Path} (h : AllowsFile ok (under bundle ["providers", "providers.json"]))
    (registry : Except String (Option String)) : Eff.Moves (Changes ok) (writeRegistry bundle registry) := by
  refine moves_bind (moves_lift _) fun payload => ?_
  cases payload with
  | none => exact moves_pure ()
  | some payload => exact moves_bind (moves_createParents h.1) fun _ => moves_writeText h.2 payload

/-! ## Tasks -/

/-- The places that a task changes may be changed. Packs are added, and removed by the ids that the
records give them, only where that is stated. -/
def Task.Allowed (ok : Change (Content α) → Prop) (bundle : Path) : Task → Prop
  | .createBundle _ => AllowsBundle ok bundle
  | .resolvePackRefs _ | .seedSetupAnswers _ => True
  | .assignPackIds | .copyPacks | .linkPacks | .removePack _ => False
  | .upsertProviderRegistry _ | .upsertProviderIds _ | .removeProviderIds _ =>
    AllowsFile ok (under bundle ["providers", "providers.json"])
  | .assignDefault assignment => ∀ target, defaultTarget bundle assignment.scope = some target → AllowsFile ok target
  | .ensureTenant pair => AllowsTenant ok bundle pair
  | .removeTenant selection => ok (.remove (removedPlace bundle selection).path)
  | .upsertPolicy pair _ _ => AllowsFile ok (demoBundleGmapPath bundle pair)
  | .syncProject => AllowsDirs ok (under bundle ["state", "resolved"])
    ∧ ∀ pair a, ok (.write (resolvedPlace bundle pair).path a)
  | .copyResolved target => AllowsFile ok (under bundle ["resolved", Project.resolvedManifestFilename target])

theorem onDisk_run {β : Type} (x : Eff (Store α) β) (execution : Execution α) :
    (onDisk x).run execution
      = ((x.run execution.disk).1, { execution with disk := (x.run execution.disk).2 }) := rfl

/-- **What a task changes** is of the kind that is allowed for it; only resolving and assigning ids
change the packs that were resolved. -/
theorem changes_perform {bundle : Path} {env : Env α} {task : Task} (h : task.Allowed ok bundle)
    (execution : Execution α) : Changes ok execution.disk ((perform bundle env task).run execution).2.disk := by
  cases task with
  | createBundle bundleName =>
    rw [perform, onDisk_run]
    exact moves_createDemoBundleStructure h bundleName execution.disk
  | resolvePackRefs packRefs =>
    cases hresolved : resolvePackRefs env.fetch packRefs with
    | error message =>
      have hrun : (perform bundle env (.resolvePackRefs packRefs)).run execution = (.error message, execution) := by
        rw [perform, hresolved]
        rfl
      rw [hrun]
      exact .refl
    | ok packs =>
      have hrun : (perform bundle env (.resolvePackRefs packRefs)).run execution
          = (.ok (), { execution with resolvedPacks := packs }) := by
        rw [perform, hresolved]
        rfl
      rw [hrun]
      exact .refl
  | assignPackIds => exact h.elim
  | copyPacks => exact h.elim
  | linkPacks => exact h.elim
  | removePack selection => exact h.elim
  | upsertProviderRegistry packRefs =>
    rw [perform]
    split
    next => exact .refl
    next =>
      rw [onDisk_run]
      exact moves_writeRegistry h _ execution.disk
  | assignDefault assignment =>
    rw [perform, onDisk_run]
    exact moves_applyDefaultAssignment (fun target htarget => ⟨(h target htarget).1, fun _ => (h target htarget).2 _⟩)
      execution.disk
  | upsertProviderIds providerIds =>
    rw [perform, onDisk_run]
    exact moves_writeRegistry h _ execution.disk
  | removeProviderIds providerIds =>
    rw [perform, onDisk_run]
    exact moves_writeRegistry h _ execution.disk
  | seedSetupAnswers setupAnswers => exact .refl
  | ensureTenant pair =>
    rw [perform, onDisk_run]
    exact moves_ensureTenantAndTeam h execution.disk
  | removeTenant selection =>
    rw [perform, onDisk_run]
    exact moves_removeTenantOrTeam h execution.disk
  | upsertPolicy pair rulePath policy =>
    rw [perform, onDisk_run]
    exact moves_upsertPolicy h rulePath policy execution.disk
  | syncProject =>
    rw [perform, onDisk_run]
    exact moves_syncProject h.1 h.2 _ _ execution.disk
  | copyResolved target =>
    rw [perform, onDisk_run]
    exact moves_copyResolved h execution.disk

end Wizard
