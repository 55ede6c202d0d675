import GreenticOperator.Cli.Policy
import GreenticOperator.Laws.Wizard.Changes

/-!
# What allowing and forbidding change

The edit of the gmap comes first: where it is refused no file changes, and where its write fails no other
file does (`upsertPolicyBy_cases`). After it only resolved manifests are written, whose names end otherwise
than those of gmap files, so that no other gmap file ever changes (`read_afterEdit`). What follows the edit
may still fail, and the edit stays. Where the command succeeds, the manifest it copies is the one that the
resolver left under the name of the tenant and team (`syncProject_ok`).
-/

namespace Cli

open Disk Disk.Files Wizard
open Project (Pair)

variable {α : Type}

/-! ## Names of files -/

/-- The path of a gmap file. -/
def IsGmap (p : Path) : Prop := p.getLast? = some "tenant.gmap" ∨ p.getLast? = some "team.gmap"

/-- The path of a resolved manifest. -/
def IsYaml (p : Path) : Prop := ∃ name, p.getLast? = some (name ++ ".yaml")

theorem not_gmap_of_yaml {p : Path} (h : IsYaml p) : ¬IsGmap p := by
  obtain ⟨name, hname⟩ := h
  have hlast : (name ++ ".yaml").toList.getLast? = some 'l' := by
    rw [String.toList_append]
    exact List.getLast?_append_of_ne_nil _ (by decide)
  rintro (hgmap | hgmap)
  · rw [Option.some.inj (hname.symm.trans hgmap)] at hlast
    exact absurd hlast (by decide)
  · rw [Option.some.inj (hname.symm.trans hgmap)] at hlast
    exact absurd hlast (by decide)

theorem yaml_of_manifest (base : Path) (texts : List String) (pair : Pair) :
    IsYaml (under base (texts ++ [Project.resolvedManifestFilename pair])).path := by
  obtain ⟨front, hfront⟩ := resolvedManifestFilename_eq pair
  rw [hfront]
  exact exists_getLast_under_append base texts front (by decide) (by decide)

theorem gmap_of_place (bundle : Path) (pair : Pair) : IsGmap (demoBundleGmapPath bundle pair).path := by
  obtain ⟨tenant, team⟩ := pair
  cases team with
  | none => exact Or.inl (getLast_under bundle ["tenants", tenant] (by decide))
  | some team => exact Or.inr (getLast_under bundle ["tenants", tenant, "teams", team] (by decide))

/-! ## The edit -/

theorem readIfExists_snd (place : Place) (disk : Store α) : ((readIfExists (α := α) place).run disk).2 = disk := by
  have hmoves : Changes (fun _ => False) disk ((readIfExists (α := α) place).run disk).2 :=
    moves_readIfExists place disk
  exact hmoves.eq_of_none fun _ => id

/-- How a gmap is written over: with its whole text, or with an error, after which no other file was changed. -/
theorem text_cases (writing : Writing α) (place : Place) (text : String) (disk : Store α) :
    (∃ message after, (writing.text place text).run disk = (.error message, after)
        ∧ ∀ p, p ≠ place.path → after.read p = disk.read p)
      ∨ (writing.text place text).run disk = (.ok (), disk.write place.path (.text text)) := by
  cases writing with
  | whole =>
    rcases writeFile_cases place (.text text) disk with ⟨message, hwrite⟩ | ⟨-, hwrite⟩
    · exact .inl ⟨message, disk, hwrite, fun _ _ => rfl⟩
    · exact .inr hwrite
  | refused message => exact .inl ⟨message, disk, rfl, fun _ _ => rfl⟩
  | torn left message =>
    rcases writeFile_cases place left disk with ⟨failure, hwrite⟩ | ⟨-, hwrite⟩
    · exact .inl ⟨failure, disk, Eff.bind_run_of_error hwrite, fun _ _ => rfl⟩
    · exact .inl ⟨message, _, Eff.bind_run_of_ok hwrite, fun p hp => read_write_of_ne disk hp left⟩

/-- What an edit makes of the contents of a file, before any file is written. -/
def editedAt (place : Place) (rulePath : String) (policy : Gmap.Policy) (disk : Store α) : Except String String :=
  ((readIfExists place).run disk).1.bind fun contents => Gmap.upsertPolicy contents rulePath policy

/-- **An edit** that is refused for the contents or the path changes no file; one that fails later changes no file
but its own; and one that does not fail leaves what was made of the contents. -/
theorem upsertPolicyBy_cases (writing : Writing α) (place : Place) (rulePath : String) (policy : Gmap.Policy)
    (disk : Store α) :
    (∃ message, editedAt place rulePath policy disk = .error message
        ∧ (upsertPolicyBy writing place rulePath policy).run disk = (.error message, disk))
      ∨ ∃ updated, editedAt place rulePath policy disk = .ok updated
        ∧ ((∃ message after, (upsertPolicyBy writing place rulePath policy).run disk = (.error message, after)
            ∧ ∀ p, p ≠ place.path → after.read p = disk.read p)
          ∨ (disk.createDirAll place.passed).2 = .ok ()
            ∧ (upsertPolicyBy writing place rulePath policy).run disk
              = (.ok (), (disk.createDirAll place.passed).1.write place.path (.text updated))) := by
  unfold editedAt upsertPolicyBy
  cases hcontents : ((readIfExists (α := α) place).run disk).1 with
  | error message =>
    exact .inl ⟨message, rfl, Eff.bind_run_of_error (Prod.ext hcontents (readIfExists_snd place disk))⟩
  | ok contents =>
    have hread : (readIfExists (α := α) place).run disk = (.ok contents, disk) :=
      Prod.ext hcontents (readIfExists_snd place disk)
    rw [Eff.bind_run_of_ok hread]
    dsimp only [Except.bind]
    cases Gmap.upsertPolicy contents rulePath policy with
    | error message => exact .inl ⟨message, rfl, rfl⟩
    | ok updated =>
      refine .inr ⟨updated, rfl, ?_⟩
      rw [Eff.bind_lift_run_ok]
      cases hdirs : (disk.createDirAll place.passed).2 with
      | error message =>
        have hparents : (createParents place).run disk = (.error message, (disk.createDirAll place.passed).1) :=
          Prod.ext hdirs rfl
        exact .inl ⟨message, _, Eff.bind_run_of_error hparents, fun p _ => disk.read_createDirAll place.passed p⟩
      | ok _ =>
        have hparents : (createParents place).run disk = (.ok (), (disk.createDirAll place.passed).1) :=
          Prod.ext hdirs rfl
        rw [Eff.bind_run_of_ok hparents]
        rcases text_cases writing place updated (disk.createDirAll place.passed).1 with ⟨message, after, hwrite, hsame⟩
          | hwrite
        · exact .inl ⟨message, after, hwrite, fun p hp => (hsame p hp).trans (disk.read_createDirAll place.passed p)⟩
        · exact .inr ⟨rfl, hwrite⟩

/-! ## After the edit -/

/-- What the command may change besides the gmap it edits. -/
def AfterEdit : Change (Content α) → Prop
  | .write p _ => IsYaml p
  | .mkdir _ => True
  | .remove _ => False

theorem moves_copyResolvedManifest (args : DemoPolicyArgs) (pair : Pair) :
    Eff.Moves (Changes AfterEdit) (copyResolvedManifest (α := α) args pair) := by
  have hfile : AllowsFile (AfterEdit (α := α)) (demoResolvedManifestPath args.bundle pair) :=
    ⟨fun _ _ => trivial, fun _ => yaml_of_manifest args.bundle ["resolved"] pair⟩
  refine Disk.Files.moves_bind (moves_thereAt _) fun there => ?_
  split
  · exact Disk.Files.moves_bind (moves_createParents hfile.1) fun _ => moves_copyFile hfile _
  · exact moves_fail _

theorem moves_afterEdit (args : DemoPolicyArgs) (pair : Pair) (scanned : Except String Unit)
    (manifest : Pair → String) :
    Eff.Moves (Changes AfterEdit)
      (syncProject (α := α) args.bundle scanned manifest >>= fun _ => copyResolvedManifest args pair) := by
  refine Disk.Files.moves_bind ?_ fun _ => moves_copyResolvedManifest args pair
  exact moves_syncProject ⟨fun _ _ => trivial, trivial⟩
    (fun other _ => yaml_of_manifest args.bundle ["state", "resolved"] other) scanned manifest

/-- A gmap file stays as the edit left it. -/
theorem read_afterEdit {disk after : Store α} (h : Changes AfterEdit disk after) {p : Path} (hp : IsGmap p) :
    after.read p = disk.read p :=
  h.read_of_spared (fun _ hyaml => not_gmap_of_yaml hyaml hp) fun _ hremove => absurd hremove id

/-- The command is the edit and what follows it. -/
theorem demoPolicy_run (args : DemoPolicyArgs) (policy : Gmap.Policy) (writing : Writing α) (scanned : Except String Unit)
    (manifest : Pair → String) (disk : Store α) :
    (demoPolicy args policy writing scanned manifest).run disk
      = (upsertPolicyBy writing (demoBundleGmapPath args.bundle (args.tenant, args.effectiveTeam disk)) args.path policy
          >>= fun _ => syncProject args.bundle scanned manifest
          >>= fun _ => copyResolvedManifest args (args.tenant, args.effectiveTeam disk)).run disk := rfl

/-- What the resolver leaves under the name of a tenant and team that no other has. -/
theorem syncProject_ok {bundle : Path} {scanned : Except String Unit} {manifest : Pair → String}
    {disk after : Store α} (h : (syncProject bundle scanned manifest).run disk = (.ok (), after)) {pair : Pair}
    (hfound : pair ∈ scanTenants bundle disk)
    (halone : ∀ other ∈ scanTenants bundle disk,
      (demoStateResolvedManifestPath bundle other).path = (demoStateResolvedManifestPath bundle pair).path →
        other = pair) :
    after.read (demoStateResolvedManifestPath bundle pair).path = some (.text (manifest pair)) := by
  obtain ⟨_, _, h⟩ := Eff.bind_lift_ok h
  rw [Eff.bind_read_run] at h
  obtain ⟨_, made, -, hwrites⟩ := Eff.bind_run_ok h
  exact read_forM_writeFile hwrites hfound halone

/-- What a copy leaves at both of its places. -/
theorem copyFile_ok {src dst : Place} {disk after : Store α} (h : (copyFile src dst).run disk = (.ok (), after)) :
    ∃ content, disk.read src.path = some content ∧ after = disk.write dst.path content := by
  obtain ⟨content, read, hread, hwrite⟩ := Eff.bind_run_ok h
  obtain ⟨hcontent, rfl⟩ := readFile_ok hread
  exact ⟨content, hcontent, (writeFile_ok hwrite).2⟩

/-- A manifest that is copied is the one that was there. -/
theorem copyResolvedManifest_ok {args : DemoPolicyArgs} {pair : Pair} {disk after : Store α}
    (h : (copyResolvedManifest args pair).run disk = (.ok (), after)) :
    ∃ content, disk.read (demoStateResolvedManifestPath args.bundle pair).path = some content
      ∧ after.read (demoStateResolvedManifestPath args.bundle pair).path = some content
      ∧ after.read (demoResolvedManifestPath args.bundle pair).path = some content := by
  unfold copyResolvedManifest thereAt at h
  rw [Eff.bind_read_run] at h
  split at h
  next =>
    obtain ⟨_, made, hparents, hcopy⟩ := Eff.bind_run_ok h
    obtain ⟨content, hcontent, rfl⟩ := copyFile_ok hcopy
    have hmade : made = (disk.createDirAll (demoResolvedManifestPath args.bundle pair).passed).1 :=
      (congrArg Prod.snd hparents).symm
    refine ⟨content, ?_, ?_, read_write_self _ _ _⟩
    · rw [hmade, read_createDirAll] at hcontent
      exact hcontent
    · by_cases hsame : (demoStateResolvedManifestPath args.bundle pair).path
          = (demoResolvedManifestPath args.bundle pair).path
      · rw [hsame, read_write_self]
      · rw [read_write_of_ne _ hsame, hcontent]
  next => cases h

/-! ## Tenants and teams that the resolver finds -/

theorem mem_subdirectories {disk : Store α} {dir : Path} {name : String} :
    name ∈ subdirectories disk dir ↔ dir ++ [name] ∈ disk.dirs := by
  unfold subdirectories
  rw [List.mem_insertionSort, List.mem_filter, mem_entries, isDir, Bool.or_eq_true, List.contains_iff_mem]
  constructor
  · rintro ⟨-, hempty | hdir⟩
    · simp at hempty
    · exact hdir
  · exact fun hdir => ⟨⟨dir ++ [name], List.mem_append_right _ hdir, List.prefix_refl _⟩, Or.inr hdir⟩

/-- Directories that are made are there. -/
theorem dirs_of_edit {disk : Store α} {place : Place} (h : (disk.createDirAll place.passed).2 = .ok ())
    (updated : String) :
    ((disk.createDirAll place.passed).1.write place.path (.text updated)).dirs = disk.dirs ++ place.passed :=
  dirs_createDirAll (createDirAll_ok_iff.mp h)

/-- **After the edit the resolver finds** the tenant and team: a team's directory is made with its gmap,
and a tenant without team directories stands for itself. -/
theorem found_after_edit {bundle : Path} {pair : Pair} {disk : Store α} (htenant : Plain pair.1)
    (hteam : ∀ team, pair.2 = some team → Plain team)
    (hnone : pair.2 = none → subdirectories disk (bundle ++ ["tenants", pair.1, "teams"]) = [])
    (h : (disk.createDirAll (demoBundleGmapPath bundle pair).passed).2 = .ok ()) (updated : String) :
    pair ∈ scanTenants bundle ((disk.createDirAll (demoBundleGmapPath bundle pair).passed).1.write
      (demoBundleGmapPath bundle pair).path (.text updated)) := by
  have hdirs := dirs_of_edit h updated
  obtain ⟨tenant, team⟩ := pair
  unfold scanTenants
  refine List.mem_flatMap.mpr ⟨tenant, ?_, ?_⟩
  · rw [mem_subdirectories, hdirs, List.append_assoc]
    refine List.mem_append_right _ ?_
    cases team with
    | none =>
      exact @mem_passed_plain bundle ["tenants", tenant] ["tenant.gmap"] (by simp [htenant]; decide) nofun (by simp)
    | some team =>
      exact @mem_passed_plain bundle ["tenants", tenant] ["teams", team, "team.gmap"]
        (by simp [htenant, hteam team rfl]; decide) nofun (by simp)
  · unfold Project.TenantEntry.pairs
    cases team with
    | none =>
      have hteams : subdirectories ((disk.createDirAll (demoBundleGmapPath bundle (tenant, none)).passed).1.write
          (demoBundleGmapPath bundle (tenant, none)).path (.text updated)) (bundle ++ ["tenants", tenant, "teams"])
          = [] := by
        refine List.eq_nil_iff_forall_not_mem.mpr fun name hmem => ?_
        rw [mem_subdirectories, hdirs] at hmem
        rcases List.mem_append.mp hmem with hbefore | hmade
        · exact List.eq_nil_iff_forall_not_mem.mp (hnone rfl) name (mem_subdirectories.mpr hbefore)
        · -- The directories made lead no further than the tenant's.
          have hplain : ∀ name ∈ ["tenants", tenant, "tenant.gmap"], Plain name := by
            simp [htenant]
            decide
          obtain ⟨front, hfront, heq⟩ := prefix_of_mem_passed_plain hplain hmade
          have hlength := congrArg List.length heq
          have hshort := hfront.length_le
          simp at hlength hshort
          omega
      rw [if_pos hteams]
      exact List.mem_singleton_self _
    | some team =>
      have hfound : team ∈ subdirectories
          ((disk.createDirAll (demoBundleGmapPath bundle (tenant, some team)).passed).1.write
            (demoBundleGmapPath bundle (tenant, some team)).path (.text updated))
          (bundle ++ ["tenants", tenant, "teams"]) := by
        rw [mem_subdirectories, hdirs, List.append_assoc]
        exact List.mem_append_right _ (@mem_passed_plain bundle ["tenants", tenant, "teams", team] ["team.gmap"]
          (by simp [htenant, hteam team rfl]; decide) nofun (by simp))
      rw [if_neg (List.ne_nil_of_mem hfound)]
      exact List.mem_map_of_mem hfound

/-! ## The command -/

/-- The resolver writes the manifest of a tenant and team, and no other under its name. -/
structure ResolvedAlone (bundle : Path) (pair : Pair) (disk edited : Store α) : Prop where
  tenant : Plain pair.1
  team : ∀ team, pair.2 = some team → Plain team
  noTeams : pair.2 = none → subdirectories disk (bundle ++ ["tenants", pair.1, "teams"]) = []
  alone : ∀ other ∈ scanTenants bundle edited,
    (demoStateResolvedManifestPath bundle other).path = (demoStateResolvedManifestPath bundle pair).path →
      other = pair

/-- **Allowing and forbidding** edit one gmap or none. An edit that is refused changes no file, and where its write
fails no other file; no other gmap file ever changes; and where the command succeeds, the gmap is as the edit makes
it, and the manifest copied is the one that the resolver left for the same tenant and team. -/
theorem demoPolicy_edits (args : DemoPolicyArgs) (policy : Gmap.Policy) (writing : Writing α)
    (scanned : Except String Unit) (manifest : Pair → String) (disk : Store α) :
    let pair := (args.tenant, args.effectiveTeam disk)
    let place := demoBundleGmapPath args.bundle pair
    let edit := (upsertPolicyBy writing place args.path policy).run disk
    let ended := (demoPolicy args policy writing scanned manifest).run disk
    (∀ message, editedAt place args.path policy disk = .error message →
      ended.1 = .error message ∧ ∀ p, ended.2.read p = disk.read p)
    ∧ (∀ message, edit.1 = .error message →
      ended.1 = .error message ∧ ∀ p, p ≠ place.path → ended.2.read p = disk.read p)
    ∧ (∀ p, IsGmap p → p ≠ place.path → ended.2.read p = disk.read p)
    ∧ (ended.1 = .ok () →
      (∃ updated, editedAt place args.path policy disk = .ok updated
        ∧ ended.2.read place.path = some (.text updated))
      ∧ ∃ content, ended.2.read (demoStateResolvedManifestPath args.bundle pair).path = some content
        ∧ ended.2.read (demoResolvedManifestPath args.bundle pair).path = some content
        ∧ (ResolvedAlone args.bundle pair disk edit.2 → content = .text (manifest pair))) := by
  intro pair place edit ended
  have hended : ended = (upsertPolicyBy writing place args.path policy >>= fun _ =>
      syncProject args.bundle scanned manifest >>= fun _ => copyResolvedManifest args pair).run disk :=
    demoPolicy_run args policy writing scanned manifest disk
  -- Nothing follows an edit that fails.
  have hfails : ∀ {message after}, edit = (.error message, after) → ended = (.error message, after) := fun hrun =>
    hended.trans (Eff.bind_run_of_error hrun)
  rcases upsertPolicyBy_cases writing place args.path policy disk with ⟨message, hedited, hrun⟩
    | ⟨updated, hedited, ⟨message, after, hrun, hsame⟩ | ⟨hdirs, hrun⟩⟩
  · rw [hfails hrun, hedited, show edit = (.error message, disk) from hrun]
    refine ⟨fun other h => ?_, fun _ h => ⟨h, fun _ _ => rfl⟩, fun _ _ _ => rfl, nofun⟩
    rw [Except.error.inj h]
    exact ⟨rfl, fun _ => rfl⟩
  · rw [hfails hrun, hedited, show edit = (.error message, after) from hrun]
    exact ⟨nofun, fun _ h => ⟨h, hsame⟩, fun p _ => hsame p, nofun⟩
  · rw [Eff.bind_run_of_ok hrun] at hended
    have hedit : edit = (.ok (), (disk.createDirAll place.passed).1.write place.path (.text updated)) := hrun
    have hchanges : Changes AfterEdit ((disk.createDirAll place.passed).1.write place.path (.text updated)) ended.2 := by
      rw [hended]
      exact moves_afterEdit args pair scanned manifest _
    rw [hedited, hedit]
    refine ⟨nofun, nofun, fun p hp hne => ?_, fun hok => ⟨⟨updated, rfl, ?_⟩, ?_⟩⟩
    · rw [read_afterEdit hchanges hp, read_write_of_ne _ hne, read_createDirAll]
    · rw [read_afterEdit hchanges (gmap_of_place args.bundle pair), read_write_self]
    · obtain ⟨_, synced, hsync, hcopy⟩ := Eff.bind_run_ok (hended.symm.trans (Prod.ext hok rfl))
      obtain ⟨content, hbefore, hsrc, hdst⟩ := copyResolvedManifest_ok hcopy
      refine ⟨content, hsrc, hdst, fun h => ?_⟩
      have hfound := found_after_edit h.tenant h.team h.noTeams hdirs updated
      exact Option.some.inj (hbefore.symm.trans (syncProject_ok hsync hfound h.alone))

/-! ## A rule that is there already, and a manifest that is not -/

/-- A tenant whose only team directories are those given. -/
def acme (gmap : String) (teams : List String) : Store Unit where
  files := [(["tenants", "acme", "tenant.gmap"], .text gmap)]
  dirs := [["tenants"], ["tenants", "acme"], ["tenants", "acme", "teams"]]
    ++ teams.map fun team => ["tenants", "acme", "teams", team]

def allowDemo : DemoPolicyArgs where
  bundle := []
  bundleText := "/demo"
  tenant := "acme"
  team := none
  path := "demo"

/-- What `demo allow` leaves, with manifests without contents. -/
def allowed (disk : Store Unit) : Except String Unit × Store Unit :=
  (demoPolicy allowDemo .Public .whole (.ok ()) fun _ => "").run disk

/-- A rule that is there already is allowed without a change; and where the tenant has teams, but no team
`default`, a rule is changed before the command fails. -/
theorem allow_is_not_all_or_nothing :
    ((allowed (acme "_ = forbidden\ndemo = public\n" [])).1 = .ok ()
      ∧ (allowed (acme "_ = forbidden\ndemo = public\n" [])).2.read ["tenants", "acme", "tenant.gmap"]
        = some (.text "_ = forbidden\ndemo = public\n"))
    ∧ (allowed (acme "_ = forbidden\n" ["eng"])).1
      = .error "resolved manifest not found at /demo/state/resolved/acme.yaml"
    ∧ (allowed (acme "_ = forbidden\n" ["eng"])).2.read ["tenants", "acme", "tenant.gmap"]
      = some (.text "_ = forbidden\ndemo = public\n") := by
  refine ⟨⟨?_, ?_⟩, ?_, ?_⟩ <;> decide +kernel

end Cli
