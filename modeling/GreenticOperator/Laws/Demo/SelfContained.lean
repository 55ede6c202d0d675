import GreenticOperator.Laws.Demo.Build
import GreenticOperator.Project.Scan

/-!
# A bundle that holds what its manifests list

A bundle is `SelfContained` where `resolved` holds exactly the manifests that were selected, every path they
list is there with what the project holds at it, and the rules of their tenants are there. A copy of a
directory that is missing does nothing, and so a manifest may list a path that the project has no
longer, and that the bundle has not either. `selfContained_iff_covered` says that this is
all that can be missing: a bundle built from manifests as they are resolved is self-contained exactly
where the project has every path that they list.
-/

namespace Demo

open Disk Disk.Files
open Wizard (Content Store thereAt readText writeText sortDedup)

variable {α P : Type}

/-- Nothing is in a directory. -/
def Fresh (dir : Path) (disk : Store α) : Prop := ∀ names, names ≠ [] → ¬disk.Has (dir ++ names)

/-- A path of the bundle is there, with what the project holds at it and below it. -/
structure Delivered (project bundle : Path) (disk disk' : Store α) (text : String) : Prop where
  there : disk'.isThere (under bundle [text]) = true
  read : ∀ rest, disk'.read ((under bundle [text]).path ++ rest) = disk.read ((under project [text]).path ++ rest)
  dirs : ∀ rest, (under bundle [text]).path ++ rest ∈ disk'.dirs ↔ (under project [text]).path ++ rest ∈ disk.dirs

/-- The file with the rules of a tenant or of one of its teams, below the directory of the tenant. -/
def gmapNames : Option String → Path
  | none => ["tenant.gmap"]
  | some team => ["teams", team, "team.gmap"]

structure SelfContained (yaml : Yaml P) (project : Path) (options : BuildOptions) (disk disk' : Store α) : Prop where
  manifests : ∀ names content, disk'.read (options.outDir ++ "resolved" :: names) = some content
    ↔ ∃ path manifest filename, Selected yaml project options disk path manifest
      ∧ path.path.getLast? = some filename ∧ names = [filename]
      ∧ content = .text (yaml.print { manifest with projectRoot := "./" })
  directories : ∀ names, names ≠ [] → options.outDir ++ "resolved" :: names ∉ disk'.dirs
  listed : ∀ {path manifest}, Selected yaml project options disk path manifest →
    ∀ text ∈ manifest.listed, Delivered project options.outDir disk disk' text
  gmaps : ∀ {path manifest}, Selected yaml project options disk path manifest → ∀ team content,
    disk.read (project ++ (["tenants", manifest.tenant] ++ gmapNames team)) = some content →
      disk'.read (options.outDir ++ (["tenants", manifest.tenant] ++ gmapNames team)) = some content

/-- The project has every path that the selected manifests list. -/
def Covered (yaml : Yaml P) (project : Path) (options : BuildOptions) (disk : Store α) : Prop :=
  ∀ {path manifest}, Selected yaml project options disk path manifest →
    ∀ text ∈ manifest.listed, disk.isThere (under project [text]) = true

section Bundle

variable {yaml : Yaml P} {project : Path} {options : BuildOptions} {disk after : Store α}
  (htree : disk.IsTree) (hfresh : Fresh options.outDir disk)

include hfresh in
/-- A file of the bundle is what is expected there. -/
theorem Built.expected (h : Built yaml project options disk after) {names : Path} (hne : names ≠ [])
    {content : Content α} (hread : after.read (options.outDir ++ names) = some content) :
    Expected yaml project options disk names content := by
  have hnone : disk.read (options.outDir ++ names) = none :=
    Option.not_isSome_iff_eq_none.mp fun hsome => hfresh names hne (.inl hsome)
  rcases h.changes.read_cases (options.outDir ++ names) with hsame | hgone | ⟨other, ⟨names', heq, hexpected⟩, hother⟩
  · rw [hread, hnone] at hsame
    cases hsame
  · rw [hread] at hgone
    cases hgone
  · rw [hread] at hother
    rw [Option.some.inj hother, List.append_cancel_left heq]
    exact hexpected

include hfresh in
theorem Built.expectedDir (h : Built yaml project options disk after) {names : Path} (hne : names ≠ [])
    (hdir : options.outDir ++ names ∈ after.dirs) : ExpectedDir project disk names := by
  rcases h.changes.mem_dirs_cases hdir with hbefore | hfirst | ⟨names', heq, hexpected⟩
  · exact absurd (.inr hbefore) (hfresh names hne)
  · have hlength := hfirst.length_le
    rw [List.length_append] at hlength
    exact absurd (List.length_eq_zero_iff.mp (by omega)) hne
  · rw [List.append_cancel_left heq]
    exact hexpected

include hfresh in
theorem Built.delivered (h : Built yaml project options disk after) {text : String}
    (hthere : disk.isThere (under project [text]) = true) (harrived : Arrived project options.outDir disk after text) :
    Delivered project options.outDir disk after text := by
  obtain ⟨top, htop, names, hne, hplain, rfl, hplaced⟩ := harrived
  have hsource := source_cons htop names
  have hunder := under_joinWith hplain (List.cons_ne_nil top names)
  have hbundlePath := (spells_under hplain options.outDir).path
  have hprojectPath := (spells_under hplain project).path
  rw [hunder] at hthere
  refine ⟨?_, fun rest => ?_, fun rest => ?_⟩
  · have hhas := has_of_isThere hthere (by rw [hprojectPath]; exact List.append_ne_nil_of_right_ne_nil _ (List.cons_ne_nil _ _))
    rw [hprojectPath] at hhas
    rw [hunder, isThere, Bool.and_eq_true, Bool.or_eq_true, hbundlePath]
    refine ⟨List.all_eq_true.mpr fun dir hdir => List.contains_iff_mem.mpr (hplaced.passed dir hdir), ?_⟩
    rcases hhas with hread | hdir
    · obtain ⟨content, hcontent⟩ := Option.isSome_iff_exists.mp hread
      have hcopy := hplaced.mirrors.read [] content (by rwa [List.append_nil])
      rw [List.append_nil] at hcopy
      exact .inr (by rw [hcopy]; rfl)
    · have hcopy := hplaced.mirrors.dirs [] (by rwa [List.append_nil])
      rw [List.append_nil] at hcopy
      exact .inl (by rw [isDir, List.contains_iff_mem.mpr hcopy, Bool.or_true])
  · rw [hunder, hunder, hbundlePath, hprojectPath, List.append_assoc, List.append_assoc]
    cases hread : disk.read (project ++ (top :: names ++ rest)) with
    | some content => exact hplaced.mirrors.read rest content hread
    | none =>
      cases hcopy : after.read (options.outDir ++ (top :: names ++ rest)) with
      | none => rfl
      | some content =>
        have hexpected := h.expected hfresh (List.cons_ne_nil top (names ++ rest)) hcopy
        exact absurd ((hexpected.read_of_source (source_append hsource rest)).symm.trans hread) (Option.some_ne_none content)
  · rw [hunder, hunder, hbundlePath, hprojectPath, List.append_assoc, List.append_assoc]
    refine ⟨fun hdir => ?_, hplaced.mirrors.dirs rest⟩
    have hexpected := h.expectedDir hfresh (List.cons_ne_nil top (names ++ rest)) hdir
    exact hexpected.mem_of_source (List.append_ne_nil_of_left_ne_nil hne rest)

include htree in
/-- What the bundle has of a listed path, the project has. -/
theorem Delivered.isThere {text : String} {top : String} (htop : top ∈ sourceDirs) (hbelow : Below top text)
    (h : Delivered project options.outDir disk after text) : disk.isThere (under project [text]) = true := by
  obtain ⟨names, hne, hplain, rfl, hunder⟩ := exists_names htop hbelow
  have hprojectPath := (spells_under hplain project).path
  have hpath : (under options.outDir [Text.joinWith '/' (top :: names)]).path ≠ [] := by
    rw [hunder, (spells_under hplain options.outDir).path]
    exact List.append_ne_nil_of_right_ne_nil _ (List.cons_ne_nil _ _)
  have hhas := has_of_isThere h.there hpath
  have hread := h.read []
  have hdirs := h.dirs []
  rw [List.append_nil, List.append_nil] at hread hdirs
  rw [Has, hread, hdirs, hunder, hprojectPath] at hhas
  rw [hunder]
  have hbelow : disk.Has (project ++ top :: names ++ []) := by rwa [List.append_nil]
  exact htree.isThere_of_has (spells_under hplain project) hbelow

include hfresh in
/-- A project that has resolved manifests is not in a fresh directory. -/
theorem not_prefix_of_fresh (hthere : disk.isThere (resolvedDir project) = true) : ¬options.outDir <+: project := by
  rintro ⟨rest, rfl⟩
  have hpath : (resolvedDir (options.outDir ++ rest)).path = options.outDir ++ rest ++ ["state", "resolved"] :=
    path_under_plain (by decide) _
  have hhas := has_of_isThere hthere (by rw [hpath]; exact List.append_ne_nil_of_right_ne_nil _ (List.cons_ne_nil _ _))
  rw [hpath, List.append_assoc] at hhas
  exact hfresh _ (List.append_ne_nil_of_right_ne_nil rest (List.cons_ne_nil _ _)) hhas

/-- A build that succeeds found the resolved manifests, and built from those that it selected. -/
theorem buildBundle_ok {input : DoctorInput} (h : (buildBundle yaml input project options).run disk = (.ok (), after)) :
    disk.isThere (resolvedDir project) = true ∧ ∃ paths,
      (selectManifests project options.tenant options.team).run disk = (.ok paths, disk)
        ∧ (buildFrom yaml project options paths).run disk = (.ok (), after) := by
  obtain ⟨_, -, hrest⟩ := Eff.bind_lift_ok h
  change (Eff.read (fun disk => disk.isThere (resolvedDir project)) >>= _).run disk = _ at hrest
  rw [Eff.bind_read_run] at hrest
  split at hrest
  next hthere =>
    obtain ⟨paths, disk', hselect, hbuild⟩ := Eff.bind_run_ok hrest
    obtain ⟨rfl, -⟩ := selectManifests_ok hselect
    split at hbuild
    next => cases hbuild
    next => exact ⟨hthere, paths, hselect, hbuild⟩
  next => cases hrest

theorem Tidy.below {manifest : ResolvedManifest P} (h : Tidy manifest) {text : String} (hmem : text ∈ manifest.listed) :
    ∃ top ∈ sourceDirs, Below top text := by
  rcases List.mem_append.mp hmem with hmem | hmem
  · exact ⟨"providers", by decide, h.providers text hmem⟩
  · exact ⟨"packs", by decide, h.packs text hmem⟩

include hfresh in
theorem Built.selfContained (h : Built yaml project options disk after) (hcovered : Covered yaml project options disk) :
    SelfContained yaml project options disk after where
  manifests names content := by
    constructor
    · exact fun hread => (h.expected hfresh (List.cons_ne_nil _ _) hread).manifest_of_resolved
    · rintro ⟨path, manifest, filename, hselected, hname, rfl, rfl⟩
      obtain ⟨filename', hname', hread⟩ := (h.written hselected).file
      rw [Option.some.inj (hname.symm.trans hname')]
      exact hread
  directories names hne hdir := by
    have hexpected := h.expectedDir hfresh (List.cons_ne_nil "resolved" names) hdir
    cases hexpected with
    | copy hsource => exact not_source_cons (by decide) names hsource
    | made => exact hne rfl
  listed hselected text htext := by
    have hthere := hcovered hselected text htext
    refine h.delivered hfresh hthere ?_
    rcases List.mem_append.mp htext with htext | htext
    · exact h.providers hselected text htext hthere
    · exact (h.written hselected).packs text htext hthere
  gmaps hselected team content := (h.tenants hselected).read (gmapNames team) content

end Bundle

/-- **A bundle built from resolved manifests is self-contained exactly where the project has every path
that they list.** The disk is a tree, the bundle is a fresh directory outside of the project, and the
manifests list what is below `providers` and `packs`. -/
theorem selfContained_iff_covered {yaml : Yaml P} {input : DoctorInput} {project : Path} {options : BuildOptions}
    {disk disk' : Store α} (htree : disk.IsTree) (hfresh : Fresh options.outDir disk)
    (houtside : ¬project <+: options.outDir)
    (htidy : ∀ {path manifest}, Selected yaml project options disk path manifest → Tidy manifest)
    (h : (buildBundle yaml input project options).run disk = (.ok (), disk')) :
    SelfContained yaml project options disk disk' ↔ Covered yaml project options disk := by
  obtain ⟨hthere, paths, hselect, hbuild⟩ := buildBundle_ok h
  obtain ⟨-, hpaths, hall⟩ := selectManifests_ok hselect
  have hbuilt := buildFrom_ok htree houtside (not_prefix_of_fresh hfresh hthere) htidy hpaths hall hbuild
  constructor
  · intro hcontained path manifest hselected text htext
    obtain ⟨top, htop, hbelow⟩ := (htidy hselected).below htext
    exact (hcontained.listed hselected text htext).isThere htree htop hbelow
  · exact fun hcovered => hbuilt.selfContained hfresh hcovered

/-! ### A project of one tenant -/

def demoManifest (providers : List String) : ResolvedManifest Unit where
  version := "1"
  tenant := "alpha"
  team := none
  projectRoot := "/work/project"
  providers := [("messaging", providers)]
  packs := []
  envPassthrough := ["RUST_LOG"]
  policy := ()

def renderList (key : String) : List String → String
  | [] => key ++ ": []\n"
  | values => key ++ ":\n" ++ String.join (values.map fun value => "- " ++ value ++ "\n")

def renderManifest (manifest : ResolvedManifest Unit) : String :=
  "version: '" ++ manifest.version ++ "'\ntenant: " ++ manifest.tenant ++ "\nteam: " ++ manifest.team.getD "null"
    ++ "\nproject_root: " ++ manifest.projectRoot ++ "\nproviders:\n"
    ++ String.join (manifest.providers.map fun entry => renderList ("  " ++ entry.1) entry.2)
    ++ renderList "packs" manifest.packs ++ renderList "env_passthrough" manifest.envPassthrough ++ "policy: null\n"

/-- A reader of one manifest. -/
def demoYaml (manifest : ResolvedManifest Unit) : Yaml Unit where
  parse text := if text = renderManifest manifest then .ok manifest else .error "invalid manifest"
  print := renderManifest

def demoDisk (manifest : ResolvedManifest Unit) : Store Nat where
  files := [(["project", "state", "resolved", "alpha.yaml"], .text (renderManifest manifest)),
    (["project", "tenants", "alpha", "tenant.gmap"], .text "_ = forbidden\n"),
    (["project", "providers", "messaging", "webex.gtpack"], .pack 7)]
  dirs := [["project"], ["project", "state"], ["project", "state", "resolved"], ["project", "tenants"],
    ["project", "tenants", "alpha"], ["project", "providers"], ["project", "providers", "messaging"]]

def demoOptions : BuildOptions where
  outDir := ["bundle"]
  tenant := some "alpha"
  team := none
  allowPackDirs := false
  onlyUsedProviders := false
  runDoctor := false

theorem fresh_of_paths {disk : Store α} {dir : Path} (h : ∀ p ∈ disk.files.map Prod.fst ++ disk.dirs, ¬dir <+: p) :
    Fresh dir disk := fun names _ hhas => h _ (mem_of_has hhas) (List.prefix_append dir names)

theorem tidy_demoManifest {providers : List String} (h : ∀ text ∈ providers, Below "providers" text) :
    Tidy (demoManifest providers) where
  providers text htext := h text (by simpa [ResolvedManifest.providerPaths, demoManifest] using htext)
  packs := nofun
  tenant := show Plain "alpha" by decide

theorem parse_demoYaml (manifest : ResolvedManifest Unit) :
    (demoYaml manifest).parse (renderManifest manifest) = .ok manifest := by
  simp only [demoYaml, ↓reduceIte]

theorem eq_of_demoYaml {manifest other : ResolvedManifest Unit} {project : Path} {options : BuildOptions}
    {disk : Store Nat} {path : Place} (h : Selected (demoYaml manifest) project options disk path other) :
    other = manifest := by
  obtain ⟨text, -, hparse⟩ := h.parsed
  unfold demoYaml at hparse
  dsimp only at hparse
  split at hparse
  next => exact (Except.ok.inj hparse).symm
  next => cases hparse

theorem below_webex : Below "providers" "providers/messaging/webex.gtpack" :=
  ⟨["messaging", "webex.gtpack"], by decide, by decide, by decide⟩

theorem below_slack : Below "providers" "providers/messaging/slack.gtpack" :=
  ⟨["messaging", "slack.gtpack"], by decide, by decide, by decide⟩

/-- The project has the one provider that the manifest lists. -/
theorem selfContained_demo :
    ∃ disk', SelfContained (demoYaml (demoManifest ["providers/messaging/webex.gtpack"])) ["project"] demoOptions
      (demoDisk (demoManifest ["providers/messaging/webex.gtpack"])) disk' := by
  let manifest := demoManifest ["providers/messaging/webex.gtpack"]
  have hrun : ((buildBundle (demoYaml manifest) ⟨false, none⟩ ["project"] demoOptions).run (demoDisk manifest)).1
      = .ok () := by decide +kernel
  have htidy : Tidy manifest := tidy_demoManifest (List.forall_mem_singleton.mpr below_webex)
  have hcovered : Covered (demoYaml manifest) ["project"] demoOptions (demoDisk manifest) := by
    intro path other hselected text htext
    rw [eq_of_demoYaml hselected] at htext
    rw [List.mem_singleton.mp htext]
    decide +kernel
  exact ⟨_, (selfContained_iff_covered (by decide +kernel) (fresh_of_paths (by decide)) (by decide)
    (fun hselected => eq_of_demoYaml hselected ▸ htidy) (Eff.run_eq_of_fst hrun)).mpr hcovered⟩

/-- The manifest lists a provider that the project has no longer: the build succeeds without it. -/
theorem stale_provider_is_left_out :
    ¬∀ (yaml : Yaml Unit) (input : DoctorInput) (project : Path) (options : BuildOptions) (disk disk' : Store Nat),
      disk.IsTree → Fresh options.outDir disk → ¬project <+: options.outDir →
        (∀ path manifest, Selected yaml project options disk path manifest → Tidy manifest) →
          (buildBundle yaml input project options).run disk = (.ok (), disk') →
            SelfContained yaml project options disk disk' := by
  intro h
  let manifest := demoManifest ["providers/messaging/slack.gtpack", "providers/messaging/webex.gtpack"]
  have hrun : ((buildBundle (demoYaml manifest) ⟨false, none⟩ ["project"] demoOptions).run (demoDisk manifest)).1
      = .ok () := by decide +kernel
  have htidy : Tidy manifest := tidy_demoManifest
    (List.forall_mem_cons.mpr ⟨below_slack, List.forall_mem_singleton.mpr below_webex⟩)
  have hcontained := h (demoYaml manifest) ⟨false, none⟩ ["project"] demoOptions (demoDisk manifest) _
    (by decide +kernel) (fresh_of_paths (by decide)) (by decide)
    (fun _ _ hselected => eq_of_demoYaml hselected ▸ htidy) (Eff.run_eq_of_fst hrun)
  have hread : (demoDisk manifest).read (under ["project"] ["state", "resolved", selectedFilename "alpha" none]).path
      = some (.text (renderManifest manifest)) := by decide +kernel
  have hselected : Selected (demoYaml manifest) ["project"] demoOptions (demoDisk manifest)
      (under ["project"] ["state", "resolved", selectedFilename "alpha" none]) manifest :=
    ⟨⟨rfl, by decide +kernel⟩, _, hread, parse_demoYaml manifest⟩
  have hthere := (hcontained.listed hselected "providers/messaging/slack.gtpack" (by decide)).there
  exact absurd hthere (by decide +kernel)

/-! ## Manifests as they are resolved -/

section Resolved

variable {root : Path} {disk : Store α}

theorem has_of_isGtpack {path : Path} (h : Project.isGtpack disk path = true) : disk.Has path := by
  unfold Project.isGtpack at h
  rw [Bool.and_eq_true] at h
  exact .inl h.1

theorem has_of_isDir {p : Path} {name : String} (h : disk.isDir (p ++ [name]) = true) : disk.Has (p ++ [name]) := by
  unfold isDir at h
  rw [List.isEmpty_eq_false_iff.mpr (List.append_ne_nil_of_right_ne_nil p (List.cons_ne_nil name [])),
    Bool.false_or] at h
  exact .inr (List.contains_iff_mem.mp h)

/-- An entry of a project is listed by a text that leads below the directory it is in. -/
theorem below_of_has (htree : disk.IsTree) {top : String} {names : Path} (hne : names ≠ [])
    (hhas : disk.Has (root ++ top :: names)) : Below top (Project.relativePath (top :: names)) :=
  ⟨names, hne, fun name hname => htree.plain hhas name (List.mem_append_right root (List.mem_cons_of_mem top hname)), rfl⟩

theorem below_of_scanProviders (htree : disk.IsTree) {providers : List (String × List String)}
    (hscan : Project.scanProviders root disk = .ok providers) {text : String}
    (htext : text ∈ providers.flatMap Prod.snd) : Below "providers" text := by
  unfold Project.scanProviders at hscan
  split at hscan
  next =>
    cases hscan
    exact absurd htext List.not_mem_nil
  next =>
    split at hscan
    next => cases hscan
    next =>
      cases hscan
      obtain ⟨entry, hentry, htext⟩ := List.mem_flatMap.mp htext
      obtain ⟨domain, -, rfl⟩ := List.mem_map.mp hentry
      rw [Project.domainPacks, List.mem_insertionSort] at htext
      obtain ⟨name, hname, rfl⟩ := List.mem_map.mp htext
      exact below_of_has htree (List.cons_ne_nil _ _) (has_of_isGtpack (List.mem_filter.mp hname).2)

theorem below_of_scanPacks (htree : disk.IsTree) {packs : List String}
    (hscan : Project.scanPacks root disk = .ok packs) {text : String} (htext : text ∈ packs) : Below "packs" text := by
  unfold Project.scanPacks at hscan
  split at hscan
  next =>
    cases hscan
    exact absurd htext List.not_mem_nil
  next =>
    split at hscan
    next => cases hscan
    next =>
      cases hscan
      rw [List.mem_insertionSort] at htext
      obtain ⟨name, hname, rfl⟩ := List.mem_map.mp htext
      refine below_of_has htree (List.cons_ne_nil name []) (show disk.Has (root ++ ["packs", name]) from ?_)
      rcases Bool.or_eq_true .. ▸ (List.mem_filter.mp hname).2 with hdir | hfile
      · rw [List.append_cons root "packs" [name]] at hdir ⊢
        exact has_of_isDir hdir
      · exact has_of_isGtpack hfile

/-- What a scan of a project finds makes manifests that are tidy. -/
theorem tidy_of_scanned (htree : disk.IsTree) {sources : Project.Sources}
    (hscan : Project.scanSources root disk = .ok sources) {manifest : ResolvedManifest P}
    (hproviders : manifest.providers = sources.providers) (hpacks : manifest.packs = sources.packs)
    (htenant : Plain manifest.tenant) : Tidy manifest := by
  unfold Project.scanSources at hscan
  cases hscanProviders : Project.scanProviders root disk with
  | error message =>
    rw [hscanProviders] at hscan
    cases hscan
  | ok providers =>
    cases hscanPacks : Project.scanPacks root disk with
    | error message =>
      rw [hscanProviders, hscanPacks] at hscan
      cases hscan
    | ok packs =>
      rw [hscanProviders, hscanPacks] at hscan
      cases hscan
      refine ⟨fun text htext => ?_, fun text htext => ?_, htenant⟩
      · rw [ResolvedManifest.providerPaths, hproviders] at htext
        exact below_of_scanProviders htree hscanProviders htext
      · rw [hpacks] at htext
        exact below_of_scanPacks htree hscanPacks htext

end Resolved

end Demo
