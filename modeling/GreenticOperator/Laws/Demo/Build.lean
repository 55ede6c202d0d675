import GreenticOperator.Laws.Demo.Copies

/-!
# What a build leaves

A build reads the manifests that are selected (`loadManifests_ok`) and copies what they list. A copy of a
directory that is missing does nothing, and so a path that is listed arrives in the bundle where the
project has it; `buildFrom_ok` says what a build that succeeds leaves of every manifest.
-/

namespace Demo

open Disk Disk.Files
open Wizard (Content Store thereAt readText writeText sortDedup mem_sortDedup)

variable {α P : Type}

def ResolvedManifest.listed (manifest : ResolvedManifest P) : List String :=
  manifest.providerPaths ++ manifest.packs

/-- A text that leads below a directory of the project. -/
def Below (top text : String) : Prop :=
  ∃ names, names ≠ [] ∧ (∀ name ∈ names, Plain name) ∧ text = Text.joinWith '/' (top :: names)

/-- A manifest as it is resolved: what it lists is below `providers` and `packs`. -/
structure Tidy (manifest : ResolvedManifest P) : Prop where
  providers : ∀ text ∈ manifest.providerPaths, Below "providers" text
  packs : ∀ text ∈ manifest.packs, Below "packs" text
  tenant : Plain manifest.tenant

/-! ## The manifests -/

section Manifests

variable {yaml : Yaml P} {project : Path} {options : BuildOptions} {disk before after : Store α}

theorem mem_manifestNames {dir : Path} {name : String} : name ∈ manifestNames disk dir
    ↔ (disk.read (dir ++ [name])).isSome = true ∧ extension (dir ++ [name]) = some "yaml" := by
  unfold manifestNames
  rw [List.mem_insertionSort, List.mem_filter, Bool.and_eq_true, beq_iff_eq]
  exact and_iff_right_of_imp fun h => mem_entries_of_read h.1 (List.prefix_refl _)

theorem selectManifests_ok {paths : List Place}
    (h : (selectManifests project options.tenant options.team).run disk = (.ok paths, after)) :
    after = disk ∧ (∀ path ∈ paths, SelectedPath project options disk path)
      ∧ ∀ path, SelectedPath project options disk path → (disk.read path.path).isSome = true → path ∈ paths := by
  unfold SelectedPath
  cases htenant : options.tenant with
  | some tenant =>
    rw [htenant] at h
    change (Eff.read (fun disk => disk.isThere
      (under project ["state", "resolved", selectedFilename tenant options.team])) >>= _).run disk = _ at h
    rw [Eff.bind_read_run] at h
    split at h
    next hthere =>
      obtain ⟨rfl, rfl⟩ := Eff.pure_run_ok h
      refine ⟨rfl, fun path hpath => ?_, fun path hpath _ => ?_⟩
      · rw [List.mem_singleton.mp hpath]
        exact ⟨rfl, hthere⟩
      · exact List.mem_singleton.mpr hpath.1
    next hthere =>
      obtain ⟨rfl, rfl⟩ := Eff.pure_run_ok h
      refine ⟨rfl, nofun, fun path hpath _ => ?_⟩
      exact absurd (hpath.1 ▸ hpath.2) hthere
  | none =>
    rw [htenant] at h
    unfold selectManifests at h
    rw [Eff.bind_read_run] at h
    split at h
    next =>
      rw [Eff.bind_read_run] at h
      obtain ⟨rfl, rfl⟩ := Eff.pure_run_ok h
      refine ⟨rfl, fun path hpath => ?_, fun path hpath hread => ?_⟩
      · obtain ⟨name, hname, rfl⟩ := List.mem_map.mp hpath
        exact ⟨name, rfl, (mem_manifestNames.mp hname).2⟩
      · obtain ⟨name, rfl, hyaml⟩ := hpath
        exact List.mem_map.mpr ⟨name, mem_manifestNames.mpr ⟨hread, hyaml⟩, rfl⟩
    next => cases h

theorem readText_ok {place : Place} {text : String} (h : (readText place).run before = (.ok text, after)) :
    after = before ∧ before.read place.path = some (.text text) := by
  obtain ⟨content, middle, hread, hrest⟩ := Eff.bind_run_ok h
  obtain ⟨hcontent, rfl⟩ := readFile_ok hread
  cases content with
  | text value =>
    obtain ⟨rfl, rfl⟩ := Eff.pure_run_ok hrest
    exact ⟨rfl, hcontent⟩
  | pack => cases hrest
  | records => cases hrest

theorem loadManifest_ok {path : Place} {manifest : ResolvedManifest P}
    (h : (loadManifest yaml path).run before = (.ok manifest, after)) :
    after = before ∧ ∃ text, before.read path.path = some (.text text) ∧ yaml.parse text = .ok manifest := by
  obtain ⟨text, middle, hread, hparse⟩ := Eff.bind_run_ok h
  obtain ⟨rfl, htext⟩ := readText_ok hread
  obtain ⟨hmanifest, rfl⟩ := Prod.mk.inj hparse
  exact ⟨rfl, text, htext, hmanifest⟩

/-- What is loaded is what the files hold, and every file is loaded. -/
theorem loadManifests_ok {paths : List Place} {loaded : List (Place × ResolvedManifest P)}
    (h : (loadManifests yaml paths).run before = (.ok loaded, after)) :
    after = before ∧ ∀ path manifest, (path, manifest) ∈ loaded
      ↔ path ∈ paths ∧ ∃ text, before.read path.path = some (.text text) ∧ yaml.parse text = .ok manifest := by
  induction paths generalizing loaded before after with
  | nil =>
    obtain ⟨rfl, rfl⟩ := Eff.pure_run_ok h
    exact ⟨rfl, fun path manifest => iff_of_false List.not_mem_nil fun hmem => List.not_mem_nil hmem.1⟩
  | cons first paths ih =>
    obtain ⟨manifest, middle, hfirst, hrest⟩ := Eff.bind_run_ok h
    obtain ⟨rfl, text, htext, hparse⟩ := loadManifest_ok hfirst
    obtain ⟨others, middle', hothers, hpure⟩ := Eff.bind_run_ok hrest
    obtain ⟨rfl, hloaded⟩ := ih hothers
    obtain ⟨rfl, rfl⟩ := Eff.pure_run_ok hpure
    refine ⟨rfl, fun path other => ?_⟩
    rw [List.mem_cons, List.mem_cons, hloaded, Prod.mk.injEq]
    constructor
    · rintro (⟨rfl, rfl⟩ | ⟨hmem, hother⟩)
      · exact ⟨.inl rfl, text, htext, hparse⟩
      · exact ⟨.inr hmem, hother⟩
    · rintro ⟨rfl | hmem, hother⟩
      · obtain ⟨text', htext', hparse'⟩ := hother
        rw [htext] at htext'
        cases htext'
        exact .inl ⟨rfl, Except.ok.inj (hparse'.symm.trans hparse)⟩
      · exact .inr ⟨hmem, hother⟩

/-- Two manifests of one file name are the same. -/
theorem Selected.unique {path path' : Place} {manifest manifest' : ResolvedManifest P} {filename : String}
    (h : Selected yaml project options disk path manifest) (h' : Selected yaml project options disk path' manifest')
    (hname : path.path.getLast? = some filename) (hname' : path'.path.getLast? = some filename) :
    manifest = manifest' := by
  have hpath : path = path' := by
    have hselected := h.selected
    have hselected' := h'.selected
    unfold SelectedPath at hselected hselected'
    cases htenant : options.tenant with
    | some tenant =>
      rw [htenant] at hselected hselected'
      exact hselected.1.trans hselected'.1.symm
    | none =>
      rw [htenant] at hselected hselected'
      obtain ⟨name, rfl, -⟩ := hselected
      obtain ⟨name', rfl, -⟩ := hselected'
      rw [Place.child, List.getLast?_concat] at hname hname'
      rw [Option.some.inj hname, Option.some.inj hname']
  subst hpath
  obtain ⟨text, htext, hparse⟩ := h.parsed
  obtain ⟨text', htext', hparse'⟩ := h'.parsed
  rw [htext] at htext'
  cases htext'
  exact Except.ok.inj (hparse.symm.trans hparse')

end Manifests

/-! ## What a build leaves -/

/-- What names lead to has been copied, and can be looked up. -/
structure Placed (project bundle : Path) (disk disk' : Store α) (names : Path) : Prop where
  passed : ∀ dir ∈ (under bundle names).passed, dir ∈ disk'.dirs
  mirrors : Mirrors project bundle disk disk' names

/-- A listed text, placed at its names. -/
def Arrived (project bundle : Path) (disk disk' : Store α) (text : String) : Prop :=
  ∃ top ∈ sourceDirs, ∃ names, names ≠ [] ∧ (∀ name ∈ top :: names, Plain name)
    ∧ text = Text.joinWith '/' (top :: names) ∧ Placed project bundle disk disk' (top :: names)

theorem source_cons {top : String} (h : top ∈ sourceDirs) (names : Path) : Source (top :: names) :=
  ⟨top, h, List.cons_prefix_cons.mpr ⟨rfl, List.nil_prefix⟩⟩

theorem plain_sourceDirs : ∀ top ∈ sourceDirs, Plain top := by decide

section Build

variable {yaml : Yaml P} {project : Path} {options : BuildOptions} {disk before after : Store α}

theorem Placed.of_changes {names : Path} (hsource : Source names)
    (h : Placed project options.outDir disk before names)
    (hchanges : Changes (Belongs yaml project options disk) before after) :
    Placed project options.outDir disk after names :=
  ⟨fun dir hdir => hchanges.subset_dirs (fun _ => id) (h.passed dir hdir), h.mirrors.of_changes hsource hchanges⟩

theorem Arrived.of_changes {text : String} (h : Arrived project options.outDir disk before text)
    (hchanges : Changes (Belongs yaml project options disk) before after) :
    Arrived project options.outDir disk after text := by
  obtain ⟨top, htop, names, hne, hplain, htext, hplaced⟩ := h
  exact ⟨top, htop, names, hne, hplain, htext, hplaced.of_changes (source_cons htop names) hchanges⟩

/-! ### Directories -/

theorem belongs_makeDir {name : String} (hname : name ∈ ["providers", "packs", "tenants", "resolved", "state"])
    {dir : Path} (hdir : dir ∈ (under options.outDir [name]).passed ++ [(under options.outDir [name]).path]) :
    Belongs yaml project options disk (.mkdir dir) := by
  have hplain : ∀ other ∈ ["providers", "packs", "tenants", "resolved", "state"], Plain other := by decide
  have hspells : Spells options.outDir [name] (under options.outDir [name]) :=
    spells_under (by simpa using hplain name hname) options.outDir
  rcases List.mem_append.mp hdir with hdir | hdir
  · obtain ⟨-, front, hfirst, hproper, rfl⟩ := hspells.passed dir hdir
    cases front with
    | nil => exact .inl (by rw [List.append_nil])
    | cons first front =>
      obtain ⟨rfl, hrest⟩ := List.cons_prefix_cons.mp hfirst
      exact absurd (by rw [List.prefix_nil.mp hrest]) hproper
  · rw [List.mem_singleton.mp hdir, hspells.path]
    exact .inr ⟨[name], rfl, .made hname⟩

/-- The directories that every bundle has. -/
theorem createBundleDirectories_ok (h : (createBundleDirectories options.outDir).run before = (.ok (), after)) :
    (∀ p, after.read p = before.read p) ∧ Changes (Belongs yaml project options disk) before after
      ∧ options.outDir ∈ after.dirs := by
  obtain ⟨_, made, hroot, hrest⟩ := Eff.bind_run_ok h
  obtain ⟨hsame, hdirs⟩ := createParents_ok hroot
  have hchanges : Changes (Belongs yaml project options disk) before made := by
    have hmade : made = (before.createDirAll (above options.outDir ++ [options.outDir])).1 :=
      (Prod.mk.inj hroot).2.symm
    rw [hmade]
    refine Changes.createDirAll before fun dir hdir => .inl ?_
    rcases List.mem_append.mp hdir with hdir | hdir
    · exact (mem_above.mp hdir).2.1
    · rw [List.mem_singleton.mp hdir]
  have htrans : ∀ {s s' s'' : Store α},
      (∀ p, s'.read p = s.read p) ∧ Changes (Belongs yaml project options disk) s s' →
        (∀ p, s''.read p = s'.read p) ∧ Changes (Belongs yaml project options disk) s' s'' →
          (∀ p, s''.read p = s.read p) ∧ Changes (Belongs yaml project options disk) s s'' :=
    fun hfirst hsecond => ⟨fun p => (hsecond.1 p).trans (hfirst.1 p), hfirst.2.trans hsecond.2⟩
  obtain ⟨⟨hlater, hrounds⟩, -⟩ := Eff.forM_run_ok
    (R := fun s s' => (∀ p, s'.read p = s.read p) ∧ Changes (Belongs yaml project options disk) s s')
    (fun _ => ⟨fun _ => rfl, .refl⟩) htrans (fun name hname s s' hrun => by
      have hmade : s' = (s.createDirAll _).1 := (Prod.mk.inj hrun).2.symm
      refine ⟨(createParents_ok hrun).1, ?_⟩
      rw [hmade]
      exact Changes.createDirAll s fun dir hdir => belongs_makeDir hname hdir) hrest
  refine ⟨fun p => (hlater p).trans (hsame p), hchanges.trans hrounds, hrounds.subset_dirs (fun _ => id) ?_⟩
  rw [hdirs]
  exact List.mem_append_right _ (List.mem_append_right _ (List.mem_singleton_self _))

/-! ### Packs and providers -/

section Packs

variable (htree : disk.IsTree) (hproject : ¬project <+: options.outDir) (hbundle : ¬options.outDir <+: project)
  {top text : String} (htop : top ∈ sourceDirs) (hbelow : Below top text) (hagrees : Agrees project disk before)

include htop hbelow in
theorem exists_names : ∃ names, names ≠ [] ∧ (∀ name ∈ top :: names, Plain name)
    ∧ text = Text.joinWith '/' (top :: names) ∧ ∀ base, under base [text] = under base (top :: names) := by
  obtain ⟨names, hne, hplain, rfl⟩ := hbelow
  have hall : ∀ name ∈ top :: names, Plain name := List.forall_mem_cons.mpr ⟨plain_sourceDirs top htop, hplain⟩
  exact ⟨names, hne, hall, rfl, under_joinWith hall (List.cons_ne_nil top names)⟩

include htree hproject htop hbelow hagrees in
/-- A listed file is copied, or the build ends. -/
theorem copyFile_arrived (h : (copyFile (under project [text]) (under options.outDir [text])).run before = (.ok (), after)) :
    Changes (Belongs yaml project options disk) before after ∧ Arrived project options.outDir disk after text := by
  obtain ⟨names, hne, hplain, htext, hunder⟩ := exists_names htop hbelow
  rw [hunder, hunder] at h
  obtain ⟨⟨content, hread, hcopy⟩, hchanges, hpassed⟩ := copyFile_ok htree hproject (source_cons htop names)
    (spells_under hplain project) (spells_under hplain options.outDir) hagrees h
  exact ⟨hchanges, top, htop, names, hne, hplain, htext, hpassed, mirrors_of_file htree hread hcopy⟩

include htree hproject hbundle htop hbelow hagrees in
/-- A listed directory is copied where it is there; where it is not, the build goes on. -/
theorem copyDir_arrived (h : (copyDir (under project [text]) (under options.outDir [text])).run before = (.ok (), after)) :
    Changes (Belongs yaml project options disk) before after
      ∧ (disk.isThere (under project [text]) = true → Arrived project options.outDir disk after text) := by
  obtain ⟨names, hne, hplain, htext, hunder⟩ := exists_names htop hbelow
  rw [hunder, hunder] at h
  obtain ⟨hchanges, hmirrors, hpassed⟩ := copyDir_ok htree hproject hbundle (source_cons htop names)
    (spells_under hplain project) (spells_under hplain options.outDir) hagrees h
  refine ⟨hchanges, fun hthere => ?_⟩
  rw [hunder] at hthere
  exact ⟨top, htop, names, hne, hplain, htext, hpassed hthere, hmirrors⟩

include htree hproject hbundle hagrees in
theorem copyPack_ok (hbelow : Below "packs" text)
    (h : (copyPack project options text).run before = (.ok (), after)) :
    Changes (Belongs yaml project options disk) before after
      ∧ (disk.isThere (under project [text]) = true → Arrived project options.outDir disk after text) := by
  have htop : "packs" ∈ sourceDirs := by decide
  unfold copyPack at h
  split at h
  next =>
    obtain ⟨hchanges, harrived⟩ := copyFile_arrived htree hproject htop hbelow hagrees h
    exact ⟨hchanges, fun _ => harrived⟩
  next =>
    split at h
    next => exact copyDir_arrived htree hproject hbundle htop hbelow hagrees h
    next => cases h

include htree in
/-- What is listed below a directory that is mirrored has arrived. -/
theorem arrived_of_mirrors (hout : options.outDir ∈ after.dirs) (htop : top ∈ sourceDirs) (hbelow : Below top text)
    (hmirrors : Mirrors project options.outDir disk after [top])
    (hthere : disk.isThere (under project [text]) = true) : Arrived project options.outDir disk after text := by
  obtain ⟨names, hne, hplain, htext, hunder⟩ := exists_names htop hbelow
  have hspells := spells_under hplain project
  rw [hunder] at hthere
  have hhas := has_of_isThere hthere (by rw [hspells.path]; exact List.append_ne_nil_of_right_ne_nil _ (List.cons_ne_nil _ _))
  rw [hspells.path] at hhas
  refine ⟨top, htop, names, hne, hplain, htext, fun dir hdir => ?_, ?_, ?_⟩
  · obtain ⟨-, front, hfirst, hproper, rfl⟩ := (spells_under hplain options.outDir).passed dir hdir
    cases front with
    | nil =>
      rw [List.append_nil]
      exact hout
    | cons first front =>
      obtain ⟨rfl, hrest⟩ := List.cons_prefix_cons.mp hfirst
      refine hmirrors.dirs front (htree.above hhas (mem_above.mpr ⟨by simp, ?_, ?_⟩))
      · exact (List.prefix_append_right_inj project).mpr hfirst
      · exact fun heq => hproper (List.append_cancel_left heq)
  · exact fun rest content hread => hmirrors.read (names ++ rest) content hread
  · exact fun rest hdir => hmirrors.dirs (names ++ rest) hdir

include htree hproject hbundle hagrees in
theorem copyProviders_ok {loaded : List (Place × ResolvedManifest P)} (htidy : ∀ entry ∈ loaded, Tidy entry.2)
    (hout : options.outDir ∈ before.dirs)
    (h : (copyProviders project options loaded).run before = (.ok (), after)) :
    Changes (Belongs yaml project options disk) before after
      ∧ ∀ entry ∈ loaded, ∀ text ∈ entry.2.providerPaths,
        disk.isThere (under project [text]) = true → Arrived project options.outDir disk after text := by
  have htop : "providers" ∈ sourceDirs := by decide
  have hused : ∀ text, text ∈ usedProviderPaths loaded ↔ ∃ entry ∈ loaded, text ∈ entry.2.providerPaths := by
    intro text
    rw [usedProviderPaths, mem_sortDedup, List.mem_flatMap]
  unfold copyProviders at h
  split at h
  next =>
    have hloop : Changes (Belongs yaml project options disk) before after
        ∧ ∀ text ∈ usedProviderPaths loaded, Arrived project options.outDir disk after text := by
      refine forM_builds (p := fun text s => Arrived project options.outDir disk s text) hproject hbundle
        (fun text htext s s' hs hrun => ?_) (fun text s s' harrived => harrived.of_changes) hagrees h
      obtain ⟨entry, hentry, hmem⟩ := (hused text).mp htext
      exact copyFile_arrived htree hproject htop ((htidy entry hentry).providers text hmem) hs hrun
    obtain ⟨hchanges, harrived⟩ := hloop
    exact ⟨hchanges, fun entry hentry text hmem _ => harrived text ((hused text).mpr ⟨entry, hentry, hmem⟩)⟩
  next =>
    have hplain : ∀ name ∈ ["providers"], Plain name := by decide
    obtain ⟨hchanges, hmirrors, -⟩ := copyDir_ok htree hproject hbundle (source_cons htop [])
      (spells_under hplain project) (spells_under hplain options.outDir) hagrees h
    exact ⟨hchanges, fun entry hentry text hmem hthere =>
      arrived_of_mirrors htree (hchanges.subset_dirs (fun _ => id) hout) htop
        ((htidy entry hentry).providers text hmem) hmirrors hthere⟩

end Packs

/-! ### The loops over manifests and tenants -/

section Loops

variable (htree : disk.IsTree) (hproject : ¬project <+: options.outDir) (hbundle : ¬options.outDir <+: project)
  (hagrees : Agrees project disk before) {path : Place} {manifest : ResolvedManifest P}
  (hselected : Selected yaml project options disk path manifest)

/-- What a round of the loop over the manifests leaves. -/
structure Written (yaml : Yaml P) (project : Path) (options : BuildOptions) (disk disk' : Store α) (path : Place)
    (manifest : ResolvedManifest P) : Prop where
  packs : ∀ text ∈ manifest.packs, disk.isThere (under project [text]) = true →
    Arrived project options.outDir disk disk' text
  file : ∃ filename, path.path.getLast? = some filename
    ∧ disk'.read (options.outDir ++ ["resolved", filename])
      = some (.text (yaml.print { manifest with projectRoot := "./" }))

include hselected in
theorem Written.of_changes (h : Written yaml project options disk before path manifest)
    (hchanges : Changes (Belongs yaml project options disk) before after) :
    Written yaml project options disk after path manifest where
  packs text htext hthere := (h.packs text htext hthere).of_changes hchanges
  file := by
    obtain ⟨filename, hname, hread⟩ := h.file
    refine ⟨filename, hname, hchanges.read_of_settled hread ?_ fun _ => id⟩
    rintro content ⟨names, heq, hexpected⟩
    rw [← List.append_cancel_left heq] at hexpected
    obtain ⟨path', manifest', filename', hselected', hname', hnames, rfl⟩ := hexpected.manifest_of_resolved
    rw [← (List.cons.inj hnames).1] at hname'
    rw [hselected.unique hselected' hname hname']

include htree hproject hbundle hagrees hselected in
theorem copyManifest_ok (htidy : Tidy manifest)
    (h : (copyManifest yaml project options (path, manifest)).run before = (.ok (), after)) :
    Changes (Belongs yaml project options disk) before after
      ∧ Written yaml project options disk after path manifest := by
  obtain ⟨_, copied, hpacks, hrest⟩ := Eff.bind_run_ok h
  have hloop : Changes (Belongs yaml project options disk) before copied
      ∧ ∀ text ∈ manifest.packs, disk.isThere (under project [text]) = true →
        Arrived project options.outDir disk copied text :=
    forM_builds (p := fun text s => disk.isThere (under project [text]) = true →
        Arrived project options.outDir disk s text) hproject hbundle
      (fun text htext _ _ hs hrun => copyPack_ok htree hproject hbundle hs (htidy.packs text htext) hrun)
      (fun _ _ _ harrived hchanges hthere => (harrived hthere).of_changes hchanges) hagrees hpacks
  obtain ⟨hchanges, harrived⟩ := hloop
  cases hname : path.path.getLast? with
  | none =>
    rw [hname] at hrest
    cases hrest
  | some filename =>
    rw [hname] at hrest
    obtain ⟨_, made, hmake, hwrite⟩ := Eff.bind_run_ok hrest
    obtain ⟨-, rfl⟩ := writeFile_ok hwrite
    -- The name of a file that was read can be looked up again.
    have hplain : ∀ name ∈ ["resolved", filename], Plain name := by
      obtain ⟨text, hread, -⟩ := hselected.parsed
      have hhas : disk.Has path.path := .inl (by rw [hread]; rfl)
      exact List.forall_mem_cons.mpr ⟨by decide, List.forall_mem_singleton.mpr
        (htree.plain hhas filename (List.mem_of_getLast? hname))⟩
    have hspells := spells_under hplain options.outDir
    have hmade : Changes (Belongs yaml project options disk) copied made := by
      have heq : made = (copied.createDirAll (under options.outDir ["resolved", filename]).passed).1 :=
        (Prod.mk.inj hmake).2.symm
      rw [heq]
      refine Changes.createDirAll copied fun dir hdir => ?_
      obtain ⟨-, front, hfirst, hproper, rfl⟩ := hspells.passed dir hdir
      cases front with
      | nil => exact .inl (by rw [List.append_nil])
      | cons first front =>
        obtain ⟨rfl, hfront⟩ := List.cons_prefix_cons.mp hfirst
        cases front with
        | nil => exact .inr ⟨["resolved"], rfl, .made (by decide)⟩
        | cons second front =>
          obtain ⟨rfl, hnil⟩ := List.cons_prefix_cons.mp hfront
          exact absurd (by rw [List.prefix_nil.mp hnil]) hproper
    rw [hspells.path]
    have hlast : Changes (Belongs yaml project options disk) copied
        (made.write (options.outDir ++ ["resolved", filename])
          (.text (yaml.print { manifest with projectRoot := "./" }))) :=
      hmade.write ⟨_, rfl, .manifest hselected hname⟩
    exact ⟨hchanges.trans hlast, fun text htext hthere => (harrived text htext hthere).of_changes hlast,
      filename, hname, read_write_self _ _ _⟩

include htree hproject hbundle hagrees in
theorem copyTenant_ok {tenant : String} (hplain : Plain tenant)
    (h : (copyTenant project options tenant).run before = (.ok (), after)) :
    Changes (Belongs yaml project options disk) before after
      ∧ Mirrors project options.outDir disk after ["tenants", tenant] := by
  have hall : ∀ name ∈ ["tenants", tenant], Plain name :=
    List.forall_mem_cons.mpr ⟨by decide, List.forall_mem_singleton.mpr hplain⟩
  change (Eff.read (fun disk => disk.isThere (under project ["tenants", tenant])) >>= _).run before = _ at h
  rw [Eff.bind_read_run] at h
  split at h
  next =>
    obtain ⟨hchanges, hmirrors, -⟩ := copyDir_ok htree hproject hbundle (source_cons (by decide) [tenant])
      (spells_under hall project) (spells_under hall options.outDir) hagrees h
    exact ⟨hchanges, hmirrors⟩
  next hthere =>
    obtain ⟨-, rfl⟩ := Eff.pure_run_ok h
    exact ⟨.refl, mirrors_of_not_there htree (spells_under hall project) hagrees (Bool.eq_false_iff.mpr hthere)⟩

section Loaded

variable {loaded : List (Place × ResolvedManifest P)}
  (hloaded : ∀ entry ∈ loaded, Selected yaml project options disk entry.1 entry.2 ∧ Tidy entry.2)

include htree hproject hbundle hagrees hloaded

theorem forM_copyManifest_ok (h : (loaded.forM (copyManifest yaml project options)).run before = (.ok (), after)) :
    Changes (Belongs yaml project options disk) before after
      ∧ ∀ entry ∈ loaded, Written yaml project options disk after entry.1 entry.2 := by
  have hloop : Changes (Belongs yaml project options disk) before after
      ∧ ∀ entry ∈ loaded, Selected yaml project options disk entry.1 entry.2 →
        Written yaml project options disk after entry.1 entry.2 := by
    refine forM_builds (p := fun entry s => Selected yaml project options disk entry.1 entry.2 →
      Written yaml project options disk s entry.1 entry.2) hproject hbundle (fun entry hentry s s' hs hrun => ?_)
      (fun entry s s' hwritten hchanges => ?_) hagrees h
    · obtain ⟨hselected, htidy⟩ := hloaded entry hentry
      obtain ⟨hchanges, hwritten⟩ := copyManifest_ok htree hproject hbundle hs hselected htidy hrun
      exact ⟨hchanges, fun _ => hwritten⟩
    · exact fun hselected => (hwritten hselected).of_changes hselected hchanges
  exact ⟨hloop.1, fun entry hentry => hloop.2 entry hentry (hloaded entry hentry).1⟩

theorem forM_copyTenant_ok (h : ((tenantsToCopy loaded).forM (copyTenant project options)).run before = (.ok (), after)) :
    Changes (Belongs yaml project options disk) before after
      ∧ ∀ entry ∈ loaded, Mirrors project options.outDir disk after ["tenants", entry.2.tenant] := by
  have htenant : ∀ tenant, tenant ∈ tenantsToCopy loaded ↔ ∃ entry ∈ loaded, entry.2.tenant = tenant := by
    intro tenant
    rw [tenantsToCopy, mem_sortDedup, List.mem_map]
  have hloop : Changes (Belongs yaml project options disk) before after
      ∧ ∀ tenant ∈ tenantsToCopy loaded, Mirrors project options.outDir disk after ["tenants", tenant] := by
    refine forM_builds (p := fun tenant s => Mirrors project options.outDir disk s ["tenants", tenant]) hproject hbundle
      (fun tenant hmem _ _ hs hrun => ?_)
      (fun tenant _ _ hmirrors => hmirrors.of_changes (source_cons (by decide) [tenant])) hagrees h
    obtain ⟨entry, hentry, rfl⟩ := (htenant tenant).mp hmem
    exact copyTenant_ok htree hproject hbundle hs (hloaded entry hentry).2.tenant hrun
  exact ⟨hloop.1, fun entry hentry => hloop.2 _ ((htenant _).mpr ⟨entry, hentry, rfl⟩)⟩

end Loaded

end Loops

/-! ### The bundle -/

/-- What a build that succeeds leaves of the manifests that were selected. -/
structure Built (yaml : Yaml P) (project : Path) (options : BuildOptions) (disk disk' : Store α) : Prop where
  changes : Changes (Belongs yaml project options disk) disk disk'
  providers : ∀ {path manifest}, Selected yaml project options disk path manifest →
    ∀ text ∈ manifest.providerPaths, disk.isThere (under project [text]) = true →
      Arrived project options.outDir disk disk' text
  written : ∀ {path manifest}, Selected yaml project options disk path manifest →
    Written yaml project options disk disk' path manifest
  tenants : ∀ {path manifest}, Selected yaml project options disk path manifest →
    Mirrors project options.outDir disk disk' ["tenants", manifest.tenant]

section Bundle

variable (htree : disk.IsTree) (hproject : ¬project <+: options.outDir) (hbundle : ¬options.outDir <+: project)
  (htidy : ∀ {path manifest}, Selected yaml project options disk path manifest → Tidy manifest)

include htree hproject hbundle htidy in
theorem buildFrom_ok {paths : List Place} (hpaths : ∀ path ∈ paths, SelectedPath project options disk path)
    (hall : ∀ path, SelectedPath project options disk path → (disk.read path.path).isSome = true → path ∈ paths)
    (h : (buildFrom yaml project options paths).run disk = (.ok (), after)) :
    Built yaml project options disk after := by
  obtain ⟨_, made, hmake, hafterMake⟩ := Eff.bind_run_ok h
  obtain ⟨loaded, middle, hload, hafterLoad⟩ := Eff.bind_run_ok hafterMake
  obtain ⟨_, provided, hprovide, hafterProvide⟩ := Eff.bind_run_ok hafterLoad
  obtain ⟨_, copied, hcopy, hafterCopy⟩ := Eff.bind_run_ok hafterProvide
  obtain ⟨_, moved, hmove, hmetadata⟩ := Eff.bind_run_ok hafterCopy
  obtain ⟨hsame, hmade, hout⟩ : (∀ p, made.read p = disk.read p)
      ∧ Changes (Belongs yaml project options disk) disk made ∧ options.outDir ∈ made.dirs :=
    createBundleDirectories_ok hmake
  obtain ⟨hmiddle, hloaded⟩ := loadManifests_ok hload
  subst middle
  have hmem : ∀ path manifest, (path, manifest) ∈ loaded ↔ Selected yaml project options disk path manifest := by
    intro path manifest
    rw [hloaded, hsame]
    constructor
    · exact fun ⟨hpath, hparsed⟩ => ⟨hpaths path hpath, hparsed⟩
    · intro hselected
      obtain ⟨text, hread, -⟩ := hselected.parsed
      exact ⟨hall path hselected.selected (by rw [hread]; rfl), hselected.parsed⟩
  have hentries : ∀ entry ∈ loaded, Selected yaml project options disk entry.1 entry.2 ∧ Tidy entry.2 :=
    fun entry hentry => have hselected := (hmem entry.1 entry.2).mp hentry; ⟨hselected, htidy hselected⟩
  have hmadeAgrees : Agrees project disk made := Agrees.of_changes hproject hbundle (SameAt.refl disk) hmade
  obtain ⟨hprovided, hproviders⟩ : Changes (Belongs yaml project options disk) made provided ∧ _ :=
    copyProviders_ok htree hproject hbundle hmadeAgrees (fun entry hentry => (hentries entry hentry).2) hout hprovide
  have hprovidedAgrees := hmadeAgrees.of_changes hproject hbundle hprovided
  obtain ⟨hcopied, hwritten⟩ := forM_copyManifest_ok htree hproject hbundle hprovidedAgrees hentries hcopy
  have hcopiedAgrees := hprovidedAgrees.of_changes hproject hbundle hcopied
  obtain ⟨hmoved, htenants⟩ := forM_copyTenant_ok htree hproject hbundle hcopiedAgrees hentries hmove
  obtain ⟨-, rfl⟩ := writeFile_ok hmetadata
  have hlast : Changes (Belongs yaml project options disk) moved
      (moved.write (under options.outDir ["greentic.demo.yaml"]).path (.text demoMetadata)) :=
    Changes.refl.write ⟨_, path_under_plain (by decide) options.outDir, .metadata⟩
  have hrest := hcopied.trans (hmoved.trans hlast)
  refine ⟨hmade.trans (hprovided.trans hrest), fun hselected text htext hthere => ?_, fun hselected => ?_,
    fun hselected => ?_⟩
  · exact (hproviders _ ((hmem _ _).mpr hselected) text htext hthere).of_changes hrest
  · exact (hwritten _ ((hmem _ _).mpr hselected)).of_changes hselected (hmoved.trans hlast)
  · exact (htenants _ ((hmem _ _).mpr hselected)).of_changes (source_cons (by decide) _) hlast

end Bundle

end Build

end Demo
