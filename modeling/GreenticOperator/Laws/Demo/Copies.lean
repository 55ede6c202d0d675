import GreenticOperator.Demo.Build
import Mathlib.Algebra.Order.BigOperators.Group.List

/-!
# What a build copies

Everything that a build changes belongs to the bundle (`Belongs`): a file holds what the file of
the project at the same names holds, or is a manifest, or says which version the bundle has.
No two of these are at one path, so what is there stays as it is (`Mirrors.of_changes`).

`copyFile_ok` and `copyDirWithin_ok` say what a copy that succeeds leaves: the files and directories
below its source are there below its target too, where its source is there.
-/

namespace Demo

open Disk Disk.Files
open Wizard (Content Store thereAt readText writeText sortDedup)

variable {α P : Type}

/-- The file that a tenant and a team select, or one of all where no tenant is given. -/
def SelectedPath (project : Path) (options : BuildOptions) (disk : Store α) (path : Place) : Prop :=
  match options.tenant with
  | some tenant =>
    path = under project ["state", "resolved", selectedFilename tenant options.team] ∧ disk.isThere path = true
  | none => ∃ name, path = (resolvedDir project).child name ∧ extension path.path = some "yaml"

/-- A manifest that is selected, as it is read. -/
structure Selected (yaml : Yaml P) (project : Path) (options : BuildOptions) (disk : Store α) (path : Place)
    (manifest : ResolvedManifest P) : Prop where
  selected : SelectedPath project options disk path
  parsed : ∃ text, disk.read path.path = some (.text text) ∧ yaml.parse text = .ok manifest

/-- The directories of a project from which a build copies. -/
def sourceDirs : List String := ["providers", "packs", "tenants"]

/-- Names that lead to or below such a directory. -/
def Source (names : Path) : Prop := ∃ top ∈ sourceDirs, [top] <+: names

/-- What a file of the bundle holds. -/
inductive Expected (yaml : Yaml P) (project : Path) (options : BuildOptions) (disk : Store α) :
    Path → Content α → Prop
  | copy {names : Path} {content : Content α} (hsource : Source names)
      (hread : disk.read (project ++ names) = some content) : Expected yaml project options disk names content
  | manifest {path : Place} {manifest : ResolvedManifest P} {filename : String}
      (hselected : Selected yaml project options disk path manifest) (hname : path.path.getLast? = some filename) :
      Expected yaml project options disk ["resolved", filename]
        (.text (yaml.print { manifest with projectRoot := "./" }))
  | metadata : Expected yaml project options disk ["greentic.demo.yaml"] (.text demoMetadata)

/-- What is a directory of the bundle. -/
inductive ExpectedDir (project : Path) (disk : Store α) : Path → Prop
  | copy {names : Path} (hsource : Source names) (hdir : project ++ names ∈ disk.dirs) : ExpectedDir project disk names
  | made {name : String} (hname : name ∈ ["providers", "packs", "tenants", "resolved", "state"]) :
      ExpectedDir project disk [name]

/-- A change that belongs to the bundle. -/
def Belongs (yaml : Yaml P) (project : Path) (options : BuildOptions) (disk : Store α) :
    Change (Content α) → Prop
  | .write p content => ∃ names, p = options.outDir ++ names ∧ Expected yaml project options disk names content
  | .mkdir p => p <+: options.outDir ∨ ∃ names, p = options.outDir ++ names ∧ ExpectedDir project disk names
  | .remove _ => False

/-- A disk on which the project is as it was. -/
abbrev Agrees (project : Path) (disk disk' : Store α) : Prop := SameAt (project <+: ·) disk disk'

/-- While the project is as it was, only what belongs to the bundle changes. -/
def Builds (yaml : Yaml P) (project : Path) (options : BuildOptions) (disk before after : Store α) : Prop :=
  Agrees project disk before → Changes (Belongs yaml project options disk) before after

/-- What is below names of the project is below the same names of the bundle. -/
structure Mirrors (project bundle : Path) (disk disk' : Store α) (names : Path) : Prop where
  read : ∀ rest content, disk.read (project ++ (names ++ rest)) = some content →
    disk'.read (bundle ++ (names ++ rest)) = some content
  dirs : ∀ rest, project ++ (names ++ rest) ∈ disk.dirs → bundle ++ (names ++ rest) ∈ disk'.dirs

theorem source_append {names : Path} (h : Source names) (rest : Path) : Source (names ++ rest) := by
  obtain ⟨top, htop, hfirst⟩ := h
  exact ⟨top, htop, hfirst.trans (List.prefix_append names rest)⟩

theorem source_of_front {names front : Path} (h : Source names) (hfirst : front <+: names) (hne : front ≠ []) :
    Source front := by
  obtain ⟨top, htop, htoken⟩ := h
  cases front with
  | nil => exact absurd rfl hne
  | cons first front =>
    obtain ⟨rest, rfl⟩ := htoken
    obtain ⟨rfl, -⟩ := List.cons_prefix_cons.mp hfirst
    exact ⟨first, htop, List.cons_prefix_cons.mpr ⟨rfl, List.nil_prefix⟩⟩

theorem ne_nil_of_source {names : Path} (h : Source names) : names ≠ [] := by
  obtain ⟨top, -, rest, rfl⟩ := h
  exact List.cons_ne_nil top rest

theorem not_source_cons {first : String} (h : first ∉ sourceDirs) (names : Path) : ¬Source (first :: names) := by
  rintro ⟨top, htop, hfirst⟩
  obtain ⟨rfl, -⟩ := List.cons_prefix_cons.mp hfirst
  exact h htop

section Bundle

variable {yaml : Yaml P} {project : Path} {options : BuildOptions} {disk before after : Store α}

/-- What is expected at names from which a build copies is what the project holds there. -/
theorem Expected.read_of_source {names : Path} {content : Content α}
    (h : Expected yaml project options disk names content) (hsource : Source names) :
    disk.read (project ++ names) = some content := by
  cases h with
  | copy _ hread => exact hread
  | manifest => exact absurd hsource (not_source_cons (by decide) _)
  | metadata => exact absurd hsource (not_source_cons (by decide) _)

/-- What is expected among the manifests is one that was selected. -/
theorem Expected.manifest_of_resolved {names : Path} {content : Content α}
    (h : Expected yaml project options disk ("resolved" :: names) content) :
    ∃ path manifest filename, Selected yaml project options disk path manifest
      ∧ path.path.getLast? = some filename ∧ names = [filename]
      ∧ content = .text (yaml.print { manifest with projectRoot := "./" }) := by
  generalize hall : "resolved" :: names = all at h
  cases h with
  | copy hsource => exact absurd (hall ▸ hsource) (not_source_cons (by decide) _)
  | manifest hselected hname => exact ⟨_, _, _, hselected, hname, (List.cons.inj hall).2, rfl⟩
  | metadata => exact absurd (List.cons.inj hall).1 (by decide)

theorem ExpectedDir.mem_of_source {names : Path} {name : String} (h : ExpectedDir project disk (name :: names))
    (hne : names ≠ []) : project ++ name :: names ∈ disk.dirs := by
  cases h with
  | copy _ hdir => exact hdir
  | made => exact absurd rfl hne

/-- What changes in the bundle leaves the project as it is. -/
theorem Agrees.of_changes (hproject : ¬project <+: options.outDir) (hbundle : ¬options.outDir <+: project)
    (hagrees : Agrees project disk before) (h : Changes (Belongs yaml project options disk) before after) :
    Agrees project disk after := by
  have hbelow : ∀ names, ¬project <+: options.outDir ++ names := fun names hfirst =>
    (List.prefix_or_prefix_of_prefix hfirst (List.prefix_append options.outDir names)).elim hproject hbundle
  refine hagrees.trans (SameAt.of_changes (h.mono fun change hchange => ?_))
  cases change with
  | write p content =>
    obtain ⟨names, rfl, -⟩ := hchange
    exact hbelow names
  | mkdir p =>
    rcases hchange with hfirst | ⟨names, rfl, -⟩
    · exact fun hp => hproject (List.IsPrefix.trans hp hfirst)
    · exact hbelow names
  | remove p => exact hchange.elim

theorem Builds.refl : Builds yaml project options disk before before := fun _ => .refl

theorem Builds.trans (hproject : ¬project <+: options.outDir) (hbundle : ¬options.outDir <+: project)
    {middle : Store α} (h : Builds yaml project options disk before middle)
    (h' : Builds yaml project options disk middle after) : Builds yaml project options disk before after :=
  fun hagrees => (h hagrees).trans (h' (hagrees.of_changes hproject hbundle (h hagrees)))

/-- **A loop of a build.** What each round leaves, and later changes keep, is there after the loop. -/
theorem forM_builds (hproject : ¬project <+: options.outDir) (hbundle : ¬options.outDir <+: project) {β : Type}
    {l : List β} {f : β → Eff (Store α) PUnit} {p : β → Store α → Prop}
    (hround : ∀ b ∈ l, ∀ {s s' : Store α}, Agrees project disk s → (f b).run s = (.ok (), s') →
      Changes (Belongs yaml project options disk) s s' ∧ p b s')
    (hstays : ∀ b {s s' : Store α}, p b s → Changes (Belongs yaml project options disk) s s' → p b s')
    (hagrees : Agrees project disk before) (h : (l.forM f).run before = (.ok (), after)) :
    Changes (Belongs yaml project options disk) before after ∧ ∀ b ∈ l, p b after := by
  obtain ⟨hloop, hrounds⟩ := Eff.forM_run_ok (R := Builds yaml project options disk) (fun _ => Builds.refl)
    (Builds.trans hproject hbundle) (fun b hb {_ _} hrun hs => (hround b hb hs hrun).1) h
  refine ⟨hloop hagrees, fun b hb => ?_⟩
  obtain ⟨s, s', hbefore, hrun, hlater⟩ := hrounds b hb
  have hs := hagrees.of_changes hproject hbundle (hbefore hagrees)
  obtain ⟨hchanges, hleft⟩ := hround b hb hs hrun
  exact hstays b hleft (hlater (hs.of_changes hproject hbundle hchanges))

/-- A mirror stays one. -/
theorem Mirrors.of_changes {names : Path} (hsource : Source names)
    (h : Mirrors project options.outDir disk before names)
    (hchanges : Changes (Belongs yaml project options disk) before after) :
    Mirrors project options.outDir disk after names where
  read rest content hread := by
    refine hchanges.read_of_settled (h.read rest content hread) ?_ fun _ => id
    rintro other ⟨names', heq, hexpected⟩
    rw [← List.append_cancel_left heq] at hexpected
    have hother := hexpected.read_of_source (source_append hsource rest)
    exact Option.some.inj (hother.symm.trans hread)
  dirs rest hdir := hchanges.subset_dirs (fun _ => id) (h.dirs rest hdir)

/-! ### Copying -/

section Copy

variable (htree : disk.IsTree) (hproject : ¬project <+: options.outDir) (hbundle : ¬options.outDir <+: project)
  {names : Path} {src dst : Place} (hsource : Source names) (hsrc : Spells project names src)
  (hdst : Spells options.outDir names dst) (hagrees : Agrees project disk before)

include htree hsource hdst in
/-- The directories on the way to a copy belong to the bundle. -/
theorem belongs_mkdir_of_passed {rest : Path} (hhas : disk.Has (project ++ (names ++ rest))) {dir : Path}
    (hdir : dir ∈ dst.passed) : Belongs yaml project options disk (.mkdir dir) := by
  obtain ⟨-, front, hfirst, hproper, rfl⟩ := hdst.passed dir hdir
  by_cases hfront : front = []
  · rw [hfront, List.append_nil]
    exact .inl (List.prefix_refl _)
  · refine .inr ⟨front, rfl, .copy (source_of_front hsource hfirst hfront) ?_⟩
    refine htree.above hhas (mem_above.mpr ⟨List.append_ne_nil_of_right_ne_nil project hfront, ?_, ?_⟩)
    · exact (List.prefix_append_right_inj project).mpr (hfirst.trans (List.prefix_append names rest))
    · intro heq
      have hlength := congrArg List.length (List.append_cancel_left heq)
      have hshorter : front.length < names.length :=
        Nat.lt_of_le_of_ne hfirst.length_le fun hlen => hproper (hfirst.eq_of_length hlen)
      rw [List.length_append] at hlength
      omega

include htree hproject hsource hsrc hdst hagrees in
theorem copyFile_ok (h : (copyFile src dst).run before = (.ok (), after)) :
    (∃ content, disk.read (project ++ names) = some content ∧ after.read (options.outDir ++ names) = some content)
      ∧ Changes (Belongs yaml project options disk) before after ∧ ∀ dir ∈ dst.passed, dir ∈ after.dirs := by
  obtain ⟨_, made, hparents, hrest⟩ := Eff.bind_run_ok h
  obtain ⟨content, made', hreadFile, hwrite⟩ := Eff.bind_run_ok hrest
  obtain ⟨hread, rfl⟩ := readFile_ok hreadFile
  obtain ⟨-, rfl⟩ := writeFile_ok hwrite
  obtain ⟨hsame, hdirs⟩ := createParents_ok hparents
  rw [hsame, hsrc.path, hagrees.read _ (List.prefix_append project names)] at hread
  have hne : src.path ≠ dst.path := by
    rw [hsrc.path, hdst.path]
    intro heq
    exact hproject (List.append_cancel_right heq ▸ List.prefix_refl _)
  rw [if_neg hne, hdst.path]
  have hhas : disk.Has (project ++ (names ++ [])) := .inl (by rw [List.append_nil, hread]; rfl)
  have hmade : Changes (Belongs yaml project options disk) before made' := by
    have hparents' : made' = (before.createDirAll dst.passed).1 := (Prod.mk.inj hparents).2.symm
    rw [hparents']
    exact Changes.createDirAll before fun dir hdir => belongs_mkdir_of_passed htree hsource hdst hhas hdir
  refine ⟨⟨content, hread, read_write_self _ _ _⟩, hmade.write ⟨names, rfl, .copy hsource hread⟩, fun dir hdir => ?_⟩
  change dir ∈ made'.dirs
  rw [hdirs]
  exact List.mem_append_right _ hdir

include htree hsource hdst in
theorem belongs_createDirs (hdir : project ++ names ∈ disk.dirs) {dir : Path}
    (hmem : dir ∈ dst.passed ++ [dst.path]) : Belongs yaml project options disk (.mkdir dir) := by
  have hhas : disk.Has (project ++ (names ++ [])) := .inr (by rwa [List.append_nil])
  rcases List.mem_append.mp hmem with hmem | hmem
  · exact belongs_mkdir_of_passed htree hsource hdst hhas hmem
  · rw [List.mem_singleton.mp hmem, hdst.path]
    exact .inr ⟨names, rfl, .copy hsource hdir⟩

include hsrc hagrees in
theorem isThere_src : before.isThere src = disk.isThere src := by
  refine hagrees.isThere_eq ?_ fun dir hdir => ?_
  · rw [hsrc.path]
    exact List.prefix_append project names
  · obtain ⟨-, front, -, -, rfl⟩ := hsrc.passed dir hdir
    exact List.prefix_append project front

include htree hsrc hagrees in
/-- Without a source there is nothing to mirror. -/
theorem mirrors_of_not_there (h : before.isThere src = false) :
    Mirrors project options.outDir disk after names := by
  rw [isThere_src hsrc hagrees] at h
  have hnone : ∀ rest, ¬disk.Has (project ++ (names ++ rest)) := by
    intro rest hhas
    rw [← List.append_assoc] at hhas
    rw [htree.isThere_of_has hsrc hhas] at h
    cases h
  exact ⟨fun rest content hread => absurd (.inl (by rw [hread]; rfl)) (hnone rest),
    fun rest hdir => absurd (.inr hdir) (hnone rest)⟩

include htree in
/-- A file that was copied is a mirror of its source. -/
theorem mirrors_of_file {content : Content α} (hread : disk.read (project ++ names) = some content)
    (hcopy : after.read (options.outDir ++ names) = some content) :
    Mirrors project options.outDir disk after names where
  read rest other hother := by
    rw [← List.append_assoc] at hother
    have hrest : rest = [] := htree.eq_nil_of_read hread (.inl (by rw [hother]; rfl))
    rw [hrest, List.append_nil] at hother ⊢
    rw [hcopy, ← hread, hother]
  dirs rest hdir := by
    rw [← List.append_assoc] at hdir
    have hrest : rest = [] := htree.eq_nil_of_read hread (.inr hdir)
    rw [hrest, List.append_nil] at hdir
    rw [htree.apart _ hdir] at hread
    cases hread

/-- A directory whose entries are mirrored is. -/
theorem mirrors_of_entries (hread : disk.read (project ++ names) = none)
    (hdir : options.outDir ++ names ∈ after.dirs)
    (h : ∀ name, (∃ rest, disk.Has (project ++ (names ++ [name] ++ rest))) →
      Mirrors project options.outDir disk after (names ++ [name])) :
    Mirrors project options.outDir disk after names where
  read rest content hcontent := by
    cases rest with
    | nil =>
      rw [List.append_nil, hread] at hcontent
      cases hcontent
    | cons name rest =>
      rw [List.append_cons names name rest] at hcontent ⊢
      exact (h name ⟨rest, .inl (by rw [hcontent]; rfl)⟩).read rest content hcontent
  dirs rest hmem := by
    cases rest with
    | nil =>
      rw [List.append_nil]
      exact hdir
    | cons name rest =>
      rw [List.append_cons names name rest] at hmem ⊢
      exact (h name ⟨rest, .inr hmem⟩).dirs rest hmem

include hproject hbundle hdst in
/-- No directory on the way to a copy is one of the project. -/
theorem spares_bundle {dir : Path} (hdir : dir ∈ dst.passed ++ [dst.path]) : ¬project <+: dir := by
  have hbelow : ∀ front, ¬project <+: options.outDir ++ front := fun front hfirst =>
    (List.prefix_or_prefix_of_prefix hfirst (List.prefix_append options.outDir front)).elim hproject hbundle
  rcases List.mem_append.mp hdir with hdir | hdir
  · obtain ⟨-, front, -, -, rfl⟩ := hdst.passed dir hdir
    exact hbelow front
  · rw [List.mem_singleton.mp hdir, hdst.path]
    exact hbelow names

include hproject hbundle hdst hagrees in
/-- To make directories of the bundle leaves the project as it is. -/
theorem agrees_createDirs : Agrees project disk (before.createDirAll (dst.passed ++ [dst.path])).1 :=
  hagrees.trans (SameAt.of_changes (Changes.createDirAll before fun _ hdir => spares_bundle hproject hbundle hdst hdir))

include htree hproject hbundle hsource hsrc hdst hagrees in
/-- The loop over the entries mirrors each of them. -/
theorem forM_copyEntry_ok {copy : Place → Place → Eff (Store α) Unit}
    (hcopy : ∀ name {s s' : Store α}, Agrees project disk s →
      (copy (src.child name) (dst.child name)).run s = (.ok (), s') →
        Changes (Belongs yaml project options disk) s s' ∧ Mirrors project options.outDir disk s' (names ++ [name]))
    (h : ((before.entries src.path).forM (copyEntry copy src dst)).run before = (.ok (), after)) :
    Changes (Belongs yaml project options disk) before after
      ∧ ∀ name, (∃ rest, disk.Has (project ++ (names ++ [name] ++ rest))) →
        Mirrors project options.outDir disk after (names ++ [name]) := by
  obtain ⟨hchanges, hmirrors⟩ := forM_builds hproject hbundle
    (p := fun name s => Mirrors project options.outDir disk s (names ++ [name]))
    (fun name _ {s s'} hs hrun => by
      unfold copyEntry at hrun
      rw [Eff.bind_read_run] at hrun
      split at hrun
      next => exact hcopy name hs hrun
      next =>
        obtain ⟨⟨content, hread, hfile⟩, hchanges, -⟩ :=
          copyFile_ok htree hproject (source_append hsource [name]) (hsrc.child name) (hdst.child name) hs hrun
        exact ⟨hchanges, mirrors_of_file htree hread hfile⟩)
    (fun name {_ _} hleft hchanges => hleft.of_changes (source_append hsource [name]) hchanges) hagrees h
  refine ⟨hchanges, fun name hhas => hmirrors name ?_⟩
  obtain ⟨rest, hhas⟩ := hhas
  refine mem_entries_of_has ((hagrees.has_iff (List.prefix_append project _)).mpr hhas) ?_
  rw [hsrc.path, List.append_assoc]
  exact (List.prefix_append_right_inj project).mpr (List.prefix_append _ rest)

include htree hproject hbundle in
/-- A directory that is copied is a mirror of its source. -/
theorem copyDirWithin_ok {fuel : Nat} {names : Path} {src dst : Place} (hsource : Source names)
    (hsrc : Spells project names src) (hdst : Spells options.outDir names dst) {before after : Store α}
    (hagrees : Agrees project disk before) (h : (copyDirWithin fuel src dst).run before = (.ok (), after)) :
    Changes (Belongs yaml project options disk) before after ∧ Mirrors project options.outDir disk after names
      ∧ (disk.isThere src = true → ∀ dir ∈ dst.passed, dir ∈ after.dirs) := by
  induction fuel generalizing names src dst before after with
  | zero => cases h
  | succ fuel ih =>
    unfold copyDirWithin at h
    change (Eff.read (fun disk => disk.isThere src) >>= _).run before = _ at h
    rw [Eff.bind_read_run] at h
    by_cases hthere : before.isThere src = true
    · rw [if_pos hthere] at h
      obtain ⟨_, made, hmake, hrest⟩ := Eff.bind_run_ok h
      obtain ⟨-, hdirs⟩ := createParents_ok hmake
      rw [Eff.bind_read_run] at hrest
      by_cases hdir : made.isDir src.path = true
      · rw [if_pos hdir, Eff.bind_read_run] at hrest
        have hmade : made = (before.createDirAll (dst.passed ++ [dst.path])).1 := (Prod.mk.inj hmake).2.symm
        have hagrees' : Agrees project disk made := hmade ▸ agrees_createDirs hproject hbundle hdst hagrees
        have hmem : project ++ names ∈ disk.dirs := by
          rw [hsrc.path, hagrees'.isDir_eq (List.prefix_append project names), isDir,
            List.isEmpty_eq_false_iff.mpr (List.append_ne_nil_of_right_ne_nil project (ne_nil_of_source hsource)),
            Bool.false_or] at hdir
          exact List.contains_iff_mem.mp hdir
        have hchanges : Changes (Belongs yaml project options disk) before made := by
          rw [hmade]
          exact Changes.createDirAll before fun dir hdir => belongs_createDirs htree hsource hdst hmem hdir
        obtain ⟨hloop, hentries⟩ := forM_copyEntry_ok htree hproject hbundle hsource hsrc hdst hagrees'
          (fun name {_ _} hs hrun =>
            have hchild := ih (source_append hsource [name]) (hsrc.child name) (hdst.child name) hs hrun
            ⟨hchild.1, hchild.2.1⟩) hrest
        have hstays : ∀ dir ∈ dst.passed ++ [dst.path], dir ∈ after.dirs := fun dir hdir =>
          hloop.subset_dirs (fun _ => id) (hdirs ▸ List.mem_append_right _ hdir)
        refine ⟨hchanges.trans hloop, mirrors_of_entries (htree.apart _ hmem) ?_ hentries,
          fun _ dir hdir => hstays dir (List.mem_append_left _ hdir)⟩
        rw [← hdst.path]
        exact hstays _ (List.mem_append_right _ (List.mem_singleton_self _))
      · rw [if_neg hdir] at hrest
        cases hrest
    · rw [if_neg hthere] at h
      obtain ⟨-, rfl⟩ := Eff.pure_run_ok h
      refine ⟨.refl, mirrors_of_not_there htree hsrc hagrees (Bool.eq_false_iff.mpr hthere), fun hsrcThere => ?_⟩
      rw [← isThere_src hsrc hagrees] at hsrcThere
      exact absurd hsrcThere hthere

include htree hproject hbundle hsource hsrc hdst hagrees in
theorem copyDir_ok (h : (copyDir src dst).run before = (.ok (), after)) :
    Changes (Belongs yaml project options disk) before after ∧ Mirrors project options.outDir disk after names
      ∧ (disk.isThere src = true → ∀ dir ∈ dst.passed, dir ∈ after.dirs) := by
  unfold copyDir at h
  rw [Eff.bind_read_run] at h
  exact copyDirWithin_ok htree hproject hbundle hsource hsrc hdst hagrees h

/-! ### The fuel -/

include hproject hbundle hdst in
theorem moves_copyFile : Eff.Moves (Changes (SameAt.Spares (project <+: ·))) (copyFile src dst : Eff (Store α) Unit) :=
  moves_bind (moves_createParents fun _ hdir =>
      spares_bundle hproject hbundle hdst (List.mem_append_left _ hdir)) fun _ =>
    moves_bind (moves_readFile src) fun _ =>
      moves_writeFile (spares_bundle hproject hbundle hdst (List.mem_append_right _ (List.mem_singleton_self _)))

include hproject hbundle in
theorem moves_copyEntry {copy : Place → Place → Eff (Store α) Unit} (hdst : Spells options.outDir names dst)
    (hcopy : ∀ name, Eff.Moves (Changes (SameAt.Spares (project <+: ·))) (copy (src.child name) (dst.child name)))
    (name : String) : Eff.Moves (Changes (SameAt.Spares (project <+: ·))) (copyEntry copy src dst name) := by
  refine moves_bind (moves_read _) fun isDir => ?_
  cases isDir with
  | true => exact hcopy name
  | false => exact moves_copyFile hproject hbundle (hdst.child name)

include hproject hbundle in
/-- A copy leaves the project as it is, however it ends. -/
theorem moves_copyDirWithin {fuel : Nat} {names : Path} {src dst : Place} (hdst : Spells options.outDir names dst) :
    Eff.Moves (Changes (SameAt.Spares (project <+: ·))) (copyDirWithin fuel src dst : Eff (Store α) Unit) := by
  induction fuel generalizing names src dst with
  | zero => exact moves_fail _
  | succ fuel ih =>
    unfold copyDirWithin
    refine moves_bind (moves_read _) fun there => ?_
    cases there with
    | false => exact moves_pure ()
    | true =>
      refine moves_bind (moves_createParents fun _ hdir => spares_bundle hproject hbundle hdst hdir) fun _ => ?_
      refine moves_bind (moves_read _) fun isDir => ?_
      cases isDir with
      | false => exact moves_fail _
      | true =>
        refine moves_bind (moves_read _) fun _ => moves_forM fun name _ => ?_
        exact moves_copyEntry hproject hbundle hdst (fun name => ih (hdst.child name)) name

/-- Enough fuel for what is below a path. -/
def Suffices (disk : Store α) (p : Path) (fuel : Nat) : Prop :=
  0 < fuel ∧ ∀ q, p <+: q → disk.Has q → q.length < p.length + fuel

theorem suffices_child {p : Path} {name : String} {fuel : Nat} (h : Suffices disk p (fuel + 1))
    (hdir : p ++ [name] ∈ disk.dirs) : Suffices disk (p ++ [name]) fuel := by
  have hlength : (p ++ [name]).length = p.length + 1 := by rw [List.length_append, List.length_singleton]
  have hchild := h.2 _ (List.prefix_append p [name]) (.inr hdir)
  refine ⟨by omega, fun q hfirst hhas => ?_⟩
  have hq := h.2 q ((List.prefix_append p [name]).trans hfirst) hhas
  omega

theorem suffices_depth (p : Path) : Suffices disk p (depth disk) := by
  refine ⟨Nat.succ_pos _, fun q _ hhas => ?_⟩
  have hmem : q ∈ disk.files.map Prod.fst ++ disk.dirs := by
    rcases hhas with hread | hdir
    · obtain ⟨content, hcontent⟩ := Option.isSome_iff_exists.mp hread
      exact List.mem_append_left _ (mem_files_of_read hcontent)
    · exact List.mem_append_right _ hdir
  have hle : q.length ≤ ((disk.files.map Prod.fst ++ disk.dirs).map List.length).sum :=
    List.single_le_sum (by simp) _ (List.mem_map_of_mem hmem)
  unfold depth
  omega

include hproject hbundle in
/-- Fuel that suffices is never used up: more of it changes nothing. -/
theorem copyDirWithin_eq {fuel fuel' : Nat} {names : Path} {src dst : Place} (hsrc : Spells project names src)
    (hdst : Spells options.outDir names dst) (hne : names ≠ []) {before : Store α} (hagrees : Agrees project disk before)
    (hfuel : Suffices disk (project ++ names) fuel) (hfuel' : Suffices disk (project ++ names) fuel') :
    (copyDirWithin fuel src dst).run before = (copyDirWithin fuel' src dst).run before := by
  induction fuel generalizing fuel' names src dst before with
  | zero => exact absurd hfuel.1 (Nat.lt_irrefl 0)
  | succ fuel ih =>
    cases fuel' with
    | zero => exact absurd hfuel'.1 (Nat.lt_irrefl 0)
    | succ fuel' =>
      unfold copyDirWithin
      change (Eff.read (fun disk => disk.isThere src) >>= _).run before
        = (Eff.read (fun disk => disk.isThere src) >>= _).run before
      rw [Eff.bind_read_run, Eff.bind_read_run]
      split
      · cases hmake : (createDirs dst : Eff (Store α) Unit).run before with
        | mk result made =>
          cases result with
          | error message => rw [Eff.bind_run_of_error hmake, Eff.bind_run_of_error hmake]
          | ok =>
            rw [Eff.bind_run_of_ok hmake, Eff.bind_run_of_ok hmake, Eff.bind_read_run, Eff.bind_read_run]
            have hmade : made = (before.createDirAll (dst.passed ++ [dst.path])).1 := (Prod.mk.inj hmake).2.symm
            split
            · rw [Eff.bind_read_run, Eff.bind_read_run]
              refine Eff.forM_run_congr (p := Agrees project disk) (fun name _ s hs => ?_) (fun name _ s hs => ?_)
                (hmade ▸ agrees_createDirs hproject hbundle hdst hagrees)
              · exact hs.trans (SameAt.of_changes (moves_copyEntry hproject hbundle hdst
                  (fun name => moves_copyDirWithin hproject hbundle (hdst.child name)) name s))
              · unfold copyEntry
                rw [Eff.bind_read_run, Eff.bind_read_run]
                split
                next hdir =>
                  have hchild : project ++ names ++ [name] ∈ disk.dirs := by
                    rw [(hsrc.child name).path, ← List.append_assoc, hs.isDir_eq
                      ((List.prefix_append project names).trans (List.prefix_append _ _)), isDir,
                      List.isEmpty_eq_false_iff.mpr (List.append_ne_nil_of_right_ne_nil _ (List.cons_ne_nil name [])),
                      Bool.false_or] at hdir
                    exact List.contains_iff_mem.mp hdir
                  have hnext := suffices_child hfuel hchild
                  have hnext' := suffices_child hfuel' hchild
                  rw [List.append_assoc] at hnext hnext'
                  exact ih (hsrc.child name) (hdst.child name) (by simp) hs hnext hnext'
                next => rfl
            · rfl
      · rfl

include hproject hbundle in
/-- As deep as the disk is, and deeper, a copy is the same. -/
theorem copyDir_run_eq {fuel : Nat} (hfuel : depth before ≤ fuel) {names : Path} {src dst : Place}
    (hsrc : Spells project names src) (hdst : Spells options.outDir names dst) (hne : names ≠ []) :
    (copyDir src dst).run before = (copyDirWithin fuel src dst).run before := by
  have hdepth : Suffices before (project ++ names) (depth before) := suffices_depth _
  have hmore : Suffices before (project ++ names) fuel :=
    ⟨Nat.lt_of_lt_of_le hdepth.1 hfuel, fun q hfirst hhas =>
      Nat.lt_of_lt_of_le (hdepth.2 q hfirst hhas) (Nat.add_le_add_left hfuel _)⟩
  unfold copyDir
  rw [Eff.bind_read_run]
  exact copyDirWithin_eq hproject hbundle hsrc hdst hne (SameAt.refl before) hdepth hmore

end Copy

end Bundle

end Demo
