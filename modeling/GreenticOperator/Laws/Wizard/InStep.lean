import GreenticOperator.Laws.Wizard.Placed

/-!
# The two copies of a provider pack

A provider pack lies in `packs`, and a copy of it in its directory of `providers`. Copying overwrites
a pack that is there and linking does not, and a removal never looks for the copy. The two stay in step
(`InStep`) over runs of the wizard whose executions add a pack only where the copy has its bytes, or is
not there and gets made, and remove no provider pack that is there (`inStep_of_runMeets`).
-/

namespace Wizard

open Disk Disk.Files
open Project (TenantSelection)

variable {α : Type}

/-! ## The files of a provider pack -/

def packFile (bundle : Path) (name : String) : Path := bundle ++ ["packs", name]

def linkFile (bundle : Path) (domainDir name : String) : Path := bundle ++ ["providers", domainDir, name]

/-- **In step**: the copy of each provider pack is there where the pack is, with the same content. -/
def InStep (bundle : Path) (disk : Store α) : Prop :=
  ∀ id domainDir, providerDomainDir id = some domainDir →
    disk.read (linkFile bundle domainDir (fileName id)) = disk.read (packFile bundle (fileName id))

/-- The directory of `providers` for a file, by its name. -/
def fileDomainDir (name : String) : Option String := (Text.stripSuffix ".gtpack" name).bind providerDomainDir

/-- The files of provider packs in `packs`, with the directories of their copies. -/
def providerFiles (bundle : Path) (disk : Store α) : List (String × String) :=
  ((disk.entries (bundle ++ ["packs"])).filter fun name => (disk.read (packFile bundle name)).isSome).filterMap
    fun name => (fileDomainDir name).map fun domainDir => (name, domainDir)

/-! ## What a task has to meet -/

/-- The cached file is still there, and nothing is in the way of the file in `packs`. -/
def canCopy (bundle : Path) (disk : Store α) (pack : ResolvedPackInfo α) : Bool :=
  pack.cached.isSome && disk.isFree (under bundle [pack.outputPath])

/-- The directory of a copy, and those on the way to it. -/
def linkDirs (bundle : Path) (domainDir : String) : List Path :=
  (under bundle ["providers", domainDir]).passed ++ [(under bundle ["providers", domainDir]).path]

/-- No file is where the directory of the copy is to be. -/
def canLink (bundle : Path) (disk : Store α) (pack : ResolvedPackInfo α) : Bool :=
  match providerDomainDir pack.packId with
  | none => true
  | some domainDir =>
    (linkDirs bundle domainDir).all fun dir => (disk.read dir).isNone

section Meets

variable [DecidableEq α]

/-- A pack that is copied has a copy of its bytes, or it has none and gets one: all packs are copied, none before it
keeps the links from being made, and no directory is in the place of its copy. -/
def keepsInStep (bundle : Path) (disk : Store α) (packs : List (ResolvedPackInfo α)) (pack : ResolvedPackInfo α)
    (domainDir : String) : Bool :=
  let copy := linkFile bundle domainDir (fileName pack.packId)
  decide (disk.read copy = pack.cached.map .pack)
    || ((disk.read copy).isNone && !disk.dirs.contains copy && packs.all (canCopy bundle disk)
      && (packs.takeWhile (canLink bundle disk)).any fun linked => linked.packId == pack.packId)

/-- What copying and linking packs has to meet: each provider pack up to the first that cannot be copied stays in step. -/
def addsInStep (bundle : Path) (disk : Store α) (packs : List (ResolvedPackInfo α)) : Bool :=
  (packs.takeWhile (canCopy bundle disk)).all fun pack =>
    (providerDomainDir pack.packId).all (keepsInStep bundle disk packs pack)

/-- A directory that is removed has the files of a provider pack both in it, or both not. -/
def removesBoth (bundle : Path) (disk : Store α) (removed : Path) : Bool :=
  (providerFiles bundle disk).all fun file =>
    removed.isPrefixOf (packFile bundle file.1) == removed.isPrefixOf (linkFile bundle file.2 file.1)

def meetsTask (bundle : Path) : Task → Execution α → Bool
  | .copyPacks, execution => addsInStep bundle execution.disk execution.resolvedPacks
  | .removePack selection, execution =>
    match canonicalPackIdentifier (loadPacksMetadata bundle execution.disk) selection.packIdentifier with
    | .error _ => true
    | .ok packId => (providerFiles bundle execution.disk).all fun file => !carries packId file.1
  | .removeTenant selection, execution =>
    let place := removedPlace bundle selection
    !(execution.disk.isThere place && execution.disk.isDir place.path)
      || removesBoth bundle execution.disk place.path
  | _, _ => true

/-- Every task that is carried out meets what it has to, where it starts. -/
def meetsAll (bundle : Path) (env : Env α) : List Task → Execution α → Bool
  | [], _ => true
  | task :: tasks, execution =>
    meetsTask bundle task execution
      && match (perform bundle env task).run execution with
        | (.ok _, next) => meetsAll bundle env tasks next
        | (.error _, _) => true

/-- What one run of the wizard has to meet, on the disk that it starts from. -/
def runMeets (bundle : Path) (run : WizardRun α) (disk : Store α) : Bool :=
  match buildPlan run.mode (loadPacksMetadata bundle disk) run.request false with
  | .error _ => true
  | .ok plan =>
    match (checkBundle run.mode bundle).run (run.prepare bundle disk) with
    | (.error _, _) => true
    | (.ok _, prepared) => meetsAll bundle run.env (tasksFor run.mode plan.metadata) ⟨prepared, []⟩

end Meets

/-! ## Changes that keep the copies in step -/

/-- No file of a provider pack is written, and what is removed has both in it or both not. -/
def KeepsPairs (bundle : Path) (disk : Store α) : Change (Content α) → Prop
  | .write p _ => ∀ id domainDir, providerDomainDir id = some domainDir →
    p ≠ packFile bundle (fileName id) ∧ p ≠ linkFile bundle domainDir (fileName id)
  | .mkdir _ => True
  | .remove p => ∀ id domainDir, providerDomainDir id = some domainDir →
    (disk.read (packFile bundle (fileName id))).isSome = true →
      (p <+: packFile bundle (fileName id) ↔ p <+: linkFile bundle domainDir (fileName id))

theorem inStep_of_changes {bundle : Path} {disk disk' : Store α} (h : Changes (KeepsPairs bundle disk) disk disk')
    (hin : InStep bundle disk) : InStep bundle disk' := by
  intro id domainDir hdomain
  have hboth : disk'.read (linkFile bundle domainDir (fileName id)) = disk'.read (packFile bundle (fileName id))
      ∧ (disk.read (packFile bundle (fileName id)) = none → disk'.read (packFile bundle (fileName id)) = none) := by
    induction h with
    | refl => exact ⟨hin id domainDir hdomain, fun hnone => hnone⟩
    | @write d p content _ hok ih =>
      obtain ⟨hpack, hlink⟩ := hok id domainDir hdomain
      rw [d.read_write_of_ne hpack.symm content, d.read_write_of_ne hlink.symm content]
      exact ih
    | mkdir _ _ ih => exact ih
    | @remove d p _ hok ih =>
      rw [read_removeAll, read_removeAll]
      cases hread : disk.read (packFile bundle (fileName id)) with
      | none =>
        rw [ih.1, ih.2 hread, ite_self, ite_self]
        exact ⟨rfl, fun _ => rfl⟩
      | some content =>
        have hiff := hok id domainDir hdomain (by rw [hread, Option.isSome_some])
        rw [ih.1, if_congr hiff rfl rfl]
        exact ⟨rfl, fun hnone => by cases hnone⟩
  exact hboth.1

/-! ### Names -/

theorem stripSuffix_fileName (id : String) : Text.stripSuffix ".gtpack" (fileName id) = some id := by
  have hends : Text.endsWith ".gtpack" (fileName id) = true := by
    rw [Text.endsWith, List.isSuffixOf_iff_suffix, fileName, String.toList_append]
    exact List.suffix_append _ _
  rw [Text.stripSuffix, if_pos hends, fileName, String.toList_append, List.length_append, Nat.add_sub_cancel,
    List.take_left, String.ofList_toList]

theorem getLast_packFile (bundle : Path) (name : String) : (packFile bundle name).getLast? = some name := by
  simp [packFile]

theorem getLast_linkFile (bundle : Path) (domainDir name : String) :
    (linkFile bundle domainDir name).getLast? = some name := by
  simp [linkFile]

theorem mem_providerFiles {bundle : Path} {disk : Store α} {id domainDir : String}
    (hdomain : providerDomainDir id = some domainDir) (h : (disk.read (packFile bundle (fileName id))).isSome = true) :
    (fileName id, domainDir) ∈ providerFiles bundle disk := by
  have hprefix : (bundle ++ ["packs"]) ++ [fileName id] <+: packFile bundle (fileName id) := by
    rw [List.append_assoc]
    exact List.prefix_rfl
  refine List.mem_filterMap.mpr ⟨fileName id, List.mem_filter.mpr ⟨mem_entries_of_read h hprefix, h⟩, ?_⟩
  rw [fileDomainDir, stripSuffix_fileName, Option.bind_some, hdomain, Option.map_some]

theorem ne_fileName_of_otherName {name : String} (h : OtherName name) (id : String) : name ≠ fileName id := by
  rintro rfl
  have hsuffix : ".gtpack".toList <:+ (fileName id).toList := by
    rw [fileName, String.toList_append]
    exact List.suffix_append _ _
  rcases h with h | ⟨front, h⟩
  · have hnames : ∀ other ∈ ["greentic.demo.yaml", "tenant.gmap", "team.gmap", "providers.json"],
        ¬".gtpack".toList <:+ other.toList := by decide
    exact hnames _ h hsuffix
  · rw [h, String.toList_append] at hsuffix
    have hshort : ".yaml".toList <:+ ".gtpack".toList :=
      List.suffix_of_suffix_length_le (List.suffix_append _ _) hsuffix (by decide)
    revert hshort
    decide

theorem ne_default_of_domain {id domainDir : String} (h : providerDomainDir id = some domainDir) :
    fileName id ≠ "default.gtpack" := by
  intro heq
  have hid : id = "default" := by
    have hstrip := stripSuffix_fileName id
    rw [heq] at hstrip
    exact Option.some.inj (hstrip.symm.trans (stripSuffix_fileName "default"))
  have hnone : providerDomainDir "default" = none := by decide
  rw [hid, hnone] at h
  cases h

/-- What ends in a name that the rest does not have is a beginning of the first part. -/
theorem prefix_append_iff_of_getLast {p base rest : Path} {last : String} (hlast : p.getLast? = some last)
    (h : last ∉ rest) : p <+: base ++ rest ↔ p <+: base := by
  constructor
  · intro hbegins
    rcases Nat.le_total p.length base.length with hle | hle
    · exact List.prefix_of_prefix_length_le hbegins (List.prefix_append base rest) hle
    · obtain ⟨more, rfl⟩ := List.prefix_of_prefix_length_le (List.prefix_append base rest) hbegins hle
      rw [List.prefix_append_right_inj] at hbegins
      cases hmore : more with
      | nil => rw [List.append_nil]
      | cons first others =>
        rw [hmore, List.getLast?_append_of_ne_nil _ (List.cons_ne_nil _ _)] at hlast
        exact absurd (hbegins.subset (hmore ▸ List.mem_of_getLast? hlast)) h
  · exact fun hbegins => hbegins.trans (List.prefix_append base rest)

/-! ### Tasks -/

section Tasks

variable {bundle : Path} {env : Env α}

theorem allowsOther_keepsPairs (bundle : Path) (disk : Store α) : AllowsOther (KeepsPairs bundle disk) bundle where
  dirs _ := trivial
  files texts name content hlast hname id domainDir _ := by
    have hne := ne_fileName_of_otherName hname id
    constructor
    · intro heq
      rw [heq, getLast_packFile] at hlast
      exact hne (Option.some.inj hlast).symm
    · intro heq
      rw [heq, getLast_linkFile] at hlast
      exact hne (Option.some.inj hlast).symm
  defaults texts text hlast id domainDir hdomain := by
    have hne := ne_default_of_domain hdomain
    constructor
    · intro heq
      rw [heq, getLast_packFile] at hlast
      exact hne (Option.some.inj hlast)
    · intro heq
      rw [heq, getLast_linkFile] at hlast
      exact hne (Option.some.inj hlast)

/-- The default of a scope is no part of the way to one of the two files alone. -/
theorem prefix_default_iff {scope : PackScope} {target : Place} (h : defaultTarget bundle scope = some target)
    {id domainDir : String} (hdomain : providerDomainDir id = some domainDir) :
    target.path <+: packFile bundle (fileName id) ↔ target.path <+: linkFile bundle domainDir (fileName id) := by
  obtain ⟨-, -, hlast⟩ := exists_defaultTarget h
  have hname := ne_default_of_domain hdomain
  have hdir : domainDir ≠ "default.gtpack" := by
    have hmem := mem_of_providerDomainDir hdomain
    rintro rfl
    revert hmem
    decide
  unfold packFile linkFile
  rw [prefix_append_iff_of_getLast hlast (by simp [hname.symm]),
    prefix_append_iff_of_getLast hlast (by simp [hname.symm, hdir.symm])]

theorem disk_removeTenantOrTeam (bundle : Path) (selection : TenantSelection) (disk : Store α) :
    ((removeTenantOrTeam bundle selection).run disk).2
      = if disk.isThere (removedPlace bundle selection) && disk.isDir (removedPlace bundle selection).path
        then disk.removeAll (removedPlace bundle selection).path else disk := by
  unfold removeTenantOrTeam thereAt
  change ((Eff.read (fun disk : Store α => disk.isThere (removedPlace bundle selection)) >>= _).run disk).2 = _
  rw [Eff.bind_read_run]
  cases disk.isThere (removedPlace bundle selection) with
  | false => rfl
  | true =>
    change ((Eff.read (fun disk : Store α => disk.isDir (removedPlace bundle selection).path) >>= _).run disk).2 = _
    rw [Eff.bind_read_run]
    cases disk.isDir (removedPlace bundle selection).path <;> rfl

variable [DecidableEq α]

theorem changes_removePack {selection : PackRemoveSelection} {execution : Execution α}
    (h : meetsTask bundle (.removePack selection) execution = true) :
    Changes (KeepsPairs bundle execution.disk) execution.disk
      ((perform bundle env (.removePack selection)).run execution).2.disk := by
  rw [perform, onDisk_run]
  refine changes_applyPackRemove (fun packId hid name hcarries id domainDir hdomain hsome => ?_)
    fun target htarget id domainDir hdomain _ => prefix_default_iff htarget hdomain
  rw [meetsTask, hid] at h
  have hspared := List.all_eq_true.mp h _ (mem_providerFiles hdomain hsome)
  have hne : name ≠ fileName id := by
    rintro rfl
    rw [hcarries] at hspared
    cases hspared
  refine iff_of_false ?_ ?_
  · unfold packFile
    rw [List.prefix_append_right_inj]
    simp [hne]
  · unfold linkFile
    rw [List.prefix_append_right_inj]
    simp

theorem changes_removeTenant {selection : TenantSelection} {execution : Execution α}
    (h : meetsTask bundle (.removeTenant selection) execution = true) :
    Changes (KeepsPairs bundle execution.disk) execution.disk
      ((perform bundle env (.removeTenant selection)).run execution).2.disk := by
  rw [perform, onDisk_run]
  dsimp only
  rw [disk_removeTenantOrTeam]
  rw [meetsTask, Bool.or_eq_true] at h
  split
  next hremoved =>
    have hboth := h.resolve_left (by simp [hremoved])
    refine Changes.refl.remove fun id domainDir hdomain hsome => ?_
    have hfile := List.all_eq_true.mp hboth _ (mem_providerFiles hdomain hsome)
    rw [beq_iff_eq] at hfile
    rw [← List.isPrefixOf_iff_prefix, ← List.isPrefixOf_iff_prefix, hfile]
  next => exact .refl

/-- A task that adds no packs keeps the copies in step, where it meets what it has to. -/
theorem inStep_other {task : Task} (htask : task.AddsNoPacks) {execution : Execution α}
    (h : meetsTask bundle task execution = true) (hin : InStep bundle execution.disk) :
    InStep bundle ((perform bundle env task).run execution).2.disk := by
  refine inStep_of_changes ?_ hin
  by_cases hpack : ∃ selection, task = .removePack selection
  · obtain ⟨selection, rfl⟩ := hpack
    exact changes_removePack h
  · by_cases htenant : ∃ selection, task = .removeTenant selection
    · obtain ⟨selection, rfl⟩ := htenant
      exact changes_removeTenant h
    · exact (allowsOther_keepsPairs bundle _).changes htask (fun selection heq => hpack ⟨selection, heq⟩)
        (fun selection heq => absurd ⟨selection, heq⟩ htenant) execution

/-! ### Sequences of tasks -/

theorem meetsAll_append {front back : List Task} {execution : Execution α}
    (h : meetsAll bundle env (front ++ back) execution = true) :
    meetsAll bundle env front execution = true
      ∧ ∀ next, (front.forM (perform bundle env)).run execution = (.ok (), next) →
        meetsAll bundle env back next = true := by
  induction front generalizing execution with
  | nil =>
    refine ⟨rfl, fun next hnext => ?_⟩
    cases hnext
    exact h
  | cons task front ih =>
    change (meetsTask bundle task execution && _) = true at h
    rw [Bool.and_eq_true] at h
    obtain ⟨htask, hrest⟩ := h
    have hforM : ((task :: front).forM (perform bundle env)).run execution
        = ((perform bundle env task >>= fun _ => front.forM (perform bundle env)).run execution) := rfl
    rw [hforM, meetsAll, htask, Bool.true_and]
    cases hrun : (perform bundle env task).run execution with
    | mk result middle =>
      rw [hrun] at hrest
      cases result with
      | ok _ =>
        rw [Eff.bind_run_of_ok hrun]
        exact ih hrest
      | error message =>
        rw [Eff.bind_run_of_error hrun]
        exact ⟨rfl, fun next hnext => by cases hnext⟩

theorem inStep_forM {tasks : List Task} (htasks : ∀ task ∈ tasks, task.AddsNoPacks) {execution : Execution α}
    (h : meetsAll bundle env tasks execution = true) (hin : InStep bundle execution.disk) :
    InStep bundle ((tasks.forM (perform bundle env)).run execution).2.disk := by
  induction tasks generalizing execution with
  | nil => exact hin
  | cons task tasks ih =>
    rw [meetsAll, Bool.and_eq_true] at h
    have hafter := @inStep_other _ bundle env _ task (htasks task List.mem_cons_self) execution h.1 hin
    have hrest := h.2
    change InStep bundle ((perform bundle env task >>= fun _ => tasks.forM (perform bundle env)).run execution).2.disk
    cases hrun : (perform bundle env task).run execution with
    | mk result next =>
      rw [hrun] at hafter hrest
      cases result with
      | ok _ =>
        rw [Eff.bind_run_of_ok hrun]
        exact ih (fun other hother => htasks other (List.mem_cons_of_mem task hother)) hrest hafter
      | error message =>
        rw [Eff.bind_run_of_error hrun]
        exact hafter

end Tasks

/-! ## Adding packs -/

/-- The packs of an execution once ids are assigned: each under an id of its own, to be copied to its file. -/
structure WithIds (packs : List (ResolvedPackInfo α)) : Prop where
  output : ∀ pack ∈ packs, pack.outputPath = outputPath pack.packId
  named : ∀ pack ∈ packs, PackIdText pack.packId
  ids : (packs.map (·.packId)).Nodup

/-- The directories on the way to packs and their copies. -/
def DirPlace (bundle p : Path) : Prop :=
  p = bundle ∨ p = bundle ++ ["packs"] ∨ p = bundle ++ ["providers"]
    ∨ ∃ domainDir, p = bundle ++ ["providers", domainDir]

/-- The files of packs and their copies. -/
def FilePlace (bundle p : Path) : Prop :=
  (∃ name, p = packFile bundle name) ∨ ∃ domainDir name, p = linkFile bundle domainDir name

theorem not_dirPlace {bundle p : Path} (h : FilePlace bundle p) : ¬DirPlace bundle p := by
  unfold DirPlace
  rcases h with ⟨name, rfl⟩ | ⟨domainDir, name, rfl⟩
  · simp [packFile]
  · simp [linkFile]

/-- Files of a kind are written, and the directories on the way to them made. -/
def AddsFiles (bundle : Path) (file : Path → Prop) : Change (Content α) → Prop
  | .write p _ => file p
  | .mkdir p => DirPlace bundle p
  | .remove _ => False

section Adds

variable {bundle : Path} {file : Path → Prop} {d d' : Store α} {p : Path}

theorem read_of_adds (h : Changes (AddsFiles bundle file) d d') (hp : ¬file p) : d'.read p = d.read p :=
  h.read_of_spared (fun _ hok => hp hok) fun _ hok => hok.elim

theorem mem_dirs_of_adds (h : Changes (AddsFiles bundle file) d d') (hp : FilePlace bundle p) :
    p ∈ d'.dirs ↔ p ∈ d.dirs :=
  h.mem_dirs_of_spared (not_dirPlace hp) fun _ hok => hok.elim

theorem reaches_of_adds (h : Changes (AddsFiles bundle file) d d') {place : Place} (hplace : d.reaches place = true) :
    d'.reaches place = true := by
  refine List.all_eq_true.mpr fun dir hdir => List.contains_iff_mem.mpr ?_
  exact h.subset_dirs (fun _ hok => hok) (List.contains_iff_mem.mp (List.all_eq_true.mp hplace dir hdir))

end Adds

theorem takeWhile_congr_of_mem {β : Type} {l : List β} {p q : β → Bool} (h : ∀ b ∈ l, p b = q b) :
    l.takeWhile p = l.takeWhile q := by
  induction l with
  | nil => rfl
  | cons b l ih =>
    rw [List.takeWhile_cons, List.takeWhile_cons, h b List.mem_cons_self,
      ih fun other hother => h other (List.mem_cons_of_mem b hother)]

/-! ### The places -/

section Places

variable {bundle : Path} {packs : List (ResolvedPackInfo α)} {pack : ResolvedPackInfo α}

theorem dirPlace_of_mem_passed {names : List String} {last : String} (h : ∀ name ∈ names ++ [last], Plain name)
    (hnames : DirPlace bundle (bundle ++ names))
    (hbefore : ∀ dir ∈ (under bundle names).passed, DirPlace bundle dir) :
    ∀ dir ∈ (under bundle (names ++ [last])).passed, DirPlace bundle dir := by
  intro dir hdir
  rcases List.mem_append.mp (mem_passed_concat h hdir) with hdir | hdir
  · exact hbefore dir hdir
  · rw [List.mem_singleton.mp hdir]
    exact hnames

/-- The directories on the way to one below the bundle. -/
theorem dirPlace_of_mem_passed_singleton {name : String} (h : Plain name) :
    ∀ dir ∈ (under bundle [name]).passed, DirPlace bundle dir := by
  refine @dirPlace_of_mem_passed bundle [] name (by simpa using h) (.inl (List.append_nil bundle)) fun dir hdir => ?_
  cases hdir

theorem WithIds.plain (h : WithIds packs) (hpack : pack ∈ packs) : Plain (fileName pack.packId) :=
  plain_fileName (not_mem_of_not_isIdChar (h.named pack hpack) (by decide))

theorem WithIds.place_eq (h : WithIds packs) (hpack : pack ∈ packs) :
    under bundle [pack.outputPath] = under bundle ["packs", fileName pack.packId] := by
  have hfile := h.plain hpack
  have hnames : ∀ name ∈ ["packs", fileName pack.packId], Plain name := by
    simp only [List.forall_mem_cons, List.not_mem_nil, false_implies, implies_true, and_true]
    exact ⟨by decide, hfile⟩
  have hrelative : Text.startsWithChar '/' (outputPath pack.packId) = false := by
    rw [outputPath, startsWithChar_join "packs" (relative_of_plain hfile)]
    decide
  rw [h.output pack hpack, under, under, foldl_follow_plain hnames, List.foldl_cons, List.foldl_nil, follow,
    if_neg (Bool.eq_false_iff.mp hrelative), outputPath, split_join_plain (by decide) hfile]

theorem WithIds.path (h : WithIds packs) (hpack : pack ∈ packs) :
    (under bundle [pack.outputPath]).path = packFile bundle (fileName pack.packId) := by
  rw [h.output pack hpack]
  exact path_outputPath (h.named pack hpack) bundle

theorem WithIds.passed (h : WithIds packs) (hpack : pack ∈ packs) :
    ∀ dir ∈ (under bundle [pack.outputPath]).passed, DirPlace bundle dir := by
  rw [h.place_eq hpack]
  refine @dirPlace_of_mem_passed bundle ["packs"] _ ?_ (.inr (.inl rfl)) (dirPlace_of_mem_passed_singleton (by decide))
  simp only [List.cons_append, List.nil_append, List.forall_mem_cons, List.not_mem_nil, false_implies, implies_true,
    and_true]
  exact ⟨by decide, h.plain hpack⟩

theorem WithIds.path_not_mem_passed (h : WithIds packs) (hpack : pack ∈ packs) :
    (under bundle [pack.outputPath]).path ∉ (under bundle [pack.outputPath]).passed := by
  intro hmem
  have hdir := h.passed hpack _ hmem
  rw [h.path hpack] at hdir
  exact not_dirPlace (.inl ⟨_, rfl⟩) hdir

variable {domainDir : String}

theorem plain_linkDir (h : Plain domainDir) : ∀ name ∈ ["providers", domainDir], Plain name := by
  simp only [List.forall_mem_cons, List.not_mem_nil, false_implies, implies_true, and_true]
  exact ⟨by decide, h⟩

theorem path_linkDir (h : Plain domainDir) :
    (under bundle ["providers", domainDir]).path = bundle ++ ["providers", domainDir] :=
  path_under_plain (plain_linkDir h) bundle

/-- The directories that are made for a copy. -/
theorem dirPlace_linkDir (h : Plain domainDir) :
    ∀ dir ∈ linkDirs bundle domainDir, DirPlace bundle dir := by
  intro dir hdir
  rcases List.mem_append.mp hdir with hdir | hdir
  · exact @dirPlace_of_mem_passed bundle ["providers"] domainDir (plain_linkDir h) (.inr (.inr (.inl rfl)))
      (dirPlace_of_mem_passed_singleton (by decide)) dir hdir
  · rw [List.mem_singleton.mp hdir, path_linkDir h]
    exact .inr (.inr (.inr ⟨domainDir, rfl⟩))

end Places

/-! ### Copying -/

section Copying

variable {bundle : Path} {packs : List (ResolvedPackInfo α)} {pack : ResolvedPackInfo α} {d d' : Store α}

theorem canCopy_of_adds (hpacks : WithIds packs) (hpack : pack ∈ packs) {file : Path → Prop}
    (hfile : ∀ p, file p → FilePlace bundle p) (h : Changes (AddsFiles bundle file) d d') :
    canCopy bundle d' pack = canCopy bundle d pack := by
  have hdirs : ((under bundle [pack.outputPath]).passed.all fun dir => (d'.read dir).isNone)
      = (under bundle [pack.outputPath]).passed.all fun dir => (d.read dir).isNone := by
    rw [Bool.eq_iff_iff, all_isNone_iff, all_isNone_iff]
    refine forall₂_congr fun dir hdir => ?_
    rw [read_of_adds h fun hp => not_dirPlace (hfile dir hp) (hpacks.passed hpack dir hdir)]
  have hplace : d'.dirs.contains (under bundle [pack.outputPath]).path
      = d.dirs.contains (under bundle [pack.outputPath]).path := by
    rw [Bool.eq_iff_iff, List.contains_iff_mem, List.contains_iff_mem, hpacks.path hpack]
    exact mem_dirs_of_adds h (.inl ⟨_, rfl⟩)
  rw [canCopy, canCopy, isFree, isFree, isDir, isDir, hdirs, hplace]

theorem moves_copy (hpacks : WithIds packs) (hpack : pack ∈ packs) :
    Eff.Moves (Changes (AddsFiles bundle (· = packFile bundle (fileName pack.packId))))
      (copyPackIntoBundle bundle pack) :=
  moves_copyPackIntoBundle ⟨hpacks.passed hpack, fun _ => hpacks.path hpack⟩

theorem copy_run_of_can (hpacks : WithIds packs) (hpack : pack ∈ packs) (h : canCopy bundle d pack = true) :
    ∃ d', (copyPackIntoBundle bundle pack).run d = (.ok (), d')
      ∧ d'.read (packFile bundle (fileName pack.packId)) = pack.cached.map .pack
      ∧ d'.reaches (under bundle [pack.outputPath]) = true := by
  obtain ⟨hcached, hfree⟩ := Bool.and_eq_true_iff.mp h
  obtain ⟨bytes, hbytes⟩ := Option.isSome_iff_exists.mp hcached
  have hdirs := all_isNone_iff.mp (Bool.and_eq_true_iff.mp hfree).1
  let made := (d.createDirAll (under bundle [pack.outputPath]).passed).1
  refine ⟨made.write (under bundle [pack.outputPath]).path (.pack bytes), ?_, ?_, ?_⟩
  · unfold copyPackIntoBundle
    rw [hbytes]
    exact newFile_run_of_free hfree (hpacks.path_not_mem_passed hpack) _
  · rw [← hpacks.path hpack, read_write_self, hbytes, Option.map_some]
  · exact (createParents_run_of_free hdirs).2

theorem copy_run_of_not (hpacks : WithIds packs) (hpack : pack ∈ packs) (h : canCopy bundle d pack = false) :
    ∃ message d', (copyPackIntoBundle bundle pack).run d = (.error message, d') ∧ ∀ p, d'.read p = d.read p := by
  unfold copyPackIntoBundle
  cases hcached : pack.cached with
  | none => exact ⟨_, d, rfl, fun _ => rfl⟩
  | some bytes =>
    rw [canCopy, hcached, Option.isSome_some, Bool.true_and] at h
    obtain ⟨message, hrun⟩ := newFile_run_of_not_free h (hpacks.path_not_mem_passed hpack) (.pack bytes)
    exact ⟨message, _, hrun, fun p => d.read_createDirAll _ p⟩

/-- What copying packs leaves: those up to the first that cannot be copied have their bytes, and no other file changes. -/
structure Copied (bundle : Path) (packs : List (ResolvedPackInfo α)) (d d' : Store α) (result : Except String Unit) :
    Prop where
  ok_iff : result = .ok () ↔ ∀ pack ∈ packs, canCopy bundle d pack = true
  copied : ∀ pack ∈ packs.takeWhile (canCopy bundle d),
    d'.read (packFile bundle (fileName pack.packId)) = pack.cached.map .pack
  spared : ∀ p, (∀ pack ∈ packs.takeWhile (canCopy bundle d), p ≠ packFile bundle (fileName pack.packId)) →
    d'.read p = d.read p
  adds : Changes (AddsFiles bundle (FilePlace bundle)) d d'
  there : result = .ok () → ∀ pack ∈ packs, d'.reaches (under bundle [pack.outputPath]) = true

theorem WithIds.tail {first : ResolvedPackInfo α} (h : WithIds (first :: packs)) : WithIds packs where
  output pack hpack := h.output pack (List.mem_cons_of_mem first hpack)
  named pack hpack := h.named pack (List.mem_cons_of_mem first hpack)
  ids := (List.nodup_cons.mp h.ids).2

theorem fileName_inj {id id' : String} (h : fileName id = fileName id') : id = id' := by
  have hstrip := stripSuffix_fileName id
  rw [h] at hstrip
  exact Option.some.inj (hstrip.symm.trans (stripSuffix_fileName id'))

theorem WithIds.fileName_ne {first : ResolvedPackInfo α} (h : WithIds (first :: packs)) (hpack : pack ∈ packs) :
    fileName first.packId ≠ fileName pack.packId := by
  intro heq
  refine (List.nodup_cons.mp h.ids).1 ?_
  change first.packId ∈ packs.map (·.packId)
  rw [fileName_inj heq]
  exact List.mem_map_of_mem hpack

theorem packFile_inj {name name' : String} (h : packFile bundle name = packFile bundle name') : name = name' := by
  unfold packFile at h
  simpa using h

theorem filePlace_packFile {p : Path} {name : String} (h : p = packFile bundle name) : FilePlace bundle p :=
  .inl ⟨name, h⟩

theorem copied_run (hpacks : WithIds packs) (d : Store α) :
    Copied bundle packs d ((packs.forM (copyPackIntoBundle bundle)).run d).2
      ((packs.forM (copyPackIntoBundle bundle)).run d).1 := by
  induction packs generalizing d with
  | nil =>
    exact ⟨iff_of_true rfl fun _ h => absurd h List.not_mem_nil, fun _ h => absurd h List.not_mem_nil,
      fun _ _ => rfl, .refl, fun _ _ h => absurd h List.not_mem_nil⟩
  | cons first packs ih =>
    have hfirst : first ∈ first :: packs := List.mem_cons_self
    have hforM : ((first :: packs).forM (copyPackIntoBundle bundle)).run d
        = (copyPackIntoBundle bundle first >>= fun _ => packs.forM (copyPackIntoBundle bundle)).run d := rfl
    have hmoves : Changes (AddsFiles bundle (· = packFile bundle (fileName first.packId))) d
        ((copyPackIntoBundle bundle first).run d).2 := moves_copy hpacks hfirst d
    have hadds : Changes (AddsFiles bundle (FilePlace bundle)) d ((copyPackIntoBundle bundle first).run d).2 := by
      refine hmoves.mono fun change hok => ?_
      cases change with
      | write p content => exact filePlace_packFile hok
      | mkdir p => exact hok
      | remove p => exact hok
    rw [hforM]
    cases hcan : canCopy bundle d first with
    | false =>
      obtain ⟨message, d₁, hrun, hread⟩ := copy_run_of_not hpacks hfirst hcan
      rw [hrun] at hadds
      have hnone : (first :: packs).takeWhile (canCopy bundle d) = [] := List.takeWhile_cons_of_neg (by simp [hcan])
      rw [Eff.bind_run_of_error hrun]
      refine ⟨iff_of_false (fun h => by cases h) fun h => ?_, fun pack hpack => ?_, fun p _ => hread p, hadds,
        fun h => by cases h⟩
      · rw [h first hfirst] at hcan
        cases hcan
      · rw [hnone] at hpack
        cases hpack
    | true =>
      obtain ⟨d₁, hrun, hread, hreaches⟩ := copy_run_of_can hpacks hfirst hcan
      rw [hrun] at hmoves hadds
      have hsame : ∀ pack ∈ packs, canCopy bundle d₁ pack = canCopy bundle d pack := fun pack hpack =>
        canCopy_of_adds hpacks (List.mem_cons_of_mem first hpack) (fun _ => filePlace_packFile) hmoves
      have hsome : (first :: packs).takeWhile (canCopy bundle d) = first :: packs.takeWhile (canCopy bundle d₁) := by
        rw [List.takeWhile_cons_of_pos hcan, takeWhile_congr_of_mem hsame]
      obtain ⟨hok, hcopied, hspared, hrest, hthere⟩ := ih hpacks.tail d₁
      rw [Eff.bind_run_of_ok hrun]
      refine ⟨?_, fun pack hpack => ?_, fun p hp => ?_, hadds.trans hrest, fun h pack hpack => ?_⟩
      · rw [hok, List.forall_mem_cons, and_iff_right hcan]
        exact forall₂_congr fun pack hpack => by rw [hsame pack hpack]
      · rw [hsome] at hpack
        rcases List.mem_cons.mp hpack with rfl | hpack
        · rw [hspared _ fun other hother heq => ?_, hread]
          exact hpacks.fileName_ne (List.takeWhile_subset _ hother) (packFile_inj heq)
        · exact hcopied pack hpack
      · rw [hsome, List.forall_mem_cons] at hp
        rw [hspared p hp.2, read_of_adds hmoves hp.1]
      · rcases List.mem_cons.mp hpack with rfl | hpack
        · exact reaches_of_adds hrest hreaches
        · exact hthere h pack hpack

end Copying

/-! ### Linking -/

section Linking

variable {bundle : Path} {packs : List (ResolvedPackInfo α)} {pack : ResolvedPackInfo α} {d d' : Store α}
  {domainDir : String}

theorem canLink_of_adds {file : Path → Prop} (hfile : ∀ p, file p → FilePlace bundle p)
    (h : Changes (AddsFiles bundle file) d d') : canLink bundle d' pack = canLink bundle d pack := by
  unfold canLink
  split
  next => rfl
  next domainDir hdomain =>
    rw [Bool.eq_iff_iff, all_isNone_iff, all_isNone_iff]
    refine forall₂_congr fun dir hdir => ?_
    rw [read_of_adds h fun hp => not_dirPlace (hfile dir hp) (dirPlace_linkDir (plain_domainDir hdomain) dir hdir)]

/-- The copy of a pack. -/
def IsLink (bundle : Path) (pack : ResolvedPackInfo α) (p : Path) : Prop :=
  ∃ domainDir, providerDomainDir pack.packId = some domainDir ∧ p = linkFile bundle domainDir (fileName pack.packId)

theorem filePlace_of_isLink {p : Path} (h : IsLink bundle pack p) : FilePlace bundle p := by
  obtain ⟨domainDir, -, hp⟩ := h
  exact .inr ⟨domainDir, _, hp⟩

theorem plain_linkNames (hpacks : WithIds packs) (hpack : pack ∈ packs)
    (hdomain : providerDomainDir pack.packId = some domainDir) :
    ∀ name ∈ ["providers", domainDir] ++ [fileName pack.packId], Plain name := by
  intro name hname
  rcases List.mem_append.mp hname with hname | hname
  · exact plain_linkDir (plain_domainDir hdomain) name hname
  · rw [List.mem_singleton.mp hname]
    exact hpacks.plain hpack

theorem path_linkPlace (hpacks : WithIds packs) (hpack : pack ∈ packs)
    (hdomain : providerDomainDir pack.packId = some domainDir) :
    (under bundle ["providers", domainDir, fileName pack.packId]).path
      = linkFile bundle domainDir (fileName pack.packId) :=
  path_under_plain (plain_linkNames hpacks hpack hdomain) bundle

theorem passed_linkPlace (hpacks : WithIds packs) (hpack : pack ∈ packs)
    (hdomain : providerDomainDir pack.packId = some domainDir) :
    ∀ dir ∈ (under bundle ["providers", domainDir, fileName pack.packId]).passed,
      dir ∈ linkDirs bundle domainDir := by
  intro dir hdir
  rw [linkDirs, path_linkDir (plain_domainDir hdomain)]
  exact @mem_passed_concat bundle dir ["providers", domainDir] _ (plain_linkNames hpacks hpack hdomain) hdir

theorem moves_link (hpacks : WithIds packs) (hpack : pack ∈ packs) :
    Eff.Moves (Changes (AddsFiles bundle (IsLink bundle pack))) (linkPackToProviderDir bundle pack) := by
  refine moves_linkPackToProviderDir (fun domainDir hdomain => ?_) fun domainDir name hdomain hname => ?_
  · have hdirs := @dirPlace_linkDir bundle _ (plain_domainDir hdomain)
    exact ⟨fun dir hdir => hdirs dir (List.mem_append_left _ hdir),
      hdirs _ (List.mem_append_right _ List.mem_cons_self)⟩
  · rw [hpacks.path hpack, getLast_packFile, Option.some.injEq] at hname
    subst hname
    refine ⟨fun dir hdir => ?_, fun _ => ⟨domainDir, hdomain, path_linkPlace hpacks hpack hdomain⟩⟩
    exact dirPlace_linkDir (plain_domainDir hdomain) dir (passed_linkPlace hpacks hpack hdomain dir hdir)

theorem linkPackToProviderDir_run (hthere : d.isThere (under bundle [pack.outputPath]) = true)
    (hdomain : providerDomainDir pack.packId = some domainDir) :
    (linkPackToProviderDir bundle pack).run d = (linkInto bundle domainDir (under bundle [pack.outputPath])).run d := by
  unfold linkPackToProviderDir
  rw [hdomain]
  change ((Eff.read fun disk : Store α => disk.isThere (under bundle [pack.outputPath])) >>= _).run d = _
  rw [Eff.bind_read_run, hthere]
  rfl

theorem readFile_run_of_read {place : Place} {content : Content α} (hreaches : d.reaches place = true)
    (hread : d.read place.path = some content) : (readFile place).run d = (.ok content, d) := by
  rw [Eff.run_eq, readFile, hreaches, if_pos rfl, hread]

theorem writeFile_run_of_free {place : Place} (hreaches : d.reaches place = true) (hdir : d.isDir place.path = false)
    (content : Content α) : (writeFile place content).run d = (.ok (), d.write place.path content) := by
  rw [Eff.run_eq, writeFile, hreaches, hdir]
  rfl

/-- A copy that is there stays, and one that is not is made of the pack. -/
theorem linkInto_run (hpacks : WithIds packs) (hpack : pack ∈ packs)
    (hthere : d.isThere (under bundle [pack.outputPath]) = true)
    {content : Content α} (hread : d.read (packFile bundle (fileName pack.packId)) = some content)
    (hdomain : providerDomainDir pack.packId = some domainDir)
    (h : ∀ dir ∈ linkDirs bundle domainDir, d.read dir = none) :
    ∃ d', (linkInto bundle domainDir (under bundle [pack.outputPath])).run d = (.ok (), d')
      ∧ d'.read (linkFile bundle domainDir (fileName pack.packId))
        = if d.isDir (linkFile bundle domainDir (fileName pack.packId))
            || (d.read (linkFile bundle domainDir (fileName pack.packId))).isSome
          then d.read (linkFile bundle domainDir (fileName pack.packId)) else some content := by
  have hlink := @path_linkPlace _ bundle _ _ _ hpacks hpack hdomain
  obtain ⟨hcreate, hmade⟩ := @createParents_run_of_free (Content α) d
    ⟨(under bundle ["providers", domainDir]).path, linkDirs bundle domainDir⟩ h
  change (createDirs (under bundle ["providers", domainDir])).run d = _ at hcreate
  generalize hmiddle : (d.createDirAll (linkDirs bundle domainDir)).1 = middle at hcreate hmade
  have hsame : ∀ p, middle.read p = d.read p := fun p => hmiddle ▸ d.read_createDirAll _ p
  have hadds : Changes (AddsFiles bundle (IsLink bundle pack)) d middle := by
    rw [← hmiddle]
    exact Changes.createDirAll d (dirPlace_linkDir (plain_domainDir hdomain))
  have hreaches : middle.reaches (under bundle ["providers", domainDir, fileName pack.packId]) = true :=
    List.all_eq_true.mpr fun dir hdir => List.all_eq_true.mp hmade dir (passed_linkPlace hpacks hpack hdomain dir hdir)
  have hdir : middle.isDir (linkFile bundle domainDir (fileName pack.packId))
      = d.isDir (linkFile bundle domainDir (fileName pack.packId)) := by
    have hcontains : middle.dirs.contains (linkFile bundle domainDir (fileName pack.packId))
        = d.dirs.contains (linkFile bundle domainDir (fileName pack.packId)) := by
      rw [Bool.eq_iff_iff, List.contains_iff_mem, List.contains_iff_mem]
      exact mem_dirs_of_adds hadds (.inr ⟨_, _, rfl⟩)
    rw [isDir, isDir, hcontains]
  have hlast : (under bundle [pack.outputPath]).path.getLast? = some (fileName pack.packId) := by
    rw [hpacks.path hpack, getLast_packFile]
  have hrun : (linkInto bundle domainDir (under bundle [pack.outputPath])).run d
      = if d.isDir (linkFile bundle domainDir (fileName pack.packId))
          || (d.read (linkFile bundle domainDir (fileName pack.packId))).isSome
        then (.ok (), middle)
        else (copyFile (under bundle [pack.outputPath])
          (under bundle ["providers", domainDir, fileName pack.packId])).run middle := by
    unfold linkInto
    rw [Eff.bind_run_of_ok hcreate, hlast]
    change ((Eff.read fun disk : Store α =>
      disk.isThere (under bundle ["providers", domainDir, fileName pack.packId])) >>= _).run middle = _
    rw [Eff.bind_read_run, isThere, hreaches, Bool.true_and, hlink, hdir, hsame]
    split <;> rfl
  rw [hrun]
  split
  next => exact ⟨middle, rfl, hsame _⟩
  next hnew =>
    rw [Bool.or_eq_true, not_or, Bool.not_eq_true] at hnew
    have hsrc : middle.reaches (under bundle [pack.outputPath]) = true :=
      reaches_of_adds hadds (Bool.and_eq_true_iff.mp hthere).1
    have hcontent : middle.read (under bundle [pack.outputPath]).path = some content := by
      rw [hpacks.path hpack, hsame, hread]
    have hfree : middle.isDir (under bundle ["providers", domainDir, fileName pack.packId]).path = false := by
      rw [hlink, hdir]
      exact hnew.1
    refine ⟨middle.write (under bundle ["providers", domainDir, fileName pack.packId]).path content, ?_, ?_⟩
    · unfold copyFile
      rw [Eff.bind_run_of_ok (readFile_run_of_read hsrc hcontent)]
      exact writeFile_run_of_free hreaches hfree content
    · rw [hlink, read_write_self]

/-- Where a file is in the way of its directory, linking ends and no file changes. -/
theorem linkInto_run_of_not
    (h : ¬∀ dir ∈ linkDirs bundle domainDir, d.read dir = none) (src : Place) :
    ∃ message d', (linkInto bundle domainDir src).run d = (.error message, d') ∧ ∀ p, d'.read p = d.read p := by
  obtain ⟨message, hcreate⟩ := @createParents_run_of_not_free (Content α) d
    ⟨(under bundle ["providers", domainDir]).path, linkDirs bundle domainDir⟩ h
  exact ⟨message, _, Eff.bind_run_of_error hcreate, fun p => d.read_createDirAll _ p⟩

/-- A pack that is there is linked, or a file is in the way of the directory of its copy. -/
theorem link_cases (hpacks : WithIds packs) (hpack : pack ∈ packs)
    (hreaches : d.reaches (under bundle [pack.outputPath]) = true)
    (hsome : (d.read (packFile bundle (fileName pack.packId))).isSome = true) :
    (canLink bundle d pack = true ∧ ∃ d', (linkPackToProviderDir bundle pack).run d = (.ok (), d')
        ∧ (∀ p content, d.read p = some content → d'.read p = some content)
        ∧ ∀ p, IsLink bundle pack p → d.read p = none → p ∉ d.dirs →
          d'.read p = d.read (packFile bundle (fileName pack.packId)))
      ∨ canLink bundle d pack = false
        ∧ ∃ message d', (linkPackToProviderDir bundle pack).run d = (.error message, d')
          ∧ ∀ p, d'.read p = d.read p := by
  obtain ⟨content, hread⟩ := Option.isSome_iff_exists.mp hsome
  have hthere : d.isThere (under bundle [pack.outputPath]) = true := by
    rw [isThere, hreaches, hpacks.path hpack, hread, Option.isSome_some, Bool.or_true, Bool.and_true]
  cases hdomain : providerDomainDir pack.packId with
  | none =>
    refine .inl ⟨?_, d, ?_, fun _ _ h => h, fun p hlink => ?_⟩
    · rw [canLink, hdomain]
    · rw [linkPackToProviderDir, hdomain]
      rfl
    · obtain ⟨_, heq, -⟩ := hlink
      rw [hdomain] at heq
      cases heq
  | some domainDir =>
    rw [linkPackToProviderDir_run hthere hdomain]
    have hcan : canLink bundle d pack
        = (linkDirs bundle domainDir).all fun dir => (d.read dir).isNone := by
      rw [canLink, hdomain]
    by_cases hfree : ∀ dir ∈ linkDirs bundle domainDir, d.read dir = none
    · obtain ⟨d', hrun, hlink⟩ := linkInto_run hpacks hpack hthere hread hdomain hfree
      refine .inl ⟨hcan.trans (all_isNone_iff.mpr hfree), d', hrun, fun p other hother => ?_, ?_⟩
      · have hmoves := @moves_link _ bundle _ _ hpacks hpack d
        rw [linkPackToProviderDir_run hthere hdomain, hrun] at hmoves
        by_cases hp : p = linkFile bundle domainDir (fileName pack.packId)
        · rw [hp, hlink, ← hp, hother, Option.isSome_some, Bool.or_true, if_pos rfl]
        · rw [read_of_adds hmoves ?_, hother]
          rintro ⟨_, hdomain', heq⟩
          cases hdomain.symm.trans hdomain'
          exact hp heq
      · rintro p ⟨_, hdomain', rfl⟩ hnone hdir
        cases hdomain.symm.trans hdomain'
        have hcontains : d.dirs.contains (linkFile bundle domainDir (fileName pack.packId)) = false := by
          rw [← Bool.not_eq_true, List.contains_iff_mem]
          exact hdir
        rw [hlink, hnone, hread, isDir, hcontains]
        simp [linkFile]
    · refine .inr ⟨?_, linkInto_run_of_not hfree _⟩
      rw [hcan, ← Bool.not_eq_true, all_isNone_iff]
      exact hfree

/-- What linking packs leaves: the files that were there, and the copies up to the first that cannot be linked. -/
structure Linked (bundle : Path) (packs : List (ResolvedPackInfo α)) (d d' : Store α) : Prop where
  kept : ∀ p content, d.read p = some content → d'.read p = some content
  spared : ∀ p, (∀ pack ∈ packs, ¬IsLink bundle pack p) → d'.read p = d.read p
  made : ∀ pack ∈ packs.takeWhile (canLink bundle d), ∀ p, IsLink bundle pack p →
    d.read p = none → p ∉ d.dirs → d'.read p = d.read (packFile bundle (fileName pack.packId))

theorem isLink_unique {first : ResolvedPackInfo α} (hpacks : WithIds (first :: packs)) (hpack : pack ∈ packs)
    {p : Path} (h : IsLink bundle pack p) : ¬IsLink bundle first p := by
  rintro ⟨domainDir', -, hp'⟩
  obtain ⟨domainDir, -, hp⟩ := h
  have heq := hp'.symm.trans hp
  unfold linkFile at heq
  simp only [List.append_cancel_left_eq, List.cons.injEq, and_true, true_and] at heq
  exact hpacks.fileName_ne hpack heq.2

theorem packFile_not_link {name : String} : ¬IsLink bundle pack (packFile bundle name) := by
  rintro ⟨domainDir, -, heq⟩
  unfold packFile linkFile at heq
  simp at heq

theorem linked_run (hpacks : WithIds packs) {d : Store α}
    (hthere : ∀ pack ∈ packs, d.reaches (under bundle [pack.outputPath]) = true
      ∧ (d.read (packFile bundle (fileName pack.packId))).isSome = true) :
    Linked bundle packs d ((linkPacksToProviderDirs bundle packs).run d).2 := by
  unfold linkPacksToProviderDirs
  induction packs generalizing d with
  | nil => exact ⟨fun _ _ h => h, fun _ _ => rfl, fun _ h => absurd h List.not_mem_nil⟩
  | cons first packs ih =>
    have hfirst : first ∈ first :: packs := List.mem_cons_self
    obtain ⟨hreaches, hsome⟩ := hthere first hfirst
    have hmoves : Changes (AddsFiles bundle (IsLink bundle first)) d ((linkPackToProviderDir bundle first).run d).2 :=
      moves_link hpacks hfirst d
    have hforM : ((first :: packs).forM (linkPackToProviderDir bundle)).run d
        = (linkPackToProviderDir bundle first >>= fun _ => packs.forM (linkPackToProviderDir bundle)).run d := rfl
    rw [hforM]
    rcases link_cases hpacks hfirst hreaches hsome with
      ⟨hcan, d₁, hrun, hkept, hmade⟩ | ⟨hcan, message, d₁, hrun, hread⟩
    · rw [hrun] at hmoves
      have hthere₁ : ∀ pack ∈ packs, d₁.reaches (under bundle [pack.outputPath]) = true
          ∧ (d₁.read (packFile bundle (fileName pack.packId))).isSome = true := by
        intro pack hpack
        obtain ⟨hreaches, hsome⟩ := hthere pack (List.mem_cons_of_mem first hpack)
        rw [read_of_adds hmoves packFile_not_link]
        exact ⟨reaches_of_adds hmoves hreaches, hsome⟩
      have hsame : ∀ pack ∈ packs, canLink bundle d₁ pack = canLink bundle d pack := fun pack _ =>
        canLink_of_adds (fun _ => filePlace_of_isLink) hmoves
      obtain ⟨hkept', hspared', hmade'⟩ := ih hpacks.tail hthere₁
      rw [Eff.bind_run_of_ok hrun]
      refine ⟨fun p content h => hkept' p content (hkept p content h), fun p hp => ?_,
        fun pack hpack p hlink hnone hdir => ?_⟩
      · rw [List.forall_mem_cons] at hp
        rw [hspared' p hp.2, read_of_adds hmoves hp.1]
      · rw [List.takeWhile_cons_of_pos hcan, ← takeWhile_congr_of_mem hsame] at hpack
        rcases List.mem_cons.mp hpack with rfl | hpack
        · obtain ⟨content, hcontent⟩ := Option.isSome_iff_exists.mp hsome
          rw [hcontent]
          exact hkept' p content ((hmade p hlink hnone hdir).trans hcontent)
        · have hother := isLink_unique hpacks (List.takeWhile_subset _ hpack) hlink
          rw [hmade' pack hpack p hlink ?_ ?_, read_of_adds hmoves packFile_not_link]
          · rw [read_of_adds hmoves hother, hnone]
          · rw [mem_dirs_of_adds hmoves (filePlace_of_isLink hlink)]
            exact hdir
    · have hnone : (first :: packs).takeWhile (canLink bundle d) = [] := List.takeWhile_cons_of_neg (by simp [hcan])
      rw [Eff.bind_run_of_error hrun]
      refine ⟨fun p content h => (hread p).trans h, fun p _ => hread p, fun pack hpack => ?_⟩
      rw [hnone] at hpack
      cases hpack

end Linking

/-! ### Installing packs -/

section Install

variable {bundle : Path} {packs : List (ResolvedPackInfo α)} {pack : ResolvedPackInfo α} {d d' : Store α}
  {domainDir : String}

theorem packFile_ne_linkFile {name name' : String} : packFile bundle name ≠ linkFile bundle domainDir name' := by
  simp [packFile, linkFile]

theorem Copied.read_link {result : Except String Unit} (h : Copied bundle packs d d' result) (name : String) :
    d'.read (linkFile bundle domainDir name) = d.read (linkFile bundle domainDir name) :=
  h.spared _ fun _ _ heq => packFile_ne_linkFile heq.symm

theorem Copied.read_other {result : Except String Unit} (h : Copied bundle packs d d' result) {id : String}
    (hid : ∀ pack ∈ packs.takeWhile (canCopy bundle d), pack.packId ≠ id) :
    d'.read (packFile bundle (fileName id)) = d.read (packFile bundle (fileName id)) :=
  h.spared _ fun pack hpack heq => hid pack hpack (fileName_inj (packFile_inj heq)).symm

/-- Where all packs are copied, all of them have their bytes. -/
theorem Copied.read_pack (h : Copied bundle packs d d' (.ok ())) (hpack : pack ∈ packs) :
    d'.read (packFile bundle (fileName pack.packId)) = pack.cached.map .pack
      ∧ (d'.read (packFile bundle (fileName pack.packId))).isSome = true := by
  have hall := h.ok_iff.mp rfl
  have htaken : packs.takeWhile (canCopy bundle d) = packs := List.takeWhile_eq_self_iff.mpr hall
  have hread := h.copied pack (htaken.symm ▸ hpack)
  refine ⟨hread, ?_⟩
  rw [hread, Option.isSome_map]
  exact (Bool.and_eq_true_iff.mp (hall pack hpack)).1

variable [DecidableEq α]

/-- What is met for a provider pack that is copied. -/
theorem meets_of_addsInStep (h : addsInStep bundle d packs = true) (hpack : pack ∈ packs.takeWhile (canCopy bundle d))
    (hdomain : providerDomainDir pack.packId = some domainDir) :
    d.read (linkFile bundle domainDir (fileName pack.packId)) = pack.cached.map .pack
      ∨ (d.read (linkFile bundle domainDir (fileName pack.packId)) = none
        ∧ linkFile bundle domainDir (fileName pack.packId) ∉ d.dirs
        ∧ (∀ other ∈ packs, canCopy bundle d other = true)
        ∧ ∃ linked ∈ packs.takeWhile (canLink bundle d), linked.packId = pack.packId) := by
  have hkeeps := List.all_eq_true.mp h pack hpack
  rw [hdomain, Option.all_some, keepsInStep] at hkeeps
  simp only [Bool.or_eq_true, Bool.and_eq_true, decide_eq_true_eq, Option.isNone_iff_eq_none, Bool.not_eq_true',
    List.all_eq_true, List.any_eq_true, beq_iff_eq] at hkeeps
  refine hkeeps.imp_right fun hnew => ⟨hnew.1.1.1, fun hmem => ?_, hnew.1.2, hnew.2⟩
  rw [List.contains_iff_mem.mpr hmem] at hnew
  cases hnew.1.1.2

/-- Copying that is cut short keeps the copies in step: each pack it got to has a copy of its bytes. -/
theorem inStep_cut {message : String} (h : Copied bundle packs d d' (.error message)) (hin : InStep bundle d)
    (hmeets : addsInStep bundle d packs = true) : InStep bundle d' := by
  intro id domainDir hdomain
  rw [h.read_link]
  by_cases hid : ∃ pack ∈ packs.takeWhile (canCopy bundle d), pack.packId = id
  · obtain ⟨pack, hpack, rfl⟩ := hid
    rcases meets_of_addsInStep hmeets hpack hdomain with heq | ⟨-, -, hall, -⟩
    · rw [heq, h.copied pack hpack]
    · cases h.ok_iff.mpr hall
  · rw [h.read_other fun pack hpack heq => hid ⟨pack, hpack, heq⟩]
    exact hin id domainDir hdomain

/-- Linking what was copied keeps the copies in step. -/
theorem inStep_linked {d₁ d₂ : Store α} (hcopied : Copied bundle packs d d₁ (.ok ()))
    (hlinked : Linked bundle packs d₁ d₂) (hin : InStep bundle d) (hmeets : addsInStep bundle d packs = true) :
    InStep bundle d₂ := by
  intro id domainDir hdomain
  have htaken : packs.takeWhile (canCopy bundle d) = packs := List.takeWhile_eq_self_iff.mpr (hcopied.ok_iff.mp rfl)
  rw [hlinked.spared (packFile bundle (fileName id)) fun _ _ => packFile_not_link]
  by_cases hid : ∃ pack ∈ packs, pack.packId = id
  · obtain ⟨pack, hpack, rfl⟩ := hid
    obtain ⟨hread, hsome⟩ := hcopied.read_pack hpack
    rcases meets_of_addsInStep hmeets (htaken.symm ▸ hpack) hdomain with heq | ⟨hnone, hdir, -, linked, hfirst, heq⟩
    · obtain ⟨content, hcontent⟩ := Option.isSome_iff_exists.mp hsome
      rw [hcontent]
      refine hlinked.kept _ content ?_
      rw [hcopied.read_link, heq, ← hread, hcontent]
    · have hsame : packs.takeWhile (canLink bundle d₁) = packs.takeWhile (canLink bundle d) :=
        takeWhile_congr_of_mem fun _ _ => canLink_of_adds (fun _ hp => hp) hcopied.adds
      rw [← heq] at hnone hdir hdomain ⊢
      refine hlinked.made linked (hsame.symm ▸ hfirst) _ ⟨domainDir, hdomain, rfl⟩ ?_ ?_
      · rw [hcopied.read_link, hnone]
      · rw [mem_dirs_of_adds hcopied.adds (.inr ⟨_, _, rfl⟩)]
        exact hdir
  · have hnotLink : ∀ pack ∈ packs, ¬IsLink bundle pack (linkFile bundle domainDir (fileName id)) := by
      rintro pack hpack ⟨domainDir', -, heq⟩
      unfold linkFile at heq
      simp only [List.append_cancel_left_eq, List.cons.injEq, and_true, true_and] at heq
      exact hid ⟨pack, hpack, (fileName_inj heq.2).symm⟩
    have hnotCopied : ∀ pack ∈ packs.takeWhile (canCopy bundle d), pack.packId ≠ id :=
      fun pack hpack heq => hid ⟨pack, htaken ▸ hpack, heq⟩
    rw [hlinked.spared _ hnotLink, hcopied.read_link, hcopied.read_other hnotCopied]
    exact hin id domainDir hdomain

theorem inStep_install (hpacks : WithIds packs) (hin : InStep bundle d) (hmeets : addsInStep bundle d packs = true) :
    InStep bundle ((do
      packs.forM (copyPackIntoBundle bundle)
      linkPacksToProviderDirs bundle packs : Eff (Store α) Unit).run d).2 := by
  have hcopied := @copied_run _ bundle _ hpacks d
  cases hrun : (packs.forM (copyPackIntoBundle bundle)).run d with
  | mk result d₁ =>
    rw [hrun] at hcopied
    cases result with
    | error message =>
      rw [Eff.bind_run_of_error hrun]
      exact inStep_cut hcopied hin hmeets
    | ok _ =>
      rw [Eff.bind_run_of_ok hrun]
      have hlinked := @linked_run _ bundle _ hpacks d₁ fun pack hpack =>
        ⟨hcopied.there rfl pack hpack, (hcopied.read_pack hpack).2⟩
      exact inStep_linked hcopied hlinked hin hmeets

end Install

/-! ### Adding references -/

section Assigned

variable {bundle : Path} {packs : List (ResolvedPackInfo α)} {d : Store α}

theorem withIds_assigned {records : List PackMappingRecord} (h : WellKept records)
    (hrefs : GoodRefs (packs.map (·.sourceRef))) : WithIds (withAssignedIds records packs) := by
  obtain ⟨hsame, hrecorded, -⟩ := grants_withAssignedIds h.oneToOne h.named [] packs
  have hkept := wellKept_persist h hrefs.trimmed hrefs.not_blank (map_mappingRecord records packs)
  refine ⟨fun pack => outputPath_of_mem_withAssignedIds, fun pack hpack => ?_, ?_⟩
  · obtain ⟨record, hrecord, -, hid⟩ := hrecorded pack hpack
    exact hid ▸ hkept.named record hrecord
  · have hnodup : ((withAssignedIds records packs).map (·.sourceRef)).Nodup := hsame.symm ▸ hrefs.nodup
    refine List.Nodup.map_on (fun a ha b hb heq => ?_) hnodup.of_map
    refine List.inj_on_of_nodup_map hnodup ha hb ?_
    exact hkept.oneToOne.recorded_apart (hrecorded a ha) (heq ▸ hrecorded b hb)

theorem keepsPairs_records (bundle : Path) (disk : Store α) {records : List PackMappingRecord}
    {change : Change (Content α)} (h : WritesRecords bundle records change) : KeepsPairs bundle disk change := by
  cases change with
  | write p content =>
    intro id domainDir _
    rw [h.1, path_packsMetadataPath]
    constructor
    · simp [packFile]
    · simp [linkFile]
  | mkdir p => exact trivial
  | remove p => exact h.elim

variable [DecidableEq α]

/-- Adding packs keeps the copies in step, where copying them meets what it has to. -/
theorem inStep_addResolved (hrefs : GoodRefs (packs.map (·.sourceRef))) (hkept : RecordsKept bundle d)
    (hin : InStep bundle d)
    (hmeets : ∀ assigned d₁, (assignPackIdsAndPersistMetadata bundle packs).run d = (.ok assigned, d₁) →
      addsInStep bundle d₁ assigned = true) : InStep bundle ((addResolved bundle packs).run d).2 := by
  have hassign := assign_cases bundle packs d
  unfold addResolved
  cases hrun : (assignPackIdsAndPersistMetadata bundle packs).run d with
  | mk result d₁ =>
    rw [hrun] at hassign
    have hmiddle : InStep bundle d₁ := by
      rcases hassign with ⟨rfl, -⟩ | ⟨records, -, result', hwrite, -⟩
      · exact hin
      · have hchanges := changes_writePacksMetadata bundle
          (persistMetadata ((withAssignedIds records packs).map mappingRecord) records) d
        rw [hwrite] at hchanges
        exact inStep_of_changes (hchanges.mono fun _ => keepsPairs_records bundle d) hin
    cases result with
    | error message =>
      rw [Eff.bind_run_of_error hrun]
      exact hmiddle
    | ok assigned =>
      rw [Eff.bind_run_of_ok hrun]
      refine inStep_install ?_ hmiddle (hmeets assigned d₁ hrun)
      rcases hassign with ⟨-, hnil⟩ | ⟨records, hload, _, -, heq⟩
      · rw [(hnil assigned rfl).2]
        exact ⟨fun _ h => absurd h List.not_mem_nil, fun _ h => absurd h List.not_mem_nil, .nil⟩
      · rw [(heq assigned rfl).2]
        exact withIds_assigned (wellKept_of_load hkept hload) hrefs

/-- What is met where packs are copied, after they were resolved and given ids. -/
theorem addsInStep_of_meetsAll {env : Env α} {packRefs : List String} {execution : Execution α} (hne : packRefs ≠ [])
    (h : meetsAll bundle env (addPacks packRefs) execution = true)
    (hpacks : resolvePackRefs env.fetch packRefs = .ok packs)
    {assigned : List (ResolvedPackInfo α)} {d₁ : Store α}
    (hassign : (assignPackIdsAndPersistMetadata bundle packs).run execution.disk = (.ok assigned, d₁)) :
    addsInStep bundle d₁ assigned = true := by
  unfold addPacks at h
  rw [if_neg fun hnil => hne (List.isEmpty_iff.mp hnil), meetsAll, perform_resolve_run, hpacks, Bool.and_eq_true] at h
  have hrest := h.2
  dsimp only at hrest
  rw [meetsAll, perform_assign_run, hassign, Bool.and_eq_true] at hrest
  have hcopy := hrest.2
  dsimp only at hcopy
  rw [meetsAll, Bool.and_eq_true] at hcopy
  exact hcopy.1

theorem inStep_addPacks {env : Env α} {packRefs : List String}
    (hrefs : ∀ packs, resolvePackRefs env.fetch packRefs = .ok packs → GoodRefs (packs.map (·.sourceRef)))
    {execution : Execution α} (h : meetsAll bundle env (addPacks packRefs) execution = true)
    (hkept : RecordsKept bundle execution.disk) (hin : InStep bundle execution.disk) :
    InStep bundle (((addPacks packRefs).forM (perform bundle env)).run execution).2.disk := by
  have hrun := congrArg Prod.snd (run_addPacks bundle env packRefs execution)
  dsimp only at hrun
  rw [hrun]
  split
  next => exact hin
  next hne =>
    split
    next => exact hin
    next packs hpacks =>
      exact inStep_addResolved (hrefs packs hpacks) hkept hin fun _ _ => addsInStep_of_meetsAll hne h hpacks

end Assigned

/-! ## Runs of the wizard -/

section Runs

variable {bundle : Path} [DecidableEq α]

/-- The records are well kept, and the copies in step. -/
structure KeptInStep (bundle : Path) (disk : Store α) : Prop where
  records : RecordsKept bundle disk
  inStep : InStep bundle disk

/-- What two parts of a sequence keep, each where it meets what it has to, both keep. -/
theorem keptInStep_append {front back : List Task} {env : Env α} {execution : Execution α}
    (h : meetsAll bundle env (front ++ back) execution = true)
    (hfront : meetsAll bundle env front execution = true →
      KeptInStep bundle ((front.forM (perform bundle env)).run execution).2.disk)
    (hback : ∀ next, meetsAll bundle env back next = true → KeptInStep bundle next.disk →
      KeptInStep bundle ((back.forM (perform bundle env)).run next).2.disk) :
    KeptInStep bundle (((front ++ back).forM (perform bundle env)).run execution).2.disk := by
  obtain ⟨hmeets, hrest⟩ := meetsAll_append h
  have hmiddle := hfront hmeets
  rw [forM_append]
  cases hrun : (front.forM (perform bundle env)).run execution with
  | mk result next =>
    rw [hrun] at hmiddle
    cases result with
    | ok _ =>
      rw [Eff.bind_run_of_ok hrun]
      exact hback next (hrest next hrun) hmiddle
    | error message =>
      rw [Eff.bind_run_of_error hrun]
      exact hmiddle

theorem keptInStep_other {tasks : List Task} (htasks : ∀ task ∈ tasks, task.AddsNoPacks) {env : Env α}
    {execution : Execution α} (h : meetsAll bundle env tasks execution = true)
    (hkept : KeptInStep bundle execution.disk) :
    KeptInStep bundle ((tasks.forM (perform bundle env)).run execution).2.disk :=
  ⟨keepsDisk_forM (fun task htask => keepsRecords_other (htasks task htask)) execution hkept.records,
    inStep_forM htasks h hkept.inStep⟩

theorem keptInStep_tasksFor {mode : WizardMode} {packsJson : PacksJson} {request : WizardCreateRequest}
    {plan : WizardPlan} (hplan : buildPlan mode packsJson request false = .ok plan) {env : Env α}
    {execution : Execution α}
    (h : meetsAll bundle env (tasksFor mode plan.metadata) execution = true) (hkept : KeptInStep bundle execution.disk) :
    KeptInStep bundle (((tasksFor mode plan.metadata).forM (perform bundle env)).run execution).2.disk := by
  obtain ⟨back, heq, hback⟩ := exists_tasksFor_eq mode plan.metadata
  rw [heq] at h ⊢
  refine keptInStep_append h (fun hfront => keptInStep_other (fun _ => addsNoPacks_tasksBefore) hfront hkept)
    fun next hnext hkept => ?_
  refine keptInStep_append hnext (fun hadd => ?_) fun next hnext => keptInStep_other hback hnext
  exact ⟨keepsRecords_addPacks hplan env next hkept.records,
    inStep_addPacks (fun _ => goodRefs_resolved hplan) hadd hkept.records hkept.inStep⟩

omit [DecidableEq α] in
theorem inStep_prepare (run : WizardRun α) {disk : Store α} (h : InStep bundle disk) :
    InStep bundle (run.prepare bundle disk) := by
  unfold WizardRun.prepare
  split
  next =>
    refine inStep_of_changes (Changes.refl.remove fun id domainDir _ _ => ?_) h
    exact iff_of_true (List.prefix_append _ _) (List.prefix_append _ _)
  next => exact h

/-- One run of the wizard keeps the copies in step, where it meets what it has to. -/
theorem keptInStep_exec {run : WizardRun α} {disk : Store α} (h : runMeets bundle run disk = true)
    (hkept : KeptInStep bundle disk) : KeptInStep bundle (run.exec bundle disk) := by
  have hprepared : KeptInStep bundle (run.prepare bundle disk) :=
    ⟨recordsKept_prepare run hkept.records, inStep_prepare run hkept.inStep⟩
  unfold WizardRun.exec
  cases hplan : buildPlan run.mode (loadPacksMetadata bundle disk) run.request false with
  | error message => exact hkept
  | ok plan =>
    dsimp only
    rcases disk_executePlan run.mode bundle plan run.env (run.prepare bundle disk) with heq | ⟨hcheck, heq⟩
    · rw [heq]
      exact hprepared
    · have hchecked : (checkBundle run.mode bundle).run (run.prepare bundle disk) = (.ok (), run.prepare bundle disk) :=
        Prod.ext hcheck (checkBundle_disk _ _ _)
      rw [runMeets, hplan] at h
      dsimp only at h
      rw [hchecked] at h
      rw [heq]
      exact keptInStep_tasksFor hplan h hprepared

/-- **The copies stay in step, over runs of the wizard** from a disk with nothing where the bundle is to be: each file
of a provider pack is in `packs` and in its directory of `providers` with the same bytes, or in neither, before every
run and after the last, where the tasks of every run meet what they have to. -/
theorem inStep_of_runMeets {start : Store α} (hstart : NothingAt bundle start) (runs : List (WizardRun α))
    (hmeets : ∀ step ∈ Run.steps (WizardRun.exec bundle) runs start, runMeets bundle step.2 step.1 = true) :
    InStep bundle (Run.run (WizardRun.exec bundle) runs start)
      ∧ ∀ step ∈ Run.steps (WizardRun.exec bundle) runs start, InStep bundle step.1 := by
  have hnothing : KeptInStep bundle start := by
    refine ⟨fun content hcontent => ?_, fun id domainDir _ => ?_⟩
    · rw [path_packsMetadataPath, hstart.files _ (List.prefix_append bundle _)] at hcontent
      cases hcontent
    · rw [linkFile, packFile, hstart.files _ (List.prefix_append bundle _), hstart.files _ (List.prefix_append bundle _)]
  obtain ⟨hend, hsteps⟩ := @Run.invariant_run _ _ _ (KeptInStep bundle)
    (fun disk run => runMeets bundle run disk = true) runs start hnothing (fun _ _ => keptInStep_exec) hmeets
  exact ⟨hend.inStep, fun step hstep => (hsteps step hstep).inStep⟩

end Runs

/-! ### A provider pack that is added again -/

/-- A run that adds the pack `messaging-mail`, with some bytes. -/
def addsMail (mode : WizardMode) (bytes : Bool) : WizardRun Bool where
  mode := mode
  request :=
    { bundle := "bundle"
      bundleName := none
      packRefs := ["oci://a.io/messaging-mail"]
      tenants := [⟨"demo", none, []⟩]
      defaultAssignments := []
      providers := []
      updateOps := [.PacksAdd]
      removeTargets := []
      packsRemove := []
      providersRemove := []
      tenantsRemove := []
      accessChanges := []
      setupAnswers := [] }
  env :=
    { fetch := fun reference => .ok ⟨reference, "", "", [], some bytes, ""⟩
      registry := fun _ => .ok none
      seeded := .ok ()
      scanned := .ok ()
      manifest := fun _ => "" }
  overwrites := false

theorem nothingAt_empty (bundle : Path) : NothingAt bundle (Files.empty : Store α) where
  files _ _ := rfl
  dirs _ _ := fun h => absurd h List.not_mem_nil

theorem inStep_same_bytes :
    InStep ["bundle"] (Run.run (WizardRun.exec ["bundle"]) [addsMail .Create false, addsMail .Update false] Files.empty)
      ∧ ∀ step ∈ Run.steps (WizardRun.exec ["bundle"]) [addsMail .Create false, addsMail .Update false] Files.empty,
        InStep ["bundle"] step.1 :=
  inStep_of_runMeets (nothingAt_empty _) _ (by decide +kernel)

/-- The disk after the pack was added with some bytes, and again with other ones. -/
def mailAgain : Store Bool :=
  Run.run (WizardRun.exec ["bundle"]) [addsMail .Create false, addsMail .Update true] Files.empty

theorem copy_left_behind :
    NothingAt ["bundle"] (Files.empty : Store Bool)
      ∧ mailAgain.read (packFile ["bundle"] "messaging-mail.gtpack") = some (.pack true)
      ∧ mailAgain.read (linkFile ["bundle"] "messaging" "messaging-mail.gtpack") = some (.pack false)
      ∧ ¬InStep ["bundle"] mailAgain := by
  have hpack : mailAgain.read (packFile ["bundle"] "messaging-mail.gtpack") = some (.pack true) := by decide +kernel
  have hlink : mailAgain.read (linkFile ["bundle"] "messaging" "messaging-mail.gtpack") = some (.pack false) := by
    decide +kernel
  refine ⟨nothingAt_empty _, hpack, hlink, fun h => ?_⟩
  have heq := h "messaging-mail" "messaging" (by decide)
  rw [show fileName "messaging-mail" = "messaging-mail.gtpack" by decide, hpack, hlink] at heq
  revert heq
  decide

end Wizard
