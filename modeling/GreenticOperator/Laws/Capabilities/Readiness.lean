import GreenticOperator.Lib.Run
import GreenticOperator.RunnerHost.Host

/-!
# Which offer a mark is about

An offer is meant to be ready for a tenant and team where it was marked there, as ready the
last time (`Tracks`). What is kept of the marks is one file, whose place is made of the tenant,
the team and the stable id, and the offer named in it is never looked at. So the marks of some
offers are kept apart exactly where the places of these offers are (`tracks_iff`). Offers with
plain names are apart where no two of them have one stable id (`separated_iff_of_plain`).
-/

namespace RunnerHost

open Capabilities

/-- An offer as the record names it, at a tenant and team. -/
structure OfferKey where
  tenant : String
  team : Option String
  packId : String
  capId : String
  stableId : String
deriving DecidableEq, Repr

def OfferKey.of (tenant : String) (team : Option String) (binding : CapabilityBinding) : OfferKey where
  tenant
  team
  packId := binding.packId
  capId := binding.capId
  stableId := binding.stableId

def MarkCall.key (call : MarkCall) : OfferKey := .of call.ctx.tenant call.ctx.team call.binding

/-- The place of an offer's record. -/
@[irreducible]
def OfferKey.place (bundleRoot : String) (key : OfferKey) : Disk.Place :=
  Disk.place (installRecordPath bundleRoot key.tenant key.team key.stableId)

/-- The files after some calls. -/
def after (calls : List MarkCall) (files : InstallFiles) : InstallFiles :=
  Run.run (fun call files => (MarkCall.exec call files).1) calls files

/-- The mark that a call makes of an offer, where it succeeds. -/
def MarkCall.made (call : MarkCall) (key : OfferKey) (files : InstallFiles) : Option Mark :=
  if call.key = key ∧ (call.exec files).2.isOk then some call.mark else none

/-- The marks that were made of an offer. -/
def marksMade (key : OfferKey) (calls : List MarkCall) (files : InstallFiles) : List Mark :=
  (Run.steps (fun call files => (MarkCall.exec call files).1) calls files).filterMap fun step =>
    step.2.made key step.1

/-- Calls about some offers that cut no record short, and files that hold none of their records
before. -/
structure Covers (bundleRoot : String) (keys : OfferKey → Prop) (files : InstallFiles)
    (calls : List MarkCall) : Prop where
  root : files.bundleRoot = bundleRoot
  fresh : ∀ key, keys key → files.disk.read (key.place bundleRoot).path = none
  own : ∀ call ∈ calls, keys call.key
  whole : ∀ call ∈ calls, ∀ message, call.write ≠ .torn message

/-- **Readiness follows the marks**: what requires setup is ready where its last mark says so,
and a mark of one offer leaves the others as they are. -/
structure Tracks (bundleRoot : String) (keys : OfferKey → Prop) : Prop where
  ready : ∀ files calls tenant team binding, Covers bundleRoot keys files calls →
    keys (.of tenant team binding) → binding.requiresSetup = true →
    (isBindingReady (after calls files) tenant team binding = .ok true
      ↔ (marksMade (.of tenant team binding) calls files).getLast? = some .ready)
  frame : ∀ files calls call tenant team binding, Covers bundleRoot keys files (calls ++ [call]) →
    keys (.of tenant team binding) → binding.requiresSetup = true → call.key ≠ .of tenant team binding →
    (isBindingReady (after (calls ++ [call]) files) tenant team binding = .ok true
      ↔ isBindingReady (after calls files) tenant team binding = .ok true)

/-- A record can be written where its path text does not lead through its place. -/
def Writable (bundleRoot : String) (key : OfferKey) : Prop :=
  (key.place bundleRoot).path ∉ (key.place bundleRoot).passed

/-- Offers whose records go to places of their own. -/
def Separated (bundleRoot : String) (keys : OfferKey → Prop) : Prop :=
  ∀ a b, keys a → keys b → Writable bundleRoot a → Writable bundleRoot b →
    (a.place bundleRoot).path = (b.place bundleRoot).path → a = b

variable {bundleRoot : String} {keys : OfferKey → Prop} {files : InstallFiles} {call : MarkCall}
  {key : OfferKey}

/-! ## One call -/

theorem place_of (bundleRoot tenant : String) (team : Option String) (binding : CapabilityBinding) :
    Disk.place (installRecordPath bundleRoot tenant team binding.stableId)
      = (OfferKey.of tenant team binding).place bundleRoot := by
  unfold OfferKey.place
  rfl

/-- The record a call writes. -/
def MarkCall.record (call : MarkCall) : CapabilityInstallRecord :=
  match call.mark with
  | .ready => .ready call.binding.capId call.binding.stableId call.binding.packId call.nowUnixSec
  | .failed failureKey =>
    .failed call.binding.capId call.binding.stableId call.binding.packId failureKey call.nowUnixSec

theorem stableId_record (call : MarkCall) : call.record.stableId = call.binding.stableId := by
  unfold MarkCall.record
  cases call.mark <;> rfl

theorem exec_eq (call : MarkCall) (files : InstallFiles) :
    call.exec files = writeInstallRecord files call.write call.ctx.tenant call.ctx.team call.record := by
  unfold MarkCall.exec MarkCall.record
  cases call.mark <;> rfl

theorem status_record (call : MarkCall) :
    Text.eqIgnoreAsciiCase call.record.status "ready" = true ↔ call.mark = .ready := by
  have hready : Text.eqIgnoreAsciiCase "ready" "ready" = true := by decide
  have hfailed : Text.eqIgnoreAsciiCase "failed" "ready" = false := by decide
  unfold MarkCall.record
  cases call.mark with
  | ready => exact iff_of_true hready rfl
  | failed failureKey => exact iff_of_false (fun h => Bool.false_ne_true (hfailed.symm.trans h)) nofun

/-- A disk with the same files and, where there is none of them, more directories. -/
structure Extends (disk disk' : Disk.Files InstallFile) : Prop where
  read : ∀ p, disk'.read p = disk.read p
  dirs : disk.dirs ⊆ disk'.dirs
  clear : ∀ p ∈ disk'.dirs, p ∈ disk.dirs ∨ disk.read p = none

theorem extends_createDirAll (disk : Disk.Files InstallFile) (dirs : List Disk.Path) :
    Extends disk (disk.createDirAll dirs).1 where
  read := disk.read_createDirAll dirs
  dirs := disk.subset_dirs_createDirAll dirs
  clear _ h := (Disk.Files.mem_dirs_createDirAll h).imp_right And.right

/-- What a call does: it only makes directories, or it goes on to write the record, or cuts it
short. -/
theorem exec_cases (call : MarkCall) (files : InstallFiles) :
    ∃ disk', Extends files.disk disk' ∧
      (((call.exec files).2.isOk = false ∧ (call.exec files).1 = { files with disk := disk' })
      ∨ ((call.key.place files.bundleRoot).path ∉ disk'.dirs
        ∧ disk'.reaches (call.key.place files.bundleRoot) = true
        ∧ (((call.exec files).2.isOk = true ∧ (call.exec files).1 = { files with
              disk := disk'.write (call.key.place files.bundleRoot).path (.record call.record) })
          ∨ ((call.exec files).2.isOk = false ∧ ∃ message, call.write = .torn message)))) := by
  have hplace : Disk.place (installRecordPath files.bundleRoot call.ctx.tenant call.ctx.team
      call.record.stableId) = call.key.place files.bundleRoot := by
    rw [stableId_record]
    exact place_of _ _ _ _
  refine ⟨_, extends_createDirAll files.disk (call.key.place files.bundleRoot).passed, ?_⟩
  rw [exec_eq]
  dsimp only [writeInstallRecord]
  rw [hplace]
  cases hmade : files.disk.createDirAll (call.key.place files.bundleRoot).passed with
  | mk disk' made =>
    cases made with
    | error err => exact .inl ⟨rfl, rfl⟩
    | ok _ =>
      have hok : (files.disk.createDirAll (call.key.place files.bundleRoot).passed).2 = .ok () := by rw [hmade]
      have hdirs := Disk.Files.dirs_createDirAll (Disk.Files.createDirAll_ok_iff.mp hok)
      rw [hmade] at hdirs
      dsimp only at hdirs ⊢
      split
      next => exact .inl ⟨rfl, rfl⟩
      next hdir =>
        rw [List.contains_iff_mem] at hdir
        have hreaches : disk'.reaches (call.key.place files.bundleRoot) = true := by
          refine List.all_eq_true.mpr fun dir hmem => ?_
          rw [List.contains_iff_mem, hdirs]
          exact List.mem_append_right _ hmem
        cases hwrite : call.write with
        | done => exact .inr ⟨hdir, hreaches, .inl ⟨rfl, rfl⟩⟩
        | refused message => exact .inl ⟨rfl, rfl⟩
        | torn message => exact .inr ⟨hdir, hreaches, .inr ⟨rfl, message, rfl⟩⟩

/-! ## What the file of an offer says -/

/-- The file of an offer says what the last mark made of it. -/
def RecordShows (files : InstallFiles) (key : OfferKey) : Option Mark → Prop
  | none => files.disk.read (key.place files.bundleRoot).path = none
  | some mark => files.disk.reaches (key.place files.bundleRoot) = true
    ∧ (key.place files.bundleRoot).path ∉ files.disk.dirs
    ∧ ∃ record, files.disk.read (key.place files.bundleRoot).path = some (.record record)
      ∧ (Text.eqIgnoreAsciiCase record.status "ready" = true ↔ mark = .ready)

theorem isBindingReady_iff_of_recordShows {tenant : String} {team : Option String} {binding : CapabilityBinding}
    {last : Option Mark} (h : RecordShows files (.of tenant team binding) last)
    (hsetup : binding.requiresSetup = true) :
    isBindingReady files tenant team binding = .ok true ↔ last = some .ready := by
  unfold isBindingReady
  dsimp only [readInstallRecord]
  rw [if_pos hsetup, place_of]
  cases last with
  | none =>
    refine iff_of_false (fun hready => ?_) nofun
    split at hready
    next => cases hready
    next =>
      split at hready
      next => cases hready
      next =>
        rw [h] at hready
        cases hready
  | some mark =>
    obtain ⟨hreaches, hdir, record, hread, hstatus⟩ := h
    rw [hreaches, if_neg (by decide), if_neg (by rwa [List.contains_iff_mem]), hread, Option.some.injEq,
      ← hstatus]
    change Except.ok _ = Except.ok _ ↔ _
    rw [Except.ok.injEq]

theorem recordShows_of_extends {disk' : Disk.Files InstallFile} {last : Option Mark}
    (hextends : Extends files.disk disk') (h : RecordShows files key last) :
    RecordShows { files with disk := disk' } key last := by
  cases last with
  | none => exact (hextends.read _).trans h
  | some mark =>
    obtain ⟨hreaches, hdir, record, hread, hstatus⟩ := h
    refine ⟨?_, fun hmem => ?_, record, (hextends.read _).trans hread, hstatus⟩
    · refine List.all_eq_true.mpr fun dir hmem => ?_
      have hthere := List.all_eq_true.mp hreaches dir hmem
      rw [List.contains_iff_mem] at hthere ⊢
      exact hextends.dirs hthere
    · rcases hextends.clear _ hmem with hmem | hnone
      · exact hdir hmem
      · rw [hread] at hnone
        cases hnone

/-- A record written elsewhere changes nothing. -/
theorem recordShows_of_write {path : Disk.Path} {file : InstallFile} {last : Option Mark}
    (hne : (key.place files.bundleRoot).path ≠ path) (h : RecordShows files key last) :
    RecordShows { files with disk := files.disk.write path file } key last := by
  cases last with
  | none => exact (Disk.Files.read_write_of_ne _ hne _).trans h
  | some mark =>
    obtain ⟨hreaches, hdir, record, hread, hstatus⟩ := h
    exact ⟨hreaches, hdir, record, (Disk.Files.read_write_of_ne _ hne _).trans hread, hstatus⟩

theorem bundleRoot_exec (call : MarkCall) (files : InstallFiles) :
    (call.exec files).1.bundleRoot = files.bundleRoot := by
  rw [exec_eq]
  unfold writeInstallRecord
  dsimp only
  split
  · rfl
  · split
    · rfl
    · split <;> rfl

/-- **One call** keeps the file of an offer in line with its marks. -/
theorem recordShows_exec {last : Option Mark} (hwhole : ∀ message, call.write ≠ .torn message)
    (hapart : Writable files.bundleRoot call.key →
      (call.key.place files.bundleRoot).path = (key.place files.bundleRoot).path → call.key = key)
    (h : RecordShows files key last) :
    RecordShows (call.exec files).1 key ((call.made key files).or last) := by
  obtain ⟨disk', hextends, ⟨hfails, hfiles⟩ | ⟨hdir, hreaches, ⟨hok, hfiles⟩ | ⟨-, message, htorn⟩⟩⟩ :=
    exec_cases call files
  · have hmade : call.made key files = none := if_neg fun hmade => by rw [hfails] at hmade; cases hmade.2
    rw [hmade, hfiles]
    exact recordShows_of_extends hextends h
  · rw [hfiles]
    by_cases hkey : call.key = key
    · subst hkey
      have hmade : call.made call.key files = some call.mark := if_pos ⟨rfl, hok⟩
      rw [hmade]
      exact ⟨hreaches, hdir, call.record, Disk.Files.read_write_self _ _ _, status_record call⟩
    · have hmade : call.made key files = none := if_neg fun hmade => hkey hmade.1
      have hwritable : Writable files.bundleRoot call.key := by
        intro hmem
        have hthere := List.all_eq_true.mp hreaches _ hmem
        rw [List.contains_iff_mem] at hthere
        exact hdir hthere
      rw [hmade]
      exact @recordShows_of_write { files with disk := disk' } _ _ _ _
        (fun heq => hkey (hapart hwritable heq.symm)) (recordShows_of_extends hextends h)
  · exact absurd htorn (hwhole message)

/-! ## A run of calls -/

theorem marksMade_cons (key : OfferKey) (call : MarkCall) (calls : List MarkCall) (files : InstallFiles) :
    marksMade key (call :: calls) files
      = (call.made key files).toList ++ marksMade key calls (call.exec files).1 := by
  unfold marksMade
  rw [Run.steps, List.filterMap_cons]
  cases call.made key files <;> rfl

/-- **A run of calls** keeps the file of an offer in line with its marks. -/
theorem recordShows_after {calls : List MarkCall} {last : Option Mark}
    (hcalls : ∀ call ∈ calls, (∀ message, call.write ≠ .torn message)
      ∧ (Writable files.bundleRoot call.key →
        (call.key.place files.bundleRoot).path = (key.place files.bundleRoot).path → call.key = key))
    (h : RecordShows files key last) :
    RecordShows (after calls files) key ((marksMade key calls files).getLast?.or last) := by
  induction calls generalizing files last with
  | nil => exact h
  | cons call calls ih =>
    obtain ⟨hwhole, hapart⟩ := hcalls call List.mem_cons_self
    have hstep := recordShows_exec hwhole hapart h
    have hrun := ih (fun other hother => by
      rw [bundleRoot_exec]
      exact hcalls other (List.mem_cons_of_mem _ hother)) hstep
    have hlast : (marksMade key (call :: calls) files).getLast?.or last
        = (marksMade key calls (call.exec files).1).getLast?.or ((call.made key files).or last) := by
      rw [marksMade_cons, List.getLast?_append, Option.or_assoc]
      cases call.made key files <;> rfl
    rw [hlast]
    exact hrun

theorem bundleRoot_after (calls : List MarkCall) (files : InstallFiles) :
    (after calls files).bundleRoot = files.bundleRoot := by
  induction calls generalizing files with
  | nil => rfl
  | cons call calls ih => exact (ih _).trans (bundleRoot_exec call files)

/-! ## Offers whose records cannot be written -/

theorem not_ready_of_not_writable {tenant : String} {team : Option String} {binding : CapabilityBinding}
    (hwritable : ¬ Writable files.bundleRoot (.of tenant team binding)) (hsetup : binding.requiresSetup = true) :
    isBindingReady files tenant team binding ≠ .ok true := by
  have hpassed := not_not.mp hwritable
  unfold isBindingReady
  dsimp only [readInstallRecord]
  rw [if_pos hsetup, place_of]
  split
  next => nofun
  next hreaches =>
    rw [Bool.not_eq_true', Bool.not_eq_false] at hreaches
    rw [if_pos (List.all_eq_true.mp hreaches _ hpassed)]
    nofun

theorem made_eq_none_of_not_writable (hwritable : ¬ Writable files.bundleRoot key) (call : MarkCall) :
    call.made key files = none := by
  refine if_neg ?_
  rintro ⟨rfl, hok⟩
  obtain ⟨disk', -, ⟨hfails, -⟩ | ⟨hdir, hreaches, -⟩⟩ := exec_cases call files
  · rw [hfails] at hok
    cases hok
  · have hthere := List.all_eq_true.mp hreaches _ (not_not.mp hwritable)
    rw [List.contains_iff_mem] at hthere
    exact hdir hthere

theorem marksMade_eq_nil_of_not_writable (hwritable : ¬ Writable files.bundleRoot key) (calls : List MarkCall) :
    marksMade key calls files = [] := by
  induction calls generalizing files with
  | nil => rfl
  | cons call calls ih =>
    rw [marksMade_cons, made_eq_none_of_not_writable hwritable, ih (by rwa [bundleRoot_exec])]
    rfl

/-! ## Offers with places of their own -/

theorem ready_of_separated (h : Separated bundleRoot keys) {calls : List MarkCall} {tenant : String}
    {team : Option String} {binding : CapabilityBinding} (hcalls : Covers bundleRoot keys files calls)
    (hkey : keys (.of tenant team binding)) (hsetup : binding.requiresSetup = true) :
    isBindingReady (after calls files) tenant team binding = .ok true
      ↔ (marksMade (.of tenant team binding) calls files).getLast? = some .ready := by
  obtain ⟨rfl, hfresh, hown, hwhole⟩ := hcalls
  by_cases hwritable : Writable files.bundleRoot (.of tenant team binding)
  · have hshows : RecordShows (after calls files) (.of tenant team binding)
        ((marksMade (.of tenant team binding) calls files).getLast?.or none) := by
      refine recordShows_after (fun call hcall => ⟨hwhole call hcall, fun hother hpath => ?_⟩) (hfresh _ hkey)
      exact h call.key _ (hown call hcall) hkey hother hwritable hpath
    rw [Option.or_none] at hshows
    exact isBindingReady_iff_of_recordShows hshows hsetup
  · refine iff_of_false (not_ready_of_not_writable (by rwa [bundleRoot_after]) hsetup) ?_
    rw [marksMade_eq_nil_of_not_writable hwritable]
    nofun

/-- A call about another offer adds no mark. -/
theorem marksMade_concat_of_ne {calls : List MarkCall} (hne : call.key ≠ key) :
    marksMade key (calls ++ [call]) files = marksMade key calls files := by
  induction calls generalizing files with
  | nil =>
    rw [List.nil_append, marksMade_cons]
    have hmade : call.made key files = none := if_neg fun hmade => hne hmade.1
    rw [hmade]
    rfl
  | cons first calls ih => rw [List.cons_append, marksMade_cons, marksMade_cons, ih]

theorem tracks_of_separated (h : Separated bundleRoot keys) : Tracks bundleRoot keys where
  ready _ _ _ _ _ hcalls hkey hsetup := ready_of_separated h hcalls hkey hsetup
  frame files calls call tenant team binding hcalls hkey hsetup hne := by
    have hbefore : Covers bundleRoot keys files calls :=
      ⟨hcalls.root, hcalls.fresh, fun other hother => hcalls.own other (List.mem_append_left _ hother),
        fun other hother => hcalls.whole other (List.mem_append_left _ hother)⟩
    rw [ready_of_separated h hcalls hkey hsetup, ready_of_separated h hbefore hkey hsetup,
      marksMade_concat_of_ne hne]

/-- A record is written where nothing is in its way. -/
theorem exec_done (call : MarkCall) (files : InstallFiles) (hwrite : call.write = .done)
    (hfiles : ∀ dir ∈ (call.key.place files.bundleRoot).passed, files.disk.read dir = none)
    (hdirs : (call.key.place files.bundleRoot).path
      ∉ files.disk.dirs ++ (call.key.place files.bundleRoot).passed) :
    (call.exec files).2.isOk = true ∧ (call.exec files).1 = { files with
      disk := (files.disk.createDirAll (call.key.place files.bundleRoot).passed).1.write
        (call.key.place files.bundleRoot).path (.record call.record) } := by
  have hmade := Disk.Files.createDirAll_ok_iff.mpr hfiles
  have hplace : Disk.place (installRecordPath files.bundleRoot call.ctx.tenant call.ctx.team
      call.record.stableId) = call.key.place files.bundleRoot := by
    rw [stableId_record]
    exact place_of _ _ _ _
  rw [← Disk.Files.dirs_createDirAll hfiles, ← List.contains_iff_mem, Bool.not_eq_true] at hdirs
  rw [exec_eq]
  dsimp only [writeInstallRecord]
  rw [hplace]
  cases hall : files.disk.createDirAll (call.key.place files.bundleRoot).passed with
  | mk disk' made =>
    rw [hall] at hmade hdirs
    dsimp only at hmade hdirs
    rw [hmade]
    dsimp only
    rw [hdirs, if_neg Bool.false_ne_true, hwrite]
    exact ⟨rfl, rfl⟩

/-- A binding of an offer. -/
def OfferKey.binding (key : OfferKey) : CapabilityBinding where
  capId := key.capId
  stableId := key.stableId
  packId := key.packId
  domain := .Messaging
  packPath := ""
  providerComponentRef := ""
  providerOp := ""
  version := ""
  requiresSetup := true
  setupQaRef := none

def OfferKey.marked (key : OfferKey) (mark : Mark) : MarkCall :=
  ⟨⟨key.tenant, key.team, none⟩, key.binding, mark, 0, .done⟩

theorem of_binding (key : OfferKey) : OfferKey.of key.tenant key.team key.binding = key := rfl

theorem after_two (first second : MarkCall) (files : InstallFiles) :
    after [first, second] files = (second.exec (first.exec files).1).1 := rfl

section SharedPlace

variable {a b : OfferKey} (hwa : Writable bundleRoot a) (hwb : Writable bundleRoot b)
  (hpath : (a.place bundleRoot).path = (b.place bundleRoot).path)
include hwb

/-- The first mark of a bundle without records is made. -/
theorem exec_first (mark : Mark) :
    ((b.marked mark).exec (.empty bundleRoot)).2.isOk = true
      ∧ ((b.marked mark).exec (.empty bundleRoot)).1.disk.dirs = (b.place bundleRoot).passed
      ∧ ∀ dir, dir ≠ (b.place bundleRoot).path →
        ((b.marked mark).exec (.empty bundleRoot)).1.disk.read dir = none := by
  obtain ⟨hok, hfiles⟩ := exec_done (b.marked mark) (.empty bundleRoot) rfl (fun _ _ => rfl) hwb
  rw [hfiles]
  exact ⟨hok, Disk.Files.dirs_createDirAll fun _ _ => rfl,
    fun dir hdir => (Disk.Files.read_write_of_ne _ hdir _).trans (Disk.Files.read_createDirAll _ _ _)⟩

include hwa hpath

/-- A mark of an offer in the same place is what the record shows of the first one. -/
theorem recordShows_of_same_path (mark other : Mark) :
    RecordShows (after [b.marked mark, a.marked other] (.empty bundleRoot)) b (some other) := by
  obtain ⟨-, hdirsb, hreadb⟩ := exec_first hwb mark
  have hroot : ((b.marked mark).exec (.empty bundleRoot)).1.bundleRoot = bundleRoot := bundleRoot_exec _ _
  rw [after_two]
  generalize ((b.marked mark).exec (.empty bundleRoot)).1 = files at hdirsb hreadb hroot
  have hpassed : ∀ dir ∈ ((a.marked other).key.place files.bundleRoot).passed, files.disk.read dir = none := by
    intro dir hdir
    rw [hroot] at hdir
    exact hreadb dir fun heq => hwa (hpath.trans heq.symm ▸ hdir)
  have hnodir : (a.place bundleRoot).path ∉ (b.place bundleRoot).passed ++ (a.place bundleRoot).passed := by
    rw [List.mem_append, not_or]
    exact ⟨hpath ▸ hwb, hwa⟩
  obtain ⟨-, hfilesa⟩ := exec_done (a.marked other) files rfl hpassed (by rw [hroot, hdirsb]; exact hnodir)
  have hdirsa : ((a.marked other).exec files).1.disk.dirs
      = (b.place bundleRoot).passed ++ (a.place bundleRoot).passed := by
    rw [hfilesa]
    refine (Disk.Files.dirs_createDirAll hpassed).trans ?_
    rw [hdirsb, hroot]
    rfl
  have hread : ((a.marked other).exec files).1.disk.read (a.place bundleRoot).path
      = some (.record (a.marked other).record) := by
    rw [hfilesa, hroot]
    exact Disk.Files.read_write_self _ _ _
  unfold RecordShows
  rw [bundleRoot_exec, hroot, ← hpath, hdirsa]
  refine ⟨List.all_eq_true.mpr fun dir hdir => ?_, hnodir, (a.marked other).record, hread, status_record _⟩
  rw [List.contains_iff_mem, hdirsa]
  exact List.mem_append_left _ hdir

end SharedPlace

theorem covers_two {a b : OfferKey} (ha : keys a) (hb : keys b) (mark other : Mark) :
    Covers bundleRoot keys (.empty bundleRoot) [b.marked mark, a.marked other] := by
  refine ⟨rfl, fun _ _ => rfl, fun call hcall => ?_, fun call hcall => ?_⟩
  · rcases List.mem_cons.mp hcall with rfl | hcall
    · exact hb
    · rw [List.mem_singleton.mp hcall]
      exact ha
  · rcases List.mem_cons.mp hcall with rfl | hcall
    · nofun
    · rw [List.mem_singleton.mp hcall]
      nofun

/-- Where two offers share a place, a mark of one is taken for a mark of the other. -/
theorem separated_of_tracks (h : Tracks bundleRoot keys) : Separated bundleRoot keys := by
  intro a b ha hb hwa hwb hpath
  by_contra hne
  have htracks := h.ready _ [b.marked (.failed ""), a.marked .ready] b.tenant b.team b.binding
    (covers_two ha hb _ _) hb rfl
  have hmade : marksMade b [b.marked (.failed ""), a.marked .ready] (.empty bundleRoot) = [.failed ""] := by
    have hmadeb : (b.marked (.failed "")).made b (.empty bundleRoot) = some (.failed "") :=
      if_pos ⟨rfl, (exec_first hwb _).1⟩
    have hmadea : (a.marked .ready).made b ((b.marked (.failed "")).exec (.empty bundleRoot)).1 = none :=
      if_neg fun hmade => hne hmade.1
    rw [marksMade_cons, marksMade_cons, hmadeb, hmadea]
    rfl
  have hready := @isBindingReady_iff_of_recordShows _ b.tenant b.team b.binding _
    (recordShows_of_same_path hwa hwb hpath (.failed "") .ready) rfl
  rw [hready, of_binding, hmade] at htracks
  cases htracks.mp rfl

/-- **Readiness follows the marks exactly** where the records of different offers go to
different places. -/
theorem tracks_iff (bundleRoot : String) (keys : OfferKey → Prop) :
    Tracks bundleRoot keys ↔ Separated bundleRoot keys :=
  ⟨separated_of_tracks, tracks_of_separated⟩

/-! ## Plain names -/

/-- An offer whose tenant, team and stable id are looked up as they are. -/
structure PlainKey (key : OfferKey) : Prop where
  tenant : Disk.Plain key.tenant
  team : Disk.Plain (key.team.getD "default")
  stableId : '/' ∉ key.stableId.toList

theorem toList_recordName (stableId : String) :
    (s!"{stableId}.install.json").toList = stableId.toList ++ ".install.json".toList := by
  change (stableId ++ ".install.json").toList = _
  rw [String.toList_append]

theorem plain_recordName {stableId : String} (h : '/' ∉ stableId.toList) :
    Disk.Plain s!"{stableId}.install.json" := by
  have hlength : 13 ≤ (s!"{stableId}.install.json").toList.length := by
    rw [toList_recordName, List.length_append]
    exact Nat.le_add_left _ _
  refine ⟨fun heq => ?_, fun heq => ?_, fun heq => ?_, ?_⟩
  · rw [heq] at hlength
    exact absurd hlength (by decide)
  · rw [heq] at hlength
    exact absurd hlength (by decide)
  · rw [heq] at hlength
    exact absurd hlength (by decide)
  · rw [toList_recordName, List.mem_append, not_or]
    exact ⟨h, by decide⟩

/-- The directory of a tenant and team's records. -/
def recordsDir (bundleRoot tenant team : String) : String :=
  ["state", "runtime", tenant, team, "capabilities"].foldl Disk.join bundleRoot

theorem place_eq_join (bundleRoot : String) (key : OfferKey) :
    key.place bundleRoot = Disk.place (Disk.join (recordsDir bundleRoot key.tenant (key.team.getD "default"))
      s!"{key.stableId}.install.json") := by
  unfold OfferKey.place
  rfl

theorem plain_recordsDir {tenant team : String} (htenant : Disk.Plain tenant) (hteam : Disk.Plain team) :
    ∀ name ∈ ["state", "runtime", tenant, team, "capabilities"], Disk.Plain name := by
  simp only [List.forall_mem_cons]
  exact ⟨by decide, by decide, htenant, hteam, by decide, nofun⟩

theorem resolve_recordsDir (bundleRoot : String) {tenant team : String} (htenant : Disk.Plain tenant)
    (hteam : Disk.Plain team) :
    Disk.resolve (recordsDir bundleRoot tenant team)
      = Disk.resolve bundleRoot ++ ["state", "runtime", tenant, team, "capabilities"] :=
  Disk.resolve_joins bundleRoot (plain_recordsDir htenant hteam)

theorem downward_recordsDir {bundleRoot tenant team : String} (hroot : Disk.Downward bundleRoot)
    (htenant : Disk.Plain tenant) (hteam : Disk.Plain team) :
    Disk.Downward (recordsDir bundleRoot tenant team) :=
  Disk.downward_joins hroot (plain_recordsDir htenant hteam)

theorem path_of_plainKey (bundleRoot : String) (h : PlainKey key) :
    (key.place bundleRoot).path = Disk.resolve bundleRoot ++ ["state", "runtime", key.tenant,
      key.team.getD "default", "capabilities", s!"{key.stableId}.install.json"] := by
  rw [place_eq_join, Disk.path_place, Disk.resolve_join _ (plain_recordName h.stableId),
    resolve_recordsDir _ h.tenant h.team, List.append_assoc]
  rfl

theorem writable_of_plainKey (hroot : Disk.Downward bundleRoot) (h : PlainKey key) :
    Writable bundleRoot key := by
  have hclear := Disk.not_mem_passed_join (downward_recordsDir hroot h.tenant h.team)
    (plain_recordName h.stableId)
  unfold Writable
  rwa [place_eq_join]

/-- Offers with plain names are kept apart where their stable ids are, at each tenant and team. -/
theorem separated_iff_of_plain (hroot : Disk.Downward bundleRoot) (hplain : ∀ key, keys key → PlainKey key) :
    Separated bundleRoot keys ↔ ∀ a b, keys a → keys b → a.tenant = b.tenant →
      a.team.getD "default" = b.team.getD "default" → a.stableId = b.stableId → a = b := by
  refine forall₂_congr fun a b => forall₂_congr fun ha hb => ?_
  have hpath : (a.place bundleRoot).path = (b.place bundleRoot).path ↔ a.tenant = b.tenant
      ∧ a.team.getD "default" = b.team.getD "default" ∧ a.stableId = b.stableId := by
    rw [path_of_plainKey bundleRoot (hplain a ha), path_of_plainKey bundleRoot (hplain b hb),
      List.append_cancel_left_eq]
    have hname : s!"{a.stableId}.install.json" = s!"{b.stableId}.install.json" ↔ a.stableId = b.stableId := by
      refine ⟨fun h => ?_, fun h => h ▸ rfl⟩
      have hlist := congrArg String.toList h
      rw [toList_recordName, toList_recordName] at hlist
      exact String.toList_inj.mp (List.append_cancel_right hlist)
    simp [hname]
  rw [hpath]
  constructor
  · intro h htenant hteam hid
    exact h (writable_of_plainKey hroot (hplain a ha)) (writable_of_plainKey hroot (hplain b hb))
      ⟨htenant, hteam, hid⟩
  · rintro h - - ⟨htenant, hteam, hid⟩
    exact h htenant hteam hid

/-! ## Two packs with one offer id -/

/-- The offers of a registry, at every tenant and team. -/
def offeredBy (registry : CapabilityRegistry) (key : OfferKey) : Prop :=
  ∃ offer ∈ registry.values, key = .of key.tenant key.team offer.binding

def setupOf (capId : String) : CapabilityOfferV1 :=
  ⟨some "setup", capId, "v1", "store", "setup", none, 0, true, none, none, none, none, none, none⟩

def readSetups (packPath : String) : Except String (Option (List CapabilityOfferV1)) :=
  .ok (some [setupOf (if packPath = "cache.gtpack" then "greentic.cap.cache" else "greentic.cap.state")])

def setupPacks : List (String × CapabilityPackRecord) :=
  [("cache.gtpack", ⟨"cache", .Messaging⟩), ("state.gtpack", ⟨"state", .Messaging⟩)]

def cacheSetup : CapabilityOfferRecord :=
  recordOf "cache.gtpack" ⟨"cache", .Messaging⟩ (setupOf "greentic.cap.cache") 0

def stateSetup : CapabilityOfferRecord :=
  recordOf "state.gtpack" ⟨"state", .Messaging⟩ (setupOf "greentic.cap.state") 0

/-- Offers of two packs share an id, and with it the record. -/
theorem ready_by_another_pack : ¬ ∀ reader packIndex registry bundleRoot,
    CapabilityRegistry.buildFromPackIndex reader packIndex = .ok registry →
      Tracks bundleRoot (offeredBy registry) := by
  intro h
  let registry : CapabilityRegistry :=
    ⟨[("greentic.cap.cache", [cacheSetup]), ("greentic.cap.state", [stateSetup])]⟩
  have hbuild : CapabilityRegistry.buildFromPackIndex readSetups setupPacks = .ok registry := by rfl
  let call : MarkCall := ⟨⟨"demo", none, none⟩, cacheSetup.binding, .ready, 0, .done⟩
  have hcovers : Covers "bundle" (offeredBy registry) (.empty "bundle") [call] := by
    refine ⟨rfl, fun _ _ => rfl, fun other hother => ?_, fun other hother => ?_⟩
    · rw [List.mem_singleton.mp hother]
      exact ⟨cacheSetup, by decide, rfl⟩
    · rw [List.mem_singleton.mp hother]
      nofun
  have hready := (h readSetups setupPacks registry "bundle" hbuild).ready _ _ "demo" none
    stateSetup.binding hcovers ⟨stateSetup, by decide, rfl⟩ rfl
  exact absurd (hready.mp (by decide +kernel)) (by decide +kernel)

end RunnerHost
