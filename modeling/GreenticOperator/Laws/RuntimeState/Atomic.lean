import GreenticOperator.Laws.Subscriptions.Store
import GreenticOperator.Lib.Run
import GreenticOperator.RuntimeState

/-!
# Writes that are seen whole

The temporary file of a write is named after its target, and made without a look at who else has it. Two
calls whose targets differ in their extension only, or that have one target, share it: one cuts what the
other is about to move. A call whose temporary file is no target, and that no other call has open when it
makes it, disturbs nobody; where all calls do so, every target holds what it held or the bytes of one of its
own calls, wherever the calls are stopped (`atomicWrites_intact`).
-/

namespace RuntimeState

universe u

open Disk

namespace Writers

variable {ι : Type u} {calls : ι → Call} {before : Volume Path} {s : Writers ι} {i j : ι}

/-- **Intact**: what is under the target of a call was there before, or is all that one call of the target writes. -/
def Intact (calls : ι → Call) (before : Volume Path) (s : Writers ι) : Prop :=
  ∀ i, s.vol.content (calls i).path = before.content (calls i).path
    ∨ ∃ j, (calls j).path = (calls i).path ∧ s.vol.content (calls i).path = some (calls j).bytes

def Writes (s : Writers ι) (i : ι) : Prop := ∃ file written, s.stage i = .writing file written

/-- A temporary file is made where it is no target and no other call that writes has it. -/
def Clear (calls : ι → Call) (s : Writers ι) : Op ι → Prop
  | .create i => (∀ j, (calls j).path ≠ (calls i).tmp) ∧ ∀ j, s.Writes j → j ≠ i → (calls j).tmp ≠ (calls i).tmp
  | _ => True

/-- A call that writes has its temporary file to itself, with the first of its bytes in it. -/
structure Owns (calls : ι → Call) (s : Writers ι) (i : ι) (file written : Nat) : Prop where
  links : s.vol.links (calls i).tmp = some file
  content : s.vol.content (calls i).tmp = some ((calls i).bytes.take written)
  written_le : written ≤ (calls i).bytes.length
  no_target : ∀ j, (calls j).path ≠ (calls i).tmp
  no_other : ∀ j, s.Writes j → j ≠ i → (calls j).tmp ≠ (calls i).tmp

/-- What holds at every step of calls that keep clear of each other. -/
structure Sound (calls : ι → Call) (before : Volume Path) (s : Writers ι) : Prop where
  intact : Intact calls before s
  owns : ∀ i file written, s.stage i = .writing file written → Owns calls s i file written

theorem sound_start (calls : ι → Call) (before : Volume Path) : Sound calls before (start before) :=
  ⟨fun _ => .inl rfl, fun _ _ _ h => by cases h⟩

variable [DecidableEq ι]

@[simp] theorem vol_set (s : Writers ι) (i : ι) (stage : Stage) : (s.set i stage).vol = s.vol := rfl

theorem stage_set (s : Writers ι) (i : ι) (stage : Stage) (j : ι) :
    (s.set i stage).stage j = if j = i then stage else s.stage j := Function.update_apply ..

theorem writes_of_set_of_ne {stage : Stage} (h : (s.set i stage).Writes j) (hne : j ≠ i) : s.Writes j := by
  obtain ⟨file, written, h⟩ := h
  rw [stage_set, if_neg hne] at h
  exact ⟨file, written, h⟩

/-- A call that ends takes nothing from the others. -/
theorem sound_ended {s' : Writers ι} (hsound : Sound calls before s) (hintact : Intact calls before s')
    (hstage : s'.stage = Function.update s.stage i .ended)
    (hkept : ∀ j, s.Writes j → j ≠ i → s'.vol.links (calls j).tmp = s.vol.links (calls j).tmp
      ∧ s'.vol.content (calls j).tmp = s.vol.content (calls j).tmp) : Sound calls before s' := by
  have hof : ∀ j, s'.Writes j → j ≠ i ∧ s.Writes j := by
    rintro j ⟨file, written, hj⟩
    rw [hstage, Function.update_apply] at hj
    split at hj
    · cases hj
    next hne => exact ⟨hne, file, written, hj⟩
  refine ⟨hintact, fun j file written hj => ?_⟩
  obtain ⟨hne, hwrites⟩ := hof j ⟨file, written, hj⟩
  have hstagej : s.stage j = .writing file written := by
    rw [hstage, Function.update_of_ne hne] at hj
    exact hj
  obtain ⟨hlinks, hcontent, hle, htarget, hother⟩ := hsound.owns j file written hstagej
  obtain ⟨hlinks', hcontent'⟩ := hkept j hwrites hne
  exact ⟨hlinks'.trans hlinks, hcontent'.trans hcontent, hle, htarget,
    fun k hk hkj => hother k (hof k hk).2 hkj⟩

theorem sound_create (hsound : Sound calls before s) (hclear : Clear calls s (.create i)) :
    Sound calls before (create calls i s) := by
  unfold create
  cases hi : s.stage i with
  | writing | ended => exact hsound
  | waiting =>
    obtain ⟨htarget, hother⟩ := hclear
    refine ⟨fun j => ?_, fun j file written hj => ?_⟩
    · rw [vol_set, Volume.content_create, if_neg (htarget j)]
      exact hsound.intact j
    · rw [stage_set] at hj
      by_cases hji : j = i
      · subst hji
        rw [if_pos rfl] at hj
        cases hj
        refine ⟨Function.update_self .., ?_, Nat.zero_le _, htarget, fun k hk hkj => ?_⟩
        · rw [vol_set, Volume.content_create, if_pos rfl, List.take_zero]
        · exact hother k (writes_of_set_of_ne hk hkj) hkj
      · rw [if_neg hji] at hj
        obtain ⟨hlinks, hcontent, hle, htargetj, hotherj⟩ := hsound.owns j file written hj
        have hne : (calls j).tmp ≠ (calls i).tmp := hother j ⟨file, written, hj⟩ hji
        refine ⟨?_, ?_, hle, htargetj, fun k hk hkj => ?_⟩
        · exact (Function.update_of_ne hne ..).trans hlinks
        · rw [vol_set, Volume.content_create, if_neg hne, hcontent]
        · by_cases hki : k = i
          · rw [hki]
            exact hne.symm
          · exact hotherj k (writes_of_set_of_ne hk hki) hkj

theorem sound_write (size : Nat) (hsound : Sound calls before s) :
    Sound calls before (write calls i size s) := by
  unfold write
  cases hi : s.stage i with
  | waiting | ended => exact hsound
  | writing file written =>
    obtain ⟨hlinks, hcontent, hle, htarget, hother⟩ := hsound.owns i file written hi
    have hwrites : ∀ k, (s.set i (.writing file (written
        + (((calls i).bytes.drop written).take size).length))).Writes k → s.Writes k := by
      intro k hk
      by_cases hki : k = i
      · rw [hki]
        exact ⟨file, written, hi⟩
      · exact writes_of_set_of_ne hk hki
    dsimp only
    refine ⟨fun j => ?_, fun j other writtenj hj => ?_⟩
    · rw [vol_set, Volume.content_writeAt hlinks, if_neg (htarget j)]
      exact hsound.intact j
    · rw [stage_set] at hj
      by_cases hji : j = i
      · subst hji
        rw [if_pos rfl] at hj
        cases hj
        have hdata : s.vol.data file = (calls j).bytes.take written := by
          rw [Volume.content, hlinks] at hcontent
          exact Option.some.inj hcontent
        refine ⟨hlinks, ?_, ?_, htarget, fun k hk hkj => hother k (hwrites k hk) hkj⟩
        · rw [vol_set, Volume.content_writeAt hlinks, if_pos rfl, hdata, Volume.overwrite_take _ hle]
        · rw [List.length_take, List.length_drop]
          omega
      · rw [if_neg hji] at hj
        obtain ⟨hlinksj, hcontentj, hlej, htargetj, hotherj⟩ := hsound.owns j other writtenj hj
        have hne : (calls j).tmp ≠ (calls i).tmp := hother j ⟨other, writtenj, hj⟩ hji
        refine ⟨hlinksj, ?_, hlej, htargetj, fun k hk hkj => hotherj k (hwrites k hk) hkj⟩
        rw [vol_set, Volume.content_writeAt hlinks, if_neg hne, hcontentj]

theorem sound_rename (hsound : Sound calls before s) : Sound calls before (rename calls i s) := by
  unfold rename
  cases hi : s.stage i with
  | waiting | ended => exact hsound
  | writing file written =>
    obtain ⟨hlinks, hcontent, hle, htarget, hother⟩ := hsound.owns i file written hi
    dsimp only
    split
    · exact hsound
    next hall =>
      have hwhole : s.vol.content (calls i).tmp = some (calls i).bytes := by
        rw [hcontent, List.take_of_length_le (by omega)]
      rw [if_pos (by rw [hlinks]; rfl)]
      refine sound_ended hsound (fun j => ?_) rfl fun j hj hne => ?_
      · rw [vol_set, Volume.content_relink, if_neg (htarget j)]
        split
        next hpath => exact .inr ⟨i, hpath.symm, hwhole⟩
        next => exact hsound.intact j
      · obtain ⟨other, writtenj, hj⟩ := hj
        obtain ⟨-, -, -, htargetj, -⟩ := hsound.owns j other writtenj hj
        have htmp : (calls j).tmp ≠ (calls i).tmp := hother j ⟨other, writtenj, hj⟩ hne
        refine ⟨?_, ?_⟩
        · show (if _ then _ else if _ then _ else _) = _
          rw [if_neg (htargetj i).symm, if_neg htmp]
        · rw [vol_set, Volume.content_relink, if_neg (htargetj i).symm, if_neg htmp]

theorem sound_exec (op : Op ι) (hclear : Clear calls s op) (hsound : Sound calls before s) :
    Sound calls before (exec calls op s) := by
  cases op with
  | create i => exact sound_create hsound hclear
  | write i size => exact sound_write size hsound
  | rename i => exact sound_rename hsound
  | stop i => exact sound_ended hsound hsound.intact rfl fun _ _ _ => ⟨rfl, rfl⟩

/-- **Atomic writes**: wherever calls are stopped that keep clear of each other when they make their temporary
files, every target is intact. -/
theorem atomicWrites_intact (calls : ι → Call) (before : Volume Path) (ops : List (Op ι))
    (h : ∀ step ∈ Run.steps (exec calls) ops (start before), Clear calls step.1 step.2) :
    Intact calls before (Run.run (exec calls) ops (start before))
      ∧ ∀ step ∈ Run.steps (exec calls) ops (start before), Intact calls before step.1 := by
  obtain ⟨hend, hsteps⟩ := Run.invariant_run (sound_start calls before) (fun _ op => sound_exec op) h
  exact ⟨hend.intact, fun step hstep => (hsteps step hstep).intact⟩

omit [DecidableEq ι] in
/-- Calls whose temporary files are their own are clear of each other at every step. -/
theorem clear_of_apart (htarget : ∀ i j, (calls j).path ≠ (calls i).tmp)
    (htmp : ∀ i j, j ≠ i → (calls j).tmp ≠ (calls i).tmp) (s : Writers ι) (op : Op ι) : Clear calls s op := by
  cases op with
  | create i => exact ⟨htarget i, fun j _ hne => htmp i j hne⟩
  | write | rename | stop => trivial

/-! ## One call alone -/

/-- The system calls of a call that nothing comes between. -/
def undisturbed (calls : ι → Call) (i : ι) : List (Op ι) := [.create i, .write i (calls i).bytes.length, .rename i]

theorem create_of_waiting (h : s.stage i = .waiting) : create calls i s
    = { s with vol := s.vol.create (calls i).tmp }.set i (.writing (s.vol.fileAt (calls i).tmp) 0) := by
  rw [create, h]

theorem write_of_writing {file written size : Nat} (h : s.stage i = .writing file written) : write calls i size s
    = { s with vol := s.vol.writeAt file written (((calls i).bytes.drop written).take size) }.set i
      (.writing file (written + (((calls i).bytes.drop written).take size).length)) := by
  rw [write, h]

theorem rename_of_written {file written : Nat} (h : s.stage i = .writing file written)
    (hall : (calls i).bytes.length ≤ written) (hlinks : s.vol.links (calls i).tmp = some file) :
    rename calls i s = { s with vol := s.vol.relink (calls i).tmp (calls i).path }.set i .ended := by
  rw [rename, h]
  dsimp only
  rw [if_neg (Nat.not_lt.mpr hall), if_pos (Option.isSome_iff_exists.mpr ⟨file, hlinks⟩)]

theorem content_undisturbed (hi : s.stage i = .waiting) (path : Path) :
    (Run.run (exec calls) (undisturbed calls i) s).vol.content path
      = if path = (calls i).path then some (calls i).bytes
        else if path = (calls i).tmp then none else s.vol.content path := by
  obtain ⟨created, hcreated⟩ : ∃ created, created = create calls i s := ⟨_, rfl⟩
  obtain ⟨whole, hwhole⟩ : ∃ whole, whole = write calls i (calls i).bytes.length created := ⟨_, rfl⟩
  have hrun : Run.run (exec calls) (undisturbed calls i) s = rename calls i whole := by
    rw [hwhole, hcreated]
    rfl
  rw [create_of_waiting hi] at hcreated
  have hstage : created.stage i = .writing (s.vol.fileAt (calls i).tmp) 0 := by
    rw [hcreated, stage_set, if_pos rfl]
  have hlinks : created.vol.links (calls i).tmp = some (s.vol.fileAt (calls i).tmp) := by
    rw [hcreated]
    exact Function.update_self ..
  have hdata : created.vol.data (s.vol.fileAt (calls i).tmp) = [] := by
    rw [hcreated]
    exact Function.update_self ..
  rw [write_of_writing hstage, List.drop_zero, List.take_length, Nat.zero_add] at hwhole
  have hwholeStage : whole.stage i = .writing (s.vol.fileAt (calls i).tmp) (calls i).bytes.length := by
    rw [hwhole, stage_set, if_pos rfl]
  have hwholeLinks : whole.vol.links (calls i).tmp = some (s.vol.fileAt (calls i).tmp) := by
    rw [hwhole]
    exact hlinks
  have hover : Volume.overwrite [] 0 (calls i).bytes = (calls i).bytes := by
    simp [Volume.overwrite]
  have hcontent : ∀ other, whole.vol.content other
      = if other = (calls i).tmp then some (calls i).bytes else s.vol.content other := by
    intro other
    rw [hwhole, vol_set, Volume.content_writeAt hlinks, hdata, hover, hcreated, vol_set]
    split
    · rfl
    next hne => rw [Volume.content_create, if_neg hne]
  rw [hrun, rename_of_written hwholeStage (Nat.le_refl _) hwholeLinks, vol_set, Volume.content_relink, hcontent,
    hcontent, if_pos rfl]
  split
  · rfl
  · split
    · rfl
    · rfl

/-- A volume with the files of a disk. -/
def Shows (disk : Files (List UInt8)) (vol : Volume Path) : Prop := ∀ path, disk.read path = vol.content path

/-- **One call alone** leaves the files that a write of its bytes leaves. -/
theorem shows_undisturbed {disk disk' : Files (List UInt8)} {place : Place} (hshows : Shows disk s.vol)
    (hi : s.stage i = .waiting) (hpath : (calls i).path = place.path)
    (h : atomicWrite disk place (calls i).bytes = .ok disk') :
    Shows disk' (Run.run (exec calls) (undisturbed calls i) s).vol := by
  obtain ⟨-, rfl⟩ := Subscriptions.atomicWrite_ok_iff.mp h
  intro path
  rw [content_undisturbed hi]
  split
  next heq =>
    rw [heq, hpath]
    exact Files.read_write_self _ _ _
  next hne =>
    have hother : path ≠ place.path := fun heq => hne (heq.trans hpath.symm)
    refine (Files.read_write_of_ne _ hother _).trans ?_
    split
    next htmp =>
      rw [htmp, Call.tmp, hpath]
      exact Files.read_erase_self _ _
    next htmp =>
      rw [Call.tmp, hpath] at htmp
      exact (Files.read_erase_of_ne _ htmp).trans (hshows path)

/-! ## Two calls -/

def saves (names : Bool → String) (b : Bool) : Call where
  path := ["state", names b]
  bytes := if b then [0x7B, 0x7D] else [0x5B, 0x5D]

/-- Calls for files that differ in more than their extension may run as they like. -/
theorem apart_intact : Intact (saves fun b => if b then "services.json" else "topics.json") .empty
    (Run.run (exec (saves fun b => if b then "services.json" else "topics.json"))
      [.create true, .create false, .write true 1, .write false 2, .rename false, .write true 1, .rename true]
      (start .empty)) :=
  (atomicWrites_intact (saves fun b => if b then "services.json" else "topics.json") .empty _ fun _ _ =>
    clear_of_apart (by decide +kernel) (by decide +kernel) _ _).1

/-- Of two calls for one file the second cuts what the first is about to move. -/
theorem file_seen_empty : ¬ ∀ (calls : Bool → Call) (before : Volume Path) (ops : List (Op Bool)),
    Intact calls before (Run.run (exec calls) ops (start before)) := by
  intro h
  have hcontent : (Run.run (exec (saves fun _ => "services.json"))
      [.create true, .write true 2, .create false, .rename true] (start .empty)).vol.content ["state", "services.json"]
      = some [] := by
    decide +kernel
  rcases h (saves fun _ => "services.json") .empty [.create true, .write true 2, .create false, .rename true] true with
    hbefore | ⟨j, -, hj⟩
  · cases hcontent.symm.trans hbefore
  · have hbytes := Option.some.inj (hcontent.symm.trans hj)
    cases j <;> cases hbytes

end Writers

end RuntimeState
