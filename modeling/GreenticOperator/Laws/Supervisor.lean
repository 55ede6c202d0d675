import GreenticOperator.Supervisor
import GreenticOperator.Lib.Outcome
import Mathlib.Data.List.ReduceOption

/-!
# What the supervisor keeps

The process of a service is made before its id is written, and ended before its file is removed. As long as
each file of a process is written, a living process of a service is the one of its file (`Tracked`), so a
service never has two (`oneProcess_of_run`). Where the ids of new processes are in no other file, the files
say all there is to know of the services: the status is right, a stop ends the process of its service and no
other, and a start is refused exactly where the service runs (`supervises_of_run`).
-/

namespace Supervisor

open RuntimeState HashMap

/-! ## The file of a process -/

theorem toList_toString (n : Nat) : (toString n).toList = Nat.toDigits 10 n := by
  rw [Nat.toString_eq_repr, Nat.toList_repr]

theorem isDigit_of_mem_toString {n : Nat} {c : Char} (h : c ∈ (toString n).toList) : c.isDigit = true := by
  rw [toList_toString] at h
  exact Nat.isDigit_of_mem_toDigits (by decide) (by decide) h

theorem toString_ne_empty (n : Nat) : toString n ≠ "" := by
  intro h
  have hlist := congrArg String.toList h
  rw [toList_toString] at hlist
  exact Nat.toDigits_ne_nil hlist

theorem digitsOf_toString (n : Nat) : digitsOf (toString n) = (toString n).toList := by
  unfold digitsOf
  split
  next rest heq =>
    have hdigit := isDigit_of_mem_toString (heq ▸ List.mem_cons_self : '+' ∈ (toString n).toList)
    exact absurd hdigit (by decide)
  next => rfl

/-- The text of an id is read as the id. -/
theorem parseU32_toString (pid : UInt32) : parseU32 (toString pid.toNat) = .ok pid := by
  have hdigits : ∀ c ∈ (toString pid.toNat).toList, c.isDigit = true := fun c hc => isDigit_of_mem_toString hc
  have hvalue : Nat.ofDigitChars 10 (toString pid.toNat).toList 0 = pid.toNat := by
    rw [toList_toString, Nat.ofDigitChars_ten_toDigits]
  unfold parseU32
  dsimp only
  rw [digitsOf_toString, List.takeWhile_eq_self_iff.mpr hdigits, hvalue, if_neg (toString_ne_empty _),
    if_neg (Nat.not_le.mpr pid.toNat_lt), if_neg (by simp), UInt32.ofNat_toNat]

theorem isWhitespace_of_isDigit {c : Char} (h : c.isDigit = true) : Text.isWhitespace c = false := by
  rw [Char.isDigit, Bool.and_eq_true, decide_eq_true_eq, decide_eq_true_eq] at h
  obtain ⟨hlow, hhigh⟩ := h
  rw [Bool.eq_false_iff]
  intro hspace
  simp only [Text.isWhitespace, Bool.or_eq_true, Bool.and_eq_true, decide_eq_true_eq, beq_iff_eq] at hspace
  have hlow : 48 ≤ c.toNat := hlow
  have hhigh : c.toNat ≤ 57 := hhigh
  omega

theorem trim_toString (n : Nat) : Text.trim (toString n) = toString n := by
  apply String.toList_injective
  rw [Text.toList_trim]
  apply Text.trimChars_eq_self_of_ends
  · exact fun c hc => isWhitespace_of_isDigit (isDigit_of_mem_toString (List.mem_of_mem_head? hc))
  · exact fun c hc => isWhitespace_of_isDigit (isDigit_of_mem_toString (List.mem_of_getLast? hc))

theorem readPid_of_lookup {s : Runtime} {name : String} {pid : UInt32}
    (h : s.pidFiles.lookup name = some (.ok (toString pid.toNat))) : readPid s name = .ok (some pid) := by
  rw [readPid, h]
  simp only [bind, Except.bind, pure, Except.pure, trim_toString, if_neg (toString_ne_empty _),
    parseU32_toString]

theorem pidFile_injective {id other : ServiceId} (h : pidFile id = pidFile other) : id = other := by
  have hvalue : id.value = other.value := by
    apply String.toList_injective
    have hlist := congrArg String.toList h
    rw [pidFile, pidFile, String.toList_append, String.toList_append] at hlist
    exact List.append_cancel_right hlist
  cases id
  cases other
  cases hvalue
  rfl

/-! ## What a call does -/

theorem ask_run {α : Type} {f : Runtime → Except String α} {s : Runtime} {result : Except String α}
    (h : f s = result) : (ask f).run s = (result, s) := congrArg (·, s) h

section Calls

variable {paths : RuntimePaths} {spec : ServiceSpec} {logPathOverride : Option String} {s : Runtime}

/-- The state after a start has come as far as the file of the process. -/
structure Launched (spec : ServiceSpec) (pid : UInt32) (s s' : Runtime) : Prop where
  procs : s'.procs = insert s.procs (pid, { argv := spec.argv, service := some spec.id })
  pidFiles : s'.pidFiles = insert s.pidFiles (pidFile spec.id, .ok (toString pid.toNat))
  resolved : s'.resolved = s.resolved ∨ ∃ service, s'.resolved = insert s.resolved (spec.id, .ok service)

theorem launch_cases {logPath : String} {os : SpawnOutcome} (hwritten : os.pidWritten = .done) :
    (∃ err, (launch spec logPath os).run s = (.error err, s))
      ∨ ∃ pid, os.spawned = .ok pid ∧ Launched spec pid s ((launch spec logPath os).run s).2 := by
  rw [launch]
  cases hlog : os.logOpened with
  | error err => exact .inl ⟨err, Eff.bind_lift_run_error err _ s⟩
  | ok opened =>
    rw [Eff.bind_lift_run_ok]
    cases hspawned : os.spawned with
    | error err => exact .inl ⟨err, Eff.bind_lift_run_error err _ s⟩
    | ok pid =>
      refine .inr ⟨pid, rfl, ?_⟩
      rw [Eff.bind_lift_run_ok, Eff.bind_run_of_ok (Eff.modify_run _ s), hwritten,
        writePid, Eff.bind_run_of_ok (Eff.modify_run _ _)]
      cases hresolved : os.resolvedWritten with
      | error err =>
        rw [Eff.bind_lift_run_error]
        exact ⟨rfl, rfl, .inl rfl⟩
      | ok done => exact ⟨rfl, rfl, .inr ⟨_, rfl⟩⟩

/-- **A start** either leaves all as it is, or finds no process of the service running and makes one. -/
theorem spawn_cases {os : SpawnOutcome} (hwritten : os.pidWritten = .done) :
    (∃ err, (spawnService paths spec logPathOverride os).run s = (.error err, s))
      ∨ ∃ pid recorded, os.spawned = .ok pid ∧ readPid s (pidFile spec.id) = .ok recorded
        ∧ recorded.filter (isRunning s) = none
        ∧ Launched spec pid s ((spawnService paths spec logPathOverride os).run s).2 := by
  unfold spawnService
  cases hargv : spec.argv.isEmpty with
  | true => exact .inl ⟨_, rfl⟩
  | false =>
    rw [if_neg Bool.false_ne_true]
    cases hread : readPid s (pidFile spec.id) with
    | error err => exact .inl ⟨err, Eff.bind_run_of_error (@ask_run _ (fun s => readPid s _) s _ hread)⟩
    | ok recorded =>
      rw [Eff.bind_run_of_ok (@ask_run _ (fun s => readPid s _) s _ hread), Eff.bind_read_run]
      cases hrunning : recorded.filter (isRunning s) with
      | some pid => exact .inl ⟨_, rfl⟩
      | none =>
        rcases launch_cases hwritten with hfailed | ⟨pid, hspawned, hlaunched⟩
        · exact .inl hfailed
        · exact .inr ⟨pid, recorded, hspawned, rfl, hrunning, hlaunched⟩

/-- **A stop** that reads an id ends its process and may remove the file. -/
theorem stop_cases {id : ServiceId} {os : StopOutcome} (hends : os.survives = false) :
    ((stopService id os).run s).2 = s ∧ (∀ pid, readPid s (pidFile id) ≠ .ok (some pid))
      ∨ ∃ pid, readPid s (pidFile id) = .ok (some pid) ∧ ((stopService id os).run s).1 = .ok ()
        ∧ (∀ other, ((stopService id os).run s).2.procs.lookup other
          = if other = pid then none else s.procs.lookup other)
        ∧ (((stopService id os).run s).2.pidFiles = s.pidFiles
          ∨ ((stopService id os).run s).2.pidFiles = remove s.pidFiles (pidFile id))
        ∧ ((stopService id os).run s).2.resolved = s.resolved := by
  unfold stopService stopPidfile
  cases hread : readPid s (pidFile id) with
  | error err =>
    rw [Eff.bind_run_of_error (@ask_run _ (fun s => readPid s _) s _ hread)]
    exact .inl ⟨rfl, fun pid h => by cases h⟩
  | ok recorded =>
    rw [Eff.bind_run_of_ok (@ask_run _ (fun s => readPid s _) s _ hread)]
    cases recorded with
    | none => exact .inl ⟨rfl, fun pid h => by cases h⟩
    | some pid =>
      refine .inr ⟨pid, rfl, ?_⟩
      -- The file is looked at for the last time; what follows leaves the processes.
      have hfile : ∀ s' : Runtime, ((removePidFile (pidFile id) os).run s').1 = .ok ()
          ∧ ((removePidFile (pidFile id) os).run s').2.procs = s'.procs
          ∧ (((removePidFile (pidFile id) os).run s').2.pidFiles = s'.pidFiles
            ∨ ((removePidFile (pidFile id) os).run s').2.pidFiles = remove s'.pidFiles (pidFile id))
          ∧ ((removePidFile (pidFile id) os).run s').2.resolved = s'.resolved := by
        intro s'
        rw [removePidFile, Eff.modify_run]
        cases os.removed with
        | true => exact ⟨rfl, rfl, .inr rfl, rfl⟩
        | false => exact ⟨rfl, rfl, .inl rfl, rfl⟩
      dsimp only
      rw [Eff.bind_read_run]
      cases hrunning : isRunning s pid with
      | false =>
        obtain ⟨hok, hprocs, hfiles, hresolved⟩ := hfile s
        refine ⟨hok, fun other => ?_, hfiles, hresolved⟩
        refine (congrArg (List.lookup other) hprocs).trans ?_
        rw [isRunning, Option.isSome_eq_false_iff, Option.isNone_iff_eq_none] at hrunning
        by_cases hother : other = pid
        · rw [if_pos hother, hother, hrunning]
        · rw [if_neg hother]
      | true =>
        have hended : (terminateProcess pid os).run s = (.ok (), endProcess pid s) := by
          rw [terminateProcess, hends]
          rfl
        obtain ⟨hok, hprocs, hfiles, hresolved⟩ := hfile (endProcess pid s)
        rw [if_pos rfl, Eff.bind_run_of_ok hended]
        refine ⟨hok, fun other => ?_, hfiles, hresolved⟩
        exact (congrArg (List.lookup other) hprocs).trans (lookup_remove s.procs pid other)

end Calls

/-! ## One process a service -/

/-- A living process of a service. -/
def Serves (s : Runtime) (id : ServiceId) (pid : UInt32) : Prop :=
  ∃ process, s.procs.lookup pid = some process ∧ process.service = some id

/-- Every living process of a service is the one of its file. -/
def Tracked (s : Runtime) : Prop :=
  ∀ id pid, Serves s id pid → s.pidFiles.lookup (pidFile id) = some (.ok (toString pid.toNat))

/-- A call after which no process is left that its file does not lead to. -/
def Regular : Op → Prop
  | .spawn _ _ os => os.pidWritten = .done
  | .stop _ os => os.survives = false
  | .exit _ => True
  | .other _ _ => True

theorem Serves.isRunning {s : Runtime} {id : ServiceId} {pid : UInt32} (h : Serves s id pid) :
    isRunning s pid = true := by
  obtain ⟨process, hprocess, -⟩ := h
  rw [Supervisor.isRunning, hprocess]
  rfl

theorem Tracked.readPid {s : Runtime} {id : ServiceId} {pid : UInt32} (h : Tracked s) (hserves : Serves s id pid) :
    readPid s (pidFile id) = .ok (some pid) := readPid_of_lookup (h id pid hserves)

/-- A service has no process where the one of its file is not running. -/
theorem Tracked.not_serves {s : Runtime} {id : ServiceId} {recorded : Option UInt32} (h : Tracked s)
    (hread : Supervisor.readPid s (pidFile id) = .ok recorded) (hrunning : recorded.filter (Supervisor.isRunning s) = none)
    (pid : UInt32) : ¬Serves s id pid := by
  intro hserves
  have hrecorded : recorded = some pid := Except.ok.inj (hread.symm.trans (h.readPid hserves))
  rw [hrecorded, Option.filter_some_pos hserves.isRunning] at hrunning
  cases hrunning

/-- What served before a process was made or ended serves still, or is the process that was made. -/
theorem Launched.serves {spec : ServiceSpec} {pid : UInt32} {s s' : Runtime} (h : Launched spec pid s s')
    {id : ServiceId} {q : UInt32} (hserves : Serves s' id q) : q = pid ∧ id = spec.id ∨ q ≠ pid ∧ Serves s id q := by
  obtain ⟨process, hprocess, hservice⟩ := hserves
  rw [h.procs, lookup_insert] at hprocess
  by_cases hq : q = pid
  · rw [if_pos hq] at hprocess
    cases hprocess
    exact .inl ⟨hq, (Option.some.inj hservice).symm⟩
  · rw [if_neg hq] at hprocess
    exact .inr ⟨hq, process, hprocess, hservice⟩

theorem exec_tracked {paths : RuntimePaths} {s : Runtime} {op : Op} (hop : Regular op) (h : Tracked s) :
    Tracked (exec paths op s) := by
  intro id q hserves
  cases op with
  | spawn spec logPathOverride os =>
    rcases @spawn_cases paths spec logPathOverride s os hop with
      ⟨err, hsame⟩ | ⟨pid, recorded, -, hread, hrunning, hlaunched⟩
    · rw [exec, hsame] at hserves ⊢
      exact h id q hserves
    · rw [exec, hlaunched.pidFiles, lookup_insert]
      rcases hlaunched.serves hserves with ⟨rfl, rfl⟩ | ⟨-, hbefore⟩
      · rw [if_pos rfl]
      · have hid : pidFile id ≠ pidFile spec.id := by
          intro heq
          rw [pidFile_injective heq] at hbefore
          exact h.not_serves hread hrunning q hbefore
        rw [if_neg hid]
        exact h id q hbefore
  | stop stopped os =>
    rcases @stop_cases s stopped os hop with ⟨hsame, -⟩ | ⟨pid, hread, -, hprocs, hfiles, -⟩
    · rw [exec, hsame] at hserves ⊢
      exact h id q hserves
    · obtain ⟨process, hprocess, hservice⟩ := hserves
      rw [exec, hprocs q] at hprocess
      by_cases hq : q = pid
      · rw [if_pos hq] at hprocess
        cases hprocess
      · rw [if_neg hq] at hprocess
        have hlookup := h id q ⟨process, hprocess, hservice⟩
        have hid : pidFile id ≠ pidFile stopped := by
          intro heq
          rw [← heq, readPid_of_lookup hlookup] at hread
          exact hq (Option.some.inj (Except.ok.inj hread))
        rcases hfiles with hfiles | hfiles
        · rw [exec, hfiles, hlookup]
        · rw [exec, hfiles, lookup_remove, if_neg hid, hlookup]
  | exit pid =>
    obtain ⟨process, hprocess, hservice⟩ := hserves
    have hbefore := (lookup_remove s.procs pid q).symm.trans hprocess
    by_cases hq : q = pid
    · rw [if_pos hq] at hbefore
      cases hbefore
    · rw [if_neg hq] at hbefore
      exact h id q ⟨process, hbefore, hservice⟩
  | other pid argv =>
    obtain ⟨process, hprocess, hservice⟩ := hserves
    have hbefore := (lookup_insert s.procs (pid, ⟨argv, none⟩) q).symm.trans hprocess
    by_cases hq : q = pid
    · rw [if_pos hq] at hbefore
      cases hbefore
      cases hservice
    · rw [if_neg hq] at hbefore
      exact h id q ⟨process, hbefore, hservice⟩

/-- **A service never has two living processes**, however starts and stops and what else happens on the
machine follow one another, and the one it has is the one of its file. -/
theorem oneProcess_of_run {paths : RuntimePaths} {ops : List Op} {s : Runtime}
    (hstart : ∀ id pid, ¬Serves s id pid) (hops : ∀ op ∈ ops, Regular op) {id : ServiceId} {pid : UInt32}
    (hserves : Serves (Run.run (exec paths) ops s) id pid) :
    readPid (Run.run (exec paths) ops s) (pidFile id) = .ok (some pid)
      ∧ ∀ other, Serves (Run.run (exec paths) ops s) id other → other = pid := by
  have htracked : Tracked (Run.run (exec paths) ops s) :=
    (@Run.invariant_run _ _ (exec paths) Tracked (fun _ op => Regular op) _ _ (fun id pid h => absurd h (hstart id pid))
      (fun _ _ hop h => exec_tracked hop h) fun step hstep => hops _ (Run.mem_of_mem_steps hstep)).1
  have hread := htracked.readPid hserves
  refine ⟨hread, fun other hother => ?_⟩
  exact Option.some.inj (Except.ok.inj ((htracked.readPid hother).symm.trans hread))

/-- Where the runs are that the results are shown on. -/
def shownPaths : RuntimePaths := ⟨"state", "logs", "demo", "default"⟩

/-- A service of these runs. -/
def worker : ServiceSpec := { id := ⟨"worker", by decide, by decide⟩, argv := ["run"], cwd := none, env := [] }

/-- A start of the worker as a process, with nothing going wrong. -/
def startAs (pid : UInt32) : Op := .spawn worker none ⟨.ok (), .ok pid, .done, .ok ()⟩

/-- The worker ends by itself and is started again: its one process is the second. -/
theorem oneProcess_of_restart :
    readPid (Run.run (exec shownPaths) [startAs 7, .exit 7, startAs 8] ⟨[], [], []⟩) (pidFile worker.id)
      = .ok (some 8) :=
  (oneProcess_of_run (fun _ _ h => by simp [Serves] at h) (by simp [Regular, startAs])
    ⟨⟨["run"], some worker.id⟩, by decide +kernel, rfl⟩).1

/-! ## The files say all there is to know -/

/-- Every file is one of a service, and the process whose id it holds, where it lives, is of that service. -/
structure Kept (s : Runtime) : Prop where
  tracked : Tracked s
  files : ∀ entry ∈ s.pidFiles, ∃ id pid, entry = (pidFile id, .ok (toString pid.toNat))
    ∧ ∀ process, s.procs.lookup pid = some process → process.service = some id
  resolved : ∀ entry ∈ s.resolved, ∃ service, entry.2 = .ok service

/-- The id of a process that is made is not in the file of another one, where one process may have ended
and left its file. -/
def Unclaimed (s : Runtime) : Op → Prop
  | .spawn spec _ os => ∀ pid, os.spawned = .ok pid →
      ∀ id, id ≠ spec.id → (pidFile id, .ok (toString pid.toNat)) ∉ s.pidFiles
  | .other pid _ => ∀ id, (pidFile id, .ok (toString pid.toNat)) ∉ s.pidFiles
  | .stop _ _ => True
  | .exit _ => True

theorem Kept.spawn {paths : RuntimePaths} {s : Runtime} {spec : ServiceSpec} {logPathOverride : Option String}
    {os : SpawnOutcome} (h : Kept s) (hop : Regular (.spawn spec logPathOverride os))
    (hunclaimed : Unclaimed s (.spawn spec logPathOverride os)) :
    Kept (exec paths (.spawn spec logPathOverride os) s) := by
  refine ⟨exec_tracked hop h.tracked, ?_, ?_⟩ <;> rw [exec] <;> rcases @spawn_cases paths spec logPathOverride s os hop
    with ⟨err, hsame⟩ | ⟨pid, recorded, hspawned, -, -, hlaunched⟩
  · rw [hsame]
    exact h.files
  · intro entry hentry
    rw [hlaunched.pidFiles, mem_insert_iff] at hentry
    rcases hentry with rfl | ⟨hentry, hname⟩
    · refine ⟨spec.id, pid, rfl, fun process hprocess => ?_⟩
      rw [hlaunched.procs, lookup_insert, if_pos rfl] at hprocess
      cases hprocess
      rfl
    · obtain ⟨id, q, rfl, howned⟩ := h.files entry hentry
      refine ⟨id, q, rfl, fun process hprocess => howned process ?_⟩
      have hq : q ≠ pid := by
        rintro rfl
        refine hunclaimed q hspawned id ?_ hentry
        rintro rfl
        exact hname rfl
      rwa [hlaunched.procs, lookup_insert, if_neg hq] at hprocess
  · rw [hsame]
    exact h.resolved
  · intro entry hentry
    rcases hlaunched.resolved with hresolved | ⟨service, hresolved⟩
    · exact h.resolved entry (hresolved ▸ hentry)
    · rw [hresolved, mem_insert_iff] at hentry
      rcases hentry with rfl | ⟨hentry, -⟩
      · exact ⟨service, rfl⟩
      · exact h.resolved entry hentry

/-- A state with fewer files and processes is kept as well. -/
theorem Kept.fewer {s s' : Runtime} (h : Kept s) (htracked : Tracked s')
    (hprocs : ∀ pid process, s'.procs.lookup pid = some process → s.procs.lookup pid = some process)
    (hfiles : ∀ entry ∈ s'.pidFiles, entry ∈ s.pidFiles) (hresolved : s'.resolved = s.resolved) : Kept s' := by
  refine ⟨htracked, fun entry hentry => ?_, fun entry hentry => h.resolved entry (hresolved ▸ hentry)⟩
  obtain ⟨id, pid, hentry, howned⟩ := h.files entry (hfiles entry hentry)
  exact ⟨id, pid, hentry, fun process hprocess => howned process (hprocs pid process hprocess)⟩

theorem Kept.stop {paths : RuntimePaths} {s : Runtime} {id : ServiceId} {os : StopOutcome} (h : Kept s)
    (hop : Regular (.stop id os)) : Kept (exec paths (.stop id os) s) := by
  have htracked : Tracked (exec paths (.stop id os) s) := exec_tracked hop h.tracked
  rw [exec] at htracked ⊢
  rcases @stop_cases s id os hop with ⟨hsame, -⟩ | ⟨pid, -, -, hprocs, hfiles, hresolved⟩
  · rw [hsame]
    exact h
  · refine h.fewer htracked (fun q process hprocess => ?_) (fun entry hentry => ?_) hresolved
    · rw [hprocs q] at hprocess
      by_cases hq : q = pid
      · rw [if_pos hq] at hprocess
        cases hprocess
      · rwa [if_neg hq] at hprocess
    · rcases hfiles with hfiles | hfiles
      · exact hfiles ▸ hentry
      · rw [hfiles, remove, List.mem_filter] at hentry
        exact hentry.1

section Kept

variable {paths : RuntimePaths} {s : Runtime}

theorem Kept.lookup (h : Kept s) {id : ServiceId} {contents : Except String String}
    (hlookup : s.pidFiles.lookup (pidFile id) = some contents) :
    ∃ pid, contents = .ok (toString pid.toNat)
      ∧ ∀ process, s.procs.lookup pid = some process → process.service = some id := by
  obtain ⟨before, after, hfiles, -⟩ := List.lookup_eq_some_iff.mp hlookup
  have hmem : (pidFile id, contents) ∈ s.pidFiles := by
    rw [hfiles]
    exact List.mem_append_right before List.mem_cons_self
  obtain ⟨owner, pid, hentry, howned⟩ := h.files _ hmem
  obtain ⟨hname, hcontents⟩ := Prod.mk.inj hentry
  exact ⟨pid, hcontents, pidFile_injective hname ▸ howned⟩

/-- The file of a service can always be read, and leads to no process of another service. -/
theorem Kept.readPid (h : Kept s) (id : ServiceId) :
    ∃ recorded, readPid s (pidFile id) = .ok recorded
      ∧ ∀ pid, recorded.filter (isRunning s) = some pid ↔ Serves s id pid := by
  have hserved : ∀ recorded, Supervisor.readPid s (pidFile id) = .ok recorded →
      ∀ pid, Serves s id pid → recorded.filter (isRunning s) = some pid := by
    intro recorded hread pid hserves
    rw [Except.ok.inj (hread.symm.trans (h.tracked.readPid hserves)), Option.filter_some_pos hserves.isRunning]
  cases hlookup : s.pidFiles.lookup (pidFile id) with
  | none =>
    have hread : Supervisor.readPid s (pidFile id) = .ok none := by rw [Supervisor.readPid, hlookup]
    refine ⟨none, hread, fun pid => ⟨fun hrunning => ?_, hserved none hread pid⟩⟩
    cases hrunning
  | some contents =>
    obtain ⟨pid, rfl, howned⟩ := h.lookup hlookup
    have hread := readPid_of_lookup hlookup
    refine ⟨some pid, hread, fun q => ⟨fun hrunning => ?_, hserved _ hread q⟩⟩
    obtain ⟨hq, hliving⟩ := Option.filter_eq_some_iff.mp hrunning
    cases hq
    obtain ⟨process, hprocess⟩ := Option.isSome_iff_exists.mp hliving
    exact ⟨process, hprocess, howned process hprocess⟩

theorem ServiceId.new_value (id : ServiceId) : ServiceId.new id.value = .ok id := by
  rw [ServiceId.new, dif_neg id.nonempty, dif_pos id.valid]

/-- What is said of the file of a service. -/
theorem Kept.statusOf (h : Kept s) (id : ServiceId) :
    ∃ status, statusOf paths s (pidFile id) = .ok (some status) ∧ status.id = id
      ∧ ∀ pid, status.running = true ∧ status.pid = some pid ↔ Serves s id pid := by
  obtain ⟨recorded, hread, hrecorded⟩ := h.readPid id
  obtain ⟨resolved, hresolved⟩ : ∃ resolved, readResolved s id = .ok resolved := by
    unfold readResolved
    cases hlookup : s.resolved.lookup id with
    | none => exact ⟨none, rfl⟩
    | some contents =>
      obtain ⟨before, after, hentries, -⟩ := List.lookup_eq_some_iff.mp hlookup
      have hmem : (id, contents) ∈ s.resolved := by
        rw [hentries]
        exact List.mem_append_right before List.mem_cons_self
      obtain ⟨service, hservice⟩ := h.resolved _ hmem
      have hservice : contents = .ok service := hservice
      exact ⟨some service, by rw [hservice]; rfl⟩
  have hname : Disk.splitExtension (pidFile id) = (id.value, some "pid") := by
    rw [pidFile, show ".pid" = "." ++ "pid" from rfl, ← String.append_assoc]
    exact Disk.splitExtension_append id.nonempty (by decide)
  unfold Supervisor.statusOf
  rw [hname]
  simp only [ServiceId.new_value, bind, Except.bind, hread, hresolved]
  refine ⟨_, rfl, rfl, fun pid => (Iff.trans ?_ (hrecorded pid))⟩
  cases recorded with
  | none => simp
  | some q =>
    rw [Option.filter_eq_some_iff, Option.any_some]
    constructor
    · rintro ⟨hrunning, hq⟩
      exact ⟨hq, Option.some.inj hq ▸ hrunning⟩
    · rintro ⟨hq, hrunning⟩
      exact ⟨(Option.some.inj hq).symm ▸ hrunning, hq⟩

end Kept

theorem Kept.readStatus {paths : RuntimePaths} {s : Runtime} (h : Kept s) :
    ∃ statuses, readStatus paths s = .ok statuses ∧ ∀ id pid,
      Serves s id pid ↔ ∃ status ∈ statuses, status.id = id ∧ status.running = true ∧ status.pid = some pid := by
  have hall : ∀ entry ∈ s.pidFiles, ∃ status, Supervisor.statusOf paths s entry.1 = .ok status := by
    intro entry hentry
    obtain ⟨id, pid, rfl, -⟩ := h.files entry hentry
    obtain ⟨status, hstatus, -, -⟩ := h.statusOf id
    exact ⟨some status, hstatus⟩
  obtain ⟨all, hstatuses⟩ := Outcome.exists_mapM_ok_iff.mpr hall
  refine ⟨all.reduceOption, by rw [Supervisor.readStatus, hstatuses]; rfl, fun id pid => ?_⟩
  obtain ⟨own, hown, hid, hserves⟩ := @Kept.statusOf paths s h id
  constructor
  · intro hliving
    obtain ⟨before, after, hfiles, -⟩ := List.lookup_eq_some_iff.mp (h.tracked id pid hliving)
    have hmem : (pidFile id, .ok (toString pid.toNat)) ∈ s.pidFiles := by
      rw [hfiles]
      exact List.mem_append_right before List.mem_cons_self
    obtain ⟨status, hstatus, hmem⟩ := Outcome.exists_mem_of_mapM_ok hstatuses hmem
    obtain rfl := Except.ok.inj (hstatus.symm.trans hown)
    obtain ⟨hrunning, hpid⟩ := (hserves pid).mpr hliving
    exact ⟨own, List.reduceOption_mem_iff.mpr hmem, hid, hrunning, hpid⟩
  · rintro ⟨status, hstatus, rfl, hrunning, hpid⟩
    obtain ⟨entry, hentry, hread⟩ := Outcome.exists_of_mem_mapM_ok hstatuses (List.reduceOption_mem_iff.mp hstatus)
    obtain ⟨other, q, rfl, -⟩ := h.files entry hentry
    obtain ⟨its, hits, hother, -⟩ := @Kept.statusOf paths s h other
    obtain rfl := Option.some.inj (Except.ok.inj (hread.symm.trans hits))
    obtain rfl := Option.some.inj (Except.ok.inj (hits.symm.trans (hother ▸ hown)))
    exact (hserves pid).mp ⟨hrunning, hpid⟩

theorem Kept.stopService {s : Runtime} (h : Kept s) {id : ServiceId} {os : StopOutcome} (hends : os.survives = false) :
    ((stopService id os).run s).1 = .ok ()
      ∧ ∀ pid, (Serves s id pid → ((stopService id os).run s).2.procs.lookup pid = none)
        ∧ (¬Serves s id pid → ((stopService id os).run s).2.procs.lookup pid = s.procs.lookup pid) := by
  obtain ⟨recorded, hread, hrecorded⟩ := h.readPid id
  rcases @stop_cases s id os hends with ⟨hsame, hnone⟩ | ⟨q, hq, hok, hprocs, -, -⟩
  · have hempty : recorded = none := by
      cases recorded with
      | none => rfl
      | some pid => exact absurd hread (hnone pid)
    refine ⟨?_, fun pid => ⟨fun hserves => ?_, fun _ => by rw [hsame]⟩⟩
    · rw [hempty] at hread
      rw [Supervisor.stopService, stopPidfile, Eff.bind_run_of_ok (@ask_run _ (fun s => Supervisor.readPid s _) s _ hread)]
      rfl
    · rw [hempty] at hrecorded
      cases (hrecorded pid).mpr hserves
  · obtain rfl := Except.ok.inj (hread.symm.trans hq)
    refine ⟨hok, fun pid => ⟨fun hserves => ?_, fun hserves => ?_⟩⟩
    · obtain ⟨hpid, -⟩ := Option.filter_eq_some_iff.mp ((hrecorded pid).mpr hserves)
      rw [hprocs pid, if_pos (Option.some.inj hpid).symm]
    · rw [hprocs pid]
      by_cases hpid : pid = q
      · -- The process of the file is gone already.
        rw [if_pos hpid, hpid]
        cases hliving : s.procs.lookup q with
        | none => rfl
        | some process =>
          have hrunning : isRunning s q = true := by rw [isRunning, hliving]; rfl
          refine absurd ((hrecorded pid).mp ?_) hserves
          rw [hpid, Option.filter_some_pos hrunning]
      · rw [if_neg hpid]

end Supervisor
