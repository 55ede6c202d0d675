import GreenticOperator.Lib.Eff
import GreenticOperator.Lib.HashMap
import GreenticOperator.Lib.Run
import GreenticOperator.RuntimeState

/-!
# The supervisor of services

`src/supervisor.rs`. A service of a tenant and team is a process whose id is kept in a file of its own. A
service is started where the process of its file is not running, and stopped by ending that process and
removing the file; its status is read off the file.

What the operating system does is given with each call: whether the log can be opened, which process is
made, how writing the file ends, and whether a process that is killed ends. Between the calls processes
come and go. A living process has an id below two to the 31, so the cast of an id to a signed number, as
a signal needs it, keeps it.
-/

namespace Supervisor

open RuntimeState

/-! ## Services -/

def isServiceIdChar (c : Char) : Bool := Text.isAsciiAlphanumeric c || c == '-' || c == '_'

/-- The id of a service: letters, digits, dashes and underscores. -/
structure ServiceId where
  value : String
  nonempty : value ≠ ""
  valid : value.toList.all isServiceIdChar = true
deriving DecidableEq

def ServiceId.new (value : String) : Except String ServiceId :=
  if hempty : value = "" then .error "service id cannot be empty"
  else if hvalid : value.toList.all isServiceIdChar = true then .ok ⟨value, hempty, hvalid⟩
  else .error ("invalid service id '" ++ value ++ "'; use alphanumeric, '-' or '_'")

structure ServiceSpec where
  id : ServiceId
  argv : List String
  cwd : Option String
  env : List (String × String)

structure ServiceHandle where
  id : ServiceId
  pid : UInt32
  logPath : String

structure ServiceStatus where
  id : ServiceId
  running : Bool
  pid : Option UInt32
  logPath : String
  lastError : Option String

structure ResolvedService where
  argv : List String
  cwd : Option String
  env : List (String × String)
  logPath : Option String

/-! ## The machine -/

/-- A living process. The supervisor does not see what a process was started for. -/
structure Process where
  argv : List String
  service : Option ServiceId
deriving DecidableEq

/-- The living processes, and the files of one tenant and team: the ids of processes by the names of the
files, and what is resolved of a service. A file that cannot be read gives the error. -/
structure Runtime where
  procs : List (UInt32 × Process)
  pidFiles : List (String × Except String String)
  resolved : List (ServiceId × Except String ResolvedService)

def isRunning (s : Runtime) (pid : UInt32) : Bool := (s.procs.lookup pid).isSome

/-- The name of the file of a service. -/
def pidFile (id : ServiceId) : String := id.value ++ ".pid"

/-- The characters of a number but for a plus sign in front. -/
def digitsOf (text : String) : List Char :=
  match text.toList with
  | '+' :: rest => rest
  | all => all

/-- `str::parse` of a number of 32 bits: digits, with a plus sign in front or not. Digits that are too many
are found before one that is none. -/
def parseU32 (text : String) : Except String UInt32 :=
  let digits := digitsOf text
  let front := digits.takeWhile Char.isDigit
  if text = "" then .error "cannot parse integer from empty string"
  else if 2 ^ 32 ≤ Nat.ofDigitChars 10 front 0 then .error "number too large to fit in target type"
  else if digits = [] ∨ front ≠ digits then .error "invalid digit found in string"
  else .ok (UInt32.ofNat (Nat.ofDigitChars 10 front 0))

def readPid (s : Runtime) (name : String) : Except String (Option UInt32) :=
  match s.pidFiles.lookup name with
  | none => .ok none
  | some contents => do
    let trimmed := Text.trim (← contents)
    if trimmed = "" then return none
    else return some (← parseU32 trimmed)

/-! ## Starting -/

/-- How the write of the file of a process ends; one that is torn leaves some other text. -/
inductive PidWrite
  | done
  | refused (message : String)
  | torn (left message : String)

structure SpawnOutcome where
  logOpened : Except String Unit
  spawned : Except String UInt32
  pidWritten : PidWrite
  resolvedWritten : Except String Unit

/-- What the state says, which may be an error. -/
def ask {α : Type} (f : Runtime → Except String α) : Eff Runtime α := fun s => (f s, s)

def writePidFile (name : String) (contents : String) (s : Runtime) : Runtime :=
  { s with pidFiles := HashMap.insert s.pidFiles (name, .ok contents) }

def writePid (name : String) (pid : UInt32) : PidWrite → Eff Runtime Unit
  | .done => Eff.modify (writePidFile name (toString pid.toNat))
  | .refused message => Eff.fail message
  | .torn left message => do
    Eff.modify (writePidFile name left)
    Eff.fail message

/-- The process that the system makes. -/
def addProcess (pid : UInt32) (process : Process) (s : Runtime) : Runtime :=
  { s with procs := HashMap.insert s.procs (pid, process) }

def logPathOf (paths : RuntimePaths) (id : String) : String := Disk.join paths.logsDir (id ++ ".log")

/-- The end of a start, once no process of the service is found: the process is made before its file is
written, and what comes after it does not end it. -/
def launch (spec : ServiceSpec) (logPath : String) (os : SpawnOutcome) : Eff Runtime ServiceHandle := do
  Eff.lift os.logOpened
  let pid ← Eff.lift os.spawned
  Eff.modify (addProcess pid { argv := spec.argv, service := some spec.id })
  writePid (pidFile spec.id) pid os.pidWritten
  Eff.lift os.resolvedWritten
  Eff.modify fun s => { s with resolved := HashMap.insert s.resolved (spec.id, .ok {
    argv := spec.argv, cwd := spec.cwd, env := spec.env, logPath := some logPath }) }
  return { id := spec.id, pid, logPath }

def spawnService (paths : RuntimePaths) (spec : ServiceSpec) (logPathOverride : Option String)
    (os : SpawnOutcome) : Eff Runtime ServiceHandle :=
  if spec.argv.isEmpty then Eff.fail "service argv cannot be empty"
  else do
    let recorded ← ask fun s => readPid s (pidFile spec.id)
    match ← Eff.read fun s => recorded.filter (isRunning s) with
    | some pid => Eff.fail ("service " ++ spec.id.value ++ " already running (pid " ++ toString pid.toNat ++ ")")
    | none => launch spec (logPathOverride.getD (logPathOf paths spec.id.value)) os

/-! ## Stopping -/

/-- Whether the process outlives the signals, and whether the file can be removed. -/
structure StopOutcome where
  survives : Bool
  removed : Bool

def endProcess (pid : UInt32) (s : Runtime) : Runtime := { s with procs := HashMap.remove s.procs pid }

/-- A termination signal, and a kill signal where the process is still there when the time is up. How the
signals end is not looked at. -/
def terminateProcess (pid : UInt32) (os : StopOutcome) : Eff Runtime Unit :=
  Eff.modify fun s => if os.survives then s else endProcess pid s

def removePidFile (name : String) (os : StopOutcome) : Eff Runtime Unit :=
  Eff.modify fun s => if os.removed then { s with pidFiles := HashMap.remove s.pidFiles name } else s

def stopPidfile (name : String) (os : StopOutcome) : Eff Runtime Unit := do
  match ← ask fun s => readPid s name with
  | none => pure ()
  | some pid =>
    if ← Eff.read fun s => isRunning s pid then
      terminateProcess pid os
    removePidFile name os

def stopService (id : ServiceId) (os : StopOutcome) : Eff Runtime Unit := stopPidfile (pidFile id) os

/-! ## Status -/

def readResolved (s : Runtime) (id : ServiceId) : Except String (Option ResolvedService) :=
  match s.resolved.lookup id with
  | none => .ok none
  | some contents => contents.map some

/-- What is said of a file, where it is one of a process id. -/
def statusOf (paths : RuntimePaths) (s : Runtime) (name : String) : Except String (Option ServiceStatus) :=
  match Disk.splitExtension name with
  | (stem, some "pid") => do
    let id ← ServiceId.new stem
    let pid ← readPid s name
    let resolved ← readResolved s id
    return some {
      id, pid
      running := pid.any (isRunning s)
      logPath := (resolved.bind ResolvedService.logPath).getD (logPathOf paths stem)
      lastError := none }
  | _ => .ok none

def readStatus (paths : RuntimePaths) (s : Runtime) : Except String (List ServiceStatus) := do
  let all ← s.pidFiles.mapM fun entry => statusOf paths s entry.1
  return all.reduceOption

/-! ## Runs -/

/-- A call, or what happens on the machine besides: a process ends, or another one is made. -/
inductive Op
  | spawn (spec : ServiceSpec) (logPathOverride : Option String) (os : SpawnOutcome)
  | stop (id : ServiceId) (os : StopOutcome)
  | exit (pid : UInt32)
  | other (pid : UInt32) (argv : List String)

def exec (paths : RuntimePaths) (op : Op) (s : Runtime) : Runtime :=
  match op with
  | .spawn spec logPathOverride os => ((spawnService paths spec logPathOverride os).run s).2
  | .stop id os => ((stopService id os).run s).2
  | .exit pid => endProcess pid s
  | .other pid argv => addProcess pid { argv, service := none } s

end Supervisor
