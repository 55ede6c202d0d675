import GreenticOperator.Lib.Disk
import GreenticOperator.Lib.Volume

/-!
# State files

`src/runtime_state.rs`, `src/state_layout.rs`. The services of a tenant and team have their runtime files, process ids and
logs in directories named after both. A state file is written next to its place and moved there,
and read back only where it exists and parses. The capabilities of a tenant and team keep their files in
a directory of both; without a team, it is the one of the team `default`.
-/

namespace RuntimeState

universe u

open Disk

/-! ## Runtime paths -/

structure RuntimePaths where
  stateDir : String
  logRoot : String
  tenant : String
  team : String
deriving DecidableEq, Repr

namespace RuntimePaths

/-- The logs are beside the state directory. -/
def new (stateDir tenant team : String) : RuntimePaths where
  stateDir
  logRoot := join ((parent stateDir).getD ".") "logs"
  tenant
  team

def key (paths : RuntimePaths) : String := paths.tenant ++ "." ++ paths.team

def runtimeRoot (paths : RuntimePaths) : String := join (join paths.stateDir "runtime") paths.key

def pidsDir (paths : RuntimePaths) : String := join (join paths.stateDir "pids") paths.key

def logsDir (paths : RuntimePaths) : String := join paths.logRoot paths.key

example : (new "/tmp/bundle/state" "demo" "default").logsDir = "/tmp/bundle/logs/demo.default" := by
  decide +kernel

end RuntimePaths

/-! ## State files -/

/-- What a file read as JSON holds: a value, or bytes that are no such value. -/
inductive Contents (α : Type u)
  | value (a : α)
  | unreadable
deriving Repr

/-- The place `atomic_write` writes to before it moves the file. -/
def temporary (path : Path) : Path := withExtension "tmp" path

/-- `atomic_write`, which makes the directories on the way first. The temporary file is gone
afterwards, and with it any file that had its name. -/
def atomicWrite {α : Type u} (disk : Files α) (place : Place) (a : α) : Except String (Files α) :=
  if place.passed.any fun dir => (disk.read dir).isSome then .error "not a directory"
  else
    let disk := disk.mkdirs place.passed
    if disk.dirs.contains (temporary place.path) || disk.dirs.contains place.path then
      .error "is a directory"
    else .ok ((disk.erase (temporary place.path)).write place.path a)

def writeJson {α : Type u} (disk : Files (Contents α)) (place : Place) (a : α) :
    Except String (Files (Contents α)) :=
  atomicWrite disk place (.value a)

def readJson {α : Type u} (disk : Files (Contents α)) (place : Place) : Except String (Option α) :=
  if !disk.reaches place then .ok none
  else if disk.dirs.contains place.path then .error "is a directory"
  else match disk.read place.path with
  | none => .ok none
  | some (.value a) => .ok (some a)
  | some .unreadable => .error "invalid state file"

end RuntimeState

namespace StateLayout

open Disk

def capabilityStateDir (root tenant : String) (team : Option String) : String :=
  join (join (join (join root "state") "capabilities") tenant) (team.getD "default")

def capabilityStatePath (root tenant : String) (team : Option String) (fileName : String) : String :=
  join (capabilityStateDir root tenant team) fileName

end StateLayout

/-!
## Writers of state files

`atomic_write` in `src/runtime_state.rs`, one system call at a time. A call makes its temporary file,
or cuts the one that is there, writes its bytes to it piece by piece, and moves it to its target. Calls
run side by side, and any of them may fail or be cut short at any time.
-/

namespace RuntimeState

universe u

open Disk

/-- A call of `atomic_write`. -/
structure Call where
  path : Path
  bytes : List UInt8

def Call.tmp (call : Call) : Path := temporary call.path

/-- How far a call has come; while it writes, the file that it has open and how much of its bytes is there. -/
inductive Stage
  | waiting
  | writing (file written : Nat)
  | ended
deriving DecidableEq

/-- The volume that calls write to, and how far each has come. -/
structure Writers (ι : Type u) where
  vol : Volume Path
  stage : ι → Stage

/-- A system call by one of the calls. -/
inductive Op (ι : Type u)
  | create (i : ι)
  | write (i : ι) (size : Nat)
  | rename (i : ι)
  /-- An error, or the end of the process. -/
  | stop (i : ι)

namespace Writers

variable {ι : Type u} [DecidableEq ι]

def start (vol : Volume Path) : Writers ι := ⟨vol, fun _ => .waiting⟩

def set (s : Writers ι) (i : ι) (stage : Stage) : Writers ι := { s with stage := Function.update s.stage i stage }

/-- `File::create` of the temporary file. -/
def create (calls : ι → Call) (i : ι) (s : Writers ι) : Writers ι :=
  match s.stage i with
  | .waiting => { s with vol := s.vol.create (calls i).tmp }.set i (.writing (s.vol.fileAt (calls i).tmp) 0)
  | _ => s

/-- One write of `write_all`. -/
def write (calls : ι → Call) (i : ι) (size : Nat) (s : Writers ι) : Writers ι :=
  match s.stage i with
  | .writing file written =>
    let chunk := ((calls i).bytes.drop written).take size
    { s with vol := s.vol.writeAt file written chunk }.set i (.writing file (written + chunk.length))
  | _ => s

/-- `rename`, when all is written; it fails where the temporary file is gone. -/
def rename (calls : ι → Call) (i : ι) (s : Writers ι) : Writers ι :=
  match s.stage i with
  | .writing _ written =>
    if written < (calls i).bytes.length then s
    else if (s.vol.links (calls i).tmp).isSome then
      { s with vol := s.vol.relink (calls i).tmp (calls i).path }.set i .ended
    else s.set i .ended
  | _ => s

def exec (calls : ι → Call) : Op ι → Writers ι → Writers ι
  | .create i => create calls i
  | .write i size => write calls i size
  | .rename i => rename calls i
  | .stop i => fun s => s.set i .ended

end Writers

end RuntimeState
