import GreenticOperator.Capabilities.Registry
import GreenticOperator.Lib.Disk
import GreenticOperator.Lib.Json

/-!
# Install records

`src/capabilities.rs`. A capability that requires setup is ready for a tenant and team where
its install record there says so.
-/

namespace Capabilities

structure CapabilityInstallRecord where
  capId : String
  stableId : String
  packId : String
  status : String
  configStateKeys : List String
  timestampUnixSec : UInt64
deriving DecidableEq, Repr

/-- The bytes of an install record file, which may be no record. -/
inductive InstallFile
  | record (record : CapabilityInstallRecord)
  | unreadable (message : String)
deriving DecidableEq, Repr

/-- The disk, with the path text of the bundle on it. -/
structure InstallFiles where
  bundleRoot : String
  disk : Disk.Files InstallFile

def InstallFiles.empty (bundleRoot : String) : InstallFiles := ⟨bundleRoot, .empty⟩

def CapabilityInstallRecord.ready (capId stableId packId : String) (nowUnixSec : UInt64) :
    CapabilityInstallRecord where
  capId
  stableId
  packId
  status := "ready"
  configStateKeys := []
  timestampUnixSec := nowUnixSec

def CapabilityInstallRecord.failed (capId stableId packId key : String) (nowUnixSec : UInt64) :
    CapabilityInstallRecord where
  capId
  stableId
  packId
  status := "failed"
  configStateKeys := [key]
  timestampUnixSec := nowUnixSec

def installRecordPath (bundleRoot tenant : String) (team : Option String) (stableId : String) : String :=
  ["state", "runtime", tenant, team.getD "default", "capabilities", s!"{stableId}.install.json"].foldl
    Disk.join bundleRoot

/-- How the write of a record ends: it is done, or it fails before or after the file is cut. -/
inductive RecordWrite
  | done
  | refused (message : String)
  | torn (message : String)
deriving DecidableEq, Repr

def writeInstallRecord (files : InstallFiles) (write : RecordWrite) (tenant : String) (team : Option String)
    (record : CapabilityInstallRecord) : InstallFiles × Except String String :=
  let path := installRecordPath files.bundleRoot tenant team record.stableId
  let place := Disk.place path
  match files.disk.createDirAll place.passed with
  | (disk, .error err) => ({ files with disk }, .error err)
  | (disk, .ok ()) =>
    if disk.dirs.contains place.path then ({ files with disk }, .error "is a directory")
    else match write with
    | .done => ({ files with disk := disk.write place.path (.record record) }, .ok path)
    | .refused message => ({ files with disk }, .error message)
    | .torn message =>
      ({ files with disk := disk.write place.path (.unreadable "EOF while parsing") }, .error message)

/-- A directory in the place of a record exists but cannot be read. -/
def readInstallRecord (files : InstallFiles) (tenant : String) (team : Option String) (stableId : String) :
    Except String (Option CapabilityInstallRecord) :=
  let place := Disk.place (installRecordPath files.bundleRoot tenant team stableId)
  if !files.disk.reaches place then .ok none
  else if files.disk.dirs.contains place.path then .error "is a directory"
  else match files.disk.read place.path with
  | none => .ok none
  | some (.record record) => .ok (some record)
  | some (.unreadable message) => .error message

def isBindingReady (files : InstallFiles) (tenant : String) (team : Option String)
    (binding : CapabilityBinding) : Except String Bool :=
  if binding.requiresSetup then do
    match ← readInstallRecord files tenant team binding.stableId with
    | none => return false
    | some record => return Text.eqIgnoreAsciiCase record.status "ready"
  else .ok true

end Capabilities
