import GreenticOperator.Lib.Disk
import Mathlib.Data.List.Sort
import Mathlib.Data.String.Basic
import Mathlib.Logic.Function.Basic

/-!
# Tenants, teams and their resolved manifests

`src/project/tenants.rs`, `src/project/resolve.rs`. The tenants of a project are directories, their
teams directories in these. Resolving writes a manifest for every team of a tenant, and for a tenant
that has none, into one directory of resolved manifests.
-/

namespace Project

open Disk

/-- A tenant's directory and those of its teams. -/
structure TenantEntry where
  name : String
  teams : List String
deriving DecidableEq, Repr

structure PolicySource where
  tenantGmap : String
  teamGmap : Option String
deriving DecidableEq, Repr

structure ResolvedManifest where
  version : String
  tenant : String
  team : Option String
  projectRoot : String
  providers : List (String × List String)
  packs : List String
  envPassthrough : List String
  policySource : PolicySource
  policyDefault : String
deriving DecidableEq, Repr

/-- What a file of a directory holds: a manifest, or one that was cut short. -/
inductive ResolvedFile
  | manifest (m : ResolvedManifest)
  | torn
deriving DecidableEq, Repr

/-- The files of a directory, by their names. -/
abbrev Directory := String → Option ResolvedFile

/-- A project: its tenants, and the directories `state/resolved` and `resolved`. -/
structure Bundle where
  root : String
  tenants : List TenantEntry
  resolved : Directory
  copies : Directory

/-- A tenant, or a team of it. -/
abbrev Pair := String × Option String

/-! ## Adding and removing -/

def addTenant (tenant : String) (bundle : Bundle) : Bundle :=
  if bundle.tenants.any (·.name == tenant) then bundle
  else { bundle with tenants := bundle.tenants ++ [⟨tenant, []⟩] }

def removeTenant (tenant : String) (bundle : Bundle) : Bundle :=
  { bundle with tenants := bundle.tenants.filter (·.name != tenant) }

/-- The team's directory is made with that of its tenant. -/
def addTeam (tenant team : String) (bundle : Bundle) : Bundle :=
  let bundle := addTenant tenant bundle
  { bundle with tenants := bundle.tenants.map fun entry =>
      if entry.name = tenant ∧ team ∉ entry.teams then { entry with teams := entry.teams ++ [team] } else entry }

def removeTeam (tenant team : String) (bundle : Bundle) : Bundle :=
  { bundle with tenants := bundle.tenants.map fun entry =>
      if entry.name = tenant then { entry with teams := entry.teams.filter (· != team) } else entry }

/-! ## Resolving -/

def scanTenants (bundle : Bundle) : List TenantEntry :=
  (bundle.tenants.map fun entry => { entry with teams := entry.teams.insertionSort (· ≤ ·) }).insertionSort
    fun a b => a.name ≤ b.name

def TenantEntry.pairs (entry : TenantEntry) : List Pair :=
  if entry.teams = [] then [(entry.name, none)] else entry.teams.map fun team => (entry.name, some team)

/-- The tenants and teams there are, in the order of their manifests. -/
def currentPairs (bundle : Bundle) : List Pair := (scanTenants bundle).flatMap TenantEntry.pairs

def resolvedManifestFilename : Pair → String
  | (tenant, some team) => s!"{tenant}.{team}.yaml"
  | (tenant, none) => s!"{tenant}.yaml"

/-- What the provider and pack directories hold when the project is resolved. -/
structure Sources where
  providers : List (String × List String)
  packs : List String

def buildManifest (root : String) (sources : Sources) (pair : Pair) : ResolvedManifest where
  version := "1"
  tenant := pair.1
  team := pair.2
  projectRoot := root
  providers := sources.providers
  packs := sources.packs
  envPassthrough := ["OTEL_EXPORTER_OTLP_ENDPOINT", "OTEL_RESOURCE_ATTRIBUTES", "RUST_LOG"]
  policySource :=
    { tenantGmap := s!"tenants/{pair.1}/tenant.gmap"
      teamGmap := pair.2.map fun team => s!"tenants/{pair.1}/teams/{team}/team.gmap" }
  policyDefault := "forbidden"

def Directory.write (dir : Directory) (name : String) (file : ResolvedFile) :
    WriteOutcome → Directory × Except String Unit
  | .done => (Function.update dir name (some file), .ok ())
  | .refused message => (dir, .error message)
  | .torn message => (Function.update dir name (some .torn), .error message)

/-- What a run of the resolver finds: the sources or an error, the directory made or not, and how
each write ends. -/
structure SyncInput where
  sources : Except String Sources
  prepared : Except String Unit
  writes : Pair → WriteOutcome

/-- The loop over the tenants and teams, which ends at the first manifest that is not written. -/
def writeManifests (build : Pair → ResolvedManifest) (writes : Pair → WriteOutcome) :
    List Pair → Directory → Directory × Except String Unit
  | [], dir => (dir, .ok ())
  | pair :: rest, dir =>
    match dir.write (resolvedManifestFilename pair) (.manifest (build pair)) (writes pair) with
    | (dir, .error message) => (dir, .error message)
    | (dir, .ok ()) => writeManifests build writes rest dir

/-- `resolve`, which `sync_project` is. -/
def syncProject (input : SyncInput) (bundle : Bundle) : Bundle × Except String Unit :=
  match input.sources with
  | .error message => (bundle, .error message)
  | .ok sources =>
    match input.prepared with
    | .error message => (bundle, .error message)
    | .ok () =>
      let (resolved, result) :=
        writeManifests (buildManifest bundle.root sources) input.writes (currentPairs bundle) bundle.resolved
      ({ bundle with resolved }, result)

end Project
