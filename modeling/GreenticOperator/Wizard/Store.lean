import GreenticOperator.Gmap.Edit
import GreenticOperator.Lib.Directory
import GreenticOperator.Wizard.Plan

/-!
# A bundle on disk

`src/wizard.rs`, `src/project/tenants.rs`, `src/gmap/edit.rs`. A bundle is a directory: its packs
lie in `packs`, those of providers a second time in `providers`, and which reference has which id
is recorded in `.greentic/packs.json`. The helpers of the wizard change it file by file, and what
was done before an error stays done.
-/

namespace Wizard

open Disk Disk.Files
open Project (TenantSelection Pair)

/-- What a file of a bundle holds. -/
inductive Content (α : Type)
  | pack (bytes : α)
  | text (text : String)
  | records (records : List PackMappingRecord)
deriving DecidableEq, Repr

abbrev Store (α : Type) := Disk.Files (Content α)

variable {α : Type}

def thereAt (place : Place) : Eff (Store α) Bool := Eff.read fun disk => disk.isThere place

def writeText (place : Place) (text : String) : Eff (Store α) Unit := writeFile place (.text text)

/-- How a text is written over a file: whole, not at all, or with an error after the file was cut, when
something else is left in it. -/
inductive Writing (α : Type)
  | whole
  | refused (message : String)
  | torn (left : Content α) (message : String)

def Writing.text : Writing α → Place → String → Eff (Store α) Unit
  | whole, place, text => writeText place text
  | refused message, _, _ => Eff.fail message
  | torn left message, place, _ => do
    writeFile place left
    Eff.fail message

def readText (place : Place) : Eff (Store α) String := do
  match ← readFile place with
  | .text text => return text
  | _ => Eff.fail "stream did not contain valid UTF-8"

def copyFile (src dst : Place) : Eff (Store α) Unit := do
  writeFile dst (← readFile src)

def writeIfMissing (path : Place) (contents : String) : Eff (Store α) Unit := do
  if ← thereAt path then return ()
  else do
    createParents path
    writeText path contents

def readIfExists (path : Place) : Eff (Store α) (Option String) := do
  if ← thereAt path then do
    return some (← readText path)
  else return none

/-- The names in a directory, where there is one. -/
def listIfExists (dir : Place) : Eff (Store α) (List String) := do
  if ← thereAt dir then do
    if ← Eff.read fun disk => disk.isDir dir.path then Eff.read fun disk => disk.entries dir.path
    else Eff.fail "not a directory"
  else return []

def removeIfExists (path : Place) : Eff (Store α) Unit := do
  if ← thereAt path then remove path else return ()

/-! ## A new bundle -/

def demoBundleDirectories : List String :=
  ["", "providers", "providers/messaging", "providers/events", "providers/secrets", "providers/oauth",
    "packs", "resolved", "state", "state/resolved", "state/runs", "state/pids", "state/logs",
    "state/runtime", "state/doctor", "tenants", "tenants/default", "tenants/default/teams",
    "tenants/demo", "tenants/demo/teams", "tenants/demo/teams/default", "logs"]

def demoYaml (bundleName : Option String) : String :=
  "version: \"1\"\nproject_root: \"./\"\n" ++
    match bundleName.filter fun value => !(Text.trim value).isEmpty with
    | some name => "bundle_name: \"" ++ String.ofList (name.toList.filter (· ≠ '\x22')) ++ "\"\n"
    | none => ""

def defaultGmap : String := "_ = forbidden\n"

def createDemoBundleStructure (bundle : Path) (bundleName : Option String) : Eff (Store α) Unit := do
  demoBundleDirectories.forM fun directory => createDirs (under bundle [directory])
  writeIfMissing (under bundle ["greentic.demo.yaml"]) (demoYaml bundleName)
  writeIfMissing (under bundle ["tenants", "default", "tenant.gmap"]) defaultGmap
  writeIfMissing (under bundle ["tenants", "demo", "tenant.gmap"]) defaultGmap
  writeIfMissing (under bundle ["tenants", "demo", "teams", "default", "team.gmap"]) defaultGmap

/-! ## Packs -/

/-- A pack that was resolved; `cached` is what its cached file holds, where that is still there. -/
structure ResolvedPackInfo (α : Type) where
  sourceRef : String
  resolvedDigest : String
  packId : String
  entryFlows : List String
  cached : Option α
  outputPath : String
deriving DecidableEq

def packsMetadataPath (bundle : Path) : Place := under bundle [".greentic", "packs.json"]

def loadPacksMetadata (bundle : Path) (disk : Store α) : PacksJson :=
  if disk.isThere (packsMetadataPath bundle) then
    match disk.read (packsMetadataPath bundle).path with
    | some (.records records) => .ok records
    | _ => .error "read packs.json"
  else .ok []

def writePacksMetadata (bundle : Path) (records : List PackMappingRecord) : Eff (Store α) Unit := do
  createParents (packsMetadataPath bundle)
  writeFile (packsMetadataPath bundle) (.records records)

/-- The packs under the ids that their references are given. -/
def withAssignedIds (records : List PackMappingRecord) (packs : List (ResolvedPackInfo α)) :
    List (ResolvedPackInfo α) :=
  packs.zipWith (fun pack (_, id) => { pack with packId := id, outputPath := outputPath id })
    (assignPackIds (knownIds records) (packs.map (·.sourceRef)))

def mappingRecord (pack : ResolvedPackInfo α) : PackMappingRecord where
  packId := pack.packId
  originalRef := pack.sourceRef
  localPathInBundle := pack.outputPath
  digest := some pack.resolvedDigest

def assignPackIdsAndPersistMetadata (bundle : Path) (packs : List (ResolvedPackInfo α)) :
    Eff (Store α) (List (ResolvedPackInfo α)) :=
  if packs.isEmpty then return packs
  else do
    let records ← Eff.lift (← Eff.read (loadPacksMetadata bundle))
    writePacksMetadata bundle (persistMetadata ((withAssignedIds records packs).map mappingRecord) records)
    return withAssignedIds records packs

def copyPackIntoBundle (bundle : Path) (pack : ResolvedPackInfo α) : Eff (Store α) Unit :=
  match pack.cached with
  | none => Eff.fail "cached pack not found"
  | some bytes => do
    createParents (under bundle [pack.outputPath])
    writeFile (under bundle [pack.outputPath]) (.pack bytes)

/-- The directory of `providers` that a pack of this id is copied to. -/
def providerDomainDir (packId : String) : Option String :=
  if Text.startsWith "messaging-" packId then some "messaging"
  else if Text.startsWith "events-" packId then some "events"
  else if Text.startsWith "oauth-" packId then some "oauth"
  else none

def linkInto (bundle : Path) (domainDir : String) (src : Place) : Eff (Store α) Unit := do
  createDirs (under bundle ["providers", domainDir])
  match src.path.getLast? with
  | none => Eff.fail "bad pack path"
  | some name =>
    let dst := under bundle ["providers", domainDir, name]
    if ← thereAt dst then return () else copyFile src dst

def linkPackToProviderDir (bundle : Path) (pack : ResolvedPackInfo α) : Eff (Store α) Unit :=
  match providerDomainDir pack.packId with
  | none => return ()
  | some domainDir => do
    let src := under bundle [pack.outputPath]
    if ← thereAt src then linkInto bundle domainDir src else return ()

def linkPacksToProviderDirs (bundle : Path) (packs : List (ResolvedPackInfo α)) : Eff (Store α) Unit :=
  packs.forM (linkPackToProviderDir bundle)

/-! ## Defaults -/

def resolvePackIdentifier (bundle : Path) (identifier : String) : Eff (Store α) String := do
  Eff.lift (canonicalPackIdentifier (← Eff.read (loadPacksMetadata bundle)) identifier)

/-- The file that names the default pack of a scope; a bundle's own packs have none. -/
def defaultTarget (bundle : Path) : PackScope → Option Place
  | .Bundle => none
  | .Global => some (under bundle ["default.gtpack"])
  | .Tenant tenantId => some (under bundle ["tenants", tenantId, "default.gtpack"])
  | .Team tenantId teamId => some (under bundle ["tenants", tenantId, "teams", teamId, "default.gtpack"])

/-- One round of `apply_default_assignments`. -/
def applyDefaultAssignment (bundle : Path) (assignment : PackDefaultSelection) : Eff (Store α) Unit := do
  let packId ← resolvePackIdentifier bundle assignment.packIdentifier
  let packFile := "packs/" ++ packId ++ ".gtpack"
  match defaultTarget bundle assignment.scope with
  | none => return ()
  | some target =>
    if ← thereAt (under bundle [packFile]) then do
      createParents target
      writeText target (packFile ++ "\n")
    else return ()

/-! ## Removing packs -/

/-- Whether an entry of `packs` is removed with a pack. -/
def carries (packId name : String) : Bool := name == packId || Text.startsWith (packId ++ ".") name

/-- The loop of `apply_pack_remove` over the entries of `packs`. -/
def removePackFiles (bundle : Path) (packId : String) : Eff (Store α) Unit := do
  let names ← listIfExists (under bundle ["packs"])
  (names.filter (carries packId)).forM fun name => remove ⟨bundle ++ ["packs", name], []⟩

/-- `default_mentions_pack`, which only warns. -/
def readDefault (path : Place) : Eff (Store α) Unit := do
  if ← thereAt path then discard (readText path) else return ()

def subdirectories (disk : Store α) (dir : Path) : List String :=
  ((disk.entries dir).filter fun name => disk.isDir (dir ++ [name])).insertionSort (· ≤ ·)

def markDanglingTeams (bundle : Path) (tenant : String) : Eff (Store α) Unit := do
  readDefault (under bundle ["tenants", tenant, "default.gtpack"])
  let teams ← listIfExists (under bundle ["tenants", tenant, "teams"])
  teams.forM fun team => readDefault (under bundle ["tenants", tenant, "teams", team, "default.gtpack"])

def markDanglingDefaults (bundle : Path) : Eff (Store α) Unit := do
  readDefault (under bundle ["default.gtpack"])
  let tenants ← listIfExists (under bundle ["tenants"])
  tenants.forM (markDanglingTeams bundle)

def applyPackRemove (bundle : Path) (selection : PackRemoveSelection) : Eff (Store α) Unit := do
  let packId ← resolvePackIdentifier bundle selection.packIdentifier
  removePackFiles bundle packId
  match defaultTarget bundle (selection.scope.getD .Bundle) with
  | none => markDanglingDefaults bundle
  | some target => removeIfExists target

/-! ## Tenants and teams -/

def removeTenantOrTeam (bundle : Path) (selection : TenantSelection) : Eff (Store α) Unit := do
  let path := match selection.team with
    | some team => under bundle ["tenants", selection.tenant, "teams", team]
    | none => under bundle ["tenants", selection.tenant]
  if ← thereAt path then do
    if ← Eff.read fun disk => disk.isDir path.path then remove path else Eff.fail "not a directory"
  else return ()

def addTenant (bundle : Path) (tenant : String) : Eff (Store α) Unit := do
  createDirs (under bundle ["tenants", tenant, "teams"])
  let gmapPath := under bundle ["tenants", tenant, "tenant.gmap"]
  if ← thereAt gmapPath then return () else writeText gmapPath defaultGmap

def addTeam (bundle : Path) (tenant team : String) : Eff (Store α) Unit := do
  createDirs (under bundle ["tenants", tenant, "teams", team])
  let gmapPath := under bundle ["tenants", tenant, "teams", team, "team.gmap"]
  if ← thereAt gmapPath then return () else writeText gmapPath defaultGmap

def ensureTenantAndTeam (bundle : Path) (pair : Pair) : Eff (Store α) Unit := do
  addTenant bundle pair.1
  match pair.2 with
  | some team => if team.isEmpty then return () else addTeam bundle pair.1 team
  | none => return ()

def demoBundleGmapPath (bundle : Path) : Pair → Place
  | (tenant, some team) => under bundle ["tenants", tenant, "teams", team, "team.gmap"]
  | (tenant, none) => under bundle ["tenants", tenant, "tenant.gmap"]

/-- `upsert_policy` on a file of the bundle, which is written over in place. -/
def upsertPolicyBy (writing : Writing α) (path : Place) (rulePath : String) (policy : Gmap.Policy) :
    Eff (Store α) Unit := do
  let contents ← readIfExists path
  let updated ← Eff.lift (Gmap.upsertPolicy contents rulePath policy)
  createParents path
  writing.text path updated

def upsertPolicy (path : Place) (rulePath : String) (policy : Gmap.Policy) : Eff (Store α) Unit :=
  upsertPolicyBy .whole path rulePath policy

/-! ## Resolved manifests -/

/-- The tenants and teams of a bundle, in the order in which they are resolved. -/
def scanTenants (bundle : Path) (disk : Store α) : List Pair :=
  (subdirectories disk (bundle ++ ["tenants"])).flatMap fun tenant =>
    Project.TenantEntry.pairs ⟨tenant, subdirectories disk (bundle ++ ["tenants", tenant, "teams"])⟩

/-- `sync_project`, of which the scan of packs and providers and the manifests are given. -/
def syncProject (bundle : Path) (scanned : Except String Unit) (manifest : Pair → String) :
    Eff (Store α) Unit := do
  Eff.lift scanned
  let pairs ← Eff.read (scanTenants bundle)
  createDirs (under bundle ["state", "resolved"])
  pairs.forM fun pair =>
    writeText (under bundle ["state", "resolved", Project.resolvedManifestFilename pair]) (manifest pair)

/-- One round of `copy_resolved_for_targets`. -/
def copyResolved (bundle : Path) (target : Pair) : Eff (Store α) Unit := do
  let filename := Project.resolvedManifestFilename target
  let src := under bundle ["state", "resolved", filename]
  if ← thereAt src then do
    createParents (under bundle ["resolved", filename])
    copyFile src (under bundle ["resolved", filename])
  else return ()

end Wizard
