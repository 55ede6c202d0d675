import GreenticOperator.Domains.Manifest
import GreenticOperator.Hooks.Runner
import GreenticOperator.Lib.Directory
import GreenticOperator.Offers.Registry

/-!
# Dispatching to a flow

`src/hooks/runner.rs`. A directive may hand a request to a flow of a pack, which it names. The pack is
looked for in the working directory of the process, then below the packs directory of the bundle under
its file name, its stem and at last its id.
-/

namespace Hooks

open Disk Domains HttpIngress Ingress Json Offers RunnerHost

/-- What a file holds: as an archive its manifest, as the loader of offers and as the loader of packs
read it, and its own bytes, read as a manifest. -/
structure DispatchFile where
  offers : Except String Value
  archive : Except String PackManifest
  manifest : Except String PackManifest

/-- What a dispatch runs in. No file has a name that a walk through directories cannot meet. -/
structure Site where
  disk : Files DispatchFile
  names_plain : ∀ file ∈ disk.files, ∀ name ∈ file.1, Plain name
  cwd : Path
  bundle : String
  domain : Domain
  ctx : OperatorContext

/-- `RunRequest` of `src/runner_exec.rs`. -/
structure RunRequest where
  root : String
  domain : Domain
  packPath : String
  packLabel : String
  flowId : String
  tenant : String
  team : Option String
  input : Value
  distOffline : Bool

namespace Site

variable (site : Site)

/-- Where a path text leads from the working directory. -/
def place (text : String) : Place := under site.cwd [text]

def pathExists (text : String) : Bool :=
  site.disk.reaches (site.place text)
    && (site.disk.dirs.contains (site.place text).path || (site.disk.read (site.place text).path).isSome)

def isDir (text : String) : Bool :=
  site.disk.reaches (site.place text) && site.disk.dirs.contains (site.place text).path

def openFile (text : String) : Except String DispatchFile :=
  match site.disk.reaches (site.place text), site.disk.read (site.place text).path with
  | true, some file => .ok file
  | _, _ => .error "no such file"

def packsRoot : String := join site.bundle "packs"

/-- `file_stem`. -/
def fileStem (text : String) : Option String :=
  (site.place text).path.getLast?.map fun name => (splitExtension name).1

def discoverGtpacks (root : String) : Except String (List String) :=
  if !site.isDir root then .error "not a directory"
  else
    let base := (site.place root).path
    let found := (site.disk.files.map Prod.fst).filter fun path =>
      base.isPrefixOf path && extension path == some "gtpack"
    .ok (((found.map (·.drop base.length)).insertionSort (· ≤ ·)).map fun names => names.foldl join root)

def loadPackOffers (packRef : String) : Except String PackOffers := do
  let file ← site.openFile packRef
  Offers.loadPackOffers file.offers packRef

def readPackManifestFromDir (path : String) : Except String PackManifest := do
  let manifestPath := join path "manifest.cbor"
  if !site.pathExists manifestPath then throw ("pack manifest missing manifest.cbor in " ++ path)
  let file ← site.openFile manifestPath
  file.manifest

def readPackManifest (path : String) : Except String PackManifest := do
  let file ← site.openFile path
  file.archive

/-- The manifest of a pack that may be a directory. -/
def readManifestAt (path : String) : Except String PackManifest :=
  if site.isDir path then site.readPackManifestFromDir path else site.readPackManifest path

def readPackMeta (path : String) : Except String PackMeta := do
  let manifest ← site.readManifestAt path
  match manifest.packMeta with
  | some packMeta => return packMeta
  | none => throw ("pack manifest missing meta in " ++ path)

def candidates (targetPack : String) : List String :=
  [targetPack, join site.packsRoot targetPack, join site.packsRoot (targetPack ++ ".gtpack")]

/-- The loop over the packs that were discovered. -/
def findDiscovered (targetPack : String) : List String → Except String String
  | [] => .error ("dispatch target pack " ++ targetPack ++ " not found under " ++ site.packsRoot)
  | path :: rest =>
    if site.fileStem path = some targetPack then .ok path
    else do
      let parsed ← site.loadPackOffers path
      if parsed.packId = targetPack then return path
      findDiscovered targetPack rest

def resolveDispatchPackPath (targetPack : String) : Except String String :=
  match (site.candidates targetPack).find? site.pathExists with
  | some candidate => .ok candidate
  | none => do site.findDiscovered targetPack (← site.discoverGtpacks site.packsRoot)

def dispatchInput (codec : Codec) (body : HookIngressBody) (target : DispatchTarget) : Value :=
  .ofFields [("request", body.request), ("response", body.responseValue codec), ("events", .array body.events),
    ("hook_dispatch", targetValue target)]

/-- The flow that is named, or else the first by which the pack is entered. -/
def flowIdOf (target : DispatchTarget) (packMeta : PackMeta) : Except String String :=
  match target.flow.or packMeta.entryFlows.head? with
  | some flow => .ok flow
  | none => .error "dispatch target pack has no entry flows"

/-- The request for the run of a target that is safe. -/
def requestFor (codec : Codec) (body : HookIngressBody) (target : DispatchTarget) : Except String RunRequest := do
  let packPath ← site.resolveDispatchPackPath target.pack
  let packMeta ← site.readPackMeta packPath
  let flowId ← flowIdOf target packMeta
  return {
    root := site.bundle
    domain := site.domain
    packPath
    packLabel := packMeta.packId
    flowId
    tenant := target.tenant
    team := target.team.or site.ctx.team
    input := dispatchInput codec body target
    distOffline := true }

/-- The request that `dispatch_to_target` has run, where it comes to that. -/
def dispatchRequest (codec : Codec) (body : HookIngressBody) (target : DispatchTarget) :
    Except String RunRequest := do
  ensureDispatchTargetSafe target
  site.requestFor codec body target

end Site

end Hooks
