import GreenticOperator.Domains
import GreenticOperator.Lib.Cbor
import GreenticOperator.Lib.Disk
import Mathlib.Data.List.Sort

/-!
# The manifest of a pack

`src/domains/mod.rs`. A manifest is a CBOR map. Its names are texts, or indices into tables of
symbols that the manifest carries itself; an index that leads to no text stands for its digits. The
manifest is read leniently, and diagnosed by a traversal of its own.
-/

namespace Domains

open Cbor

structure PackMeta where
  packId : String
  entryFlows : List String
deriving DecidableEq, Repr

structure PackFlow where
  id : String
  entrypoints : List String
deriving DecidableEq, Repr

structure PackManifest where
  packMeta : Option PackMeta
  packId : Option String
  flows : List PackFlow
deriving DecidableEq, Repr

def symbolsMap (map : Entries) : Option Entries :=
  match mapGet map "symbols" with
  | some (.map symbols) => some symbols
  | _ => none

/-- `strip_suffix('s')`. -/
def stripPlural (key : String) : Option String :=
  if Text.endsWithChar 's' key then some (String.ofList key.toList.dropLast) else none

/-! ## The diagnosis -/

/-- An index is sound if its table is missing or has a text there. -/
def valueIsStringOrSymbol (value : CborValue) (symbols : Option Entries) (symbolKey : String) : Bool :=
  match value with
  | .text _ => true
  | .integer idx =>
    match symbols with
    | none => true
    | some symbols =>
      match (mapGet symbols symbolKey).or (mapGet symbols ((stripPlural symbolKey).getD symbolKey)) with
      | some (.array values) =>
        match toUsize idx with
        | none => true
        | some idx => (values[idx]? matches some (.text _))
      | _ => true
  | _ => false

/-- The path of a name, where it is there and none. -/
def nameMismatch (path : String) (symbols : Option Entries) (symbolKey : String) :
    Option CborValue → Option String
  | none => none
  | some value => if valueIsStringOrSymbol value symbols symbolKey then none else some path

/-- The path of the first that is none in an array of names, or of the field where it is no array. -/
def namesMismatch (path : String) (symbols : Option Entries) (symbolKey : String) :
    Option CborValue → Option String
  | none => none
  | some (.array values) => values.zipIdx.findSome? fun entry =>
      nameMismatch (path ++ "[" ++ toString entry.2 ++ "]") symbols symbolKey (some entry.1)
  | some _ => some path

def metaMismatch (symbols : Option Entries) : Option CborValue → Option String
  | none => none
  | some (.map metaMap) =>
    (nameMismatch "meta.pack_id" symbols "pack_ids" (mapGet metaMap "pack_id")).or
      (namesMismatch "meta.entry_flows" symbols "flow_ids" (mapGet metaMap "entry_flows"))
  | some _ => some "meta"

def flowMismatch (symbols : Option Entries) (path : String) : CborValue → Option String
  | .map flow =>
    (nameMismatch (path ++ ".id") symbols "flow_ids" (mapGet flow "id")).or
      (namesMismatch (path ++ ".entrypoints") symbols "entrypoints" (mapGet flow "entrypoints"))
  | _ => some path

def flowsMismatch (symbols : Option Entries) : Option CborValue → Option String
  | none => none
  | some (.array values) => values.zipIdx.findSome? fun entry =>
      flowMismatch symbols ("flows[" ++ toString entry.2 ++ "]") entry.1
  | some _ => some "flows"

def findManifestStringTypeMismatch : CborValue → Option String
  | .map map =>
    let symbols := symbolsMap map
    ((nameMismatch "pack_id" symbols "pack_ids" (mapGet map "pack_id")).or
      (metaMismatch symbols (mapGet map "meta"))).or (flowsMismatch symbols (mapGet map "flows"))
  | _ => none

/-- What is wrong with a manifest, of which there may be none in the archive. -/
def manifestCborIssueDetail (fromSlice : List UInt8 → Except String CborValue) :
    Option (List UInt8) → Option String
  | none => some "manifest.cbor missing from archive"
  | some bytes =>
    match fromSlice bytes with
    | .error err => some err
    | .ok value =>
      (findManifestStringTypeMismatch value).map fun path => "invalid type at " ++ path ++ " (expected string)"

/-! ## Decoding -/

def symbolArray (symbols : Entries) (key : String) : Option (List CborValue) :=
  match mapGet symbols key with
  | some (.array values) => some values
  | _ =>
    match (stripPlural key).bind (mapGet symbols) with
    | some (.array values) => some values
    | _ => none

/-- The text of an index; an index that is no machine word becomes the largest. -/
def symbolText (symbols : Option Entries) (symbolKey : String) (idx : Int) : String :=
  match symbols with
  | none => toString idx
  | some symbols =>
    match symbolArray symbols symbolKey with
    | none => toString idx
    | some values =>
      let idx := (toUsize idx).getD (2 ^ 64 - 1)
      match values[idx]? with
      | some (.text text) => text
      | _ => toString idx

def resolveStringSymbol (value : Option CborValue) (symbols : Option Entries) (symbolKey : String) :
    Except String (Option String) :=
  match value with
  | none => .ok none
  | some (.text text) => .ok (some text)
  | some (.integer idx) => .ok (some (symbolText symbols symbolKey idx))
  | some _ => .error "expected string or symbol index"

/-- One entry of an array of names, which may also be a symbol of another table. -/
def resolveEntry (symbols : Option Entries) (symbolKey : String) (fallbackKey : Option String)
    (entry : CborValue × Nat) : Except String (Option String) :=
  match resolveStringSymbol (some entry.1) symbols symbolKey with
  | .ok value => .ok value
  | .error err =>
    match fallbackKey.map (resolveStringSymbol (some entry.1) symbols) with
    | some (.ok (some value)) => .ok (some value)
    | _ => .error (err ++ " at index " ++ toString entry.2)

def resolveStringArray (value : Option CborValue) (symbols : Option Entries) (symbolKey : String)
    (fallbackKey : Option String) : Except String (List String) :=
  match value with
  | none => .ok []
  | some (.array values) => do
    let resolved ← values.zipIdx.mapM (resolveEntry symbols symbolKey fallbackKey)
    return resolved.filterMap id
  | some _ => .error "expected array"

/-- The pack id and the entry flows of the field `meta`. -/
def decodeMeta (symbols : Option Entries) : Option CborValue → Except String (Option String × List String)
  | none => .ok (none, [])
  | some (.map metaMap) => do
    let packId ← resolveStringSymbol (mapGet metaMap "pack_id") symbols "pack_ids"
    let entryFlows ← resolveStringArray (mapGet metaMap "entry_flows") symbols "flow_ids" (some "entrypoints")
    return (packId, entryFlows)
  | some _ => .error "meta is not a map"

def decodeFlow (symbols : Option Entries) (entry : CborValue × Nat) : Except String PackFlow :=
  let path := "flows[" ++ toString entry.2 ++ "]"
  match entry.1 with
  | .map flow => do
    match ← resolveStringSymbol (mapGet flow "id") symbols "flow_ids" with
    | none => throw (path ++ ".id missing")
    | some id =>
      let entrypoints ← resolveStringArray (mapGet flow "entrypoints") symbols "entrypoints" none
      return { id, entrypoints }
  | _ => .error (path ++ " is not a map")

def decodeFlows (symbols : Option Entries) : Option CborValue → Except String (List PackFlow)
  | none => .ok []
  | some (.array values) => values.zipIdx.mapM (decodeFlow symbols)
  | some _ => .error "flows is not an array"

def decodeManifestLenient : CborValue → Except String PackManifest
  | .map map => do
    let symbols := symbolsMap map
    let (metaPackId, metaEntryFlows) ← decodeMeta symbols (mapGet map "meta")
    let topPackId ← resolveStringSymbol (mapGet map "pack_id") symbols "pack_ids"
    match topPackId.or metaPackId with
    | none => throw "pack_id missing"
    | some packId =>
      let flows ← decodeFlows symbols (mapGet map "flows")
      return { packMeta := some { packId, entryFlows := metaEntryFlows }, packId := none, flows }
  | _ => .error "manifest is not a map"

def parseManifestCborBytes (fromSlice : List UInt8 → Except String CborValue) (bytes : List UInt8) :
    Except String PackManifest := do
  let value ← fromSlice bytes
  match decodeManifestLenient value with
  | .ok manifest => return manifest
  | .error decodeErr =>
    match findManifestStringTypeMismatch value with
    | some errPath => throw ("invalid type at " ++ errPath ++ " (expected string)")
    | none => throw ("manifest.cbor uses symbol table encoding but could not be decoded: " ++ decodeErr)

/-- The id of a pack and the flows to enter it by; `fallback` is the stem of the pack's file name. -/
def buildPackMeta (manifest : PackManifest) (fallback : String) : PackMeta :=
  let packId := ((manifest.packMeta.map PackMeta.packId).or manifest.packId).getD fallback
  let entryFlows := (manifest.packMeta.map PackMeta.entryFlows).getD []
  let entryFlows :=
    if entryFlows.isEmpty then manifest.flows.flatMap fun flow => flow.id :: flow.entrypoints
    else entryFlows
  { packId, entryFlows := if entryFlows.isEmpty then [packId] else entryFlows }

end Domains

/-!
## Discovering provider packs

`src/domains/mod.rs`. The packs of a domain are those below its own directory of providers and those
below the directory `packs`, which all domains share, in the order of their file names.
-/

namespace Domains

open Disk

/-- A pack file as its two readers take it. -/
structure PackContents where
  lenient : Except String PackMeta
  cborOnly : Except String PackMeta

/-- The pack files of a disk, in the order a walk through its directories meets them. -/
abbrev ProviderDisk := Files PackContents

def pathIsThere (disk : ProviderDisk) (path : String) : Bool :=
  disk.reaches (place path) && (disk.dirs.contains (resolve path) || (disk.read (resolve path)).isSome)

/-- The part of `config` that discovery uses. -/
def providersDir (domain : Domain) : String := "providers/" ++ domainName domain

/-- The name of a pack's file. -/
def ProviderPack.fileName (pack : ProviderPack) : String := Text.lastPart '/' pack.path

def collectGtpacks (disk : ProviderDisk) (root : String) : Except String (List String) :=
  let base := resolve root
  if !disk.dirs.contains base then .error "not a directory"
  else
    let found := (disk.files.map Prod.fst).filter fun path =>
      base.isPrefixOf path && extension path == some "gtpack"
    .ok (found.map fun path => (path.drop base.length).foldl join root)

/-- The packs found so far, and their paths. -/
structure Found where
  packs : List ProviderPack
  seen : List String

def appendPack (disk : ProviderDisk) (read : PackContents → Except String PackMeta) (found : Found)
    (path : String) : Except String Found :=
  if found.seen.contains path then .ok found
  else
    match disk.read (resolve path) with
    | none => .error "no such file"
    | some contents => do
      let packMeta ← read contents
      return {
        packs := found.packs ++ [{ packId := packMeta.packId, path, entryFlows := packMeta.entryFlows }]
        seen := found.seen ++ [path] }

def appendPacksFromRoot (disk : ProviderDisk) (read : PackContents → Except String PackMeta) (found : Found)
    (root : String) : Except String Found := do
  if !pathIsThere disk root then return found
  (← collectGtpacks disk root).foldlM (appendPack disk read) found

/-- `discover_provider_packs`, and `discover_provider_packs_cbor_only`. The sort is stable. -/
def discoverProviderPacks (disk : ProviderDisk) (cborOnly : Bool) (root : String) (domain : Domain) :
    Except String (List ProviderPack) := do
  let read := if cborOnly then PackContents.cborOnly else PackContents.lenient
  let found ← appendPacksFromRoot disk read ⟨[], []⟩ (join root (providersDir domain))
  let found ← appendPacksFromRoot disk read found (join root "packs")
  return found.packs.insertionSort fun a b => a.fileName ≤ b.fileName

end Domains
