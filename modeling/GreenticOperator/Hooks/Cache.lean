import GreenticOperator.Hooks.Runner
import GreenticOperator.Lib.Disk
import GreenticOperator.Offers.Registry

/-!
# The cached registry of hooks

`src/hooks/runner.rs`, `src/offers/registry.rs`. Each request looks for the packs of its bundle.
The registry of their offers is built once for each packs directory and then kept for as long as
the operator runs.
-/

namespace Hooks

open Disk Offers

/-- The files of the disk, each with the manifest that is in it. -/
abbrev PackFiles := Files (Except String Json.Value)

def pathExists (disk : PackFiles) (path : String) : Bool :=
  disk.reaches (place path) && (disk.dirs.contains (resolve path) || (disk.read (resolve path)).isSome)

/-- The packs below a directory, in the order of their paths. -/
def discoverGtpacks (disk : PackFiles) (root : String) : Except String (List String) :=
  let base := resolve root
  if !disk.dirs.contains base then .error "not a directory"
  else
    let found := (disk.files.map Prod.fst).filter fun path =>
      base.isPrefixOf path && extension path == some "gtpack"
    .ok (((found.map (·.drop base.length)).insertionSort (· ≤ ·)).map fun names => names.foldl join root)

def loadFrom (disk : PackFiles) (packRef : String) : Except String PackOffers :=
  match disk.read (resolve packRef) with
  | none => .error "no such file"
  | some manifest => loadPackOffers manifest packRef

/-- What paths are compared by: empty names and dots within them do not count. -/
def components (path : String) : List String :=
  let names := Text.split '/' path
  let start :=
    if Text.startsWithChar '/' path then ["/"] else if names.head? = some "." then ["."] else []
  start ++ names.filter fun name => name ≠ "" && name ≠ "."

/-- The registries built so far, by the packs directory. -/
abbrev RegistryCache := List (List String × OfferRegistry)

def cachedOfferRegistry (cache : RegistryCache) (disk : PackFiles) (packsRoot : String)
    (refs : List String) : Except String OfferRegistry × RegistryCache :=
  match cache.lookup (components packsRoot) with
  | some existing => (.ok existing, cache)
  | none =>
    match OfferRegistry.fromPackRefs (loadFrom disk) refs with
    | .error err => (.error err, cache)
    | .ok registry => (.ok registry, (components packsRoot, registry) :: cache)

/-- A request whose answer the hooks are asked about; the disk and the cache are those of the
operator. -/
structure HookRequest where
  bundle : String
  world : World

def HookRequest.packsRoot (request : HookRequest) : String := join request.bundle "packs"

structure Operator where
  disk : PackFiles
  cache : RegistryCache

/-- The packs a request finds, where it looks for them and there are any. -/
def HookRequest.foundRefs (request : HookRequest) (disk : PackFiles) : Option (List String) :=
  if request.world.hooksEnabled && pathExists disk request.packsRoot then
    match discoverGtpacks disk request.packsRoot with
    | .ok refs => if refs.isEmpty then none else some refs
    | .error _ => none
  else none

/-- What a request runs in. -/
def HookRequest.worldIn (request : HookRequest) (operator : Operator) : World :=
  { request.world with
    packsRootExists := pathExists operator.disk request.packsRoot
    packRefs := discoverGtpacks operator.disk request.packsRoot
    registry := (cachedOfferRegistry operator.cache operator.disk request.packsRoot
      ((request.foundRefs operator.disk).getD [])).1 }

/-- The packs change, or a request arrives. -/
inductive Event
  | change (disk : PackFiles)
  | request (request : HookRequest)

def Operator.exec (event : Event) (operator : Operator) : Operator :=
  match event with
  | .change disk => { operator with disk }
  | .request request =>
    match request.foundRefs operator.disk with
    | none => operator
    | some refs => { operator with
        cache := (cachedOfferRegistry operator.cache operator.disk request.packsRoot refs).2 }

end Hooks
