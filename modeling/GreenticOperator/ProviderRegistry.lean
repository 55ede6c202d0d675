import GreenticOperator.Lib.Disk
import GreenticOperator.Lib.Eff
import GreenticOperator.Lib.SortedMap
import Mathlib.Logic.Function.Basic

/-!
# The provider registry

`src/provider_registry.rs`. The catalog of providers is a local file, or a file that a registry has, which
is kept in the bundle: under the slug of its reference, and under that of its digest. An index has the digest
of each reference.
-/

namespace ProviderRegistry

open Disk (join)

/-! ## Names of cached files -/

def slugChars : Bool → List Char → List Char
  | _, [] => []
  | prevDash, ch :: rest =>
    if Text.isAsciiAlphanumeric ch then ch.toLower :: slugChars false rest
    else if prevDash then slugChars true rest
    else '-' :: slugChars true rest

def slug (value : String) : String :=
  let out := Text.trimMatches '-' (String.ofList (slugChars false value.toList))
  if out.isEmpty then "registry" else out

/-- A file of the cache, by its stem, or the digest's below `by-digest`. -/
inductive CacheFile
  | named (stem : String)
  | byDigest (stem : String)
deriving DecidableEq, Repr

def CacheFile.path (bundle : String) : CacheFile → String
  | .named stem => join (join (join (join bundle ".greentic") "cache") "provider-registry") (stem ++ ".json")
  | .byDigest stem =>
    join (join (join (join (join bundle ".greentic") "cache") "provider-registry") "by-digest") (stem ++ ".json")

def cachePathForRef (reference : String) : CacheFile := .named (slug reference)

def cachePathForDigest (digest : String) : CacheFile := .byDigest (slug digest)

def cacheIndexPath : CacheFile := .named "index"

/-! ## The cache -/

/-- The digest of each reference, in the order of the references. -/
abbrev Refs := List (String × String)

/-- What a cached file holds: bytes that were fetched, or an index that was written. -/
inductive Contents
  | fetched (bytes : List UInt8)
  | index (refs : Refs)
deriving DecidableEq

/-- How an index is written, and how bytes that were not written as one are read as one. -/
structure Serde where
  render : Refs → List UInt8
  parse : List UInt8 → Except String Refs

def Contents.bytes (serde : Serde) : Contents → List UInt8
  | .fetched bytes => bytes
  | .index refs => serde.render refs

/-- The files of the cache, and for each fetch that brought bytes the reference and the bytes, in order. -/
structure Cache where
  files : CacheFile → Option Contents
  fetches : List (String × List UInt8)

namespace Cache

def empty : Cache := ⟨fun _ => none, []⟩

def write (file : CacheFile) (contents : Contents) : Eff Cache Unit :=
  Eff.modify fun cache => { cache with files := Function.update cache.files file (some contents) }

/-- A fetch that brought bytes. -/
def note (reference : String) (bytes : List UInt8) : Eff Cache Unit :=
  Eff.modify fun cache => { cache with fetches := cache.fetches ++ [(reference, bytes)] }

/-- The index of a cache. -/
def refs (serde : Serde) (cache : Cache) : Except String Refs :=
  match cache.files cacheIndexPath with
  | none => .ok []
  | some (.index refs) => .ok refs
  | some (.fetched bytes) => serde.parse bytes

end Cache

def loadCacheIndex (serde : Serde) : Eff Cache Refs := do
  Eff.lift (← Eff.read (Cache.refs serde))

def resolveCachedByDigest (serde : Serde) (reference : String) : Eff Cache (Option CacheFile) := do
  let refs ← loadCacheIndex serde
  match refs.lookup reference with
  | none => return none
  | some digest =>
    return if (← Eff.read (·.files (cachePathForDigest digest))).isSome then some (cachePathForDigest digest) else none

def resolveExistingCacheForDigest (reference digest : String) (cache : Cache) : Option CacheFile :=
  if (cache.files (cachePathForDigest digest)).isSome then some (cachePathForDigest digest)
  else if (cache.files (cachePathForRef reference)).isSome then some (cachePathForRef reference)
  else none

/-! ## Fetching -/

/-- What a registry gives: the digest, and the bytes, which may be unreadable where they were put. -/
structure Fetched where
  digest : String
  bytes : Except String (List UInt8)

/-- The environment of a fetch: two variables, and the two clients, by what a reference is mapped to. -/
structure Registry where
  repoBase : Option String
  storeBase : Option String
  fetchPackToCache : String → Except String Fetched
  fetchRegistryBytesViaOci : String → Except String (List UInt8 × String)

def looksLikeExplicitOciRef (target : String) : Bool :=
  if !(target.toList.contains '/' && (target.toList.contains '@' || target.toList.contains ':')) then false
  else
    let registry := Text.firstPart '/' target
    registry.toList.contains '.' || registry.toList.contains ':' || registry == "localhost"

def mapRegistryTarget (target : String) (base : Option String) : Option String :=
  if looksLikeExplicitOciRef target then some target
  else base.map fun base => Text.trimEndMatches '/' base ++ "/" ++ Text.trimStartMatches '/' target

def mapRemoteRegistryRef (registry : Registry) (reference : String) : Except String String :=
  let trimmed := Text.trim reference
  match Text.stripPrefix "oci://" trimmed with
  | some rest => .ok rest
  | none =>
    match Text.stripPrefix "repo://" trimmed with
    | some rest =>
      match mapRegistryTarget rest registry.repoBase with
      | some mapped => .ok mapped
      | none => .error s!"repo:// reference {trimmed} requires GREENTIC_REPO_REGISTRY_BASE to map to OCI"
    | none =>
      match Text.stripPrefix "store://" trimmed with
      | some rest =>
        match mapRegistryTarget rest registry.storeBase with
        | some mapped => .ok mapped
        | none => .error s!"store:// reference {trimmed} requires GREENTIC_STORE_REGISTRY_BASE to map to OCI"
      | none =>
        if Text.contains "://" trimmed then
          .error s!"unsupported provider registry scheme for {reference}; expected oci://, repo://, store://, file://, or local path"
        else .ok trimmed

/-- The first client, and the second where it fails. -/
def Registry.fetch (registry : Registry) (mapped : String) : Except String Fetched :=
  match registry.fetchPackToCache mapped with
  | .ok fetched => .ok fetched
  | .error primaryErr =>
    match registry.fetchRegistryBytesViaOci mapped with
    | .ok (bytes, digest) => .ok { digest, bytes := .ok bytes }
    | .error _ => .error ("primary fetch error: " ++ primaryErr)

def cacheRemoteRegistryFile (serde : Serde) (reference digest : String) (bytes : List UInt8) :
    Eff Cache CacheFile := do
  Cache.write (cachePathForDigest digest) (.fetched bytes)
  Cache.write (cachePathForRef reference) (.fetched bytes)
  let refs ← loadCacheIndex serde
  Cache.write cacheIndexPath (.index (SortedMap.alter reference (fun _ => digest) refs))
  return cachePathForRef reference

/-- What is fetched is cached, unless the digest is the one the reference had and something is cached for it. -/
def keepFetched (serde : Serde) (reference : String) (priorDigest : Option String) (fetched : Fetched) :
    Eff Cache CacheFile := do
  match fetched.bytes with
  | .ok bytes => Cache.note reference bytes
  | .error _ => pure ()
  match ← Eff.read fun cache =>
      if priorDigest = some fetched.digest then resolveExistingCacheForDigest reference fetched.digest cache
      else none with
  | some existing => return existing
  | none => cacheRemoteRegistryFile serde reference fetched.digest (← Eff.lift fetched.bytes)

def fetchRemoteRegistryToCache (serde : Serde) (registry : Registry) (reference : String) :
    Eff Cache CacheFile := do
  let mapped ← Eff.lift (mapRemoteRegistryRef registry reference)
  let refs ← loadCacheIndex serde
  let fetched ← Eff.lift (registry.fetch mapped)
  keepFetched serde reference (refs.lookup reference) fetched

/-! ## Resolving -/

def parseLocalRegistryRef (reference : String) : Option String :=
  match Text.stripPrefix "file://" reference with
  | some path => if (Text.trim path).isEmpty then none else some (Text.trim path)
  | none => if Text.contains "://" reference then none else some reference

/-- The path of a catalog: a local one, or one in the cache. -/
inductive CatalogPath
  | local (path : String)
  | cached (file : CacheFile)
deriving DecidableEq, Repr

/-- What a resolution is asked, and the world it is asked in. -/
structure Resolution where
  catalogFile : Option String
  providerRegistryRef : Option String
  offline : Bool
  refresh : Bool
  bundle : String
  localExists : String → Bool
  registry : Registry

namespace Resolution

variable (serde : Serde) (resolution : Resolution)

def unavailable (reference err : String) : String :=
  s!"provider registry {reference} unavailable and no cached copy found at {(cachePathForRef reference).path resolution.bundle} (cause: {err}). Use --provider-registry file://<path> or local path."

/-- What is cached for a reference, by its slug or by the digest that it had. -/
def fromCache (reference : String) (cachedByDigest : Option CacheFile) (cache : Cache) : Option CacheFile :=
  if (cache.files (cachePathForRef reference)).isSome then some (cachePathForRef reference) else cachedByDigest

/-- A fetch that may fail, and what is cached then. -/
def refreshed (reference : String) (cachedByDigest : Option CacheFile) : Eff Cache CacheFile := do
  match ← (fetchRemoteRegistryToCache serde resolution.registry reference).attempt with
  | .ok path => return path
  | .error err =>
    match ← Eff.read (fromCache reference cachedByDigest) with
    | some path => return path
    | none => Eff.fail (resolution.unavailable reference err)

/-- What is cached, or else a fetch. -/
def cachedOrFetched (reference : String) (cachedByDigest : Option CacheFile) : Eff Cache CacheFile := do
  match ← Eff.read (fromCache reference cachedByDigest) with
  | some path => return path
  | none =>
    if resolution.offline then
      Eff.fail "Provider registry unavailable and no cached copy found. Re-run without --offline or set GTC_PROVIDER_REGISTRY_REF to a local file."
    else
      match ← (fetchRemoteRegistryToCache serde resolution.registry reference).attempt with
      | .ok path => return path
      | .error err => Eff.fail (resolution.unavailable reference err)

def resolveRemote (reference : String) : Eff Cache CacheFile := do
  let cachedByDigest ← resolveCachedByDigest serde reference
  if !resolution.offline && resolution.refresh then resolution.refreshed serde reference cachedByDigest
  else resolution.cachedOrFetched serde reference cachedByDigest

/-- The reference that is asked for, if it is not blank. -/
def reference : Option String := (resolution.providerRegistryRef.map Text.trim).filter (· ≠ "")

def resolveCatalogPath : Eff Cache (Option CatalogPath) :=
  match resolution.catalogFile with
  | some path => pure (some (.local path))
  | none =>
    match resolution.reference with
    | none => pure none
    | some reference =>
      match parseLocalRegistryRef reference with
      | some path =>
        if resolution.localExists path then pure (some (.local path))
        else Eff.fail s!"provider registry path {path} does not exist"
      | none => do return some (.cached (← resolution.resolveRemote serde reference))

/-- The cache after a resolution. -/
def exec (resolution : Resolution) (cache : Cache) : Cache := ((resolution.resolveCatalogPath serde).run cache).2

end Resolution

end ProviderRegistry
