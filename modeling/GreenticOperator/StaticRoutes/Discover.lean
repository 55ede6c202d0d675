import GreenticOperator.Lib.JsonRecord
import GreenticOperator.StaticRoutes.Routes

/-!
# Discovering the static routes of a bundle

`src/static_routes.rs`. Every runtime pack of a bundle may carry the static-routes extension
in its manifest. A pack that cannot be read is a failure of the plan; the routes of all
others are validated together.
-/

namespace StaticRoutes

open Json

def extStaticRoutesV1 : String := "greentic.static-routes.v1"

/-- The inline payload of an extension: the pack format's own kind, or any value. -/
inductive ExtensionInline
  | Provider
  | Other (value : Value)

structure ExtensionRef where
  inline : Option ExtensionInline

structure PackManifest where
  packId : String
  extensions : Option (List (String × ExtensionRef))

/-- A pack of the bundle, with its manifest or the error that reading it ends in. -/
structure PackFile where
  path : String
  manifest : Except String PackManifest

structure StaticRouteCacheRecord where
  strategy : String
  maxAgeSeconds : Option UInt64

structure StaticRouteRecord where
  id : Option String
  publicPath : String
  sourceRoot : String
  indexFile : Option String
  spaFallback : Option String
  tenant : Bool
  team : Bool
  cache : Option StaticRouteCacheRecord

structure StaticRoutesExtensionV1 where
  schemaVersion : UInt64
  routes : List StaticRouteRecord

/-! ## Decoding -/

/-- An unsigned integer of 32 bits. -/
def asU32 (v : Value) : Option UInt64 := v.asU64.filter (·.toNat < 2 ^ 32)

def decodeCache (v : Value) : Option StaticRouteCacheRecord := do
  let fields ← Value.recordFields ["strategy", "max_age_seconds"] 1 v
  let strategy ← Value.requiredText "strategy" fields
  let maxAgeSeconds ← Value.optionalField Value.asU64 "max_age_seconds" fields
  return { strategy, maxAgeSeconds }

def routeFieldNames : List String :=
  ["id", "public_path", "source_root", "index_file", "spa_fallback", "tenant", "team", "cache"]

def decodeRoute (v : Value) : Option StaticRouteRecord := do
  let fields ← Value.recordFields routeFieldNames 3 v
  let id ← Value.optionalText "id" fields
  let publicPath ← Value.requiredText "public_path" fields
  let sourceRoot ← Value.requiredText "source_root" fields
  let indexFile ← Value.optionalText "index_file" fields
  let spaFallback ← Value.optionalText "spa_fallback" fields
  let tenant ← Value.field (some false) Value.asBool "tenant" fields
  let team ← Value.field (some false) Value.asBool "team" fields
  let cache ← Value.optionalField decodeCache "cache" fields
  return { id, publicPath, sourceRoot, indexFile, spaFallback, tenant, team, cache }

def decodeExtension (v : Value) : Option StaticRoutesExtensionV1 := do
  let fields ← Value.recordFields ["schema_version", "routes"] 0 v
  let schemaVersion ← Value.field (some 1) asU32 "schema_version" fields
  let routes ← Value.listField decodeRoute "routes" fields
  return { schemaVersion, routes }

/-! ## Normalizing -/

/-- A relative path without its `.` components; none for one that leaves its root, and for
one without components. -/
def normalizeRelativeAssetPath (path : String) : Option String :=
  let segments := (Text.split '/' path).filter fun segment => segment ≠ "" && segment ≠ "."
  if Text.startsWithChar '/' path || segments.contains ".." || segments.isEmpty then none
  else some (Text.joinWith '/' segments)

def normalizeOptionalRelativeAssetPath (value : Option String) : Except String (Option String) :=
  match value with
  | none => .ok none
  | some value =>
    match normalizeRelativeAssetPath value with
    | some path => .ok (some path)
    | none => .error ("invalid asset path " ++ value)

/-- A route and its pack as errors name them. -/
def routeInPack (id : Option String) (packPath : String) : String :=
  "static route " ++ id.getD "<unnamed>" ++ " in " ++ packPath

def normalizeCacheStrategy (cache : Option StaticRouteCacheRecord) (packPath : String)
    (routeId : Option String) : Except String CacheStrategy :=
  match cache with
  | none => .ok .None
  | some cache =>
    let strategy := Text.trim cache.strategy
    if strategy = "" ∨ strategy = "none" then .ok .None
    else if strategy = "public-max-age" then
      match cache.maxAgeSeconds with
      | some maxAgeSeconds => .ok (.PublicMaxAge maxAgeSeconds)
      | none =>
        .error (routeInPack routeId packPath ++ " uses public-max-age without max_age_seconds")
    else .error (routeInPack routeId packPath ++ " uses unsupported cache.strategy " ++ strategy)

def normalizeRouteDescriptor (packId packPath : String) (idx : Nat) (route : StaticRouteRecord) :
    Except String StaticRouteDescriptor := do
  if route.team && !route.tenant then
    throw (routeInPack route.id packPath ++ " sets team=true but tenant=false")
  let publicPath := normalizePublicPath route.publicPath
  let routeSegments ← parseRouteSegments publicPath
  if route.tenant ≠ routeSegments.contains .Tenant then
    throw (routeInPack route.id packPath ++ " has inconsistent tenant flag/public_path")
  if route.team ≠ routeSegments.contains .Team then
    throw (routeInPack route.id packPath ++ " has inconsistent team flag/public_path")
  let sourceRoot ← match normalizeRelativeAssetPath route.sourceRoot with
    | some sourceRoot => pure sourceRoot
    | none => throw (routeInPack route.id packPath ++ " has invalid source_root " ++ route.sourceRoot)
  let indexFile ← normalizeOptionalRelativeAssetPath route.indexFile
  let spaFallback ← normalizeOptionalRelativeAssetPath route.spaFallback
  let cacheStrategy ← normalizeCacheStrategy route.cache packPath route.id
  return {
    routeId := route.id.getD (packId ++ "::" ++ toString idx)
    packId
    packPath
    publicPath
    sourceRoot
    indexFile
    spaFallback
    tenantScoped := route.tenant
    teamScoped := route.team
    cacheStrategy
    routeSegments
    scope := none }

/-! ## Discovery -/

def readPackStaticRoutes (pack : PackFile) : Except String (Option (List StaticRouteDescriptor)) := do
  let manifest ← pack.manifest
  match manifest.extensions.bind (·.lookup extStaticRoutesV1) with
  | none => return none
  | some extension =>
    match extension.inline with
    | none => throw "static-routes extension inline payload missing"
    | some .Provider => throw "static-routes extension inline payload has unexpected type"
    | some (.Other value) =>
      match decodeExtension value with
      | none => throw "failed to parse greentic.static-routes.v1 payload"
      | some decoded =>
        if decoded.schemaVersion ≠ 1 then
          throw ("unsupported static-routes extension schema_version="
            ++ toString decoded.schemaVersion ++ " in " ++ pack.path)
        let routes ← decoded.routes.zipIdx.mapM fun (route, idx) =>
          normalizeRouteDescriptor manifest.packId pack.path idx route
        return some routes

/-- A pack's part in the plan. -/
def addPack (plan : StaticRoutePlan) (pack : PackFile) : StaticRoutePlan :=
  match readPackStaticRoutes pack with
  | .ok (some descriptors) => { plan with routes := plan.routes ++ descriptors }
  | .ok none => plan
  | .error err => { plan with blockingFailures := plan.blockingFailures ++ [err] }

def discoverFromBundle (packs : List PackFile) (reservedRoutes : ReservedRouteSet) : StaticRoutePlan :=
  validatePlan (packs.foldl addPack ⟨[], [], []⟩) reservedRoutes

end StaticRoutes
