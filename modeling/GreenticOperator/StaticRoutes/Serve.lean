import Mathlib.Data.List.Sort
import GreenticOperator.Lib.Disk
import GreenticOperator.Lib.Eff
import GreenticOperator.StaticRoutes.Discover

/-!
# Serving a static route

`src/static_routes.rs`, `src/demo/http_ingress.rs`. A request that a route matches asks for an asset
under the source root of the route: the one the path names, the index file for a directory, and the
fallback where that one is not there. A pack is a directory or an archive.
-/

namespace StaticRoutes

/-!
## The table of active routes

The routes of a plan, those with more segments first; a request is
served by the first route that is accepted and matches.
-/

/-- More segments first, then by public path. -/
def Precedes (a b : StaticRouteDescriptor) : Prop :=
  b.routeSegments.length < a.routeSegments.length
    ∨ (a.routeSegments.length = b.routeSegments.length ∧ a.publicPath ≤ b.publicPath)

instance : DecidableRel Precedes := fun _ _ =>
  inferInstanceAs (Decidable (_ ∨ _))

structure StaticRouteMatch where
  descriptor : StaticRouteDescriptor
  assetPath : String
  requestIsDirectory : Bool
deriving DecidableEq

/-- Whether a segment of a route takes a segment of a request. -/
def RouteScopeSegment.accepts : RouteScopeSegment → String → Bool
  | Literal expected, segment => expected == segment
  | Tenant, _ => true
  | Team, _ => true

/-- Whether a route's segments take the first segments of a request. -/
def segmentsMatch (route : List RouteScopeSegment) (request : List String) : Bool :=
  decide (route.length ≤ request.length) && (route.zip request).all fun pair => pair.1.accepts pair.2

structure ActiveRouteTable where
  routes : List StaticRouteDescriptor

namespace ActiveRouteTable

/-- The sort is stable. -/
def fromPlan (plan : StaticRoutePlan) : ActiveRouteTable := ⟨plan.routes.insertionSort Precedes⟩

def matchFirst (table : ActiveRouteTable) (requestPath : String)
    (accept : StaticRouteDescriptor → Bool) : Option StaticRouteMatch :=
  let normalized := segmentsOf requestPath
  let requestIsDirectory := Text.endsWithChar '/' requestPath
  table.routes.findSome? fun descriptor =>
    if !accept descriptor then none
    else if !segmentsMatch descriptor.routeSegments normalized then none
    else some ⟨descriptor, Text.joinWith '/' (normalized.drop descriptor.routeSegments.length),
      requestIsDirectory⟩

def matchRequest (table : ActiveRouteTable) (requestPath : String) : Option StaticRouteMatch :=
  table.matchFirst requestPath fun descriptor => descriptor.scope.isNone

def matchRequestForRevision (table : ActiveRouteTable) (requestPath : String) (scope : RevisionScope) :
    Option StaticRouteMatch :=
  table.matchFirst requestPath fun descriptor =>
    descriptor.scope.any fun s =>
      s.deploymentId == scope.deploymentId && s.bundleId == scope.bundleId
        && s.revisionId == scope.revisionId

end ActiveRouteTable

def resolveAssetPath (routeMatch : StaticRouteMatch) : Option String :=
  if routeMatch.assetPath.isEmpty || routeMatch.requestIsDirectory then
    routeMatch.descriptor.indexFile
  else some routeMatch.assetPath

def fallbackAssetPath (routeMatch : StaticRouteMatch) : Option String :=
  routeMatch.descriptor.spaFallback

def cacheControlValue : CacheStrategy → Option String
  | .None => none
  | .PublicMaxAge maxAgeSeconds => some ("public, max-age=" ++ toString maxAgeSeconds)

/-! ## Assets -/

/-- The outcome of looking for an asset: none where there is none. -/
abbrev Found := Except String (Option (List UInt8))

/-- The packs on the disk: which are directories, what reading a file gives, and what opening an
entry of an archive gives. -/
structure PackStore where
  isDir : String → Bool
  readFile : String → Found
  readEntry : String → String → Found

/-- What was tried to be read: a file, or an entry of an archive. -/
inductive Access
  | file (path : String)
  | entry (archive name : String)
deriving DecidableEq, Repr

structure AssetResponse where
  contentType : String
  contentLength : Nat
  cacheControl : Option String
  body : List UInt8
deriving DecidableEq, Repr

/-- What is answered: an asset, or a JSON object with the message. -/
inductive RouteResponse
  | ok (asset : AssetResponse)
  | error (status : Nat) (message : String)
deriving DecidableEq, Repr

/-- The extension of the last name of a path. -/
def contentTypeForPath (path : String) : String :=
  match Disk.extension ((Text.split '/' path).filter fun segment => segment ≠ "" && segment ≠ ".") with
  | some "html" => "text/html; charset=utf-8"
  | some "js" | some "mjs" => "application/javascript; charset=utf-8"
  | some "css" => "text/css; charset=utf-8"
  | some "json" => "application/json; charset=utf-8"
  | some "svg" => "image/svg+xml"
  | some "png" => "image/png"
  | some "ico" => "image/x-icon"
  | some "woff2" => "font/woff2"
  | some "woff" => "font/woff"
  | some "map" => "application/json"
  | some "txt" => "text/plain; charset=utf-8"
  | _ => "application/octet-stream"

/-- The second copy of the normalization, for the path of a request. -/
def normalizeRelativeRequestPath (path : String) : Option String := normalizeRelativeAssetPath path

/-! ## Reading -/

/-- Reads one file or entry, and notes that it was tried. -/
def tryRead (access : Access) (found : Found) : Eff (List Access) (Option (List UInt8)) := do
  Eff.modify fun tried => tried ++ [access]
  Eff.lift found

def readPackAssetBytes (store : PackStore) (packPath assetPath : String) :
    Eff (List Access) (Option (List UInt8)) :=
  if store.isDir packPath then
    let candidate := Disk.join packPath assetPath
    tryRead (.file candidate) (store.readFile candidate)
  else tryRead (.entry packPath assetPath) (store.readEntry packPath assetPath)

def serveStaticAsset (store : PackStore) (descriptor : StaticRouteDescriptor) (assetPath : String) :
    Eff (List Access) (Option AssetResponse) :=
  match normalizeRelativeRequestPath assetPath with
  | none => pure none
  | some assetPath => do
    let fullPath := descriptor.sourceRoot ++ "/" ++ assetPath
    match ← readPackAssetBytes store descriptor.packPath fullPath with
    | none => return none
    | some body => return some {
        contentType := contentTypeForPath fullPath
        contentLength := body.length
        cacheControl := cacheControlValue descriptor.cacheStrategy
        body }

/-- The candidates one after another, up to the first that is there or cannot be read. -/
def serveFirst (store : PackStore) (descriptor : StaticRouteDescriptor) :
    List String → Eff (List Access) RouteResponse
  | [] => pure (.error 404 "file not found")
  | assetPath :: rest => do
    match ← (serveStaticAsset store descriptor assetPath).attempt with
    | .ok (some asset) => return .ok asset
    | .ok none => serveFirst store descriptor rest
    | .error err => return .error 500 err

def serveStaticRoute (store : PackStore) (routeMatch : StaticRouteMatch) : Eff (List Access) RouteResponse :=
  serveFirst store routeMatch.descriptor
    ((resolveAssetPath routeMatch).toList ++ (fallbackAssetPath routeMatch).toList)

/-- The assets a table of routes serves. -/
def serveRequest (store : PackStore) (table : ActiveRouteTable) (requestPath : String) :
    Eff (List Access) (Option RouteResponse) :=
  match table.matchRequest requestPath with
  | none => pure none
  | some routeMatch => do return some (← serveStaticRoute store routeMatch)

end StaticRoutes
