import GreenticOperator.Domains
import GreenticOperator.Lib.Text

/-!
# Static routes and their validation

`src/static_routes.rs`. Packs declare public paths under which their assets are served. A
path is cut at its slashes into segments, of which `{tenant}` and `{team}` stand for any
segment of a request. A plan of routes is refused where a route's path lies in the paths
that the operator reserves, or overlaps another route's; both are judged on the text of the
public path.
-/

namespace StaticRoutes

open Domains

/-- The revision of a deployment that a route belongs to. -/
structure RevisionScope where
  deploymentId : BitVec 128
  bundleId : String
  revisionId : BitVec 128
deriving DecidableEq

inductive RouteScopeSegment
  | Literal (text : String)
  | Tenant
  | Team
deriving DecidableEq

inductive CacheStrategy
  | None
  | PublicMaxAge (maxAgeSeconds : UInt64)
deriving DecidableEq

structure StaticRouteDescriptor where
  routeId : String
  packId : String
  packPath : String
  publicPath : String
  sourceRoot : String
  indexFile : Option String
  spaFallback : Option String
  tenantScoped : Bool
  teamScoped : Bool
  cacheStrategy : CacheStrategy
  routeSegments : List RouteScopeSegment
  scope : Option RevisionScope
deriving DecidableEq

structure StaticRoutePlan where
  routes : List StaticRouteDescriptor
  warnings : List String
  blockingFailures : List String
deriving DecidableEq

/-! ## Paths -/

/-- The segments of a path; empty ones vanish. -/
def segmentsOf (path : String) : List String :=
  (Text.split '/' (Text.trimStartMatches '/' path)).filter fun segment => !segment.isEmpty

def normalizePublicPath (path : String) : String :=
  let trimmed := Text.trim path
  let normalized := if Text.startsWithChar '/' trimmed then trimmed else "/" ++ trimmed
  if normalized.length > 1 then Text.trimEndMatches '/' normalized else normalized

def pathHasPrefix (path front : String) : Bool :=
  if path = front then true
  else match Text.stripPrefix (Text.trimEndMatches '/' front) path with
  | some rest => Text.startsWithChar '/' rest
  | none => false

def pathsOverlap (left right : String) : Bool :=
  pathHasPrefix left right || pathHasPrefix right left

def parseSegment (segment : String) : Except String RouteScopeSegment :=
  if segment = "{tenant}" then .ok .Tenant
  else if segment = "{team}" then .ok .Team
  else if segment.toList.contains '{' || segment.toList.contains '}' then
    .error ("unsupported public_path segment " ++ segment)
  else .ok (.Literal segment)

/-- The first `{team}` stands after the first `{tenant}`. -/
def checkTeam (parsed : List RouteScopeSegment) : Except String (List RouteScopeSegment) :=
  if parsed.contains .Team then
    if !parsed.contains .Tenant then .error "public_path uses {team} without {tenant}"
    else if parsed.idxOf .Team ≤ parsed.idxOf .Tenant then
      .error "public_path must place {team} after {tenant}"
    else .ok parsed
  else .ok parsed

def parseRouteSegments (path : String) : Except String (List RouteScopeSegment) :=
  match segmentsOf path with
  | [] => .error "public_path must not be /"
  | segments => do
    let parsed ← segments.mapM parseSegment
    checkTeam parsed

/-! ## Reserved paths -/

/-- Two sets of normalized paths. -/
structure ReservedRouteSet where
  exactPaths : List String
  prefixPaths : List String

namespace ReservedRouteSet

def insertExact (path : String) (reserved : ReservedRouteSet) : ReservedRouteSet :=
  { reserved with exactPaths := reserved.exactPaths.insert (normalizePublicPath path) }

def insertPrefix (path : String) (reserved : ReservedRouteSet) : ReservedRouteSet :=
  { reserved with prefixPaths := reserved.prefixPaths.insert (normalizePublicPath path) }

def operatorExactPaths : List String :=
  ["/healthz", "/readyz", "/status", "/runtime/drain", "/runtime/resume", "/runtime/shutdown",
    "/deployments/stage", "/deployments/warm", "/deployments/activate", "/deployments/rollback",
    "/deployments/complete-drain", "/config/publish", "/cache/invalidate",
    "/observability/log-level"]

def operatorPrefixPaths : List String :=
  ["/api/onboard", "/runtime", "/deployments", "/config", "/cache", "/observability"]

def ingressPrefixes (domain : Domain) : List String :=
  ["/v1/" ++ domainName domain ++ "/ingress", "/" ++ domainName domain ++ "/ingress"]

def operatorDefaults : ReservedRouteSet :=
  let withExact := operatorExactPaths.foldl (fun set path => set.insertExact path) ⟨[], []⟩
  (operatorPrefixPaths ++ [.Messaging, .Events, .Secrets, .OAuth].flatMap ingressPrefixes).foldl
    (fun set path => set.insertPrefix path) withExact

def conflictsWith (reserved : ReservedRouteSet) (publicPath : String) : Bool :=
  let normalized := normalizePublicPath publicPath
  reserved.exactPaths.contains normalized
    || reserved.prefixPaths.any fun front => pathHasPrefix normalized front

end ReservedRouteSet

/-! ## Validation -/

def reservedFailure (route : StaticRouteDescriptor) : String :=
  "static route " ++ route.routeId ++ " conflicts with reserved operator path space at "
    ++ route.publicPath

def duplicateFailure (route : StaticRouteDescriptor) (existing : String) : String :=
  "static route " ++ route.routeId ++ " duplicates public_path " ++ route.publicPath
    ++ " already claimed by " ++ existing

def overlapFailure (left right : StaticRouteDescriptor) : String :=
  "static routes " ++ left.routeId ++ " (" ++ left.publicPath ++ ") and " ++ right.routeId ++ " ("
    ++ right.publicPath ++ ") overlap ambiguously"

/-- The failures of the routes one by one, with the public paths seen before. -/
def claimFailures (reserved : ReservedRouteSet) :
    List (String × String) → List StaticRouteDescriptor → List String
  | _, [] => []
  | seen, route :: rest =>
    (if reserved.conflictsWith route.publicPath then [reservedFailure route] else [])
      ++ ((seen.lookup route.publicPath).map (duplicateFailure route)).toList
      ++ claimFailures reserved ((route.publicPath, route.routeId) :: seen) rest

/-- The failures of the routes pair by pair. -/
def overlapFailures : List StaticRouteDescriptor → List String
  | [] => []
  | left :: rest =>
    (rest.filter fun right => pathsOverlap left.publicPath right.publicPath).map (overlapFailure left)
      ++ overlapFailures rest

def validatePlan (plan : StaticRoutePlan) (reserved : ReservedRouteSet) : StaticRoutePlan :=
  { plan with
    blockingFailures :=
      plan.blockingFailures ++ claimFailures reserved [] plan.routes ++ overlapFailures plan.routes }

end StaticRoutes
