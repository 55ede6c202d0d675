import GreenticOperator.Domains
import GreenticOperator.Lib.Text

/-!
# The ingress routes

`src/demo/http_ingress.rs`. An ingress request names its domain, provider, tenant, team and
handler in the segments of its path.
-/

namespace HttpIngress

open Domains

structure ParsedIngressRoute where
  domain : Domain
  provider : String
  tenant : String
  team : String
  handler : Option String
deriving DecidableEq

/-- The domain of a name in any case. The source makes the name small by Unicode's rules; the
only character outside ASCII whose small letter is in it is the Kelvin sign, and no domain
has a `k`. -/
def parseDomain (value : String) : Option Domain :=
  [.Messaging, .Events, .Secrets, .OAuth].find? fun domain =>
    Text.eqIgnoreAsciiCase value (domainName domain)

def parseV1Route : List String → Option ParsedIngressRoute
  | _ :: domain :: ingress :: provider :: tenant :: rest =>
    if Text.eqIgnoreAsciiCase ingress "ingress" then
      (parseDomain domain).map fun domain =>
        { domain, provider, tenant, team := rest[0]?.getD "default", handler := rest[1]? }
    else none
  | _ => none

def parseLegacyRoute : List String → Option ParsedIngressRoute
  | domain :: ingress :: provider :: tenant :: rest =>
    if Text.eqIgnoreAsciiCase ingress "ingress" then
      (parseDomain domain).map fun domain =>
        { domain, provider, tenant, team := rest[0]?.getD "default", handler := rest[1]? }
    else none
  | _ => none

/-- After the version, a route is read like one without it. -/
theorem parseV1Route_cons (first : String) (segments : List String) :
    parseV1Route (first :: segments) = parseLegacyRoute segments := by
  match segments with
  | [] | [_] | [_, _] | [_, _, _] | _ :: _ :: _ :: _ :: _ => rfl

def parseRouteSegments (path : String) : Option ParsedIngressRoute :=
  let segments :=
    (Text.split '/' (Text.trimStartMatches '/' path)).filter fun segment => !segment.isEmpty
  match segments with
  | [] => none
  | first :: _ =>
    if Text.eqIgnoreAsciiCase first "v1" then parseV1Route segments else parseLegacyRoute segments

end HttpIngress
