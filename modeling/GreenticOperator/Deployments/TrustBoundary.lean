import GreenticOperator.HttpUtil

/-!
# The trust boundary of the deployment routes

`src/deployments/api.rs`. A request to
`/deployments/*` is refused before its body is read unless it comes from this machine: the
peer is loopback, no header says that it was forwarded, and its `Origin`, where it has one,
names this machine.
-/

namespace Deployments

open HttpUtil

inductive IpAddr
  | v4 (a b c d : UInt8)
  | v6 (address : BitVec 128)
deriving DecidableEq

/-- Every address that starts with 127, and `::1`. -/
def IpAddr.isLoopback : IpAddr → Bool
  | v4 a _ _ _ => a == 127
  | v6 address => address == 1

/-- A peer's address, with the text it is shown as. -/
structure SocketAddr where
  ip : IpAddr
  text : String

abbrev HeaderValue := List UInt8

/-- A value's text, where every byte is visible ASCII or a tab. -/
def HeaderValue.toStr (v : HeaderValue) : Option String :=
  if v.all fun b => (32 ≤ b && b < 127) || b == 9 then
    some (String.ofList (v.map fun b => Char.ofNat b.toNat))
  else none

/-- The headers of a request. Names are kept in small letters; a name may have any number
of values. -/
structure HeaderMap where
  entries : List (String × HeaderValue)
  lower : ∀ entry ∈ entries, Text.toAsciiLowercase entry.1 = entry.1

namespace HeaderMap

/-- The names, each once. -/
def keys (headers : HeaderMap) : List String := (headers.entries.map Prod.fst).eraseDups

/-- Every value of a name. -/
def getAll (headers : HeaderMap) (name : String) : List HeaderValue :=
  (headers.entries.filter (·.1 == name)).map Prod.snd

/-- The first value of a name. -/
def get (headers : HeaderMap) (name : String) : Option HeaderValue := (headers.getAll name).head?

end HeaderMap

structure DeploymentsState where
  loopbackOnly : Bool

def forwardingMarkerHeaders : List String :=
  ["x-forwarded-for", "x-forwarded-host", "x-forwarded-proto", "x-real-ip", "forwarded"]

def isForwardingMarker (name : String) : Bool :=
  forwardingMarkerHeaders.contains name || Text.startsWith "cf-" name

def forwardingMarker (headers : HeaderMap) : Option String :=
  headers.keys.find? isForwardingMarker

/-- What follows the scheme of an origin; all of it where there is none. -/
def afterScheme (origin : String) : String :=
  ((Text.stripPrefix "http://" origin).or (Text.stripPrefix "https://" origin)).getD origin

/-- The host of an authority without its port. -/
def hostNoPort (host : String) : String :=
  match Text.stripPrefix "[" host with
  | some stripped => Text.firstPart ']' stripped
  | none => Text.firstPart ':' host

def loopbackHosts : List String := ["localhost", "127.0.0.1", "::1", "0:0:0:0:0:0:0:1"]

def isLoopbackOrigin (origin : String) : Bool :=
  loopbackHosts.contains (hostNoPort (Text.firstPart '/' (afterScheme origin)))

def peerRefused (peerAddr : SocketAddr) : HttpResponse :=
  errorResponse 403 ("/deployments/* refused: peer " ++ peerAddr.text
    ++ " is not loopback; mTLS / admin admission is Phase D (plan §B4b)")

def markerRefused (marker : String) : HttpResponse :=
  errorResponse 403 ("/deployments/* refused: request bears forwarding marker `" ++ marker
    ++ "` (proxied/tunneled traffic); direct local callers only until mTLS lands (plan §B4b)")

def originRefused (origin : String) : HttpResponse :=
  errorResponse 403 ("/deployments/* refused: Origin `" ++ origin
    ++ "` is not loopback; cross-origin browser callers are blocked until mTLS lands")

def checkTrustBoundary (peerAddr : SocketAddr) (headers : HeaderMap) (state : DeploymentsState) :
    Except HttpResponse Unit := do
  if state.loopbackOnly then
    if !peerAddr.ip.isLoopback then
      throw (peerRefused peerAddr)
    if let some marker := forwardingMarker headers then
      throw (markerRefused marker)
  if let some origin := (headers.get "origin").bind HeaderValue.toStr then
    if !isLoopbackOrigin origin then
      throw (originRefused origin)

end Deployments
