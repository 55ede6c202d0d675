import GreenticOperator.Lib.JsonNodes
import GreenticOperator.RunnerHost.Host

/-!
# OAuth placeholders in adaptive cards

`src/cards.rs`. A payload may carry an adaptive card as JSON text. Where the text contains a placeholder,
an action of the card is to open the start of a sign-in, or the payload asks for it, a capability is called,
and the texts of the card are rewritten by what it answers.
-/

namespace Cards

open Json Json.Value

/-- JSON values and their texts. Writing may fail. -/
structure JsonText where
  fromSlice : List UInt8 → Option Value
  fromStr : String → Option Value
  toVec : Value → Except String (List UInt8)
  toText : Value → Except String String

def startUrlPlaceholder : String := "\x7b\x7boauth.start_url\x7d\x7d"

def connectionNamePlaceholder : String := "\x7b\x7boauth.teams.connectionName\x7d\x7d"

def startMarker : String := "oauth://start"

def hasPlaceholder (text : String) : Bool :=
  Text.contains startUrlPlaceholder text || Text.contains connectionNamePlaceholder text

def isTeamsProvider (providerType : String) : Bool := Text.contains "teams" (Text.toAsciiLowercase providerType)

/-! ## Reading a payload -/

def isOpenUrl (itemType : String) : Bool := Text.eqIgnoreAsciiCase itemType "Action.OpenUrl"

/-- An action that opens the start of a sign-in. -/
def isOauthStart (fields : List (String × Value)) : Bool :=
  ((fields.lookup "type").bind asStr).any isOpenUrl && (fields.lookup "url").bind asStr == some startMarker

def isStartAction : Value → Bool
  | .object fields => isOauthStart fields
  | _ => false

def containsOauthStartMarker (value : Value) : Bool := anyNode isStartAction value

/-- A payload with a card. -/
structure Found where
  payload : Value
  raw : String
  card : Value
deriving DecidableEq

/-- The card of a payload; a payload that is no JSON object or has no card is none to be rendered. -/
def findCard (json : JsonText) (payloadBytes : List UInt8) : Except String (Option Found) :=
  match json.fromSlice payloadBytes with
  | none => .ok none
  | some payload =>
    match payload.asObject with
    | none => .ok none
    | some _ =>
      match (payload.pointer "/metadata/adaptive_card").bind asStr with
      | none => .ok none
      | some raw =>
        match json.fromStr raw with
        | none => .error "invalid metadata.adaptive_card JSON"
        | some card => .ok (some ⟨payload, raw, card⟩)

namespace Found

def requestSeed (found : Found) : Option (List (String × Value)) :=
  (found.payload.pointer "/metadata/oauth_card_request").bind asObject

/-- The placeholders are looked for in the text of the card, the action in the card that was read. -/
def needsResolving (found : Found) : Bool :=
  hasPlaceholder found.raw || containsOauthStartMarker found.card || found.requestSeed.isSome

end Found

/-! ## The request -/

/-- A field that a request lacks is taken from the payload, where it is there as a text. -/
def insertMissing (key : String) (text : Option String) (request : List (String × Value)) : List (String × Value) :=
  if (request.lookup key).isSome then request
  else match text with
    | some text => insertField key (.string text) request
    | none => request

def buildCardResolveRequest (seed : Option (List (String × Value))) (payload : Value) (providerType : String) : Value :=
  let textAt := fun first second => ((payload.pointer first).or (payload.pointer second)).bind asStr
  let request := insertMissing "provider_type" (some providerType) (seed.getD [])
  let request := insertMissing "tenant" (textAt "/tenant/tenant_id" "/tenant/tenant") request
  let request := insertMissing "team" (textAt "/tenant/team_id" "/tenant/team") request
  .object (insertMissing "provider_id" (textAt "/metadata/oauth_provider_id" "/metadata/provider_id") request)

/-! ## Rewriting the card -/

/-- What the capability answered; the name of a connection counts for Teams only. -/
structure Resolution where
  startUrl : String
  connectionName : Option String
deriving DecidableEq

def resolutionOf (providerType : String) (resolved : Value) : Except String Resolution :=
  match (resolved.get "start_url").bind asStr with
  | none => .error "oauth.card.resolve output missing start_url"
  | some startUrl =>
    let name := ((resolved.pointer "/teams/connectionName").or (resolved.pointer "/teams/connection_name")).bind asStr
    .ok { startUrl, connectionName := if isTeamsProvider providerType then name else none }

namespace Resolution

def rewriteText (resolution : Resolution) (text : String) : String :=
  Text.replace connectionNamePlaceholder (resolution.connectionName.getD "")
    (Text.replace startUrlPlaceholder resolution.startUrl text)

mutual

def rewriteOauthFields (resolution : Resolution) : Value → Value
  | .object fields => .object (rewriteEntries resolution (isOauthStart fields) fields)
  | .array values => .array (rewriteItems resolution values)
  | .string text => .string (resolution.rewriteText text)
  | .null => .null
  | .bool b => .bool b
  | .number n => .number n

/-- The entries of an object, of which it is known whether it opens the start. A text that is put in is
rewritten as every other one. -/
def rewriteEntries (resolution : Resolution) (start : Bool) : List (String × Value) → List (String × Value)
  | [] => []
  | (key, v) :: rest =>
    if start && key == "url" then
      (key, .string (resolution.rewriteText resolution.startUrl)) :: rewriteEntries resolution start rest
    else if key == "connectionName" && v.asStr == some connectionNamePlaceholder then
      match resolution.connectionName with
      | some name => (key, .string (resolution.rewriteText name)) :: rewriteEntries resolution start rest
      | none => rewriteEntries resolution start rest
    else (key, rewriteOauthFields resolution v) :: rewriteEntries resolution start rest

def rewriteItems (resolution : Resolution) : List Value → List Value
  | [] => []
  | v :: rest => rewriteOauthFields resolution v :: rewriteItems resolution rest

end

end Resolution

/-! ## The payload with the rewritten card -/

def downgrade : Value :=
  .ofFields [("mode", .string "non_native_fallback"), ("reason", .string "teams_connection_name_unavailable")]

namespace Found

/-- The metadata with the text of the card, what was resolved, and the note that no connection has a name. -/
def recordIn (found : Found) (resolution : Resolution) (text : String) (resolved : Value)
    (metadata : List (String × Value)) : List (String × Value) :=
  let metadata := insertField "oauth_card_resolved" resolved (insertField "adaptive_card" (.string text) metadata)
  if Text.contains connectionNamePlaceholder found.raw && resolution.connectionName.isNone then
    insertField "oauth_card_downgrade" downgrade metadata
  else metadata

def recorded (found : Found) (resolution : Resolution) (text : String) (resolved : Value) : Value :=
  match found.payload with
  | .object fields =>
    match fields.lookup "metadata" with
    | some (.object metadata) =>
      .object (insertField "metadata" (.object (found.recordIn resolution text resolved metadata)) fields)
    | _ => found.payload
  | _ => found.payload

def rewritten (json : JsonText) (providerType : String) (found : Found) (resolved : Value) :
    Except String (List UInt8) := do
  let resolution ← resolutionOf providerType resolved
  let text ← json.toText (resolution.rewriteOauthFields found.card)
  json.toVec (found.recorded resolution text resolved)

end Found

def renderIfNeeded (json : JsonText) (providerType : String) (payloadBytes : List UInt8)
    (resolveCapability : String → String → List UInt8 → Except String Value) : Except String (List UInt8) := do
  match ← findCard json payloadBytes with
  | none => return payloadBytes
  | some found =>
    if !found.needsResolving then return payloadBytes
    else do
      let input ← json.toVec (buildCardResolveRequest found.requestSeed found.payload providerType)
      let resolved ← resolveCapability Capabilities.capOauthCardV1 "oauth.card.resolve" input
      found.rewritten json providerType resolved

/-- The renderer of the runner host: the request that is needed, and the payload once it is answered. -/
def renderer (json : JsonText) : RunnerHost.CardRenderer where
  request providerType payloadBytes := do
    match ← findCard json payloadBytes with
    | none => return none
    | some found =>
      if !found.needsResolving then return none
      else return some (← json.toVec (buildCardResolveRequest found.requestSeed found.payload providerType))
  rewrite providerType payloadBytes resolved := do
    match ← findCard json payloadBytes with
    | none => return payloadBytes
    | some found => found.rewritten json providerType resolved

end Cards
