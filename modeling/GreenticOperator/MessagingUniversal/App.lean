import GreenticOperator.HttpIngress.TelegramForm
import GreenticOperator.HttpIngress.Types
import GreenticOperator.Lib.Cbor
import GreenticOperator.Lib.Disk

/-!
# The app pack

`src/messaging_universal/app.rs`. The loader of app packs reads the manifest on its own: the pack id
at the top level, as a text or an index, and the flows whose ids are texts. A message goes through one
flow of the pack; what comes out is read from the transcript of the run.
-/

namespace MessagingUniversal

open Cbor

structure AppFlowInfo where
  id : String
  kind : String
deriving DecidableEq, Repr

structure AppPackInfo where
  packId : String
  flows : List AppFlowInfo
deriving DecidableEq, Repr

def extractTextOrSymbol (value : CborValue) (key symbolTable : String) : Option String :=
  match value with
  | .map map =>
    match mapGet map key with
    | some (.text text) => some text
    | some (.integer idx) =>
      match mapGet map "symbols" with
      | some (.map symMap) =>
        match mapGet symMap symbolTable with
        | some (.array entries) =>
          match entries[wrapUsize idx]? with
          | some (.text resolved) => some resolved
          | _ => none
        | _ => none
      | _ => none
    | _ => none
  | _ => none

def extractTextFromMap (map : Entries) (key : String) : Option String :=
  match mapGet map key with
  | some (.text text) => some text
  | _ => none

def parseFlowEntry : CborValue → Option AppFlowInfo
  | .map map => do
    let id ← extractTextFromMap map "id"
    let kind :=
      match mapGet map "flow" with
      | some (.map flowMap) => extractTextFromMap flowMap "kind"
      | _ => extractTextFromMap map "kind"
    return { id, kind := kind.getD "messaging" }
  | _ => none

def extractFlows : CborValue → List AppFlowInfo
  | .map map =>
    match mapGet map "flows" with
    | some (.array entries) => entries.filterMap parseFlowEntry
    | _ => []
  | _ => []

/-- What is loaded of the pack at a path whose manifest decodes to a value. -/
def loadAppPackInfo (packPath : String) (value : CborValue) : Except String AppPackInfo :=
  match extractTextOrSymbol value "pack_id" "pack_ids" with
  | some packId => .ok { packId, flows := extractFlows value }
  | none => .error ("pack manifest missing pack id in " ++ packPath)

/-! ## The pack and the flow of a message -/

/-- The places where the app pack of a tenant and team may be, the nearest first. -/
def appPackPlaces (bundle tenant : String) (team : Option String) : List String :=
  let packs := Disk.join bundle "packs"
  (team.map fun team => Disk.join (Disk.join (Disk.join packs tenant) team) "default.gtpack").toList
    ++ [Disk.join (Disk.join packs tenant) "default.gtpack", Disk.join packs "default.gtpack"]

def resolveAppPackPath (present : String → Bool) (bundle tenant : String) (team overridePath : Option String) :
    Except String String :=
  match overridePath with
  | some path =>
    if present path then .ok path else .error ("APP_PACK_NOT_FOUND override path " ++ path ++ " does not exist")
  | none =>
    match (appPackPlaces bundle tenant team).find? present with
    | some path => .ok path
    | none => .error ("APP_PACK_NOT_FOUND; tried " ++ String.intercalate ", " (appPackPlaces bundle tenant team))

/-- The default flow, or else the one messaging flow. -/
def selectAppFlow (info : AppPackInfo) : Except String AppFlowInfo :=
  match info.flows.find? (·.id == "default") with
  | some flow => .ok flow
  | none =>
    match info.flows.filter fun flow => Text.eqIgnoreAsciiCase flow.kind "messaging" with
    | [flow] => .ok flow
    | _ => .error ("APP_FLOW_NOT_RESOLVED; available flows: " ++ String.intercalate ", " (info.flows.map AppFlowInfo.id))

/-! ## What comes out of a flow -/

section Run

open Json HttpIngress

/-- What the operator reads of a message besides its text and its metadata. -/
structure Address where
  id : String
  sessionId : String
  receivers : List String
  rest : List (String × Value)

abbrev Message := Envelope Address

/-- How messages and JSON texts are read and written. -/
structure MessageCodec where
  fromStr : String → Option Value
  toText : Value → String
  toValue : Message → Value
  readMessage : Value → Option Message

/-- The outputs that a line of a transcript has, and of which node. -/
def transcriptOutputs (codec : MessageCodec) (line : String) : Option (Value × Option String) := do
  let value ← codec.fromStr line
  let outputs ← value.get "outputs"
  if outputs matches .null then none
  else return (outputs, (value.get "node_id").bind Value.asStr)

/-- The last outputs of the node that is asked for, or else the first outputs of all. -/
def collectTranscriptOutputs (codec : MessageCodec) (transcript : Option (Except String String))
    (targetNodeId : Option String) : Except String (Option Value) :=
  match transcript with
  | none => .ok none
  | some (.error err) => .error err
  | some (.ok contents) =>
    let all := (Text.lines contents).filterMap (transcriptOutputs codec)
    let targeted := all.filter fun outputs => targetNodeId.isSome && outputs.2 == targetNodeId
    .ok ((targeted.getLast?.or all.head?).map Prod.fst)

def parseEnvelopeArray (codec : MessageCodec) (array : List Value) : Except String (List Message) :=
  array.mapM fun element =>
    match codec.readMessage element with
    | some message => .ok message
    | none => .error "app flow output array contains invalid channel envelope"

/-- The text of the first element of a card, or another one. -/
def cardSummary (card : Value) (otherwise : String) : String :=
  let first := ((card.get "body").bind Value.asArray).bind List.head?
  ((first.bind fun item => item.get "text").bind Value.asStr).getD otherwise

/-- The text of an output that is no more than a text. -/
def outputText (value : Value) : Option String :=
  (((value.get "payload").bind fun payload => payload.get "text").bind Value.asStr).or
    (((value.get "text").bind Value.asStr).or value.asStr)

/-- The card that an output has rendered. -/
def renderedCard (value : Value) : Option Value :=
  (value.get "renderedCard").filter fun card => !(card matches .null)

def parseEnvelopes (codec : MessageCodec) (value : Value) (ingress : Message) : Except String (List Message) :=
  match value.asArray, (value.get "events").bind Value.asArray, value.get "message", renderedCard value,
      outputText value with
  | some array, _, _, _, _ => parseEnvelopeArray codec array
  | none, some events, _, _, _ => parseEnvelopeArray codec events
  | none, none, some message, _, _ =>
    match codec.readMessage message with
    | some message => .ok [message]
    | none => .error "app flow message payload is not a ChannelMessageEnvelope"
  | none, none, none, some card, _ =>
    .ok [{ ingress.insert "adaptive_card" (codec.toText card) with text := some (cardSummary card "Adaptive Card") }]
  | none, none, none, none, some text => .ok [{ ingress with text := some text }]
  | none, none, none, none, none => .error "app flow output did not produce envelope(s)"

/-- What a message leads to in a flow. The run of the flow is given with the transcript it leaves. -/
def runAppFlow (codec : MessageCodec) (run : Except String (Option (Except String String))) (envelope : Message) :
    Except String (List Message) := do
  let transcript ← run
  let targetNode := (envelope.meta "routeToCardId").or (envelope.meta "toCardId")
  match ← collectTranscriptOutputs codec transcript targetNode with
  | some value => parseEnvelopes codec value envelope
  | none => throw "app flow produced no outputs"

end Run

/-!
## What the ingress of a messaging provider is asked and answers

`src/messaging_universal/dto.rs`. Bodies are base64 texts here. The status of an answer is an
integer of 16 bits, and an answer with any other number is none.
-/

section

open Json HttpIngress

structure HttpInV1 where
  v : Nat
  provider : String
  route : Option String
  bindingId : Option String
  tenantHint : Option String
  teamHint : Option String
  method : String
  path : String
  query : List (String × String)
  headers : List (String × String)
  bodyB64 : String
deriving DecidableEq, Repr

/-- Pairs that are left out where there are none. -/
def pairsField (name : String) (pairs : List (String × String)) : List (String × Value) :=
  if pairs.isEmpty then [] else [(name, pairsToValue pairs)]

def HttpInV1.toValue (request : HttpInV1) : Value :=
  .ofFields ([("v", .ofNat request.v), ("provider", .string request.provider)]
    ++ Value.present "route" (request.route.map Value.string)
    ++ Value.present "binding_id" (request.bindingId.map Value.string)
    ++ Value.present "tenant_hint" (request.tenantHint.map Value.string)
    ++ Value.present "team_hint" (request.teamHint.map Value.string)
    ++ [("method", .string request.method), ("path", .string request.path)]
    ++ pairsField "query" request.query ++ pairsField "headers" request.headers
    ++ [("body_b64", .string request.bodyB64)])

structure HttpOutV1 where
  v : Nat
  status : UInt16
  headers : List (String × String)
  bodyB64 : Option String
  events : List Value

end

end MessagingUniversal
