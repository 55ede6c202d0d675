import GreenticOperator.Lib.Threads
import GreenticOperator.MessagingUniversal.App
import GreenticOperator.MessagingUniversal.Egress

/-!
# The messaging pipeline

`route_messaging_envelopes` of `src/demo/http_ingress.rs`. Every request with messages gets a thread of its
own, and the threads share the forms of chats, the token files of tenants and the activities of
conversations. A thread first settles the forms that its envelopes answer, one envelope after another; then
it answers each envelope, and sends the replies to it before it answers the next.

A step of a thread is as much as it does with at most one look at what is shared. What GitHub, the packs, the
flows and the providers say is given with each step, for it may be another at each.
-/

namespace HttpIngress

open Json MessagingUniversal RunnerHost

/-! ## The surroundings -/

/-- The tools for GitHub, and the cards made of their results (`src/demo/github_mcp.rs`). -/
structure GithubMcp where
  callTool : String → Value → String → Except String Value
  renderCard : String → Value → String → Value
  getAuthenticatedUser : String → Except String String
  buildConnectedCard : String → Value

/-- How the write of a token file ends; one that is torn leaves some other text. -/
inductive TokenWrite
  | done
  | refused
  | torn (left : String)
deriving DecidableEq

/-- What a step meets: the cards of a pack by their keys, the common file of secrets, the runs of flows, what
the provider says of an input, and a fresh id. -/
structure Outside where
  readCard : String → String → Option Value
  secretsEnv : Option String
  github : GithubMcp
  runFlow : String → String → String → Message → Except String (Option (Except String String))
  reply : Op → Value → Except String FlowOutcome
  canonicalType : String
  tokenWrite : TokenWrite
  newId : String
  now : String

/-- What the threads share: pending forms by chat, token files by tenant, activities by conversation. -/
structure Shared where
  forms : TelegramFormStore
  tokens : String → Option String
  activities : String → List Value

/-- What becomes of a reply: it is sent, it is put to the activities, or nothing is done with it. -/
inductive Dispatch
  | sent (input : Value) (acknowledged : Bool)
  | injected (activity : Value)
  | skipped

inductive Event
  | took (chatId : String) (form : TelegramFormState)
  | prepared (original : Message) (taken : Option TelegramFormState) (result : Message)
  | wrote (tenant contents : String)
  | called (tenant : String) (common : Option String) (token : String)
  | verified (tenant token : String)
  | answered (envelope : Message) (replies : List Message)
  | stored (chatId : String) (form : TelegramFormState)
  | dispatched (reply : Message) (how : Dispatch)

inductive Phase
  | preparing (todo done : List Message)
  | answering (todo : List Message)
  | sending (replies todo : List Message)
  | finished
  | failed (err : String)
  | panicked

/-- A call of `route_messaging_envelopes` on a thread. -/
structure Pipeline where
  provider : String
  ctx : OperatorContext
  appPackPath : Option String
  appFlow : Option (AppPackInfo × AppFlowInfo)
  hasForms : Bool
  hasActivities : Bool
  batch : List Message
  phase : Phase

/-- The start of a thread: the pack of the tenant and team, and its flow where it has one. -/
def routeMessagingEnvelopes (present : String → Bool) (loadInfo : String → Except String AppPackInfo)
    (bundle provider : String) (ctx : OperatorContext) (envelopes : List Message) (hasActivities hasForms : Bool) :
    Pipeline :=
  let appPackPath := (resolveAppPackPath present bundle ctx.tenant ctx.team none).toOption
  let appFlow := do
    let info ← (loadInfo (← appPackPath)).toOption
    let flow ← (selectAppFlow info).toOption
    return (info, flow)
  { provider, ctx, appPackPath, appFlow, hasForms, hasActivities
    batch := envelopes
    phase := .preparing envelopes [] }

/-! ## Forms -/

/-- The form that an envelope takes, of which chat. -/
def takenForm (p : Pipeline) (forms : TelegramFormStore) (envelope : Message) : Option (String × TelegramFormState) :=
  if p.hasForms && hasPendingForm p.hasForms envelope then do
    let chatId ← envelope.meta "chat_id"
    return (chatId, ← (forms.take chatId).1)
  else none

/-- The form step of one envelope. Where the thread panics, the form is taken already. -/
def prepare (p : Pipeline) (envelope : Message) (todo done : List Message) (s : Shared) :
    Threads.Outcome Pipeline Shared Event :=
  let taken := takenForm p s.forms envelope
  let took := (taken.map fun entry => Event.took entry.1 entry.2).toList
  match preprocessOne (if p.hasForms then some s.forms else none) envelope with
  | some (result, store) =>
    { thread := { p with phase := .preparing todo (done ++ [result]) }
      shared := { s with forms := store.getD s.forms }
      done := took ++ [.prepared envelope (taken.map Prod.snd) result] }
  | none =>
    { thread := { p with phase := .panicked }
      shared := { s with forms := (taken.map fun entry => (s.forms.take entry.1).2).getD s.forms }
      done := took }

/-! ## Tokens -/

def tokenOfLine (line : String) : Option String :=
  let line := Text.trim line
  if Text.startsWith "GITHUB_TOKEN=" line || Text.startsWith "github_token=" line then
    ((Text.splitOnce '=' line).2.map Text.trim).filter (· ≠ "")
  else none

/-- The token in the secrets that are common to all tenants. -/
def commonToken (o : Outside) : Option String :=
  o.secretsEnv.bind fun contents => (Text.lines contents).findSome? tokenOfLine

def readGithubToken (o : Outside) (tenant : String) (s : Shared) : Option String :=
  (commonToken o).or (((s.tokens tenant).map Text.trim).filter (· ≠ ""))

/-- What is written to the file of a tenant. -/
def writtenToken (write : TokenWrite) (token : String) : Option String :=
  match write with
  | .done => some (Text.trim token)
  | .refused => none
  | .torn left => some left

def saveGithubToken (tenant : String) (contents : Option String) (s : Shared) : Shared :=
  match contents with
  | some contents => { s with tokens := Function.update s.tokens tenant (some contents) }
  | none => s

/-! ## Cards -/

def element (type : String) (fields : List (String × Value)) : Value := .ofFields (("type", .string type) :: fields)

def textBlock (text : String) (fields : List (String × Value)) : Value :=
  element "TextBlock" (("text", .string text) :: fields)

def attention (items : List Value) : Value :=
  element "Container" [("style", .string "attention"), ("items", .array items)]

def submitAction (title : String) (fields : List (String × Value)) (data : List (String × String)) : Value :=
  element "Action.Submit" ([("title", .string title)] ++ fields
    ++ [("data", .ofFields (data.map fun entry => (entry.1, .string entry.2)))])

def adaptiveCard (body actions : List Value) : Value :=
  element "AdaptiveCard" [("version", .string "1.3"),
    ("$schema", .string "http://adaptivecards.io/schemas/adaptive-card.json"),
    ("body", .array body), ("actions", .array actions)]

def tokenInput (placeholder : String) : Value :=
  element "Input.Text" [("id", .string "github_token"), ("placeholder", .string placeholder)]

def headline (text : String) : Value :=
  textBlock text [("size", .string "large"), ("weight", .string "bolder")]

def smallText (text : String) : Value := textBlock text [("wrap", .bool true), ("size", .string "small")]

def mcpErrorCard (err : String) : Value :=
  adaptiveCard [attention [headline "❌ Error", smallText err]]
    [submitAction "← Back" [] [("routeToCardId", "GH-connected")]]

def authRequiredCard : Value :=
  adaptiveCard
    [attention [headline "🔑 Authentication Required",
        smallText "No GitHub token found. Please set a Personal Access Token."],
      element "Container" [("spacing", .string "medium"), ("items", .array
        [textBlock "GitHub Token (PAT)" [("size", .string "small"), ("weight", .string "bolder")],
          tokenInput "ghp_..."])]]
    [submitAction "🔑 Save Token" [("style", .string "positive")] [("action", "save_token")],
      submitAction "← Back" [] [("routeToCardId", "GH-welcome")]]

def tokenInvalidCard (err : String) : Value :=
  adaptiveCard [attention [headline "❌ Token Invalid", smallText ("Could not authenticate: " ++ err)]]
    [submitAction "🔑 Try Again" [] [("routeToCardId", "GH-oauth-personal")],
      submitAction "← Back" [] [("routeToCardId", "GH-welcome")]]

def fact (title value : String) : Value := .ofFields [("title", .string title), ("value", .string value)]

def oauthPersonalCard : Value :=
  adaptiveCard
    [element "Container" [("style", .string "emphasis"), ("items", .array
        [textBlock "🔐 Connect GitHub (Personal)"
            [("size", .string "large"), ("weight", .string "bolder"), ("wrap", .bool true)],
          textBlock "Enter your Personal Access Token (PAT) to connect your GitHub account."
            [("size", .string "small"), ("isSubtle", .bool true), ("wrap", .bool true), ("spacing", .string "none")]])],
      element "Container" [("spacing", .string "large"), ("items", .array
        [textBlock "GitHub Personal Access Token" [("size", .string "small"), ("weight", .string "bolder")],
          tokenInput "ghp_xxxxxxxxxxxxxxxxxxxx",
          textBlock "Create a token at github.com → Settings → Developer settings → Personal access tokens"
            [("size", .string "small"), ("isSubtle", .bool true), ("wrap", .bool true), ("spacing", .string "small")]])],
      element "Container" [("style", .string "accent"), ("spacing", .string "medium"), ("items", .array
        [textBlock "Recommended scopes:" [("weight", .string "bolder"), ("size", .string "small")],
          element "FactSet" [("facts", .array
            [fact "✅ repo" "Full repository access", fact "✅ read:user" "Read user profile",
              fact "✅ notifications" "Access notifications"])]])]]
    [submitAction "🔑 Save & Connect" [("style", .string "positive")] [("action", "save_token")],
      submitAction "← Back" [] [("routeToCardId", "GH-welcome"), ("step", "back")]]

/-! ## Replies -/

section Answer

variable (codec : MessageCodec) (o : Outside) (p : Pipeline)

def Envelope.renamed (newId : String) (envelope : Message) : Message :=
  { envelope with others := { envelope.others with id := newId } }

def buildCardReply (envelope : Message) (card : Value) (cardKey : String) : Message :=
  Envelope.renamed o.newId
    { envelope.insert "adaptive_card" (codec.toText card) with text := some (cardSummary card cardKey) }

def echoFallback (envelope : Message) : Message :=
  Envelope.renamed o.newId { envelope with text := some ("[echo] " ++ envelope.text.getD "") }

def runAppFlowSafe (packPath packId flowId : String) (envelope : Message) : List Message :=
  match runAppFlow codec (o.runFlow packPath packId flowId envelope) envelope with
  | .ok outputs => outputs
  | .error _ => [envelope]

/-- The flow of the pack where there is one, or else an echo. -/
def flowOrEcho (packPath : String) (envelope : Message) : List Message :=
  match p.appFlow with
  | some (info, flow) => runAppFlowSafe codec o packPath info.packId flow.id envelope
  | none => [echoFallback o envelope]

/-- The card of the pack, or what there is for it. -/
def cardOr (packPath key : String) (envelope : Message) (otherwise : List Message) : List Message :=
  match o.readCard packPath key with
  | some card => [buildCardReply codec o envelope card key]
  | none => otherwise

/-- The arguments of a tool: those of a new issue are put together from the fields of its form. -/
def mcpArgs (tool : String) (envelope : Message) : Value :=
  if tool = "create_issue" then
    let repo : List (String × Value) :=
      match envelope.meta "repo_choice", envelope.meta "repo" with
      | some choice, _ =>
        match Text.splitOnce ':' choice with
        | (owner, some repo) => [("owner", .string owner), ("repo", .string repo)]
        | _ => []
      | none, some repo => [("owner", .string ((envelope.meta "owner").getD "")), ("repo", .string repo)]
      | none, none => []
    .ofFields (repo ++ Value.present "title" ((envelope.meta "issueTitle").map Value.string)
      ++ Value.present "body" (((envelope.meta "issueBody").filter (· ≠ "")).map Value.string)
      ++ Value.present "labels" (((envelope.meta "labels").filter (· ≠ "")).map fun labels =>
        .array ((Text.split ',' labels).map Value.string)))
  else (codec.fromStr ((envelope.meta "args").getD "")).getD (.object [])

/-- What an envelope is answered, with what is done for it before. -/
structure Answer where
  shared : Shared
  events : List Event
  replies : List Message

def answerMcp (envelope : Message) (s : Shared) : Answer :=
  let tool := (envelope.meta "tool").getD ""
  let owner := (envelope.meta "owner").getD ""
  match readGithubToken o p.ctx.tenant s with
  | some token =>
    let card :=
      match o.github.callTool tool (mcpArgs codec tool envelope) token with
      | .ok result => buildCardReply codec o envelope (o.github.renderCard tool result owner) ("mcp-" ++ tool)
      | .error err => buildCardReply codec o envelope (mcpErrorCard err) "mcp-error"
    { shared := s, events := [.called p.ctx.tenant (commonToken o) token], replies := [card] }
  | none => { shared := s, events := [], replies := [buildCardReply codec o envelope authRequiredCard "auth-required"] }

def answerSaveToken (envelope : Message) (s : Shared) : Answer :=
  match (envelope.meta "github_token").filter (· ≠ "") with
  | some token =>
    let contents := writtenToken o.tokenWrite token
    let card :=
      match o.github.getAuthenticatedUser token with
      | .ok username => buildCardReply codec o envelope (o.github.buildConnectedCard username) "token-saved-connected"
      | .error err => buildCardReply codec o envelope (tokenInvalidCard err) "token-invalid"
    { shared := saveGithubToken p.ctx.tenant contents s
      events := (contents.map (Event.wrote p.ctx.tenant)).toList ++ [.verified p.ctx.tenant token]
      replies := [card] }
  | none => { shared := s, events := [], replies := [echoFallback o envelope] }

def answerConnected (envelope : Message) (s : Shared) : Answer :=
  let token := readGithubToken o p.ctx.tenant s
  { shared := s
    events := (token.map (Event.called p.ctx.tenant (commonToken o))).toList
    replies :=
      match token.bind fun token => (o.github.getAuthenticatedUser token).toOption, p.appPackPath with
      | some username, _ => [buildCardReply codec o envelope (o.github.buildConnectedCard username) "GH-connected"]
      | none, some packPath => cardOr codec o packPath "GH-welcome" envelope [echoFallback o envelope]
      | none, none => [echoFallback o envelope] }

/-- The replies that come from a pack, where neither a token nor a tool is asked for. -/
def answerFromPack (envelope : Message) : List Message :=
  match envelope.meta "routeToCardId", p.appPackPath with
  | some key, some packPath => cardOr codec o packPath key envelope (flowOrEcho codec o p packPath envelope)
  | none, some packPath => cardOr codec o packPath "GH-welcome" envelope (flowOrEcho codec o p packPath envelope)
  | _, none => [echoFallback o envelope]

def answer (envelope : Message) (s : Shared) : Answer :=
  if envelope.meta "action" = some "mcp" then answerMcp codec o p envelope s
  else if envelope.meta "action" = some "save_token" then answerSaveToken codec o p envelope s
  else if envelope.meta "routeToCardId" = some "GH-connected" then answerConnected codec o p envelope s
  else if envelope.meta "routeToCardId" = some "GH-oauth-personal" then
    { shared := s, events := [], replies := [buildCardReply codec o envelope oauthPersonalCard "GH-oauth-personal"] }
  else { shared := s, events := [], replies := answerFromPack codec o p envelope }

/-! ## Sending -/

/-- The form that a reply asks of a chat, where it is sent to Telegram and has a card with inputs. -/
def askedForm (reply : Message) : Option (String × TelegramFormState) :=
  if p.provider = "messaging-telegram" ∧ p.hasForms = true then do
    let form ← extractFormStateFromCard codec.fromStr codec.toText reply
    let chatId ← (reply.meta "chat_id").or reply.others.receivers.head?
    return (chatId, form)
  else none

def storeForm (asked : Option (String × TelegramFormState)) (s : Shared) : Shared :=
  match asked with
  | some (chatId, form) => { s with forms := s.forms.put chatId form }
  | none => s

/-- An activity of the bot in a conversation. -/
def botActivity (conversation : String) (fields : List (String × Value)) : Value :=
  .ofFields ([("type", .string "message"), ("id", .string ("bot-" ++ o.newId)),
    ("from", .ofFields [("id", .string "bot"), ("name", .string "Bot"), ("role", .string "bot")]),
    ("conversation", .ofFields [("id", .string conversation)]),
    ("recipient", .ofFields [("id", .string "user"), ("role", .string "user")]),
    ("timestamp", .string o.now)] ++ fields)

/-- The card of a reply as the attachment of an activity. -/
def attachment (reply : Message) : List (String × Value) :=
  match (reply.meta "adaptive_card").bind codec.fromStr with
  | some card =>
    [("attachments", .array [.ofFields
        [("contentType", .string "application/vnd.microsoft.card.adaptive"), ("content", card)]]),
      ("attachmentLayout", .string "list")]
  | none => []

def pushActivity (conversation : String) (activity : Value) (s : Shared) : Shared :=
  { s with activities := Function.update s.activities conversation (s.activities conversation ++ [activity]) }

/-- Whether a provider says that it has sent what it was given. -/
def acknowledged (outcome : FlowOutcome) : Bool :=
  outcome.success && ((outcome.output.bind fun output => output.get "ok").bind Value.asBool).getD false

/-- The three calls of the provider for a reply: its plan, its payload, and the sending of it. Only the last
one can fail. -/
def callProvider (base64Encode : List UInt8 → String) (reply : Message) : Value × Except String FlowOutcome :=
  let e : Egress := {
    provider := p.provider, canonicalType := o.canonicalType, ctx := { p.ctx with correlationId := none }
    sendPayloadFlag := true, dryRun := false, retries := 0
    codec := { toText := codec.toText, base64Encode, readObject := fun text => (codec.fromStr text).bind Value.asObject } }
  let message := codec.toValue reply
  let plan :=
    match renderPlan e (o.reply .renderPlan (buildRenderPlanInput message)) with
    | .ok plan => plan
    | .error _ => .object []
  let payload :=
    match encodePayload e (o.reply .encode (buildEncodeInput message plan)) with
    | .ok payload => payload
    | .error _ => fallbackPayload e message
  let input := sendPayloadInput e payload
  (input, o.reply .sendPayload input)

/-- One reply: the form it asks for is kept, and then it is sent. A card for webchat goes to the activities
and nowhere else. -/
def dispatch (base64Encode : List UInt8 → String) (reply : Message) (replies todo : List Message) (s : Shared) :
    Threads.Outcome Pipeline Shared Event :=
  let next := { p with phase := .sending replies todo }
  let conversation := reply.others.sessionId
  if p.provider = "messaging-webchat" ∧ (reply.meta "adaptive_card").isSome = true then
    if p.hasActivities then
      let activity := botActivity o conversation (attachment codec reply)
      ⟨next, pushActivity conversation activity s, [.dispatched reply (.injected activity)]⟩
    else ⟨next, s, [.dispatched reply .skipped]⟩
  else
    let asked := askedForm codec p reply
    let stored := (asked.map fun entry => Event.stored entry.1 entry.2).toList
    let (input, outcome) := callProvider codec o p base64Encode reply
    match outcome with
    | .error err => ⟨{ p with phase := .failed err }, storeForm asked s, stored⟩
    | .ok outcome =>
      let said := stored ++ [.dispatched reply (.sent input (acknowledged outcome))]
      if p.provider = "messaging-webchat" ∧ p.hasActivities = true ∧ acknowledged outcome = true then
        let text := (reply.text.filter (· ≠ "")).map Value.string
        ⟨next, pushActivity conversation (botActivity o conversation (Value.present "text" text)) (storeForm asked s),
          said⟩
      else ⟨next, storeForm asked s, said⟩

/-! ## Steps -/

def step (base64Encode : List UInt8 → String) (s : Shared) : Threads.Outcome Pipeline Shared Event :=
  match p.phase with
  | .preparing [] done => ⟨{ p with phase := .answering done }, s, []⟩
  | .preparing (envelope :: todo) done => prepare p envelope todo done s
  | .answering [] => ⟨{ p with phase := .finished }, s, []⟩
  | .answering (envelope :: todo) =>
    let answered := answer codec o p envelope s
    ⟨{ p with phase := .sending answered.replies todo }, answered.shared,
      answered.events ++ [.answered envelope answered.replies]⟩
  | .sending [] todo => ⟨{ p with phase := .answering todo }, s, []⟩
  | .sending (reply :: replies) todo => dispatch codec o p base64Encode reply replies todo s
  | .finished => ⟨p, s, []⟩
  | .failed _ => ⟨p, s, []⟩
  | .panicked => ⟨p, s, []⟩

end Answer

/-- What the threads have come to when they were begun and advanced in some order. -/
def after (codec : MessageCodec) (base64Encode : List UInt8 → String) (ops : List (Threads.Op Pipeline Outside))
    (shared : Shared) : Threads.State Pipeline Shared Event :=
  Run.run (Threads.exec fun o p s => step codec o p base64Encode s) ops (Threads.start shared)

end HttpIngress
