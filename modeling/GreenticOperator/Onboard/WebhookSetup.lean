import GreenticOperator.Lib.Json
import Mathlib.Algebra.Order.Ring.Int

/-!
# Webhooks of a provider

`src/onboard/webhook_setup.rs`. After a setup the webhook of a provider is registered with its
service, where the configuration has a public address and what the service asks for. What the
services answer is only reported.
-/

namespace Onboard

open Json

/-- How far a registration gets: to its first request, or not. -/
inductive WebhookSetup
  | skipped
  | rejected (error : String)
  | requested (url webhookUrl : String)
  | panicked
deriving DecidableEq, Repr

def stringField (config : Value) (key : String) : Option String := (config.get key).bind Value.asStr

/-- The ends of a token, which are cut at bytes. Between the bytes of a character there is no cut. -/
def tokenPreview (token : String) : Option String :=
  if (token.toList.map Char.utf8Size).sum ≤ 10 then some "***"
  else do
    let front ← Text.splitAtByte 5 token.toList
    let back ← Text.splitAtByte ((token.toList.map Char.utf8Size).sum - 4) token.toList
    return String.ofList front.1 ++ "..." ++ String.ofList back.2

def buildWebhookUrl (publicBaseUrl providerId tenant team : String) : String :=
  Text.trimEndMatches '/' publicBaseUrl ++ "/v1/messaging/ingress/" ++ providerId ++ "/" ++ tenant ++ "/" ++ team

def setupTelegramWebhook (config : Value) (webhookUrl : String) : WebhookSetup :=
  match stringField config "bot_token" with
  | none => .skipped
  | some botToken =>
    if botToken = "" then .rejected "bot_token is empty"
    else
      let apiBase := ((stringField config "api_base_url").filter fun s =>
        s ≠ "" && Text.contains "telegram.org" s).getD "https://api.telegram.org"
      match tokenPreview botToken with
      | none => .panicked
      | some _ => .requested (apiBase ++ "/bot" ++ botToken ++ "/setWebhook") webhookUrl

def setupSlackManifest (config : Value) (webhookUrl : String) : WebhookSetup :=
  let appId := (stringField config "slack_app_id").getD ""
  let configToken := (stringField config "slack_configuration_token").getD ""
  if appId = "" ∨ configToken = "" then .skipped
  else .requested "https://slack.com/api/apps.manifest.export" webhookUrl

def setupWebexWebhook (config : Value) (webhookUrl : String) : WebhookSetup :=
  let botToken := (((config.get "bot_token").or (config.get "webex_bot_token")).bind Value.asStr).getD ""
  if botToken = "" then .skipped
  else
    let apiBase := ((stringField config "api_base_url").filter (· ≠ "")).getD "https://webexapis.com/v1"
    match tokenPreview botToken with
    | none => .panicked
    | some _ => .requested (Text.trimEndMatches '/' apiBase ++ "/webhooks") webhookUrl

def tryProviderSetupWebhook (providerId tenant : String) (team : Option String) (config : Value) :
    WebhookSetup :=
  match stringField config "public_base_url" with
  | none => .skipped
  | some publicBaseUrl =>
    if publicBaseUrl = "" ∨ Text.startsWith "https://" publicBaseUrl = false then .skipped
    else
      let webhookUrl := buildWebhookUrl publicBaseUrl providerId tenant (team.getD "default")
      let providerShort := (Text.stripPrefix "messaging-" providerId).getD providerId
      if providerShort = "telegram" then setupTelegramWebhook config webhookUrl
      else if providerShort = "slack" then setupSlackManifest config webhookUrl
      else if providerShort = "webex" then setupWebexWebhook config webhookUrl
      else .skipped

end Onboard

/-!
## The webhooks of Webex

`src/onboard/webhook_setup.rs`. A tenant and a team have two webhooks, one for messages and one for
the buttons of cards. Each is looked for by its name among those that the service lists, and is made
where there is none, or gets the address where it has another.
-/

namespace Onboard.Webex

open Json Json.Value

/-- A webhook as the service keeps it. -/
structure Hook where
  id : String
  name : String
  targetUrl : String
  resource : String
  event : String
deriving DecidableEq, Repr

/-- How the service answers: with a status and a body, which is null where it is no JSON, or not at
all; and the hooks it has then. -/
structure Service where
  list : List Hook → Except String Value
  create : (name targetUrl resource event : String) → List Hook → Except String (Nat × Value) × List Hook
  update : (id name targetUrl : String) → List Hook → Except String (Nat × Value) × List Hook

def isSuccess (status : Nat) : Bool := decide (200 ≤ status) && decide (status < 300)

def isOk (result : Value) : Bool := ((result.get "ok").bind asBool).getD false

/-- What is asked for of a webhook. -/
structure Subscription where
  resource : String
  event : String
  name : String
deriving DecidableEq, Repr

def baseName (tenant team : String) : String := "greentic:" ++ tenant ++ ":" ++ team ++ ":webex"

def subscriptions (tenant team : String) : List Subscription :=
  [⟨"messages", "created", baseName tenant team⟩,
    ⟨"attachmentActions", "created", baseName tenant team ++ ":cards"⟩]

variable (service : Service)

def webexListWebhooks (hooks : List Hook) : Except String (List Value) :=
  match service.list hooks with
  | .ok parsed => .ok (((parsed.get "items").bind asArray).getD [])
  | .error err => .error ("GET /webhooks failed: " ++ err)

def webexCreateWebhookWithResource (name targetUrl resource event : String) (hooks : List Hook) : Value × List Hook :=
  match service.create name targetUrl resource event hooks with
  | (.ok (status, parsed), after) =>
    (ofFields [("ok", bool (isSuccess status)), ("webhook_url", string targetUrl),
      ("webhook_id", string ((stringField parsed "id").getD "")), ("action", string "create"),
      ("http_status", ofNat status), ("webex_response", parsed)], after)
  | (.error err, after) =>
    (ofFields [("ok", bool false), ("error", string ("POST /webhooks failed: " ++ err)),
      ("webhook_url", string targetUrl)], after)

def webexUpdateWebhook (webhookId name targetUrl : String) (hooks : List Hook) : Value × List Hook :=
  match service.update webhookId name targetUrl hooks with
  | (.ok (status, parsed), after) =>
    (ofFields [("ok", bool (isSuccess status)), ("webhook_url", string targetUrl),
      ("webhook_id", string webhookId), ("action", string "update"),
      ("http_status", ofNat status), ("webex_response", parsed)], after)
  | (.error err, after) =>
    (ofFields [("ok", bool false), ("error", string ("PUT /webhooks/" ++ webhookId ++ " failed: " ++ err)),
      ("webhook_url", string targetUrl)], after)

def webexReconcileOne (existing : List Value) (targetUrl : String) (subscription : Subscription)
    (hooks : List Hook) : Value × List Hook :=
  match existing.find? fun hook => stringField hook "name" == some subscription.name with
  | some hook =>
    let hookId := (stringField hook "id").getD ""
    let currentUrl := (stringField hook "targetUrl").getD ""
    if currentUrl = targetUrl then
      (ofFields [("ok", bool true), ("webhook_id", string hookId), ("action", string "noop")], hooks)
    else webexUpdateWebhook service hookId subscription.name targetUrl hooks
  | none =>
    webexCreateWebhookWithResource service subscription.name targetUrl subscription.resource subscription.event hooks

/-- The loop over the subscriptions: whether all are ok, and what is said of each. -/
def reconcileAll (existing : List Value) (targetUrl : String) :
    List Subscription → List Hook → (Bool × List Value) × List Hook
  | [], hooks => ((true, []), hooks)
  | subscription :: rest, hooks =>
    let (result, reconciled) := webexReconcileOne service existing targetUrl subscription hooks
    let ((allOk, results), after) := reconcileAll existing targetUrl rest reconciled
    ((isOk result && allOk,
      ofFields [("resource", string subscription.resource), ("event", string subscription.event),
        ("name", string subscription.name), ("result", result)] :: results), after)

/-- How a setup ends. -/
inductive Outcome
  | skipped
  | panicked
  | answered (result : Value)

/-- The setup reports that all is well. -/
def Outcome.reportsOk : Outcome → Bool
  | answered result => isOk result
  | _ => false

def botToken (config : Value) : String :=
  (((config.get "bot_token").or (config.get "webex_bot_token")).bind asStr).getD ""

def setupWebexWebhook (config : Value) (webhookUrl tenant team : String) (hooks : List Hook) : Outcome × List Hook :=
  if botToken config = "" then (.skipped, hooks)
  else
    match tokenPreview (botToken config) with
    | none => (.panicked, hooks)
    | some _ =>
      match webexListWebhooks service hooks with
      | .error err =>
        (.answered (ofFields [("ok", bool false), ("error", string err), ("webhook_url", string webhookUrl)]), hooks)
      | .ok existing =>
        let ((allOk, results), after) := reconcileAll service existing webhookUrl (subscriptions tenant team) hooks
        (.answered (ofFields [("ok", bool allOk), ("webhook_url", string webhookUrl), ("webhooks", array results)]), after)

end Onboard.Webex
