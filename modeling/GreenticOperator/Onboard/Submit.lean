import GreenticOperator.Domains
import GreenticOperator.Gmap.Edit
import GreenticOperator.Gmap.Parse
import GreenticOperator.HttpUtil
import GreenticOperator.QaPersist.PackConfigInput

/-!
# Submitting the answers of an onboarding

`src/onboard/wizard.rs`. A request sets a provider up or removes it. Its last part gives the
provider its access in the gmap file of the team, or of the tenant: it is made public, and a
removal then makes it forbidden. A file is written over in place, so an error or a crash may
leave any beginning of what was to be written.
-/

namespace Onboard

open Json Domains Gmap HttpUtil

inductive QaMode
  | Default
  | Setup
  | Upgrade
  | Remove
deriving DecidableEq

def QaMode.asStr : QaMode → String
  | Default => "default"
  | Setup => "setup"
  | Upgrade => "upgrade"
  | Remove => "remove"

structure RequestParams where
  providerId : String
  domain : Domain
  tenant : String
  team : Option String
  answers : Value
  locale : String
  mode : QaMode

/-! ## Reading the request -/

def textField (v : Value) (name : String) : Option String := (v.get name).bind Value.asStr

def parseDomain (body : Value) : Except HttpResponse Domain :=
  let domainStr := (textField body "domain").getD "messaging"
  if domainStr = "messaging" then .ok .Messaging
  else if domainStr = "events" then .ok .Events
  else if domainStr = "secrets" then .ok .Secrets
  else .error (errorResponse 400 ("unknown domain: " ++ domainStr))

def parseMode (body : Value) : QaMode :=
  let mode := (textField body "mode").getD "setup"
  if mode = "upgrade" then .Upgrade
  else if mode = "remove" then .Remove
  else if mode = "default" then .Default
  else .Setup

def parseRequest (body : Value) : Except HttpResponse RequestParams :=
  match textField body "provider_id" with
  | none => .error (errorResponse 400 "missing provider_id")
  | some providerId =>
    (parseDomain body).map fun domain =>
      let answers := (body.get "answers").getD (.object [])
      { providerId
        domain
        tenant := Text.toAsciiLowercase
          (((textField body "tenant").or (textField answers "_scope_tenant")).getD "default")
        team := ((textField body "team").or (textField answers "_scope_team")).map Text.toAsciiLowercase
        answers
        locale := (textField body "locale").getD "en"
        mode := parseMode body }

/-! ## The gmap files -/

/-- A gmap file: missing, with a text, or with bytes that are none. -/
inductive GmapFile
  | absent
  | text (contents : String)
  | unreadable
deriving DecidableEq

/-- What `upsert_policy` reads before it edits. -/
def GmapFile.read : GmapFile → Except String (Option String)
  | absent => .ok none
  | text contents => .ok (some contents)
  | unreadable => .error "stream did not contain valid UTF-8"

/-- The rules of a file; a missing one has none. -/
def parseFile : GmapFile → Except String (List GmapRule)
  | .absent => .ok []
  | .text contents => parseStr contents
  | .unreadable => .error "stream did not contain valid UTF-8"

/-- The files that decide for one tenant and team. -/
structure GmapFiles where
  tenant : GmapFile
  team : GmapFile

inductive GmapLevel
  | tenant
  | team
deriving DecidableEq

/-- Which of the files of its tenant and team a request edits. -/
def resolveGmapPath (team : Option String) : GmapLevel :=
  match team with
  | some team => if team ≠ "_" then .team else .tenant
  | none => .tenant

def GmapFiles.at (files : GmapFiles) : GmapLevel → GmapFile
  | .tenant => files.tenant
  | .team => files.team

def GmapFiles.set (files : GmapFiles) (level : GmapLevel) (file : GmapFile) : GmapFiles :=
  match level with
  | .tenant => { files with tenant := file }
  | .team => { files with team := file }

/-- A file after the first `n` bytes of a text were written to it. -/
def tear : List Char → List Char → Nat → GmapFile
  | written, [], _ => .text (String.ofList written)
  | written, c :: rest, n =>
    if n = 0 then .text (String.ofList written)
    else if c.utf8Size ≤ n then tear (written ++ [c]) rest (n - c.utf8Size)
    else .unreadable

/-- How a write ends: it is done, it fails before or after some bytes are written, or the
operator stops in the middle of it. -/
inductive WriteOutcome
  | done
  | refused (message : String)
  | failed (bytes : Nat) (message : String)
  | crashed (bytes : Nat)

/-- How an edit ends; there is nothing after a crash. -/
inductive EditOutcome
  | done
  | failed (message : String)
  | crashed
deriving DecidableEq

/-- `upsert_policy` on a file of the disk. -/
def upsertFile (write : WriteOutcome) (file : GmapFile) (rulePath : String) (policy : Policy) :
    GmapFile × EditOutcome :=
  match file.read.bind fun contents => upsertPolicy contents rulePath policy with
  | .error err => (file, .failed err)
  | .ok updated =>
    match write with
    | .done => (.text updated, .done)
    | .refused message => (file, .failed message)
    | .failed bytes message => (tear [] updated.toList bytes, .failed message)
    | .crashed bytes => (tear [] updated.toList bytes, .crashed)

/-! ## The request -/

/-- What the steps before the gmap leave for the response. -/
structure Report where
  secretsSaved : List String
  configWritten : Bool

/-- The world around a request: the steps before the gmap, which find the pack, apply the
answers and persist what they give; how the writes of the two edits end; and what the flows
and the webhook set up after them report. -/
structure Surroundings where
  prepare : RequestParams → Except (Nat × String) Report
  first : WriteOutcome
  second : WriteOutcome
  webhookSetup : Value
  setupFlow : Value
  verifyFlow : Value

def okResponse (params : RequestParams) (s : Surroundings) (report : Report) : HttpResponse :=
  let later (v : Value) : Value := if params.mode = .Remove then .null else v
  jsonResponse 200 (.ofFields
    [("status", .string "ok"), ("provider_id", .string params.providerId),
      ("mode", .string params.mode.asStr),
      ("secrets_saved", .array (report.secretsSaved.map Value.string)),
      ("config_written", .bool report.configWritten), ("gmap_updated", .bool true),
      ("webhook_setup", later s.webhookSetup), ("setup_flow", later s.setupFlow),
      ("verify_flow", later s.verifyFlow)])

/-- What a request leaves: the files at every moment, from the first on, and its response,
where the operator lives to send one. -/
structure Submission where
  moments : List GmapFiles
  response : Option (Except HttpResponse HttpResponse)

def submitAnswers (params : RequestParams) (s : Surroundings) (files : GmapFiles) : Submission :=
  match s.prepare params with
  | .error (status, message) => ⟨[files], some (.error (errorResponse status message))⟩
  | .ok report =>
    let level := resolveGmapPath params.team
    let (file, outcome) := upsertFile s.first (files.at level) params.providerId .Public
    let opened := files.set level file
    match outcome with
    | .crashed => ⟨[files, opened], none⟩
    | .failed err =>
      ⟨[files, opened], some (.error (errorResponse 500 ("gmap update failed: " ++ err)))⟩
    | .done =>
      if params.mode = .Remove then
        -- the provider's directory is removed here; an error of the edit is only logged
        let (file, outcome) := upsertFile s.second file params.providerId .Forbidden
        let closed := files.set level file
        match outcome with
        | .crashed => ⟨[files, opened, closed], none⟩
        | _ => ⟨[files, opened, closed], some (.ok (okResponse params s report))⟩
      else ⟨[files, opened], some (.ok (okResponse params s report))⟩

/-!
## Injecting provider aliases

`src/onboard/wizard.rs`. A provider reads some of its settings under other names than its setup asks
for them. Before the configuration of an onboarding is persisted, such a setting is copied to the
name its provider reads, and the form is told of the copy and of whether it is secret.
-/

section

open Json QaPersist

/-- A field of the setup, the key of the runtime for it, and whether it is secret. -/
structure ProviderSecretAlias where
  srcKey : String
  dstKey : String
  isSecret : Bool
deriving DecidableEq

def providerSecretAliases : List (String × List ProviderSecretAlias) :=
  [("messaging-telegram", [⟨"bot_token", "telegram_bot_token", true⟩]),
    ("messaging-slack", [⟨"bot_token", "slack_bot_token", true⟩]),
    ("messaging-webex", [⟨"bot_token", "webex_bot_token", true⟩]),
    ("messaging-whatsapp", [⟨"access_token", "whatsapp_token", true⟩])]

/-- The fields of Slack that come from the answers. -/
def slackFields : List (String × Bool) := [("slack_app_id", false), ("slack_configuration_token", true)]

/-- A setting that is a text and not empty. -/
def settingText (v : Value) (key : String) : Option String :=
  ((v.get key).bind Value.asStr).filter fun text => !text.isEmpty

/-- A setting an object gets where it has none. -/
def orInsert (key text : String) (config : Value) : Value :=
  match config with
  | .object map => if (map.lookup key).isSome then config else .object (Value.insertField key (.string text) map)
  | _ => config

/-- A question that is asked already stays as it is. -/
def pushSyntheticQuestion (formSpec : FormSpec) (key : String) (secret : Bool) : FormSpec :=
  if formSpec.questions.any fun q => q.id == key then formSpec
  else { questions := formSpec.questions ++ [{ id := key, secret, fields := [] }] }

/-- A text found for a key goes into the configuration, and the key into the form. -/
def injectField (found : Option String) (key : String) (isSecret : Bool) (given : Value × FormSpec) :
    Value × FormSpec :=
  match found with
  | none => given
  | some text => (orInsert key text given.1, pushSyntheticQuestion given.2 key isSecret)

def injectProviderAliases (providerId : String) (config : Value) (formSpec : FormSpec) (answers : Value) :
    Value × FormSpec :=
  let aliases := (providerSecretAliases.find? fun entry => entry.1 == providerId).map Prod.snd
  let aliased := (aliases.getD []).foldl
    (fun given entry => injectField (settingText given.1 entry.srcKey) entry.dstKey entry.isSecret given)
    (config, formSpec)
  if providerId = "messaging-slack" then
    slackFields.foldl
      (fun given field => injectField (settingText answers field.1) field.1 field.2 given) aliased
  else aliased

end

/-!
## Asking the component

`src/onboard/wizard.rs`. Before the gmap is edited, the component of the provider's pack is given the
answers, for an upgrade or a removal with the configuration that is stored, and what it makes of them
is persisted. A removal then takes the provider's directory.
-/

section

open ProviderConfig QaPersist

/-- A request with what its calls to the outside give: whether what is stored can be read, the
component, the form for a configuration, the writes of the secrets, of the configuration and of the
rule that makes the provider public, and the files that the removal of its directory takes. -/
structure QaSubmission (File : Type) where
  params : RequestParams
  pack : Pack
  readable : Bool
  calls : QaCalls
  formSpec : Value → FormSpec
  secretsSaved : Except String (List String)
  written : Except String Unit
  opened : Except String Unit
  removed : List File

/-- Whether a request gives the component what is stored. -/
def RequestParams.keepsCurrent (params : RequestParams) : Bool := params.mode = .Upgrade || params.mode = .Remove

/-- The fields of the page that the component may have left out. -/
def reinject (params : RequestParams) (config : Value) : Value :=
  match config with
  | .object map =>
    let labelled := match settingText params.answers "instance_label" with
      | some label => Value.insertField "instance_label" (.string label) map
      | none => map
    let tenanted := Value.insertField "_scope_tenant" (.string params.tenant) labelled
    .object (match params.team with
      | some team => Value.insertField "_scope_team" (.string team) tenanted
      | none => tenanted)
  | _ => config

variable {File : Type} [DecidableEq File]

/-- `persist_qa_results`. Only an object with fields is written to the envelope. -/
def persistQaResults (digest : Digest) (path : EnvelopePath File) (request : QaSubmission File)
    (config : Value) (formSpec : FormSpec) : Eff (ProvidersRoot File) Report := do
  let secretsSaved ← Eff.lift (request.secretsSaved.mapError ("persist failed: " ++ ·))
  if config.asObject.any fun fields => !fields.isEmpty then
    persistQaConfig digest path (request.written.mapError ("persist failed: " ++ ·)) request.params.providerId
      config request.pack formSpec
    return ⟨secretsSaved, true⟩
  else return ⟨secretsSaved, false⟩

/-- `submit_answers` up to the setup flows, on the envelopes of the providers. -/
def submitQa (digest : Digest) (path : EnvelopePath File) (request : QaSubmission File) :
    Eff (ProvidersRoot File) Report := do
  let params := request.params
  let stored ← readProviderConfigEnvelope path params.providerId
  let currentConfig := if params.keepsCurrent && request.readable then stored.map (·.config) else none
  match ← applyAnswersViaComponentQa path request.calls request.pack params.providerId currentConfig with
  | .error diagnostic => Eff.fail ("apply-answers failed: " ++ diagnostic.code.asStr ++ ": " ++ diagnostic.message)
  | .ok config =>
    let config := reinject params (config.getD params.answers)
    let given := injectProviderAliases params.providerId config (request.formSpec config) params.answers
    let report ← persistQaResults digest path request given.1 given.2
    Eff.lift (request.opened.mapError ("gmap update failed: " ++ ·))
    if params.mode = .Remove then removeEnvelopes request.removed
    return report

end

end Onboard
