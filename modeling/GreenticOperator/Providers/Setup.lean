import GreenticOperator.Lib.Disk
import GreenticOperator.Onboard.WebhookSetup
import GreenticOperator.ProviderConfig.Envelope

/-!
# Provider setups

`src/providers.rs`. The providers of a demo are set up one after another. A provider that has a setup
record is left as it is; the record is written as soon as the component of its pack gave a
configuration, or its setup flow was run, and the webhooks and the status come after it.
-/

namespace Providers

open Json ProviderConfig Onboard Disk

/-- What a runner leaves of a flow. A process that a signal ended has no code. -/
structure RunnerOutput where
  code : Option Int
  stdout : String
  stderr : String
  parsed : Option Value

def RunnerOutput.success (output : RunnerOutput) : Bool := output.code == some 0

structure ProviderRunRecord where
  provider : String
  flow : String
  status : String
  success : Bool
  stdout : String
  stderr : String
  parsed : Option Value

structure ProviderStatus (File : Type) where
  provider : String
  setupPath : File

/-- What is in a file after a write: the whole content, or a part of it. -/
inductive Saved (α : Type)
  | whole (content : α)
  | cut

/-- The files of a provider. -/
structure Places (File : Type) where
  envelope : EnvelopePath File
  setup : String → File
  verify : String → File
  status : String → File

/-- The root of the providers: their configurations, and their files by kind. -/
structure SetupRoot (File : Type) where
  config : ProvidersRoot File
  setups : File → Option (Saved ProviderRunRecord)
  verifies : File → Option (Saved ProviderRunRecord)
  statuses : File → Option (Saved (ProviderStatus File))

structure DemoProviderConfig where
  setupFlow : Option String
  verifyFlow : Option String

/-- A provider of a run, with what its calls to the outside give: the seeding of its secrets, its
answers, as a value and as JSON text, the read of what is stored, its component, the runner, and
the writes of its files. -/
structure ProviderStep where
  provider : String
  cfg : DemoProviderConfig
  pack : Pack
  seeded : Except String Unit
  answers : Except String Value
  answersJson : String
  readable : Except String Unit
  calls : QaCalls
  runFlow : String → Value → Except String RunnerOutput
  record : Disk.WriteOutcome
  written : Except String Unit
  verifyRecord : Disk.WriteOutcome
  status : Disk.WriteOutcome

structure ProviderSetupOptions where
  providers : Option (List String)
  verifyWebhooks : Bool
  forceSetup : Bool
  skipSetup : Bool
  allowContractChange : Bool
  continueOnError : Bool

/-- A run: its demo, its options, what comes before the first provider, and the providers of the
demo, which have names of their own. -/
structure SetupRun where
  options : ProviderSetupOptions
  tenant : String
  team : String
  publicBaseUrl : Option String
  opened : Except String Unit
  providers : List ProviderStep
  distinct : (providers.map (·.provider)).Nodup

/-! ## The input of a flow -/

def buildInput (packId tenant team : String) (publicBaseUrl : Option String) (answers : Value)
    (answersJson : String) : Value :=
  let effectiveUrl := publicBaseUrl.or ((stringField answers "public_base_url").filter (· ≠ ""))
  let url := Value.present "public_base_url" (effectiveUrl.map .string)
  Value.ofFields ([("id", .string packId), ("tenant", .string tenant), ("team", .string team),
    ("env", .string "dev")] ++ url ++
    [("config", Value.ofFields (url ++ [("id", .string packId)])),
      ("msg", Value.ofFields [("channel", .string "setup"), ("id", .string (packId ++ ".setup")),
        ("message", Value.ofFields [("id", .string (packId ++ ".setup_default__collect")),
          ("text", .string "Collect inputs for setup_default.")]),
        ("metadata", .object []), ("reply_scope", .string ""), ("session_id", .string "setup"),
        ("tenant_id", .string tenant), ("text", .string "Collect inputs for setup_default."),
        ("user_id", .string "operator")]),
      ("payload", Value.ofFields [("id", .string (packId ++ "-setup_default")),
        ("spec_ref", .string "assets/setup.yaml")]),
      ("setup_answers", answers), ("answers_json", .string answersJson)])

def extractConfigForEnvelope (parsed : Option Value) (input : Value) : Option Value :=
  match parsed with
  | some parsed => some ((parsed.get "config").getD parsed)
  | none => input.get "config"

/-- An assignment to a field. What is neither an object nor null has no fields to assign to, which is
a panic. -/
def assign (config : Value) (key : String) (v : Value) : Option Value :=
  match config with
  | .null => some (.object [(key, v)])
  | .object fields => some (.object (Value.insertField key v fields))
  | _ => none

/-- The configuration with the answers it has no field for. -/
def mergeAnswers (config answers : Value) : Option Value :=
  match answers with
  | .object fields => fields.foldlM (fun config field =>
      if (config.get field.1).isNone then assign config field.1 field.2 else some config) config
  | _ => some config

variable {File : Type} [DecidableEq File]

/-! ## Files -/

def saveFile {α : Type} (write : Disk.WriteOutcome) (file : File) (content : α) :
    Eff (File → Option (Saved α)) Unit := fun files =>
  match write with
  | .done => (.ok (), Function.update files file (some (.whole content)))
  | .refused message => (.error message, files)
  | .torn message => (.error message, Function.update files file (some .cut))

def onConfig {α : Type} (x : Eff (ProvidersRoot File) α) : Eff (SetupRoot File) α :=
  Eff.within (·.config) (fun config root => { root with config }) x

/-- The record of a run of a flow. -/
def runRecord (provider flow : String) (output : RunnerOutput) : ProviderRunRecord where
  provider := provider
  flow := flow
  status := (output.code.map fun code => s!"{code}").getD "terminated"
  success := output.success
  stdout := output.stdout
  stderr := output.stderr
  parsed := output.parsed

/-- The record of a setup by the component of a pack. -/
def qaRecord (provider flow : String) (config : Value) : ProviderRunRecord where
  provider := provider
  flow := flow
  status := "Success"
  success := true
  stdout := ""
  stderr := ""
  parsed := some (Value.ofFields [("status", .string "Success"), ("flow_id", .string flow),
    ("pack_id", .string provider), ("mode", .string "component-qa"), ("config", config)])

def writeSetup (places : Places File) (step : ProviderStep) (record : ProviderRunRecord) :
    Eff (SetupRoot File) Unit :=
  Eff.within (·.setups) (fun setups root => { root with setups })
    (saveFile step.record (places.setup step.provider) record)

def writeStatus (places : Places File) (step : ProviderStep) : Eff (SetupRoot File) Unit :=
  Eff.within (·.statuses) (fun statuses root => { root with statuses })
    (saveFile step.status (places.status step.provider)
      ⟨step.provider, places.setup step.provider⟩)

/-- The configuration a setup ends with. A failure is only logged. -/
def writeConfig (digest : Digest) (places : Places File) (step : ProviderStep) (config : Value) :
    Eff (SetupRoot File) Unit :=
  onConfig (discard (writeProviderConfigEnvelope digest places.envelope step.written step.provider
    (step.cfg.setupFlow.getD "setup_default") config step.pack).attempt)

/-! ## One provider -/

/-- How the setup of a provider ends that does not fail. -/
inductive SetupEnd
  | skipped
  | completed (success : Bool)
  | panicked
deriving DecidableEq, Repr

/-- The answers of a provider, and the configuration its component makes of them. -/
def setupAnswers (digest : Digest) (places : Places File) (run : SetupRun) (step : ProviderStep) :
    Eff (SetupRoot File) (Value × Option Value) := do
  let answers ← Eff.lift step.answers
  Eff.lift step.readable
  let stored ← onConfig (readProviderConfigEnvelope places.envelope step.provider)
  onConfig (ensureContractCompatible digest places.envelope step.provider
    (step.cfg.setupFlow.getD "setup_default") step.pack run.options.allowContractChange)
  match ← onConfig (applyAnswersViaComponentQa places.envelope step.calls step.pack step.provider
    (stored.map (·.config))) with
  | .ok config => return (answers, config)
  | .error diagnostic => Eff.fail (diagnostic.code.asStr ++ ": " ++ diagnostic.message)

def verifyWebhooks (places : Places File) (run : SetupRun) (step : ProviderStep) (input : Value) :
    Eff (SetupRoot File) Unit := do
  let verified ← Eff.read fun root => (root.verifies (places.verify step.provider)).isSome
  if run.options.verifyWebhooks && (!verified || run.options.forceSetup) then
    let verifyFlow := step.cfg.verifyFlow.getD "verify_webhooks"
    let output ← Eff.lift (step.runFlow verifyFlow input)
    Eff.within (·.verifies) (fun verifies root => { root with verifies })
      (saveFile step.verifyRecord (places.verify step.provider) (runRecord step.provider verifyFlow output))
  else return ()

/-- The registration of the webhook, with the answers merged into the configuration. -/
def tryWebhookSetup (run : SetupRun) (step : ProviderStep) (config answers : Value) : WebhookSetup :=
  match mergeAnswers config answers with
  | none => .panicked
  | some merged => tryProviderSetupWebhook step.provider run.tenant (some run.team) merged

/-- What comes after the record of a setup. -/
def finishProvider (places : Places File) (run : SetupRun) (step : ProviderStep) (input config answers : Value)
    (success : Bool) : Eff (SetupRoot File) SetupEnd := do
  verifyWebhooks places run step input
  if tryWebhookSetup run step config answers = .panicked then return .panicked
  else
    writeStatus places step
    return .completed success

def setupInput (run : SetupRun) (step : ProviderStep) (answers : Value) : Value :=
  buildInput step.provider run.tenant run.team run.publicBaseUrl answers step.answersJson

/-- A setup by the component of a pack, which runs no setup flow. -/
def setupByComponent (digest : Digest) (places : Places File) (run : SetupRun) (step : ProviderStep)
    (answers config : Value) : Eff (SetupRoot File) SetupEnd := do
  let input := (assign (setupInput run step answers) "config" config).getD .null
  writeSetup places step (qaRecord step.provider (step.cfg.setupFlow.getD "setup_default") config)
  writeConfig digest places step config
  finishProvider places run step input config answers true

/-- A setup by the setup flow of a pack, whose output is recorded whatever it reports. -/
def setupByFlow (digest : Digest) (places : Places File) (run : SetupRun) (step : ProviderStep)
    (answers : Value) : Eff (SetupRoot File) SetupEnd := do
  let setupFlow := step.cfg.setupFlow.getD "setup_default"
  let input := setupInput run step answers
  let output ← Eff.lift (step.runFlow setupFlow input)
  writeSetup places step (runRecord step.provider setupFlow output)
  match extractConfigForEnvelope output.parsed input with
  | some config => writeConfig digest places step config
  | none => pure ()
  finishProvider places run step input ((input.get "config").getD .null) answers output.success

def setupProvider (digest : Digest) (places : Places File) (run : SetupRun) (step : ProviderStep) :
    Eff (SetupRoot File) SetupEnd := do
  Eff.lift step.seeded
  let recorded ← Eff.read fun root => (root.setups (places.setup step.provider)).isSome
  if recorded && !run.options.forceSetup then return .skipped
  else
    let asked ← setupAnswers digest places run step
    match asked.2 with
    | some config => setupByComponent digest places run step asked.1 config
    | none => setupByFlow digest places run step asked.1

/-! ## A run -/

/-- How the setup of one provider ended in a run. -/
structure Attempt where
  provider : String
  ending : Except String SetupEnd

inductive RunEnd
  | ok
  | err (message : String)
  | panicked
deriving DecidableEq, Repr

structure SetupReport where
  attempts : List Attempt
  result : RunEnd

/-- How a run ends after the setup of a provider, where it does not go on. -/
def stopsAfter (continueOnError : Bool) : Except String SetupEnd → Option RunEnd
  | .ok .panicked => some .panicked
  | .error message => if continueOnError then none else some (.err message)
  | .ok _ => none

def setupProviders (digest : Digest) (places : Places File) (run : SetupRun) :
    List ProviderStep → SetupRoot File → SetupReport × SetupRoot File
  | [], root => (⟨[], .ok⟩, root)
  | step :: rest, root =>
    let ended := (setupProvider digest places run step).run root
    match stopsAfter run.options.continueOnError ended.1 with
    | some result => (⟨[⟨step.provider, ended.1⟩], result⟩, ended.2)
    | none =>
      let after := setupProviders digest places run rest ended.2
      (⟨⟨step.provider, ended.1⟩ :: after.1.attempts, after.1.result⟩, after.2)

/-- The providers of a run, without those its filter leaves out. -/
def resolveProviders (run : SetupRun) : List ProviderStep :=
  match run.options.providers with
  | none => run.providers
  | some filter => run.providers.filter fun step => (filter.map Text.trim).contains step.provider

def runProviderSetup (digest : Digest) (places : Places File) (run : SetupRun) (root : SetupRoot File) :
    SetupReport × SetupRoot File :=
  let providers := resolveProviders run
  if providers.isEmpty || run.options.skipSetup then (⟨[], .ok⟩, root)
  else
    match run.opened with
    | .error message => (⟨[], .err message⟩, root)
    | .ok () => setupProviders digest places run providers root

end Providers
