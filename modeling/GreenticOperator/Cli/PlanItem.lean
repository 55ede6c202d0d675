import GreenticOperator.Lib.Pool
import GreenticOperator.ProviderConfig.Envelope
import GreenticOperator.QaPersist.Secrets

/-!
# One planned flow

`src/cli.rs`, `src/qa_flow_handler.rs`. An item of a plan is set up by the component of its pack, or
its flow is run; a node of a flow may ask a component for answers too. Both give the component the
configuration stored for the provider.
-/

namespace Cli

open Json ProviderConfig QaPersist

inductive DomainAction
  | Setup
  | Diagnostics
  | Verify
deriving DecidableEq, Repr

/-- How an item that does not fail ends: with its flow, which may report a failure, or before it. -/
inductive FlowEnd
  | succeeded
  | reportedFailure
  | skipped
deriving DecidableEq, Repr

/-- What a runner makes of a flow. -/
structure RunnerOutput where
  success : Bool
  parsed : Option Value

/-- The run of a flow: the files made for it, its output, the files made of that, and the record of
a setup. -/
structure Launch where
  prepared : Except String Unit
  output : Except String RunnerOutput
  artifacts : Except String Unit
  record : Except String Unit

/-- An item of a plan, with what its calls to the outside give: the secrets that are missing, where
they are looked for at all, the answers with the form they are given to, the component, the writes
of files, and the run of the flow. -/
structure ItemInput where
  action : DomainAction
  providerId : String
  flowId : String
  pack : Pack
  missingSecrets : Option (Except String (Option (List String)))
  setupAnswers : Except String (Value × Option FormSpec)
  calls : QaCalls
  successRecord : Except String Unit
  written : Except String Unit
  launch : Launch

/-- Whether an item is left out: secrets are missing, or could not be looked for. -/
def ItemInput.leftOut (input : ItemInput) : Bool :=
  match input.missingSecrets with
  | some (.ok none) | none => false
  | _ => true

/-- An object without the fields that hold secrets. -/
def filterSecrets (config : Value) (secretIds : List String) : Value :=
  match config with
  | .object fields => .object (fields.filter fun field => !secretIds.contains field.1)
  | config => config

def secretQuestions (formSpec : FormSpec) : List String :=
  (formSpec.questions.filter (·.secret)).map (·.id)

def extractConfigForEnvelope : Option Value → Option Value
  | none => none
  | some value => some ((value.get "config").getD value)

variable {File : Type} [DecidableEq File]

def persistQaConfig (digest : Digest) (path : EnvelopePath File) (input : ItemInput) (config : Value)
    (formSpec : FormSpec) : Eff (ProvidersRoot File) Unit :=
  writeProviderConfigEnvelope digest path input.written input.providerId "qa-setup"
    (filterSecrets config (secretQuestions formSpec)) input.pack

def writeConfig (digest : Digest) (path : EnvelopePath File) (input : ItemInput) (config : Value) :
    Eff (ProvidersRoot File) Unit :=
  writeProviderConfigEnvelope digest path input.written input.providerId input.flowId config input.pack

/-- What is kept of a setup whose flow was run, whatever the flow reports. -/
def recordSetup (digest : Digest) (path : EnvelopePath File) (input : ItemInput) (config : Option Value) :
    Eff (ProvidersRoot File) Unit :=
  if input.action = .Setup then do
    Eff.lift input.launch.record
    match config with
    | some config => discard (writeConfig digest path input config).attempt
    | none => return ()
  else return ()

def runFlow (digest : Digest) (path : EnvelopePath File) (input : ItemInput) (override : Option Value) :
    Eff (ProvidersRoot File) FlowEnd := do
  Eff.lift input.launch.prepared
  let output ← Eff.lift input.launch.output
  Eff.lift input.launch.artifacts
  recordSetup digest path input (override.or (extractConfigForEnvelope output.parsed))
  return (if output.success then .succeeded else .reportedFailure)

/-- The configuration the component makes of the answers, where it is asked. -/
def askComponent (path : EnvelopePath File) (input : ItemInput) (currentConfig : Option Value) :
    Eff (ProvidersRoot File) (Option Value) :=
  match if input.action = .Setup then some QaMode.Setup else qaModeForFlow input.flowId with
  | none => pure none
  | some _ => do
    match ← applyAnswersViaComponentQa path input.calls input.pack input.providerId currentConfig with
    | .ok config => return config
    | .error diagnostic => Eff.fail (diagnostic.code.asStr ++ ": " ++ diagnostic.message)

/-- The form a setup is answered in, where its pack has one. -/
def setupForm (input : ItemInput) : Except String (Option FormSpec) :=
  if input.action = .Setup then input.setupAnswers.map Prod.snd else .ok none

/-- A setup by the component, which runs no flow. -/
def finishSetup (digest : Digest) (path : EnvelopePath File) (input : ItemInput) (formSpec : Option FormSpec)
    (config : Value) : Eff (ProvidersRoot File) FlowEnd := do
  match formSpec with
  | some formSpec => discard (persistQaConfig digest path input config formSpec).attempt
  | none => pure ()
  Eff.lift input.successRecord
  discard (writeConfig digest path input config).attempt
  return .succeeded

/-- `run_plan_item`. -/
def runPlanItem (digest : Digest) (path : EnvelopePath File) (allowContractChange : Bool)
    (input : ItemInput) : Eff (ProvidersRoot File) FlowEnd :=
  if input.leftOut then return .skipped
  else do
    let formSpec ← Eff.lift (setupForm input)
    ensureContractCompatible digest path input.providerId input.flowId input.pack allowContractChange
    let stored ← readProviderConfigEnvelope path input.providerId
    match ← askComponent path input (stored.map (·.config)) with
    | some config =>
      if input.action = .Setup then finishSetup digest path input formSpec config
      else runFlow digest path input (some config)
    | none => runFlow digest path input none

/-! ## Nodes of flows -/

/-- A node that asks a component for answers, with the answers as they are found or given. -/
structure QaNode where
  mode : String
  providerId : String
  pack : Pack
  answers : Except String Value
  calls : QaCalls

/-- What a node gives back. -/
def QaNode.output (node : QaNode) : Except QaDiagnostic (Option Value) → Value
  | .ok (some config) =>
    Value.ofFields [("status", .string "ok"), ("config", config), ("mode", .string node.mode),
      ("provider", .string node.providerId)]
  | .ok none =>
    Value.ofFields [("status", .string "skip"),
      ("reason", .string "provider does not support QA contract"), ("provider", .string node.providerId)]
  | .error diagnostic =>
    Value.ofFields [("status", .string "error"), ("code", .string diagnostic.code.asStr),
      ("message", .string diagnostic.message), ("provider", .string node.providerId)]

def handleQaProcessNode (path : EnvelopePath File) (node : QaNode) : Eff (ProvidersRoot File) Value := do
  let _answers ← Eff.lift node.answers
  let stored ← readProviderConfigEnvelope path node.providerId
  let answer ← applyAnswersViaComponentQa path node.calls node.pack node.providerId (stored.map (·.config))
  return node.output answer

/-!
## The run of a plan

`src/cli.rs`. The items of a plan are run one after another, or by threads that pop the next item
from the end of the plan. An error ends a run in sequence; threads gather theirs, and are joined
before the run ends.
-/

section

universe u

variable {Item : Type u}

/-- How the call that runs an item ends. -/
inductive ItemOutcome
  | returned (result : Except String FlowEnd)
  | panicked

def ItemOutcome.panics : ItemOutcome → Bool
  | .panicked => true
  | .returned _ => false

def ItemOutcome.error? : ItemOutcome → Option String
  | .returned (.error message) => some message
  | _ => none

def ItemOutcome.flowSucceeded : ItemOutcome → Bool
  | .returned (.ok .succeeded) => true
  | _ => false

inductive RunResult
  | ok
  | err (message : String)
  | panicked
deriving DecidableEq, Repr

/-- A run of a plan so far: the items started, the errors gathered, and what it returns, once it
returns. -/
structure Report (Item : Type u) where
  started : List Item
  errors : List String
  result : Option RunResult

/-- A report with an item before it, whose error is gathered. -/
def Report.after (report : Report Item) (item : Item) (error : Option String) : Report Item :=
  ⟨item :: report.started, error.toList ++ report.errors, report.result⟩

/-- `run_plan` with at most one thread. A panic unwinds through it. -/
def runSequential (outcome : Item → ItemOutcome) (bestEffort : Bool) : List Item → Report Item
  | [] => ⟨[], [], some .ok⟩
  | item :: plan =>
    match outcome item with
    | .panicked => ⟨[item], [], some .panicked⟩
    | .returned (.error message) =>
      if bestEffort then (runSequential outcome bestEffort plan).after item (some message)
      else ⟨[item], [], some (.err message)⟩
    | .returned (.ok _) => (runSequential outcome bestEffort plan).after item none

/-- What is returned of the errors that threads gathered. -/
def joined (bestEffort : Bool) (errors : List String) : RunResult :=
  if errors.isEmpty then .ok
  else if bestEffort then .ok
  else .err s!"{errors.length} flow(s) failed."

/-- The threads of a run after some moves: a panic takes its thread, and the join of that thread is
ignored. -/
def threads (outcome : Item → ItemOutcome) (parallel : Nat) (schedule : List Nat) (plan : List Item) :
    Pool.State Item :=
  Run.run (Pool.move fun item => (outcome item).panics) schedule (Pool.start parallel plan.reverse)

def runParallel (outcome : Item → ItemOutcome) (parallel : Nat) (bestEffort : Bool) (schedule : List Nat)
    (plan : List Item) : Report Item :=
  let pool := threads outcome parallel schedule plan
  let errors := pool.ended.filterMap fun item => (outcome item).error?
  ⟨pool.started, errors, if pool.over then some (joined bestEffort errors) else none⟩

/-- `run_plan`, in the interleaving of its threads that a schedule gives. -/
def runPlan (outcome : Item → ItemOutcome) (parallel : Nat) (bestEffort : Bool) (schedule : List Nat)
    (plan : List Item) : Report Item :=
  if parallel ≤ 1 then runSequential outcome bestEffort plan
  else runParallel outcome parallel bestEffort schedule plan

/-- The outcome of an item under a providers root. -/
def planItemOutcome {File : Type} [DecidableEq File] (digest : ProviderConfig.Digest)
    (path : ProviderConfig.EnvelopePath File) (allowContractChange : Bool)
    (root : ProviderConfig.ProvidersRoot File) (input : ItemInput) : ItemOutcome :=
  .returned ((runPlanItem digest path allowContractChange input).run root).1

end

end Cli
