import GreenticOperator.Cli.PlanItem
import GreenticOperator.Laws.Providers.Setup

/-!
# What a failed setup leaves of a configuration

A setup flow is run by an item of a plan, with either runner, or by the setup of a provider. Both
write the configuration they find in its output, whether it reports success or not
(`runFlow_stored`, `setupByFlow_stored`). A failed setup leaves the stored envelope as it is exactly
where this write does not happen, or writes what is stored (`keepsEnvelope_iff`).
-/

namespace Providers

open Json ProviderConfig Onboard Disk Cli

variable {File : Type}

/-! ## Setup flows -/

/-- An item that comes to run its setup flow. -/
structure RunsSetupFlow (digest : Digest) (path : EnvelopePath File) (allowContractChange : Bool)
    (root : ProvidersRoot File) (input : ItemInput) : Prop where
  setup : input.action = .Setup
  kept : input.leftOut = false
  form : ∃ formSpec, setupForm input = .ok formSpec
  compatible : ∀ stored, root.envelopes (path input.providerId) = some stored →
    stored.describeHash = resolvedDescribeHash digest input.pack input.providerId ∨ allowContractChange = true
  unanswered : componentAnswer input.calls input.pack
    ((root.envelopes (path input.providerId)).map (·.config)) = .ok none

/-- A flow that fails: it is not run, or it reports a failure. -/
def ItemFails (input : ItemInput) : Prop :=
  ∀ output, input.launch.output = .ok output → output.success = false

def StepFails (run : SetupRun) (step : ProviderStep) (answers : Value) : Prop :=
  ∀ output, step.runFlow (step.cfg.setupFlow.getD "setup_default") (setupInput run step answers) = .ok output →
    output.success = false

/-- The configuration that an item writes once its setup flow was run: nothing before it fails. -/
def itemWrites (input : ItemInput) : Option Value :=
  match input.launch.prepared, input.launch.output, input.launch.artifacts, input.launch.record, input.written with
  | .ok _, .ok output, .ok _, .ok _, .ok _ => Cli.extractConfigForEnvelope output.parsed
  | _, _, _, _, _ => none

/-- The configuration that a provider's setup writes once its setup flow was run. -/
def stepWrites (run : SetupRun) (step : ProviderStep) (answers : Value) : Option Value :=
  let input := setupInput run step answers
  match step.runFlow (step.cfg.setupFlow.getD "setup_default") input, step.record, step.written with
  | .ok output, .done, .ok _ => extractConfigForEnvelope output.parsed input
  | _, _, _ => none

/-- A place after a configuration was written there, or not. -/
def overwritten (stored : Option ConfigEnvelope) (envelope : Value → ConfigEnvelope) (written : Option Value) :
    Option ConfigEnvelope :=
  match written with
  | some config => some (envelope config)
  | none => stored

theorem overwritten_eq_iff (stored : Option ConfigEnvelope) (envelope : Value → ConfigEnvelope)
    (written : Option Value) :
    overwritten stored envelope written = stored ↔ ∀ config, written = some config → stored = some (envelope config) := by
  cases written with
  | none => exact ⟨fun _ => nofun, fun _ => rfl⟩
  | some config =>
    refine ⟨fun h other hother => ?_, fun h => (h config rfl).symm⟩
    rw [← Option.some.inj hother]
    exact h.symm

variable [DecidableEq File] {digest : Digest}

/-! ## Items of a plan -/

section Items

variable {path : EnvelopePath File} {input : ItemInput} {root : ProvidersRoot File}

/-- What the record of a setup leaves of the stored configuration. -/
theorem recordSetup_stored (digest : Digest) (path : EnvelopePath File) (hsetup : input.action = .Setup)
    (config : Option Value) (root : ProvidersRoot File) :
    ((recordSetup digest path input config).run root).2.envelopes (path input.providerId)
      = overwritten (root.envelopes (path input.providerId))
          (fun config => envelopeOf digest input.providerId input.flowId config input.pack)
          (match input.launch.record, input.written with
            | .ok _, .ok _ => config
            | _, _ => none) := by
  unfold recordSetup
  rw [if_pos hsetup]
  cases input.launch.record with
  | error message => rfl
  | ok _ =>
    cases config with
    | none => cases input.written <;> rfl
    | some config =>
      unfold Cli.writeConfig writeProviderConfigEnvelope
      cases input.written with
      | error message => rfl
      | ok _ => exact Function.update_self (path input.providerId) _ _

/-- What an item leaves of the stored configuration once its setup flow was run. -/
theorem runFlow_stored (hsetup : input.action = .Setup) (root : ProvidersRoot File) :
    ((Cli.runFlow digest path input none).run root).2.envelopes (path input.providerId)
      = overwritten (root.envelopes (path input.providerId))
          (fun config => envelopeOf digest input.providerId input.flowId config input.pack) (itemWrites input) := by
  unfold Cli.runFlow itemWrites
  cases input.launch.prepared with
  | error message => rfl
  | ok _ =>
    cases input.launch.output with
    | error message => rfl
    | ok output =>
      cases input.launch.artifacts with
      | error message => rfl
      | ok _ =>
        have hrecord := recordSetup_stored digest path hsetup
          (Cli.extractConfigForEnvelope output.parsed) root
        rw [Eff.bind_lift_run_ok, Eff.bind_lift_run_ok, Eff.bind_lift_run_ok, Option.none_or, Eff.bind_run]
        cases hrun : (recordSetup digest path input (Cli.extractConfigForEnvelope output.parsed)).run root with
        | mk result root' =>
          rw [hrun] at hrecord
          have hstored := hrecord.trans (congrArg (overwritten _ _)
            (show _ = (match input.launch.record, input.written with
              | .ok _, .ok _ => Cli.extractConfigForEnvelope output.parsed
              | _, _ => none) from rfl))
          cases result <;> exact hstored.trans (by cases input.launch.record <;> cases input.written <;> rfl)

theorem runPlanItem_stored {allowContractChange : Bool}
    (h : RunsSetupFlow digest path allowContractChange root input) :
    ((runPlanItem digest path allowContractChange input).run root).2.envelopes (path input.providerId)
      = overwritten (root.envelopes (path input.providerId))
          (fun config => envelopeOf digest input.providerId input.flowId config input.pack) (itemWrites input) := by
  obtain ⟨formSpec, hform⟩ := h.form
  obtain ⟨result, hensure, hcompatible⟩ := ensureContract_run digest path input.providerId input.flowId
    input.pack allowContractChange root
  rw [hcompatible.mpr h.compatible] at hensure
  obtain ⟨root', hasked, henvelopes⟩ := applyAnswers_asked path input.calls input.pack input.providerId
    ((root.envelopes (path input.providerId)).map (·.config)) root
  rw [h.unanswered] at hasked
  have hcomponent : (askComponent path input ((root.envelopes (path input.providerId)).map (·.config))).run root
      = (.ok none, root') := by
    unfold askComponent
    simp only [h.setup, if_true]
    rw [Eff.bind_run_of_ok hasked]
    rfl
  unfold runPlanItem
  rw [h.kept, hform]
  simp only [Bool.false_eq_true, if_false]
  rw [Eff.bind_lift_run_ok, Eff.bind_run_of_ok hensure, readProviderConfigEnvelope, Eff.bind_read_run,
    Eff.bind_run_of_ok hcomponent, ← henvelopes]
  exact runFlow_stored h.setup root'

end Items

/-! ## Setups of providers -/

section Setups

variable {places : Places File} {run : SetupRun} {step : ProviderStep}

theorem keepConfig_stored (digest : Digest) (places : Places File) (step : ProviderStep) (config : Option Value)
    (root : SetupRoot File) :
    ∃ root', (keepConfig digest places step config).run root = (.ok (), root')
      ∧ root'.config.envelopes (places.envelope step.provider)
        = overwritten (root.config.envelopes (places.envelope step.provider))
            (fun config => envelopeOf digest step.provider (step.cfg.setupFlow.getD "setup_default") config step.pack)
            (match step.written with
              | .ok _ => config
              | .error _ => none) := by
  cases config with
  | none => exact ⟨root, rfl, by cases step.written <;> rfl⟩
  | some config =>
    refine ⟨_, rfl, ?_⟩
    unfold writeProviderConfigEnvelope
    cases step.written with
    | error message => rfl
    | ok _ => exact Function.update_self (places.envelope step.provider) _ _

theorem recordAndFinish_stored (digest : Digest) (step : ProviderStep) (record : ProviderRunRecord)
    (kept : Option Value) (input config answers : Value) (success : Bool) (root : SetupRoot File) :
    ((recordAndFinish places run step record (keepConfig digest places step kept) input config answers
        success).run root).2.config.envelopes (places.envelope step.provider)
      = overwritten (root.config.envelopes (places.envelope step.provider))
          (fun config => envelopeOf digest step.provider (step.cfg.setupFlow.getD "setup_default") config step.pack)
          (match step.record, step.written with
            | .done, .ok _ => kept
            | _, _ => none) := by
  unfold recordAndFinish writeSetup
  cases step.record with
  | refused message => rfl
  | torn message => rfl
  | done =>
    have hsave : (saveFile .done (places.setup step.provider) record).run root.setups
        = (.ok (), Function.update root.setups (places.setup step.provider) (some (.whole record))) := rfl
    obtain ⟨root', hrun, hstored⟩ := keepConfig_stored digest places step kept { root with
      setups := Function.update root.setups (places.setup step.provider) (some (.whole record)) }
    have hfinish : ((finishProvider places run step input config answers success).run root').2.config
        = root'.config := finishProvider_leaves places run step input config answers success root'
    rw [Eff.bind_within_of_ok hsave, Eff.bind_run_of_ok hrun, hfinish, hstored]
    cases step.written <;> rfl

/-- What a provider's setup leaves of the stored configuration once its setup flow was run. -/
theorem setupByFlow_stored (answers : Value) (root : SetupRoot File) :
    ((setupByFlow digest places run step answers).run root).2.config.envelopes (places.envelope step.provider)
      = overwritten (root.config.envelopes (places.envelope step.provider))
          (fun config => envelopeOf digest step.provider (step.cfg.setupFlow.getD "setup_default") config step.pack)
          (stepWrites run step answers) := by
  unfold stepWrites
  cases houtput : step.runFlow (step.cfg.setupFlow.getD "setup_default") (setupInput run step answers) with
  | error message =>
    simp only [setupByFlow_of_error houtput, houtput]
    rfl
  | ok output =>
    simp only [setupByFlow_of_output houtput, houtput, recordAndFinish_stored]
    cases step.record <;> cases step.written <;> rfl

theorem setupProvider_stored {root : SetupRoot File} {answers : Value}
    (h : Asked digest places run root step answers none) :
    ((setupProvider digest places run step).run root).2.config.envelopes (places.envelope step.provider)
      = overwritten (root.config.envelopes (places.envelope step.provider))
          (fun config => envelopeOf digest step.provider (step.cfg.setupFlow.getD "setup_default") config step.pack)
          (stepWrites run step answers) := by
  obtain ⟨root', hkept, hrun⟩ := setupProvider_of_asked h
  rw [hrun, ← hkept.envelopes]
  exact setupByFlow_stored answers root'

end Setups

/-- **A failed setup leaves the configuration as it was** exactly where it writes none, or writes the
one that is stored: in an item of a plan, with either runner, and in the setup of a provider. -/
theorem keepsEnvelope_iff (digest : Digest) (path : EnvelopePath File) (places : Places File) :
    (∀ allowContractChange root input, RunsSetupFlow digest path allowContractChange root input →
      ItemFails input →
        (((runPlanItem digest path allowContractChange input).run root).2.envelopes (path input.providerId)
            = root.envelopes (path input.providerId)
          ↔ ∀ config, itemWrites input = some config → root.envelopes (path input.providerId)
              = some (envelopeOf digest input.providerId input.flowId config input.pack)))
    ∧ ∀ run root step answers, Asked digest places run root step answers none →
      StepFails run step answers →
        (((setupProvider digest places run step).run root).2.config.envelopes (places.envelope step.provider)
            = root.config.envelopes (places.envelope step.provider)
          ↔ ∀ config, stepWrites run step answers = some config →
            root.config.envelopes (places.envelope step.provider)
              = some (envelopeOf digest step.provider (step.cfg.setupFlow.getD "setup_default") config step.pack)) := by
  constructor
  · intro allowContractChange root input hruns _
    rw [runPlanItem_stored hruns]
    exact overwritten_eq_iff _ _ _
  · intro run root step answers hasked _
    rw [setupProvider_stored hasked]
    exact overwritten_eq_iff _ _ _

/-! ## A setup flow that fails with an output -/

def slackPack : Pack := ⟨"pack", none⟩

/-- The configuration of a setup that succeeded. -/
def slackConfig : Value := .object [("channel", .string "general")]

def configuredRoot : ProvidersRoot String where
  envelopes _ := some (envelopeOf plainHashes "messaging-slack" "setup_default" slackConfig slackPack)
  events := []

/-- A setup flow, with what its runner makes of it. -/
def slackItem (output : Except String Cli.RunnerOutput) : ItemInput where
  action := .Setup
  providerId := "messaging-slack"
  flowId := "setup_default"
  pack := slackPack
  missingSecrets := none
  setupAnswers := .ok (.object [], none)
  calls := ⟨.ok false, fun config => .ok config⟩
  successRecord := .ok ()
  written := .ok ()
  launch := ⟨.ok (), output, .ok (), .ok ()⟩

theorem slackItem_runs (output : Except String Cli.RunnerOutput) :
    RunsSetupFlow plainHashes rootPlaces.envelope false configuredRoot (slackItem output) where
  setup := rfl
  kept := rfl
  form := ⟨none, rfl⟩
  compatible stored h := Or.inl (by rw [← Option.some.inj h]; rfl)
  unanswered := rfl

def slackSetup (output : Except String RunnerOutput) : ProviderStep :=
  { slackStep 1 with runFlow := fun _ _ => output }

theorem slackSetup_asked (output : Except String RunnerOutput) :
    Asked plainHashes rootPlaces (slackRun 1) { freshRoot with config := configuredRoot } (slackSetup output)
      (.object []) none where
  answered := rfl
  readable := rfl
  compatible stored h := Or.inl (by rw [← Option.some.inj h]; rfl)
  applied := rfl
  seeded := rfl
  due := Or.inl rfl

/-- Where the runner cannot be started, the configuration stays as it was. -/
theorem unstarted_keepsEnvelope :
    ((runPlanItem plainHashes rootPlaces.envelope false (slackItem (.error "no runner"))).run
        configuredRoot).2.envelopes "messaging-slack/config.envelope.cbor"
      = configuredRoot.envelopes "messaging-slack/config.envelope.cbor"
    ∧ ((setupProvider plainHashes rootPlaces (slackRun 1) (slackSetup (.error "no runner"))).run
        { freshRoot with config := configuredRoot }).2.config.envelopes "messaging-slack/config.envelope.cbor"
      = configuredRoot.envelopes "messaging-slack/config.envelope.cbor" :=
  ⟨((keepsEnvelope_iff plainHashes rootPlaces.envelope rootPlaces).1 false configuredRoot
      (slackItem (.error "no runner")) (slackItem_runs _) nofun).mpr nofun,
    ((keepsEnvelope_iff plainHashes rootPlaces.envelope rootPlaces).2 (slackRun 1)
      { freshRoot with config := configuredRoot } (slackSetup (.error "no runner")) (.object [])
      (slackSetup_asked _) nofun).mpr nofun⟩

/-- The output of a setup flow that fails takes the place of the configuration. -/
theorem failed_output_is_stored :
    RunsSetupFlow plainHashes rootPlaces.envelope false configuredRoot
        (slackItem (.ok ⟨false, some (.string "no token")⟩))
    ∧ ItemFails (slackItem (.ok ⟨false, some (.string "no token")⟩))
    ∧ ((runPlanItem plainHashes rootPlaces.envelope false (slackItem (.ok ⟨false, some (.string "no token")⟩))).run
        configuredRoot).2.envelopes "messaging-slack/config.envelope.cbor"
      ≠ configuredRoot.envelopes "messaging-slack/config.envelope.cbor"
    ∧ Asked plainHashes rootPlaces (slackRun 1) { freshRoot with config := configuredRoot }
        (slackSetup (.ok ⟨some 1, "", "", some (.string "no token")⟩)) (.object []) none
    ∧ StepFails (slackRun 1) (slackSetup (.ok ⟨some 1, "", "", some (.string "no token")⟩)) (.object [])
    ∧ ((setupProvider plainHashes rootPlaces (slackRun 1)
          (slackSetup (.ok ⟨some 1, "", "", some (.string "no token")⟩))).run
        { freshRoot with config := configuredRoot }).2.config.envelopes "messaging-slack/config.envelope.cbor"
      ≠ configuredRoot.envelopes "messaging-slack/config.envelope.cbor" := by
  refine ⟨slackItem_runs _, ?_, fun h => ?_, slackSetup_asked _, ?_, fun h => ?_⟩
  · intro output houtput
    rw [← Except.ok.inj houtput]
  · have hstored := h.symm.trans (runPlanItem_stored (slackItem_runs (.ok ⟨false, some (.string "no token")⟩)))
    cases congrArg (Option.map ConfigEnvelope.config) hstored
  · intro output houtput
    rw [← Except.ok.inj houtput]
    rfl
  · have hstored := h.symm.trans
      (setupProvider_stored (slackSetup_asked (.ok ⟨some 1, "", "", some (.string "no token")⟩)))
    cases congrArg (Option.map ConfigEnvelope.config) hstored

end Providers
