import GreenticOperator.Lib.Run
import GreenticOperator.Providers.Setup

/-!
# Provider setups that are retried

A provider is left as it is once its setup record is there. The record is written before the webhooks
and the status, and it is written whatever the setup flow reports. A setup settles where it gets no
record, or ends well after it (`Settles`). Up to the record a setup changes no file of the providers
(`setupProvider_cases`); one that settles is skipped, fails without a record, or is completed
(`setupProvider_of_settles`). `retriesFailed_of_settles` carries this over runs.
-/

namespace Providers

open Json ProviderConfig Onboard Disk

variable {File : Type} {α : Type}

/-! ## Up to the record -/

/-- What a component makes of the answers, with the configuration it is given. -/
def componentAnswer (calls : QaCalls) (pack : Pack) (currentConfig : Option Value) :
    Except QaDiagnostic (Option Value) :=
  if supportsComponentQaContract pack then
    match calls.ready with
    | .error diagnostic => .error diagnostic
    | .ok false => .ok none
    | .ok true => (calls.applyAnswers (currentConfig.getD (.object []))).map some
  else .ok none

/-- The answers of a provider, and the configuration its component makes of them where it gives
one. -/
structure Answered (digest : Digest) (places : Places File) (run : SetupRun) (root : SetupRoot File)
    (step : ProviderStep) (answers : Value) (config : Option Value) : Prop where
  answered : step.answers = .ok answers
  readable : step.readable = .ok ()
  compatible : ∀ stored, root.config.envelopes (places.envelope step.provider) = some stored →
    stored.describeHash = resolvedDescribeHash digest step.pack step.provider
      ∨ run.options.allowContractChange = true
  applied : componentAnswer step.calls step.pack
    ((root.config.envelopes (places.envelope step.provider)).map (·.config)) = .ok config

/-- A setup that comes to have its answers. -/
structure Asked (digest : Digest) (places : Places File) (run : SetupRun) (root : SetupRoot File)
    (step : ProviderStep) (answers : Value) (config : Option Value) : Prop
    extends Answered digest places run root step answers config where
  seeded : step.seeded = .ok ()
  due : root.setups (places.setup step.provider) = none ∨ run.options.forceSetup = true

theorem Answered.unique {digest : Digest} {places : Places File} {run : SetupRun} {root : SetupRoot File}
    {step : ProviderStep} {answers answers' : Value} {config config' : Option Value}
    (h : Answered digest places run root step answers config)
    (h' : Answered digest places run root step answers' config') : answers = answers' ∧ config = config' :=
  ⟨Except.ok.inj (h.answered.symm.trans h'.answered), Except.ok.inj (h.applied.symm.trans h'.applied)⟩

/-- Two roots with the same files, which may differ in what was handed over. -/
structure Kept (root root' : SetupRoot File) : Prop where
  envelopes : root'.config.envelopes = root.config.envelopes
  setups : root'.setups = root.setups
  verifies : root'.verifies = root.verifies

theorem Kept.refl (root : SetupRoot File) : Kept root root := ⟨rfl, rfl, rfl⟩

/-- A component is asked, and no envelope changes. -/
theorem applyAnswers_asked (path : EnvelopePath File) (calls : QaCalls) (pack : Pack) (providerId : String)
    (currentConfig : Option Value) (root : ProvidersRoot File) :
    ∃ root', (applyAnswersViaComponentQa path calls pack providerId currentConfig).run root
        = (.ok (componentAnswer calls pack currentConfig), root') ∧ root'.envelopes = root.envelopes := by
  unfold applyAnswersViaComponentQa componentAnswer
  cases supportsComponentQaContract pack with
  | false => exact ⟨root, rfl, rfl⟩
  | true =>
    rcases calls.ready with diagnostic | _ | _
    · exact ⟨root, rfl, rfl⟩
    · exact ⟨root, rfl, rfl⟩
    · cases currentConfig with
      | none => exact ⟨root, rfl, rfl⟩
      | some config => exact ⟨_, rfl, rfl⟩

/-- What is stored stands in the way of a setup or not. -/
theorem ensureContract_run (digest : Digest) (path : EnvelopePath File) (providerId flowId : String)
    (pack : Pack) (allowContractChange : Bool) (root : ProvidersRoot File) :
    ∃ result, (ensureContractCompatible digest path providerId flowId pack allowContractChange).run root
        = (result, root)
      ∧ (result = .ok () ↔ ∀ stored, root.envelopes (path providerId) = some stored →
          stored.describeHash = resolvedDescribeHash digest pack providerId ∨ allowContractChange = true) := by
  unfold ensureContractCompatible readProviderConfigEnvelope
  rw [Eff.bind_read_run]
  cases root.envelopes (path providerId) with
  | none => exact ⟨.ok (), rfl, by simp⟩
  | some stored =>
    by_cases hdrift : stored.describeHash ≠ resolvedDescribeHash digest pack providerId ∧ allowContractChange = false
    · simp only [if_pos hdrift]
      refine ⟨_, rfl, ⟨nofun, fun h => ?_⟩⟩
      exact absurd (h stored rfl) (by simp [hdrift.1, hdrift.2])
    · simp only [if_neg hdrift]
      refine ⟨.ok (), rfl, ⟨fun _ other hother => ?_, fun _ => rfl⟩⟩
      rw [← Option.some.inj hother]
      by_cases hsame : stored.describeHash = resolvedDescribeHash digest pack providerId
      · exact Or.inl hsame
      · exact Or.inr (Bool.eq_true_of_not_eq_false fun hallow => hdrift ⟨hsame, hallow⟩)

section OneProvider

variable {digest : Digest} {places : Places File} {run : SetupRun} {step : ProviderStep} {root : SetupRoot File}

/-- The answers of a provider are asked for without a change to its files. -/
theorem setupAnswers_cases (digest : Digest) (places : Places File) (run : SetupRun) (step : ProviderStep)
    (root : SetupRoot File) :
    ∃ root', Kept root root'
      ∧ ((∃ message, (setupAnswers digest places run step).run root = (.error message, root')
          ∧ ∀ answers config, ¬ Answered digest places run root step answers config)
        ∨ ∃ answers config, (setupAnswers digest places run step).run root = (.ok (answers, config), root')
          ∧ Answered digest places run root step answers config) := by
  unfold setupAnswers
  cases hanswers : step.answers with
  | error message =>
    exact ⟨root, .refl root, Or.inl ⟨message, rfl, fun _ _ h => by cases hanswers.symm.trans h.answered⟩⟩
  | ok answers =>
    cases hreadable : step.readable with
    | error message =>
      exact ⟨root, .refl root, Or.inl ⟨message, rfl, fun _ _ h => by cases hreadable.symm.trans h.readable⟩⟩
    | ok _ =>
      have hread : (readProviderConfigEnvelope places.envelope step.provider).run root.config
          = (.ok (root.config.envelopes (places.envelope step.provider)), root.config) := rfl
      rw [Eff.bind_lift_run_ok, Eff.bind_lift_run_ok, onConfig, Eff.bind_within_of_ok hread]
      obtain ⟨result, hensure, hcompatible⟩ := ensureContract_run digest places.envelope step.provider
        (step.cfg.setupFlow.getD "setup_default") step.pack run.options.allowContractChange root.config
      cases result with
      | error message =>
        rw [onConfig, Eff.bind_within_of_error hensure]
        refine ⟨root, .refl root, Or.inl ⟨message, rfl, fun _ _ h => ?_⟩⟩
        cases hcompatible.mpr h.compatible
      | ok _ =>
        obtain ⟨config', hasked, henvelopes⟩ := applyAnswers_asked places.envelope step.calls step.pack
          step.provider ((root.config.envelopes (places.envelope step.provider)).map (·.config)) root.config
        rw [onConfig, Eff.bind_within_of_ok hensure, onConfig, Eff.bind_within_of_ok hasked]
        refine ⟨{ root with config := config' }, ⟨henvelopes, rfl, rfl⟩, ?_⟩
        cases hanswer : componentAnswer step.calls step.pack
          ((root.config.envelopes (places.envelope step.provider)).map (·.config)) with
        | error diagnostic => exact Or.inl ⟨_, rfl, fun _ _ h => by cases hanswer.symm.trans h.applied⟩
        | ok config =>
          exact Or.inr ⟨answers, config, rfl, hanswers, hreadable, hcompatible.mp rfl, hanswer⟩

variable [DecidableEq File]

/-- **A setup up to its record**: it fails or is skipped before it, or has its answers. -/
theorem setupProvider_cases (digest : Digest) (places : Places File) (run : SetupRun) (step : ProviderStep)
    (root : SetupRoot File) :
    (∃ message root', (setupProvider digest places run step).run root = (.error message, root')
        ∧ Kept root root' ∧ ∀ answers config, ¬ Asked digest places run root step answers config)
      ∨ ((setupProvider digest places run step).run root = (.ok .skipped, root)
        ∧ root.setups (places.setup step.provider) ≠ none ∧ run.options.forceSetup = false)
      ∨ ∃ answers config root', Asked digest places run root step answers config ∧ Kept root root'
        ∧ (setupProvider digest places run step).run root
          = (match config with
            | some config => setupByComponent digest places run step answers config
            | none => setupByFlow digest places run step answers).run root' := by
  unfold setupProvider
  cases hseeded : step.seeded with
  | error message =>
    exact Or.inl ⟨message, root, rfl, .refl root, fun _ _ h => by cases hseeded.symm.trans h.seeded⟩
  | ok _ =>
    rw [Eff.bind_lift_run_ok, Eff.bind_read_run]
    by_cases hskip : ((root.setups (places.setup step.provider)).isSome && !run.options.forceSetup) = true
    · obtain ⟨hrecorded, hforce⟩ := Bool.and_eq_true_iff.mp hskip
      refine Or.inr (Or.inl ⟨?_, Option.isSome_iff_ne_none.mp hrecorded, by simpa using hforce⟩)
      simp only [hskip, if_true]
      rfl
    · have hdue : root.setups (places.setup step.provider) = none ∨ run.options.forceSetup = true := by
        cases hrecorded : root.setups (places.setup step.provider) with
        | none => exact Or.inl rfl
        | some saved => exact Or.inr (by simpa [hrecorded] using hskip)
      simp only [hskip, if_false, Bool.false_eq_true]
      obtain ⟨root', hkept, ⟨message, hrun, hnot⟩ | ⟨answers, config, hrun, hanswered⟩⟩ :=
        setupAnswers_cases digest places run step root
      · exact Or.inl ⟨message, root', Eff.bind_run_of_error hrun, hkept, fun _ _ h => hnot _ _ h.toAnswered⟩
      · exact Or.inr (Or.inr ⟨answers, config, root', ⟨hanswered, hseeded, hdue⟩, hkept,
          Eff.bind_run_of_ok hrun⟩)

/-- A setup that has its answers goes on with them. -/
theorem setupProvider_of_asked {answers : Value} {config : Option Value}
    (h : Asked digest places run root step answers config) :
    ∃ root', Kept root root' ∧ (setupProvider digest places run step).run root
      = (match config with
        | some config => setupByComponent digest places run step answers config
        | none => setupByFlow digest places run step answers).run root' := by
  rcases setupProvider_cases digest places run step root with ⟨_, _, _, _, hnot⟩ | ⟨_, hrecorded, hforce⟩
    | ⟨answers', config', root', hasked, hkept, hrun⟩
  · exact absurd h (hnot answers config)
  · rcases h.due with hnone | hforced
    · exact absurd hnone hrecorded
    · exact absurd hforced (by simp [hforce])
  · obtain ⟨rfl, rfl⟩ := h.toAnswered.unique hasked.toAnswered
    exact ⟨root', hkept, hrun⟩

/-! ## After the record -/

/-- What a setup with its answers records: what its component gave, or what its setup flow left. -/
inductive Recording (run : SetupRun) (step : ProviderStep) (answers : Value) :
    Option Value → (input config : Value) → (success : Bool) → Prop
  | byComponent (config : Value) : Recording run step answers (some config)
      ((assign (setupInput run step answers) "config" config).getD .null) config true
  | byFlow {output : RunnerOutput}
      (h : step.runFlow (step.cfg.setupFlow.getD "setup_default") (setupInput run step answers) = .ok output) :
      Recording run step answers none (setupInput run step answers)
        (((setupInput run step answers).get "config").getD .null) output.success

/-- The webhooks can be verified, where that is due. -/
def Verified (places : Places File) (run : SetupRun) (root : SetupRoot File) (step : ProviderStep)
    (input : Value) : Prop :=
  run.options.verifyWebhooks = true →
    root.verifies (places.verify step.provider) = none ∨ run.options.forceSetup = true →
      ∃ output, step.runFlow (step.cfg.verifyFlow.getD "verify_webhooks") input = .ok output
        ∧ step.verifyRecord = .done

/-- A setup whose record is written and success, and after which nothing fails. -/
structure EndsWell (places : Places File) (run : SetupRun) (root : SetupRoot File) (step : ProviderStep)
    (answers input config : Value) (success : Bool) : Prop where
  recorded : step.record = .done
  succeeded : success = true
  verified : Verified places run root step input
  registered : tryWebhookSetup run step config answers ≠ .panicked
  noted : step.status = .done

/-- **A setup that settles**: it gets no record, or it ends well. -/
def Settles (digest : Digest) (places : Places File) (run : SetupRun) (root : SetupRoot File)
    (step : ProviderStep) : Prop :=
  ∀ answers given input config success, Asked digest places run root step answers given →
    Recording run step answers given input config success →
      (∃ message, step.record = .refused message)
        ∨ EndsWell places run root step answers input config success

theorem saveFile_cases {α : Type} (write : Disk.WriteOutcome) (file : File) (content : α)
    (files : File → Option (Saved α)) :
    ∃ result files', (saveFile write file content).run files = (result, files')
      ∧ (result = .ok () ↔ write = .done) := by
  cases write with
  | done => exact ⟨.ok (), _, rfl, by simp⟩
  | refused message => exact ⟨.error message, _, rfl, by simp⟩
  | torn message => exact ⟨.error message, _, rfl, by simp⟩

theorem verifyWebhooks_cases (places : Places File) (run : SetupRun) (step : ProviderStep) (input : Value)
    (root : SetupRoot File) :
    ∃ result root', (verifyWebhooks places run step input).run root = (result, root')
      ∧ root'.setups = root.setups ∧ (result = .ok () ↔ Verified places run root step input) := by
  unfold verifyWebhooks Verified
  rw [Eff.bind_read_run]
  by_cases hdue : (run.options.verifyWebhooks && (!(root.verifies (places.verify step.provider)).isSome
      || run.options.forceSetup)) = true
  · obtain ⟨hverify, hnone⟩ := Bool.and_eq_true_iff.mp hdue
    have hnone : root.verifies (places.verify step.provider) = none ∨ run.options.forceSetup = true := by
      simpa using hnone
    simp only [if_pos hdue]
    cases houtput : step.runFlow (step.cfg.verifyFlow.getD "verify_webhooks") input with
    | error message => exact ⟨.error message, root, rfl, rfl, by simp [hverify, hnone]⟩
    | ok output =>
      obtain ⟨result, verifies, hsave, hdone⟩ := saveFile_cases step.verifyRecord (places.verify step.provider)
        (runRecord step.provider (step.cfg.verifyFlow.getD "verify_webhooks") output) root.verifies
      rw [Eff.bind_lift_run_ok, Eff.within_run, hsave]
      exact ⟨result, _, rfl, rfl, by simp [hdone, hverify, hnone]⟩
  · simp only [if_neg hdue]
    refine ⟨.ok (), root, rfl, rfl, ⟨fun _ hverify hnone => absurd ?_ hdue, fun _ => rfl⟩⟩
    rw [hverify, Bool.true_and, Bool.or_eq_true]
    exact hnone.imp (fun h => by rw [h]; rfl) id

theorem writeStatus_cases (places : Places File) (step : ProviderStep) (root : SetupRoot File) :
    ∃ result root', (writeStatus places step).run root = (result, root') ∧ root'.setups = root.setups
      ∧ (result = .ok () ↔ step.status = .done) := by
  obtain ⟨result, statuses, hsave, hdone⟩ := saveFile_cases step.status (places.status step.provider)
    (⟨step.provider, places.setup step.provider⟩ : ProviderStatus File) root.statuses
  unfold writeStatus
  rw [Eff.within_run, hsave]
  exact ⟨result, _, rfl, rfl, hdone⟩

/-- What comes after the record leaves it as it is, and completes the setup or not. -/
theorem finishProvider_cases (places : Places File) (run : SetupRun) (step : ProviderStep)
    (input config answers : Value) (success : Bool) (root : SetupRoot File) :
    ∃ result root', (finishProvider places run step input config answers success).run root = (result, root')
      ∧ root'.setups = root.setups
      ∧ (result = .ok (.completed true) ↔ success = true ∧ Verified places run root step input
        ∧ tryWebhookSetup run step config answers ≠ .panicked ∧ step.status = .done) := by
  obtain ⟨result, root', hrun, hsetups, hverified⟩ := verifyWebhooks_cases places run step input root
  unfold finishProvider
  cases result with
  | error message =>
    rw [Eff.bind_run_of_error hrun]
    exact ⟨.error message, root', rfl, hsetups, ⟨nofun, fun h => by cases hverified.mpr h.2.1⟩⟩
  | ok _ =>
    rw [Eff.bind_run_of_ok hrun]
    have hverified := hverified.mp rfl
    by_cases hpanics : tryWebhookSetup run step config answers = .panicked
    · simp only [if_pos hpanics]
      exact ⟨.ok .panicked, root', rfl, hsetups, ⟨nofun, fun h => absurd hpanics h.2.2.1⟩⟩
    · simp only [if_neg hpanics]
      obtain ⟨noted, root'', hstatus, hsetups', hdone⟩ := writeStatus_cases places step root'
      cases noted with
      | error message =>
        rw [Eff.bind_run_of_error hstatus]
        exact ⟨.error message, root'', rfl, hsetups'.trans hsetups,
          ⟨nofun, fun h => by cases hdone.mpr h.2.2.2⟩⟩
      | ok _ =>
        rw [Eff.bind_run_of_ok hstatus]
        refine ⟨.ok (.completed success), root'', rfl, hsetups'.trans hsetups, ?_⟩
        rw [Except.ok.injEq, SetupEnd.completed.injEq]
        exact ⟨fun h => ⟨h, hverified, hpanics, hdone.mp rfl⟩, fun h => h.1⟩

/-- What comes after the record of a setup leaves the configurations as they are. -/
theorem finishProvider_leaves (places : Places File) (run : SetupRun) (step : ProviderStep)
    (input config answers : Value) (success : Bool) :
    Eff.Leaves (·.config) (finishProvider places run step input config answers success) := by
  unfold finishProvider verifyWebhooks
  refine Eff.Leaves.bind (Eff.Leaves.bind (Eff.Leaves.read _ _) fun verified => ?_) fun _ => ?_
  · split
    · exact Eff.Leaves.bind (Eff.Leaves.lift _ _) fun output => fun root => rfl
    · exact Eff.Leaves.pure _ _
  · split
    · exact Eff.Leaves.pure _ _
    · exact Eff.Leaves.bind (fun root => rfl) fun _ => Eff.Leaves.pure _ _

/-- What is recorded, and what is done with the configuration and after it. -/
def recordAndFinish (places : Places File) (run : SetupRun) (step : ProviderStep) (record : ProviderRunRecord)
    (keepConfig : Eff (SetupRoot File) Unit) (input config answers : Value) (success : Bool) :
    Eff (SetupRoot File) SetupEnd := do
  writeSetup places step record
  keepConfig
  finishProvider places run step input config answers success

/-- A computation that does not fail, and keeps the records. -/
def KeepsRecords (x : Eff (SetupRoot File) Unit) : Prop :=
  ∀ root, ∃ root', x.run root = (.ok (), root') ∧ root'.setups = root.setups ∧ root'.verifies = root.verifies

/-- The configuration that is kept, where there is one. -/
def keepConfig (digest : Digest) (places : Places File) (step : ProviderStep) :
    Option Value → Eff (SetupRoot File) Unit
  | some config => writeConfig digest places step config
  | none => pure ()

theorem keepsRecords_keepConfig (step : ProviderStep) (config : Option Value) :
    KeepsRecords (keepConfig digest places step config) := by
  intro root
  cases config with
  | none => exact ⟨root, rfl, rfl, rfl⟩
  | some config => exact ⟨_, rfl, rfl, rfl⟩

theorem setupByComponent_run (digest : Digest) (places : Places File) (run : SetupRun) (step : ProviderStep)
    (answers config : Value) (root : SetupRoot File) :
    (setupByComponent digest places run step answers config).run root
      = (recordAndFinish places run step
          (qaRecord step.provider (step.cfg.setupFlow.getD "setup_default") config)
          (keepConfig digest places step (some config))
          ((assign (setupInput run step answers) "config" config).getD .null) config answers true).run root := rfl

theorem setupByFlow_of_error {answers : Value} {message : String}
    (h : step.runFlow (step.cfg.setupFlow.getD "setup_default") (setupInput run step answers) = .error message)
    (root : SetupRoot File) :
    (setupByFlow digest places run step answers).run root = (.error message, root) := by
  unfold setupByFlow
  simp only [h, Eff.bind_lift_run_error]

theorem setupByFlow_of_output {answers : Value} {output : RunnerOutput}
    (h : step.runFlow (step.cfg.setupFlow.getD "setup_default") (setupInput run step answers) = .ok output)
    (root : SetupRoot File) :
    (setupByFlow digest places run step answers).run root
      = (recordAndFinish places run step
          (runRecord step.provider (step.cfg.setupFlow.getD "setup_default") output)
          (keepConfig digest places step (extractConfigForEnvelope output.parsed (setupInput run step answers)))
          (setupInput run step answers) (((setupInput run step answers).get "config").getD .null) answers
          output.success).run root := by
  unfold setupByFlow
  simp only [h, Eff.bind_lift_run_ok]
  cases extractConfigForEnvelope output.parsed (setupInput run step answers) <;> rfl

/-- **A record that is written** is followed by success, or by something else. -/
theorem recordAndFinish_cases (step : ProviderStep) (record : ProviderRunRecord)
    {keepConfig : Eff (SetupRoot File) Unit} (hkeep : KeepsRecords keepConfig) (input config answers : Value)
    (success : Bool) {root root' : SetupRoot File} (hkept : Kept root root') :
    ∃ result after, (recordAndFinish places run step record keepConfig input config answers success).run root'
        = (result, after)
      ∧ (((∃ message, step.record = .refused message) ∧ (∃ message, result = .error message)
          ∧ after.setups = root.setups)
        ∨ (∀ message, step.record ≠ .refused message)
          ∧ (∃ saved, after.setups = Function.update root.setups (places.setup step.provider) (some saved))
          ∧ (result = .ok (.completed true) ↔ EndsWell places run root step answers input config success)) := by
  unfold recordAndFinish writeSetup
  cases hwrite : step.record with
  | refused message =>
    have hsave : (saveFile (.refused message) (places.setup step.provider) record).run root'.setups
        = (.error message, root'.setups) := rfl
    rw [Eff.bind_within_of_error hsave]
    exact ⟨.error message, root', rfl, Or.inl ⟨⟨message, rfl⟩, ⟨message, rfl⟩, hkept.setups⟩⟩
  | torn message =>
    have hsave : (saveFile (.torn message) (places.setup step.provider) record).run root'.setups
        = (.error message, Function.update root'.setups (places.setup step.provider) (some .cut)) := rfl
    rw [Eff.bind_within_of_error hsave, hkept.setups]
    refine ⟨.error message, _, rfl, Or.inr ⟨by simp, ⟨.cut, rfl⟩, ⟨nofun, fun h => ?_⟩⟩⟩
    cases hwrite.symm.trans h.recorded
  | done =>
    have hsave : (saveFile .done (places.setup step.provider) record).run root'.setups
        = (.ok (), Function.update root'.setups (places.setup step.provider) (some (.whole record))) := rfl
    rw [Eff.bind_within_of_ok hsave, hkept.setups]
    obtain ⟨kept, hrun, hsetups, hverifies⟩ := hkeep { root' with
      setups := Function.update root.setups (places.setup step.provider) (some (.whole record)) }
    rw [Eff.bind_run_of_ok hrun]
    obtain ⟨result, after, hfinish, hafter, hends⟩ :=
      finishProvider_cases places run step input config answers success kept
    refine ⟨result, after, hfinish, Or.inr ⟨by simp, ⟨.whole record, hafter.trans hsetups⟩, hends.trans ?_⟩⟩
    unfold Verified
    rw [hverifies, hkept.verifies]
    exact ⟨fun ⟨hsuccess, hverified, hpanics, hstatus⟩ => ⟨hwrite, hsuccess, hverified, hpanics, hstatus⟩,
      fun h => ⟨h.succeeded, h.verified, h.registered, h.noted⟩⟩

/-- A setup with its answers, and what it records. -/
theorem setupProvider_recorded {answers : Value} {given : Option Value} {input config : Value} {success : Bool}
    (hasked : Asked digest places run root step answers given)
    (h : Recording run step answers given input config success) :
    ∃ result after, (setupProvider digest places run step).run root = (result, after)
      ∧ (((∃ message, step.record = .refused message) ∧ (∃ message, result = .error message)
          ∧ after.setups = root.setups)
        ∨ (∀ message, step.record ≠ .refused message)
          ∧ (∃ saved, after.setups = Function.update root.setups (places.setup step.provider) (some saved))
          ∧ (result = .ok (.completed true) ↔ EndsWell places run root step answers input config success)) := by
  obtain ⟨root', hkept, hrun⟩ := setupProvider_of_asked hasked
  rw [hrun]
  cases h with
  | byComponent config =>
    simp only [setupByComponent_run]
    exact recordAndFinish_cases step _ (keepsRecords_keepConfig step (some config)) _ config answers true hkept
  | @byFlow output houtput =>
    simp only [setupByFlow_of_output houtput]
    exact recordAndFinish_cases step _ (keepsRecords_keepConfig step _) _ _ answers output.success hkept

/-- A setup with its answers that records nothing failed. -/
theorem recording_or_failed {answers : Value} {given : Option Value}
    (hasked : Asked digest places run root step answers given) :
    (∃ input config success, Recording run step answers given input config success)
      ∨ ∃ message after, (setupProvider digest places run step).run root = (.error message, after)
        ∧ after.setups = root.setups := by
  cases given with
  | some config => exact Or.inl ⟨_, _, _, .byComponent config⟩
  | none =>
    cases houtput : step.runFlow (step.cfg.setupFlow.getD "setup_default") (setupInput run step answers) with
    | ok output => exact Or.inl ⟨_, _, _, .byFlow houtput⟩
    | error message =>
      obtain ⟨root', hkept, hrun⟩ := setupProvider_of_asked hasked
      exact Or.inr ⟨message, root', hrun.trans (setupByFlow_of_error houtput root'), hkept.setups⟩

/-- What a setup comes to that settles and has no record before it. -/
theorem setupProvider_of_settles (hsettles : Settles digest places run root step)
    (hnone : root.setups (places.setup step.provider) = none) :
    ∃ result after, (setupProvider digest places run step).run root = (result, after)
      ∧ (((∃ message, result = .error message) ∧ after.setups = root.setups)
        ∨ result = .ok (.completed true)
          ∧ ∃ saved, after.setups = Function.update root.setups (places.setup step.provider) (some saved)) := by
  rcases setupProvider_cases digest places run step root with ⟨message, root', hrun, hkept, -⟩
    | ⟨-, hrecorded, -⟩ | ⟨answers, given, -, hasked, -, -⟩
  · exact ⟨_, _, hrun, Or.inl ⟨⟨message, rfl⟩, hkept.setups⟩⟩
  · exact absurd hnone hrecorded
  · rcases recording_or_failed hasked with ⟨input, config, success, hrecording⟩ | ⟨message, after, hrun, hsetups⟩
    · obtain ⟨result, after, hrun, ⟨-, herror, hsetups⟩ | ⟨hwritten, hsaved, hcompleted⟩⟩ :=
        setupProvider_recorded hasked hrecording
      · exact ⟨result, after, hrun, Or.inl ⟨herror, hsetups⟩⟩
      · rcases hsettles answers given input config success hasked hrecording with ⟨message, hrefused⟩ | hends
        · exact absurd hrefused (hwritten message)
        · exact ⟨result, after, hrun, Or.inr ⟨hcompleted.mpr hends, hsaved⟩⟩
    · exact ⟨_, _, hrun, Or.inl ⟨⟨message, rfl⟩, hsetups⟩⟩

/-- **A setup that is due settles** exactly where a record of it means that it was completed with
success. -/
theorem settles_iff (hnone : root.setups (places.setup step.provider) = none) :
    Settles digest places run root step
      ↔ (((setupProvider digest places run step).run root).2.setups (places.setup step.provider) ≠ none →
        ((setupProvider digest places run step).run root).1 = .ok (.completed true)) := by
  constructor
  · intro hsettles hrecord
    obtain ⟨result, after, hrun, ⟨-, hsetups⟩ | ⟨hcompleted, -⟩⟩ := setupProvider_of_settles hsettles hnone
    · rw [hrun, hsetups] at hrecord
      exact absurd hnone hrecord
    · rw [hrun]
      exact hcompleted
  · intro hends answers given input config success hasked hrecording
    obtain ⟨result, after, hrun, ⟨hrefused, -⟩ | ⟨-, ⟨saved, hsetups⟩, hcompleted⟩⟩ :=
      setupProvider_recorded hasked hrecording
    · exact Or.inl hrefused
    · rw [hrun, hsetups, Function.update_self] at hends
      exact Or.inr (hcompleted.mp (hends nofun))

end OneProvider

/-! ## Runs -/

section Runs

variable [DecidableEq File]

/-- The setups a run comes to, each with the root it starts in. -/
def reached (digest : Digest) (places : Places File) (run : SetupRun) :
    List ProviderStep → SetupRoot File → List (SetupRoot File × ProviderStep)
  | [], _ => []
  | step :: rest, root =>
    let ended := (setupProvider digest places run step).run root
    (root, step) :: match stopsAfter run.options.continueOnError ended.1 with
      | some _ => []
      | none => reached digest places run rest ended.2

/-- One more run over a root, with the reports of those before it. -/
def execRun (digest : Digest) (places : Places File) (run : SetupRun)
    (done : SetupRoot File × List SetupReport) : SetupRoot File × List SetupReport :=
  let after := runProviderSetup digest places run done.1
  (after.2, done.2 ++ [after.1])

/-- What the runs of a history report. -/
def reports (digest : Digest) (places : Places File) (history : List SetupRun) (root : SetupRoot File) :
    List SetupReport :=
  (Run.run (execRun digest places) history (root, [])).2

/-- Every setup that the runs of a history come to settles. -/
def AllSettle (digest : Digest) (places : Places File) (history : List SetupRun) (root : SetupRoot File) : Prop :=
  ∀ at_ ∈ Run.steps (execRun digest places) history (root, []),
    ∀ setup ∈ reached digest places at_.2 (resolveProviders at_.2) at_.1.1,
      Settles digest places at_.2 setup.1 setup.2

/-- Some run completed the setup of a provider, which reported success. -/
def SetUp (done : List SetupReport) (provider : String) : Prop :=
  ∃ report ∈ done, ⟨provider, .ok (.completed true)⟩ ∈ report.attempts

/-- **Failed setups are retried**: a setup is skipped only in a run after one that completed it with
success, and no run panics. -/
structure RetriesFailed (done : List SetupReport) : Prop where
  skips : ∀ earlier report later, done = earlier ++ report :: later →
    ∀ provider, ⟨provider, .ok .skipped⟩ ∈ report.attempts → SetUp earlier provider
  calm : ∀ report ∈ done, report.result ≠ .panicked

/-- Whoever has a record is known to be set up. -/
def RecordsKnown (places : Places File) (names : List String) (known : String → Prop) (root : SetupRoot File) :
    Prop :=
  ∀ provider ∈ names, root.setups (places.setup provider) ≠ none → known provider

variable {digest : Digest} {places : Places File} {run : SetupRun} {names : List String}

/-- Different providers have different setup files. -/
def OwnFiles (places : Places File) (names : List String) : Prop :=
  ∀ p ∈ names, ∀ q ∈ names, places.setup p = places.setup q → p = q

/-- **One setup**: it is skipped where its provider is known, or adds its provider to those set up. -/
theorem setupProvider_known (hforce : run.options.forceSetup = false) (hfiles : OwnFiles places names)
    {known : String → Prop} {root : SetupRoot File} (hknown : RecordsKnown places names known root)
    {step : ProviderStep} (hname : step.provider ∈ names) (hsettles : Settles digest places run root step) :
    ∃ result after, (setupProvider digest places run step).run root = (result, after)
      ∧ result ≠ .ok .panicked ∧ (result = .ok .skipped → known step.provider)
      ∧ RecordsKnown places names (fun p => known p ∨ (result = .ok (.completed true) ∧ p = step.provider)) after := by
  cases hrecord : root.setups (places.setup step.provider) with
  | some saved =>
    have hprovider := hknown _ hname (by simp [hrecord])
    have hknown' : ∀ result : Except String SetupEnd, RecordsKnown places names
        (fun p => known p ∨ (result = .ok (.completed true) ∧ p = step.provider)) root :=
      fun _ p hp hsome => Or.inl (hknown p hp hsome)
    rcases setupProvider_cases digest places run step root with ⟨message, root', hrun, hkept, -⟩
      | ⟨hrun, -, -⟩ | ⟨answers, given, -, hasked, -, -⟩
    · refine ⟨.error message, root', hrun, nofun, nofun, fun p hp hsome => ?_⟩
      rw [hkept.setups] at hsome
      exact hknown' _ p hp hsome
    · exact ⟨.ok .skipped, root, hrun, nofun, fun _ => hprovider, hknown' _⟩
    · rcases hasked.due with hnone | hforced
      · cases hrecord.symm.trans hnone
      · cases hforce.symm.trans hforced
  | none =>
    obtain ⟨result, after, hrun, ⟨⟨message, rfl⟩, hsetups⟩ | ⟨rfl, saved, hsetups⟩⟩ :=
      setupProvider_of_settles hsettles hrecord
    · refine ⟨.error message, after, hrun, nofun, nofun, fun p hp hsome => Or.inl (hknown p hp ?_)⟩
      rwa [hsetups] at hsome
    · refine ⟨.ok (.completed true), after, hrun, nofun, nofun, fun p hp hsome => ?_⟩
      by_cases hsame : places.setup p = places.setup step.provider
      · exact Or.inr ⟨rfl, hfiles p hp _ hname hsame⟩
      · rw [hsetups, Function.update_of_ne hsame] at hsome
        exact Or.inl (hknown p hp hsome)

/-- **One run**: what it skips was known before it. -/
theorem setupProviders_known (hforce : run.options.forceSetup = false) (hfiles : OwnFiles places names)
    {steps : List ProviderStep} (hdistinct : (steps.map (·.provider)).Nodup)
    (hnames : ∀ step ∈ steps, step.provider ∈ names) {known : String → Prop} {root : SetupRoot File}
    (hknown : RecordsKnown places names known root)
    (hsettles : ∀ setup ∈ reached digest places run steps root, Settles digest places run setup.1 setup.2) :
    (setupProviders digest places run steps root).1.result ≠ .panicked
      ∧ (∀ attempt ∈ (setupProviders digest places run steps root).1.attempts,
          attempt.provider ∈ steps.map (·.provider) ∧ (attempt.ending = .ok .skipped → known attempt.provider))
      ∧ RecordsKnown places names
          (fun p => known p
            ∨ ⟨p, .ok (.completed true)⟩ ∈ (setupProviders digest places run steps root).1.attempts)
          (setupProviders digest places run steps root).2 := by
  induction steps generalizing known root with
  | nil => exact ⟨nofun, nofun, fun p hp hsome => Or.inl (hknown p hp hsome)⟩
  | cons step rest ih =>
    obtain ⟨hfresh, hdistinct⟩ := List.nodup_cons.mp hdistinct
    obtain ⟨result, after, hrun, hcalm, hskipped, hknown'⟩ := setupProvider_known hforce hfiles hknown
      (hnames step List.mem_cons_self) (hsettles (root, step) List.mem_cons_self)
    unfold setupProviders
    simp only [hrun]
    cases hstops : stopsAfter run.options.continueOnError result with
    | some ended =>
      refine ⟨fun hpanicked => ?_, fun attempt hmem => ?_, fun p hp hsome => ?_⟩
      · rcases result with message | _ | _ | _
        · unfold stopsAfter at hstops
          split at hstops <;> simp_all
        · cases hstops
        · cases hstops
        · exact hcalm rfl
      · rw [List.mem_singleton.mp hmem]
        exact ⟨List.mem_cons_self, hskipped⟩
      · refine (hknown' p hp hsome).imp_right fun ⟨hcompleted, hsame⟩ => ?_
        rw [hcompleted, hsame]
        exact List.mem_singleton_self _
    | none =>
      have hrest : ∀ setup ∈ reached digest places run rest after, Settles digest places run setup.1 setup.2 := by
        intro setup hmem
        refine hsettles setup (List.mem_cons_of_mem _ ?_)
        simp only [hrun, hstops]
        exact hmem
      obtain ⟨hcalm', hattempts, hafter⟩ :=
        ih hdistinct (fun other hother => hnames other (List.mem_cons_of_mem step hother)) hknown' hrest
      refine ⟨hcalm', fun attempt hmem => ?_, fun p hp hsome => ?_⟩
      · rcases List.mem_cons.mp hmem with rfl | hmem
        · exact ⟨List.mem_cons_self, hskipped⟩
        · obtain ⟨hlisted, hskips⟩ := hattempts attempt hmem
          refine ⟨List.mem_cons_of_mem _ hlisted, fun hskip => ?_⟩
          rcases hskips hskip with hbefore | ⟨-, hsame⟩
          · exact hbefore
          · rw [hsame] at hlisted
            exact absurd hlisted hfresh
      · rcases hafter p hp hsome with (hbefore | ⟨hcompleted, hsame⟩) | hlater
        · exact Or.inl hbefore
        · refine Or.inr (List.mem_cons.mpr (Or.inl ?_))
          rw [hcompleted, hsame]
        · exact Or.inr (List.mem_cons_of_mem _ hlater)

omit [DecidableEq File] in
theorem resolveProviders_sublist (run : SetupRun) : (resolveProviders run).Sublist run.providers := by
  unfold resolveProviders
  cases run.options.providers with
  | none => exact List.Sublist.refl _
  | some filter => exact List.filter_sublist

/-- A run ends before its first provider, or goes through its providers. -/
theorem runProviderSetup_cases (digest : Digest) (places : Places File) (run : SetupRun) (root : SetupRoot File) :
    (∃ result, result ≠ RunEnd.panicked ∧ runProviderSetup digest places run root = (⟨[], result⟩, root))
      ∨ runProviderSetup digest places run root
        = setupProviders digest places run (resolveProviders run) root := by
  unfold runProviderSetup
  by_cases hnothing : ((resolveProviders run).isEmpty || run.options.skipSetup) = true
  · exact Or.inl ⟨.ok, nofun, if_pos hnothing⟩
  · simp only [if_neg hnothing]
    cases run.opened with
    | error message => exact Or.inl ⟨.err message, nofun, rfl⟩
    | ok _ => exact Or.inr rfl

theorem runProviderSetup_known (hforce : run.options.forceSetup = false) (hfiles : OwnFiles places names)
    (hnames : ∀ step ∈ run.providers, step.provider ∈ names) {known : String → Prop} {root : SetupRoot File}
    (hknown : RecordsKnown places names known root)
    (hsettles : ∀ setup ∈ reached digest places run (resolveProviders run) root,
      Settles digest places run setup.1 setup.2) :
    (runProviderSetup digest places run root).1.result ≠ .panicked
      ∧ (∀ provider, ⟨provider, .ok .skipped⟩ ∈ (runProviderSetup digest places run root).1.attempts → known provider)
      ∧ RecordsKnown places names
          (fun p => known p ∨ ⟨p, .ok (.completed true)⟩ ∈ (runProviderSetup digest places run root).1.attempts)
          (runProviderSetup digest places run root).2 := by
  rcases runProviderSetup_cases digest places run root with ⟨result, hcalm, hrun⟩ | hrun
  · rw [hrun]
    exact ⟨hcalm, fun _ hmem => absurd hmem List.not_mem_nil, fun p hp hsome => Or.inl (hknown p hp hsome)⟩
  · rw [hrun]
    have hsublist := resolveProviders_sublist run
    obtain ⟨hcalm, hattempts, hafter⟩ := setupProviders_known hforce hfiles
      ((hsublist.map (·.provider)).nodup run.distinct) (fun step hmem => hnames step (hsublist.subset hmem))
      hknown hsettles
    exact ⟨hcalm, fun provider hmem => (hattempts ⟨provider, .ok .skipped⟩ hmem).2 rfl, hafter⟩

/-- One more run that skips only what was set up before. -/
theorem RetriesFailed.append {done : List SetupReport} {report : SetupReport} (h : RetriesFailed done)
    (hcalm : report.result ≠ .panicked)
    (hskips : ∀ provider, ⟨provider, .ok .skipped⟩ ∈ report.attempts → SetUp done provider) :
    RetriesFailed (done ++ [report]) where
  skips := by
    intro earlier other later heq
    rcases List.eq_nil_or_concat later with rfl | ⟨later, last, rfl⟩
    · obtain ⟨rfl, hsame⟩ := List.append_inj' heq rfl
      rw [← (List.cons.inj hsame).1]
      exact hskips
    · rw [List.concat_eq_append, ← List.cons_append, ← List.append_assoc] at heq
      exact h.skips earlier other later (List.append_inj' heq rfl).1
  calm := by
    intro other hmem
    rcases List.mem_append.mp hmem with hmem | hmem
    · exact h.calm other hmem
    · rw [List.mem_singleton.mp hmem]
      exact hcalm

/-- The names of the providers of a history. -/
def providerNames (history : List SetupRun) : List String :=
  history.flatMap fun run => run.providers.map (·.provider)

/-- **Failed setups are retried** in every history whose setups all settle: from a root without setup
records, without forced setups, and where different providers have different setup files. -/
theorem retriesFailed_of_settles (digest : Digest) (places : Places File) {history : List SetupRun}
    {root : SetupRoot File} (hfresh : ∀ file, root.setups file = none)
    (hforce : ∀ run ∈ history, run.options.forceSetup = false)
    (hfiles : OwnFiles places (providerNames history)) (hsettles : AllSettle digest places history root) :
    RetriesFailed (reports digest places history root) := by
  let Inv : SetupRoot File × List SetupReport → Prop := fun done =>
    RetriesFailed done.2 ∧ RecordsKnown places (providerNames history) (SetUp done.2) done.1
  have hinit : Inv (root, []) :=
    ⟨⟨fun earlier report later h => by simp at h, nofun⟩, fun p _ hsome => absurd (hfresh _) hsome⟩
  have hstep : ∀ done run, (run ∈ history ∧ ∀ setup ∈ reached digest places run (resolveProviders run) done.1,
      Settles digest places run setup.1 setup.2) → Inv done → Inv (execRun digest places run done) := by
    intro done run ⟨hmem, hsettles⟩ ⟨hretries, hknown⟩
    have hnames : ∀ step ∈ run.providers, step.provider ∈ providerNames history := fun step hstep =>
      List.mem_flatMap.mpr ⟨run, hmem, List.mem_map_of_mem hstep⟩
    obtain ⟨hcalm, hskips, hafter⟩ := runProviderSetup_known (hforce run hmem) hfiles hnames hknown hsettles
    refine ⟨hretries.append hcalm hskips, fun p hp hsome => ?_⟩
    rcases hafter p hp hsome with ⟨report, hreport, hattempt⟩ | hattempt
    · exact ⟨report, List.mem_append_left _ hreport, hattempt⟩
    · exact ⟨_, List.mem_append_right _ (List.mem_singleton_self _), hattempt⟩
  have hok : ∀ at_ ∈ Run.steps (execRun digest places) history (root, []), at_.2 ∈ history
      ∧ ∀ setup ∈ reached digest places at_.2 (resolveProviders at_.2) at_.1.1,
        Settles digest places at_.2 setup.1 setup.2 :=
    fun at_ hmem => ⟨Run.mem_of_mem_steps hmem, hsettles at_ hmem⟩
  exact (@Run.invariant_run _ _ _ Inv (fun done run => run ∈ history
    ∧ ∀ setup ∈ reached digest places run (resolveProviders run) done.1, Settles digest places run setup.1 setup.2)
    _ _ hinit hstep hok).1.1

end Runs

/-! ## A setup flow that fails -/

/-- The files of a root by their names. -/
def rootPlaces : Places String where
  envelope provider := provider ++ "/config.envelope.cbor"
  setup provider := provider ++ ".setup.json"
  verify provider := provider ++ ".verify.json"
  status provider := provider ++ ".status.json"

def freshRoot : SetupRoot String where
  config := ⟨fun _ => none, []⟩
  setups _ := none
  verifies _ := none
  statuses _ := none

/-- A provider of a pack without components, whose setup flow ends with a code. -/
def slackStep (code : Int) : ProviderStep where
  provider := "messaging-slack"
  cfg := ⟨none, none⟩
  pack := ⟨"pack", none⟩
  seeded := .ok ()
  answers := .ok (.object [])
  answersJson := "\x7b\x7d"
  readable := .ok ()
  calls := ⟨.ok false, fun config => .ok config⟩
  runFlow _ _ := .ok ⟨some code, "", "", none⟩
  record := .done
  written := .ok ()
  verifyRecord := .done
  status := .done

def slackRun (code : Int) : SetupRun where
  options := ⟨none, false, false, false, false, true⟩
  tenant := "demo"
  team := "default"
  publicBaseUrl := none
  opened := .ok ()
  providers := [slackStep code]
  distinct := List.nodup_singleton _

def plainHashes : Digest where
  text s := s
  describe d := d.id
  schemas _ := ""

theorem mem_of_mem_reached [DecidableEq File] {digest : Digest} {places : Places File} {run : SetupRun}
    {steps : List ProviderStep} {root : SetupRoot File} {setup : SetupRoot File × ProviderStep}
    (h : setup ∈ reached digest places run steps root) : setup.2 ∈ steps := by
  induction steps generalizing root with
  | nil => cases h
  | cons step rest ih =>
    rcases List.mem_cons.mp h with rfl | h
    · exact List.mem_cons_self
    · split at h
      · cases h
      · exact List.mem_cons_of_mem step (ih h)

/-- A setup flow that ends with success settles. -/
theorem slack_settles (root : SetupRoot String) :
    Settles plainHashes rootPlaces (slackRun 0) root (slackStep 0) := by
  intro answers given input config success hasked hrecording
  obtain rfl : Value.object [] = answers := Except.ok.inj hasked.answered
  refine Or.inr ⟨rfl, ?_, nofun, ?_, rfl⟩
  · cases hrecording with
    | byComponent config => rfl
    | byFlow h =>
      rw [← Except.ok.inj h]
      rfl
  · cases hrecording with
    | byComponent config => cases hasked.applied
    | byFlow h => decide

theorem slack_ownFiles (code : Int) : OwnFiles rootPlaces (providerNames [slackRun code, slackRun code]) := by
  intro p hp q hq _
  have hname : ∀ name ∈ providerNames [slackRun code, slackRun code], name = "messaging-slack" := by
    simp [providerNames, slackRun, slackStep]
  rw [hname p hp, hname q hq]

/-- A provider that is set up, and left as it is by the next run. -/
theorem set_up_once : RetriesFailed (reports plainHashes rootPlaces [slackRun 0, slackRun 0] freshRoot) := by
  refine retriesFailed_of_settles plainHashes rootPlaces (fun _ => rfl) (by simp [slackRun]) (slack_ownFiles 0) ?_
  intro at_ hat setup hsetup
  have hrun : at_.2 = slackRun 0 := by
    simpa using Run.mem_of_mem_steps hat
  rw [hrun] at hsetup ⊢
  rw [List.mem_singleton.mp (mem_of_mem_reached hsetup)]
  exact slack_settles setup.1

/-- A setup flow that fails is not run again. -/
theorem failed_setup_is_skipped : (∀ file, freshRoot.setups file = none)
    ∧ (∀ run ∈ [slackRun 1, slackRun 1], run.options.forceSetup = false)
    ∧ OwnFiles rootPlaces (providerNames [slackRun 1, slackRun 1])
    ∧ ¬ RetriesFailed (reports plainHashes rootPlaces [slackRun 1, slackRun 1] freshRoot) := by
  refine ⟨fun _ => rfl, by simp [slackRun], slack_ownFiles 1, fun h => ?_⟩
  have hreports : reports plainHashes rootPlaces [slackRun 1, slackRun 1] freshRoot
      = [⟨[⟨"messaging-slack", .ok (.completed false)⟩], .ok⟩, ⟨[⟨"messaging-slack", .ok .skipped⟩], .ok⟩] := rfl
  obtain ⟨report, hmem, hattempt⟩ := h.skips [⟨[⟨"messaging-slack", .ok (.completed false)⟩], .ok⟩]
    ⟨[⟨"messaging-slack", .ok .skipped⟩], .ok⟩ [] hreports "messaging-slack" (List.mem_singleton_self _)
  rw [List.mem_singleton.mp hmem, List.mem_singleton] at hattempt
  cases hattempt

end Providers
