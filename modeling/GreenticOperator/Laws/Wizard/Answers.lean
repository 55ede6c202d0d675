import GreenticOperator.Lib.Outcome
import GreenticOperator.Wizard.Answers

/-!
# Answers are read back as they were written

`src/cli.rs`. Each kind of answer is read back from what it is written as, in whichever form it was
given; so are the answers as a whole, and the document they are kept in. A document with answers of
its own schema version is the one that is found in it again.
-/

namespace Wizard

open Json Json.Value

/-! ## Answers -/

/-- An object of one text is read as what the text stands for. -/
theorem textOrRecord_single {α : Type} (text item : String → α) (name s : String) :
    textOrRecord text (fun fields => (requiredText name fields).map item) (.ofFields [(name, .string s)])
      = some (item s) := by
  refine textOrRecord_ofFields (List.nodup_singleton name) fun stored h => ?_
  rw [h.requiredText List.lookup_cons_self]
  rfl

theorem WizardCatalogPackAnswer.ofValue_toValue (answer : WizardCatalogPackAnswer) :
    ofValue answer.toValue = some answer := by
  cases answer with
  | Id raw => rfl
  | Item id => exact textOrRecord_single _ _ _ _

theorem WizardCustomProviderRefAnswer.ofValue_toValue (answer : WizardCustomProviderRefAnswer) :
    ofValue answer.toValue = some answer := by
  cases answer with
  | Ref raw => rfl
  | Item packRef => exact textOrRecord_single _ _ _ _

theorem WizardUpdateOpAnswer.ofValue_toValue (answer : WizardUpdateOpAnswer) :
    ofValue answer.toValue = some answer := by
  cases answer with
  | Op raw => rfl
  | Item op => exact textOrRecord_single _ _ _ _

theorem WizardPackRefAnswer.ofValue_toValue (answer : WizardPackRefAnswer) :
    ofValue answer.toValue = some answer := by
  cases answer with
  | Ref raw => rfl
  | Item packRef accessScope makeDefaultPack tenantId teamId =>
    refine textOrRecord_ofFields (by simp) fun stored h => ?_
    have hpackRef : requiredText "pack_ref" stored = some packRef := h.requiredText rfl
    have haccessScope : optionalText "access_scope" stored = some accessScope := h.optionalText (.inl rfl)
    have hmakeDefault : optionalText "make_default_pack" stored = some makeDefaultPack := h.optionalText (.inl rfl)
    have htenantId : optionalText "tenant_id" stored = some tenantId := h.optionalText (.inl rfl)
    have hteamId : optionalText "team_id" stored = some teamId := h.optionalText (.inl rfl)
    have halias : withAlias "make_default_scope" "make_default_pack" stored = stored := h.withAlias _ (by simp) _
    simp [halias, hpackRef, haccessScope, hmakeDefault, htenantId, hteamId]

theorem WizardTargetAnswer.ofValue_toValue (answer : WizardTargetAnswer) :
    ofValue answer.toValue = some answer := by
  cases answer with
  | Target raw => rfl
  | Item tenantId teamId =>
    refine textOrRecord_ofFields (by simp) fun stored h => ?_
    have htenantId : requiredText "tenant_id" stored = some tenantId := h.requiredText rfl
    have hteamId : optionalText "team_id" stored = some teamId := h.optionalText (.inl rfl)
    simp [htenantId, hteamId]

theorem WizardProviderAnswer.ofValue_toValue (answer : WizardProviderAnswer) :
    ofValue answer.toValue = some answer := by
  cases answer with
  | Id raw => rfl
  | Item providerId id =>
    refine textOrRecord_ofFields (by simp) fun stored h => ?_
    have hproviderId : optionalText "provider_id" stored = some providerId := h.optionalText (.inl rfl)
    have hid : optionalText "id" stored = some id := h.optionalText (.inl rfl)
    simp [hproviderId, hid]

theorem WizardRemoveTargetAnswer.ofValue_toValue (answer : WizardRemoveTargetAnswer) :
    ofValue answer.toValue = some answer := by
  cases answer with
  | Target raw => rfl
  | Item targetType target =>
    refine textOrRecord_ofFields (by simp) fun stored h => ?_
    have htargetType : optionalText "target_type" stored = some targetType := h.optionalText (.inl rfl)
    have htarget : optionalText "target" stored = some target := h.optionalText (.inl rfl)
    simp [htargetType, htarget]

theorem WizardPackRemoveAnswer.ofValue_toValue (answer : WizardPackRemoveAnswer) :
    ofValue answer.toValue = some answer := by
  cases answer with
  | Pack raw => rfl
  | Item packIdentifier packId packRef scope tenantId teamId =>
    refine textOrRecord_ofFields (by simp) fun stored h => ?_
    have hidentifier : optionalText "pack_identifier" stored = some packIdentifier := h.optionalText (.inl rfl)
    have hpackId : optionalText "pack_id" stored = some packId := h.optionalText (.inl rfl)
    have hpackRef : optionalText "pack_ref" stored = some packRef := h.optionalText (.inl rfl)
    have hscope : optionalText "scope" stored = some scope := h.optionalText (.inl rfl)
    have htenantId : optionalText "tenant_id" stored = some tenantId := h.optionalText (.inl rfl)
    have hteamId : optionalText "team_id" stored = some teamId := h.optionalText (.inl rfl)
    simp [hidentifier, hpackId, hpackRef, hscope, htenantId, hteamId]

theorem WizardAccessChangeAnswer.ofValue_toValue (answer : WizardAccessChangeAnswer) :
    ofValue answer.toValue = some answer := by
  cases answer with
  | Item packId packRef operation tenantId teamId =>
    refine asObject_ofFields (by simp) fun stored h => ?_
    have hpackId : optionalText "pack_id" stored = some packId := h.optionalText (.inl rfl)
    have hpackRef : optionalText "pack_ref" stored = some packRef := h.optionalText (.inl rfl)
    have hoperation : optionalText "operation" stored = some operation := h.optionalText (.inl rfl)
    have htenantId : requiredText "tenant_id" stored = some tenantId := h.requiredText rfl
    have hteamId : optionalText "team_id" stored = some teamId := h.optionalText (.inl rfl)
    simp [hpackId, hpackRef, hoperation, htenantId, hteamId]

/-- **Answers are read back** as they were written, whichever of them were given and in what form. -/
theorem WizardQaAnswers.ofValue_toValue (answers : WizardQaAnswers) : ofValue answers.toValue = some answers := by
  have hnames : (answers.fields.map Prod.fst).Nodup := by simp [WizardQaAnswers.fields]
  refine recordFields_ofFields hnames fun stored h => ?_
  have hstring : ∀ s, asStr (.string s) = some s := fun _ => rfl
  have halias : withAlias "bundle_path" "bundle" stored = stored :=
    h.withAlias _ (by simp [WizardQaAnswers.fields]) _
  have hbundle : optionalText "bundle" stored = some answers.bundle := h.optionalText (.inl rfl)
  have hbundleName : optionalText "bundle_name" stored = some answers.bundleName := h.optionalText (.inl rfl)
  have hcatalogPacks : listField WizardCatalogPackAnswer.ofValue "catalog_packs" stored = some answers.catalogPacks :=
    h.listField WizardCatalogPackAnswer.ofValue_toValue rfl
  have hpackRefs : listField WizardPackRefAnswer.ofValue "pack_refs" stored = some answers.packRefs :=
    h.listField WizardPackRefAnswer.ofValue_toValue rfl
  have htenant : optionalText "tenant" stored = some answers.tenant := h.optionalText (.inl rfl)
  have hteam : optionalText "team" stored = some answers.team := h.optionalText (.inl rfl)
  have htargets : listField WizardTargetAnswer.ofValue "targets" stored = some answers.targets :=
    h.listField WizardTargetAnswer.ofValue_toValue rfl
  have hallowPaths : listField asStr "allow_paths" stored = some answers.allowPaths :=
    h.listField hstring rfl
  have hproviders : listField WizardProviderAnswer.ofValue "providers" stored = some answers.providers :=
    h.listField WizardProviderAnswer.ofValue_toValue rfl
  have hcustom : listField WizardCustomProviderRefAnswer.ofValue "custom_provider_refs" stored
      = some answers.customProviderRefs :=
    h.listField WizardCustomProviderRefAnswer.ofValue_toValue rfl
  have hupdateOps : listField WizardUpdateOpAnswer.ofValue "update_ops" stored = some answers.updateOps :=
    h.listField WizardUpdateOpAnswer.ofValue_toValue rfl
  have hpacksRemove : listField WizardPackRemoveAnswer.ofValue "packs_remove" stored = some answers.packsRemove :=
    h.listField WizardPackRemoveAnswer.ofValue_toValue rfl
  have hprovidersRemove : listField WizardProviderAnswer.ofValue "providers_remove" stored
      = some answers.providersRemove :=
    h.listField WizardProviderAnswer.ofValue_toValue rfl
  have htenantsRemove : listField WizardTargetAnswer.ofValue "tenants_remove" stored = some answers.tenantsRemove :=
    h.listField WizardTargetAnswer.ofValue_toValue rfl
  have haccessChange : listField WizardAccessChangeAnswer.ofValue "access_change" stored
      = some answers.accessChange :=
    h.listField WizardAccessChangeAnswer.ofValue_toValue rfl
  have haccessMode : optionalText "access_mode" stored = some answers.accessMode := h.optionalText (.inl rfl)
  have hremoveTargets : listField WizardRemoveTargetAnswer.ofValue "remove_targets" stored
      = some answers.removeTargets :=
    h.listField WizardRemoveTargetAnswer.ofValue_toValue rfl
  have hlocale : optionalText "locale" stored = some answers.locale := h.optionalText (.inl rfl)
  have hexecutionMode : optionalText "execution_mode" stored = some answers.executionMode :=
    h.optionalText (.inl rfl)
  have hsetupAnswers : mapField "setup_answers" stored = some answers.setupAnswers := h.mapField rfl
  simp [WizardQaAnswers.ofFields, halias, hbundle, hbundleName, hcatalogPacks, hpackRefs, htenant, hteam, htargets,
    hallowPaths, hproviders, hcustom, hupdateOps, hpacksRemove, hprovidersRemove, htenantsRemove, haccessChange,
    haccessMode, hremoveTargets, hlocale, hexecutionMode, hsetupAnswers]

/-! ## Documents -/

theorem WizardAnswerDocument.ofValue_toValue (doc : WizardAnswerDocument) : ofValue doc.toValue = some doc := by
  have hnames : (doc.fields.map Prod.fst).Nodup := by
    unfold WizardAnswerDocument.fields present
    cases doc.locale <;> simp
  refine recordFields_ofFields hnames fun stored h => ?_
  have hwizardId : requiredText "wizard_id" stored = some doc.wizardId := h.requiredText rfl
  have hschemaId : requiredText "schema_id" stored = some doc.schemaId := h.requiredText rfl
  have hschemaVersion : requiredText "schema_version" stored = some doc.schemaVersion := h.requiredText rfl
  have hlocale : optionalText "locale" stored = some doc.locale := by
    refine h.optionalText (.inr ?_)
    unfold WizardAnswerDocument.fields present
    cases doc.locale <;> rfl
  have hanswers : field none some "answers" stored = some doc.answers := by
    rw [h.field]
    unfold WizardAnswerDocument.fields present
    cases doc.locale <;> rfl
  have hlocks : mapField "locks" stored = some doc.locks := by
    refine h.mapField ?_
    unfold WizardAnswerDocument.fields present
    cases doc.locale <;> rfl
  simp [WizardAnswerDocument.ofFields, hwizardId, hschemaId, hschemaVersion, hlocale, hanswers, hlocks]

theorem trim_resolveWizardSchemaVersion_ne (overrideVersion : Option String) :
    (Text.trim (resolveWizardSchemaVersion overrideVersion)).isEmpty = false := by
  unfold resolveWizardSchemaVersion
  cases overrideVersion with
  | none => decide
  | some given =>
    rw [Option.map_some, Option.filter_some]
    split
    next hgiven =>
      have hagain : Text.trim (Text.trim given) = Text.trim given := by
        rw [← String.toList_inj, Text.toList_trim, Text.toList_trim, Text.trimChars_idem]
      simpa [hagain] using hgiven
    · decide

theorem parseWizardQaAnswersValue_toValue (answers : WizardQaAnswers) :
    parseWizardQaAnswersValue answers.toValue = .ok answers := by
  rw [parseWizardQaAnswersValue, WizardQaAnswers.ofValue_toValue]

theorem ensureWizardAnswerIds_eq_ok {doc : WizardAnswerDocument}
    (hwizardId : (Text.trim doc.wizardId).isEmpty = false) (hschemaId : (Text.trim doc.schemaId).isEmpty = false)
    (hschemaVersion : (Text.trim doc.schemaVersion).isEmpty = false) : ensureWizardAnswerIds doc = .ok () := by
  simp only [ensureWizardAnswerIds, hwizardId, hschemaId, hschemaVersion]
  rfl

theorem parseWizardAnswersInputValue_toValue (versions : Versions) {doc : WizardAnswerDocument}
    {answers : WizardQaAnswers} (hids : ensureWizardAnswerIds doc = .ok ()) (hanswers : doc.answers = answers.toValue)
    (allowMigrate : Bool) :
    parseWizardAnswersInputValue versions doc.toValue doc.schemaVersion allowMigrate = .ok (answers, some doc) := by
  have hexpected : withExpectedVersion versions doc doc.schemaVersion allowMigrate = .ok doc := if_pos rfl
  have hparse : parseWizardQaAnswersValue doc.answers = .ok answers := by
    rw [hanswers, parseWizardQaAnswersValue_toValue]
  unfold parseWizardAnswersInputValue
  simp only [WizardAnswerDocument.ofValue_toValue, hids, hexpected]
  refine Outcome.bind_eq_ok_iff.mpr ⟨(), rfl, ?_⟩
  refine Outcome.bind_eq_ok_iff.mpr ⟨doc, rfl, ?_⟩
  exact Outcome.bind_eq_ok_iff.mpr ⟨answers, hparse, rfl⟩

/-- **The document of answers is read back** with them, where its schema version is the one expected. -/
theorem parseWizardAnswersInputValue_document (versions : Versions) (answers : WizardQaAnswers)
    (locale : Option String) (locks : List (String × Value)) (overrideVersion : Option String) (allowMigrate : Bool) :
    ∃ loaded, parseWizardAnswersInputValue versions
        { wizardAnswerDocumentFromAnswers answers locale (resolveWizardSchemaVersion overrideVersion) with
          locks := locks }.toValue
        (resolveWizardSchemaVersion overrideVersion) allowMigrate = .ok (answers, some loaded) := by
  refine ⟨_, parseWizardAnswersInputValue_toValue versions ?_ rfl allowMigrate⟩
  apply ensureWizardAnswerIds_eq_ok
  · show (Text.trim wizardAnswerDocId).isEmpty = false
    decide
  · show (Text.trim wizardAnswerSchemaId).isEmpty = false
    decide
  · exact trim_resolveWizardSchemaVersion_ne overrideVersion

end Wizard
