import GreenticOperator.Lib.JsonRecord
import GreenticOperator.Lib.Text

/-!
# The answers of the wizard, and the document they are kept in

`src/cli.rs`. Many answers may be given as a text or as an object. A document names the wizard and
the schema its answers are for; answers may also be given without one. The comparison of versions
is a parameter. Paths are texts.
-/

namespace Wizard

open Json Json.Value

/-! ## Answers -/

inductive WizardCatalogPackAnswer
  | Id (raw : String)
  | Item (id : String)
deriving DecidableEq, Repr

inductive WizardPackRefAnswer
  | Ref (raw : String)
  | Item (packRef : String) (accessScope makeDefaultPack tenantId teamId : Option String)
deriving DecidableEq, Repr

inductive WizardTargetAnswer
  | Target (raw : String)
  | Item (tenantId : String) (teamId : Option String)
deriving DecidableEq, Repr

inductive WizardProviderAnswer
  | Id (raw : String)
  | Item (providerId id : Option String)
deriving DecidableEq, Repr

inductive WizardCustomProviderRefAnswer
  | Ref (raw : String)
  | Item (packRef : String)
deriving DecidableEq, Repr

inductive WizardUpdateOpAnswer
  | Op (raw : String)
  | Item (op : String)
deriving DecidableEq, Repr

inductive WizardRemoveTargetAnswer
  | Target (raw : String)
  | Item (targetType target : Option String)
deriving DecidableEq, Repr

inductive WizardPackRemoveAnswer
  | Pack (raw : String)
  | Item (packIdentifier packId packRef scope tenantId teamId : Option String)
deriving DecidableEq, Repr

inductive WizardAccessChangeAnswer
  | Item (packId packRef operation : Option String) (tenantId : String) (teamId : Option String)
deriving DecidableEq, Repr

structure WizardQaAnswers where
  bundle : Option String := none
  bundleName : Option String := none
  catalogPacks : List WizardCatalogPackAnswer := []
  packRefs : List WizardPackRefAnswer := []
  tenant : Option String := none
  team : Option String := none
  targets : List WizardTargetAnswer := []
  allowPaths : List String := []
  providers : List WizardProviderAnswer := []
  customProviderRefs : List WizardCustomProviderRefAnswer := []
  updateOps : List WizardUpdateOpAnswer := []
  packsRemove : List WizardPackRemoveAnswer := []
  providersRemove : List WizardProviderAnswer := []
  tenantsRemove : List WizardTargetAnswer := []
  accessChange : List WizardAccessChangeAnswer := []
  accessMode : Option String := none
  removeTargets : List WizardRemoveTargetAnswer := []
  locale : Option String := none
  executionMode : Option String := none
  setupAnswers : List (String × Value) := []

/-! ## Answers as values -/

def WizardCatalogPackAnswer.toValue : WizardCatalogPackAnswer → Value
  | .Id raw => .string raw
  | .Item id => .ofFields [("id", .string id)]

def WizardCatalogPackAnswer.ofValue : Value → Option WizardCatalogPackAnswer :=
  textOrRecord .Id fun fields => (requiredText "id" fields).map .Item

def WizardPackRefAnswer.toValue : WizardPackRefAnswer → Value
  | .Ref raw => .string raw
  | .Item packRef accessScope makeDefaultPack tenantId teamId =>
    .ofFields
      [("pack_ref", .string packRef), ("access_scope", ofOption accessScope),
        ("make_default_pack", ofOption makeDefaultPack), ("tenant_id", ofOption tenantId),
        ("team_id", ofOption teamId)]

def WizardPackRefAnswer.ofValue : Value → Option WizardPackRefAnswer :=
  textOrRecord .Ref fun fields => do
    let fields := withAlias "make_default_scope" "make_default_pack" fields
    return .Item (← requiredText "pack_ref" fields) (← optionalText "access_scope" fields)
      (← optionalText "make_default_pack" fields) (← optionalText "tenant_id" fields)
      (← optionalText "team_id" fields)

def WizardTargetAnswer.toValue : WizardTargetAnswer → Value
  | .Target raw => .string raw
  | .Item tenantId teamId => .ofFields [("tenant_id", .string tenantId), ("team_id", ofOption teamId)]

def WizardTargetAnswer.ofValue : Value → Option WizardTargetAnswer :=
  textOrRecord .Target fun fields => do
    return .Item (← requiredText "tenant_id" fields) (← optionalText "team_id" fields)

def WizardProviderAnswer.toValue : WizardProviderAnswer → Value
  | .Id raw => .string raw
  | .Item providerId id => .ofFields [("provider_id", ofOption providerId), ("id", ofOption id)]

def WizardProviderAnswer.ofValue : Value → Option WizardProviderAnswer :=
  textOrRecord .Id fun fields => do
    return .Item (← optionalText "provider_id" fields) (← optionalText "id" fields)

def WizardCustomProviderRefAnswer.toValue : WizardCustomProviderRefAnswer → Value
  | .Ref raw => .string raw
  | .Item packRef => .ofFields [("pack_ref", .string packRef)]

def WizardCustomProviderRefAnswer.ofValue : Value → Option WizardCustomProviderRefAnswer :=
  textOrRecord .Ref fun fields => (requiredText "pack_ref" fields).map .Item

def WizardUpdateOpAnswer.toValue : WizardUpdateOpAnswer → Value
  | .Op raw => .string raw
  | .Item op => .ofFields [("op", .string op)]

def WizardUpdateOpAnswer.ofValue : Value → Option WizardUpdateOpAnswer :=
  textOrRecord .Op fun fields => (requiredText "op" fields).map .Item

def WizardRemoveTargetAnswer.toValue : WizardRemoveTargetAnswer → Value
  | .Target raw => .string raw
  | .Item targetType target => .ofFields [("target_type", ofOption targetType), ("target", ofOption target)]

def WizardRemoveTargetAnswer.ofValue : Value → Option WizardRemoveTargetAnswer :=
  textOrRecord .Target fun fields => do
    return .Item (← optionalText "target_type" fields) (← optionalText "target" fields)

def WizardPackRemoveAnswer.toValue : WizardPackRemoveAnswer → Value
  | .Pack raw => .string raw
  | .Item packIdentifier packId packRef scope tenantId teamId =>
    .ofFields
      [("pack_identifier", ofOption packIdentifier), ("pack_id", ofOption packId),
        ("pack_ref", ofOption packRef), ("scope", ofOption scope), ("tenant_id", ofOption tenantId),
        ("team_id", ofOption teamId)]

def WizardPackRemoveAnswer.ofValue : Value → Option WizardPackRemoveAnswer :=
  textOrRecord .Pack fun fields => do
    return .Item (← optionalText "pack_identifier" fields) (← optionalText "pack_id" fields)
      (← optionalText "pack_ref" fields) (← optionalText "scope" fields) (← optionalText "tenant_id" fields)
      (← optionalText "team_id" fields)

def WizardAccessChangeAnswer.toValue : WizardAccessChangeAnswer → Value
  | .Item packId packRef operation tenantId teamId =>
    .ofFields
      [("pack_id", ofOption packId), ("pack_ref", ofOption packRef), ("operation", ofOption operation),
        ("tenant_id", .string tenantId), ("team_id", ofOption teamId)]

def WizardAccessChangeAnswer.ofValue (v : Value) : Option WizardAccessChangeAnswer := do
  let fields ← v.asObject
  return .Item (← optionalText "pack_id" fields) (← optionalText "pack_ref" fields)
    (← optionalText "operation" fields) (← requiredText "tenant_id" fields) (← optionalText "team_id" fields)

def WizardQaAnswers.fields (answers : WizardQaAnswers) : List (String × Value) :=
  [("bundle", ofOption answers.bundle),
    ("bundle_name", ofOption answers.bundleName),
    ("catalog_packs", .array (answers.catalogPacks.map WizardCatalogPackAnswer.toValue)),
    ("pack_refs", .array (answers.packRefs.map WizardPackRefAnswer.toValue)),
    ("tenant", ofOption answers.tenant),
    ("team", ofOption answers.team),
    ("targets", .array (answers.targets.map WizardTargetAnswer.toValue)),
    ("allow_paths", .array (answers.allowPaths.map Value.string)),
    ("providers", .array (answers.providers.map WizardProviderAnswer.toValue)),
    ("custom_provider_refs", .array (answers.customProviderRefs.map WizardCustomProviderRefAnswer.toValue)),
    ("update_ops", .array (answers.updateOps.map WizardUpdateOpAnswer.toValue)),
    ("packs_remove", .array (answers.packsRemove.map WizardPackRemoveAnswer.toValue)),
    ("providers_remove", .array (answers.providersRemove.map WizardProviderAnswer.toValue)),
    ("tenants_remove", .array (answers.tenantsRemove.map WizardTargetAnswer.toValue)),
    ("access_change", .array (answers.accessChange.map WizardAccessChangeAnswer.toValue)),
    ("access_mode", ofOption answers.accessMode),
    ("remove_targets", .array (answers.removeTargets.map WizardRemoveTargetAnswer.toValue)),
    ("locale", ofOption answers.locale),
    ("execution_mode", ofOption answers.executionMode),
    ("setup_answers", .object answers.setupAnswers)]

def WizardQaAnswers.toValue (answers : WizardQaAnswers) : Value := .ofFields answers.fields

def WizardQaAnswers.fieldNames : List String :=
  ["bundle", "bundle_name", "catalog_packs", "pack_refs", "tenant", "team", "targets", "allow_paths",
    "providers", "custom_provider_refs", "update_ops", "packs_remove", "providers_remove",
    "tenants_remove", "access_change", "access_mode", "remove_targets", "locale", "execution_mode",
    "setup_answers"]

def WizardQaAnswers.ofFields (given : List (String × Value)) : Option WizardQaAnswers := do
  let fields := withAlias "bundle_path" "bundle" given
  let bundle ← optionalText "bundle" fields
  let bundleName ← optionalText "bundle_name" fields
  let catalogPacks ← listField WizardCatalogPackAnswer.ofValue "catalog_packs" fields
  let packRefs ← listField WizardPackRefAnswer.ofValue "pack_refs" fields
  let tenant ← optionalText "tenant" fields
  let team ← optionalText "team" fields
  let targets ← listField WizardTargetAnswer.ofValue "targets" fields
  let allowPaths ← listField asStr "allow_paths" fields
  let providers ← listField WizardProviderAnswer.ofValue "providers" fields
  let customProviderRefs ← listField WizardCustomProviderRefAnswer.ofValue "custom_provider_refs" fields
  let updateOps ← listField WizardUpdateOpAnswer.ofValue "update_ops" fields
  let packsRemove ← listField WizardPackRemoveAnswer.ofValue "packs_remove" fields
  let providersRemove ← listField WizardProviderAnswer.ofValue "providers_remove" fields
  let tenantsRemove ← listField WizardTargetAnswer.ofValue "tenants_remove" fields
  let accessChange ← listField WizardAccessChangeAnswer.ofValue "access_change" fields
  let accessMode ← optionalText "access_mode" fields
  let removeTargets ← listField WizardRemoveTargetAnswer.ofValue "remove_targets" fields
  let locale ← optionalText "locale" fields
  let executionMode ← optionalText "execution_mode" fields
  let setupAnswers ← mapField "setup_answers" fields
  return { bundle, bundleName, catalogPacks, packRefs, tenant, team, targets, allowPaths, providers,
           customProviderRefs, updateOps, packsRemove, providersRemove, tenantsRemove, accessChange,
           accessMode, removeTargets, locale, executionMode, setupAnswers }

/-- Answers as an array end at the earliest before the fields that have a default. -/
def WizardQaAnswers.ofValue (v : Value) : Option WizardQaAnswers :=
  (recordFields fieldNames 19 v).bind ofFields

/-! ## Documents -/

def wizardAnswerDocId : String := "greentic-operator.wizard.demo"

def wizardAnswerSchemaId : String := "greentic-operator.demo.wizard"

def wizardAnswerSchemaVersion : String := "1.0.0"

structure WizardAnswerDocument where
  wizardId : String
  schemaId : String
  schemaVersion : String
  locale : Option String
  answers : Value
  locks : List (String × Value)

def WizardAnswerDocument.fields (doc : WizardAnswerDocument) : List (String × Value) :=
  [("wizard_id", .string doc.wizardId), ("schema_id", .string doc.schemaId),
      ("schema_version", .string doc.schemaVersion)]
    ++ present "locale" (doc.locale.map Value.string)
    ++ [("answers", doc.answers), ("locks", .object doc.locks)]

def WizardAnswerDocument.toValue (doc : WizardAnswerDocument) : Value := .ofFields doc.fields

def WizardAnswerDocument.ofFields (fields : List (String × Value)) : Option WizardAnswerDocument := do
  let wizardId ← requiredText "wizard_id" fields
  let schemaId ← requiredText "schema_id" fields
  let schemaVersion ← requiredText "schema_version" fields
  let locale ← optionalText "locale" fields
  let answers ← field none some "answers" fields
  let locks ← mapField "locks" fields
  return { wizardId, schemaId, schemaVersion, locale, answers, locks }

def WizardAnswerDocument.ofValue (v : Value) : Option WizardAnswerDocument :=
  (recordFields ["wizard_id", "schema_id", "schema_version", "locale", "answers", "locks"] 5 v).bind ofFields

/-- The versions that a text can be read as, and which of two is newer. -/
structure Versions where
  Version : Type
  parse : String → Option Version
  newer : Version → Version → Bool

/-- The schema version asked for, or the one of this wizard. -/
def resolveWizardSchemaVersion (overrideVersion : Option String) : String :=
  ((overrideVersion.map Text.trim).filter fun value => !value.isEmpty).getD wizardAnswerSchemaVersion

def ensureWizardAnswerIds (doc : WizardAnswerDocument) : Except String Unit := do
  if (Text.trim doc.wizardId).isEmpty then throw "wizard answers missing wizard_id"
  if (Text.trim doc.schemaId).isEmpty then throw "wizard answers missing schema_id"
  if (Text.trim doc.schemaVersion).isEmpty then throw "wizard answers missing schema_version"

def migrateWizardAnswerDocument (versions : Versions) (doc : WizardAnswerDocument)
    (expectedSchemaVersion : String) : Except String WizardAnswerDocument :=
  match versions.parse (Text.trim doc.schemaVersion), versions.parse expectedSchemaVersion with
  | none, _ => .error s!"parse source schema_version {doc.schemaVersion}"
  | some _, none => .error s!"parse target schema_version {expectedSchemaVersion}"
  | some source, some target =>
    if versions.newer source target then
      .error
        s!"wizard answers schema_version={doc.schemaVersion} is newer than supported {expectedSchemaVersion}"
    else .ok { doc with schemaVersion := expectedSchemaVersion }

def parseWizardQaAnswersValue (v : Value) : Except String WizardQaAnswers :=
  match WizardQaAnswers.ofValue v with
  | some answers => .ok answers
  | none => .error "parse wizard answers object"

/-- The document with the schema version that is expected, where it has or may be given it. -/
def withExpectedVersion (versions : Versions) (doc : WizardAnswerDocument) (expectedSchemaVersion : String)
    (allowMigrate : Bool) : Except String WizardAnswerDocument :=
  if doc.schemaVersion = expectedSchemaVersion then .ok doc
  else if allowMigrate then migrateWizardAnswerDocument versions doc expectedSchemaVersion
  else
    .error
      s!"wizard answers schema_version={doc.schemaVersion} does not match expected {expectedSchemaVersion}; re-run with --migrate"

/-- Answers, with the document they came in where there is one. -/
def parseWizardAnswersInputValue (versions : Versions) (v : Value) (expectedSchemaVersion : String)
    (allowMigrate : Bool) : Except String (WizardQaAnswers × Option WizardAnswerDocument) :=
  match WizardAnswerDocument.ofValue v with
  | some doc => do
    ensureWizardAnswerIds doc
    let doc ← withExpectedVersion versions doc expectedSchemaVersion allowMigrate
    return (← parseWizardQaAnswersValue doc.answers, some doc)
  | none => return (← parseWizardQaAnswersValue v, none)

def wizardAnswerDocumentFromAnswers (answers : WizardQaAnswers) (locale : Option String)
    (schemaVersion : String) : WizardAnswerDocument where
  wizardId := wizardAnswerDocId
  schemaId := wizardAnswerSchemaId
  schemaVersion := schemaVersion
  locale := locale
  answers := answers.toValue
  locks := []

end Wizard
