import GreenticOperator.Lib.HashMap
import GreenticOperator.Wizard.Normalize

/-!
# The command that plans a wizard

`src/cli.rs`. Answers are overridden by what the command line gives, the labels of providers are
turned into ids, and a request is made of them. Some of the overrides are applied to the request
again. The plan is built; where it is not to be executed, the answers are kept in a document.

The catalog is the list of the packs that can be chosen by their ids; a later one replaces an earlier
one. Of the command line there is what the plan and the document depend on.
-/

namespace Wizard

open Json Project

structure PackListing where
  id : String
  label : String
  reference : String
deriving DecidableEq, Repr

structure DemoWizardArgs where
  mode : WizardMode
  bundle : Option String := none
  schemaVersion : Option String := none
  validate : Bool := false
  apply : Bool := false
  catalogPacks : List String := []
  packRefs : List String := []
  tenant : String := "demo"
  team : Option String := none
  targets : List String := []
  allowPaths : List String := []
  execute : Bool := false
  dryRun : Bool := false
  locale : Option String := none
deriving DecidableEq, Repr

/-! ## The answers -/

/-- The values given on the command line where there are any, or else those there were. -/
def givenOrElse {α β : Type} (given : List α) (answer : α → β) (existing : List β) : List β :=
  if given.isEmpty then existing else given.map answer

def mergeCliOverridesIntoWizardAnswers (answers : WizardQaAnswers) (args : DemoWizardArgs) (locale : String) :
    WizardQaAnswers :=
  { answers with
    bundle := args.bundle.or answers.bundle
    catalogPacks := answers.catalogPacks ++ args.catalogPacks.map .Id
    packRefs := answers.packRefs ++ args.packRefs.map .Ref
    targets := givenOrElse args.targets .Target answers.targets
    allowPaths := givenOrElse args.allowPaths id answers.allowPaths
    tenant := if args.tenant ≠ "demo" ∨ answers.tenant = none then some args.tenant else answers.tenant
    team := args.team.or answers.team
    locale := args.locale.or (answers.locale.or (some locale))
    executionMode :=
      if args.apply || args.execute then some "execute"
      else if args.validate || args.dryRun then some "dry run"
      else answers.executionMode }

/-- The id behind a label, where it is the label of a pack. -/
def idOfLabel (catalog : List PackListing) (label : String) : String :=
  (LastWins.last (catalog.map fun entry => (entry.label, entry.id)) label).getD label

def providerWithId (catalog : List PackListing) : WizardProviderAnswer → WizardProviderAnswer
  | .Id label => .Id (idOfLabel catalog label)
  | .Item providerId id => .Item (providerId.map (idOfLabel catalog)) (id.map (idOfLabel catalog))

def labelsToIds (catalog : List PackListing) (answers : WizardQaAnswers) : WizardQaAnswers :=
  { answers with providers := answers.providers.map (providerWithId catalog) }

/-! ## The request -/

def byId (catalog : List PackListing) : List (String × PackListing) :=
  catalog.foldl (fun map entry => SortedMap.alter entry.id (fun _ => entry) map) []

/-- The references of those ids that are known. -/
def knownReferences (catalog : List PackListing) (ids : List String) : List String :=
  ids.filterMap fun id => ((byId catalog).lookup id).map PackListing.reference

def catalogReference (catalog : List PackListing) (id : String) : Except String String :=
  match (byId catalog).lookup id with
  | some item => .ok item.reference
  | none =>
    let available := ", ".intercalate ((byId catalog).map Prod.fst)
    .error s!"unknown --catalog-pack {id}; available: {available}"

/-- The references a request is made with. -/
def requestRefs (args : DemoWizardArgs) (catalog : List PackListing) (answers : WizardQaAnswers) :
    Except String (List String) := do
  let catalogIds := normalizeCatalogPacks answers.catalogPacks ++ args.catalogPacks
  let catalogRefs ← catalogIds.mapM (catalogReference catalog)
  return normalizePackRefs answers.packRefs ++ args.packRefs
    ++ normalizeCustomProviderRefs answers.customProviderRefs
    ++ knownReferences catalog (normalizeProviderIds answers.providers) ++ catalogRefs

def requestTenants (args : DemoWizardArgs) (answers : WizardQaAnswers) :
    Except String (List TenantSelection) :=
  let allowPaths := if args.allowPaths.isEmpty then answers.allowPaths else args.allowPaths
  let targets := if args.targets.isEmpty then normalizeTargets answers.targets else args.targets
  if targets.isEmpty then
    .ok
      [{ tenant := if args.tenant = "demo" then answers.tenant.getD args.tenant else args.tenant
         team := args.team.or answers.team
         allowPaths }]
  else
    targets.mapM fun target => do
      let (tenant, team) ← parseWizardTarget target
      return { tenant, team, allowPaths }

def requestAccessChanges (mode : WizardMode) (answers : WizardQaAnswers) (tenants : List TenantSelection)
    (refs : List String) : Except String (List AccessChangeSelection) :=
  if mode = .Create then normalizeAccessChangesFromPackRefs answers.packRefs tenants
  else
    buildAccessChanges mode answers.accessMode tenants refs (normalizeAccessChanges answers.accessChange)

def bundleOf (args : DemoWizardArgs) (answers : WizardQaAnswers) : Except String String :=
  match args.bundle.or answers.bundle with
  | some bundle => .ok bundle
  | none => .error "bundle path is required via --bundle or wizard answers"

def requestOf (args : DemoWizardArgs) (catalog : List PackListing) (answers : WizardQaAnswers) :
    Except String WizardCreateRequest := do
  let bundle ← bundleOf args answers
  let packRefs ← requestRefs args catalog answers
  let tenants ← requestTenants args answers
  let packsRemove ← normalizePackRemoves answers.packsRemove
  let accessChanges ← requestAccessChanges args.mode answers tenants packRefs
  let defaultAssignments ← normalizeDefaultAssignmentsFromPackRefs answers.packRefs
  return {
    bundle
    bundleName := answers.bundleName
    packRefs
    tenants
    defaultAssignments
    providers := normalizeProviderIds answers.providers
    updateOps := normalizeUpdateOps answers.updateOps
    removeTargets := normalizeRemoveTargets answers.removeTargets
    packsRemove
    providersRemove := normalizeProviderIds answers.providersRemove
    tenantsRemove := normalizeTargetSelections answers.tenantsRemove
    accessChanges
    setupAnswers := answers.setupAnswers }

/-! ## The command -/

/-- Whether the plan is executed, and whether it is a dry run. -/
def executionFlags (args : DemoWizardArgs) (answers : WizardQaAnswers) : Bool × Bool :=
  let qaExecute := answers.executionMode == some "execute"
  if args.apply then (true, false)
  else if args.validate then (false, true)
  else if args.execute || args.dryRun then (args.execute, args.dryRun || !args.execute)
  else (qaExecute, !qaExecute)

/-- The plan, and the document of the answers where the plan is not executed. -/
structure Planned where
  plan : WizardPlan
  document : Option WizardAnswerDocument

/-- The answers that a plan is built from and a document keeps. -/
def effectiveAnswers (args : DemoWizardArgs) (systemLocale : String) (catalog : List PackListing)
    (answers : WizardQaAnswers) : WizardQaAnswers :=
  labelsToIds catalog (mergeCliOverridesIntoWizardAnswers answers args (args.locale.getD systemLocale))

/-- The document of answers; what the one they were loaded from had locked stays locked. -/
def answerDocument (args : DemoWizardArgs) (systemLocale : String) (answers : WizardQaAnswers)
    (loadedDoc : Option WizardAnswerDocument) : WizardAnswerDocument :=
  let locale := answers.locale.or (some (args.locale.getD systemLocale))
  let doc := wizardAnswerDocumentFromAnswers answers locale (resolveWizardSchemaVersion args.schemaVersion)
  { doc with locks := (loadedDoc.map WizardAnswerDocument.locks).getD doc.locks }

/-- The command up to where the plan is executed, over answers given or loaded. -/
def DemoWizardArgs.run (args : DemoWizardArgs) (systemLocale : String) (catalog : List PackListing)
    (packsJson : PacksJson) (given : WizardQaAnswers) (loadedDoc : Option WizardAnswerDocument) :
    Except String Planned := do
  let answers := effectiveAnswers args systemLocale catalog given
  let request ← requestOf args catalog answers
  let (executeRequested, dryRun) := executionFlags args answers
  let plan ← buildPlan args.mode packsJson request dryRun
  return {
    plan
    document := if executeRequested then none else some (answerDocument args systemLocale answers loadedDoc) }

/-- The command over the answers of a document, with no overrides but the mode. -/
def replay (versions : Versions) (mode : WizardMode) (schemaVersion : Option String) (systemLocale : String)
    (catalog : List PackListing) (packsJson : PacksJson) (allowMigrate : Bool) (doc : WizardAnswerDocument) :
    Except String Planned := do
  let (answers, loadedDoc) ← parseWizardAnswersInputValue versions doc.toValue
    (resolveWizardSchemaVersion schemaVersion) allowMigrate
  DemoWizardArgs.run { mode, schemaVersion } systemLocale catalog packsJson answers loadedDoc

end Wizard
