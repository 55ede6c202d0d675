import GreenticOperator.Lib.Eff
import GreenticOperator.Lib.Json
import Mathlib.Logic.Function.Basic

/-!
# Provider configuration envelopes

`src/provider_config_envelope.rs`, `src/component_qa_ops.rs`. The configuration of a provider is
kept in a file with a hash of the contract of the pack it was written under. Before a pack is asked
for answers, what is stored is compared with the contract of the pack; the pack is given the stored
configuration.
-/

namespace ProviderConfig

open Json

def abiVersion : String := "greentic:component@0.6.0"

/-- A component as the manifest of its pack declares it. -/
structure Component where
  id : String
  version : String
  operations : List String
  configSchema : Option Value

/-- A manifest: its components, and the operations of each provider it declares. -/
structure Manifest where
  components : List Component
  providers : List (List String)

/-- A pack as it is read: the digest of its bytes, and its manifest where one can be decoded. -/
structure Pack where
  resolvedDigest : String
  manifest : Option Manifest

/-! ## Provenance -/

structure ComponentOperation where
  id : String
  schemaHash : String
deriving DecidableEq, Repr

/-- What is hashed of a component; all its other parts are the same for every pack. -/
structure ComponentDescribe where
  id : String
  version : String
  role : String
  operations : List ComponentOperation
deriving DecidableEq, Repr

/-- The hashes of texts, of descriptions of components and of their schemas, in their canonical
encoding. -/
structure Digest where
  text : String → String
  describe : ComponentDescribe → String
  schemas : Value → String

structure PackProvenance where
  componentId : String
  resolvedDigest : String
  describeHash : String
  schemaHash : Option String
  configSchema : Option Value

/-- The description of the first component of a manifest. -/
def describeOf (digest : Digest) (manifest : Manifest) (fallbackComponentId : String) : ComponentDescribe :=
  let component := manifest.components.head?
  { id := (component.map (·.id)).getD fallbackComponentId
    version := (component.map (·.version)).getD "0.0.0"
    role := "provider"
    operations := (component.map fun value =>
      value.operations.map fun op => ⟨op, digest.text op⟩).getD [] }

def readPackProvenance (digest : Digest) (pack : Pack) (fallbackComponentId : String) : PackProvenance :=
  match pack.manifest with
  | none =>
    { componentId := fallbackComponentId, resolvedDigest := pack.resolvedDigest
      describeHash := digest.text fallbackComponentId, schemaHash := none, configSchema := none }
  | some manifest =>
    let component := manifest.components.head?
    { componentId := (component.map (·.id)).getD fallbackComponentId
      resolvedDigest := pack.resolvedDigest
      describeHash := digest.describe (describeOf digest manifest fallbackComponentId)
      schemaHash := component.map fun value => digest.schemas (value.configSchema.getD .null)
      configSchema := component.bind (·.configSchema) }

def resolvedDescribeHash (digest : Digest) (pack : Pack) (fallbackComponentId : String) : String :=
  (readPackProvenance digest pack fallbackComponentId).describeHash

/-! ## Envelopes -/

structure ConfigEnvelope where
  config : Value
  componentId : String
  abiVersion : String
  resolvedDigest : String
  describeHash : String
  schemaHash : Option String
  operationId : String

/-- What happens at the files of a providers root. -/
inductive Event (File : Type)
  | wrote (file : File) (providerId : String) (pack : Pack)
  | handed (file : File) (config : Value) (pack : Pack)
  | removed (file : File)

/-- The envelopes under a providers root, by their files, and what happened to them. -/
structure ProvidersRoot (File : Type) where
  envelopes : File → Option ConfigEnvelope
  events : List (Event File)

variable {File : Type}

/-- The file a provider's envelope is in. -/
abbrev EnvelopePath (File : Type) := String → File

def readProviderConfigEnvelope (path : EnvelopePath File) (providerId : String) :
    Eff (ProvidersRoot File) (Option ConfigEnvelope) :=
  Eff.read fun root => root.envelopes (path providerId)

/-- The envelope that is written, which carries the provenance of its pack. -/
def envelopeOf (digest : Digest) (providerId operationId : String) (config : Value) (pack : Pack) :
    ConfigEnvelope :=
  let provenance := readPackProvenance digest pack providerId
  { config, componentId := provenance.componentId, abiVersion
    resolvedDigest := provenance.resolvedDigest, describeHash := provenance.describeHash
    schemaHash := provenance.schemaHash, operationId }

/-- `write_provider_config_envelope`. The backup of the old file or the write may fail; a file is
replaced as a whole. -/
def writeProviderConfigEnvelope [DecidableEq File] (digest : Digest) (path : EnvelopePath File)
    (written : Except String Unit) (providerId operationId : String) (config : Value) (pack : Pack) :
    Eff (ProvidersRoot File) Unit := do
  Eff.lift written
  Eff.modify fun root =>
    { envelopes := Function.update root.envelopes (path providerId)
        (some (envelopeOf digest providerId operationId config pack))
      events := root.events ++ [.wrote (path providerId) providerId pack] }

/-- The files of a provider's directory that its removal takes. -/
def removeEnvelopes [DecidableEq File] (removed : List File) : Eff (ProvidersRoot File) Unit :=
  Eff.modify fun root =>
    { envelopes := fun file => if file ∈ removed then none else root.envelopes file
      events := root.events ++ removed.map .removed }

def ensureContractCompatible (digest : Digest) (path : EnvelopePath File) (providerId flowId : String)
    (pack : Pack) (allowContractChange : Bool) : Eff (ProvidersRoot File) Unit := do
  match ← readProviderConfigEnvelope path providerId with
  | none => return ()
  | some stored =>
    let resolved := resolvedDescribeHash digest pack providerId
    if stored.describeHash ≠ resolved ∧ allowContractChange = false then
      Eff.fail s!"OP_CONTRACT_DRIFT: provider={providerId} flow={flowId} stored_describe_hash={stored.describeHash} resolved_describe_hash={resolved} (pass --allow-contract-change to override)"
    else return ()

/-! ## Answers by the component -/

inductive QaMode
  | Default
  | Setup
  | Upgrade
  | Remove
deriving DecidableEq, Repr

def qaModeForFlow (flowId : String) : Option QaMode :=
  let normalized := (Text.toAsciiLowercase flowId).toList
  if "remove".toList <:+: normalized then some .Remove
  else if "upgrade".toList <:+: normalized then some .Upgrade
  else if "default".toList <:+: normalized then some .Default
  else if "setup".toList <:+: normalized then some .Setup
  else none

def supportsComponentQaContract (pack : Pack) : Bool :=
  match pack.manifest with
  | none => false
  | some manifest => manifest.providers.any fun ops =>
      ops.any (· == "qa-spec") && ops.any (· == "apply-answers") && ops.any (· == "i18n-keys")

inductive QaDiagnosticCode
  | QaSpecFailed
  | QaSpecInvalid
  | I18nExportMissing
  | I18nKeyMissing
  | ApplyAnswersFailed
  | ConfigSchemaMismatch
deriving DecidableEq, Repr

def QaDiagnosticCode.asStr : QaDiagnosticCode → String
  | .QaSpecFailed => "OP_QA_SPEC_FAILED"
  | .QaSpecInvalid => "OP_QA_SPEC_INVALID"
  | .I18nExportMissing => "OP_I18N_EXPORT_MISSING"
  | .I18nKeyMissing => "OP_I18N_KEY_MISSING"
  | .ApplyAnswersFailed => "OP_APPLY_ANSWERS_FAILED"
  | .ConfigSchemaMismatch => "OP_CONFIG_SCHEMA_MISMATCH"

structure QaDiagnostic where
  code : QaDiagnosticCode
  message : String
deriving DecidableEq, Repr

/-- What the provider component does: up to the answers, where `false` is a component without the
operation, and with the answers and the configuration it is given. -/
structure QaCalls where
  ready : Except QaDiagnostic Bool
  applyAnswers : Value → Except QaDiagnostic Value

/-- `apply_answers_via_component_qa`. Without a stored configuration the component is given an empty
one. -/
def applyAnswersViaComponentQa (path : EnvelopePath File) (calls : QaCalls) (pack : Pack)
    (providerId : String) (currentConfig : Option Value) :
    Eff (ProvidersRoot File) (Except QaDiagnostic (Option Value)) :=
  if supportsComponentQaContract pack then
    match calls.ready with
    | .error diagnostic => return .error diagnostic
    | .ok false => return .ok none
    | .ok true =>
      match currentConfig with
      | none => return (calls.applyAnswers (.object [])).map some
      | some config => do
        Eff.modify fun root => { root with events := root.events ++ [.handed (path providerId) config pack] }
        return (calls.applyAnswers config).map some
  else return .ok none

end ProviderConfig
