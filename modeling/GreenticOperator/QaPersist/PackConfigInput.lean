import GreenticOperator.Cli.PlanItem
import GreenticOperator.Lib.Disk
import GreenticOperator.Lib.SortedMap
import GreenticOperator.QaPersist.Secrets
import Mathlib.Data.String.Basic

/-!
# The input for the configuration of a pack

`src/qa_persist.rs`. The visible answers of a setup are written to a file for the deployer: those
to questions marked secret as references, all others as they are. Where no answer is to be written
the file is removed.

What a setup has configured is written to the envelope of its provider, without the fields the form
marks as secret.
-/

namespace QaPersist

open Disk Json

def packConfigInputSchema : String := "greentic.pack-config-input.v1"

def packConfigInputDir : String := "state/pack-configs"

structure PackConfigInput where
  schema : String
  packId : String
  envId : String
  bundleId : String
  nonSecret : List (String × Value)
  secretRefs : List (String × String)

def validateSegment (label value : String) : Except String Unit :=
  if value = "" then .error s!"{label} must not be empty for pack-config-input emission"
  else if '/' ∈ value.toList then
    .error s!"{label} `{value}` contains '/' which would corrupt the pack-config-input layout"
  else if value = "." ∨ value = ".." then
    .error s!"{label} `{value}` is a relative path component and would corrupt the pack-config-input layout"
  else .ok ()

def secretIds (formSpec : FormSpec) : List String := (formSpec.questions.filter (·.secret)).map (·.id)

/-- The loop over the answers, with the entries so far. -/
def splitAnswers (render : Value → String) (visibleIds secretIds : List String) (uriOf : String → String) :
    List (String × Value) → List (String × Value) → List (String × String) →
      Except String (List (String × Value) × List (String × String))
  | [], nonSecret, secretRefs => .ok (nonSecret, secretRefs)
  | (key, value) :: rest, nonSecret, secretRefs =>
    if key ∉ visibleIds then splitAnswers render visibleIds secretIds uriOf rest nonSecret secretRefs
    else if isBlank (textOf render value) then
      splitAnswers render visibleIds secretIds uriOf rest nonSecret secretRefs
    else if key ∈ secretIds then do
      validateSegment "question.id" key
      splitAnswers render visibleIds secretIds uriOf rest nonSecret
        (SortedMap.alter key (fun _ => uriOf key) secretRefs)
    else
      splitAnswers render visibleIds secretIds uriOf rest (SortedMap.alter key (fun _ => value) nonSecret) secretRefs

/-- What is to be written, where there is anything. -/
def packConfigInput (render : Value → String) (resolveVisibility : VisibilityResolver)
    (envId bundleId packId : String) (config : Answers) (formSpec : FormSpec) :
    Except String (Option PackConfigInput) := do
  validateSegment "env_id" envId
  validateSegment "bundle_id" bundleId
  validateSegment "pack_id" packId
  match config.value.asObject with
  | none => return none
  | some fields =>
    if fields = [] then return none
    let uriOf := fun key => s!"secret://{envId}/{bundleId}/{packId}/{key}"
    let (nonSecret, secretRefs) ← splitAnswers render
      (visibleQuestionIds resolveVisibility formSpec config.value) (secretIds formSpec) uriOf fields [] []
    if nonSecret = [] ∧ secretRefs = [] then return none
    return some { schema := packConfigInputSchema, packId, envId, bundleId, nonSecret, secretRefs }

/-- What the file holds: an input, or one that was cut short. -/
inductive InputFile
  | input (i : PackConfigInput)
  | torn

/-- How the directory, the write and the removal of the file end; there may be no file to remove. -/
structure EmitOutcomes where
  dir : Except String Unit
  write : WriteOutcome
  remove : Except String Unit

/-- `emit_pack_config_input`, on the file of the pack; its path where it is written. -/
def emitPackConfigInput (render : Value → String) (resolveVisibility : VisibilityResolver)
    (bundleRoot envId bundleId packId : String) (config : Answers) (formSpec : FormSpec)
    (outcomes : EmitOutcomes) (file : Option InputFile) : Option InputFile × Except String (Option String) :=
  match packConfigInput render resolveVisibility envId bundleId packId config formSpec with
  | .error message => (file, .error message)
  | .ok none =>
    match outcomes.remove with
    | .error message => (file, .error message)
    | .ok () => (none, .ok none)
  | .ok (some input) =>
    match outcomes.dir with
    | .error message => (file, .error message)
    | .ok () =>
      match outcomes.write with
      | .refused message => (file, .error message)
      | .torn message => (some .torn, .error message)
      | .done => (some (.input input), .ok (some (join (join bundleRoot packConfigInputDir) s!"{packId}.json")))

/-! ## The plain configuration -/

section Config

open ProviderConfig

/-- What is written of a configuration. -/
def filteredConfig (config : Value) (formSpec : FormSpec) : Value :=
  if secretIds formSpec = [] then config else Cli.filterSecrets config (secretIds formSpec)

def persistQaConfig {File : Type} [DecidableEq File] (digest : Digest) (path : EnvelopePath File)
    (written : Except String Unit) (providerId : String) (config : Value) (pack : Pack)
    (formSpec : FormSpec) : Eff (ProvidersRoot File) Unit :=
  writeProviderConfigEnvelope digest path written providerId "qa-setup" (filteredConfig config formSpec) pack

end Config

end QaPersist
