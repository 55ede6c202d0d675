import GreenticOperator.SecretsGate.Check
import Mathlib.Logic.Function.Basic

/-!
# Persisting answers as secrets

`src/qa_persist.rs`. The answers of a setup are stored as secrets, each under the URI of its key:
the answers to the visible questions of a form, or all of them with aliases for the keys the pack
requires. An empty answer is not stored.
-/

namespace QaPersist

open Json SecretName SecretsGate

/-- A question of a form; one that is answered with a list asks its fields for each item. -/
structure Question where
  id : String
  secret : Bool
  fields : List Question

structure FormSpec where
  questions : List Question

/-- The answers, where no key of an object is given twice. -/
structure Answers where
  value : Value
  distinct : ∀ fields, value = .object fields → (fields.map Prod.fst).Nodup

/-- `resolve_visibility` for visible questions: what it says of a question, where it does. -/
abbrev VisibilityResolver := FormSpec → Value → String → Option Bool

/-- The bytes that a text is stored as. -/
def textBytes (text : String) : List UInt8 := text.toUTF8.data.toList

/-- An entry of a seed; its value is given by the bytes that are stored. -/
structure SeedEntry where
  uri : String
  value : List UInt8
  description : Option String
deriving DecidableEq, Repr

/-- The bytes a secret store holds, by their URIs. -/
abbrev Store := String → Option (List UInt8)

def Store.put (store : Store) (entry : SeedEntry) : Store :=
  Function.update store entry.uri (some entry.value)

/-- `apply_seed` on a store: what it leaves there and the entries it reports as failed. Where none
failed, all are written in their order. -/
structure SeedApply where
  apply : Store → List SeedEntry → Store × List String
  written : ∀ store entries, (apply store entries).2 = [] →
    (apply store entries).1 = entries.foldl Store.put store

/-- The text an answer is stored as; `render` writes a value as JSON. -/
def textOf (render : Value → String) : Value → String
  | .string s => s
  | other => render other

def isBlank (text : String) : Bool := text == "" || text == "null"

/-- The text of an answer that is not empty. -/
def presentText (render : Value → String) (v : Value) : Option String :=
  (some (textOf render v)).filter fun text => !isBlank text

inductive PersistError
  | store (message : String)
  | failed (entries : List String)
deriving DecidableEq, Repr

def seedEntry (uriOf : String → String) (description : String) (answer : String × String) : SeedEntry where
  uri := uriOf answer.1
  value := textBytes answer.2
  description := some description

/-- How both writers end. -/
def applyEntries (seed : SeedApply) (store : Store) (entries : List SeedEntry) (savedKeys : List String) :
    Store × Except PersistError (List String) :=
  if entries = [] then (store, .ok [])
  else
    let (after, failed) := seed.apply store entries
    if failed ≠ [] then (after, .error (.failed failed)) else (after, .ok savedKeys)

def visibleQuestionIds (resolveVisibility : VisibilityResolver) (formSpec : FormSpec) (config : Value) :
    List String :=
  (formSpec.questions.filter fun q => (resolveVisibility formSpec config q.id).getD true).map (·.id)

/-- The visible answers, with their keys. -/
def visibleAnswers (render : Value → String) (fields : List (String × Value)) (ids : List String) :
    List (String × String) :=
  ids.filterMap fun key => ((fields.lookup key).bind (presentText render)).map fun text => (key, text)

def persistQaSecrets (render : Value → String) (resolveVisibility : VisibilityResolver) (seed : SeedApply)
    (env tenant : String) (team : Option String) (providerId : String) (config : Answers)
    (formSpec : FormSpec) (store : Store) : Store × Except PersistError (List String) :=
  let ids := visibleQuestionIds resolveVisibility formSpec config.value
  if ids = [] then (store, .ok [])
  else
    match config.value.asObject with
    | none => (store, .ok [])
    | some fields =>
      let answers := visibleAnswers render fields ids
      let uriOf := canonicalSecretUri env tenant team providerId
      applyEntries seed store (answers.map (seedEntry uriOf s!"from QA setup for {providerId}"))
        (answers.map Prod.fst)

/-! ## All of the answers -/

/-- The key of a requirement, which has to have one here. -/
def requirementKey : Value → Option String
  | .object fields =>
    match fields.filter fun field => field.1 == "key" with
    | [(_, v)] => v.asStr
    | _ => none
  | .array [key] => key.asStr
  | _ => none

def readSecretRequirements (pack : Except String PackArchive) : Option (List String) :=
  match pack with
  | .error _ => none
  | .ok archive =>
    match archive.asset "assets/secret-requirements.json" with
    | .found (.ok content) => content.asArray.bind (·.mapM requirementKey)
    | _ => none

def allAnswers (render : Value → String) (fields : List (String × Value)) : List (String × String) :=
  fields.filterMap fun (key, v) => (presentText render v).map fun text => (key, text)

/-- The first answer whose key the end of a required key is. -/
def matchedValue (render : Value → String) (fields : List (String × Value)) (canonicalReqKey : String) :
    Option String :=
  fields.findSome? fun (cfgKey, v) =>
    if Text.endsWith (canonicalSecretName cfgKey) canonicalReqKey then presentText render v else none

/-- The aliases of the required keys that no entry is stored under. -/
def secretRequirementAliases (render : Value → String) (uriOf : String → String)
    (fields : List (String × Value)) (entries : List SeedEntry) (providerId : String)
    (requirements : List String) : List SeedEntry :=
  let existingKeys := entries.filterMap fun e => (Text.split '/' e.uri).getLast?
  requirements.filterMap fun key =>
    let canonicalReqKey := canonicalSecretName key
    if canonicalReqKey ∈ existingKeys then none
    else (matchedValue render fields canonicalReqKey).map fun text =>
      seedEntry uriOf s!"alias from {key} for {providerId}" (canonicalReqKey, text)

/-- The entries with their aliases, for a pack that is given and names its requirements. -/
def seedSecretRequirementAliases (render : Value → String) (uriOf : String → String)
    (fields : List (String × Value)) (entries : List SeedEntry) (providerId : String)
    (pack : Option (Except String PackArchive)) : List SeedEntry :=
  match pack.bind readSecretRequirements with
  | none => entries
  | some requirements =>
    entries ++ secretRequirementAliases render uriOf fields entries providerId requirements

/-- The store of the bundle may not open. -/
def persistAllConfigAsSecrets (render : Value → String) (opened : Except String Unit) (seed : SeedApply)
    (env tenant : String) (team : Option String) (providerId : String) (config : Answers)
    (pack : Option (Except String PackArchive)) (store : Store) : Store × Except PersistError (List String) :=
  match config.value.asObject with
  | none => (store, .ok [])
  | some fields =>
    if fields = [] then (store, .ok [])
    else
      match opened with
      | .error message => (store, .error (.store message))
      | .ok () =>
        let uriOf := canonicalSecretUri env tenant team providerId
        let answers := allAnswers render fields
        let entries := answers.map (seedEntry uriOf s!"from setup-input for {providerId}")
        applyEntries seed store (seedSecretRequirementAliases render uriOf fields entries providerId pack)
          (answers.map Prod.fst)

end QaPersist
