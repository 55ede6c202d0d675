import GreenticOperator.Lib.Json
import GreenticOperator.SecretName
import Mathlib.Algebra.Order.Ring.Int

/-!
# Checking the secrets of a provider

`src/secrets_gate.rs`, `src/secrets_manager.rs`. A pack requires secrets, by their keys. Before its
provider runs, the manager is asked for the URI of each of them.

What a component reads is looked up in the inner manager; a secret that is not there under its team is
looked up under the wildcard team.
-/

namespace SecretsGate

open Json SecretName

/-! ## The secrets manager of the components -/

/-- The inner manager at the time of a read. -/
abbrev SecretsManager (SecretError : Type) := String → Except SecretError (List UInt8)

def secretsScheme : String := "secrets://"

def teamWildcardFallback (path : String) : Option String :=
  (Text.stripPrefix secretsScheme path).bind fun trimmed =>
    match Text.split '/' trimmed with
    | [env, tenant, team, provider, key] =>
      if team = "_" ∨ team = "" then none
      else some (secretsScheme ++ Text.joinWith '/' [env, tenant, "_", provider, key])
    | _ => none

/-- `LoggingSecretsManager::read`. -/
def LoggingSecretsManager.read {SecretError : Type} (inner : SecretsManager SecretError) (path : String) :
    Except SecretError (List UInt8) :=
  match inner path with
  | .ok value => .ok value
  | .error err =>
    match teamWildcardFallback path with
    | none => .error err
    | some fallbackPath =>
      match inner fallbackPath with
      | .ok value => .ok value
      | .error _ => .error err

/-! ## The keys a pack requires -/

inductive CborValue
  | bool (b : Bool)
  | integer (n : Int)
  | text (s : String)
  | array (items : List CborValue)
  | map (entries : List (CborValue × CborValue))
  /-- A value of any other kind. -/
  | other

/-- What is found under a name in the archive of a pack, once it is decoded. -/
inductive ArchiveEntry (α : Type)
  | notFound
  | unreadable (message : String)
  | found (content : Except String α)

/-- The archive of a pack that can be opened. -/
structure PackArchive where
  asset : String → ArchiveEntry Value
  manifest : ArchiveEntry CborValue

structure AssetSecretRequirement where
  key : Option String
  required : Option Bool

/-- A value of a record that may be null. -/
def nullableValue {α : Type} (read : Value → Option α) : Value → Option (Option α)
  | .null => some none
  | v => (read v).map some

def decodeRequirement : Value → Option AssetSecretRequirement
  | .object fields => do
    let key ← Value.optionalField Value.asStr "key" fields
    let required ← Value.optionalField Value.asBool "required" fields
    return { key, required }
  | .array [key] => do
    let key ← nullableValue Value.asStr key
    return { key, required := none }
  | .array [key, required] => do
    let key ← nullableValue Value.asStr key
    let required ← nullableValue Value.asBool required
    return { key, required }
  | _ => none

def assetPaths : List String :=
  ["assets/secret-requirements.json", "assets/secret_requirements.json", "secret-requirements.json",
    "secret_requirements.json"]

/-- `str::to_lowercase`, whatever its table of letters. -/
abbrev Lowercase := String → String

def requiredKeys (toLowercase : Lowercase) (requirements : List AssetSecretRequirement) : List String :=
  ((requirements.filter fun req => req.required.getD true).filterMap (·.key)).map toLowercase

/-- The loop over the places of the asset; the first that is there counts. -/
def loadKeysFromAssets (toLowercase : Lowercase) (archive : PackArchive) :
    List String → Except String (List String)
  | [] => .ok []
  | asset :: rest =>
    match archive.asset asset with
    | .found content => do
      match ((← content).asArray).bind (·.mapM decodeRequirement) with
      | none => throw s!"invalid secret requirements in {asset}"
      | some requirements => return requiredKeys toLowercase requirements
    | _ => loadKeysFromAssets toLowercase archive rest

def mapGet (map : List (CborValue × CborValue)) (key : String) : Option CborValue :=
  map.findSome? fun
    | (.text text, v) => if text = key then some v else none
    | _ => none

def symbolsMap (map : List (CborValue × CborValue)) : Option (List (CborValue × CborValue)) :=
  match mapGet map "symbols" with
  | some (.map map) => some map
  | _ => none

/-- The table of symbols of a name, which may be in the singular. -/
def symbolArray (symbols : List (CborValue × CborValue)) (key : String) : Option (List CborValue) :=
  match mapGet symbols key with
  | some (.array values) => some values
  | _ =>
    if Text.endsWith "s" key then
      match mapGet symbols (String.ofList key.toList.dropLast) with
      | some (.array values) => some values
      | _ => none
    else none

def resolveStringSymbol (symbols : Option (List (CborValue × CborValue))) (symbolKey : String) :
    CborValue → Except String String
  | .text text => .ok text
  | .integer idx =>
    match symbols.bind fun symbols => symbolArray symbols symbolKey with
    | none => .ok (toString idx)
    | some values =>
      -- An index out of range is the largest one, also as a text.
      let idx := if 0 ≤ idx ∧ idx < 2 ^ 64 then idx.toNat else 2 ^ 64 - 1
      match values[idx]? with
      | some (.text text) => .ok text
      | _ => .ok (toString idx)
  | _ => .error "expected string or symbol index"

def isRequired (entry : List (CborValue × CborValue)) : Bool :=
  match mapGet entry "required" with
  | some (.bool value) => value
  | _ => true

def extractKeysFromManifestMap (toLowercase : Lowercase) (map : List (CborValue × CborValue)) :
    Except String (List String) :=
  match mapGet map "secret_requirements" with
  | some (.array entries) => do
    let keys ← entries.mapM fun
      | .map entry =>
        if isRequired entry then
          match mapGet entry "key" with
          | some key => return some (← resolveStringSymbol (symbolsMap map) "secret_requirements" key)
          | none => return none
        else return none
      | _ => return none
    return (keys.filterMap id).map toLowercase
  | _ => .ok []

def loadKeysFromManifest (toLowercase : Lowercase) (archive : PackArchive) : Except String (List String) :=
  match archive.manifest with
  | .notFound => .ok []
  | .unreadable message => .error message
  | .found content => do
    match ← content with
    | .map map => extractKeysFromManifestMap toLowercase map
    | _ => return []

/-- The keys a pack requires, whose archive may not open. -/
def loadSecretKeysFromPack (toLowercase : Lowercase) (pack : Except String PackArchive) :
    Except String (List String) := do
  let archive ← pack
  let keys ← loadKeysFromAssets toLowercase archive assetPaths
  if keys ≠ [] then return keys
  loadKeysFromManifest toLowercase archive

/-! ## Looking for them -/

def canonicalTeam (team : Option String) : String :=
  ((team.map Text.trim).filter fun trimmed =>
    trimmed ≠ "" ∧ !Text.eqIgnoreAsciiCase trimmed "default").getD "_"

def canonicalSecretUri (env tenant : String) (team : Option String) (provider key : String) : String :=
  let providerSegment := if provider = "" then "messaging" else provider
  secretsScheme ++ Text.joinWith '/' [env, tenant, canonicalTeam team, providerSegment, canonicalSecretName key]

def secretUriCandidates (env tenant canonicalTeam key providerId : String) : List String :=
  [secretsScheme ++ Text.joinWith '/' [env, tenant, canonicalTeam, providerId, canonicalSecretName key]]

def displaySecretCandidates (env tenant canonicalTeam key providerId : String) : List String :=
  [secretsScheme ++ Text.joinWith '/' [env, tenant, canonicalTeam, providerId, canonicalSecretName key]]

/-- What the check of one key did: the URIs it asked for, in order, whether one was found, and the
ones that were not. -/
structure KeyCheck where
  probed : List String
  resolved : Bool
  missing : List String
deriving DecidableEq, Repr

/-- The loop over the candidates of a key; any error counts as a secret that is missing. -/
def probeCandidates {SecretError : Type} (manager : SecretsManager SecretError) : List String → KeyCheck
  | [] => ⟨[], false, []⟩
  | uri :: rest =>
    match manager uri with
    | .ok _ => ⟨[uri], true, []⟩
    | .error _ =>
      let check := probeCandidates manager rest
      { check with probed := uri :: check.probed, missing := uri :: check.missing }

def checkKey {SecretError : Type} (manager : SecretsManager SecretError) (env tenant : String)
    (team : Option String) (providerId key : String) : KeyCheck :=
  probeCandidates manager (secretUriCandidates env tenant (canonicalTeam team) key providerId)

/-- The URIs that are reported for a key. -/
def missingOf {SecretError : Type} (manager : SecretsManager SecretError) (env tenant : String)
    (team : Option String) (providerId key : String) : List String :=
  let check := checkKey manager env tenant team providerId key
  if check.resolved then []
  else check.missing.filter
    (displaySecretCandidates env tenant (canonicalTeam team) key providerId).contains

/-- The URIs of the required secrets that are missing, where there are any. The runtime that asks
the manager may not start. -/
def checkProviderSecrets {SecretError : Type} (toLowercase : Lowercase) (runtime : Except String Unit)
    (manager : SecretsManager SecretError) (env tenant : String) (team : Option String)
    (pack : Except String PackArchive) (providerId : String) : Except String (Option (List String)) := do
  let keys ← loadSecretKeysFromPack toLowercase pack
  if keys = [] then return none
  runtime
  let missing := keys.flatMap fun key => missingOf manager env tenant team providerId key
  if missing = [] then return none
  return some missing

end SecretsGate
