import GreenticOperator.Lib.HashMap
import GreenticOperator.QaPersist.Secrets

/-!
# Setting up the secrets of a provider

`src/secrets_setup.rs`, `src/secrets_client.rs`. Before a provider is set up, the secrets that its pack requires are
looked up in the store of the bundle. Those that are not there are seeded: from the seeds of the bundle, or with a
placeholder.
-/

namespace Secrets

open QaPersist SecretsGate

/-- The seeds of a bundle, by their URIs. -/
structure Seeds where
  map : List (String × SeedEntry)
  keyed : ∀ seed ∈ map, seed.2.uri = seed.1

def Seeds.collect (entries : List SeedEntry) : Seeds where
  map := HashMap.ofInserts (entries.map fun entry => (entry.uri, entry))
  keyed seed hseed := by
    have hmem := HashMap.mem_of_last (HashMap.mem_ofInserts_iff.mp hseed)
    obtain ⟨entry, -, heq⟩ := List.mem_map.mp hmem
    obtain ⟨huri, hentry⟩ := Prod.mk.inj heq
    rw [← huri, ← hentry]

structure SecretsSetup where
  env : String
  tenant : String
  team : Option String
  seeds : Seeds

/-- `load_seed_entries` over the places of the document of seeds; the first that is there counts. -/
def loadSeedEntries : List (Option (Except String (List SeedEntry))) → Except String Seeds
  | [] => .ok (.collect [])
  | none :: rest => loadSeedEntries rest
  | some doc :: _ => doc.map Seeds.collect

/-- `SecretsSetup::new`. The store may not open. -/
def SecretsSetup.new (opened : Except String Unit) (documents : List (Option (Except String (List SeedEntry))))
    (env tenant : String) (team : Option String) : Except String SecretsSetup := do
  opened
  let seeds ← loadSeedEntries documents
  return { env, tenant, team, seeds }

def placeholderEntry (uri : String) : SeedEntry where
  uri
  value := textBytes ("placeholder for " ++ uri)
  description := some "auto-applied placeholder"

/-- What a missing secret is seeded with. -/
def SecretsSetup.seedFor (setup : SecretsSetup) (uri : String) : SeedEntry :=
  (setup.seeds.map.lookup uri).getD (placeholderEntry uri)

/-- Reads of the store that fail, though not because a secret is not there. -/
abbrev Broken := String → Option String

/-- The loop over the keys, up to the first read that fails. -/
def SecretsSetup.missing (setup : SecretsSetup) (broken : Broken) (providerId : String) (store : Store) :
    List String → Except String (List SeedEntry)
  | [] => .ok []
  | key :: keys =>
    let uri := canonicalSecretUri setup.env setup.tenant setup.team providerId key
    match broken uri with
    | some err => .error ("failed to read secret " ++ uri ++ ": " ++ err)
    | none =>
      match store uri with
      | some _ => setup.missing broken providerId store keys
      | none => (setup.missing broken providerId store keys).map (setup.seedFor uri :: ·)

inductive SetupError
  | message (text : String)
  | failed (entries : List String)
deriving DecidableEq, Repr

def SecretsSetup.ensurePackSecrets (toLowercase : Lowercase) (seed : SeedApply) (setup : SecretsSetup)
    (broken : Broken) (pack : Except String PackArchive) (providerId : String) (store : Store) :
    Store × Except SetupError Unit :=
  match loadSecretKeysFromPack toLowercase pack with
  | .error err => (store, .error (.message err))
  | .ok keys =>
    match setup.missing broken providerId store keys with
    | .error err => (store, .error (.message err))
    | .ok missing =>
      if missing = [] then (store, .ok ())
      else
        let (after, failed) := seed.apply store missing
        if failed ≠ [] then (after, .error (.failed failed)) else (after, .ok ())

/-! ## Reading -/

inductive SecretError
  | notFound (entity : String)
  | backend (message : String)
deriving DecidableEq, Repr

/-- `SecretsClient::read`, the manager over the store of a bundle. -/
def SecretsClient.read (broken : Broken) (store : Store) : SecretsManager SecretError := fun path =>
  match broken path with
  | some err => .error (.backend err)
  | none =>
    match store path with
    | some value => .ok value
    | none => .error (.notFound path)

end Secrets
