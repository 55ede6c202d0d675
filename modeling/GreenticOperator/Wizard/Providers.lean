import GreenticOperator.Lib.FirstMatch
import GreenticOperator.Lib.Json
import GreenticOperator.Wizard.Store

/-!
# The provider registry of a bundle

`src/wizard.rs`. The file `providers/providers.json` of a bundle has an object with an array of
providers; an entry of it that is an object may have an id. Packs that were added, providers that
were asked for and providers that are to go are each looked up by their id, the first entry with it
is enabled or disabled, and the file is written again.
-/

namespace Wizard

open Json Json.Value
open FirstMatch (Edit applyAll)

/-- The file, where it is there: what reading its text as JSON gives. -/
abbrev RegistryFile := Option (Except String Value)

/-- `Map::insert`, on a value that is an object. -/
def setField (name : String) (v : Value) : Value → Value
  | object fields => object (insertField name v fields)
  | other => other

def entryId (entry : Value) : Option String := (entry.get "id").bind asStr

def entryRef (entry : Value) : String := ((entry.get "ref").bind asStr).getD ""

def entryEnabled (entry : Value) : Bool := ((entry.get "enabled").bind asBool).getD false

def newEntry (id reference : String) : Value :=
  ofFields [("id", string id), ("ref", string reference), ("enabled", bool true)]

/-! ## The file -/

def loadProviderRegistryFile (path : String) : Eff RegistryFile Value := do
  match ← Eff.read fun file => file with
  | none => return ofFields [("providers", array [])]
  | some (.ok root) => return root
  | some (.error _) => Eff.fail ("parse provider registry " ++ path)

/-- The fields of the object, which has providers then, and the providers. -/
def ensureProviderArray (path : String) : Value → Except String (List (String × Value) × List Value)
  | object fields =>
    let fields := if (fields.lookup "providers").isSome then fields else insertField "providers" (array []) fields
    match fields.lookup "providers" with
    | some (array providers) => .ok (fields, providers)
    | _ => .error ("provider registry " ++ path ++ ".providers must be an array")
  | _ => .error ("provider registry " ++ path ++ " must be a JSON object")

def writeProviderRegistryFile (fields : List (String × Value)) (providers : List Value) : Eff RegistryFile Unit :=
  Eff.modify fun _ => some (.ok (object (insertField "providers" (array providers) fields)))

/-- The providers of the file are edited one after another and written; those that have no entry are told. -/
def editProviders (path : String) (edits : List (Edit String Value)) : Eff RegistryFile (Nat × List String) := do
  let root ← loadProviderRegistryFile path
  let (fields, providers) ← Eff.lift (ensureProviderArray path root)
  let done := applyAll entryId edits providers
  writeProviderRegistryFile fields done.entries
  return (done.updates, done.absent)

/-! ## The three calls -/

variable {α : Type}

/-- One round of the loop of `upsert_provider_registry`. -/
def registerPack (pack : ResolvedPackInfo α) : Edit String Value where
  key := pack.packId
  change entry :=
    if entryRef entry ≠ pack.sourceRef ∨ entryEnabled entry = false then
      some (setField "enabled" (bool true) (setField "ref" (string pack.sourceRef) entry))
    else none
  fresh := some (newEntry pack.packId pack.sourceRef)

/-- One round of the loop of `upsert_provider_ids`. -/
def enableProvider (id : String) : Edit String Value where
  key := id
  change entry := if entryEnabled entry then none else some (setField "enabled" (bool true) entry)
  fresh := some (newEntry id id)

/-- One round of the loop of `remove_provider_ids`. -/
def disableProvider (id : String) : Edit String Value where
  key := id
  change entry := if entryEnabled entry then some (setField "enabled" (bool false) entry) else none
  fresh := none

/-- The ids that are asked for, blank ones left out. -/
def trimmedIds (providerIds : List String) : List String :=
  (providerIds.map Text.trim).filter fun id => !id.isEmpty

def upsertProviderRegistry (path : String) (packs : List (ResolvedPackInfo α)) : Eff RegistryFile Nat :=
  if packs.isEmpty then return 0
  else do
    let (updates, _) ← editProviders path (packs.map registerPack)
    return updates

def upsertProviderIds (path : String) (providerIds : List String) : Eff RegistryFile Nat :=
  if providerIds.isEmpty then return 0
  else do
    let (updates, _) ← editProviders path ((trimmedIds providerIds).map enableProvider)
    return updates

/-- The count of updates, and the warnings. -/
def removeProviderIds (path : String) (providerIds : List String) : Eff RegistryFile (Nat × List String) :=
  if providerIds.isEmpty then return (0, [])
  else do
    if ← Eff.read Option.isNone then
      return (0, providerIds.map fun id => "provider " ++ id ++ " already absent (providers/providers.json missing)")
    else do
      let (updates, absent) ← editProviders path ((trimmedIds providerIds).map disableProvider)
      return (updates, absent.map fun id => "provider " ++ id ++ " already absent")

end Wizard
