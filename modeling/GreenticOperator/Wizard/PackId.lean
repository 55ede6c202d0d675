import GreenticOperator.Lib.Disk
import GreenticOperator.Lib.Fresh
import Mathlib.Data.List.Sort
import Mathlib.Data.String.Basic

/-!
# Pack ids and references

`src/wizard.rs`. A pack is fetched by a reference and kept under an id, which is derived from the
text of the reference and numbered where another reference has it already. The file
`.greentic/packs.json` of a bundle records which reference has which id.
-/

namespace Wizard

structure PackMappingRecord where
  packId : String
  originalRef : String
  localPathInBundle : String
  digest : Option String
deriving DecidableEq, Repr

/-- What reading `packs.json` gives; a file that is not there has no records. -/
abbrev PacksJson := Except String (List PackMappingRecord)

/-! ## Deriving an id -/

def lowerAscii (c : Char) : Char := if 'A' ≤ c ∧ c ≤ 'Z' then Char.ofNat (c.toNat + 32) else c

/-- The loop of `slug_for_pack_id`; a dash stands for a run of other characters. -/
def slugChars : Bool → List Char → List Char
  | _, [] => []
  | prevDash, c :: rest =>
    if Text.isAsciiAlphanumeric c then lowerAscii c :: slugChars false rest
    else if prevDash then slugChars true rest
    else '-' :: slugChars true rest

def slugForPackId (value : String) : String :=
  Text.trimMatches '-' (String.ofList (slugChars false value.toList))

def slugForTag (value : String) : String :=
  Text.trimMatches '_' (String.ofList
    (value.toList.map fun c => if Text.isAsciiAlphanumeric c then lowerAscii c else '_'))

/-- A reference without the scheme it begins with. -/
def withoutScheme (trimmed : String) : String :=
  match Text.stripPrefix "file://" trimmed with
  | some rest => rest
  | none => (Text.afterFirst "://" trimmed).getD trimmed

def derivePackIdFromReference (reference : String) : String :=
  let trimmed := Text.trim reference
  if trimmed.isEmpty then "pack"
  else
    let (pathPart, tagPart) := Text.splitOnce '@' (withoutScheme trimmed)
    let stem := Text.beforeLast '.' (Text.lastPart '/' pathPart)
    let slug := slugForPackId stem
    let id := if slug.isEmpty then "pack" else slug
    match tagPart with
    | none => id
    | some tag =>
      let tagSlug := slugForTag tag
      if tagSlug.isEmpty then id else id ++ "-" ++ tagSlug

example : derivePackIdFromReference "repo://messaging/providers/messaging-telegram@latest"
    = "messaging-telegram-latest" := by decide

/-! ## Assigning ids -/

def numberedId (base : String) (index : Nat) : String := base ++ "-" ++ toString index

def allocateUniquePackId (base : String) (usedIds : List String) : String :=
  if base ∈ usedIds then numberedId base (Fresh.firstFree usedIds (numberedId base) usedIds.length 2)
  else base

/-- The ids known so far: those of references, and those in use. -/
structure KnownIds where
  byOriginalRef : List (String × String)
  usedIds : List String

/-- The ids of the records; of two records of one reference the later one counts. -/
def knownIds (records : List PackMappingRecord) : KnownIds where
  byOriginalRef := ((records.filter fun record => !(Text.trim record.originalRef).isEmpty).map
    fun record => (record.originalRef, record.packId)).reverse
  usedIds := records.map (·.packId)

def assignPackId (known : KnownIds) (reference : String) : String :=
  match known.byOriginalRef.lookup reference with
  | some existing => existing
  | none => allocateUniquePackId (derivePackIdFromReference reference) known.usedIds

def KnownIds.with (known : KnownIds) (reference id : String) : KnownIds where
  byOriginalRef := (reference, id) :: known.byOriginalRef
  usedIds := id :: known.usedIds

/-- The loop over the references, each with the id it is given. -/
def assignPackIds : KnownIds → List String → List (String × String)
  | _, [] => []
  | known, reference :: rest =>
    let id := assignPackId known reference
    (reference, id) :: assignPackIds (known.with reference id) rest

def fileName (packId : String) : String := packId ++ ".gtpack"

def outputPath (packId : String) : String := Disk.join "packs" (fileName packId)

def upsertPackMapping (next : PackMappingRecord) : List PackMappingRecord → List PackMappingRecord
  | [] => [next]
  | record :: rest => if record.packId = next.packId then next :: rest else record :: upsertPackMapping next rest

/-- The records with those of new packs, in the order of the ids. -/
def persistMetadata (next records : List PackMappingRecord) : List PackMappingRecord :=
  (next.foldl (fun records record => upsertPackMapping record records) records).insertionSort
    fun a b => a.packId ≤ b.packId

/-! ## Naming a pack -/

/-- An identifier that can be no reference. -/
def isPlain (identifier : String) : Bool :=
  !Text.contains "://" identifier && !identifier.toList.contains '/' && !identifier.toList.contains '.'

/-- The id an identifier stands for; records that cannot be read are none. -/
def canonicalPackIdentifier (packsJson : PacksJson) (identifier : String) : Except String String :=
  let trimmed := Text.trim identifier
  if trimmed.isEmpty then .error "pack identifier must not be empty"
  else if isPlain trimmed then .ok trimmed
  else
    let records := packsJson.toOption.getD []
    match records.find? fun record => record.packId == trimmed with
    | some record => .ok record.packId
    | none =>
      match records.find? fun record => record.originalRef == trimmed with
      | some record => .ok record.packId
      | none => .ok (derivePackIdFromReference trimmed)

/-! ## What references are mapped to

A pack is fetched from an OCI registry. A reference to it may name the registry, or be one into a repository or
a store whose registry an environment variable names. -/

def mapRegistryTarget (target : String) (base : Option String) : Option String :=
  if target.toList.contains '/' && (target.toList.contains '@' || target.toList.contains ':') then some target
  else base.map fun base => Text.trimEndMatches '/' base ++ "/" ++ Text.trimStartMatches '/' target

/-- The reference that a pack is fetched by; the bases are what the two variables are set to. -/
def mapPackReference (repoBase storeBase : Option String) (reference : String) : Except String String :=
  let trimmed := Text.trim reference
  match Text.stripPrefix "oci://" trimmed with
  | some rest => .ok rest
  | none =>
    match Text.stripPrefix "repo://" trimmed with
    | some rest =>
      match mapRegistryTarget rest repoBase with
      | some mapped => .ok mapped
      | none => .error s!"repo:// reference {trimmed} requires GREENTIC_REPO_REGISTRY_BASE to map to OCI"
    | none =>
      match Text.stripPrefix "store://" trimmed with
      | some rest =>
        match mapRegistryTarget rest storeBase with
        | some mapped => .ok mapped
        | none => .error s!"store:// reference {trimmed} requires GREENTIC_STORE_REGISTRY_BASE to map to OCI"
      | none => .ok trimmed

end Wizard
