import GreenticOperator.Lib.Eff
import GreenticOperator.Lib.Json
import Mathlib.Data.List.Sort

/-!
# The offer registry

`src/offers/registry.rs`. The offers of all packs under one key each; the hooks of a stage and
contract are taken in the order of their priority, then of their key.
-/

namespace Offers

def hookStagePostIngress : String := "post_ingress"
def hookContractControlV1 : String := "greentic.hook.control.v1"

inductive OfferKind
  | Hook
  | Subs
  | Capability
deriving DecidableEq, Repr

structure PackOffer where
  id : String
  kind : OfferKind
  priority : Int32
  providerOp : String
  stage : Option String
  contract : Option String
deriving DecidableEq, Repr

structure PackOffers where
  packId : String
  packRef : String
  offers : List PackOffer
deriving DecidableEq, Repr

structure Offer where
  offerKey : String
  packId : String
  packRef : String
  id : String
  kind : OfferKind
  priority : Int32
  providerOp : String
  stage : Option String
  contract : Option String
deriving DecidableEq, Repr

/-- The offers in the order of their keys, and the file of each pack. -/
structure OfferRegistry where
  byKey : List Offer
  packRefs : List (String × String)
deriving DecidableEq, Repr

def offerKey (packId offerId : String) : String := packId ++ "::" ++ offerId

/-- Offers in the order of their keys, with one more or another in the place of one of them. -/
def insertOffer (offer : Offer) : List Offer → List Offer
  | [] => [offer]
  | other :: rest =>
    if offer.offerKey = other.offerKey then offer :: rest
    else if offer.offerKey < other.offerKey then offer :: other :: rest
    else other :: insertOffer offer rest

namespace OfferRegistry

def empty : OfferRegistry := ⟨[], []⟩

def registerPack (registry : OfferRegistry) (pack : PackOffers) : Except String OfferRegistry :=
  let known := registry.packRefs.lookup pack.packId
  if known.any (· != pack.packRef) then
    .error ("duplicate pack_id " ++ pack.packId ++ " across packs: " ++ known.getD "" ++ " and "
      ++ pack.packRef)
  else
    let recordOf (offer : PackOffer) : Offer :=
      { offerKey := offerKey pack.packId offer.id, packId := pack.packId, packRef := pack.packRef,
        id := offer.id, kind := offer.kind, priority := offer.priority,
        providerOp := offer.providerOp, stage := offer.stage, contract := offer.contract }
    .ok { byKey := pack.offers.foldl (fun byKey offer => insertOffer (recordOf offer) byKey) registry.byKey
          packRefs := if known.isSome then registry.packRefs
            else registry.packRefs ++ [(pack.packId, pack.packRef)] }

/-- The registry of the packs that `load` reads, in the order of their files. -/
def fromPackRefs (load : String → Except String PackOffers) (packRefs : List String) :
    Except String OfferRegistry :=
  packRefs.foldlM (fun registry packRef => do registry.registerPack (← load packRef)) empty

/-- `register_pack` on a registry that it changes step by step. -/
def registerPackIn (pack : PackOffers) : Eff OfferRegistry Unit := do
  let existing ← Eff.read fun registry => registry.packRefs.lookup pack.packId
  if existing.any (· != pack.packRef) then
    Eff.fail ("duplicate pack_id " ++ pack.packId ++ " across packs: " ++ existing.getD "" ++ " and "
      ++ pack.packRef)
  Eff.modify fun registry => { registry with
    packRefs := if existing.isSome then registry.packRefs
      else registry.packRefs ++ [(pack.packId, pack.packRef)] }
  pack.offers.forM fun offer => Eff.modify fun registry => { registry with
    byKey := insertOffer
      { offerKey := offerKey pack.packId offer.id, packId := pack.packId, packRef := pack.packRef,
        id := offer.id, kind := offer.kind, priority := offer.priority,
        providerOp := offer.providerOp, stage := offer.stage, contract := offer.contract }
      registry.byKey }

def selectHooks (registry : OfferRegistry) (stage contract : String) : List Offer :=
  (registry.byKey.filter fun offer =>
    offer.kind == .Hook && offer.stage == some stage && offer.contract == some contract).insertionSort
    fun a b => a.priority < b.priority ∨ a.priority = b.priority ∧ a.offerKey ≤ b.offerKey

def selectSubs (registry : OfferRegistry) (contract : Option String) : List Offer :=
  (registry.byKey.filter fun offer =>
    offer.kind == .Subs && (contract.map fun expected => offer.contract == some expected).getD true).insertionSort
    fun a b => a.priority < b.priority ∨ a.priority = b.priority ∧ a.offerKey ≤ b.offerKey

end OfferRegistry

/-!
## Loading the offers of a pack

`src/offers/registry.rs`. The offers of a pack are entries of its manifest and of the extensions
in it. An entry that looks like an offer has to be one: with an id of its own in the pack, a kind
and an operation.
-/

section

open Json

def OfferKind.parse (raw : String) : Option OfferKind :=
  let kind := Text.toAsciiLowercase (Text.trim raw)
  if kind = "hook" then some .Hook
  else if kind = "subs" then some .Subs
  else if kind = "capability" then some .Capability
  else none

/-- A text field without the blanks around it, where that is not empty. -/
def trimmedField (raw : Value) (name : String) : Option String :=
  (((raw.get name).bind Value.asStr).map Text.trim).filter (· ≠ "")

/-- Whether an entry is meant to be an offer. -/
def isCandidate (raw : Value) : Bool :=
  (raw.get "id").isSome || (raw.get "offer_id").isSome || (raw.get "kind").isSome
    || (raw.get "cap_id").isSome

def offerIdOf (raw : Value) : Option String :=
  ((((raw.get "id").or (raw.get "offer_id")).bind Value.asStr).map Text.trim).filter (· ≠ "")

def kindOf (raw : Value) : Option OfferKind :=
  (((raw.get "kind").bind Value.asStr).bind OfferKind.parse).or
    (if (raw.get "cap_id").isSome then some .Capability else none)

def providerOpOf (raw : Value) : Option String :=
  (raw.get "provider").bind fun provider => trimmedField provider "op"

def priorityOf (raw : Value) : Int32 :=
  (((raw.get "priority").bind Value.asI64).map Int64.toInt32).getD 100

/-- One entry; none for what is no offer. -/
def parseOffer (packRef : String) (seenIds : List String) (raw : Value) :
    Except String (Option PackOffer) := do
  if !isCandidate raw then return none
  match offerIdOf raw with
  | none => throw s!"offer id missing in {packRef}"
  | some id =>
    if seenIds.contains id then throw s!"duplicate offer id {id} in {packRef}"
    match kindOf raw with
    | none => throw s!"offer kind missing/invalid for {id} in {packRef}"
    | some kind =>
      match providerOpOf raw with
      | none => throw s!"provider.op missing for offer {id} in {packRef}"
      | some providerOp =>
        return some { id, kind, priority := priorityOf raw, providerOp,
                      stage := trimmedField raw "stage", contract := trimmedField raw "contract" }

/-- The loop over the entries, with the ids of the offers so far. -/
def parseOffers (packRef : String) : List String → List Value → Except String (List PackOffer)
  | _, [] => .ok []
  | seenIds, raw :: rest => do
    match ← parseOffer packRef seenIds raw with
    | none => parseOffers packRef seenIds rest
    | some offer => return offer :: (← parseOffers packRef (offer.id :: seenIds) rest)

/-- The entries of an array field. -/
def entriesOf (v : Value) (name : String) : List Value := ((v.get name).bind Value.asArray).getD []

/-- The entries of an extension, and of its inline payload. -/
def extensionEntries (extension : Value) : List Value :=
  entriesOf extension "offers" ++ ((extension.get "inline").map fun value => entriesOf value "offers").getD []

def offersRaw (manifest : Value) : List Value :=
  entriesOf manifest "offers"
    ++ (((manifest.get "extensions").bind Value.asObject).getD []).flatMap fun extension =>
      extensionEntries extension.2

def parsePackOffers (manifest : Value) (packRef : String) : Except String (List PackOffer) :=
  parseOffers packRef [] (offersRaw manifest)

/-- The pack id as an index into the manifest's table of them. -/
def resolveSymbolPackId (manifest : Value) : Option String := do
  let idx ← (((manifest.get "meta").bind (·.get "pack_id")).or (manifest.get "pack_id")).bind Value.asU64
  let packIds ← ((manifest.get "symbols").bind (·.get "pack_ids")).bind Value.asArray
  (packIds[idx.toNat]?).bind Value.asStr

def manifestPackId (manifest : Value) : Option String :=
  ((((((manifest.get "meta").bind (·.get "pack_id")).bind Value.asStr).or
    ((manifest.get "pack_id").bind Value.asStr)).map Text.trim).filter (· ≠ "")).or
    (resolveSymbolPackId manifest)

/-- The offers of a pack, whose manifest may be missing or be no JSON. -/
def loadPackOffers (manifest : Except String Value) (packRef : String) : Except String PackOffers := do
  let manifest ← manifest
  match manifestPackId manifest with
  | none => throw s!"pack manifest missing pack id in {packRef}"
  | some packId => return { packId, packRef, offers := ← parsePackOffers manifest packRef }

end

end Offers
