import GreenticOperator.Cli.PlanItem
import GreenticOperator.Domains.Manifest

/-!
# Selecting provider packs

`src/cli.rs`, `src/domains/mod.rs`. A provider pack is named by its id, its file or the stem of its
file, or by a part of one of these. Two commands take the one pack that a name matches; a plan takes
the flows of all of them.
-/

namespace Domains

/-- What `config` says of the flows of a domain. -/
structure DomainFlows where
  setupFlow : String
  diagnosticsFlow : String
  verifyFlows : List String

def flowsOf : Domain → DomainFlows
  | .Messaging => ⟨"setup_default", "diagnostics", ["verify_webhooks"]⟩
  | .Events => ⟨"setup_default", "diagnostics", ["verify_subscriptions"]⟩
  | .Secrets => ⟨"setup_default", "diagnostics", []⟩
  | .OAuth => ⟨"setup_default", "diagnostics", []⟩

/-- The name of a pack's file without its extension. -/
def ProviderPack.fileStem (pack : ProviderPack) : String :=
  (Text.stripSuffix ".gtpack" pack.fileName).getD pack.fileName

end Domains

namespace Cli

open Domains

def providerFilterMatches (pack : ProviderPack) (filter : String) : Bool :=
  pack.packId == filter || pack.fileName == filter || pack.fileStem == filter
    || Text.contains filter pack.packId || Text.contains filter pack.fileName
    || Text.contains filter pack.fileStem

/-- The order of paths, by their components. -/
def byPath (packs : List ProviderPack) : List ProviderPack :=
  packs.insertionSort fun a b => Text.split '/' a.path ≤ Text.split '/' b.path

def fileNames (packs : List ProviderPack) : String := ", ".intercalate (packs.map (·.fileName))

/-- The one pack that a filter is to match. -/
def onlyMatch (packs : List ProviderPack) (filter : String) (none : String)
    (several : List ProviderPack → String) : Except String ProviderPack :=
  match byPath (packs.filter fun pack => providerFilterMatches pack filter) with
  | [] => .error none
  | [pack] => .ok pack
  | found => .error (several found)

/-- `demo_provider_pack_by_filter`, on the packs that were discovered. -/
def demoProviderPackByFilter (packs : Except String (List ProviderPack)) (domain : Domain)
    (filter : String) : Except String ProviderPack := do
  let packs ← packs
  onlyMatch packs filter s!"no provider pack matched {filter} in {domainName domain}" fun found =>
    s!"multiple provider packs matched {filter}; specify a more precise --pack: {fileNames found}"

/-! ## The packs a manifest allows -/

/-- `Path::file_name`. -/
def pathFileName (path : String) : Option String :=
  (Text.split '/' path).filter (fun part => part ≠ "" && part ≠ ".") |>.getLast?.filter (· ≠ "..")

/-- The provider lists of a resolved manifest, by their domains. -/
abbrev ManifestProviders := List (String × List String)

def demoProviderFiles (manifest : Option (Except String ManifestProviders)) (domain : Domain) :
    Except String (Option (List String)) :=
  match manifest with
  | none => .ok none
  | some providers => do
    match (← providers).lookup (domainName domain) with
    | none => return some []
    | some list => return some (list.filterMap pathFileName)

/-- A bundle as the selection of a provider finds it: whether it is a demo bundle, the packs of the
domain, and the resolved manifest of the tenant and team, where there is one. -/
structure Bundle where
  isDemoBundle : Bool
  packs : Except String (List ProviderPack)
  manifest : Option (Except String ManifestProviders)

/-- The packs a bundle lets be selected. -/
def Bundle.allowedPacks (bundle : Bundle) (domain : Domain) : Except String (List ProviderPack) := do
  let packs ← bundle.packs
  if bundle.isDemoBundle then
    match ← demoProviderFiles bundle.manifest domain with
    | some allowed => return packs.filter fun pack => allowed.contains pack.fileName
    | none => return packs
  else return packs

def resolveDemoProviderPack (bundle : Bundle) (provider : String) (domain : Domain) :
    Except String ProviderPack := do
  let packs ← bundle.allowedPacks domain
  onlyMatch packs provider "No provider packs matched. Try --provider <pack_id>." fun found =>
    s!"Multiple provider packs matched: {fileNames found}. Use a more specific --provider."

/-! ## Plans -/

structure PlannedRun where
  pack : ProviderPack
  flowId : String
deriving DecidableEq, Repr

def actionFlows (domain : Domain) : DomainAction → List String
  | .Setup => [(flowsOf domain).setupFlow]
  | .Diagnostics => [(flowsOf domain).diagnosticsFlow]
  | .Verify => (flowsOf domain).verifyFlows

/-- The runs of one pack. A flow that is missing is left out, but for the setup where it must be
there. -/
def planPack (action : DomainAction) (allowMissingSetup : Bool) (pack : ProviderPack) :
    List String → Except String (List PlannedRun)
  | [] => .ok []
  | flow :: flows =>
    if pack.entryFlows.contains flow then do
      let rest ← planPack action allowMissingSetup pack flows
      return ⟨pack, flow⟩ :: rest
    else if action = .Setup && !allowMissingSetup then
      .error s!"Missing required flow '{flow}' in provider pack {pack.fileName}"
    else planPack action allowMissingSetup pack flows

def planRuns (domain : Domain) (action : DomainAction) (packs : List ProviderPack)
    (providerFilter : Option String) (allowMissingSetup : Bool) : Except String (List PlannedRun) :=
  match packs with
  | [] => .ok []
  | pack :: packs =>
    if providerFilter.all (providerFilterMatches pack) then do
      let runs ← planPack action allowMissingSetup pack (actionFlows domain action)
      let rest ← planRuns domain action packs providerFilter allowMissingSetup
      return runs ++ rest
    else planRuns domain action packs providerFilter allowMissingSetup

end Cli
