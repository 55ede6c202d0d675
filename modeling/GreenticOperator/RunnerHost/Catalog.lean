import GreenticOperator.Capabilities.Registry
import GreenticOperator.Domains.Manifest
import GreenticOperator.Lib.HashMap
import GreenticOperator.Lib.SortedMap

/-!
# The packs of a runner host

`DemoRunnerHost::new` in `src/demo/runner_host.rs`. The packs of a bundle are discovered once for each
domain, and kept in three maps: the catalog, by domain and provider; the packs, by path; and the index
that the capability registry is built from, by path.
-/

namespace RunnerHost

open Capabilities Domains

/-- The maps of a host. -/
structure PackTables where
  catalog : List ((Domain × String) × ProviderPack)
  packsByPath : List (String × ProviderPack)
  packIndex : List (String × CapabilityPackRecord)

def domainsInOrder : List Domain := [.Messaging, .Events, .Secrets, .OAuth]

/-- The type of a pack's provider, of the providers with their paths that setup has discovered. -/
def providerType (providers : List (String × String)) (pack : ProviderPack) : String :=
  (LastWins.last providers pack.path).getD pack.packId

/-- The keys of a pack in the catalog of its domain. -/
def catalogKeys (providers : List (String × String)) (pack : ProviderPack) : List String :=
  if providerType providers pack ≠ pack.packId then [providerType providers pack, pack.packId]
  else [providerType providers pack]

def PackTables.add (providers : List (String × String)) (domain : Domain) (tables : PackTables)
    (pack : ProviderPack) : PackTables where
  catalog := ((catalogKeys providers pack).map fun key => ((domain, key), pack)).foldl HashMap.insert tables.catalog
  packsByPath := SortedMap.alter pack.path (fun _ => pack) tables.packsByPath
  packIndex := SortedMap.alter pack.path (fun _ => ⟨pack.packId, domain⟩) tables.packIndex

/-- The tables of the host of a bundle. -/
def PackTables.new (disk : ProviderDisk) (bundleRoot : String) (providers : List (String × String)) :
    Except String PackTables :=
  domainsInOrder.foldlM (fun tables domain => do
    let isDemoBundle := pathIsThere disk (Disk.join bundleRoot "greentic.demo.yaml")
    let packs ← discoverProviderPacks disk isDemoBundle bundleRoot domain
    return packs.foldl (PackTables.add providers domain) tables) ⟨[], [], []⟩

/-- The index of `capability_event_bindings_in_scope`, where the catalog is scanned in some order. -/
def PackTables.eventPackIndex (tables : PackTables) (order : List ((Domain × String) × ProviderPack)) :
    List (String × CapabilityPackRecord) :=
  tables.packsByPath.map fun entry =>
    let domain := (order.findSome? fun (key, provider) =>
      if provider.path = entry.2.path then some key.1 else none).getD .Messaging
    (entry.2.path, ⟨entry.2.packId, domain⟩)

end RunnerHost
