import GreenticOperator.Laws.Capabilities.Order
import GreenticOperator.Lib.Outcome
import GreenticOperator.RunnerHost.Catalog

/-!
# The domain of a pack

A host records the domain of a pack twice. The capability registry has the last domain whose
discovery found it; the event bindings get the domain of any entry of the catalog that still holds
the pack, in the order a hash map happens to have. Packs below `packs` are found by all four domains,
so the two agree, whatever the order, only for a pack that has lost its keys to others everywhere but
in its last domain (`oneDomain_iff`).
-/

namespace RunnerHost

open Capabilities Domains

/-! ## The tables, from what each domain finds -/

section Tables

variable {providers : List (String × String)} {domain : Domain} {tables : PackTables} {packs : List ProviderPack}

/-- The entries that a pack inserts into the catalog of its domain. -/
def keyed (providers : List (String × String)) (pack : ProviderPack) : List (String × ProviderPack) :=
  (catalogKeys providers pack).map fun key => (key, pack)

theorem catalog_foldl_add : (packs.foldl (PackTables.add providers domain) tables).catalog
    = ((packs.flatMap (keyed providers)).map fun e => ((domain, e.1), e.2)).foldl HashMap.insert tables.catalog := by
  induction packs generalizing tables with
  | nil => rfl
  | cons pack packs ih =>
    rw [List.foldl_cons, ih, List.flatMap_cons, List.map_append, List.foldl_append, PackTables.add, keyed,
      List.map_map]
    rfl

theorem packsByPath_foldl_add : (packs.foldl (PackTables.add providers domain) tables).packsByPath
    = (packs.map fun pack => (pack.path, pack)).foldl (fun map e => SortedMap.alter e.1 (fun _ => e.2) map)
      tables.packsByPath := by
  induction packs generalizing tables with
  | nil => rfl
  | cons pack packs ih =>
    rw [List.foldl_cons, ih, List.map_cons, List.foldl_cons]
    rfl

theorem packIndex_foldl_add : (packs.foldl (PackTables.add providers domain) tables).packIndex
    = (packs.map fun pack => (pack.path, CapabilityPackRecord.mk pack.packId domain)).foldl
      (fun map e => SortedMap.alter e.1 (fun _ => e.2) map) tables.packIndex := by
  induction packs generalizing tables with
  | nil => rfl
  | cons pack packs ih =>
    rw [List.foldl_cons, ih, List.map_cons, List.foldl_cons]
    rfl

end Tables

/-- The tables of what each domain finds. -/
def tablesOf (providers : List (String × String)) (found : Domain → List ProviderPack) : PackTables :=
  domainsInOrder.foldl (fun tables domain => (found domain).foldl (PackTables.add providers domain) tables)
    ⟨[], [], []⟩

/-- What each domain finds in a bundle. -/
def FindsDomain (disk : ProviderDisk) (bundleRoot : String) (found : Domain → List ProviderPack) : Prop :=
  ∀ domain, discoverProviderPacks disk (pathIsThere disk (Disk.join bundleRoot "greentic.demo.yaml")) bundleRoot
    domain = .ok (found domain)

theorem foldlM_ok {discover : Domain → Except String (List ProviderPack)} {providers : List (String × String)}
    {domains : List Domain} {tables final : PackTables}
    (h : domains.foldlM (fun tables domain => do
      let packs ← discover domain
      return packs.foldl (PackTables.add providers domain) tables) tables = .ok final) :
    ∀ domain ∈ domains, ∃ packs, discover domain = .ok packs := by
  induction domains generalizing tables with
  | nil => exact fun _ h => absurd h List.not_mem_nil
  | cons domain domains ih =>
    rw [List.foldlM_cons] at h
    obtain ⟨next, hnext, h⟩ := Outcome.bind_eq_ok_iff.mp h
    obtain ⟨packs, hpacks, -⟩ := Outcome.bind_eq_ok_iff.mp hnext
    intro other hother
    rcases List.mem_cons.mp hother with rfl | hother
    · exact ⟨packs, hpacks⟩
    · exact ih h other hother

theorem foldlM_eq {discover : Domain → Except String (List ProviderPack)} {found : Domain → List ProviderPack}
    (hfound : ∀ domain, discover domain = .ok (found domain)) (providers : List (String × String))
    (domains : List Domain) (tables : PackTables) :
    domains.foldlM (fun tables domain => do
      let packs ← discover domain
      return packs.foldl (PackTables.add providers domain) tables) tables
      = .ok (domains.foldl (fun tables domain => (found domain).foldl (PackTables.add providers domain) tables)
          tables) := by
  induction domains generalizing tables with
  | nil => rfl
  | cons domain domains ih =>
    rw [List.foldlM_cons, hfound, List.foldl_cons]
    exact ih _

theorem mem_domainsInOrder (domain : Domain) : domain ∈ domainsInOrder := by
  cases domain <;> decide

theorem eq_tablesOf {disk : ProviderDisk} {bundleRoot : String} {providers : List (String × String)}
    {tables : PackTables} (h : PackTables.new disk bundleRoot providers = .ok tables) :
    ∃ found, FindsDomain disk bundleRoot found ∧ tables = tablesOf providers found := by
  have hall := fun domain => foldlM_ok h domain (mem_domainsInOrder domain)
  refine ⟨fun domain => (hall domain).choose, fun domain => (hall domain).choose_spec, ?_⟩
  have heq := foldlM_eq (fun domain => (hall domain).choose_spec) providers domainsInOrder ⟨[], [], []⟩
  exact Except.ok.inj (h.symm.trans heq)

section Found

variable (providers : List (String × String)) (found : Domain → List ProviderPack)

theorem catalog_foldl (domains : List Domain) (tables : PackTables) :
    (domains.foldl (fun tables domain => (found domain).foldl (PackTables.add providers domain) tables)
        tables).catalog
      = (domains.flatMap fun domain =>
          ((found domain).flatMap (keyed providers)).map fun e => ((domain, e.1), e.2)).foldl HashMap.insert
        tables.catalog := by
  induction domains generalizing tables with
  | nil => rfl
  | cons domain domains ih =>
    rw [List.foldl_cons, ih, catalog_foldl_add, List.flatMap_cons, List.foldl_append]

theorem packsByPath_foldl (domains : List Domain) (tables : PackTables) :
    (domains.foldl (fun tables domain => (found domain).foldl (PackTables.add providers domain) tables)
        tables).packsByPath
      = (domains.flatMap fun domain => (found domain).map fun pack => (pack.path, pack)).foldl
        (fun map e => SortedMap.alter e.1 (fun _ => e.2) map) tables.packsByPath := by
  induction domains generalizing tables with
  | nil => rfl
  | cons domain domains ih =>
    rw [List.foldl_cons, ih, packsByPath_foldl_add, List.flatMap_cons, List.foldl_append]

theorem packIndex_foldl (domains : List Domain) (tables : PackTables) :
    (domains.foldl (fun tables domain => (found domain).foldl (PackTables.add providers domain) tables)
        tables).packIndex
      = (domains.flatMap fun domain =>
          (found domain).map fun pack => (pack.path, CapabilityPackRecord.mk pack.packId domain)).foldl
        (fun map e => SortedMap.alter e.1 (fun _ => e.2) map) tables.packIndex := by
  induction domains generalizing tables with
  | nil => rfl
  | cons domain domains ih =>
    rw [List.foldl_cons, ih, packIndex_foldl_add, List.flatMap_cons, List.foldl_append]

/-- Entries under keys that begin with their domain do not meet those of other domains. -/
theorem last_tagged {ν : Type} (entries : Domain → List (String × ν)) {domains : List Domain}
    (hnodup : domains.Nodup) {domain : Domain} (hmem : domain ∈ domains) (key : String) :
    LastWins.last (domains.flatMap fun d => (entries d).map fun e => ((d, e.1), e.2)) (domain, key)
      = LastWins.last (entries domain) key := by
  have hown : ∀ d, LastWins.last ((entries d).map fun e => ((d, e.1), e.2)) (d, key)
      = LastWins.last (entries d) key := fun d =>
    HashMap.last_map_key (f := fun key => (d, key)) (fun _ _ h => (Prod.mk.inj h).2) (entries d) key
  induction domains with
  | nil => cases hmem
  | cons d domains ih =>
    obtain ⟨hnot, hnodup⟩ := List.nodup_cons.mp hnodup
    rw [List.flatMap_cons, LastWins.last_append]
    rcases List.mem_cons.mp hmem with rfl | hmem
    · have hnone : LastWins.last (domains.flatMap fun d => (entries d).map fun e => ((d, e.1), e.2))
          (domain, key) = none := by
        refine LastWins.last_eq_none.mpr fun hin => hnot ?_
        obtain ⟨_, hin, heq⟩ := List.mem_map.mp hin
        obtain ⟨d', hd', hin⟩ := List.mem_flatMap.mp hin
        obtain ⟨e, -, rfl⟩ := List.mem_map.mp hin
        rwa [← (Prod.mk.inj heq).1]
      rw [hnone, Option.none_or, hown]
    · have hne : d ≠ domain := fun heq => hnot (heq ▸ hmem)
      have hnone : LastWins.last ((entries d).map fun e => ((d, e.1), e.2)) (domain, key) = none := by
        refine LastWins.last_eq_none.mpr fun hin => hne ?_
        obtain ⟨_, hin, heq⟩ := List.mem_map.mp hin
        obtain ⟨e, -, rfl⟩ := List.mem_map.mp hin
        exact (Prod.mk.inj heq).1
      rw [hnone, Option.or_none]
      exact ih hnodup hmem

theorem mem_catalog_iff {domain : Domain} {key : String} {pack : ProviderPack} :
    ((domain, key), pack) ∈ (tablesOf providers found).catalog
      ↔ LastWins.last ((found domain).flatMap (keyed providers)) key = some pack := by
  rw [tablesOf, catalog_foldl, ← HashMap.ofInserts, HashMap.mem_ofInserts_iff,
    last_tagged (fun domain => (found domain).flatMap (keyed providers)) (by decide)
      (mem_domainsInOrder domain)]

/-- The last domain that finds a path. -/
def lastDomain (path : String) : Option Domain :=
  domainsInOrder.reverse.find? fun domain => (found domain).any fun pack => pack.path = path

theorem last_record (domain : Domain) (path : String) :
    (LastWins.last ((found domain).map fun pack => (pack.path, CapabilityPackRecord.mk pack.packId domain)) path).map
        CapabilityPackRecord.domain
      = if (found domain).any fun pack => pack.path = path then some domain else none := by
  cases hlast : LastWins.last ((found domain).map fun pack =>
      (pack.path, CapabilityPackRecord.mk pack.packId domain)) path with
  | none =>
    have hany : ((found domain).any fun pack => pack.path = path) = false := by
      rw [Bool.eq_false_iff, ne_eq, List.any_eq_true]
      rintro ⟨pack, hpack, hpath⟩
      refine LastWins.last_eq_none.mp hlast ?_
      rw [List.map_map]
      exact List.mem_map.mpr ⟨pack, hpack, of_decide_eq_true hpath⟩
    rw [hany]
    rfl
  | some record =>
    obtain ⟨pack, hpack, heq⟩ := List.mem_map.mp (HashMap.mem_of_last hlast)
    obtain ⟨hpath, hrecord⟩ := Prod.mk.inj heq
    have hany : ((found domain).any fun pack => pack.path = path) = true :=
      List.any_eq_true.mpr ⟨pack, hpack, decide_eq_true hpath⟩
    rw [hany, Option.map_some, ← hrecord]
    rfl

theorem domain_packIndex (path : String) :
    ((tablesOf providers found).packIndex.lookup path).map CapabilityPackRecord.domain = lastDomain found path := by
  rw [tablesOf, packIndex_foldl, (HashMap.lookup_foldl_alter _ path).2, lastDomain]
  simp only [domainsInOrder, List.flatMap_cons, List.flatMap_nil, List.append_nil, LastWins.last_append,
    Option.map_or, last_record, List.reverse_cons, List.reverse_nil, List.nil_append, List.cons_append,
    List.find?_cons, List.find?_nil]
  cases (found .OAuth).any fun pack => pack.path = path <;>
  cases (found .Secrets).any fun pack => pack.path = path <;>
  cases (found .Events).any fun pack => pack.path = path <;>
  cases (found .Messaging).any fun pack => pack.path = path <;> rfl

theorem lastDomain_isSome {path : String} :
    (lastDomain found path).isSome = true ↔ ∃ domain, ∃ pack ∈ found domain, pack.path = path := by
  rw [lastDomain, List.find?_isSome]
  constructor
  · rintro ⟨domain, -, hany⟩
    obtain ⟨pack, hpack, hpath⟩ := List.any_eq_true.mp hany
    exact ⟨domain, pack, hpack, of_decide_eq_true hpath⟩
  · rintro ⟨domain, pack, hpack, hpath⟩
    exact ⟨domain, List.mem_reverse.mpr (mem_domainsInOrder domain),
      List.any_eq_true.mpr ⟨pack, hpack, decide_eq_true hpath⟩⟩

/-- The packs by path are kept under their own paths, and are those that some domain finds. -/
theorem mem_packsByPath {path : String} {pack : ProviderPack}
    (h : (path, pack) ∈ (tablesOf providers found).packsByPath) : pack.path = path := by
  rw [tablesOf, packsByPath_foldl] at h
  obtain ⟨hordered, hlookup⟩ := HashMap.lookup_foldl_alter
    (domainsInOrder.flatMap fun domain => (found domain).map fun pack => (pack.path, pack)) path
  have hlast := hlookup.symm.trans ((SortedMap.lookup_eq_some_iff hordered).mpr h)
  obtain ⟨domain, -, hin⟩ := List.mem_flatMap.mp (HashMap.mem_of_last hlast)
  obtain ⟨other, -, heq⟩ := List.mem_map.mp hin
  obtain ⟨hpath, rfl⟩ := Prod.mk.inj heq
  exact hpath

theorem packsByPath_isSome (path : String) :
    ((tablesOf providers found).packsByPath.lookup path).isSome = true
      ↔ (lastDomain found path).isSome = true := by
  rw [tablesOf, packsByPath_foldl, (HashMap.lookup_foldl_alter _ path).2, LastWins.last_isSome, lastDomain_isSome]
  constructor
  · intro h
    obtain ⟨_, hin, rfl⟩ := List.mem_map.mp h
    obtain ⟨domain, -, hin⟩ := List.mem_flatMap.mp hin
    obtain ⟨pack, hpack, rfl⟩ := List.mem_map.mp hin
    exact ⟨domain, pack, hpack, rfl⟩
  · rintro ⟨domain, pack, hpack, rfl⟩
    exact List.mem_map.mpr ⟨_, List.mem_flatMap.mpr ⟨domain, mem_domainsInOrder domain,
      List.mem_map.mpr ⟨pack, hpack, rfl⟩⟩, rfl⟩

end Found

/-! ## One domain -/

/-- **One domain**: the event bindings give each path the domain that the registry has for it,
whatever order the catalog's entries come in. -/
def OneDomain (tables : PackTables) : Prop :=
  ∀ order, order.Perm tables.catalog → ∀ path,
    ((tables.eventPackIndex order).lookup path).map CapabilityPackRecord.domain
      = (tables.packIndex.lookup path).map CapabilityPackRecord.domain

/-- A path that some key of a domain leads to: the last pack of the domain with the key is there. -/
def ListsPath (providers : List (String × String)) (packs : List ProviderPack) (path : String) : Prop :=
  ∃ key pack, LastWins.last (packs.flatMap (keyed providers)) key = some pack ∧ pack.path = path

section Scan

variable (providers : List (String × String)) (found : Domain → List ProviderPack)

/-- What the scan of an order of the catalog says of a path. -/
def scanned (order : List ((Domain × String) × ProviderPack)) (path : String) : Domain :=
  (order.findSome? fun e => if e.2.path = path then some e.1.1 else none).getD .Messaging

theorem domain_eventPackIndex (order : List ((Domain × String) × ProviderPack)) (path : String) :
    (((tablesOf providers found).eventPackIndex order).lookup path).map CapabilityPackRecord.domain
      = (lastDomain found path).map fun _ => scanned order path := by
  have hindex : (tablesOf providers found).eventPackIndex order
      = (tablesOf providers found).packsByPath.map fun e => (e.1, ⟨e.2.packId, scanned order e.1⟩) := by
    refine List.map_congr_left fun e he => ?_
    rw [mem_packsByPath providers found he]
    rfl
  rw [hindex, SortedMap.lookup_map _ fun path (pack : ProviderPack) =>
    CapabilityPackRecord.mk pack.packId (scanned order path), Option.map_map]
  have hsome := packsByPath_isSome providers found path
  cases hpack : (tablesOf providers found).packsByPath.lookup path <;>
    cases hlast : lastDomain found path <;> simp_all

/-- **The scan of a path** is its last domain in every order exactly where no other domain keeps the path,
and that domain does, or is the one that is taken for paths that are not there. -/
theorem scanned_iff (path : String) (domain : Domain) :
    (∀ order, order.Perm (tablesOf providers found).catalog → scanned order path = domain)
      ↔ (∀ other, ListsPath providers (found other) path → other = domain)
        ∧ (ListsPath providers (found domain) path ∨ domain = .Messaging) := by
  unfold scanned
  rw [HashMap.findSome?_any_order_iff]
  have hkeeps : ∀ other, ListsPath providers (found other) path
      ↔ ∃ e ∈ (tablesOf providers found).catalog, e.2.path = path ∧ e.1.1 = other := by
    intro other
    constructor
    · rintro ⟨key, pack, hlast, hpath⟩
      exact ⟨((other, key), pack), (mem_catalog_iff providers found).mpr hlast, hpath, rfl⟩
    · rintro ⟨⟨⟨_, key⟩, pack⟩, hmem, hpath, rfl⟩
      exact ⟨key, pack, (mem_catalog_iff providers found).mp hmem, hpath⟩
  constructor
  · rintro ⟨hall, hsome⟩
    have honly : ∀ other, ListsPath providers (found other) path → other = domain := by
      intro other hother
      obtain ⟨e, hmem, hpath, rfl⟩ := (hkeeps other).mp hother
      exact hall e hmem _ (if_pos hpath)
    refine ⟨honly, ?_⟩
    rcases hsome with ⟨e, hmem, hsome⟩ | hdefault
    · have hpath : e.2.path = path := by
        by_contra hne
        rw [if_neg hne] at hsome
        cases hsome
      have hkept := (hkeeps e.1.1).mpr ⟨e, hmem, hpath, rfl⟩
      exact .inl (honly _ hkept ▸ hkept)
    · exact .inr hdefault.symm
  · rintro ⟨honly, hkept⟩
    refine ⟨fun e hmem d hd => ?_, ?_⟩
    · by_cases hpath : e.2.path = path
      · rw [if_pos hpath] at hd
        cases hd
        exact honly _ ((hkeeps _).mpr ⟨e, hmem, hpath, rfl⟩)
      · rw [if_neg hpath] at hd
        cases hd
    · rcases hkept with hkept | hdefault
      · obtain ⟨e, hmem, hpath, -⟩ := (hkeeps domain).mp hkept
        refine .inl ⟨e, hmem, ?_⟩
        rw [if_pos hpath]
        rfl
      · exact .inr hdefault.symm

end Scan

/-- **When a pack has one domain**: a path belongs to the last domain that finds it in all three tables
exactly where every other domain that finds it has given its keys to packs at other paths, and that domain
itself has not, or is messaging. -/
theorem oneDomain_iff (disk : ProviderDisk) (bundleRoot : String) (providers : List (String × String))
    (tables : PackTables) (h : PackTables.new disk bundleRoot providers = .ok tables) :
    OneDomain tables ↔ ∀ found, FindsDomain disk bundleRoot found →
      ∀ path domain, lastDomain found path = some domain →
        (∀ other, ListsPath providers (found other) path → other = domain)
          ∧ (ListsPath providers (found domain) path ∨ domain = .Messaging) := by
  obtain ⟨found, hfinds, rfl⟩ := eq_tablesOf h
  have honly : ∀ other, FindsDomain disk bundleRoot other → other = found := fun other hother =>
    funext fun domain => Except.ok.inj ((hother domain).symm.trans (hfinds domain))
  unfold OneDomain
  simp only [domain_eventPackIndex, domain_packIndex]
  constructor
  · intro hone other hother path domain hlast
    rw [honly other hother] at hlast ⊢
    refine (scanned_iff providers found path domain).mp fun order horder => ?_
    have hpath := hone order horder path
    rw [hlast] at hpath
    exact Option.some.inj hpath
  · intro hall order horder path
    cases hlast : lastDomain found path with
    | none => rfl
    | some domain =>
      rw [Option.map_some]
      exact congrArg some ((scanned_iff providers found path domain).mpr (hall found hfinds path domain hlast)
        order horder)

/-- A bundle with one pack in one directory. -/
def bundleWith (dir : List String) : ProviderDisk where
  dirs := [["bundle"], "bundle" :: dir.take 1, "bundle" :: dir]
  files := [("bundle" :: dir ++ ["chat.gtpack"], ⟨.ok ⟨"chat", []⟩, .ok ⟨"chat", []⟩⟩)]

def chat (path : String) : ProviderPack := { packId := "chat", path, entryFlows := [] }

/-- Only messaging finds what is in its own directory. -/
def chatOfMessaging : Domain → List ProviderPack
  | .Messaging => [chat "/bundle/providers/messaging/chat.gtpack"]
  | _ => []

theorem finds_chatOfMessaging : FindsDomain (bundleWith ["providers", "messaging"]) "/bundle" chatOfMessaging := by
  intro domain
  cases domain <;> decide +kernel

theorem oneDomain_chatOfMessaging : OneDomain (tablesOf [] chatOfMessaging) := by
  refine (oneDomain_iff (bundleWith ["providers", "messaging"]) "/bundle" [] _
    (foldlM_eq finds_chatOfMessaging [] domainsInOrder _)).mpr fun found hfound path domain hlast => ?_
  have heq : found = chatOfMessaging := funext fun domain =>
    Except.ok.inj ((hfound domain).symm.trans (finds_chatOfMessaging domain))
  subst heq
  have hnone : ∀ other, other ≠ .Messaging → ¬ ListsPath [] (chatOfMessaging other) path := by
    rintro other hother ⟨key, pack, hlast, -⟩
    cases other with
    | Messaging => exact hother rfl
    | Events | Secrets | OAuth => cases hlast
  have hmessaging : domain = .Messaging := by
    cases domain with
    | Messaging => rfl
    | Events | Secrets | OAuth =>
      have hany := List.find?_some hlast
      cases hany
  subst hmessaging
  refine ⟨fun other hkeeps => ?_, .inr rfl⟩
  by_contra hother
  exact hnone other hother hkeeps

theorem finds_shared : FindsDomain (bundleWith ["packs"]) "/bundle" fun _ => [chat "/bundle/packs/chat.gtpack"] := by
  intro domain
  cases domain <;> decide +kernel

/-- A pack below `packs` is an OAuth pack for the registry, and whatever comes first for the event bindings. -/
theorem shared_pack_in_other_domain :
    ¬ ∀ disk bundleRoot providers tables, PackTables.new disk bundleRoot providers = .ok tables → OneDomain tables := by
  intro h
  have hone := h (bundleWith ["packs"]) "/bundle" [] _ (foldlM_eq finds_shared [] domainsInOrder _)
  have hpath := hone _ (List.reverse_perm _) "/bundle/packs/chat.gtpack"
  revert hpath
  decide +kernel

/-! ## The registry -/

/-- The offers of a host's registry have the domain of the index, whatever the manifests say. -/
theorem domain_of_offer {disk : ProviderDisk} {bundleRoot : String} {providers : List (String × String)}
    {tables : PackTables} {reader : String → Except String (Option (List CapabilityOfferV1))}
    {registry : CapabilityRegistry} (h : PackTables.new disk bundleRoot providers = .ok tables)
    (hbuild : CapabilityRegistry.buildFromPackIndex reader tables.packIndex = .ok registry)
    {offer : CapabilityOfferRecord} (hoffer : offer ∈ registry.values) :
    (tables.packIndex.lookup offer.packPath).map CapabilityPackRecord.domain = some offer.domain := by
  obtain ⟨found, -, rfl⟩ := eq_tablesOf h
  have hordered : SortedMap.Ordered (tablesOf providers found).packIndex := by
    rw [tablesOf, packIndex_foldl]
    exact (HashMap.lookup_foldl_alter _ "").1
  obtain ⟨records, hrecords, rfl⟩ := CapabilityRegistry.buildFromPackIndex_eq_ok_iff.mp hbuild
  obtain ⟨group, hgroup, hoffer⟩ := List.mem_flatMap.mp hoffer
  obtain ⟨entry, hentry, hrecord⟩ := CapabilityRegistry.exists_entry_of_mem_ofOffers hrecords hgroup hoffer
  rw [hrecord.1, (SortedMap.lookup_eq_some_iff hordered).mpr hentry, Option.map_some, hrecord.2]

end RunnerHost
