import GreenticOperator.Laws.Cli.Select
import GreenticOperator.Laws.Domains.Discover
import GreenticOperator.Laws.Wizard.Placed
import GreenticOperator.Laws.Wizard.References

/-!
# Installed packs, discovered

A directory that is discovered has at most one file of an installed pack, since packs lie in it and no
deeper. But the two directories of a domain may have one each, and an id may be a part of other names.
A pack is discovered once exactly where neither is the case (`discoveredOnce_iff`).
-/

namespace Wizard

open Cli Disk Disk.Files Domains

variable {α : Type}

/-! ## What discovery reads of a bundle -/

/-- A pack file has the manifest of its bytes; another file has none. -/
def packContents (manifests : α → PackContents) : Content α → PackContents
  | .pack bytes => manifests bytes
  | _ => ⟨.error "not a pack", .error "not a pack"⟩

def discoverable (manifests : α → PackContents) (disk : Store α) : ProviderDisk := disk.map (packContents manifests)

/-- A pack file that discovery reads, of this name in one of its directories. -/
structure ReadsFile (disk : ProviderDisk) (cborOnly : Bool) (dir name : String) (pack : ProviderPack) : Prop where
  there : pathIsThere disk dir = true
  isPack : (splitExtension name).2 = some "gtpack"
  manifest : ∃ contents packMeta, disk.read (resolve dir ++ [name]) = some contents
    ∧ reader cborOnly contents = .ok packMeta ∧ pack = ⟨packMeta.packId, join dir name, packMeta.entryFlows⟩

/-- **Discovered once**: of the packs that were discovered for a domain, the one that was installed under an id is
listed at most once, each of its flows is planned at most once, and where its id matches one it is resolved. -/
structure DiscoveredOnce (domain : Domain) (packs : List ProviderPack) (id : String) : Prop where
  listed : (packs.filter fun pack => pack.fileName = fileName id).length ≤ 1
  planned : ∀ action providerFilter allowMissingSetup plan flow,
    planRuns domain action packs providerFilter allowMissingSetup = .ok plan →
      (plan.filter fun run => run.pack.fileName = fileName id ∧ run.flowId = flow).length ≤ 1
  resolved : ∀ (bundle : Bundle) allowed, bundle.packs = .ok packs → bundle.allowedPacks domain = .ok allowed →
    (∃ pack ∈ allowed, providerFilterMatches pack id = true) →
      ∃ pack, resolveDemoProviderPack bundle id domain = .ok pack

/-- The file of a pack is in both directories of a domain. -/
def TwoCopies (disk : ProviderDisk) (root : String) (domain : Domain) (id : String) : Prop :=
  ∀ dir ∈ discoveredDirs root domain, pathIsThere disk dir = true ∧ (disk.read (resolve dir ++ [fileName id])).isSome = true

/-- A pack file that an id matches. -/
def MatchedFile (disk : ProviderDisk) (cborOnly : Bool) (id dir name : String) : Prop :=
  ∃ pack, ReadsFile disk cborOnly dir name pack ∧ providerFilterMatches pack id = true

/-- Besides the files of its own pack, an id matches no two files. -/
def NoOthersMatched (disk : ProviderDisk) (cborOnly : Bool) (root : String) (domain : Domain) (id : String) : Prop :=
  ∀ dir ∈ discoveredDirs root domain, ∀ dir' ∈ discoveredDirs root domain, ∀ name name',
    MatchedFile disk cborOnly id dir name → MatchedFile disk cborOnly id dir' name' →
      (dir = dir' ∧ name = name') ∨ (name = fileName id ∧ name' = fileName id)

theorem length_filter_le_one_iff {β : Type} {l : List β} (hnodup : l.Nodup) {p : β → Bool} :
    (l.filter p).length ≤ 1 ↔ ∀ a ∈ l, ∀ b ∈ l, p a = true → p b = true → a = b := by
  have hmem : (l.filter p).length ≤ 1 ↔ ∀ a ∈ l.filter p, ∀ b ∈ l.filter p, a = b := by
    have hfilter := hnodup.filter p
    cases hl : l.filter p with
    | nil => simp
    | cons first others =>
      cases others with
      | nil => simp
      | cons second others =>
        rw [hl] at hfilter
        refine iff_of_false (by simp) fun h => ?_
        have heq := h first List.mem_cons_self second (List.mem_cons_of_mem _ List.mem_cons_self)
        exact (List.nodup_cons.mp hfilter).1 (heq ▸ List.mem_cons_self)
  rw [hmem]
  simp only [List.mem_filter]
  constructor
  · exact fun h a ha b hb hpa hpb => h a ⟨ha, hpa⟩ b ⟨hb, hpb⟩
  · exact fun h a ha b hb => h a ha.1 b hb.1 ha.2 hb.2

section Discovery

variable {bundle : Path} {disk : Store α} {manifests : α → PackContents} {cborOnly : Bool} {root : String}
  {domain : Domain} {packs : List ProviderPack} {pack : ProviderPack} {dir dir' name name' id : String}

theorem resolve_providersDir (root : String) (domain : Domain) :
    resolve (join root (providersDir domain)) = resolve root ++ ["providers", domainName domain] := by
  have hrelative : Text.startsWithChar '/' (providersDir domain) = false := by cases domain <;> decide
  have hsplit : Text.split '/' (providersDir domain) = ["providers", domainName domain] := by
    cases domain <;> decide +kernel
  have hplain : ∀ part ∈ ["providers", domainName domain], Plain part := by cases domain <;> decide
  rw [resolve_join_of_relative root hrelative, hsplit, foldl_enter_plain hplain]

theorem resolve_packs (root : String) : resolve (join root "packs") = resolve root ++ ["packs"] :=
  resolve_join root (by decide)

theorem resolve_discoveredDir (h : dir ∈ discoveredDirs root domain) :
    ∃ parts, resolve dir = resolve root ++ parts ∧ (parts = ["packs"] ∨ parts = ["providers", domainName domain]) := by
  rcases List.mem_cons.mp h with rfl | h
  · exact ⟨_, resolve_providersDir root domain, .inr rfl⟩
  · rw [List.mem_singleton.mp h]
    exact ⟨_, resolve_packs root, .inl rfl⟩

theorem discoveredDir_inj (h : dir ∈ discoveredDirs root domain) (h' : dir' ∈ discoveredDirs root domain)
    (heq : resolve dir = resolve dir') : dir = dir' := by
  have hne : resolve (join root (providersDir domain)) ≠ resolve (join root "packs") := by
    rw [resolve_providersDir, resolve_packs]
    simp
  unfold discoveredDirs at h h'
  simp only [List.mem_cons, List.not_mem_nil, or_false] at h h'
  rcases h with rfl | rfl <;> rcases h' with rfl | rfl
  · rfl
  · exact absurd heq hne
  · exact absurd heq.symm hne
  · rfl

theorem fileName_join (h : Plain name) {pack : ProviderPack} (hpath : pack.path = join dir name) :
    pack.fileName = name := by
  obtain ⟨names, hsplit, -, -⟩ := split_join dir h
  rw [ProviderPack.fileName, hpath, Text.lastPart, hsplit, List.getLast?_concat, Option.getD_some]

theorem ReadsFile.path_eq {disk : ProviderDisk} (h : ReadsFile disk cborOnly dir name pack) :
    pack.path = join dir name := by
  obtain ⟨_, _, -, -, rfl⟩ := h.manifest
  rfl

theorem ReadsFile.isSome {disk : ProviderDisk} (h : ReadsFile disk cborOnly dir name pack) :
    (disk.read (resolve dir ++ [name])).isSome = true := by
  obtain ⟨_, _, hread, -⟩ := h.manifest
  rw [hread, Option.isSome_some]

/-- What is read in a directory that is discovered has a plain name. -/
theorem plain_of_isSome (hplaced : FilesPlaced (resolve root) disk) (hdir : dir ∈ discoveredDirs root domain)
    (h : ((discoverable manifests disk).read (resolve dir ++ [name])).isSome = true) : Plain name := by
  obtain ⟨parts, hparts, -⟩ := resolve_discoveredDir hdir
  rw [discoverable, read_map, Option.isSome_map] at h
  obtain ⟨content, hread⟩ := Option.isSome_iff_exists.mp h
  rw [hparts, List.append_assoc] at hread
  exact (hplaced _ content hread _ rfl).1 name (by simp)

/-- A pack file below a directory that is discovered lies in it. -/
theorem name_of_readFrom (hplaced : FilesPlaced (resolve root) disk) (hdir : dir ∈ discoveredDirs root domain)
    {rest : Path} (hfile : resolve dir ++ rest ∈ disk.files.map Prod.fst)
    (hextension : extension (resolve dir ++ rest) = some "gtpack") (hpath : pack.path = rest.foldl join dir)
    (hread : ReadFrom (discoverable manifests disk) (reader cborOnly) pack) :
    ∃ name, rest = [name] ∧ Plain name := by
  obtain ⟨parts, hparts, hcases⟩ := resolve_discoveredDir hdir
  obtain ⟨⟨p, content⟩, hentry, hp⟩ := List.mem_map.mp hfile
  have hsome : (disk.read (resolve dir ++ rest)).isSome = true :=
    List.lookup_isSome_iff.mpr ⟨(p, content), hentry, by simpa using hp.symm⟩
  obtain ⟨content, hcontent⟩ := Option.isSome_iff_exists.mp hsome
  obtain ⟨hplain, hpack⟩ := hplaced _ content hcontent (parts ++ rest) (by rw [hparts, List.append_assoc])
  have hrest : ∀ name ∈ rest, Plain name := fun name hname => hplain name (List.mem_append_right parts hname)
  obtain ⟨contents, packMeta, hcontents, hmeta, -⟩ := hread
  rw [hpath, resolve_joins dir hrest, discoverable, read_map, hcontent] at hcontents
  have hbytes : ∃ bytes, content = .pack bytes := by
    cases content with
    | pack bytes => exact ⟨bytes, rfl⟩
    | text text =>
      cases hcontents
      cases cborOnly <;> cases hmeta
    | records records =>
      cases hcontents
      cases cborOnly <;> cases hmeta
  obtain ⟨bytes, hbytes⟩ := hbytes
  rcases hpack bytes hbytes hextension with ⟨name, hplace⟩ | ⟨_, name, hplace⟩
  · rcases hcases with rfl | rfl
    · obtain rfl : rest = [name] := by simpa using hplace
      exact ⟨name, rfl, hrest name List.mem_cons_self⟩
    · simp at hplace
  · rcases hcases with rfl | rfl
    · simp at hplace
    · obtain rfl : rest = [name] := by
        simp at hplace
        exact hplace.2
      exact ⟨name, rfl, hrest name List.mem_cons_self⟩

/-- **What is discovered** are the pack files in the two directories. -/
theorem mem_discovered_iff (hplaced : FilesPlaced (resolve root) disk)
    (h : Discovered (discoverable manifests disk) cborOnly root domain packs) :
    pack ∈ packs ↔ ∃ dir ∈ discoveredDirs root domain, ∃ name,
      ReadsFile (discoverable manifests disk) cborOnly dir name pack := by
  have hfiles : (discoverable manifests disk).files.map Prod.fst = disk.files.map Prod.fst := paths_map _ _
  constructor
  · intro hpack
    have hread := h.readFrom pack hpack
    obtain ⟨dir, hdir, hthere, rest, hfile, hextension, hpath⟩ := (h.scanned pack.path).mp (List.mem_map_of_mem hpack)
    rw [hfiles] at hfile
    obtain ⟨name, rfl, hplain⟩ := name_of_readFrom hplaced hdir hfile hextension hpath hread
    rw [extension_concat] at hextension
    obtain ⟨contents, packMeta, hcontents, hmeta, heq⟩ := hread
    have hjoin : pack.path = join dir name := hpath
    rw [hjoin, resolve_join dir hplain] at hcontents
    exact ⟨dir, hdir, name, hthere, hextension, contents, packMeta, hcontents, hmeta, hjoin ▸ heq⟩
  · rintro ⟨dir, hdir, name, hfile⟩
    have hplain := plain_of_isSome hplaced hdir hfile.isSome
    obtain ⟨contents, packMeta, hcontents, hmeta, heq⟩ := hfile.manifest
    have hscanned : Scanned (discoverable manifests disk) dir (join dir name) := by
      refine ⟨hfile.there, [name], mem_files_of_read hcontents, ?_, rfl⟩
      rw [extension_concat]
      exact hfile.isPack
    obtain ⟨found, hfound, hpath⟩ := List.mem_map.mp ((h.scanned _).mpr ⟨dir, hdir, hscanned⟩)
    obtain ⟨contents', packMeta', hcontents', hmeta', heq'⟩ := h.readFrom found hfound
    rw [hpath, resolve_join dir hplain, hcontents] at hcontents'
    cases hcontents'
    cases hmeta.symm.trans hmeta'
    rw [heq, ← hpath, ← heq']
    exact hfound

/-- A pack that was discovered is of one file. -/
theorem file_unique (hplaced : FilesPlaced (resolve root) disk) (hdir : dir ∈ discoveredDirs root domain)
    (hdir' : dir' ∈ discoveredDirs root domain) (h : ReadsFile (discoverable manifests disk) cborOnly dir name pack)
    (h' : ReadsFile (discoverable manifests disk) cborOnly dir' name' pack) : dir = dir' ∧ name = name' := by
  have hplain := plain_of_isSome hplaced hdir h.isSome
  have hplain' := plain_of_isSome hplaced hdir' h'.isSome
  have hresolve := congrArg resolve (h.path_eq.symm.trans h'.path_eq)
  rw [resolve_join dir hplain, resolve_join dir' hplain'] at hresolve
  obtain ⟨hsame, hname⟩ := List.append_inj' hresolve rfl
  exact ⟨discoveredDir_inj hdir hdir' hsame, (List.cons.inj hname).1⟩

/-- A file is of one pack. -/
theorem pack_unique {disk : ProviderDisk} {other : ProviderPack} (h : ReadsFile disk cborOnly dir name pack)
    (h' : ReadsFile disk cborOnly dir name other) : pack = other := by
  obtain ⟨contents, packMeta, hread, hmeta, rfl⟩ := h.manifest
  obtain ⟨contents', packMeta', hread', hmeta', rfl⟩ := h'.manifest
  cases hread.symm.trans hread'
  cases hmeta.symm.trans hmeta'
  rfl

/-- The one listing, where not both copies are there. -/
theorem listed_iff (hplaced : FilesPlaced (resolve root) disk)
    (h : Discovered (discoverable manifests disk) cborOnly root domain packs) (hid : PackIdText id) :
    (packs.filter fun pack => pack.fileName = fileName id).length ≤ 1
      ↔ ¬TwoCopies (discoverable manifests disk) root domain id := by
  have hplain : Plain (fileName id) := plain_fileName (not_mem_of_not_isIdChar hid (by decide))
  rw [length_filter_le_one_iff h.once.of_map]
  simp only [decide_eq_true_eq]
  constructor
  · intro hone htwo
    have hlisted : ∀ dir ∈ discoveredDirs root domain, ∃ pack ∈ packs, pack.path = join dir (fileName id) := by
      intro dir hdir
      obtain ⟨hthere, hsome⟩ := htwo dir hdir
      obtain ⟨contents, hread⟩ := Option.isSome_iff_exists.mp hsome
      refine List.mem_map.mp ((h.scanned _).mpr ⟨dir, hdir, hthere, [fileName id], mem_files_of_read hread, ?_, rfl⟩)
      rw [extension_concat]
      exact extension_fileName hid
    obtain ⟨linked, hlinked, hlinkedPath⟩ := hlisted (join root (providersDir domain)) List.mem_cons_self
    obtain ⟨copied, hcopied, hcopiedPath⟩ := hlisted (join root "packs") (List.mem_cons_of_mem _ List.mem_cons_self)
    have hsame := hone linked hlinked copied hcopied (fileName_join hplain hlinkedPath) (fileName_join hplain hcopiedPath)
    rw [← hsame, hlinkedPath] at hcopiedPath
    have hresolve := congrArg resolve hcopiedPath
    rw [resolve_join _ hplain, resolve_join _ hplain, resolve_providersDir, resolve_packs] at hresolve
    simp at hresolve
  · intro htwo a ha b hb hnameA hnameB
    obtain ⟨dir, hdir, name, hfile⟩ := (mem_discovered_iff hplaced h).mp ha
    obtain ⟨dir', hdir', name', hfile'⟩ := (mem_discovered_iff hplaced h).mp hb
    have hname := (fileName_join (plain_of_isSome hplaced hdir hfile.isSome) hfile.path_eq).symm.trans hnameA
    have hname' := (fileName_join (plain_of_isSome hplaced hdir' hfile'.isSome) hfile'.path_eq).symm.trans hnameB
    subst hname hname'
    by_cases hsame : dir = dir'
    · subst hsame
      exact pack_unique hfile hfile'
    · -- Two directories that differ are all there are.
      refine absurd (fun other hother => ?_) htwo
      have hcases : other = dir ∨ other = dir' := by
        unfold discoveredDirs at hdir hdir' hother
        simp only [List.mem_cons, List.not_mem_nil, or_false] at hdir hdir' hother
        rcases hdir with rfl | rfl <;> rcases hdir' with rfl | rfl
        · exact absurd rfl hsame
        · exact hother
        · exact hother.symm
        · exact absurd rfl hsame
      rcases hcases with rfl | rfl
      · exact ⟨hfile.there, hfile.isSome⟩
      · exact ⟨hfile'.there, hfile'.isSome⟩

/-- **An installed pack is discovered once** exactly where its file is not in both directories of the domain, and its
id matches no two other files there. -/
theorem discoveredOnce_iff (hreached : Reached (resolve root) disk) {records : List PackMappingRecord}
    (hload : loadPacksMetadata (resolve root) disk = .ok records) (hrecorded : id ∈ records.map (·.packId))
    (hpacks : discoverProviderPacks (discoverable manifests disk) cborOnly root domain = .ok packs) :
    DiscoveredOnce domain packs id
      ↔ ¬TwoCopies (discoverable manifests disk) root domain id
        ∧ NoOthersMatched (discoverable manifests disk) cborOnly root domain id := by
  have hplaced := filesPlaced_of_reached hreached
  have hfound := discovered_of_ok hpacks
  obtain ⟨record, hrecord, rfl⟩ := List.mem_map.mp hrecorded
  have hid := (wellKept_of_reached hreached hload).named record hrecord
  have hlisted := listed_iff hplaced hfound hid
  have hone := @length_filter_le_one_iff _ _ hfound.once.of_map fun pack => providerFilterMatches pack record.packId
  constructor
  · intro h
    refine ⟨hlisted.mp h.listed, fun dir hdir dir' hdir' name name' hhas hhas' => .inl ?_⟩
    obtain ⟨a, hfile, hmatch⟩ := hhas
    obtain ⟨b, hfile', hmatch'⟩ := hhas'
    have ha := (mem_discovered_iff hplaced hfound).mpr ⟨dir, hdir, name, hfile⟩
    have hb := (mem_discovered_iff hplaced hfound).mpr ⟨dir', hdir', name', hfile'⟩
    obtain ⟨pack, hresolved⟩ := h.resolved ⟨false, .ok packs, none⟩ packs rfl rfl ⟨a, ha, hmatch⟩
    have hfilter : packs.filter (providerFilterMatches · record.packId) = [pack] := onlyMatch_eq_ok_iff.mp hresolved
    have hsame : a = b := by
      refine hone.mp ?_ a ha b hb hmatch hmatch'
      rw [hfilter, List.length_singleton]
    subst hsame
    exact file_unique hplaced hdir hdir' hfile hfile'
  · rintro ⟨htwo, hothers⟩
    have hlength := hlisted.mpr htwo
    refine ⟨hlength, fun action providerFilter allowMissingSetup plan flow hplan => ?_,
      fun bundle allowed hbundle hallowed hsome => exists_resolved hbundle hallowed (hone.mpr ?_) hsome⟩
    · have hle := length_filter_planRuns_le hplan (fun pack => decide (pack.fileName = fileName record.packId)) flow
      simp only [decide_eq_true_eq] at hle
      exact Nat.le_trans hle hlength
    · intro a ha b hb hmatch hmatch'
      obtain ⟨dir, hdir, name, hfile⟩ := (mem_discovered_iff hplaced hfound).mp ha
      obtain ⟨dir', hdir', name', hfile'⟩ := (mem_discovered_iff hplaced hfound).mp hb
      rcases hothers dir hdir dir' hdir' name name' ⟨a, hfile, hmatch⟩ ⟨b, hfile', hmatch'⟩ with
        ⟨rfl, rfl⟩ | ⟨rfl, rfl⟩
      · exact pack_unique hfile hfile'
      · have hnameA := fileName_join (plain_of_isSome hplaced hdir hfile.isSome) hfile.path_eq
        have hnameB := fileName_join (plain_of_isSome hplaced hdir' hfile'.isSome) hfile'.path_eq
        rw [length_filter_le_one_iff hfound.once.of_map] at hlength
        exact hlength a ha b hb (decide_eq_true hnameA) (decide_eq_true hnameB)

end Discovery

/-! ### A provider pack in both directories -/

/-- A new bundle with one pack. -/
def createsWith (reference : String) : WizardRun Unit :=
  { twoPacks with request := { twoPacks.request with packRefs := [reference], defaultAssignments := [] } }

def createdDisk (reference : String) : Store Unit :=
  Run.run (WizardRun.exec (resolve "bundle")) [createsWith reference] Files.empty

/-- Every pack has this manifest. -/
def mailManifest : Unit → PackContents := fun _ =>
  ⟨.ok ⟨"mail", ["setup_default"]⟩, .ok ⟨"mail", ["setup_default"]⟩⟩

theorem reached_createdDisk (reference : String) : Reached (resolve "bundle") (createdDisk reference) :=
  ⟨Files.empty, [createsWith reference], ⟨fun _ _ => rfl, fun _ _ h => absurd h List.not_mem_nil⟩, rfl⟩

theorem discoveredOnce_mail_iff :
    DiscoveredOnce .Messaging [⟨"mail", "bundle/packs/mail.gtpack", ["setup_default"]⟩] "mail"
      ↔ ¬TwoCopies (discoverable mailManifest (createdDisk "oci://a.io/mail")) "bundle" .Messaging "mail"
        ∧ NoOthersMatched (discoverable mailManifest (createdDisk "oci://a.io/mail")) true "bundle" .Messaging "mail" :=
  @discoveredOnce_iff Unit (createdDisk "oci://a.io/mail") mailManifest true "bundle" .Messaging _ "mail"
    (reached_createdDisk "oci://a.io/mail") [⟨"mail", "oci://a.io/mail", "packs/mail.gtpack", some ""⟩] (by decide +kernel) (by decide)
    (by decide +kernel)

/-- What is discovered of a bundle with the pack `messaging-mail`. -/
def mailTwice : List ProviderPack :=
  [⟨"mail", "bundle/providers/messaging/messaging-mail.gtpack", ["setup_default"]⟩,
    ⟨"mail", "bundle/packs/messaging-mail.gtpack", ["setup_default"]⟩]

theorem provider_pack_discovered_twice :
    Reached (resolve "bundle") (createdDisk "oci://a.io/messaging-mail")
      ∧ loadPacksMetadata (resolve "bundle") (createdDisk "oci://a.io/messaging-mail")
        = .ok [⟨"messaging-mail", "oci://a.io/messaging-mail", "packs/messaging-mail.gtpack", some ""⟩]
      ∧ discoverProviderPacks (discoverable mailManifest (createdDisk "oci://a.io/messaging-mail")) true "bundle" .Messaging
        = .ok mailTwice
      ∧ ¬DiscoveredOnce .Messaging mailTwice "messaging-mail" := by
  refine ⟨reached_createdDisk _, by decide +kernel, by decide +kernel, fun h => ?_⟩
  have hlisted := h.listed
  revert hlisted
  decide +kernel

end Wizard
