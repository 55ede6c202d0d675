import GreenticOperator.Cli.DomainCommand
import GreenticOperator.Laws.Cli.Select
import GreenticOperator.Laws.Wizard.Discovered

/-!
# What a wizard sets up

`src/cli.rs`. A wizard names the packs to be set up by the ids that it gave them, and the command for a domain
looks for these among the ids that packs have of themselves. Where no pack is to be named, it takes all packs. So
what it installed is set up, and nothing else, exactly where the ids agree, and in a bundle in which there
is nothing to be set up where it installed nothing that is (`setsUpInstalled_iff`).
-/

namespace Cli

open Disk Domains
open Wizard (WizardExecutionReport ResolvedPackInfo WizardMode WizardRun Store buildPlan discoverable executePlan
  loadPacksMetadata providerDomainDir sortDedup twoPacks)

variable {α : Type} {target : SetupTarget} {allowed : Option (List String)} {domain : Domain}
  {domains : List Domain} {packs : List ProviderPack} {pack : ProviderPack} {run : PlannedRun}

/-! ## What is expected -/

/-- Where a pack that was resolved lies in a bundle: where it was put, and where the copy of it is that providers are
loaded from. -/
def pathsOf (root : String) (pack : ResolvedPackInfo α) : List String :=
  Disk.join root pack.outputPath ::
    match providerDomainDir pack.packId, pathFileName pack.outputPath with
    | some dir, some name => [["providers", dir, name].foldl Disk.join root]
    | _, _ => []

/-- The file of a pack that was resolved and declares a setup. -/
def Installed (root : String) (report : WizardExecutionReport α) (path : String) : Prop :=
  ∃ pack ∈ report.resolvedPacks, "setup_default" ∈ pack.entryFlows ∧ path ∈ pathsOf root pack

def SetupTarget.Discovers (target : SetupTarget) (domain : Domain) (pack : ProviderPack) : Prop :=
  ∃ packs, (target.bundle domain).packs = .ok packs ∧ pack ∈ packs

/-- **What is expected of a setup after a wizard**: it plans the setup flow of all discovered packs that the wizard
installed and that declare it, and nothing else. -/
def SetsUpInstalled (root : String) (report : WizardExecutionReport α) (target : SetupTarget) : Prop :=
  ∀ domain run, (domain, run) ∈ (runWizardSetupForTarget target (allowedProviders report)).1
    ↔ run.flowId = "setup_default" ∧ target.Discovers domain run.pack ∧ Installed root report run.pack.path

/-! ## What is planned -/

theorem setupFlow_eq (domain : Domain) : (flowsOf domain).setupFlow = "setup_default" := by
  cases domain <;> rfl

/-- The plan of a setup that may be missing: one run for each pack that has it. -/
theorem planRuns_setup (domain : Domain) (packs : List ProviderPack) :
    planRuns domain .Setup packs none true
      = .ok ((packs.filter fun pack => pack.entryFlows.contains "setup_default").map (⟨·, "setup_default"⟩)) := by
  induction packs with
  | nil => rfl
  | cons pack packs ih =>
    rw [planRuns, ih, actionFlows, setupFlow_eq, Option.all_none, if_pos rfl]
    unfold planPack planPack
    cases hflow : pack.entryFlows.contains "setup_default" with
    | true =>
      rw [List.filter_cons, hflow, if_pos rfl]
      rfl
    | false =>
      rw [List.filter_cons, hflow, if_neg Bool.false_ne_true]
      rfl

theorem mem_withAllowed_iff : pack ∈ withAllowed (wizardRunArgs target allowed domain) packs
    ↔ pack ∈ packs ∧ ∀ ids, allowed = some ids → pack.packId ∈ ids := by
  cases allowed with
  | none =>
    refine (and_iff_left ?_).symm
    intro ids hids
    cases hids
  | some ids =>
    change pack ∈ packs.filter _ ↔ _
    rw [List.mem_filter, List.contains_iff_mem]
    refine and_congr_right fun _ => ⟨?_, fun h => h ids rfl⟩
    rintro h _ ⟨⟩
    exact h

theorem mem_allowedPacks_iff {bundle : Bundle} (h : bundle.allowedPacks domain = .ok packs) :
    pack ∈ packs ↔ (∃ found, bundle.packs = .ok found ∧ pack ∈ found) ∧ bundle.Allows domain pack := by
  obtain ⟨found, hfound, hrest⟩ := Outcome.bind_eq_ok_iff.mp h
  have hin : (∃ other, bundle.packs = .ok other ∧ pack ∈ other) ↔ pack ∈ found := by
    constructor
    · rintro ⟨other, hother, hmem⟩
      cases hfound.symm.trans hother
      exact hmem
    · intro hmem
      exact ⟨found, hfound, hmem⟩
  rw [hin]
  unfold Bundle.Allows
  cases hdemo : bundle.isDemoBundle with
  | false =>
    rw [hdemo] at hrest
    cases hrest
    exact (and_iff_left (.inl rfl)).symm
  | true =>
    rw [hdemo, if_pos rfl] at hrest
    obtain ⟨files, hfiles, hkept⟩ := Outcome.bind_eq_ok_iff.mp hrest
    rw [hfiles]
    cases files with
    | none =>
      cases hkept
      exact (and_iff_left (.inr (.inl rfl))).symm
    | some files =>
      cases hkept
      rw [List.mem_filter, List.contains_iff_mem]
      refine and_congr_right fun _ => ⟨fun hmem => .inr (.inr ⟨files, rfl, hmem⟩), ?_⟩
      rintro (hfalse | hnone | ⟨_, heq, hmem⟩)
      · cases hfalse
      · cases hnone
      · cases heq
        exact hmem

/-- The plan for a domain is made: its packs are discovered, the manifest is read, and so are the answers. -/
def SetupTarget.Plans (target : SetupTarget) (allowed : Option (List String)) (domain : Domain) : Prop :=
  ∃ plan, planDomain (target.bundle domain) (wizardRunArgs target allowed domain) = .ok plan

/-- The flow of a pack is planned where the pack is discovered, the manifest lists it, it has the flow, and it is
named. -/
structure SetupTarget.Takes (target : SetupTarget) (allowed : Option (List String)) (domain : Domain)
    (pack : ProviderPack) : Prop where
  discovered : target.Discovers domain pack
  allows : (target.bundle domain).Allows domain pack
  flow : "setup_default" ∈ pack.entryFlows
  named : ∀ ids, allowed = some ids → pack.packId ∈ ids

theorem mem_plan_iff {plan : List PlannedRun}
    (h : planDomain (target.bundle domain) (wizardRunArgs target allowed domain) = .ok plan) :
    run ∈ plan ↔ run.flowId = "setup_default" ∧ target.Takes allowed domain run.pack := by
  obtain ⟨packs, hpacks, hrest⟩ := Outcome.bind_eq_ok_iff.mp h
  obtain ⟨kept, hkept, hrest⟩ := Outcome.bind_eq_ok_iff.mp hrest
  have hall : withSetupFlow (wizardRunArgs target allowed domain) packs = .ok packs := if_neg fun h => h.2.2 rfl
  cases hall.symm.trans hkept
  have hmem := @mem_allowedPacks_iff domain packs run.pack (target.bundle domain) hpacks
  cases packs with
  | nil =>
    cases hrest
    refine iff_of_false List.not_mem_nil ?_
    rintro ⟨-, htakes⟩
    exact List.not_mem_nil (hmem.mpr ⟨htakes.discovered, htakes.allows⟩)
  | cons first rest =>
    obtain ⟨-, -, hruns⟩ := Outcome.bind_eq_ok_iff.mp hrest
    obtain rfl := Except.ok.inj ((planRuns_setup domain _).symm.trans hruns)
    rw [List.mem_map]
    constructor
    · rintro ⟨found, hfound, rfl⟩
      obtain ⟨hin, hflow⟩ := List.mem_filter.mp hfound
      obtain ⟨hin, hnamed⟩ := mem_withAllowed_iff.mp hin
      obtain ⟨hdiscovered, hallows⟩ := hmem.mp hin
      exact ⟨rfl, hdiscovered, hallows, List.contains_iff_mem.mp hflow, hnamed⟩
    · rintro ⟨hid, htakes⟩
      have hin := (@mem_withAllowed_iff target allowed domain (first :: rest) run.pack).mpr ⟨hmem.mpr ⟨htakes.discovered, htakes.allows⟩, htakes.named⟩
      exact ⟨run.pack, List.mem_filter.mpr ⟨hin, List.contains_iff_mem.mpr htakes.flow⟩, by rw [← hid]⟩

/-- **The command for a domain** plans what it takes, where its plan is made. -/
theorem mem_command_iff : run ∈ (target.command allowed domain).1
    ↔ target.Plans allowed domain ∧ run.flowId = "setup_default" ∧ target.Takes allowed domain run.pack := by
  unfold SetupTarget.command runDomainCommand SetupTarget.Plans
  cases hplan : planDomain (target.bundle domain) (wizardRunArgs target allowed domain) with
  | error message =>
    refine iff_of_false List.not_mem_nil ?_
    rintro ⟨⟨plan, hplan⟩, -⟩
    cases hplan
  | ok plan => exact (mem_plan_iff hplan).trans (and_iff_right ⟨plan, rfl⟩).symm

/-- What is planned for domains one after another is what is planned for each, up to the first that fails. -/
theorem mem_runForDomains_iff : (domain, run) ∈ (runForDomains target allowed domains).1
    ↔ ∃ front back, domains = front ++ domain :: back ∧ (∀ earlier ∈ front, (target.command allowed earlier).2 = .ok ())
      ∧ run ∈ (target.command allowed domain).1 := by
  induction domains with
  | nil =>
    refine iff_of_false List.not_mem_nil ?_
    rintro ⟨front, back, hsplit, -⟩
    exact List.append_ne_nil_of_right_ne_nil front (List.cons_ne_nil domain back) hsplit.symm
  | cons first rest ih =>
    unfold runForDomains
    have hhead : (domain, run) ∈ (target.command allowed first).1.map (first, ·)
        ↔ domain = first ∧ run ∈ (target.command allowed first).1 := by
      rw [List.mem_map]
      constructor
      · rintro ⟨_, hmem, heq⟩
        cases heq
        exact ⟨rfl, hmem⟩
      · rintro ⟨rfl, hmem⟩
        exact ⟨run, hmem, rfl⟩
    -- The domain is the first one, or one of the rest, which are come to where the first goes through.
    have hsplit : (∃ front back, first :: rest = front ++ domain :: back
          ∧ (∀ earlier ∈ front, (target.command allowed earlier).2 = .ok ()) ∧ run ∈ (target.command allowed domain).1)
        ↔ (domain = first ∧ run ∈ (target.command allowed first).1)
          ∨ (target.command allowed first).2 = .ok () ∧ (domain, run) ∈ (runForDomains target allowed rest).1 := by
      rw [ih]
      constructor
      · rintro ⟨front, back, hsplit, hfront, hrun⟩
        cases front with
        | nil =>
          cases hsplit
          exact .inl ⟨rfl, hrun⟩
        | cons other front =>
          cases hsplit
          exact .inr ⟨hfront first List.mem_cons_self, front, back, rfl,
            fun earlier h => hfront earlier (List.mem_cons_of_mem first h), hrun⟩
      · rintro (⟨rfl, hrun⟩ | ⟨hfirst, front, back, rfl, hfront, hrun⟩)
        · exact ⟨[], rest, rfl, fun _ h => absurd h List.not_mem_nil, hrun⟩
        · exact ⟨first :: front, back, rfl, List.forall_mem_cons.mpr ⟨hfirst, hfront⟩, hrun⟩
    rw [hsplit, ← hhead]
    cases hcommand : target.command allowed first with
    | mk plan ended =>
      cases ended with
      | error message =>
        refine (or_iff_left ?_).symm
        rintro ⟨hended, -⟩
        cases hended
      | ok _ => exact List.mem_append.trans (or_congr_right (and_iff_right rfl).symm)

/-! ## What is set up -/

/-- A domain is come to: the commands for the domains before it go through, and its own plan is made. -/
def SetupTarget.Reaches (target : SetupTarget) (allowed : Option (List String)) (domain : Domain) : Prop :=
  (∃ front back, setupDomains = front ++ domain :: back ∧ ∀ earlier ∈ front, (target.command allowed earlier).2 = .ok ())
    ∧ target.Plans allowed domain

theorem mem_runWizardSetupForTarget_iff : (domain, run) ∈ (runWizardSetupForTarget target allowed).1
    ↔ target.Reaches allowed domain ∧ run.flowId = "setup_default" ∧ target.Takes allowed domain run.pack := by
  unfold runWizardSetupForTarget SetupTarget.Reaches
  rw [mem_runForDomains_iff, mem_command_iff]
  constructor
  · rintro ⟨front, back, hsplit, hfront, hplans, hrun⟩
    exact ⟨⟨⟨front, back, hsplit, hfront⟩, hplans⟩, hrun⟩
  · rintro ⟨⟨⟨front, back, hsplit, hfront⟩, hplans⟩, hrun⟩
    exact ⟨front, back, hsplit, hfront, hplans, hrun⟩

section Report

variable {root : String} {report : WizardExecutionReport α}

theorem mem_setupProviderIds_iff {id : String} : id ∈ setupProviderIds report
    ↔ ∃ pack ∈ report.resolvedPacks, "setup_default" ∈ pack.entryFlows ∧ pack.packId = id := by
  unfold setupProviderIds
  simp only [Wizard.mem_sortDedup, List.mem_map, List.mem_filter, List.contains_iff_mem, and_assoc]

/-- Packs are named where there is one to name. -/
theorem named_iff {id : String} : (∀ ids, allowedProviders report = some ids → id ∈ ids)
    ↔ setupProviderIds report = [] ∨ id ∈ setupProviderIds report := by
  unfold allowedProviders
  cases hids : setupProviderIds report with
  | nil => exact iff_of_true (fun _ h => nomatch h) (.inl rfl)
  | cons first rest =>
    constructor
    · intro h
      exact .inr (h _ rfl)
    · rintro (hnone | hmem) _ ⟨⟩
      · cases hnone
      · exact hmem

/-- **What a setup after a wizard has to meet.** The domain of each pack that was installed to be set up is come to; the
manifest lists the pack, it has the flow, and its own id is one that the wizard gave; and no other pack that the
manifest lists and that has the flow has such an id, or is there at all where the wizard gave none. -/
structure SetupMeets (root : String) (report : WizardExecutionReport α) (target : SetupTarget) : Prop where
  reached : ∀ domain pack, target.Discovers domain pack → Installed root report pack.path →
    target.Reaches (allowedProviders report) domain
  installed : ∀ domain pack, target.Discovers domain pack → Installed root report pack.path →
    (target.bundle domain).Allows domain pack ∧ "setup_default" ∈ pack.entryFlows
      ∧ pack.packId ∈ setupProviderIds report
  others : ∀ domain pack, target.Discovers domain pack → ¬Installed root report pack.path →
    target.Reaches (allowedProviders report) domain → (target.bundle domain).Allows domain pack →
      "setup_default" ∈ pack.entryFlows → setupProviderIds report ≠ [] ∧ pack.packId ∉ setupProviderIds report

/-- **The setup after a wizard** is one of what it installed, and of nothing else, exactly where this is met. -/
theorem setsUpInstalled_iff (root : String) (report : WizardExecutionReport α) (target : SetupTarget) :
    SetsUpInstalled root report target ↔ SetupMeets root report target := by
  unfold SetsUpInstalled
  constructor
  · intro h
    have hplanned : ∀ domain pack, target.Discovers domain pack → Installed root report pack.path →
        target.Reaches (allowedProviders report) domain ∧ target.Takes (allowedProviders report) domain pack := by
      intro domain pack hdiscovered hinstalled
      have hmem := (h domain ⟨pack, "setup_default"⟩).mpr ⟨rfl, hdiscovered, hinstalled⟩
      obtain ⟨hreaches, -, htakes⟩ := mem_runWizardSetupForTarget_iff.mp hmem
      exact ⟨hreaches, htakes⟩
    refine ⟨fun domain pack hd hi => (hplanned domain pack hd hi).1, ?_, ?_⟩
    · intro domain pack hdiscovered hinstalled
      obtain ⟨-, htakes⟩ := hplanned domain pack hdiscovered hinstalled
      refine ⟨htakes.allows, htakes.flow, (named_iff.mp htakes.named).resolve_left ?_⟩
      obtain ⟨resolved, hresolved, hdeclares, -⟩ := hinstalled
      exact List.ne_nil_of_mem (mem_setupProviderIds_iff.mpr ⟨resolved, hresolved, hdeclares, rfl⟩)
    · intro domain pack hdiscovered hnot hreaches hallows hflow
      rw [← not_or]
      intro hnamed
      have hmem := (@mem_runWizardSetupForTarget_iff target (allowedProviders report) domain ⟨pack, "setup_default"⟩).mpr
        ⟨hreaches, rfl, hdiscovered, hallows, hflow, named_iff.mpr hnamed⟩
      exact hnot ((h domain _).mp hmem).2.2
  · intro h domain run
    rw [mem_runWizardSetupForTarget_iff]
    constructor
    · rintro ⟨hreaches, hflow, htakes⟩
      refine ⟨hflow, htakes.discovered, ?_⟩
      by_contra hnot
      obtain ⟨hsome, hother⟩ := h.others domain run.pack htakes.discovered hnot hreaches htakes.allows htakes.flow
      exact (named_iff.mp htakes.named).elim hsome hother
    · rintro ⟨hflow, hdiscovered, hinstalled⟩
      obtain ⟨hallows, hhas, hid⟩ := h.installed domain run.pack hdiscovered hinstalled
      exact ⟨h.reached domain run.pack hdiscovered hinstalled, hflow, hdiscovered, hallows, hhas,
        named_iff.mpr (.inr hid)⟩

end Report

/-! ### Ids that differ -/

/-- A run for a tenant that adds the packs of references; of a pack file only its manifest is read. -/
def mailRun (mode : WizardMode) (packRefs : List String) (tenant : String) : WizardRun PackMeta where
  mode := mode
  request := { twoPacks.request with packRefs := packRefs, tenants := [⟨tenant, none, []⟩], defaultAssignments := [] }
  env :=
    { fetch := fun reference => .ok ⟨reference, "sha256:0", "messaging-email", ["setup_default"],
        some ⟨"messaging-email", ["setup_default"]⟩, ""⟩
      registry := fun _ => .ok none
      seeded := .ok ()
      scanned := .ok ()
      manifest := fun _ => "" }
  overwrites := false

/-- The report of a run of the wizard. -/
def reportOf (run : WizardRun PackMeta) (disk : Store PackMeta) : Except String (WizardExecutionReport PackMeta) := do
  let plan ← buildPlan run.mode (loadPacksMetadata (resolve "bundle") disk) run.request false
  ((executePlan run.mode (resolve "bundle") plan run.env).run (run.prepare (resolve "bundle") disk)).1

/-- A bundle is created with the pack `messaging-email`, which its reference gives another id. -/
def createsEmail : WizardRun PackMeta := mailRun .Create ["oci://a.io/messaging-email:1.0"] "demo"

/-- Later a tenant is added to it, and no pack. -/
def addsTenant : WizardRun PackMeta := mailRun .Update [] "acme"

def emailDisk : Store PackMeta := createsEmail.exec (resolve "bundle") Files.empty

def laterDisk : Store PackMeta := addsTenant.exec (resolve "bundle") emailDisk

def emailReport : WizardExecutionReport PackMeta where
  bundle := resolve "bundle"
  resolvedPacks :=
    [{ sourceRef := "oci://a.io/messaging-email:1.0"
       resolvedDigest := "sha256:0"
       packId := "messaging-email-1"
       entryFlows := ["setup_default"]
       cached := some ⟨"messaging-email", ["setup_default"]⟩
       outputPath := "packs/messaging-email-1.gtpack" }]

def laterReport : WizardExecutionReport PackMeta := ⟨resolve "bundle", []⟩

/-- What the commands find of the bundle on a disk, for a tenant without a resolved manifest. -/
def emailTarget (disk : Store PackMeta) : SetupTarget where
  bundle domain :=
    { isDemoBundle := (disk.read (resolve "bundle/greentic.demo.yaml")).isSome
      packs := discoverProviderPacks (discoverable (fun packMeta => ⟨.ok packMeta, .ok packMeta⟩) disk) true "bundle" domain
      manifest := none }
  setupInput := none
  runPlan _ _ := .ok ()

/-- Both files of the pack, as they are discovered. -/
def emailFound : List ProviderPack :=
  [⟨"messaging-email", "bundle/providers/messaging/messaging-email-1.gtpack", ["setup_default"]⟩,
    ⟨"messaging-email", "bundle/packs/messaging-email-1.gtpack", ["setup_default"]⟩]

theorem email_created : reportOf createsEmail Files.empty = .ok emailReport
    ∧ ((emailTarget emailDisk).bundle .Messaging).packs = .ok emailFound := by
  decide +kernel

theorem tenant_added : reportOf addsTenant emailDisk = .ok laterReport
    ∧ ((emailTarget laterDisk).bundle .Messaging).packs = .ok emailFound := by
  decide +kernel

/-- The pack is left out where it was installed, and set up after a run that installs none. -/
theorem email_not_set_up :
    reportOf createsEmail Files.empty = .ok emailReport ∧ ¬SetsUpInstalled "bundle" emailReport (emailTarget emailDisk)
      ∧ reportOf addsTenant emailDisk = .ok laterReport
      ∧ ¬SetsUpInstalled "bundle" laterReport (emailTarget laterDisk) := by
  refine ⟨email_created.1, fun h => ?_, tenant_added.1, fun h => ?_⟩
  · have hinstalled : Installed "bundle" emailReport "bundle/packs/messaging-email-1.gtpack" :=
      ⟨_, List.mem_cons_self, List.mem_cons_self, by decide +kernel⟩
    have hmem := (h .Messaging ⟨⟨"messaging-email", "bundle/packs/messaging-email-1.gtpack", ["setup_default"]⟩,
      "setup_default"⟩).mpr ⟨rfl, ⟨_, email_created.2, List.mem_cons_of_mem _ List.mem_cons_self⟩, hinstalled⟩
    obtain ⟨-, -, htakes⟩ := mem_runWizardSetupForTarget_iff.mp hmem
    have hnamed := htakes.named ["messaging-email-1"] (by decide +kernel)
    revert hnamed
    decide
  · have hplans : (emailTarget laterDisk).Plans none .Messaging := by
      unfold SetupTarget.Plans planDomain domainPacks
      rw [tenant_added.2]
      cases ((emailTarget laterDisk).bundle .Messaging).isDemoBundle <;> exact ⟨_, rfl⟩
    have hmem : (Domain.Messaging, (⟨⟨"messaging-email", "bundle/packs/messaging-email-1.gtpack", ["setup_default"]⟩,
        "setup_default"⟩ : PlannedRun)) ∈ (runWizardSetupForTarget (emailTarget laterDisk) none).1 :=
      mem_runWizardSetupForTarget_iff.mpr ⟨⟨⟨[], _, rfl, fun _ h => absurd h List.not_mem_nil⟩, hplans⟩, rfl,
        ⟨_, tenant_added.2, List.mem_cons_of_mem _ List.mem_cons_self⟩, .inr (.inl rfl), List.mem_cons_self, fun _ h => nomatch h⟩
    obtain ⟨-, -, resolved, hresolved, -⟩ := (h .Messaging _).mp hmem
    exact List.not_mem_nil hresolved

end Cli
