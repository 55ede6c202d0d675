import GreenticOperator.Laws.Wizard.Answers
import GreenticOperator.Lib.StableSort
import GreenticOperator.Wizard.Command
import Mathlib.Data.List.Dedup

/-!
# A dry run is replayed from the answers it leaves

`src/cli.rs`. The document that a dry run leaves has the answers with all overrides in them, so a
run over it, with no overrides but the mode, makes the same request but for its references: those
given on the command line are in the answers now, and are not added to the request again.

Blank items are passed over in the answers and not on the command line. A plan takes no blank
reference either, so this is seen only of the ids of catalog packs: a blank id that the catalog has
is planned in the dry run and lost in the replay. `replay_eq_iff` says that the replay differs in
nothing else, and when it does.
-/

namespace Wizard

open Json Project

/-! ## The references of a plan -/

theorem mem_selectedRefs_iff {refs : List String} {reference : String} :
    reference ∈ selectedRefs refs ↔ reference ≠ "" ∧ ∃ value ∈ refs, Text.trim value = reference := by
  unfold selectedRefs
  rw [mem_sortDedup, List.mem_filter, List.mem_map, and_comm]
  simp

@[simp] theorem mem_selectedRefs_append {refs others : List String} {reference : String} :
    reference ∈ selectedRefs (refs ++ others) ↔ reference ∈ selectedRefs refs ∨ reference ∈ selectedRefs others := by
  simp only [mem_selectedRefs_iff, List.mem_append]
  constructor
  · rintro ⟨hne, value, hvalue | hvalue, htrim⟩
    · exact .inl ⟨hne, value, hvalue, htrim⟩
    · exact .inr ⟨hne, value, hvalue, htrim⟩
  · rintro (⟨hne, value, hvalue, htrim⟩ | ⟨hne, value, hvalue, htrim⟩)
    · exact ⟨hne, value, .inl hvalue, htrim⟩
    · exact ⟨hne, value, .inr hvalue, htrim⟩

/-- Blank references are passed over anyway. -/
@[simp] theorem mem_selectedRefs_filter {refs : List String} {reference : String} :
    reference ∈ selectedRefs (refs.filter notBlank) ↔ reference ∈ selectedRefs refs := by
  simp only [mem_selectedRefs_iff, List.mem_filter]
  constructor
  · rintro ⟨hne, value, ⟨hvalue, -⟩, htrim⟩
    exact ⟨hne, value, hvalue, htrim⟩
  · rintro ⟨hne, value, hvalue, htrim⟩
    refine ⟨hne, value, ⟨hvalue, ?_⟩, htrim⟩
    simpa [notBlank, htrim] using hne

/-- Plans have the same references where the same are selected. -/
theorem selectedRefs_eq_iff {refs others : List String} :
    selectedRefs refs = selectedRefs others ↔ ∀ reference, reference ∈ selectedRefs refs ↔ reference ∈ selectedRefs others := by
  constructor
  · intro h reference
    rw [h]
  · intro h
    have hsorted : ∀ values : List String, (selectedRefs values).Pairwise (· ≤ ·) := fun values =>
      (List.pairwise_insertionSort (· ≤ ·) _).sublist (List.dedup_sublist _)
    have hperm : (selectedRefs refs).Perm (selectedRefs others) :=
      (List.perm_ext_iff_of_nodup (List.nodup_dedup _) (List.nodup_dedup _)).mpr h
    exact hperm.eq_of_pairwise' (hsorted refs) (hsorted others)

theorem normalizeRequestForPlan_withRefs (packsJson : PacksJson) (request : WizardCreateRequest) (refs : List String) :
    normalizeRequestForPlan packsJson { request with packRefs := refs }
      = (normalizeRequestForPlan packsJson request).map fun normalized => { normalized with packRefs := refs } := by
  unfold normalizeRequestForPlan
  dsimp only
  generalize (request.defaultAssignments.mapM _ : Except String _) = defaultAssignments
  generalize (request.packsRemove.mapM _ : Except String _) = packsRemove
  generalize (request.accessChanges.mapM _ : Except String _) = accessChanges
  cases defaultAssignments <;> cases packsRemove <;> cases accessChanges <;> rfl

theorem packRefs_normalizeRequestForPlan {packsJson : PacksJson} {request normalized : WizardCreateRequest}
    (h : normalizeRequestForPlan packsJson request = .ok normalized) : normalized.packRefs = request.packRefs := by
  unfold normalizeRequestForPlan at h
  obtain ⟨_, -, h⟩ := Outcome.bind_eq_ok_iff.mp h
  obtain ⟨_, -, h⟩ := Outcome.bind_eq_ok_iff.mp h
  obtain ⟨_, -, h⟩ := Outcome.bind_eq_ok_iff.mp h
  cases h
  rfl

theorem apply_withRefs_iff {mode : WizardMode} {request : WizardCreateRequest} {dryRun : Bool}
    {plan : WizardPlan} (h : apply mode request dryRun = .ok plan) (dryRun' : Bool) (refs : List String) :
    (apply mode { request with packRefs := refs } dryRun').map
        (fun again => { again with dryRun := plan.dryRun }) = .ok plan
      ↔ mode = .Remove ∨ selectedRefs refs = selectedRefs request.packRefs := by
  cases mode with
  | Create =>
    change applyCreate request dryRun = .ok plan at h
    unfold applyCreate at h
    split at h
    · cases h
    next htenants =>
      cases h
      unfold apply applyCreate
      dsimp only
      rw [if_neg htenants]
      constructor
      · intro heq
        exact .inr (congrArg (fun plan => plan.metadata.packRefs) (Except.ok.inj heq))
      · rintro (hmode | hrefs)
        · cases hmode
        · rw [hrefs]
          rfl
  | Update =>
    cases h
    constructor
    · intro heq
      exact .inr (congrArg (fun plan => plan.metadata.packRefs) (Except.ok.inj heq))
    · rintro (hmode | hrefs)
      · cases hmode
      · unfold apply applyUpdate
        dsimp only
        rw [hrefs]
        rfl
  | Remove =>
    cases h
    exact ⟨fun _ => .inl rfl, fun _ => rfl⟩

/-- **A plan with other references** is the same plan where none are planned, or the same are selected. -/
theorem buildPlan_withRefs_iff {mode : WizardMode} {packsJson : PacksJson} {request : WizardCreateRequest}
    {dryRun : Bool} {plan : WizardPlan} (h : buildPlan mode packsJson request dryRun = .ok plan)
    (dryRun' : Bool) (refs : List String) :
    (buildPlan mode packsJson { request with packRefs := refs } dryRun').map
        (fun again => { again with dryRun := plan.dryRun }) = .ok plan
      ↔ mode = .Remove ∨ selectedRefs refs = selectedRefs request.packRefs := by
  obtain ⟨normalized, hnormalized, happly⟩ := Outcome.bind_eq_ok_iff.mp h
  rw [← packRefs_normalizeRequestForPlan hnormalized, ← apply_withRefs_iff happly dryRun' refs]
  unfold buildPlan
  rw [normalizeRequestForPlan_withRefs, hnormalized]
  rfl

/-! ## The references of a request -/

theorem knownReferences_append (catalog : List PackListing) (ids others : List String) :
    knownReferences catalog (ids ++ others) = knownReferences catalog ids ++ knownReferences catalog others :=
  List.filterMap_append

/-- The references of catalog packs are found exactly where all of them are known. -/
theorem mapM_catalogReference_eq_ok {catalog : List PackListing} {ids refs : List String}
    (h : ids.mapM (catalogReference catalog) = .ok refs) :
    (∀ id ∈ ids, ∃ item, (byId catalog).lookup id = some item) ∧ refs = knownReferences catalog ids := by
  have hknown : ∀ {id ref : String}, catalogReference catalog id = .ok ref →
      ∃ item, (byId catalog).lookup id = some item ∧ ref = item.reference := by
    intro id ref href
    unfold catalogReference at href
    split at href
    next item hitem =>
      cases href
      exact ⟨item, hitem, rfl⟩
    · cases href
  have hall := Outcome.forall₂_of_mapM_ok h
  clear h
  induction hall with
  | nil => exact ⟨nofun, rfl⟩
  | cons href _ ih =>
    obtain ⟨item, hitem, rfl⟩ := hknown href
    obtain ⟨hrest, rfl⟩ := ih
    refine ⟨List.forall_mem_cons.mpr ⟨⟨item, hitem⟩, hrest⟩, ?_⟩
    simp [knownReferences, hitem]

theorem mapM_catalogReference {catalog : List PackListing} {ids : List String}
    (h : ∀ id ∈ ids, ∃ item, (byId catalog).lookup id = some item) :
    ids.mapM (catalogReference catalog) = .ok (knownReferences catalog ids) := by
  induction ids with
  | nil => rfl
  | cons id ids ih =>
    obtain ⟨⟨item, hitem⟩, hrest⟩ := List.forall_mem_cons.mp h
    have href : catalogReference catalog id = .ok item.reference := by
      unfold catalogReference
      rw [hitem]
    rw [List.mapM_cons, href, ih hrest, knownReferences, knownReferences, List.filterMap_cons, hitem]
    rfl

/-! ## The answers of a replay -/

/-- No id of a pack is the label of another pack. -/
def LabelsApart (catalog : List PackListing) : Prop :=
  ∀ entry ∈ catalog, ∀ other ∈ catalog, entry.id = other.label → entry = other

instance (catalog : List PackListing) : Decidable (LabelsApart catalog) := by
  unfold LabelsApart
  infer_instance

theorem exists_of_last_label {catalog : List PackListing} {label id : String}
    (h : LastWins.last (catalog.map fun entry => (entry.label, entry.id)) label = some id) :
    ∃ entry ∈ catalog, entry.label = label ∧ entry.id = id := by
  obtain ⟨entry, hentry, heq⟩ := List.mem_map.mp (HashMap.mem_of_last h)
  exact ⟨entry, hentry, congrArg Prod.fst heq, congrArg Prod.snd heq⟩

theorem idOfLabel_idOfLabel {catalog : List PackListing} (hcatalog : LabelsApart catalog) (label : String) :
    idOfLabel catalog (idOfLabel catalog label) = idOfLabel catalog label := by
  unfold idOfLabel
  cases hid : LastWins.last (catalog.map fun entry => (entry.label, entry.id)) label with
  | none => rw [Option.getD_none, hid, Option.getD_none]
  | some id =>
    rw [Option.getD_some]
    cases hagain : LastWins.last (catalog.map fun entry => (entry.label, entry.id)) id with
    | none => rfl
    | some other =>
      -- An id that is a label is that of its own pack.
      obtain ⟨entry, hentry, -, hentryId⟩ := exists_of_last_label hid
      obtain ⟨entry', hentry', hlabel, hotherId⟩ := exists_of_last_label hagain
      have hsame := hcatalog entry hentry entry' hentry' (hentryId.trans hlabel.symm)
      rw [Option.getD_some, ← hotherId, ← hsame, hentryId]

theorem providerWithId_again {catalog : List PackListing} (hcatalog : LabelsApart catalog)
    (provider : WizardProviderAnswer) :
    providerWithId catalog (providerWithId catalog provider) = providerWithId catalog provider := by
  have hcomp : idOfLabel catalog ∘ idOfLabel catalog = idOfLabel catalog :=
    funext (idOfLabel_idOfLabel hcatalog)
  cases provider with
  | Id label => simp only [providerWithId, idOfLabel_idOfLabel hcatalog]
  | Item providerId id => simp only [providerWithId, Option.map_map, hcomp]

theorem labelsToIds_again {catalog : List PackListing} (hcatalog : LabelsApart catalog) (answers : WizardQaAnswers) :
    labelsToIds catalog (labelsToIds catalog answers) = labelsToIds catalog answers := by
  have hcomp : providerWithId catalog ∘ providerWithId catalog = providerWithId catalog :=
    funext (providerWithId_again hcatalog)
  simp only [labelsToIds, List.map_map, hcomp]

/-- A command line with the mode alone overrides nothing in answers with a tenant and a locale. -/
theorem merge_mode {answers : WizardQaAnswers} (htenant : answers.tenant ≠ none) (hlocale : answers.locale ≠ none)
    (mode : WizardMode) (schemaVersion : Option String) (locale : String) :
    mergeCliOverridesIntoWizardAnswers answers { mode, schemaVersion } locale = answers := by
  obtain ⟨language, hlanguage⟩ := Option.ne_none_iff_exists'.mp hlocale
  simp [mergeCliOverridesIntoWizardAnswers, givenOrElse, htenant, hlanguage]
  rw [← hlanguage]

variable {args : DemoWizardArgs} {systemLocale : String} {catalog : List PackListing} {given : WizardQaAnswers}

/-- **The answers of a replay** are those of the dry run. -/
theorem effectiveAnswers_again (args : DemoWizardArgs) (systemLocale : String) (given : WizardQaAnswers)
    (hcatalog : LabelsApart catalog) (mode : WizardMode) (schemaVersion : Option String) (locale : String) :
    effectiveAnswers { mode, schemaVersion } locale catalog (effectiveAnswers args systemLocale catalog given)
      = effectiveAnswers args systemLocale catalog given := by
  have htenant : (effectiveAnswers args systemLocale catalog given).tenant ≠ none := by
    show (if args.tenant ≠ "demo" ∨ given.tenant = none then some args.tenant else given.tenant) ≠ none
    split
    · exact Option.some_ne_none _
    next h => exact fun hnone => h (.inr hnone)
  have hlocale : (effectiveAnswers args systemLocale catalog given).locale ≠ none := by
    show args.locale.or (given.locale.or (some _)) ≠ none
    cases args.locale <;> cases given.locale <;> exact Option.some_ne_none _
  rw [effectiveAnswers, merge_mode htenant hlocale, effectiveAnswers, labelsToIds_again hcatalog]

/-! ## The request of a replay -/

theorem notBlank_of_parseWizardTarget {target : String} {parsed : String × Option String}
    (h : parseWizardTarget target = .ok parsed) : notBlank target = true := by
  cases hblank : (Text.trim target).isEmpty with
  | false => simp [notBlank, hblank]
  | true => simp [parseWizardTarget, hblank] at h

theorem notBlank_of_requestTenants {answers : WizardQaAnswers} {tenants : List TenantSelection}
    (h : requestTenants args answers = .ok tenants) {target : String} (htarget : target ∈ args.targets) :
    notBlank target = true := by
  have hnonempty : args.targets.isEmpty = false := by
    rw [List.isEmpty_eq_false_iff]
    exact List.ne_nil_of_mem htarget
  simp only [requestTenants, hnonempty, Bool.false_eq_true, ↓reduceIte] at h
  obtain ⟨tenant, htenant⟩ := Outcome.exists_mapM_ok_iff.mp ⟨tenants, h⟩ target htarget
  obtain ⟨parsed, hparsed, -⟩ := Outcome.bind_eq_ok_iff.mp htenant
  exact notBlank_of_parseWizardTarget hparsed

theorem normalizeTargets_texts (targets : List String) :
    normalizeTargets (targets.map .Target) = targets.filter notBlank := by
  unfold normalizeTargets
  rw [List.map_map]
  exact congrArg (List.filter notBlank) (List.map_id targets)

/-- The tenants of a dry run are those of its replay. -/
theorem requestTenants_again {tenants : List TenantSelection}
    (h : requestTenants args (effectiveAnswers args systemLocale catalog given) = .ok tenants)
    (mode : WizardMode) (schemaVersion : Option String) :
    requestTenants { mode, schemaVersion } (effectiveAnswers args systemLocale catalog given) = .ok tenants := by
  generalize hanswers : effectiveAnswers args systemLocale catalog given = answers at h ⊢
  have hallowPaths : (if args.allowPaths.isEmpty then answers.allowPaths else args.allowPaths) = answers.allowPaths := by
    split
    · rfl
    next hnonempty =>
      rw [← hanswers]
      exact ((if_neg hnonempty).trans (List.map_id args.allowPaths)).symm
  have htargets : (if args.targets.isEmpty then normalizeTargets answers.targets else args.targets)
      = normalizeTargets answers.targets := by
    split
    · rfl
    next hnonempty =>
      have htexts : answers.targets = args.targets.map .Target := by
        rw [← hanswers]
        exact if_neg hnonempty
      rw [htexts, normalizeTargets_texts, List.filter_eq_self.mpr]
      exact fun target htarget => notBlank_of_requestTenants h htarget
  have htenant : (if args.tenant = "demo" then answers.tenant.getD args.tenant else args.tenant)
      = answers.tenant.getD "demo" := by
    subst hanswers
    show (if args.tenant = "demo" then
        (if args.tenant ≠ "demo" ∨ given.tenant = none then some args.tenant else given.tenant).getD args.tenant
        else args.tenant)
      = (if args.tenant ≠ "demo" ∨ given.tenant = none then some args.tenant else given.tenant).getD "demo"
    by_cases hdemo : args.tenant = "demo" <;> simp [hdemo]
  have hteam : args.team.or answers.team = answers.team := by
    subst hanswers
    show args.team.or (args.team.or given.team) = args.team.or given.team
    cases args.team <;> rfl
  rw [← h]
  simp only [requestTenants, hallowPaths, htargets, htenant, hteam, List.isEmpty_nil, ↓reduceIte, Option.none_or]

/-- The references that answers name. -/
def answerRefs (catalog : List PackListing) (answers : WizardQaAnswers) : List String :=
  normalizePackRefs answers.packRefs ++ normalizeCustomProviderRefs answers.customProviderRefs
    ++ knownReferences catalog (normalizeProviderIds answers.providers)
    ++ knownReferences catalog (normalizeCatalogPacks answers.catalogPacks)

theorem requestRefs_eq_ok {answers : WizardQaAnswers} {refs : List String}
    (h : requestRefs args catalog answers = .ok refs) :
    (∀ id ∈ normalizeCatalogPacks answers.catalogPacks ++ args.catalogPacks,
        ∃ item, (byId catalog).lookup id = some item)
      ∧ refs = normalizePackRefs answers.packRefs ++ args.packRefs
          ++ normalizeCustomProviderRefs answers.customProviderRefs
          ++ knownReferences catalog (normalizeProviderIds answers.providers)
          ++ knownReferences catalog (normalizeCatalogPacks answers.catalogPacks ++ args.catalogPacks) := by
  obtain ⟨catalogRefs, hcatalogRefs, h⟩ := Outcome.bind_eq_ok_iff.mp h
  cases h
  obtain ⟨hknown, rfl⟩ := mapM_catalogReference_eq_ok hcatalogRefs
  exact ⟨hknown, rfl⟩

/-- A replay finds all the packs that the dry run found. -/
theorem requestRefs_again {answers : WizardQaAnswers} {refs : List String}
    (h : requestRefs args catalog answers = .ok refs) (mode : WizardMode) (schemaVersion : Option String) :
    requestRefs { mode, schemaVersion } catalog answers = .ok (answerRefs catalog answers) := by
  have hknown : (normalizeCatalogPacks answers.catalogPacks ++ []).mapM (catalogReference catalog)
      = .ok (knownReferences catalog (normalizeCatalogPacks answers.catalogPacks)) := by
    rw [List.append_nil]
    exact mapM_catalogReference fun id hid => (requestRefs_eq_ok h).1 id (List.mem_append_left _ hid)
  refine Outcome.bind_eq_ok_iff.mpr ⟨_, hknown, ?_⟩
  simp only [answerRefs, List.append_nil]
  rfl

/-- Changes of access are asked for by the answers, whichever references there are. -/
theorem requestAccessChanges_refs (mode : WizardMode) (answers : WizardQaAnswers) (tenants : List TenantSelection)
    (refs others : List String) :
    requestAccessChanges mode answers tenants refs = requestAccessChanges mode answers tenants others := by
  cases mode <;> rfl

/-- **The request of a replay** is that of the dry run but for its references. -/
theorem requestOf_again {request : WizardCreateRequest}
    (h : requestOf args catalog (effectiveAnswers args systemLocale catalog given) = .ok request)
    (schemaVersion : Option String) :
    requestOf { mode := args.mode, schemaVersion } catalog (effectiveAnswers args systemLocale catalog given)
      = .ok { request with
          packRefs := answerRefs catalog (effectiveAnswers args systemLocale catalog given) } := by
  have hbundleOf : bundleOf { mode := args.mode, schemaVersion } (effectiveAnswers args systemLocale catalog given)
      = bundleOf args (effectiveAnswers args systemLocale catalog given) := by
    show bundleOf { mode := args.mode, schemaVersion } { given with bundle := args.bundle.or given.bundle }
      = bundleOf args { given with bundle := args.bundle.or given.bundle }
    unfold bundleOf
    cases args.bundle <;> rfl
  have htenants := @requestTenants_again args systemLocale catalog given
  generalize effectiveAnswers args systemLocale catalog given = answers at *
  obtain ⟨bundle, hbundle, h⟩ := Outcome.bind_eq_ok_iff.mp h
  obtain ⟨refs, hrefs, h⟩ := Outcome.bind_eq_ok_iff.mp h
  obtain ⟨tenants, hrun, h⟩ := Outcome.bind_eq_ok_iff.mp h
  obtain ⟨packsRemove, hpacksRemove, h⟩ := Outcome.bind_eq_ok_iff.mp h
  obtain ⟨accessChanges, haccessChanges, h⟩ := Outcome.bind_eq_ok_iff.mp h
  obtain ⟨defaultAssignments, hdefaults, h⟩ := Outcome.bind_eq_ok_iff.mp h
  cases h
  rw [requestAccessChanges_refs _ _ _ _ (answerRefs catalog answers)] at haccessChanges
  unfold requestOf
  rw [hbundleOf, hbundle]
  refine Outcome.bind_eq_ok_iff.mpr ⟨bundle, rfl, ?_⟩
  refine Outcome.bind_eq_ok_iff.mpr ⟨_, requestRefs_again hrefs _ _, ?_⟩
  refine Outcome.bind_eq_ok_iff.mpr ⟨tenants, htenants hrun _ _, ?_⟩
  refine Outcome.bind_eq_ok_iff.mpr ⟨packsRemove, hpacksRemove, ?_⟩
  refine Outcome.bind_eq_ok_iff.mpr ⟨accessChanges, haccessChanges, ?_⟩
  exact Outcome.bind_eq_ok_iff.mpr ⟨defaultAssignments, hdefaults, rfl⟩

/-! ## Replays -/

/-- The references that are selected otherwise than by a blank id on the command line. -/
def otherRefs (args : DemoWizardArgs) (catalog : List PackListing) (given : WizardQaAnswers) : List String :=
  normalizePackRefs given.packRefs ++ args.packRefs ++ normalizeCustomProviderRefs given.customProviderRefs
    ++ knownReferences catalog (normalizeProviderIds (labelsToIds catalog given).providers)
    ++ knownReferences catalog (normalizeCatalogPacks given.catalogPacks ++ args.catalogPacks.filter notBlank)

/-- A blank id on the command line selects nothing that is not selected anyway. -/
def SparesBlankIds (args : DemoWizardArgs) (catalog : List PackListing) (given : WizardQaAnswers) : Prop :=
  ∀ id ∈ args.catalogPacks, notBlank id = false → ∀ item, (byId catalog).lookup id = some item →
    Text.trim item.reference = "" ∨ Text.trim item.reference ∈ selectedRefs (otherRefs args catalog given)

theorem normalizePackRefs_merged (packRefs : List WizardPackRefAnswer) (refs : List String) :
    normalizePackRefs (packRefs ++ refs.map .Ref) = normalizePackRefs packRefs ++ refs.filter notBlank := by
  unfold normalizePackRefs
  rw [List.map_append, List.filter_append, List.map_map]
  exact congrArg (_ ++ List.filter notBlank ·) (List.map_id refs)

theorem normalizeCatalogPacks_merged (catalogPacks : List WizardCatalogPackAnswer) (ids : List String) :
    normalizeCatalogPacks (catalogPacks ++ ids.map .Id) = normalizeCatalogPacks catalogPacks ++ ids.filter notBlank := by
  unfold normalizeCatalogPacks
  rw [List.map_append, List.filter_append, List.map_map]
  exact congrArg (_ ++ List.filter notBlank ·) (List.map_id ids)

/-- A replay selects what the dry run selects otherwise than by a blank id. -/
theorem mem_answerRefs_iff (args : DemoWizardArgs) (systemLocale : String) (catalog : List PackListing)
    (given : WizardQaAnswers) (reference : String) :
    reference ∈ selectedRefs (answerRefs catalog (effectiveAnswers args systemLocale catalog given))
      ↔ reference ∈ selectedRefs (otherRefs args catalog given) := by
  have hpackRefs : normalizePackRefs (effectiveAnswers args systemLocale catalog given).packRefs
      = normalizePackRefs given.packRefs ++ args.packRefs.filter notBlank := normalizePackRefs_merged _ _
  have hcatalogPacks : normalizeCatalogPacks (effectiveAnswers args systemLocale catalog given).catalogPacks
      = normalizeCatalogPacks given.catalogPacks ++ args.catalogPacks.filter notBlank :=
    normalizeCatalogPacks_merged _ _
  unfold answerRefs otherRefs
  rw [hpackRefs, hcatalogPacks]
  simp only [mem_selectedRefs_append, mem_selectedRefs_filter]
  rfl

theorem mem_selectedRefs_knownReferences {ids : List String} {reference : String} :
    reference ∈ selectedRefs (knownReferences catalog ids) ↔ reference ≠ "" ∧ ∃ id ∈ ids, ∃ item,
      (byId catalog).lookup id = some item ∧ Text.trim item.reference = reference := by
  simp only [mem_selectedRefs_iff, knownReferences, List.mem_filterMap, Option.map_eq_some_iff]
  constructor
  · rintro ⟨hne, _, ⟨id, hid, item, hitem, rfl⟩, htrim⟩
    exact ⟨hne, id, hid, item, hitem, htrim⟩
  · rintro ⟨hne, id, hid, item, hitem, htrim⟩
    exact ⟨hne, _, ⟨id, hid, item, hitem, rfl⟩, htrim⟩

/-- A dry run selects that, and what the ids on the command line name. -/
theorem mem_requestRefs_iff {refs : List String}
    (h : requestRefs args catalog (effectiveAnswers args systemLocale catalog given) = .ok refs) {reference : String} :
    reference ∈ selectedRefs refs ↔ reference ∈ selectedRefs (otherRefs args catalog given)
      ∨ reference ∈ selectedRefs (knownReferences catalog args.catalogPacks) := by
  rw [(requestRefs_eq_ok h).2, ← mem_answerRefs_iff args systemLocale catalog given]
  have hgiven : reference ∈ selectedRefs args.packRefs →
      reference ∈ selectedRefs (normalizePackRefs (effectiveAnswers args systemLocale catalog given).packRefs) := by
    intro hmem
    rw [show normalizePackRefs (effectiveAnswers args systemLocale catalog given).packRefs
      = normalizePackRefs given.packRefs ++ args.packRefs.filter notBlank from normalizePackRefs_merged _ _]
    exact mem_selectedRefs_append.mpr (.inr (mem_selectedRefs_filter.mpr hmem))
  simp only [answerRefs, knownReferences_append, mem_selectedRefs_append]
  tauto

/-- **Replay and dry run select the same** exactly where no pack is selected by a blank id alone. -/
theorem selectedRefs_again_iff {refs : List String}
    (h : requestRefs args catalog (effectiveAnswers args systemLocale catalog given) = .ok refs) :
    selectedRefs (answerRefs catalog (effectiveAnswers args systemLocale catalog given)) = selectedRefs refs
      ↔ SparesBlankIds args catalog given := by
  rw [selectedRefs_eq_iff]
  constructor
  · intro hsame id hid _ item hitem
    refine or_iff_not_imp_left.mpr fun hne => ?_
    rw [← mem_answerRefs_iff args systemLocale catalog given, hsame, mem_requestRefs_iff h]
    exact .inr (mem_selectedRefs_knownReferences.mpr ⟨hne, id, hid, item, hitem, rfl⟩)
  · intro hspares reference
    rw [mem_answerRefs_iff, mem_requestRefs_iff h]
    refine ⟨.inl, fun hmem => hmem.elim id fun hmem => ?_⟩
    obtain ⟨hne, id, hid, item, hitem, rfl⟩ := mem_selectedRefs_knownReferences.mp hmem
    cases hblank : notBlank id with
    | false => exact (hspares id hid hblank item hitem).resolve_left hne
    | true =>
      refine mem_selectedRefs_append.mpr (.inr ?_)
      rw [knownReferences_append, mem_selectedRefs_append]
      exact .inr (mem_selectedRefs_knownReferences.mpr
        ⟨hne, id, List.mem_filter.mpr ⟨hid, hblank⟩, item, hitem, rfl⟩)

theorem packRefs_of_requestOf {answers : WizardQaAnswers} {request : WizardCreateRequest}
    (h : requestOf args catalog answers = .ok request) : requestRefs args catalog answers = .ok request.packRefs := by
  obtain ⟨_, -, h⟩ := Outcome.bind_eq_ok_iff.mp h
  obtain ⟨refs, hrefs, h⟩ := Outcome.bind_eq_ok_iff.mp h
  obtain ⟨_, -, h⟩ := Outcome.bind_eq_ok_iff.mp h
  obtain ⟨_, -, h⟩ := Outcome.bind_eq_ok_iff.mp h
  obtain ⟨_, -, h⟩ := Outcome.bind_eq_ok_iff.mp h
  obtain ⟨_, -, h⟩ := Outcome.bind_eq_ok_iff.mp h
  cases h
  exact hrefs

/-- What a run is made of: a request, its plan, and the document unless the plan is executed. -/
theorem exists_of_run {packsJson : PacksJson} {loadedDoc : Option WizardAnswerDocument} {planned : Planned}
    (h : args.run systemLocale catalog packsJson given loadedDoc = .ok planned) :
    ∃ request, requestOf args catalog (effectiveAnswers args systemLocale catalog given) = .ok request
      ∧ buildPlan args.mode packsJson request
          (executionFlags args (effectiveAnswers args systemLocale catalog given)).2 = .ok planned.plan
      ∧ ∀ doc, planned.document = some doc →
          doc = answerDocument args systemLocale (effectiveAnswers args systemLocale catalog given) loadedDoc := by
  unfold DemoWizardArgs.run at h
  generalize effectiveAnswers args systemLocale catalog given = answers at h ⊢
  obtain ⟨request, hrequest, h⟩ := Outcome.bind_eq_ok_iff.mp h
  generalize executionFlags args answers = flags at h ⊢
  obtain ⟨executed, dryRun⟩ := flags
  obtain ⟨plan, hplan, h⟩ := Outcome.bind_eq_ok_iff.mp h
  cases h
  refine ⟨request, hrequest, hplan, fun doc hdoc => ?_⟩
  cases executed with
  | false => exact (Option.some.inj hdoc).symm
  | true => cases hdoc

theorem map_plan_run {packsJson : PacksJson} {loadedDoc : Option WizardAnswerDocument}
    {request : WizardCreateRequest}
    (h : requestOf args catalog (effectiveAnswers args systemLocale catalog given) = .ok request) :
    (args.run systemLocale catalog packsJson given loadedDoc).map Planned.plan
      = buildPlan args.mode packsJson request
          (executionFlags args (effectiveAnswers args systemLocale catalog given)).2 := by
  unfold DemoWizardArgs.run
  dsimp only
  rw [h]
  show Except.map Planned.plan (buildPlan _ _ request _ >>= fun plan => Except.ok _) = _
  generalize buildPlan _ _ request _ = plan
  cases plan <;> rfl

/-- The plan of a replay is that of the request of the dry run, with the references that the answers name. -/
theorem plan_replay (versions : Versions) (packsJson : PacksJson) (loadedDoc : Option WizardAnswerDocument)
    {request : WizardCreateRequest} (hcatalog : LabelsApart catalog)
    (hrequest : requestOf args catalog (effectiveAnswers args systemLocale catalog given) = .ok request)
    (locale : String) (allowMigrate : Bool) :
    ∃ dryRun, (replay versions args.mode args.schemaVersion locale catalog packsJson allowMigrate
        (answerDocument args systemLocale (effectiveAnswers args systemLocale catalog given) loadedDoc)).map
        Planned.plan
      = buildPlan args.mode packsJson
          { request with packRefs := answerRefs catalog (effectiveAnswers args systemLocale catalog given) } dryRun := by
  have hagain := requestOf_again hrequest args.schemaVersion
  have hanswers := effectiveAnswers_again args systemLocale given hcatalog args.mode args.schemaVersion locale
  generalize effectiveAnswers args systemLocale catalog given = answers at hagain hanswers ⊢
  obtain ⟨loaded, hparse⟩ := parseWizardAnswersInputValue_document versions answers
    (answers.locale.or (some (args.locale.getD systemLocale)))
    ((loadedDoc.map WizardAnswerDocument.locks).getD []) args.schemaVersion allowMigrate
  have hreplay : replay versions args.mode args.schemaVersion locale catalog packsJson allowMigrate
        (answerDocument args systemLocale answers loadedDoc)
      = DemoWizardArgs.run { mode := args.mode, schemaVersion := args.schemaVersion } locale catalog packsJson
          answers (some loaded) := by
    unfold replay
    rw [show answerDocument args systemLocale answers loadedDoc = _ from rfl]
    exact congrArg (· >>= fun found => DemoWizardArgs.run { mode := args.mode, schemaVersion := args.schemaVersion }
      locale catalog packsJson found.1 found.2) hparse
  refine ⟨_, (congrArg (Except.map Planned.plan) hreplay).trans (map_plan_run ?_)⟩
  rw [hanswers]
  exact hagain

/-- **The replay of a dry run** is a dry run, where no flag of the command line contradicts another. -/
theorem executionFlags_again (hconflict : args.validate = true → args.execute = false)
    (h : (executionFlags args (effectiveAnswers args systemLocale catalog given)).1 = false) (mode : WizardMode)
    (schemaVersion : Option String) :
    executionFlags { mode, schemaVersion } (effectiveAnswers args systemLocale catalog given) = (false, true) := by
  have hmode : (effectiveAnswers args systemLocale catalog given).executionMode
      = if args.apply || args.execute then some "execute"
        else if args.validate || args.dryRun then some "dry run" else given.executionMode := rfl
  simp only [executionFlags, hmode] at h ⊢
  cases hvalidate : args.validate <;> cases hexecute : args.execute <;> cases hdryRun : args.dryRun <;>
    cases happly : args.apply <;> simp_all

/-- **A dry run is replayed** from the document it leaves exactly where the bundle is removed from, or no
pack is selected by a blank id on the command line alone: the plans are the same up to being dry. -/
theorem replay_eq_iff (versions : Versions) {args : DemoWizardArgs} {systemLocale : String}
    {catalog : List PackListing} {packsJson : PacksJson} {given : WizardQaAnswers}
    {loadedDoc : Option WizardAnswerDocument} {planned : Planned} {doc : WizardAnswerDocument}
    (hcatalog : LabelsApart catalog)
    (hrun : args.run systemLocale catalog packsJson given loadedDoc = .ok planned)
    (hdoc : planned.document = some doc) (locale : String) (allowMigrate : Bool) :
    (replay versions args.mode args.schemaVersion locale catalog packsJson allowMigrate doc).map
        (fun again => { again.plan with dryRun := planned.plan.dryRun }) = .ok planned.plan
      ↔ args.mode = .Remove ∨ SparesBlankIds args catalog given := by
  obtain ⟨request, hrequest, hplan, hdocument⟩ := exists_of_run hrun
  obtain ⟨dryRun, hreplay⟩ := plan_replay versions packsJson loadedDoc hcatalog hrequest locale allowMigrate
  rw [hdocument doc hdoc, ← selectedRefs_again_iff (packRefs_of_requestOf hrequest),
    ← buildPlan_withRefs_iff hplan dryRun, ← hreplay]
  generalize replay _ _ _ _ _ _ _ _ = again
  cases again <;> rfl

def demoCatalog : List PackListing :=
  [{ id := "telegram", label := "Telegram", reference := "oci://demo/telegram:1" },
    { id := "slack", label := "Slack", reference := "oci://demo/slack:1" }]

def overridingArgs : DemoWizardArgs :=
  { mode := .Create, bundle := some "demo", catalogPacks := ["telegram"], packRefs := ["oci://demo/app:1"],
    tenant := "acme", team := some "sales", allowPaths := ["app/main"], locale := some "nl" }

def noVersions : Versions := ⟨Unit, fun _ => none, fun _ _ => false⟩

def otherTenant : WizardQaAnswers := { tenant := some "other", providers := [.Id "Slack"] }

theorem overriding_run_replays :
    ∃ planned doc, overridingArgs.run "en" demoCatalog (.ok []) otherTenant none = .ok planned
      ∧ planned.document = some doc
      ∧ (replay noVersions .Create none "en" demoCatalog (.ok []) false doc).map
          (fun again => { again.plan with dryRun := planned.plan.dryRun }) = .ok planned.plan := by
  have hcatalog : LabelsApart demoCatalog := by decide
  have hspares : SparesBlankIds overridingArgs demoCatalog otherTenant := by
    intro id hid hblank
    cases List.mem_singleton.mp hid
    cases hblank
  have hreplay := fun planned doc hrun hdoc =>
    (@replay_eq_iff noVersions overridingArgs "en" demoCatalog (.ok []) otherTenant none planned doc hcatalog hrun
      hdoc "en" false).mpr (.inr hspares)
  exact ⟨_, _, rfl, rfl, hreplay _ _ rfl rfl⟩

def blankCatalog : List PackListing := [{ id := "", label := "Blank", reference := "oci://demo/pack:1" }]

def blankIdArgs : DemoWizardArgs := { mode := .Create, bundle := some "demo", catalogPacks := [""] }

/-- A pack selected by a blank id is in the plan of the dry run and not in that of the replay. -/
theorem blank_id_is_lost :
    ¬∀ (versions : Versions) (args : DemoWizardArgs) (systemLocale : String) (catalog : List PackListing)
      (packsJson : PacksJson) (given : WizardQaAnswers) (loadedDoc : Option WizardAnswerDocument)
      (planned : Planned) (doc : WizardAnswerDocument) (locale : String) (allowMigrate : Bool),
      LabelsApart catalog → args.run systemLocale catalog packsJson given loadedDoc = .ok planned →
      planned.document = some doc →
      (replay versions args.mode args.schemaVersion locale catalog packsJson allowMigrate doc).map
        (fun again => { again.plan with dryRun := planned.plan.dryRun }) = .ok planned.plan := by
  intro h
  have hsame := h noVersions blankIdArgs "en" blankCatalog (.ok []) {} none _ _ "en" false (by decide) rfl rfl
  have hrefs := congrArg (Except.map fun plan => plan.metadata.packRefs) hsame
  have hlost : ([] : List String) = ["oci://demo/pack:1"] := Except.ok.inj hrefs
  cases hlost

/-!
## How a request is listed

`src/wizard.rs`. The references, the tenants and the paths of each tenant are sorted before a plan is made,
and what is given twice is planned once. The order of tenants compares all there is of them, their paths as
they are sorted, so it ties no two of them, and a plan does not depend on how the request is listed
(`plan_eq_of_relisted`).
-/

/-! ### Texts that are sorted -/

/-- Texts are sorted to the same list where the same are given. -/
theorem sortDedup_eq_of_mem_iff {values others : List String} (h : ∀ value, value ∈ values ↔ value ∈ others) :
    sortDedup values = sortDedup others := by
  have hsorted : ∀ values : List String, (sortDedup values).Pairwise (· ≤ ·) := fun values =>
    (List.pairwise_insertionSort (· ≤ ·) values).sublist (List.dedup_sublist _)
  have hperm : (sortDedup values).Perm (sortDedup others) := by
    apply (List.perm_ext_iff_of_nodup (List.nodup_dedup _) (List.nodup_dedup _)).mpr
    intro value
    rw [← sortDedup, ← sortDedup, mem_sortDedup, mem_sortDedup]
    exact h value
  exact hperm.eq_of_pairwise' (hsorted values) (hsorted others)

theorem selectedRefs_eq_of_mem_iff {refs others : List String} (h : ∀ reference, reference ∈ refs ↔ reference ∈ others) :
    selectedRefs refs = selectedRefs others := by
  apply selectedRefs_eq_iff.mpr
  intro reference
  simp only [mem_selectedRefs_iff, h]

/-! ### Tenants that are sorted -/

/-- The order of tenants, as the comparison of their parts one after the other. -/
def tenantOrder : TenantSelection → TenantSelection → Ordering :=
  compareLex (compareOn (·.tenant)) (compareLex (compareOn (·.team)) (compareOn (·.allowPaths)))

theorem tenantLe_eq (a b : TenantSelection) : tenantLe a b = (tenantOrder a b).isLE := rfl

instance : Std.TransCmp tenantOrder := inferInstanceAs (Std.TransCmp (compareLex _ (compareLex _ _)))

instance : IsTrans TenantSelection fun a b => tenantLe a b = true where
  trans a b c hab hbc := by
    rw [tenantLe_eq] at hab hbc ⊢
    exact Std.TransCmp.isLE_trans hab hbc

instance : Std.Total fun a b : TenantSelection => tenantLe a b = true where
  total a b := by
    have hswap : tenantOrder b a = (tenantOrder a b).swap := Std.OrientedCmp.eq_swap
    rw [tenantLe_eq, tenantLe_eq, hswap]
    cases tenantOrder a b with
    | lt => exact Or.inl rfl
    | eq => exact Or.inl rfl
    | gt => exact Or.inr rfl

/-- Two tenants that are tied are the same. -/
theorem tenantLe_antisymm {a b : TenantSelection} (hab : tenantLe a b = true) (hba : tenantLe b a = true) : a = b := by
  rw [tenantLe_eq] at hab hba
  have heq : tenantOrder a b = .eq := Std.OrientedCmp.isLE_antisymm hab hba
  obtain ⟨htenant, hrest⟩ := compareLex_eq_eq.mp heq
  obtain ⟨hteam, hpaths⟩ := compareLex_eq_eq.mp hrest
  have htenant : a.tenant = b.tenant := Std.LawfulEqOrd.eq_of_compare htenant
  have hteam : a.team = b.team := Std.LawfulEqOrd.eq_of_compare hteam
  have hpaths : a.allowPaths = b.allowPaths := Std.LawfulEqOrd.eq_of_compare hpaths
  calc a = ⟨a.tenant, a.team, a.allowPaths⟩ := rfl
    _ = b := by rw [htenant, hteam, hpaths]

/-! ### Requests that are listed in another way -/

/-- A tenant whose paths are listed in another order, or more than once. -/
structure SameTenant (a b : TenantSelection) : Prop where
  tenant : a.tenant = b.tenant
  team : a.team = b.team
  allowPaths : ∀ path, path ∈ a.allowPaths ↔ path ∈ b.allowPaths

/-- A request whose references are listed in another order or more than once, whose tenants are listed in another
order, and each of them with its paths in another order or more than once. -/
structure Relisted (request other : WizardCreateRequest) : Prop where
  packRefs : ∀ reference, reference ∈ request.packRefs ↔ reference ∈ other.packRefs
  tenants : ∃ tenants, List.Forall₂ SameTenant request.tenants tenants ∧ tenants.Perm other.tenants
  others : { request with packRefs := other.packRefs, tenants := other.tenants } = other

/-- A tenant with its paths sorted, as a plan has it. -/
def withSortedPaths (tenant : TenantSelection) : TenantSelection :=
  { tenant with allowPaths := sortDedup tenant.allowPaths }

theorem SameTenant.withSortedPaths_eq {a b : TenantSelection} (h : SameTenant a b) :
    withSortedPaths a = withSortedPaths b := by
  unfold withSortedPaths
  rw [sortDedup_eq_of_mem_iff h.allowPaths, h.tenant, h.team]

theorem selectedTenants_eq_of_relisted {tenants middle others : List TenantSelection}
    (hsame : List.Forall₂ SameTenant tenants middle) (hperm : middle.Perm others) :
    selectedTenants tenants = selectedTenants others := by
  have hmap : tenants.map withSortedPaths = middle.map withSortedPaths := by
    clear hperm
    induction hsame with
    | nil => rfl
    | cons hhead _ ih => rw [List.map_cons, List.map_cons, hhead.withSortedPaths_eq, ih]
  show (tenants.map withSortedPaths).insertionSort _ = (others.map withSortedPaths).insertionSort _
  rw [hmap]
  apply StableSort.insertionSort_eq_of_perm (hperm.map withSortedPaths)
  intro a _ b _ hab hba
  exact tenantLe_antisymm hab hba

/-- **A plan does not depend on how the request is listed.** -/
theorem plan_eq_of_relisted {request other : WizardCreateRequest} (h : Relisted request other) (dryRun : Bool) :
    applyCreate request dryRun = applyCreate other dryRun ∧ applyUpdate request dryRun = applyUpdate other dryRun := by
  obtain ⟨hmem, ⟨middle, hsame, hperm⟩, hothers⟩ := h
  generalize other.packRefs = packRefs at hmem hothers
  generalize other.tenants = tenants at hperm hothers
  subst hothers
  have hrefs := selectedRefs_eq_of_mem_iff hmem
  have htenants := selectedTenants_eq_of_relisted hsame hperm
  have hlength : request.tenants.length = tenants.length := hsame.length_eq.trans hperm.length_eq
  have hempty : request.tenants.isEmpty = tenants.isEmpty := by
    apply Bool.eq_iff_iff.mpr
    rw [List.isEmpty_iff_length_eq_zero, List.isEmpty_iff_length_eq_zero, hlength]
  constructor
  · unfold applyCreate metadataOf
    dsimp only
    rw [hrefs, htenants, hempty]
  · unfold applyUpdate metadataOf
    dsimp only
    rw [hrefs, htenants]
    rfl

/-! #### Two packs and two tenants -/

/-- A request for two packs and two tenants, one of which has two paths. -/
def listedOnce : WizardCreateRequest where
  bundle := "bundle"
  bundleName := none
  packRefs := ["repo://zeta/pack@1", "repo://alpha/pack@1"]
  tenants := [⟨"demo", some "default", ["pack/b", "pack/a"]⟩, ⟨"alpha", none, ["x"]⟩]
  defaultAssignments := []
  providers := []
  updateOps := []
  removeTargets := []
  packsRemove := []
  providersRemove := []
  tenantsRemove := []
  accessChanges := []
  setupAnswers := []

/-- The same request, listed the other way round and some of it twice. -/
def listedAgain : WizardCreateRequest :=
  { listedOnce with
    packRefs := ["repo://alpha/pack@1", "repo://zeta/pack@1", "repo://alpha/pack@1"]
    tenants := [⟨"alpha", none, ["x", "x"]⟩, ⟨"demo", some "default", ["pack/a", "pack/b", "pack/a"]⟩] }

theorem plan_eq_of_relisted_listedAgain :
    applyCreate listedOnce true = applyCreate listedAgain true ∧ applyUpdate listedOnce true = applyUpdate listedAgain true := by
  apply plan_eq_of_relisted
  refine ⟨?_, ⟨[⟨"demo", some "default", ["pack/a", "pack/b", "pack/a"]⟩, ⟨"alpha", none, ["x", "x"]⟩], ?_, ?_⟩, rfl⟩
  · intro reference
    simp only [listedOnce, listedAgain, List.mem_cons, List.not_mem_nil, or_false]
    tauto
  · refine .cons ⟨rfl, rfl, ?_⟩ (.cons ⟨rfl, rfl, ?_⟩ .nil)
    · intro path
      simp only [List.mem_cons, List.not_mem_nil, or_false]
      tauto
    · intro path
      simp only [List.mem_cons, List.not_mem_nil, or_false, or_self]
  · exact List.Perm.swap _ _ _

end Wizard
