import GreenticOperator.Cli.Select
import GreenticOperator.Lib.Outcome
import Mathlib.Data.List.Nodup

/-!
# Selecting a pack by its id

The id of a pack should select it, and nothing else, where no two packs share a name (`Selects`).
A name also matches where it is a part of another, and an exact match has no precedence: the id
selects its pack exactly where no other pack's id or file name contains it (`selects_iff`).
-/

namespace Cli

open Domains

/-- The names of a pack. -/
def packNames (pack : ProviderPack) : List String := [pack.packId, pack.fileName, pack.fileStem]

/-- No name of a pack is a name of another one. -/
def NamesOfTheirOwn (packs : List ProviderPack) : Prop :=
  packs.Pairwise fun a b => ∀ name ∈ packNames a, name ∉ packNames b

/-- The manifest of a bundle allows a pack, or there is none to ask. -/
def Bundle.Allows (bundle : Bundle) (domain : Domain) (pack : ProviderPack) : Prop :=
  bundle.isDemoBundle = false ∨ demoProviderFiles bundle.manifest domain = .ok none
    ∨ ∃ files, demoProviderFiles bundle.manifest domain = .ok (some files) ∧ pack.fileName ∈ files

/-- **The id of a pack selects it** among the packs of any bundle: both commands return it, and what
is planned for it alone is planned. -/
structure Selects (packs : List ProviderPack) (pack : ProviderPack) : Prop where
  byFilter : ∀ domain, demoProviderPackByFilter (.ok packs) domain pack.packId = .ok pack
  resolved : ∀ (bundle : Bundle) (domain : Domain), bundle.packs = .ok packs →
    bundle.Allows domain pack → resolveDemoProviderPack bundle pack.packId domain = .ok pack
  planned : ∀ domain action allowMissingSetup plan,
    planRuns domain action [pack] none allowMissingSetup = .ok plan →
      planRuns domain action packs (some pack.packId) allowMissingSetup = .ok plan

/-- A name is a part of the id or of the file name of a pack. -/
def PartOf (name : String) (pack : ProviderPack) : Prop :=
  name.toList <:+: pack.packId.toList ∨ name.toList <:+: pack.fileName.toList

/-! ## Matching -/

variable {packs : List ProviderPack} {pack : ProviderPack} {filter : String}

theorem contains_fileName_of_fileStem (h : Text.contains filter pack.fileStem = true) :
    filter.toList <:+: pack.fileName.toList := by
  rw [Text.contains_iff] at h
  unfold ProviderPack.fileStem at h
  cases hstem : Text.stripSuffix ".gtpack" pack.fileName with
  | none => rwa [hstem, Option.getD_none] at h
  | some stem =>
    rw [hstem, Option.getD_some] at h
    exact h.trans (Text.stripSuffix_prefix hstem).isInfix

/-- **What a filter matches**: the other ways of matching are cases of these two. -/
theorem providerFilterMatches_iff : providerFilterMatches pack filter = true ↔ PartOf filter pack := by
  unfold providerFilterMatches PartOf
  simp only [Bool.or_eq_true, beq_iff_eq]
  constructor
  · rintro (((((heq | heq) | heq) | hid) | hname) | hstem)
    · exact .inl (heq ▸ List.infix_rfl)
    · exact .inr (heq ▸ List.infix_rfl)
    · exact .inr (contains_fileName_of_fileStem (heq ▸ Text.contains_self _))
    · exact .inl (Text.contains_iff.mp hid)
    · exact .inr (Text.contains_iff.mp hname)
    · exact .inr (contains_fileName_of_fileStem hstem)
  · rintro (hid | hname)
    · exact .inl (.inl (.inr (Text.contains_iff.mpr hid)))
    · exact .inl (.inr (Text.contains_iff.mpr hname))

theorem matches_own_id (pack : ProviderPack) : providerFilterMatches pack pack.packId = true :=
  providerFilterMatches_iff.mpr (.inl List.infix_rfl)

/-- Packs with names of their own are there once. -/
theorem nodup_of_namesOfTheirOwn (h : NamesOfTheirOwn packs) : packs.Nodup := by
  refine List.Pairwise.imp (fun {a b} hnames heq => ?_) h
  subst heq
  exact hnames a.packId List.mem_cons_self List.mem_cons_self

/-- A pack is all that is kept of a list exactly where nothing else is. -/
theorem filter_eq_singleton_iff {keep : ProviderPack → Bool} (hnodup : packs.Nodup)
    (hmem : pack ∈ packs) (hkeep : keep pack = true) :
    packs.filter keep = [pack] ↔ ∀ other ∈ packs, other ≠ pack → keep other = false := by
  constructor
  · intro h other hother hne
    cases hmatch : keep other with
    | false => rfl
    | true =>
      have hin : other ∈ packs.filter keep := List.mem_filter.mpr ⟨hother, hmatch⟩
      rw [h, List.mem_singleton] at hin
      exact absurd hin hne
  · intro h
    rw [← List.perm_singleton, List.perm_ext_iff_of_nodup (hnodup.filter keep) (List.nodup_singleton _)]
    intro other
    rw [List.mem_filter, List.mem_singleton]
    constructor
    · rintro ⟨hother, hmatch⟩
      by_contra hne
      rw [h other hother hne] at hmatch
      cases hmatch
    · rintro rfl
      exact ⟨hmem, hkeep⟩

/-- The one match is returned exactly where it is the only one. -/
theorem onlyMatch_eq_ok_iff {none : String} {several : List ProviderPack → String} :
    onlyMatch packs filter none several = .ok pack
      ↔ packs.filter (providerFilterMatches · filter) = [pack] := by
  have hperm := List.perm_insertionSort
    (fun a b : ProviderPack => Text.split '/' a.path ≤ Text.split '/' b.path)
    (packs.filter (providerFilterMatches · filter))
  unfold onlyMatch byPath
  constructor
  · intro h
    split at h
    · cases h
    next found heq =>
      cases h
      rw [heq] at hperm
      exact List.singleton_perm.mp hperm |>.symm
    · cases h
  · intro h
    rw [h]
    rfl

/-! ## Plans -/

/-- A plan is that of the packs its filter matches. -/
theorem planRuns_filter (domain : Domain) (action : DomainAction) (packs : List ProviderPack)
    (filter : String) (allowMissingSetup : Bool) :
    planRuns domain action packs (some filter) allowMissingSetup
      = planRuns domain action (packs.filter (providerFilterMatches · filter)) none allowMissingSetup := by
  induction packs with
  | nil => rfl
  | cons pack packs ih =>
    rw [planRuns, Option.all_some, ih, List.filter_cons]
    split
    next => rfl
    next => rfl

/-- The runs of one pack are of that pack, and one for each flow at most. -/
theorem planPack_ok {action : DomainAction} {allowMissingSetup : Bool} {flows : List String} {plan : List PlannedRun}
    (h : planPack action allowMissingSetup pack flows = .ok plan) :
    plan.length ≤ flows.length ∧ ∀ run ∈ plan, run.pack = pack := by
  induction flows generalizing plan with
  | nil =>
    cases h
    exact ⟨Nat.le_refl _, fun _ hrun => absurd hrun List.not_mem_nil⟩
  | cons flow flows ih =>
    unfold planPack at h
    split at h
    next =>
      obtain ⟨rest, hrest, h⟩ := Outcome.bind_eq_ok_iff.mp h
      cases h
      obtain ⟨hlength, hpack⟩ := ih hrest
      exact ⟨Nat.succ_le_succ hlength, List.forall_mem_cons.mpr ⟨rfl, hpack⟩⟩
    next =>
      split at h
      next => cases h
      next => exact ⟨Nat.le_succ_of_le (ih h).1, (ih h).2⟩

theorem length_actionFlows (domain : Domain) (action : DomainAction) : (actionFlows domain action).length ≤ 1 := by
  cases domain <;> cases action <;> decide

/-- A flow is planned no more often than there are packs for it. -/
theorem length_filter_planRuns_le {domain : Domain} {action : DomainAction} {providerFilter : Option String}
    {allowMissingSetup : Bool} {plan : List PlannedRun}
    (h : planRuns domain action packs providerFilter allowMissingSetup = .ok plan) (keep : ProviderPack → Bool)
    (flow : String) :
    (plan.filter fun run => keep run.pack ∧ run.flowId = flow).length ≤ (packs.filter keep).length := by
  induction packs generalizing plan with
  | nil =>
    cases h
    exact Nat.le_refl _
  | cons pack packs ih =>
    unfold planRuns at h
    rw [List.filter_cons]
    split at h
    next =>
      obtain ⟨runs, hruns, h⟩ := Outcome.bind_eq_ok_iff.mp h
      obtain ⟨rest, hrest, h⟩ := Outcome.bind_eq_ok_iff.mp h
      cases h
      obtain ⟨hlength, hpack⟩ := planPack_ok hruns
      have hrest := ih hrest
      rw [List.filter_append, List.length_append]
      by_cases hkeep : keep pack = true
      · have hone := length_actionFlows domain action
        have hfilter := List.length_filter_le (fun run : PlannedRun => decide (keep run.pack ∧ run.flowId = flow)) runs
        rw [if_pos hkeep, List.length_cons]
        omega
      · have hnone : (runs.filter fun run => keep run.pack ∧ run.flowId = flow) = [] := by
          refine List.filter_eq_nil_iff.mpr fun run hrun => ?_
          simp [hpack run hrun, hkeep]
        rw [if_neg hkeep, hnone, List.length_nil, Nat.zero_add]
        exact hrest
    next =>
      have hrest := ih h
      split
      next =>
        rw [List.length_cons]
        omega
      next => exact hrest

/-! ## Selecting by id -/

theorem exists_filter_of_allowedPacks {bundle : Bundle} {domain : Domain} {allowed : List ProviderPack}
    (hpacks : bundle.packs = .ok packs) (h : bundle.allowedPacks domain = .ok allowed) :
    ∃ keep : ProviderPack → Bool, allowed = packs.filter keep := by
  have hall : packs = packs.filter fun _ => true := (List.filter_true packs).symm
  unfold Bundle.allowedPacks at h
  rw [hpacks] at h
  obtain ⟨found, hfound, h⟩ := Outcome.bind_eq_ok_iff.mp h
  cases hfound
  split at h
  next =>
    obtain ⟨files, -, h⟩ := Outcome.bind_eq_ok_iff.mp h
    cases files with
    | none =>
      cases h
      exact ⟨_, hall⟩
    | some files =>
      cases h
      exact ⟨_, rfl⟩
  next =>
    cases h
    exact ⟨_, hall⟩

/-- A filter that matches at most one pack, and some that is allowed, selects one. -/
theorem exists_resolved {bundle : Bundle} {domain : Domain} {allowed : List ProviderPack}
    (hpacks : bundle.packs = .ok packs) (hallowed : bundle.allowedPacks domain = .ok allowed)
    (hone : (packs.filter (providerFilterMatches · filter)).length ≤ 1)
    (hsome : ∃ pack ∈ allowed, providerFilterMatches pack filter = true) :
    ∃ pack, resolveDemoProviderPack bundle filter domain = .ok pack := by
  obtain ⟨keep, rfl⟩ := exists_filter_of_allowedPacks hpacks hallowed
  obtain ⟨pack, hpack, hmatch⟩ := hsome
  have hmem : pack ∈ (packs.filter keep).filter (providerFilterMatches · filter) := List.mem_filter.mpr ⟨hpack, hmatch⟩
  have hlength : ((packs.filter keep).filter (providerFilterMatches · filter)).length ≤ 1 := by
    rw [List.filter_comm]
    exact Nat.le_trans (List.length_filter_le _ _) hone
  refine ⟨pack, ?_⟩
  unfold resolveDemoProviderPack
  rw [hallowed]
  refine onlyMatch_eq_ok_iff.mpr ?_
  cases hfound : (packs.filter keep).filter (providerFilterMatches · filter) with
  | nil =>
    rw [hfound] at hmem
    cases hmem
  | cons first others =>
    rw [hfound] at hmem hlength
    cases others with
    | nil => rw [List.mem_singleton.mp hmem]
    | cons second others => simp at hlength


/-- What a bundle lets be selected: all its packs, or those whose files its manifest lists. -/
theorem allowedPacks_of_allows {bundle : Bundle} {domain : Domain} (hpacks : bundle.packs = .ok packs)
    (hallows : bundle.Allows domain pack) :
    ∃ keep : ProviderPack → Bool, keep pack = true ∧ bundle.allowedPacks domain = .ok (packs.filter keep) := by
  have hall : packs.filter (fun _ => true) = packs := List.filter_true packs
  unfold Bundle.allowedPacks
  rw [hpacks]
  rcases hallows with hdemo | hnone | ⟨files, hfiles, hmem⟩
  · exact ⟨fun _ => true, rfl, by rw [hdemo, hall]; rfl⟩
  · refine ⟨fun _ => true, rfl, ?_⟩
    rw [hnone, hall]
    simp only [bind, Except.bind]
    split <;> rfl
  · cases hdemo : bundle.isDemoBundle with
    | false => exact ⟨fun _ => true, rfl, by rw [hall]; rfl⟩
    | true =>
      refine ⟨fun pack => files.contains pack.fileName, List.contains_iff_mem.mpr hmem, ?_⟩
      rw [hfiles]
      rfl

theorem Selects.filter_eq (h : Selects packs pack) :
    packs.filter (providerFilterMatches · pack.packId) = [pack] :=
  onlyMatch_eq_ok_iff.mp (h.byFilter .Messaging)

/-- **A pack is selected by its id exactly** where no other pack's id or file name contains it. -/
theorem selects_iff (packs : List ProviderPack) (hnames : NamesOfTheirOwn packs) (pack : ProviderPack)
    (hmem : pack ∈ packs) :
    Selects packs pack ↔ ∀ other ∈ packs, other ≠ pack → ¬ PartOf pack.packId other := by
  have hnodup := nodup_of_namesOfTheirOwn hnames
  have honly : packs.filter (providerFilterMatches · pack.packId) = [pack]
      ↔ ∀ other ∈ packs, other ≠ pack → providerFilterMatches other pack.packId = false :=
    filter_eq_singleton_iff hnodup hmem (matches_own_id pack)
  simp only [← Bool.not_eq_true, providerFilterMatches_iff] at honly
  rw [← honly]
  constructor
  · exact Selects.filter_eq
  · intro hfilter
    refine ⟨fun domain => onlyMatch_eq_ok_iff.mpr hfilter, fun bundle domain hpacks hallows => ?_,
      fun domain action allowMissingSetup plan hplan => ?_⟩
    · obtain ⟨keep, hkeep, hallowed⟩ := allowedPacks_of_allows hpacks hallows
      unfold resolveDemoProviderPack
      rw [hallowed]
      refine onlyMatch_eq_ok_iff.mpr ?_
      rw [List.filter_comm, hfilter, List.filter_cons_of_pos hkeep, List.filter_nil]
    · rw [planRuns_filter, hfilter, hplan]

def email : ProviderPack :=
  ⟨"messaging-email", "/bundle/providers/messaging/messaging-email.gtpack", ["diagnostics"]⟩

/-- A second version of it, whose names contain those of the first. -/
def emailV2 : ProviderPack :=
  ⟨"messaging-email-v2", "/bundle/providers/messaging/messaging-email-v2.gtpack", ["diagnostics"]⟩

theorem namesOfTheirOwn_emails : NamesOfTheirOwn [email, emailV2] := by
  unfold NamesOfTheirOwn
  rw [List.pairwise_pair]
  decide +kernel

/-- The second version is selected by its id, which no name of the first contains. -/
theorem emailV2_selected : Selects [email, emailV2] emailV2 ↔
    ∀ other ∈ [email, emailV2], other ≠ emailV2 → ¬ PartOf emailV2.packId other :=
  selects_iff [email, emailV2] namesOfTheirOwn_emails emailV2
    (List.mem_cons_of_mem _ List.mem_cons_self)

/-- The id of the first version matches both, and no more specific name is to be had. -/
theorem email_not_selected : ¬ ∀ packs : List ProviderPack, NamesOfTheirOwn packs →
    ∀ pack ∈ packs, Selects packs pack := by
  intro h
  have hselects := h [email, emailV2] namesOfTheirOwn_emails email List.mem_cons_self
  exact absurd hselects.filter_eq (by decide +kernel)

end Cli
