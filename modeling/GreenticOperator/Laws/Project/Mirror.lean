import GreenticOperator.Lib.LastWins
import GreenticOperator.Lib.Run
import GreenticOperator.Project.Wizard
import Mathlib.Data.List.Dedup

/-!
# Resolved manifests and the tenants they are of

After every run of the resolver its directory is to hold the manifests of the tenants and teams
there are, and no others (`Mirror`), and what is copied from it is to be the manifests of those that
were asked for (`CopiesRequested`). The resolver writes over what is there and removes nothing, so
this is the case exactly where every file there is named like the manifest of a current tenant or
team and no two of these have one name (`mirrors_iff`).
-/

namespace Project

open Disk

variable {bundle after : Bundle} {build : Pair → ResolvedManifest}

/-- Every current tenant or team has its manifest, and every file is the manifest of one. -/
structure Mirror (build : Pair → ResolvedManifest) (bundle : Bundle) : Prop where
  of_pair : ∀ pair ∈ currentPairs bundle, bundle.resolved (resolvedManifestFilename pair) = some (.manifest (build pair))
  of_file : ∀ name, bundle.resolved name ≠ none → ∃ pair ∈ currentPairs bundle, name = resolvedManifestFilename pair

/-- What is copied is the manifests just made of the pairs that were asked for. -/
structure CopiesRequested (build : Pair → ResolvedManifest) (targets : List Pair) (before after : Bundle)
    (copied : Copied) : Prop where
  only : ∀ name ∈ copied.files, ∃ pair ∈ targets, pair ∈ currentPairs after ∧ name = resolvedManifestFilename pair
    ∧ after.copies name = some (.manifest (build pair))
  all : ∀ pair ∈ targets, pair ∈ currentPairs after → resolvedManifestFilename pair ∈ copied.files
  frame : ∀ name, name ∉ copied.files → after.copies name = before.copies name

/-- Every file that is there has the name of a current manifest. -/
def NoLeftover (bundle : Bundle) : Prop :=
  ∀ name, bundle.resolved name ≠ none → ∃ pair ∈ currentPairs bundle, name = resolvedManifestFilename pair

/-- The current manifests have names of their own. -/
def NamesApart (bundle : Bundle) : Prop :=
  ∀ pair ∈ currentPairs bundle, ∀ pair' ∈ currentPairs bundle,
    resolvedManifestFilename pair = resolvedManifestFilename pair' → pair = pair'

/-- A current manifest with the name of one that is asked for is asked for itself. -/
def TargetsApart (targets : List Pair) (bundle : Bundle) : Prop :=
  ∀ pair ∈ targets, ∀ pair' ∈ currentPairs bundle,
    resolvedManifestFilename pair' = resolvedManifestFilename pair → pair' ∈ targets

/-! ## One run of the resolver -/

theorem buildManifest_inj {root : String} {sources : Sources} {pair pair' : Pair}
    (h : buildManifest root sources pair = buildManifest root sources pair') : pair = pair' := by
  have htenant := congrArg ResolvedManifest.tenant h
  have hteam := congrArg ResolvedManifest.team h
  exact Prod.ext htenant hteam

/-- The pairs as rules that give the names of their manifests. -/
def namedPairs (pairs : List Pair) : List (String × Pair) :=
  pairs.map fun pair => (resolvedManifestFilename pair, pair)

/-- **The loop**: a name holds the manifest of the last pair that has it, or what it held before. -/
theorem read_writeManifests {writes : Pair → WriteOutcome} {pairs : List Pair} {dir dir' : Directory}
    (h : writeManifests build writes pairs dir = (dir', .ok ())) (name : String) :
    dir' name = ((LastWins.last (namedPairs pairs) name).map fun pair => .manifest (build pair)).or (dir name) := by
  induction pairs generalizing dir with
  | nil =>
    cases h
    rfl
  | cons pair rest ih =>
    unfold writeManifests at h
    cases hwrite : writes pair with
    | refused message => rw [hwrite] at h; cases h
    | torn message => rw [hwrite] at h; cases h
    | done =>
      rw [hwrite] at h
      dsimp only [Directory.write] at h
      have hcons : namedPairs (pair :: rest) = (resolvedManifestFilename pair, pair) :: namedPairs rest := rfl
      rw [ih h, hcons, LastWins.last_cons, Option.map_or, Option.or_assoc]
      congr 1
      by_cases hname : resolvedManifestFilename pair = name
      · rw [if_pos hname, ← hname, Function.update_self]
        rfl
      · rw [if_neg hname, Function.update_of_ne (Ne.symm hname)]
        rfl

theorem mem_of_last_namedPairs {pairs : List Pair} {name : String} {pair : Pair}
    (h : LastWins.last (namedPairs pairs) name = some pair) :
    pair ∈ pairs ∧ resolvedManifestFilename pair = name := by
  unfold LastWins.last namedPairs at h
  obtain ⟨⟨_, _⟩, hlast, rfl⟩ := Option.map_eq_some_iff.mp h
  obtain ⟨hmem, hname⟩ := List.mem_filter.mp (List.mem_of_getLast? hlast)
  obtain ⟨pair, hpair, heq⟩ := List.mem_map.mp hmem
  cases heq
  exact ⟨hpair, of_decide_eq_true hname⟩

theorem last_namedPairs_eq_none {pairs : List Pair} {name : String} :
    LastWins.last (namedPairs pairs) name = none ↔ ∀ pair ∈ pairs, resolvedManifestFilename pair ≠ name := by
  rw [LastWins.last_eq_none, namedPairs, List.map_map, List.mem_map, not_exists]
  exact forall_congr' fun pair => not_and

/-- What a run of the resolver that ends well did. -/
theorem syncProject_ok {input : SyncInput} {sources : Sources} (hsources : input.sources = .ok sources)
    (h : syncProject input bundle = (after, .ok ())) :
    after = { bundle with resolved := after.resolved }
      ∧ writeManifests (buildManifest bundle.root sources) input.writes (currentPairs bundle) bundle.resolved
        = (after.resolved, .ok ()) := by
  unfold syncProject at h
  rw [hsources] at h
  dsimp only at h
  split at h
  next => cases h
  next =>
    cases hwrite : writeManifests (buildManifest bundle.root sources) input.writes (currentPairs bundle)
        bundle.resolved with
    | mk resolved result =>
      rw [hwrite] at h
      cases h
      exact ⟨rfl, rfl⟩

/-- **One run of the resolver** makes its directory a mirror exactly where no other file was there
and the names are apart. -/
theorem mirror_iff_of_sync {input : SyncInput} {sources : Sources} (hsources : input.sources = .ok sources)
    (h : syncProject input bundle = (after, .ok ())) :
    Mirror (buildManifest bundle.root sources) after ↔ NoLeftover bundle ∧ NamesApart bundle := by
  obtain ⟨hafter, hwrite⟩ := syncProject_ok hsources h
  have hread := read_writeManifests hwrite
  have hpairs : currentPairs after = currentPairs bundle := by rw [hafter]; rfl
  constructor
  · intro hmirror
    refine ⟨fun name hname => ?_, fun pair hpair pair' hpair' heq => ?_⟩
    · refine hpairs ▸ hmirror.of_file name fun hnone => hname ?_
      rw [hread, Option.or_eq_none_iff] at hnone
      exact hnone.2
    · have hpair := hmirror.of_pair pair (hpairs ▸ hpair)
      have hpair' := hmirror.of_pair pair' (hpairs ▸ hpair')
      rw [heq, hpair'] at hpair
      exact (buildManifest_inj (ResolvedFile.manifest.inj (Option.some.inj hpair))).symm
  · rintro ⟨hleft, hapart⟩
    refine ⟨fun pair hpair => ?_, fun name hname => ?_⟩
    · rw [hpairs] at hpair
      rw [hread]
      cases hlast : LastWins.last (namedPairs (currentPairs bundle)) (resolvedManifestFilename pair) with
      | none => exact absurd rfl (last_namedPairs_eq_none.mp hlast pair hpair)
      | some pair' =>
        obtain ⟨hpair', heq⟩ := mem_of_last_namedPairs hlast
        rw [hapart pair' hpair' pair hpair heq]
        rfl
    · rw [hpairs]
      cases hlast : LastWins.last (namedPairs (currentPairs bundle)) name with
      | none =>
        rw [hread, hlast] at hname
        exact hleft name hname
      | some pair =>
        obtain ⟨hpair, heq⟩ := mem_of_last_namedPairs hlast
        exact ⟨pair, hpair, heq.symm⟩

/-! ## One copy -/

/-- A result that is mapped ends well where it did before. -/
theorem eq_of_map_ok {α β : Type} {x : Bundle × Except String α} {f : α → β} {b : β}
    (h : (match x with | (bundle, result) => (bundle, result.map f)) = (after, .ok b)) :
    ∃ a, x = (after, .ok a) ∧ f a = b := by
  obtain ⟨bundle, result⟩ := x
  cases result with
  | error message => cases h
  | ok a =>
    cases h
    exact ⟨a, rfl, rfl⟩

theorem exists_unseen_iff {there : Prop} {seen rest : List Pair} {pair : Pair} {name : String}
    (h : pair ∉ seen) :
    (∃ target ∈ pair :: rest, target ∉ seen ∧ name = resolvedManifestFilename target ∧ there)
      ↔ (name = resolvedManifestFilename pair ∧ there)
        ∨ ∃ target ∈ rest, target ∉ pair :: seen ∧ name = resolvedManifestFilename target ∧ there := by
  constructor
  · rintro ⟨target, htarget, hnot, hname⟩
    by_cases heq : target = pair
    · exact .inl (heq ▸ hname)
    · exact .inr ⟨target, List.mem_of_ne_of_mem heq htarget, by simp [heq, hnot], hname⟩
  · rintro (hname | ⟨target, htarget, hnot, hname⟩)
    · exact ⟨pair, List.mem_cons_self, h, hname⟩
    · exact ⟨target, List.mem_cons_of_mem pair htarget, fun hmem => hnot (List.mem_cons_of_mem pair hmem), hname⟩

theorem exists_seen_iff {there : Prop} {seen rest : List Pair} {pair : Pair} {name : String}
    (h : pair ∈ seen) :
    (∃ target ∈ pair :: rest, target ∉ seen ∧ name = resolvedManifestFilename target ∧ there)
      ↔ ∃ target ∈ rest, target ∉ seen ∧ name = resolvedManifestFilename target ∧ there := by
  constructor
  · rintro ⟨target, htarget, hnot, hname⟩
    rcases List.mem_cons.mp htarget with rfl | htarget
    · exact absurd h hnot
    · exact ⟨target, htarget, hnot, hname⟩
  · rintro ⟨target, htarget, hname⟩
    exact ⟨target, List.mem_cons_of_mem pair htarget, hname⟩

/-- A write that ends well puts the file there. -/
theorem write_ok {files after : Directory} {name : String} {file : ResolvedFile} {outcome : WriteOutcome}
    (h : files.write name file outcome = (after, .ok ())) : after = Function.update files name (some file) := by
  cases outcome with
  | done => exact (congrArg Prod.fst h).symm
  | refused message => cases h
  | torn message => cases h

/-- **The loop over the targets**: it copies each manifest that is there, once. -/
theorem copyResolvedForTargets_ok {copy : Pair → WriteOutcome} {seen targets : List Pair} {copied : Copied}
    (h : copyResolvedForTargets copy seen targets bundle = (after, .ok copied)) :
    after = { bundle with copies := after.copies }
      ∧ (∀ name, name ∈ copied.files ↔ ∃ pair ∈ targets, pair ∉ seen ∧ name = resolvedManifestFilename pair
        ∧ bundle.resolved name ≠ none)
      ∧ ∀ name, after.copies name = if name ∈ copied.files then bundle.resolved name else bundle.copies name := by
  induction targets generalizing seen bundle copied with
  | nil =>
    cases h
    exact ⟨rfl, fun name => by simp, fun name => by simp⟩
  | cons pair rest ih =>
    unfold copyResolvedForTargets at h
    split at h
    next hseen =>
      obtain ⟨hafter, hfiles, hcopies⟩ := ih h
      exact ⟨hafter, fun name => (hfiles name).trans (exists_seen_iff hseen).symm, hcopies⟩
    next hseen =>
      dsimp only at h
      split at h
      next hnone =>
        obtain ⟨others, hrest, rfl⟩ := eq_of_map_ok h
        obtain ⟨hafter, hfiles, hcopies⟩ := ih hrest
        refine ⟨hafter, fun name => ?_, hcopies⟩
        rw [hfiles, exists_unseen_iff hseen]
        refine ⟨.inr, fun hname => hname.resolve_left ?_⟩
        rintro ⟨rfl, hsome⟩
        exact hsome hnone
      next file hfile =>
        split at h
        next => cases h
        next copies hwrite =>
          obtain ⟨others, hrest, rfl⟩ := eq_of_map_ok h
          obtain ⟨hafter, hfiles, hcopies⟩ := ih hrest
          dsimp only at hfiles hcopies
          refine ⟨hafter, fun name => ?_, fun name => ?_⟩
          · rw [List.mem_cons, hfiles, exists_unseen_iff hseen]
            refine or_congr_left ⟨fun hname => ⟨hname, ?_⟩, And.left⟩
            rw [hname, hfile]
            exact Option.some_ne_none file
          · rw [hcopies, write_ok hwrite]
            by_cases hname : name = resolvedManifestFilename pair
            · subst hname
              rw [if_pos List.mem_cons_self, hfile, Function.update_self]
              exact ite_self _
            · rw [Function.update_of_ne hname]
              simp only [List.mem_cons, hname, false_or]

/-! ## One change of access -/

/-- The bundle with the tenants and teams that some changes name. -/
def ensureAll (changes : List (Pair × List (String × Gmap.Policy))) (bundle : Bundle) : Bundle :=
  changes.foldl (fun bundle change => ensureTenantAndTeam change.1 bundle) bundle

theorem applyChanges_ok {upsert : Pair → String → Gmap.Policy → Except String Unit}
    {changes : List (Pair × List (String × Gmap.Policy))}
    (h : applyChanges upsert changes bundle = (after, .ok ())) : after = ensureAll changes bundle := by
  induction changes generalizing bundle with
  | nil =>
    cases h
    rfl
  | cons change rest ih =>
    unfold applyChanges at h
    split at h
    next => cases h
    next => exact ih h

/-- A bundle with the same files, whatever its tenants. -/
structure SameFiles (bundle other : Bundle) : Prop where
  root : other.root = bundle.root
  resolved : other.resolved = bundle.resolved
  copies : other.copies = bundle.copies

theorem sameFiles_addTenant (tenant : String) (bundle : Bundle) : SameFiles bundle (addTenant tenant bundle) := by
  unfold addTenant
  split <;> exact ⟨rfl, rfl, rfl⟩

theorem sameFiles_ensureTenantAndTeam (pair : Pair) (bundle : Bundle) :
    SameFiles bundle (ensureTenantAndTeam pair bundle) := by
  have hadd := sameFiles_addTenant pair.1 bundle
  unfold ensureTenantAndTeam
  dsimp only
  split
  next team _ =>
    split
    · exact hadd
    · have hteam := sameFiles_addTenant pair.1 (addTenant pair.1 bundle)
      exact ⟨hteam.root.trans hadd.root, hteam.resolved.trans hadd.resolved, hteam.copies.trans hadd.copies⟩
  next => exact hadd

/-- Adding tenants and teams writes no manifest. -/
theorem sameFiles_ensureAll (changes : List (Pair × List (String × Gmap.Policy))) (bundle : Bundle) :
    SameFiles bundle (ensureAll changes bundle) := by
  induction changes generalizing bundle with
  | nil => exact ⟨rfl, rfl, rfl⟩
  | cons change rest ih =>
    have hfirst := sameFiles_ensureTenantAndTeam change.1 bundle
    have hrest := ih (ensureTenantAndTeam change.1 bundle)
    exact ⟨hrest.root.trans hfirst.root, hrest.resolved.trans hfirst.resolved, hrest.copies.trans hfirst.copies⟩

/-- What a change of access that ends well did, where there was a change. -/
theorem applyAccessAndSync_ok {input : ApplyInput} {tenants : List TenantSelection}
    {accessChanges : List AccessChangeSelection} {copied : Copied}
    (hchanges : copyTargets (changesOf tenants accessChanges) ≠ [])
    (h : applyAccessAndSync input tenants accessChanges bundle = (after, .ok copied)) :
    ∃ synced, syncProject input.sync (ensureAll (changesOf tenants accessChanges) bundle) = (synced, .ok ())
      ∧ copyResolvedForTargets input.copy [] (copyTargets (changesOf tenants accessChanges)) synced
        = (after, .ok copied) := by
  unfold applyAccessAndSync at h
  dsimp only at h
  split at h
  next => cases h
  next ensured happly =>
    rw [if_neg hchanges, applyChanges_ok happly] at h
    split at h
    next => cases h
    next synced hsync => exact ⟨synced, hsync, h⟩

/-- From a mirror, what is copied is what was asked for exactly where the names of that are its
own. -/
theorem copiesRequested_iff {synced before : Bundle} {copy : Pair → WriteOutcome} {targets : List Pair}
    {copied : Copied} (hinj : ∀ pair pair', build pair = build pair' → pair = pair')
    (hmirror : Mirror build synced) (hbefore : synced.copies = before.copies)
    (h : copyResolvedForTargets copy [] targets synced = (after, .ok copied)) :
    CopiesRequested build targets before after copied ↔ TargetsApart targets synced := by
  obtain ⟨hafter, hfiles, hcopies⟩ := copyResolvedForTargets_ok h
  have hpairs : currentPairs after = currentPairs synced := by rw [hafter]; rfl
  have hcopied : ∀ pair ∈ targets, ∀ pair' ∈ currentPairs synced,
      resolvedManifestFilename pair' = resolvedManifestFilename pair →
      resolvedManifestFilename pair' ∈ copied.files := by
    intro pair hpair pair' hpair' hname
    refine (hfiles _).mpr ⟨pair, hpair, List.not_mem_nil, hname, ?_⟩
    rw [hmirror.of_pair pair' hpair']
    exact Option.some_ne_none _
  constructor
  · intro hrequested pair hpair pair' hpair' hname
    have hmem := hcopied pair hpair pair' hpair' hname
    obtain ⟨other, hother, -, -, hread⟩ := hrequested.only _ hmem
    rw [hcopies, if_pos hmem, hmirror.of_pair pair' hpair'] at hread
    rwa [hinj _ _ (ResolvedFile.manifest.inj (Option.some.inj hread))]
  · intro happart
    constructor
    case only =>
      intro name hname
      obtain ⟨pair, hpair, -, heq, hthere⟩ := (hfiles name).mp hname
      obtain ⟨pair', hpair', heq'⟩ := hmirror.of_file name hthere
      refine ⟨pair', happart pair hpair pair' hpair' (heq'.symm.trans heq), hpairs ▸ hpair', heq', ?_⟩
      rw [hcopies, if_pos hname, heq', hmirror.of_pair pair' hpair']
    case all => exact fun pair hpair hcurrent => hcopied pair hpair pair (hpairs ▸ hcurrent) rfl
    case frame =>
      intro name hname
      rw [hcopies, if_neg hname, hbefore]

/-- **One change of access** leaves a mirror and copies the manifests asked for exactly where no
other file was there, the names are apart, and so are those of what is asked for. -/
theorem mirror_iff_of_apply {input : ApplyInput} {tenants : List TenantSelection}
    {accessChanges : List AccessChangeSelection} {copied : Copied} {sources : Sources}
    (hchanges : copyTargets (changesOf tenants accessChanges) ≠ [])
    (hsources : input.sync.sources = .ok sources)
    (h : applyAccessAndSync input tenants accessChanges bundle = (after, .ok copied)) :
    Mirror (buildManifest bundle.root sources) after
        ∧ CopiesRequested (buildManifest bundle.root sources) (copyTargets (changesOf tenants accessChanges)) bundle
          after copied
      ↔ NoLeftover (ensureAll (changesOf tenants accessChanges) bundle)
        ∧ NamesApart (ensureAll (changesOf tenants accessChanges) bundle)
        ∧ TargetsApart (copyTargets (changesOf tenants accessChanges))
          (ensureAll (changesOf tenants accessChanges) bundle) := by
  obtain ⟨synced, hsync, hcopy⟩ := applyAccessAndSync_ok hchanges h
  obtain ⟨hafter, -, -⟩ := copyResolvedForTargets_ok hcopy
  obtain ⟨hsynced, -⟩ := syncProject_ok hsources hsync
  have hsame := sameFiles_ensureAll (changesOf tenants accessChanges) bundle
  have hmirror := mirror_iff_of_sync hsources hsync
  rw [hsame.root] at hmirror
  have hmirror' : Mirror (buildManifest bundle.root sources) after
      ↔ Mirror (buildManifest bundle.root sources) synced := by
    rw [hafter]
    exact ⟨fun h => ⟨h.of_pair, h.of_file⟩, fun h => ⟨h.of_pair, h.of_file⟩⟩
  have hcopies : synced.copies = bundle.copies := by rw [hsynced]; exact hsame.copies
  have hpairs : currentPairs synced = currentPairs (ensureAll (changesOf tenants accessChanges) bundle) := by
    rw [hsynced]
    rfl
  have htargets : TargetsApart (copyTargets (changesOf tenants accessChanges)) synced
      ↔ TargetsApart (copyTargets (changesOf tenants accessChanges))
        (ensureAll (changesOf tenants accessChanges) bundle) := by
    unfold TargetsApart
    rw [hpairs]
  rw [hmirror', hmirror, and_assoc]
  refine and_congr_right fun hleft => and_congr_right fun hapart => ?_
  rw [copiesRequested_iff (fun _ _ => buildManifest_inj) (hmirror.mpr ⟨hleft, hapart⟩) hcopies hcopy, htargets]

/-! ## Runs -/

inductive Step
  | addTenant (tenant : String)
  | removeTenant (tenant : String)
  | addTeam (tenant team : String)
  | removeTeam (tenant team : String)
  | ensure (pair : Pair)
  | remove (selection : TenantSelection)
  | sync (input : SyncInput)
  | apply (input : ApplyInput) (tenants : List TenantSelection) (accessChanges : List AccessChangeSelection)

def Step.exec : Step → Bundle → Bundle
  | .addTenant tenant => Project.addTenant tenant
  | .removeTenant tenant => Project.removeTenant tenant
  | .addTeam tenant team => Project.addTeam tenant team
  | .removeTeam tenant team => Project.removeTeam tenant team
  | .ensure pair => ensureTenantAndTeam pair
  | .remove selection => fun bundle => (removeTenantOrTeam selection bundle).1
  | .sync input => fun bundle => (syncProject input bundle).1
  | .apply input tenants accessChanges => fun bundle => (applyAccessAndSync input tenants accessChanges bundle).1

/-- What a step that resolves the project should leave behind, where it ends well. -/
def Step.Mirrors : Step → Bundle → Prop
  | .sync input, bundle => ∀ sources after, input.sources = .ok sources →
    syncProject input bundle = (after, .ok ()) → Mirror (buildManifest bundle.root sources) after
  | .apply input tenants accessChanges, bundle => ∀ sources after copied, input.sync.sources = .ok sources →
    copyTargets (changesOf tenants accessChanges) ≠ [] →
    applyAccessAndSync input tenants accessChanges bundle = (after, .ok copied) →
    Mirror (buildManifest bundle.root sources) after
      ∧ CopiesRequested (buildManifest bundle.root sources) (copyTargets (changesOf tenants accessChanges)) bundle
        after copied
  | _, _ => True

/-- The condition on the bundle before a step that resolves the project and ends well. -/
def Step.Clean : Step → Bundle → Prop
  | .sync input, bundle => (syncProject input bundle).2 = .ok () → NoLeftover bundle ∧ NamesApart bundle
  | .apply input tenants accessChanges, bundle =>
    (applyAccessAndSync input tenants accessChanges bundle).2.isOk = true →
    copyTargets (changesOf tenants accessChanges) ≠ [] →
    NoLeftover (ensureAll (changesOf tenants accessChanges) bundle)
      ∧ NamesApart (ensureAll (changesOf tenants accessChanges) bundle)
      ∧ TargetsApart (copyTargets (changesOf tenants accessChanges))
        (ensureAll (changesOf tenants accessChanges) bundle)
  | _, _ => True

theorem exists_sources_of_sync {input : SyncInput} (h : syncProject input bundle = (after, .ok ())) :
    ∃ sources, input.sources = .ok sources := by
  unfold syncProject at h
  split at h
  next => cases h
  next sources hsources => exact ⟨sources, hsources⟩

/-- **One step** leaves behind what it should exactly where the bundle was clean before. -/
theorem step_mirrors_iff (step : Step) (bundle : Bundle) : step.Mirrors bundle ↔ step.Clean bundle := by
  cases step with
  | sync input =>
    constructor
    · intro hmirrors hok
      obtain ⟨sources, hsources⟩ := exists_sources_of_sync (Prod.ext rfl hok)
      exact (mirror_iff_of_sync hsources (Prod.ext rfl hok)).mp (hmirrors sources _ hsources (Prod.ext rfl hok))
    · intro hclean sources after hsources hsync
      exact (mirror_iff_of_sync hsources hsync).mpr (hclean (congrArg Prod.snd hsync))
  | apply input tenants accessChanges =>
    constructor
    · intro hmirrors hok hchanges
      obtain ⟨copied, hcopied⟩ : ∃ copied, (applyAccessAndSync input tenants accessChanges bundle).2 = .ok copied := by
        cases hresult : (applyAccessAndSync input tenants accessChanges bundle).2 with
        | error message => rw [hresult] at hok; cases hok
        | ok copied => exact ⟨copied, rfl⟩
      have happly : applyAccessAndSync input tenants accessChanges bundle
          = ((applyAccessAndSync input tenants accessChanges bundle).1, .ok copied) := Prod.ext rfl hcopied
      obtain ⟨synced, hsync, -⟩ := applyAccessAndSync_ok hchanges happly
      obtain ⟨sources, hsources⟩ := exists_sources_of_sync hsync
      exact (mirror_iff_of_apply hchanges hsources happly).mp (hmirrors sources _ copied hsources hchanges happly)
    · intro hclean sources after copied hsources hchanges happly
      refine (mirror_iff_of_apply hchanges hsources happly).mpr (hclean ?_ hchanges)
      rw [happly]
      rfl
  | _ => exact Iff.rfl

/-- **The resolved manifests mirror the tenants** after every step of a run that resolves the
project, and only what is asked for is copied, exactly where the bundle is clean before each of
these steps. -/
theorem mirrors_iff (run : List Step) (start : Bundle) :
    (∀ step ∈ Run.steps Step.exec run start, step.2.Mirrors step.1)
      ↔ ∀ step ∈ Run.steps Step.exec run start, step.2.Clean step.1 :=
  forall₂_congr fun step _ => step_mirrors_iff step.2 step.1

/-! ## A manifest that is left -/

def emptyProject : Bundle := ⟨"demo", [], fun _ => none, fun _ => none⟩

def resolveAll : SyncInput := ⟨.ok ⟨[], []⟩, .ok (), fun _ => .done⟩

/-- A tenant that is resolved and removed keeps its manifest. -/
theorem keeps_removed_manifest : ¬ ∀ run start, ∀ step ∈ Run.steps Step.exec run start, step.2.Mirrors step.1 := by
  intro h
  have hlast := h ([.addTenant "acme", .sync resolveAll, .removeTenant "acme"] ++ [.sync resolveAll]) emptyProject _
    (Run.mem_steps_append Step.exec _ [] (.sync resolveAll) emptyProject)
  have hmirror := hlast ⟨[], []⟩ _ rfl rfl
  obtain ⟨pair, hpair, -⟩ := hmirror.of_file "acme.yaml" (by decide)
  exact absurd hpair List.not_mem_nil

end Project
