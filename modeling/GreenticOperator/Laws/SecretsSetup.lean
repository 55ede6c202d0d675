import GreenticOperator.Laws.QaPersist.Found
import GreenticOperator.Lib.Overlay
import GreenticOperator.SecretsSetup

/-!
# The secrets of a bundle, over runs of setups

The store of a bundle is written by the answers of setups, and filled by the seeds of the secrets that packs require.
So after a run a secret is the answer that was given last, or else what it was at the start, or else what it was
seeded with first (`secrets_of_run`): no seed and no placeholder hides an answer, whichever comes first. And a provider
whose secrets were set up once passes its check after every later run, and finds them under every team
(`ready_of_run`).
-/

namespace Secrets

open Json LastWins Overlay QaPersist SecretName SecretsGate

/-! ## Commands -/

/-- What is outside of the program. An apply of entries that fails for some of them has written others, in their
order. -/
structure Outside where
  toLowercase : Lowercase
  render : Value → String
  resolveVisibility : VisibilityResolver
  seed : SeedApply
  partly : ∀ store entries, ∃ landed : List SeedEntry, landed.Sublist entries
    ∧ (seed.apply store entries).1 = landed.foldl Store.put store

/-- Whose secrets they are. -/
structure Scope where
  env : String
  tenant : String
  team : Option String
  provider : String

def Scope.uri (scope : Scope) (key : String) : String :=
  canonicalSecretUri scope.env scope.tenant scope.team scope.provider key

/-- A setup, for the secrets of a provider. -/
def scopeOf (setup : SecretsSetup) (provider : String) : Scope := ⟨setup.env, setup.tenant, setup.team, provider⟩

/-- What changes the store: the secrets that a pack requires are set up, or answers are persisted. -/
inductive Command
  | ensure (setup : SecretsSetup) (broken : Broken) (pack : Except String PackArchive) (provider : String)
  | persist (writer : Writer) (opened : Except String Unit) (scope : Scope) (config : Answers)

namespace Command

/-- What a command leaves in the store, and whether it reports that it is done. -/
def outcome (outside : Outside) : Command → Store → Store × Bool
  | ensure setup broken pack provider, store =>
    let (after, result) := setup.ensurePackSecrets outside.toLowercase outside.seed broken pack provider store
    (after, result.isOk)
  | persist writer opened scope config, store =>
    let (after, result) := writer.run outside.render outside.resolveVisibility opened outside.seed scope.env scope.tenant
      scope.team scope.provider config store
    (after, result.isOk)

def exec (outside : Outside) (command : Command) (store : Store) : Store := (command.outcome outside store).1

def done (outside : Outside) (command : Command) (store : Store) : Bool := (command.outcome outside store).2

end Command

def pairOf (entry : SeedEntry) : String × List UInt8 := (entry.uri, entry.value)

/-- The entries of the answers that a writer persists. -/
def entriesOf (outside : Outside) (scope : Scope) (config : Answers) : Writer → List SeedEntry
  | .qaSecrets formSpec =>
    let ids := visibleQuestionIds outside.resolveVisibility formSpec config.value
    (visibleAnswers outside.render (config.value.asObject.getD []) ids).map
      (seedEntry scope.uri s!"from QA setup for {scope.provider}")
  | .allConfig pack =>
    let fields := config.value.asObject.getD []
    let entries := (allAnswers outside.render fields).map (seedEntry scope.uri s!"from setup-input for {scope.provider}")
    seedSecretRequirementAliases outside.render scope.uri fields entries scope.provider pack

/-- The entries that secrets which a pack requires are seeded with. -/
def seedsOf (outside : Outside) (setup : SecretsSetup) (pack : Except String PackArchive) (provider : String) :
    List SeedEntry :=
  match loadSecretKeysFromPack outside.toLowercase pack with
  | .error _ => []
  | .ok keys => keys.map fun key => setup.seedFor ((scopeOf setup provider).uri key)

/-- What a command has to put in. -/
def Command.offered (outside : Outside) : Command → List (String × List UInt8)
  | .ensure setup _ pack provider => (seedsOf outside setup pack provider).map pairOf
  | .persist writer _ scope config => (entriesOf outside scope config writer).map pairOf

/-- Seeds are filled in, answers are written over what is there. -/
def Command.change : Command → List (String × List UInt8) → Change String (List UInt8)
  | .ensure _ _ _ _, entries => .fill entries
  | .persist _ _ _ _, entries => .write entries

/-- A command puts in some of what it has, and all of it where it is done. -/
structure Makes (outside : Outside) (step : Store × Command) (change : Change String (List UInt8)) : Prop where
  some : ∃ entries, entries.Sublist (step.2.offered outside) ∧ change = step.2.change entries
  all : step.2.done outside step.1 = true → change = step.2.change (step.2.offered outside)

variable {outside : Outside} {store : Store}

theorem foldl_put (entries : List SeedEntry) (store : Store) :
    entries.foldl Store.put store = (Change.write (entries.map pairOf)).apply store := by
  rw [← foldl_update, List.foldl_map]
  rfl

/-! ## Answers -/

theorem applyEntries_eq (outside : Outside) (store : Store) (entries : List SeedEntry) (saved : List String) :
    ∃ landed : List SeedEntry, landed.Sublist entries
      ∧ (applyEntries outside.seed store entries saved).1 = landed.foldl Store.put store
      ∧ ((applyEntries outside.seed store entries saved).2.isOk = true → landed = entries) := by
  unfold applyEntries
  split
  next hnil => exact ⟨[], List.nil_sublist _, rfl, fun _ => hnil.symm⟩
  next =>
    dsimp only
    split
    next =>
      obtain ⟨landed, hlanded, hstore⟩ := outside.partly store entries
      exact ⟨landed, hlanded, hstore, fun h => absurd h Bool.false_ne_true⟩
    next hnone => exact ⟨entries, .refl _, outside.seed.written store entries (not_not.mp hnone), fun _ => rfl⟩

theorem lands_nothing {entries : List SeedEntry} {ok : Prop} (h : entries = []) (store : Store) :
    ∃ landed : List SeedEntry, landed.Sublist entries ∧ store = landed.foldl Store.put store
      ∧ (ok → landed = entries) := ⟨[], List.nil_sublist _, rfl, fun _ => h.symm⟩

theorem visibleAnswers_nil_fields (render : Value → String) (ids : List String) : visibleAnswers render [] ids = [] := by
  simp [visibleAnswers]

theorem aliases_nil_fields (render : Value → String) (uriOf : String → String) (provider : String)
    (pack : Option (Except String PackArchive)) : seedSecretRequirementAliases render uriOf [] [] provider pack = [] := by
  unfold seedSecretRequirementAliases
  split
  next => rfl
  next =>
    simp [secretRequirementAliases, matchedValue]

/-- A writer writes some of its entries, and all where it is done. -/
theorem Writer.run_eq (outside : Outside) (writer : Writer) (opened : Except String Unit) (scope : Scope)
    (config : Answers) (store : Store) : ∃ landed : List SeedEntry, landed.Sublist (entriesOf outside scope config writer)
      ∧ (writer.run outside.render outside.resolveVisibility opened outside.seed scope.env scope.tenant scope.team
          scope.provider config store).1 = landed.foldl Store.put store
      ∧ ((writer.run outside.render outside.resolveVisibility opened outside.seed scope.env scope.tenant scope.team
          scope.provider config store).2.isOk = true → landed = entriesOf outside scope config writer) := by
  cases writer with
  | qaSecrets formSpec =>
    unfold Writer.run persistQaSecrets entriesOf
    dsimp only
    split
    next hids =>
      rw [hids]
      exact lands_nothing rfl store
    next =>
      split
      next hobject =>
        rw [hobject, Option.getD_none, visibleAnswers_nil_fields]
        exact lands_nothing rfl store
      next fields hobject =>
        rw [hobject, Option.getD_some]
        exact applyEntries_eq ..
  | allConfig pack =>
    unfold Writer.run persistAllConfigAsSecrets entriesOf
    dsimp only
    split
    next hobject =>
      rw [hobject, Option.getD_none]
      exact lands_nothing (aliases_nil_fields ..) store
    next fields hobject =>
      rw [hobject, Option.getD_some]
      split
      next hnil =>
        rw [hnil]
        exact lands_nothing (aliases_nil_fields ..) store
      next =>
        split
        next => exact ⟨[], List.nil_sublist _, rfl, fun h => absurd h Bool.false_ne_true⟩
        next => exact applyEntries_eq ..

/-! ## Seeds -/

theorem seedFor_uri (setup : SecretsSetup) (uri : String) : (setup.seedFor uri).uri = uri := by
  unfold SecretsSetup.seedFor
  cases hseed : setup.seeds.map.lookup uri with
  | none => rfl
  | some entry =>
    obtain ⟨front, back, hmap, -⟩ := List.lookup_eq_some_iff.mp hseed
    exact setup.seeds.keyed (uri, entry) (hmap ▸ List.mem_append_right _ List.mem_cons_self)

/-- What is looked for and not there. -/
theorem missing_eq {setup : SecretsSetup} {broken : Broken} {provider : String} {keys : List String}
    {missing : List SeedEntry} (h : setup.missing broken provider store keys = .ok missing) :
    missing = (keys.map fun key => setup.seedFor ((scopeOf setup provider).uri key)).filter
      fun entry => (store entry.uri).isNone := by
  induction keys generalizing missing with
  | nil => exact (Except.ok.inj h).symm
  | cons key keys ih =>
    unfold SecretsSetup.missing at h
    dsimp only at h
    split at h
    next => cases h
    next =>
      rw [List.map_cons, List.filter_cons, seedFor_uri]
      split at h
      next text htext =>
        rw [Scope.uri, scopeOf, htext]
        exact ih h
      next hnone =>
        cases hrest : setup.missing broken provider store keys with
        | error err =>
          rw [hrest] at h
          cases h
        | ok rest =>
          rw [hrest] at h
          rw [Scope.uri, scopeOf, hnone, ← Except.ok.inj h]
          exact congrArg _ (ih hrest)

/-- What is missing is written as what is required is filled in. -/
theorem write_missing (entries : List SeedEntry) (store : Store) :
    (entries.filter fun entry => (store entry.uri).isNone).foldl Store.put store
      = (Change.fill (entries.map pairOf)).apply store := by
  have hpairs : (entries.filter fun entry => (store entry.uri).isNone).map pairOf
      = (entries.map pairOf).filter fun pair => (store pair.1).isNone := by
    rw [List.filter_map]
    rfl
  have hmissing : ∀ pair ∈ (entries.map pairOf).filter fun pair => (store pair.1).isNone, store pair.1 = none := by
    intro pair hpair
    exact Option.isNone_iff_eq_none.mp (List.mem_filter.mp hpair).2
  rw [foldl_put, hpairs, write_eq_fill hmissing, fill_filter]

/-- A setup fills in some of the seeds, and all where it is done. -/
theorem ensure_eq (outside : Outside) (setup : SecretsSetup) (broken : Broken) (pack : Except String PackArchive)
    (provider : String) (store : Store) : ∃ landed : List SeedEntry,
      landed.Sublist (seedsOf outside setup pack provider)
      ∧ (setup.ensurePackSecrets outside.toLowercase outside.seed broken pack provider store).1
        = (Change.fill (landed.map pairOf)).apply store
      ∧ ((setup.ensurePackSecrets outside.toLowercase outside.seed broken pack provider store).2.isOk = true →
        landed = seedsOf outside setup pack provider) := by
  have hnothing : (Change.fill (([] : List SeedEntry).map pairOf)).apply store = store := funext fun _ => Option.or_none
  unfold SecretsSetup.ensurePackSecrets seedsOf
  cases loadSecretKeysFromPack outside.toLowercase pack with
  | error err => exact ⟨[], List.nil_sublist _, hnothing.symm, fun h => absurd h Bool.false_ne_true⟩
  | ok keys =>
    dsimp only
    split
    next => exact ⟨[], List.nil_sublist _, hnothing.symm, fun h => absurd h Bool.false_ne_true⟩
    next missing hmissing =>
      have hall := missing_eq hmissing
      split
      next hnil =>
        refine ⟨_, .refl _, ?_, fun _ => rfl⟩
        rw [← write_missing, ← hall, hnil]
        rfl
      next =>
        split
        next =>
          obtain ⟨landed, hlanded, hstore⟩ := outside.partly store missing
          rw [hall] at hlanded
          refine ⟨landed, hlanded.trans List.filter_sublist, ?_, fun h => absurd h Bool.false_ne_true⟩
          have hnew : ∀ pair ∈ landed.map pairOf, store pair.1 = none := by
            intro pair hpair
            obtain ⟨entry, hentry, rfl⟩ := List.mem_map.mp hpair
            exact Option.isNone_iff_eq_none.mp (List.mem_filter.mp (hlanded.subset hentry)).2
          rw [hstore, foldl_put, write_eq_fill hnew]
        next hnone =>
          refine ⟨_, .refl _, ?_, fun _ => rfl⟩
          rw [outside.seed.written store missing (not_not.mp hnone), hall, write_missing]

/-! ## Runs -/

/-- **A command changes the store** by what it puts in. -/
theorem exists_change (outside : Outside) (store : Store) (command : Command) : ∃ change,
    Makes outside (store, command) change ∧ command.exec outside store = change.apply store := by
  cases command with
  | ensure setup broken pack provider =>
    obtain ⟨landed, hlanded, hstore, hall⟩ := ensure_eq outside setup broken pack provider store
    refine ⟨.fill (landed.map pairOf), ⟨⟨_, hlanded.map _, rfl⟩, fun hdone => ?_⟩, hstore⟩
    rw [hall hdone]
    rfl
  | persist writer opened scope config =>
    obtain ⟨landed, hlanded, hstore, hall⟩ := Writer.run_eq outside writer opened scope config store
    refine ⟨.write (landed.map pairOf), ⟨⟨_, hlanded.map _, rfl⟩, fun hdone => ?_⟩, ?_⟩
    · rw [hall hdone]
      rfl
    · rw [← foldl_put]
      exact hstore

theorem exists_changes (outside : Outside) (commands : List Command) (store : Store) : ∃ changes,
    List.Forall₂ (Makes outside) (Run.steps (Command.exec outside) commands store) changes
    ∧ Run.run (Command.exec outside) commands store = Run.run Change.apply changes store := by
  induction commands generalizing store with
  | nil => exact ⟨[], .nil, rfl⟩
  | cons command commands ih =>
    obtain ⟨change, hmakes, hexec⟩ := exists_change outside store command
    obtain ⟨changes, hchanges, hrun⟩ := ih (command.exec outside store)
    refine ⟨change :: changes, .cons hmakes hchanges, ?_⟩
    rw [Run.run, List.foldl_cons]
    rw [Run.run] at hrun
    rw [hrun, hexec]
    rfl

/-- The changes of a run whose commands are all done. -/
theorem changes_of_done {commands : List Command} {changes : List (Change String (List UInt8))}
    (h : List.Forall₂ (Makes outside) (Run.steps (Command.exec outside) commands store) changes)
    (hdone : ∀ step ∈ Run.steps (Command.exec outside) commands store, step.2.done outside step.1 = true) :
    changes = commands.map fun command => command.change (command.offered outside) := by
  induction commands generalizing store changes with
  | nil =>
    cases h
    rfl
  | cons command commands ih =>
    cases h with
    | cons hmakes hrest =>
      rw [List.map_cons, hmakes.all (hdone _ List.mem_cons_self),
        ih hrest fun step hstep => hdone step (List.mem_cons_of_mem _ hstep)]

/-- **After every run** a secret is the answer that was written last, or what it was at the start, or what it was seeded
with first. Where every command is done, all answers are written and all seeds are filled in. -/
theorem secrets_of_run (outside : Outside) (commands : List Command) (store : Store) : ∃ changes,
    List.Forall₂ (Makes outside) (Run.steps (Command.exec outside) commands store) changes
    ∧ (∀ uri, Run.run (Command.exec outside) commands store uri
        = (last (written changes) uri).or ((store uri).or (filled changes uri)))
    ∧ ((∀ step ∈ Run.steps (Command.exec outside) commands store, step.2.done outside step.1 = true) →
        changes = commands.map fun command => command.change (command.offered outside)) := by
  obtain ⟨changes, hmakes, hrun⟩ := exists_changes outside commands store
  refine ⟨changes, hmakes, fun uri => ?_, fun hdone => changes_of_done hmakes hdone⟩
  rw [hrun, run_eq]

/-! ## Ready providers -/

variable {setup : SecretsSetup} {broken : Broken} {pack : Except String PackArchive} {provider : String}

/-- A setup that is done has put in what the pack requires. -/
theorem required_of_done (hdone : (Command.ensure setup broken pack provider).done outside store = true) :
    ∃ keys, loadSecretKeysFromPack outside.toLowercase pack = .ok keys ∧ ∀ key ∈ keys,
      ((Command.ensure setup broken pack provider).exec outside store ((scopeOf setup provider).uri key)).isSome := by
  obtain ⟨landed, -, hstore, hall⟩ := ensure_eq outside setup broken pack provider store
  cases hkeys : loadSecretKeysFromPack outside.toLowercase pack with
  | error err =>
    rw [Command.done, Command.outcome, SecretsSetup.ensurePackSecrets, hkeys] at hdone
    cases hdone
  | ok keys =>
    refine ⟨keys, rfl, fun key hkey => ?_⟩
    have hoffered : (scopeOf setup provider).uri key ∈ (landed.map pairOf).map Prod.fst := by
      rw [hall hdone, seedsOf, hkeys, List.map_map, List.map_map, List.mem_map]
      exact ⟨key, hkey, seedFor_uri setup _⟩
    rw [Command.exec, Command.outcome]
    dsimp only
    rw [hstore, Change.apply, Option.isSome_or, last_isSome.mpr hoffered, Bool.or_true]

theorem kept_of_run (outside : Outside) (commands : List Command) {uri : String} (h : (store uri).isSome) :
    (Run.run (Command.exec outside) commands store uri).isSome := by
  obtain ⟨changes, -, hrun⟩ := exists_changes outside commands store
  rw [hrun]
  exact isSome_run changes h

theorem read_of_isSome {uri : String} (hbroken : broken uri = none) (h : (store uri).isSome) :
    ∃ value, SecretsClient.read broken store uri = .ok value := by
  obtain ⟨value, hvalue⟩ := Option.isSome_iff_exists.mp h
  refine ⟨value, ?_⟩
  rw [SecretsClient.read, hbroken, hvalue]

/-- The check of a key that is there reports nothing. -/
theorem missingOf_eq_nil {SecretError : Type} {manager : SecretsManager SecretError} {scope : Scope} {key : String}
    (hprovider : scope.provider ≠ "") {value : List UInt8} (h : manager (scope.uri key) = .ok value) :
    missingOf manager scope.env scope.tenant scope.team scope.provider key = [] := by
  have hcandidates : secretUriCandidates scope.env scope.tenant (canonicalTeam scope.team) key scope.provider
      = [scope.uri key] := by
    have hmem := @mem_candidates_iff scope.env scope.tenant scope.team scope.provider key
    unfold secretUriCandidates at hmem ⊢
    rw [List.mem_singleton] at hmem
    rw [Scope.uri, hmem.mpr hprovider]
  unfold missingOf checkKey
  rw [hcandidates, probeCandidates, h]
  rfl

/-! ### Other teams -/

theorem canonicalTeam_ne_empty (team : Option String) : canonicalTeam team ≠ "" := by
  unfold canonicalTeam
  cases hfilter : (team.map Text.trim).filter fun trimmed =>
      trimmed ≠ "" ∧ !Text.eqIgnoreAsciiCase trimmed "default" with
  | none => decide
  | some trimmed =>
    have hkept := (Option.filter_eq_some_iff.mp hfilter).2
    exact (of_decide_eq_true hkept).1

/-- A scope whose parts are segments of a path. -/
structure Scope.Segments (scope : Scope) : Prop where
  env : '/' ∉ scope.env.toList
  tenant : '/' ∉ scope.tenant.toList
  team : '/' ∉ (canonicalTeam scope.team).toList
  provider : '/' ∉ scope.provider.toList
  named : scope.provider ≠ ""

/-- Where nothing is under a team, it is looked for under the tenant. -/
theorem fallback_uri {scope : Scope} (h : scope.Segments) (hteam : canonicalTeam scope.team ≠ "_") (key : String) :
    teamWildcardFallback (scope.uri key) = some ({ scope with team := none }.uri key) := by
  have hcut : Text.stripPrefix secretsScheme (scope.uri key) = some (Text.joinWith '/'
      [scope.env, scope.tenant, canonicalTeam scope.team, scope.provider, canonicalSecretName key]) := by
    refine Text.stripPrefix_eq_some_iff.mpr ?_
    rw [Scope.uri, canonicalSecretUri, if_neg h.named]
  have hpieces : ∀ piece ∈ [scope.env, scope.tenant, canonicalTeam scope.team, scope.provider, canonicalSecretName key],
      '/' ∉ piece.toList := by
    simpa using ⟨h.env, h.tenant, h.team, h.provider, slash_not_mem_canonicalSecretName key⟩
  have hnone : canonicalTeam none = "_" := rfl
  unfold teamWildcardFallback
  rw [hcut, Option.bind_some, Text.split_joinWith (List.cons_ne_nil _ _) hpieces]
  dsimp only
  rw [if_neg (not_or.mpr ⟨hteam, canonicalTeam_ne_empty _⟩), Scope.uri, canonicalSecretUri, if_neg h.named, hnone]

/-- What is there for a tenant is read under every team. -/
theorem read_of_tenant {SecretError : Type} {manager : SecretsManager SecretError} {scope : Scope} (h : scope.Segments)
    {key : String} {value : List UInt8} (hvalue : manager ({ scope with team := none }.uri key) = .ok value) :
    ∃ found, LoggingSecretsManager.read manager (scope.uri key) = .ok found := by
  unfold LoggingSecretsManager.read
  cases hown : manager (scope.uri key) with
  | ok found => exact ⟨found, rfl⟩
  | error err =>
    have hteam : canonicalTeam scope.team ≠ "_" := by
      intro hteam
      have hsame : scope.uri key = { scope with team := none }.uri key := by
        rw [Scope.uri, Scope.uri, canonicalSecretUri, canonicalSecretUri, hteam]
        rfl
      rw [hsame, hvalue] at hown
      cases hown
    refine ⟨value, ?_⟩
    rw [fallback_uri h hteam]
    dsimp only
    rw [hvalue]

/-! ### After a run -/

/-- The secrets of a bundle after a run, as the provider reads them. -/
def managerAfter (outside : Outside) (reads : Broken) (commands : List Command) (store : Store) :
    SecretsManager SecretError := SecretsClient.read reads (Run.run (Command.exec outside) commands store)

/-- **A provider whose secrets were set up is ready** after every later run: its check reports nothing missing, each
secret that its pack requires is read, and where it was set up for the tenant, under every team. -/
theorem ready_of_run {before : List Command} (hprovider : provider ≠ "")
    (hdone : (Command.ensure setup broken pack provider).done outside
      (Run.run (Command.exec outside) before store) = true)
    {reads : Broken} (hreads : ∀ key, reads ((scopeOf setup provider).uri key) = none) (later : List Command) :
    checkProviderSecrets outside.toLowercase (.ok ())
        (managerAfter outside reads (before ++ .ensure setup broken pack provider :: later) store)
        setup.env setup.tenant setup.team pack provider = .ok none
    ∧ ∃ keys, loadSecretKeysFromPack outside.toLowercase pack = .ok keys ∧ ∀ key ∈ keys,
      (∃ value, managerAfter outside reads (before ++ .ensure setup broken pack provider :: later) store
        ((scopeOf setup provider).uri key) = .ok value)
      ∧ (setup.team = none → ∀ team, Scope.Segments ⟨setup.env, setup.tenant, team, provider⟩ →
        ∃ value, LoggingSecretsManager.read
          (managerAfter outside reads (before ++ .ensure setup broken pack provider :: later) store)
          (Scope.uri ⟨setup.env, setup.tenant, team, provider⟩ key) = .ok value) := by
  obtain ⟨keys, hkeys, hrequired⟩ := required_of_done hdone
  have hrun : Run.run (Command.exec outside) (before ++ .ensure setup broken pack provider :: later) store
      = Run.run (Command.exec outside) later ((Command.ensure setup broken pack provider).exec outside
        (Run.run (Command.exec outside) before store)) := by
    rw [Run.run, List.foldl_append, List.foldl_cons]
    rfl
  have hread : ∀ key ∈ keys, ∃ value, managerAfter outside reads
      (before ++ .ensure setup broken pack provider :: later) store ((scopeOf setup provider).uri key) = .ok value := by
    intro key hkey
    refine read_of_isSome (hreads key) ?_
    rw [hrun]
    exact kept_of_run outside later (hrequired key hkey)
  refine ⟨?_, keys, hkeys, fun key hkey => ⟨hread key hkey, fun hteam team hsegments => ?_⟩⟩
  · have hnothing : (keys.flatMap fun key => missingOf
        (managerAfter outside reads (before ++ .ensure setup broken pack provider :: later) store)
        setup.env setup.tenant setup.team provider key) = [] := by
      refine List.flatMap_eq_nil_iff.mpr fun key hkey => ?_
      obtain ⟨value, hvalue⟩ := hread key hkey
      exact @missingOf_eq_nil _ _ (scopeOf setup provider) key hprovider value hvalue
    unfold checkProviderSecrets
    rw [hkeys]
    by_cases hnil : keys = []
    · rw [hnil]
      rfl
    · simp only [hnothing, hnil, if_false, if_true, bind, Except.bind]
      rfl
  · obtain ⟨value, hvalue⟩ := hread key hkey
    refine @read_of_tenant _ _ ⟨setup.env, setup.tenant, team, provider⟩ hsegments key value ?_
    rw [← hvalue, scopeOf, hteam]

/-- A store that takes every entry. -/
def calm : Outside where
  toLowercase := id
  render _ := ""
  resolveVisibility _ _ _ := none
  seed := .all
  partly _ entries := ⟨entries, .refl _, rfl⟩

/-- A pack that requires a token. -/
def slackPack : Except String PackArchive :=
  .ok ⟨fun path => if path = "assets/secret-requirements.json" then
    .found (.ok (.array [.object [("key", .string "bot_token")]])) else .notFound, .notFound⟩

def slackSetup : SecretsSetup := ⟨"dev", "acme", none, .collect []⟩

def slackAnswers : Answers where
  value := .object [("bot_token", .string "xoxb")]
  distinct fields h := by
    cases h
    decide

/-- The token is seeded, and then given. -/
theorem ready_shown : checkProviderSecrets id (.ok ())
    (managerAfter calm (fun _ => none) ([] ++ .ensure slackSetup (fun _ => none) slackPack "messaging-slack" ::
      [.persist (.allConfig none) (.ok ()) (scopeOf slackSetup "messaging-slack") slackAnswers]) (fun _ => none))
    "dev" "acme" none slackPack "messaging-slack" = .ok none := by
  have hdone : (Command.ensure slackSetup (fun _ => none) slackPack "messaging-slack").done calm
      (Run.run (Command.exec calm) [] fun _ => none) = true := by decide +kernel
  exact (ready_of_run (by decide) hdone (fun _ => rfl)
    [.persist (.allConfig none) (.ok ()) (scopeOf slackSetup "messaging-slack") slackAnswers]).1

end Secrets
