import GreenticOperator.Deployments.Drain
import GreenticOperator.Lib.Run

/-!
# What completing a drain does to the revisions

The check of a complete-drain request and its transition are two steps, and nothing in the
second looks at the lifecycle again. `Waits` is the invariant that the check establishes: the
revision of every request between its two halves is draining. It holds along a run as long as
no step in between takes such a revision out of that lifecycle, and then every transition of
a complete-drain request completes a drain (`completes_of_undisturbed`). A run with a step
that does is `rewarmed_revision_archived`.
-/

namespace Deployments

variable {Request : Type} {lib : Library Request}

/-- The lifecycle of the first revision with an identifier. -/
def Environment.lifecycleOf (env : Environment) (target : Ulid) : Option RevisionLifecycle :=
  (env.revisions.find? (·.revisionId == target)).map Revision.lifecycle

/-- The lifecycle of a revision of an environment, where both are there. -/
def EnvironmentStore.lifecycleOf (store : EnvironmentStore) (target : String × Ulid) :
    Option RevisionLifecycle :=
  match store target.1 with
  | .ok env => env.lifecycleOf target.2
  | .error _ => none

/-- The revision that a payload names. -/
def Library.target (lib : Library Request) (payload : RevisionTransitionPayload) :
    Option (String × Ulid) :=
  match lib.envId payload.environmentId, lib.ulid payload.revisionId with
  | .ok envId, .ok ulid => some (envId, ulid)
  | _, _ => none

/-- What the comments of the source say of `archive`: a draining revision becomes inactive, a
live one is archived, and no other revision changes. -/
structure Library.Documented (lib : Library Request) : Prop where
  draining : ∀ store payload store' outcome target, lib.target payload = some target →
    lib.archive store payload = .ok (store', outcome) →
    store.lifecycleOf target = some .Draining → store'.lifecycleOf target = some .Inactive
  live : ∀ store payload store' outcome target, lib.target payload = some target →
    lib.archive store payload = .ok (store', outcome) →
    store.lifecycleOf target ∈ [some .Ready, some .Staged, some .Warming] →
    store'.lifecycleOf target = some .Archived
  others : ∀ store payload store' outcome target, lib.target payload = some target →
    lib.archive store payload = .ok (store', outcome) →
    ∀ other, other ≠ target → store'.lifecycleOf other = store.lifecycleOf other

/-! ## What is asked of a step -/

/-- A transition of a complete-drain request takes its revision from draining to inactive,
and archives nothing. -/
def CompletesDrain (lib : Library Request) (step : System × Step Request) : Prop :=
  ∀ id payload store' outcome, step.2 = .finish id → step.1.checked id = some payload →
    lib.archive step.1.store payload = .ok (store', outcome) →
    (∃ target, lib.target payload = some target ∧ step.1.store.lifecycleOf target = some .Draining
      ∧ store'.lifecycleOf target = some .Inactive)
    ∧ ∀ other, store'.lifecycleOf other = some .Archived →
        step.1.store.lifecycleOf other = some .Archived

/-- A step that leaves alone the draining revisions of the requests that wait: another
request does not take one out of its lifecycle, and no two complete-drain requests of one
revision are between their halves when one of them goes on. -/
def Undisturbed (lib : Library Request) (step : System × Step Request) : Prop :=
  match step.2 with
  | .preflight _ _ => True
  | .finish id => ∀ payload other payload', step.1.checked id = some payload →
      step.1.checked other = some payload' → other ≠ id → lib.target payload' ≠ lib.target payload
  | .other request => ∀ id payload target store' outcome, step.1.checked id = some payload →
      lib.target payload = some target → step.1.store.lifecycleOf target = some .Draining →
      lib.transact request step.1.store = .ok (store', outcome) →
      store'.lifecycleOf target = some .Draining

/-- Every request between its two halves waits for a draining revision. -/
def Waits (lib : Library Request) (s : System) : Prop :=
  ∀ id payload, s.checked id = some payload →
    ∃ target, lib.target payload = some target ∧ s.store.lifecycleOf target = some .Draining

/-! ## The check -/

theorem precheck_ok_iff {env : Environment} {revisionId : String} :
    precheckDrainCompletable lib env revisionId = .ok () ↔
      ∃ target, lib.ulid revisionId = .ok target ∧ env.lifecycleOf target = some .Draining := by
  unfold precheckDrainCompletable Environment.lifecycleOf
  cases hulid : lib.ulid revisionId with
  | error e => simp
  | ok target =>
    cases hfind : env.revisions.find? (·.revisionId == target) with
    | none => simp [hfind]
    | some rev =>
      by_cases hdraining : rev.lifecycle = .Draining <;> simp [hfind, hdraining]

/-- A request passes the check exactly when the revision it names is draining. -/
theorem preflight_ok_iff {store : EnvironmentStore} {payload : RevisionTransitionPayload} :
    preflight lib store payload = .ok () ↔
      ∃ target, lib.target payload = some target ∧ store.lifecycleOf target = some .Draining := by
  unfold preflight Library.target EnvironmentStore.lifecycleOf
  cases henv : lib.envId payload.environmentId with
  | error e => simp
  | ok envId =>
    dsimp only
    cases hload : store envId with
    | error e => cases lib.ulid payload.revisionId <;> simp [hload]
    | ok env =>
      have hmap : (precheckDrainCompletable lib env payload.revisionId).mapError (opErrorResponse lib)
          = .ok () ↔ precheckDrainCompletable lib env payload.revisionId = .ok () := by
        cases precheckDrainCompletable lib env payload.revisionId <;> simp [Except.mapError]
      rw [hmap, precheck_ok_iff]
      cases hulid : lib.ulid payload.revisionId <;> simp [hload]

/-! ## Along a run -/

theorem exec_preflight (s : System) (id : Nat) (payload : RevisionTransitionPayload) :
    exec lib (.preflight id payload) s = s ∨
      preflight lib s.store payload = .ok () ∧
        exec lib (.preflight id payload) s
          = { s with checked := fun i => if i = id then some payload else s.checked i } := by
  dsimp only [exec]
  cases s.checked id with
  | some _ => exact .inl rfl
  | none =>
    cases preflight lib s.store payload with
    | error _ => exact .inl rfl
    | ok _ => exact .inr ⟨rfl, rfl⟩

/-- What an operation of the library leaves: what it found, or what it succeeded with. -/
theorem runBlocking_store (lib : Library Request)
    (op : EnvironmentStore → Except OpError (EnvironmentStore × Json.Value)) (store : EnvironmentStore) :
    (runBlocking lib op store).1 = store ∨
      ∃ store' outcome, op store = .ok (store', outcome) ∧ (runBlocking lib op store).1 = store' := by
  unfold runBlocking
  cases op store with
  | error _ => exact .inl rfl
  | ok result => exact .inr ⟨result.1, result.2, rfl, rfl⟩

/-- **One step** that leaves the waiting revisions alone keeps them waiting. -/
theorem waits_exec (hlib : lib.Documented) {s : System} {op : Step Request}
    (hstep : Undisturbed lib (s, op)) (hwaits : Waits lib s) : Waits lib (exec lib op s) := by
  cases op with
  | preflight id payload =>
    obtain h | ⟨hok, h⟩ := @exec_preflight _ lib s id payload
    · rw [h]
      exact hwaits
    · rw [h]
      intro i payload' hchecked
      by_cases hi : i = id
      · simp only [hi, ↓reduceIte, Option.some.injEq] at hchecked
        rw [← hchecked]
        exact preflight_ok_iff.mp hok
      · simp only [hi, ↓reduceIte] at hchecked
        exact hwaits i payload' hchecked
  | finish id =>
    dsimp only [exec]
    cases hown : s.checked id with
    | none => exact hwaits
    | some payload =>
      intro i payload' hchecked
      by_cases hi : i = id
      · simp only [hi, ↓reduceIte, reduceCtorEq] at hchecked
      · simp only [hi, ↓reduceIte] at hchecked
        obtain ⟨target, htarget, hdraining⟩ := hwaits i payload' hchecked
        obtain ⟨own, hownTarget, -⟩ := hwaits id payload hown
        have hne : target ≠ own := by
          intro heq
          exact hstep payload i payload' hown hchecked hi (by rw [htarget, hownTarget, heq])
        refine ⟨target, htarget, ?_⟩
        change EnvironmentStore.lifecycleOf (finish lib payload s.store).1 target = _
        unfold finish
        obtain hsame | ⟨store', outcome, harchive, hstore⟩ :=
          runBlocking_store lib (fun store => lib.archive store payload) s.store
        · rw [hsame]
          exact hdraining
        · rw [hstore, hlib.others _ _ _ _ _ hownTarget harchive target hne]
          exact hdraining
  | other request =>
    dsimp only [exec]
    intro i payload hchecked
    obtain ⟨target, htarget, hdraining⟩ := hwaits i payload hchecked
    refine ⟨target, htarget, ?_⟩
    change EnvironmentStore.lifecycleOf (runBlocking lib (lib.transact request) s.store).1 target = _
    obtain hsame | ⟨store', outcome, htransact, hstore⟩ :=
      runBlocking_store lib (lib.transact request) s.store
    · rw [hsame]
      exact hdraining
    · rw [hstore]
      exact hstep i payload target store' outcome hchecked htarget hdraining htransact

theorem completesDrain_of_waits (hlib : lib.Documented) {s : System} {op : Step Request}
    (hwaits : Waits lib s) : CompletesDrain lib (s, op) := by
  intro id payload store' outcome _ hchecked harchive
  obtain ⟨target, htarget, hdraining⟩ := hwaits id payload hchecked
  have hinactive : store'.lifecycleOf target = some .Inactive :=
    hlib.draining _ _ _ _ _ htarget harchive hdraining
  refine ⟨⟨target, htarget, hdraining, hinactive⟩, fun other hother => ?_⟩
  by_cases heq : other = target
  · rw [heq, hinactive] at hother
    cases hother
  · rw [← hlib.others _ _ _ _ _ htarget harchive other heq]
    exact hother

/-- **Complete-drain only completes drains** in every run, of any number of requests in any
order, whose steps leave the waiting revisions alone. -/
theorem completes_of_undisturbed (hlib : lib.Documented) (store : EnvironmentStore)
    (ops : List (Step Request))
    (h : ∀ step ∈ Run.steps (exec lib) ops (idle store), Undisturbed lib step) :
    ∀ step ∈ Run.steps (exec lib) ops (idle store), CompletesDrain lib step := by
  have hidle : Waits lib (idle store) := fun _ _ hchecked => by cases hchecked
  have hstep : ∀ s op, Undisturbed lib (s, op) → Waits lib s → Waits lib (exec lib op s) :=
    fun _ _ hstep hwaits => waits_exec hlib hstep hwaits
  have hwaits := (Run.invariant_run hidle hstep h).2
  exact fun step hmem => completesDrain_of_waits hlib (hwaits step hmem)

/-! ## A library as documented -/

/-- The environment with another lifecycle of one revision. -/
def Environment.setLifecycle (env : Environment) (target : Ulid) (next : RevisionLifecycle) :
    Environment :=
  ⟨env.revisions.map fun rev => if rev.revisionId = target then { rev with lifecycle := next } else rev⟩

theorem Environment.lifecycleOf_setLifecycle (env : Environment) (target other : Ulid)
    (next : RevisionLifecycle) :
    (env.setLifecycle target next).lifecycleOf other
      = if other = target then (env.lifecycleOf target).map fun _ => next
        else env.lifecycleOf other := by
  unfold Environment.lifecycleOf Environment.setLifecycle
  induction env.revisions with
  | nil => simp
  | cons rev revs ih =>
    simp only [List.map_cons, List.find?_cons]
    by_cases hrev : rev.revisionId = target <;> by_cases hother : rev.revisionId = other <;> grind

/-- The identifier of 26 base-32 digits. -/
def readUlid (s : String) : Except String Ulid :=
  let digits := s.toList.map fun c => "0123456789ABCDEFGHJKMNPQRSTVWXYZ".toList.idxOf c.toUpper
  if digits.length = 26 ∧ digits.all (· < 32) then
    .ok (digits.foldl (fun n d => n * 32 + BitVec.ofNat 128 d) 0)
  else .error "invalid"

/-- An operation that moves the lifecycle of the revision it names by a table. -/
def walk (table : RevisionLifecycle → Option RevisionLifecycle) (store : EnvironmentStore)
    (payload : RevisionTransitionPayload) : Except OpError (EnvironmentStore × Json.Value) :=
  match readUlid payload.revisionId, store payload.environmentId with
  | .ok target, .ok env =>
    match (env.lifecycleOf target).bind table with
    | some next =>
      .ok (fun envId =>
        if envId = payload.environmentId then .ok (env.setLifecycle target next) else store envId,
        .null)
    | none => .error ⟨.Conflict, "transition not allowed"⟩
  | .ok _, .error e => .error e
  | .error e, _ => .error ⟨.InvalidArgument, e⟩

def archiveTable : RevisionLifecycle → Option RevisionLifecycle
  | .Draining => some .Inactive
  | .Ready | .Staged | .Warming => some .Archived
  | _ => none

def warmTable : RevisionLifecycle → Option RevisionLifecycle
  | .Inactive | .Staged => some .Warming
  | _ => none

/-- A library with `archive` as the comments describe it, whose other requests warm a
revision. -/
def tableLibrary : Library RevisionTransitionPayload where
  envId := .ok
  ulid := readUlid
  archive := walk archiveTable
  transact payload store := walk warmTable store payload
  kindText _ := "conflict"
  display err := err.message

/-- What a successful walk does to the lifecycles. -/
theorem lifecycleOf_walk {table : RevisionLifecycle → Option RevisionLifecycle}
    {store store' : EnvironmentStore} {payload : RevisionTransitionPayload} {outcome : Json.Value}
    {target : String × Ulid} (htarget : tableLibrary.target payload = some target)
    (h : walk table store payload = .ok (store', outcome)) :
    ∃ next, (store.lifecycleOf target).bind table = some next ∧
      ∀ other, store'.lifecycleOf other = if other = target then some next else store.lifecycleOf other := by
  unfold walk at h
  cases hulid : readUlid payload.revisionId with
  | error e =>
    rw [hulid] at h
    cases h
  | ok ulid =>
    have heq : target = (payload.environmentId, ulid) := by
      simp only [Library.target, tableLibrary, hulid, Option.some.injEq] at htarget
      exact htarget.symm
    rw [hulid] at h
    cases hload : store payload.environmentId with
    | error e =>
      rw [hload] at h
      cases h
    | ok env =>
      have hbefore : store.lifecycleOf target = env.lifecycleOf ulid := by
        simp only [EnvironmentStore.lifecycleOf, heq, hload]
      rw [hload] at h
      dsimp only at h
      cases hnext : (env.lifecycleOf ulid).bind table with
      | none =>
        rw [hnext] at h
        cases h
      | some next =>
        rw [hnext, Except.ok.injEq, Prod.mk.injEq] at h
        refine ⟨next, hbefore ▸ hnext, fun other => ?_⟩
        obtain ⟨lifecycle, hlifecycle, -⟩ := Option.bind_eq_some_iff.mp hnext
        rw [← h.1]
        obtain ⟨otherEnv, otherUlid⟩ := other
        by_cases henv : otherEnv = payload.environmentId
        · subst henv
          simp only [EnvironmentStore.lifecycleOf, ↓reduceIte, hload, heq, Prod.mk.injEq, true_and,
            Environment.lifecycleOf_setLifecycle, hlifecycle, Option.map_some]
        · simp only [EnvironmentStore.lifecycleOf, henv, ↓reduceIte, heq, Prod.mk.injEq, false_and]

theorem tableLibrary_documented : tableLibrary.Documented where
  draining store payload store' outcome target htarget h hdraining := by
    obtain ⟨next, hnext, hall⟩ := lifecycleOf_walk htarget h
    rw [hdraining, Option.bind_some, archiveTable, Option.some.injEq] at hnext
    rw [hall, if_pos rfl, hnext]
  live store payload store' outcome target htarget h hlive := by
    obtain ⟨next, hnext, hall⟩ := lifecycleOf_walk htarget h
    simp only [List.mem_cons, List.not_mem_nil, or_false] at hlive
    rw [hall, if_pos rfl]
    rcases hlive with hlive | hlive | hlive <;>
      · rw [hlive, Option.bind_some, archiveTable, Option.some.injEq] at hnext
        rw [hnext]
  others store payload store' outcome target htarget h other hne := by
    obtain ⟨next, -, hall⟩ := lifecycleOf_walk htarget h
    rw [hall, if_neg hne]

/-! ## Two runs -/

/-- One draining revision. -/
def drainingStore : EnvironmentStore := fun envId =>
  if envId = "demo-env" then .ok ⟨[⟨1, .Draining⟩]⟩ else .error ⟨.NotFound, "environment not found"⟩

def drainPayload : RevisionTransitionPayload := ⟨"demo-env", "00000000000000000000000001"⟩

/-- A request on its own goes through its two halves undisturbed. -/
theorem completes_of_undisturbed_demo :
    CompletesDrain tableLibrary
      (Run.run (exec tableLibrary) [.preflight 0 drainPayload] (idle drainingStore), .finish 0) := by
  refine completes_of_undisturbed tableLibrary_documented drainingStore
    [.preflight 0 drainPayload, .finish 0] ?_ _
    (Run.mem_steps_append (exec tableLibrary) [.preflight 0 drainPayload] [] (.finish 0) _)
  intro step hmem
  simp only [Run.steps, List.mem_cons, List.not_mem_nil, or_false] at hmem
  rcases hmem with rfl | rfl
  · trivial
  · intro payload other payload' _ hother hne
    have hnone :
        (exec tableLibrary (.preflight 0 drainPayload) (idle drainingStore)).checked other = none := by
      obtain h | ⟨-, h⟩ := @exec_preflight _ tableLibrary (idle drainingStore) 0 drainPayload <;> rw [h]
      · rfl
      · exact if_neg hne
    rw [hnone] at hother
    cases hother

/-- Two requests check one draining revision, the first completes its drain, and it is
warmed again. -/
def rewarmed : List (Step RevisionTransitionPayload) :=
  [.preflight 0 drainPayload, .preflight 1 drainPayload, .finish 1, .other drainPayload]

/-- The second of the two requests goes on and archives the revision while it warms. -/
theorem rewarmed_revision_archived :
    ¬ ∀ (lib : Library RevisionTransitionPayload), lib.Documented → ∀ store ops,
      ∀ step ∈ Run.steps (exec lib) ops (idle store), CompletesDrain lib step := by
  intro h
  have hstep := h tableLibrary tableLibrary_documented drainingStore (rewarmed ++ [.finish 0]) _
    (Run.mem_steps_append (exec tableLibrary) rewarmed [] (.finish 0) (idle drainingStore))
  have hchecked : (Run.run (exec tableLibrary) rewarmed (idle drainingStore)).checked 0
      = some drainPayload := by decide +kernel
  have hwarming : (Run.run (exec tableLibrary) rewarmed (idle drainingStore)).store.lifecycleOf
      ("demo-env", 1) = some .Warming := by decide +kernel
  have harchives : (tableLibrary.archive (Run.run (exec tableLibrary) rewarmed
      (idle drainingStore)).store drainPayload).isOk = true := by decide +kernel
  have htarget : tableLibrary.target drainPayload = some ("demo-env", 1) := by decide +kernel
  generalize Run.run (exec tableLibrary) rewarmed (idle drainingStore) = s at *
  cases harchive : tableLibrary.archive s.store drainPayload with
  | error e =>
    rw [harchive] at harchives
    cases harchives
  | ok result =>
    obtain ⟨⟨target, hown, hdraining, -⟩, -⟩ :=
      hstep 0 drainPayload result.1 result.2 rfl hchecked harchive
    rw [htarget, Option.some.injEq] at hown
    rw [← hown, hwarming] at hdraining
    cases hdraining

end Deployments
