import GreenticOperator.Laws.QaPersist.PackConfigInput

/-!
# Secrets and the file for a pack's configuration

The file does not tell answers apart that differ in secrets only, unless the secrets are in the
items of a list: a list is written as it is, with the fields that are marked secret. The file is the
one of the last call that ended well, unless a write fails after the file was cut.
-/

namespace QaPersist

open Disk Json

variable {render : Value → String} {resolveVisibility : VisibilityResolver} {envId bundleId packId : String}
  {config config' : Answers} {formSpec : FormSpec}

/-! ## Answers that differ in secrets only -/

/-- Answers to some questions that differ in what is marked secret only, also in the items of
lists, up to a depth. What is marked secret is empty in both or in none. -/
def AgreeButSecrets (render : Value → String) : Nat → List Question → Value → Value → Prop
  | 0, _, v, v' => v = v'
  | depth + 1, questions, v, v' => v = v' ∨ v.asObject ≠ none ∧ v'.asObject ≠ none ∧ ∀ key,
    if key ∈ (questions.filter (·.secret)).map (·.id) then
      answeredAt render v key = none ↔ answeredAt render v' key = none
    else v.get key = v'.get key ∨ ∃ q ∈ questions, q.id = key ∧ ∃ items items',
      v.get key = some (.array items) ∧ v'.get key = some (.array items')
        ∧ List.Forall₂ (AgreeButSecrets render depth q.fields) items items'

/-- The two calls agree on which secrets are empty. -/
theorem answeredAt_eq_none_iff {depth : Nat}
    (h : AgreeButSecrets render depth formSpec.questions config.value config'.value) {key : String}
    (hkey : key ∈ secretIds formSpec) :
    answeredAt render config.value key = none ↔ answeredAt render config'.value key = none := by
  cases depth with
  | zero =>
    have heq : config.value = config'.value := h
    rw [heq]
  | succ depth =>
    rcases h with heq | ⟨-, -, h⟩
    · rw [heq]
    · have hat := h key
      rwa [if_pos (show key ∈ (formSpec.questions.filter (·.secret)).map (·.id) from hkey)] at hat

theorem visibleQuestionIds_congr
    (h : ∀ q ∈ formSpec.questions, resolveVisibility formSpec config.value q.id
      = resolveVisibility formSpec config'.value q.id) :
    visibleQuestionIds resolveVisibility formSpec config.value
      = visibleQuestionIds resolveVisibility formSpec config'.value := by
  unfold visibleQuestionIds
  congr 1
  exact List.filter_congr fun q hq => by rw [h q hq]

/-- Two calls write the same where what one of them is to write is what the other is. -/
theorem files_eq_iff {bundleRoot : String} :
    (∀ outcomes file,
      (emitPackConfigInput render resolveVisibility bundleRoot envId bundleId packId config formSpec outcomes file).1
        = (emitPackConfigInput render resolveVisibility bundleRoot envId bundleId packId config' formSpec outcomes
          file).1)
      ↔ (packConfigInput render resolveVisibility envId bundleId packId config formSpec).toOption
        = (packConfigInput render resolveVisibility envId bundleId packId config' formSpec).toOption := by
  unfold emitPackConfigInput
  generalize packConfigInput render resolveVisibility envId bundleId packId config formSpec = emitted
  generalize packConfigInput render resolveVisibility envId bundleId packId config' formSpec = emitted'
  constructor
  · intro h
    have hdone := h ⟨.ok (), .done, .ok ()⟩ (some .torn)
    rcases emitted with _ | _ | i <;> rcases emitted' with _ | _ | i' <;> first | rfl | cases hdone
    rfl
  · intro h outcomes file
    rcases emitted with _ | _ | i <;> rcases emitted' with _ | _ | i' <;> first | rfl | cases h
    rfl

/-- The entries say what is written. -/
theorem inputOf_inj {nonSecret nonSecret' : List (String × Value)} {secretRefs secretRefs' : List (String × String)}
    (h : inputOf envId bundleId packId nonSecret secretRefs = inputOf envId bundleId packId nonSecret' secretRefs') :
    nonSecret = nonSecret' ∧ secretRefs = secretRefs' := by
  unfold inputOf at h
  split at h
  next hnone =>
    split at h
    next hnone' => exact ⟨hnone.1.trans hnone'.1.symm, hnone.2.trans hnone'.2.symm⟩
    next => cases h
  next =>
    split at h
    next => cases h
    next =>
      cases h
      exact ⟨rfl, rfl⟩

/-- A call names the same as one with the same visible questions and the same empty secrets. -/
theorem Accepted.congr
    (hvisible : visibleQuestionIds resolveVisibility formSpec config'.value
      = visibleQuestionIds resolveVisibility formSpec config.value)
    (hnone : ∀ key ∈ secretIds formSpec,
      answeredAt render config.value key = none ↔ answeredAt render config'.value key = none)
    (h : Accepted render resolveVisibility envId bundleId packId config formSpec) :
    Accepted render resolveVisibility envId bundleId packId config' formSpec :=
  ⟨h.env, h.bundle, h.pack, fun key hkey hsecret hanswered =>
    h.secrets key (hvisible ▸ hkey) hsecret fun heq => hanswered ((hnone key hsecret).mp heq)⟩

theorem map_uri_congr {answer answer' : Option Value} {uri : String} (h : answer = none ↔ answer' = none) :
    (answer.map fun _ => uri) = answer'.map fun _ => uri := by
  cases answer with
  | none => rw [h.mp rfl]
  | some v =>
    cases answer' with
    | none => exact absurd (h.mpr rfl) (Option.some_ne_none v)
    | some v' => rfl

/-- Entries of calls that name the same secrets are the same where the other answers are. -/
theorem Entries.eq_iff {nonSecret nonSecret' : List (String × Value)} {secretRefs secretRefs' : List (String × String)}
    (hvisible : visibleQuestionIds resolveVisibility formSpec config.value
      = visibleQuestionIds resolveVisibility formSpec config'.value)
    (hnone : ∀ key ∈ secretIds formSpec,
      answeredAt render config.value key = none ↔ answeredAt render config'.value key = none)
    (h : Entries render resolveVisibility envId bundleId packId config formSpec nonSecret secretRefs)
    (h' : Entries render resolveVisibility envId bundleId packId config' formSpec nonSecret' secretRefs') :
    nonSecret = nonSecret' ∧ secretRefs = secretRefs'
      ↔ ∀ key ∈ visibleQuestionIds resolveVisibility formSpec config.value, key ∉ secretIds formSpec →
        answeredAt render config.value key = answeredAt render config'.value key := by
  constructor
  · rintro ⟨rfl, -⟩ key hkey hsecret
    have hat := h.nonSecret key
    have hat' := h'.nonSecret key
    rw [if_pos ⟨hkey, hsecret⟩] at hat
    rw [if_pos ⟨hvisible ▸ hkey, hsecret⟩] at hat'
    rw [← hat, hat']
  · intro hsame
    constructor
    · refine h.ordered.ext h'.ordered fun key => ?_
      rw [h.nonSecret, h'.nonSecret, ← hvisible]
      split
      next hkey => exact hsame key hkey.1 hkey.2
      next => rfl
    · refine h.ordered_refs.ext h'.ordered_refs fun key => ?_
      rw [h.secretRefs, h'.secretRefs, ← hvisible]
      split
      next hkey => exact map_uri_congr (hnone key hkey.2)
      next => rfl

/-- **Two calls that agree but for secrets** are to write the same just where they are rejected or
the answers to their visible questions that are not marked secret are the same. -/
theorem packConfigInput_toOption_eq_iff {depth : Nat}
    (h : AgreeButSecrets render depth formSpec.questions config.value config'.value)
    (hvisible : visibleQuestionIds resolveVisibility formSpec config.value
      = visibleQuestionIds resolveVisibility formSpec config'.value) :
    (packConfigInput render resolveVisibility envId bundleId packId config formSpec).toOption
        = (packConfigInput render resolveVisibility envId bundleId packId config' formSpec).toOption
      ↔ (Accepted render resolveVisibility envId bundleId packId config formSpec →
        ∀ key ∈ visibleQuestionIds resolveVisibility formSpec config.value, key ∉ secretIds formSpec →
          answeredAt render config.value key = answeredAt render config'.value key) := by
  have hnone : ∀ key ∈ secretIds formSpec,
      answeredAt render config.value key = none ↔ answeredAt render config'.value key = none :=
    fun _ hkey => answeredAt_eq_none_iff h hkey
  rcases packConfigInput_cases render resolveVisibility envId bundleId packId config formSpec with
    ⟨⟨message, hemitted⟩, hnot⟩ | ⟨haccepted, nonSecret, secretRefs, hentries, hemitted⟩
  · -- The other call is rejected as well.
    rcases packConfigInput_cases render resolveVisibility envId bundleId packId config' formSpec with
      ⟨⟨message', hemitted'⟩, -⟩ | ⟨haccepted', -⟩
    · rw [hemitted, hemitted']
      exact ⟨fun _ haccepted => absurd haccepted hnot, fun _ => rfl⟩
    · exact absurd (haccepted'.congr hvisible fun key hkey => (hnone key hkey).symm) hnot
  · rcases packConfigInput_cases render resolveVisibility envId bundleId packId config' formSpec with
      ⟨-, hnot'⟩ | ⟨-, nonSecret', secretRefs', hentries', hemitted'⟩
    · exact absurd (haccepted.congr hvisible.symm hnone) hnot'
    · rw [hemitted, hemitted', imp_iff_right haccepted, ← hentries.eq_iff hvisible hnone hentries']
      constructor
      · exact fun heq => inputOf_inj (Option.some.inj heq)
      · rintro ⟨rfl, rfl⟩
        rfl

/-! ## Secrets among the entries -/

/-- No question marked secret is among the entries that are written as they are. -/
theorem not_mem_nonSecret {input : PackConfigInput}
    (h : packConfigInput render resolveVisibility envId bundleId packId config formSpec = .ok (some input))
    {key : String} (hkey : key ∈ secretIds formSpec) : key ∉ input.nonSecret.map Prod.fst := by
  rcases packConfigInput_cases render resolveVisibility envId bundleId packId config formSpec with
    ⟨⟨message, hemitted⟩, -⟩ | ⟨-, nonSecret, secretRefs, hentries, hemitted⟩
  · rw [h] at hemitted
    cases hemitted
  · rw [h] at hemitted
    have hinput : some input = inputOf envId bundleId packId nonSecret secretRefs := Except.ok.inj hemitted
    unfold inputOf at hinput
    split at hinput
    next => cases hinput
    next =>
      cases hinput
      have hat := hentries.nonSecret key
      rw [if_neg fun hand => hand.2 hkey, List.lookup_eq_none_iff] at hat
      intro hmem
      obtain ⟨e, he, rfl⟩ := List.mem_map.mp hmem
      exact bne_iff_ne.mp (hat e he) rfl

theorem input_of_emitted {bundleRoot path : String} {outcomes : EmitOutcomes} {file : Option InputFile}
    {input : PackConfigInput}
    (h : emitPackConfigInput render resolveVisibility bundleRoot envId bundleId packId config formSpec outcomes file
      = (some (.input input), .ok (some path))) :
    packConfigInput render resolveVisibility envId bundleId packId config formSpec = .ok (some input) := by
  unfold emitPackConfigInput at h
  split at h
  next => cases h
  next => split at h <;> cases h
  next emitted hemitted =>
    split at h
    next => cases h
    next =>
      split at h <;> cases h
      exact hemitted

/-- There are entries where a visible question is answered. -/
theorem Entries.nil_iff {nonSecret : List (String × Value)} {secretRefs : List (String × String)}
    (h : Entries render resolveVisibility envId bundleId packId config formSpec nonSecret secretRefs) :
    nonSecret = [] ∧ secretRefs = [] ↔ ∀ key ∈ visibleQuestionIds resolveVisibility formSpec config.value,
      answeredAt render config.value key = none := by
  constructor
  · rintro ⟨rfl, rfl⟩ key hkey
    by_cases hsecret : key ∈ secretIds formSpec
    · have hat := h.secretRefs key
      rw [if_pos ⟨hkey, hsecret⟩] at hat
      exact Option.map_eq_none_iff.mp hat.symm
    · have hat := h.nonSecret key
      rw [if_pos ⟨hkey, hsecret⟩] at hat
      exact hat.symm
  · intro hnone
    constructor
    · refine h.ordered.ext .nil fun key => ?_
      rw [h.nonSecret]
      split
      next hkey => exact hnone key hkey.1
      next => rfl
    · refine h.ordered_refs.ext .nil fun key => ?_
      rw [h.secretRefs]
      split
      next hkey =>
        rw [hnone key hkey.1]
        rfl
      next => rfl

/-- Something is written just where the names are accepted and a visible question is answered. -/
theorem packConfigInput_isSome_iff :
    (∃ input, packConfigInput render resolveVisibility envId bundleId packId config formSpec = .ok (some input))
      ↔ Accepted render resolveVisibility envId bundleId packId config formSpec
        ∧ ∃ key ∈ visibleQuestionIds resolveVisibility formSpec config.value,
          answeredAt render config.value key ≠ none := by
  rcases packConfigInput_cases render resolveVisibility envId bundleId packId config formSpec with
    ⟨⟨message, hemitted⟩, hnot⟩ | ⟨haccepted, nonSecret, secretRefs, hentries, hemitted⟩
  · rw [hemitted]
    constructor
    · rintro ⟨_, hinput⟩
      cases hinput
    · exact fun h => absurd h.1 hnot
  · have hanswered : (∃ key ∈ visibleQuestionIds resolveVisibility formSpec config.value,
        answeredAt render config.value key ≠ none) ↔ ¬(nonSecret = [] ∧ secretRefs = []) := by
      rw [hentries.nil_iff]
      push Not
      rfl
    rw [hemitted, hanswered, and_iff_right haccepted]
    unfold inputOf
    split
    next hempty =>
      refine ⟨fun ⟨_, hinput⟩ => ?_, fun hne => absurd hempty hne⟩
      cases hinput
    next hne => exact ⟨fun _ => hne, fun _ => ⟨_, rfl⟩⟩

/-! ## Runs -/

/-- A call for a pack. -/
structure EmitCall where
  envId : String
  bundleId : String
  config : Answers
  formSpec : FormSpec
  outcomes : EmitOutcomes

/-- The file of a pack, and the one of the last call that ended well. -/
structure Emitted where
  file : Option InputFile
  last : Option InputFile

section Runs

variable (render : Value → String) (resolveVisibility : VisibilityResolver) (bundleRoot packId : String)

def EmitCall.run (call : EmitCall) (file : Option InputFile) : Option InputFile × Except String (Option String) :=
  emitPackConfigInput render resolveVisibility bundleRoot call.envId call.bundleId packId call.config
    call.formSpec call.outcomes file

/-- The file of a call, which is absent where nothing is to be written. -/
def EmitCall.file (call : EmitCall) : Option InputFile :=
  (packConfigInput render resolveVisibility call.envId call.bundleId packId call.config
    call.formSpec).toOption.join.map .input

def Emitted.step (s : Emitted) (call : EmitCall) : Emitted :=
  match call.run render resolveVisibility bundleRoot packId s.file with
  | (file, .ok _) => { file, last := call.file render resolveVisibility packId }
  | (file, .error _) => { file, last := s.last }

/-- The calls for a pack that has no file yet. -/
def emittedBy (calls : List EmitCall) : Emitted :=
  calls.foldl (Emitted.step render resolveVisibility bundleRoot packId) { file := none, last := none }

/-- After every call the file is the one of the last call that ended well, and a call that ends in
an error leaves it as it was. -/
def KeepsLast (calls : List EmitCall) : Prop :=
  ∀ earlier call, earlier ++ [call] <+: calls →
    let before := emittedBy render resolveVisibility bundleRoot packId earlier
    let after := emittedBy render resolveVisibility bundleRoot packId (earlier ++ [call])
    after.file = after.last
      ∧ ∀ message, (call.run render resolveVisibility bundleRoot packId before.file).2 = .error message →
        after.file = before.file

/-- A call that has something to write, and whose write fails after the file was cut. -/
structure EmitCall.Tears (call : EmitCall) : Prop where
  accepted : Accepted render resolveVisibility call.envId call.bundleId packId call.config call.formSpec
  answered : ∃ key ∈ visibleQuestionIds resolveVisibility call.formSpec call.config.value,
    answeredAt render call.config.value key ≠ none
  dir : call.outcomes.dir = .ok ()
  write : ∃ message, call.outcomes.write = .torn message

variable {render resolveVisibility bundleRoot packId}

theorem EmitCall.Tears.emitted {call : EmitCall} (h : call.Tears render resolveVisibility packId) :
    ∃ input, packConfigInput render resolveVisibility call.envId call.bundleId packId call.config call.formSpec
      = .ok (some input) :=
  packConfigInput_isSome_iff.mpr ⟨h.accepted, h.answered⟩

/-- **What a call does**: nothing, with an error; what is asked of it; or it tears the file. -/
theorem EmitCall.run_cases (call : EmitCall) (file : Option InputFile) :
    (∃ message, call.run render resolveVisibility bundleRoot packId file = (file, .error message))
        ∧ ¬call.Tears render resolveVisibility packId
      ∨ (∃ path, call.run render resolveVisibility bundleRoot packId file
          = (call.file render resolveVisibility packId, .ok path))
        ∧ ¬call.Tears render resolveVisibility packId
      ∨ (∃ message, call.run render resolveVisibility bundleRoot packId file = (some .torn, .error message))
        ∧ call.Tears render resolveVisibility packId := by
  unfold EmitCall.run EmitCall.file emitPackConfigInput
  cases hemitted : packConfigInput render resolveVisibility call.envId call.bundleId packId call.config
      call.formSpec with
  | error message =>
    refine .inl ⟨⟨message, rfl⟩, fun h => ?_⟩
    obtain ⟨input, hinput⟩ := h.emitted
    cases hemitted.symm.trans hinput
  | ok emitted =>
    cases emitted with
    | none =>
      have hnot : ¬call.Tears render resolveVisibility packId := fun h => by
        obtain ⟨input, hinput⟩ := h.emitted
        cases hemitted.symm.trans hinput
      dsimp only
      cases call.outcomes.remove with
      | error message => exact .inl ⟨⟨message, rfl⟩, hnot⟩
      | ok _ => exact .inr (.inl ⟨⟨none, rfl⟩, hnot⟩)
    | some input =>
      obtain ⟨haccepted, hanswered⟩ := packConfigInput_isSome_iff.mp ⟨input, hemitted⟩
      dsimp only
      cases hdir : call.outcomes.dir with
      | error message => exact .inl ⟨⟨message, rfl⟩, fun h => by cases hdir.symm.trans h.dir⟩
      | ok _ =>
        -- The write may be refused, leave the file cut, or be done.
        cases hwrite : call.outcomes.write with
        | refused message =>
          refine .inl ⟨⟨message, rfl⟩, fun h => ?_⟩
          obtain ⟨_, htorn⟩ := h.write
          cases hwrite.symm.trans htorn
        | done =>
          refine .inr (.inl ⟨⟨_, rfl⟩, fun h => ?_⟩)
          obtain ⟨_, htorn⟩ := h.write
          cases hwrite.symm.trans htorn
        | torn message => exact .inr (.inr ⟨⟨message, rfl⟩, haccepted, hanswered, hdir, message, hwrite⟩)

theorem EmitCall.Tears.run {call : EmitCall} (h : call.Tears render resolveVisibility packId)
    (file : Option InputFile) : ∃ message,
    call.run render resolveVisibility bundleRoot packId file = (some .torn, .error message) := by
  rcases call.run_cases file with ⟨-, hnot⟩ | ⟨-, hnot⟩ | ⟨hrun, -⟩
  · exact absurd h hnot
  · exact absurd h hnot
  · exact hrun

theorem emittedBy_append (earlier : List EmitCall) (call : EmitCall) :
    emittedBy render resolveVisibility bundleRoot packId (earlier ++ [call])
      = (emittedBy render resolveVisibility bundleRoot packId earlier).step render resolveVisibility bundleRoot packId
        call := by
  unfold emittedBy
  rw [List.foldl_append]
  rfl

/-- A call that tears no file leaves the one of the last call that ended well. -/
theorem Emitted.step_of_not_tears {s : Emitted} {call : EmitCall} (hlast : s.file = s.last)
    (h : ¬call.Tears render resolveVisibility packId) :
    (s.step render resolveVisibility bundleRoot packId call).file
        = (s.step render resolveVisibility bundleRoot packId call).last
      ∧ ∀ message, (call.run render resolveVisibility bundleRoot packId s.file).2 = .error message →
        (s.step render resolveVisibility bundleRoot packId call).file = s.file := by
  unfold Emitted.step
  rcases call.run_cases s.file with ⟨⟨message, hrun⟩, -⟩ | ⟨⟨path, hrun⟩, -⟩ | ⟨-, htears⟩
  · rw [hrun]
    exact ⟨hlast, fun _ _ => rfl⟩
  · rw [hrun]
    exact ⟨rfl, fun _ herror => by cases herror⟩
  · exact absurd htears h

theorem emittedBy_last {calls : List EmitCall}
    (h : ∀ call ∈ calls, ¬call.Tears render resolveVisibility packId) :
    (emittedBy render resolveVisibility bundleRoot packId calls).file
      = (emittedBy render resolveVisibility bundleRoot packId calls).last := by
  induction calls using List.reverseRecOn with
  | nil => rfl
  | append_singleton earlier call ih =>
    rw [emittedBy_append]
    have hearlier := ih fun c hc => h c (List.mem_append_left _ hc)
    exact (Emitted.step_of_not_tears hearlier (h call (List.mem_append_right _ List.mem_cons_self))).1

/-- The file of a call that ended well was not cut. -/
theorem emittedBy_last_ne_torn (calls : List EmitCall) :
    (emittedBy render resolveVisibility bundleRoot packId calls).last ≠ some .torn := by
  induction calls using List.reverseRecOn with
  | nil => exact nofun
  | append_singleton earlier call ih =>
    rw [emittedBy_append]
    unfold Emitted.step
    split
    next =>
      unfold EmitCall.file
      intro h
      obtain ⟨input, -, hinput⟩ := Option.map_eq_some_iff.mp h
      cases hinput
    next => exact ih

/-- **Runs keep the last file** just where no call tears one. -/
theorem keepsLast_iff {calls : List EmitCall} :
    KeepsLast render resolveVisibility bundleRoot packId calls
      ↔ ∀ call ∈ calls, ¬call.Tears render resolveVisibility packId := by
  constructor
  · intro h call hcall htears
    obtain ⟨earlier, later, rfl⟩ := List.append_of_mem hcall
    have hlast := (h earlier call ⟨later, by rw [List.append_assoc]; rfl⟩).1
    have hfile : (emittedBy render resolveVisibility bundleRoot packId (earlier ++ [call])).file = some .torn := by
      rw [emittedBy_append]
      unfold Emitted.step
      obtain ⟨message, hrun⟩ := htears.run (emittedBy render resolveVisibility bundleRoot packId earlier).file
      rw [hrun]
    exact emittedBy_last_ne_torn _ (hlast ▸ hfile)
  · intro h earlier call hbegins
    have hmem : ∀ c ∈ earlier ++ [call], ¬c.Tears render resolveVisibility packId :=
      fun c hc => h c (hbegins.subset hc)
    dsimp only
    rw [emittedBy_append]
    exact Emitted.step_of_not_tears (emittedBy_last fun c hc => hmem c (List.mem_append_left _ hc))
      (hmem call (List.mem_append_right _ List.mem_cons_self))

end Runs

/-! ## Secrets and runs together -/

/-- **The input for a pack's configuration**: two calls whose answers agree but for secrets leave the
same file exactly where they are rejected or their visible answers to the questions not marked secret
are the same, no question marked secret is written as it is, and the file of a pack is the one of the
last call that ended well exactly where no call tears it. -/
theorem packConfigInput_iff (render : Value → String) (resolveVisibility : VisibilityResolver)
    (bundleRoot packId : String) :
    (∀ (envId bundleId : String) (formSpec : FormSpec) (config config' : Answers) (depth : Nat),
      AgreeButSecrets render depth formSpec.questions config.value config'.value →
      (∀ q ∈ formSpec.questions, resolveVisibility formSpec config.value q.id
        = resolveVisibility formSpec config'.value q.id) →
      ((∀ outcomes file,
        (emitPackConfigInput render resolveVisibility bundleRoot envId bundleId packId config formSpec outcomes
            file).1
          = (emitPackConfigInput render resolveVisibility bundleRoot envId bundleId packId config' formSpec outcomes
            file).1)
        ↔ (Accepted render resolveVisibility envId bundleId packId config formSpec →
          ∀ key ∈ visibleQuestionIds resolveVisibility formSpec config.value, key ∉ secretIds formSpec →
            answeredAt render config.value key = answeredAt render config'.value key)))
    ∧ (∀ (envId bundleId : String) (formSpec : FormSpec) (config : Answers) (outcomes : EmitOutcomes)
      (file : Option InputFile) (input : PackConfigInput) (path : String),
      emitPackConfigInput render resolveVisibility bundleRoot envId bundleId packId config formSpec outcomes file
        = (some (.input input), .ok (some path)) →
      ∀ q ∈ formSpec.questions, q.secret = true → q.id ∉ input.nonSecret.map Prod.fst)
    ∧ ∀ calls : List EmitCall, KeepsLast render resolveVisibility bundleRoot packId calls
      ↔ ∀ call ∈ calls, ¬call.Tears render resolveVisibility packId := by
  refine ⟨fun envId bundleId formSpec config config' depth h hvisible => ?_,
    fun envId bundleId formSpec config outcomes file input path h q hq hsecret => ?_, fun calls => keepsLast_iff⟩
  · rw [files_eq_iff]
    exact packConfigInput_toOption_eq_iff h (visibleQuestionIds_congr hvisible)
  · exact not_mem_nonSecret (input_of_emitted h)
      (List.mem_map_of_mem (List.mem_filter.mpr ⟨hq, hsecret⟩))

/-! ## A secret in a list, and a write that fails -/

/-- A form that asks for the tokens of some accounts. -/
def accountsForm : FormSpec :=
  ⟨[⟨"accounts", false, [⟨"token", true, []⟩]⟩]⟩

def accountsAnswers (token : String) : Answers where
  value := .object [("accounts", .array [.object [("token", .string token)]])]
  distinct fields h := by
    cases h
    exact List.nodup_singleton _

def renderAccounts : Value → String
  | .array [.object [("token", .string token)]] => "[\x7b\"token\":\"" ++ token ++ "\"\x7d]"
  | _ => ""

theorem get_of_ne {key name : String} {v : Value} (h : key ≠ name) : (Value.object [(name, v)]).get key = none :=
  List.lookup_eq_none_iff.mpr fun _ he => List.mem_singleton.mp he ▸ bne_iff_ne.mpr h

/-- Two accounts agree but for their tokens. -/
theorem agree_tokens (token token' : String) (htoken : isBlank token = false) (htoken' : isBlank token' = false) :
    AgreeButSecrets renderAccounts 1 [⟨"token", true, []⟩] (.object [("token", .string token)])
      (.object [("token", .string token')]) := by
  refine .inr ⟨nofun, nofun, fun key => ?_⟩
  split
  next hkey =>
    obtain rfl : key = "token" := List.mem_singleton.mp hkey
    have hanswered : ∀ text, isBlank text = false →
        answeredAt renderAccounts (.object [("token", .string text)]) "token" = some (.string text) := fun text htext => by
      change presentAt renderAccounts [("token", .string text)] "token" = _
      rw [presentAt_cons_self, textOf, if_neg (Bool.eq_false_iff.mp htext)]
    rw [hanswered token htoken, hanswered token' htoken']
    exact ⟨nofun, nofun⟩
  next hkey =>
    have hne : key ≠ "token" := fun heq => hkey (List.mem_singleton.mpr heq)
    exact .inl (by rw [get_of_ne hne, get_of_ne hne])

theorem accounts_accepted (token : String) : Accepted renderAccounts (fun _ _ _ => none) "dev" "bundle"
    "messaging-slack" (accountsAnswers token) accountsForm where
  env := by decide
  bundle := by decide
  pack := by decide
  secrets _ _ hsecret := by cases hsecret

/-- A call whose write of the answers of the form fails after the file was cut. -/
def tornCall : EmitCall where
  envId := "dev"
  bundleId := "bundle"
  config := accountsAnswers "a"
  formSpec := accountsForm
  outcomes := { dir := .ok (), write := .torn "no space left on device", remove := .ok () }

/-- The token of an account is written as it is, and a failed write leaves a file that is cut. -/
theorem leaks_listed_secret :
    (¬∀ (render : Value → String) (resolveVisibility : VisibilityResolver)
      (bundleRoot envId bundleId packId : String) (formSpec : FormSpec) (config config' : Answers) (depth : Nat),
      AgreeButSecrets render depth formSpec.questions config.value config'.value →
      (∀ q ∈ formSpec.questions, resolveVisibility formSpec config.value q.id
        = resolveVisibility formSpec config'.value q.id) →
      ∀ outcomes file,
        (emitPackConfigInput render resolveVisibility bundleRoot envId bundleId packId config formSpec outcomes
            file).1
          = (emitPackConfigInput render resolveVisibility bundleRoot envId bundleId packId config' formSpec outcomes
            file).1)
    ∧ ¬∀ (render : Value → String) (resolveVisibility : VisibilityResolver) (bundleRoot packId : String)
      (calls : List EmitCall), KeepsLast render resolveVisibility bundleRoot packId calls := by
  refine ⟨fun h => ?_, fun h => ?_⟩
  · have hagree : AgreeButSecrets renderAccounts 2 accountsForm.questions (accountsAnswers "a").value
        (accountsAnswers "b").value := by
      refine .inr ⟨nofun, nofun, fun key => ?_⟩
      split
      next hkey => cases hkey
      next =>
        by_cases haccounts : key = "accounts"
        · subst haccounts
          exact .inr ⟨_, List.mem_cons_self, rfl, _, _, rfl, rfl, .cons (agree_tokens "a" "b" rfl rfl) .nil⟩
        · exact .inl ((get_of_ne haccounts).trans (get_of_ne haccounts).symm)
    have hfiles := h renderAccounts (fun _ _ _ => none) "/bundle" "dev" "bundle" "messaging-slack" accountsForm
      (accountsAnswers "a") (accountsAnswers "b") 2 hagree fun _ _ => rfl
    have hsame := (packConfigInput_toOption_eq_iff hagree rfl).mp (files_eq_iff.mp hfiles) (accounts_accepted "a")
      "accounts" (by decide +kernel) nofun
    exact absurd (congrArg (Option.map renderAccounts) hsame) (by decide +kernel)
  · have hkeeps := h renderAccounts (fun _ _ _ => none) "/bundle" "messaging-slack" [tornCall]
    refine keepsLast_iff.mp hkeeps tornCall List.mem_cons_self
      ⟨accounts_accepted "a", ⟨"accounts", ?_, ?_⟩, rfl, _, rfl⟩
    · decide +kernel
    · decide +kernel

end QaPersist
