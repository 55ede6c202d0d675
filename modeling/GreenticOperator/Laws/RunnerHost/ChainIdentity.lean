import GreenticOperator.Laws.RunnerHost.Gate
import GreenticOperator.Laws.RunnerHost.Hooks

/-!
# The identity of an operation across its hooks

`ChainIdentity` is what one call must keep whatever its hooks answer: the chains evaluated
are those of the operation's own name, nothing follows a denial, the target is reached
exactly where no pre-hook denies, and every hook is invoked under the caller's context. Both
entry points share one shape (`Assembled`), from which it can be read off.

`chainIdentity_iff` says when a call keeps it. A hook's envelope takes the place of the
operation's, so a hook that another one follows must leave the caller's context in it; and a
capability call takes the post chain from the name in it, so that name must have the same
post chain as the operation's own.
-/

namespace RunnerHost

open Json Domains Capabilities DemoRunnerHost

/-- The two ways to invoke an operation. -/
inductive Entry
  | capability (capId op : String)
  | providerOp (domain : Domain) (providerType opId : String)

def Entry.opName : Entry → String
  | .capability capId _ => s!"cap.invoke:{capId}"
  | .providerOp _ _ opId => opId

def invoke (host : DemoRunnerHost) (s : ProviderSurroundings) (entry : Entry) (payloadBytes : List UInt8)
    (ctx : OperatorContext) : Eff Log FlowOutcome :=
  match entry with
  | .capability capId op => host.invokeCapability s.toSurroundings capId op payloadBytes ctx
  | .providerOp domain providerType opId =>
    host.invokeProviderOp s domain providerType opId payloadBytes ctx

/-! ## What a call must keep -/

/-- A pre-hook's invocation that is answered with a denial. -/
def DeniesPre (host : DemoRunnerHost) (event : Event) : Prop :=
  ∃ call reply, event = .invoke (.hook .Pre) call reply ∧ denies host .Pre reply = true

structure ChainIdentity (host : DemoRunnerHost) (ctx : OperatorContext) (opName : String) (log : Log) :
    Prop where
  chains : ∀ stage chain, .chain stage chain ∈ log → chain = host.resolveHookChain stage opName
  stops : log.Pairwise fun event _ => ¬ DeniesPre host event
  runs : (∃ chain, .chain .Pre chain ∈ log) → (.target ∈ log ↔ ∀ event ∈ log, ¬ DeniesPre host event)
  notReached : (∀ chain, .chain .Pre chain ∉ log) → .target ∉ log
  context : ∀ stage call reply, .invoke (.hook stage) call reply ∈ log → call.ctx = ctx

/-! ## The shape of a call -/

/-- An event that is none of a hook chain, a hook or the turn to the target. -/
def Quiet : Event → Prop
  | .invoke (.hook _) _ _ => False
  | .chain _ _ => False
  | .target => False
  | _ => True

section Shape

variable (host : DemoRunnerHost) (s : Surroundings) (envelope : OperationEnvelope)
  (opName postName : String) (targetOk : Bool)

/-- The replies of the pre-hooks that come to be invoked. -/
def askedPre : List Reply := askedHooks host s .Pre 0 (host.resolveHookChain .Pre opName)

def preEnding : Ending := chainEnding host s .Pre 0 (host.resolveHookChain .Pre opName)

/-- The replies of the post-hooks that come to be invoked. -/
def askedPost : List Reply := askedHooks host s .Post 0 (host.resolveHookChain .Post postName)

/-- Whether the post-hooks are told: the target was reached and gave an outcome. -/
def told : Bool := preEnding host s opName == .through && targetOk

/-- What a call records after its pre-hooks. -/
def Tail (tail : Log) : Prop :=
  match preEnding host s opName with
  | .through => ∃ inner rest, tail = .target :: (inner ++ rest) ∧ (∀ event ∈ inner, Quiet event)
      ∧ match targetOk with
        | true => ∃ post, rest = .chain .Post (host.resolveHookChain .Post postName) :: post
          ∧ HookCalls host .Post (afterReplies host envelope (askedPre host s opName))
            (askedPost host s postName) post
        | false => rest = []
  | _ => tail = []

/-- What a call records that gets past the token gate with an envelope. -/
def Assembled (log : Log) : Prop :=
  ∃ gate pre tail, log = gate ++ .chain .Pre (host.resolveHookChain .Pre opName) :: (pre ++ tail)
    ∧ (∀ event ∈ gate, Quiet event)
    ∧ HookCalls host .Pre envelope (askedPre host s opName) pre
    ∧ Tail host s envelope opName postName targetOk tail

/-- The condition on the replies of the hooks. -/
structure HooksKeep (ctx : OperatorContext) : Prop where
  answered : preEnding host s opName ≠ .failed
  context : KeepContext host ctx (askedPre host s opName
    ++ if told host s opName targetOk then askedPost host s postName else [])
  name : told host s opName targetOk = true →
    host.resolveHookChain .Post postName = host.resolveHookChain .Post opName

end Shape

theorem not_deniesPre_of_quiet {host : DemoRunnerHost} {event : Event} (h : Quiet event) :
    ¬ DeniesPre host event := by
  rintro ⟨call, reply, rfl, -⟩
  exact h

/-- A list in which nothing follows an element with a property. -/
theorem pairwise_of_last {α : Type} {P : α → Prop} {l : List α}
    (h : ∀ before a after, l = before ++ a :: after → P a → after = []) :
    l.Pairwise fun a _ => ¬ P a := by
  induction l with
  | nil => exact List.Pairwise.nil
  | cons a l ih =>
    refine List.Pairwise.cons (fun b hb ha => ?_) (ih fun before c after hl => h (a :: before) c after (hl ▸ rfl))
    rw [h [] a l rfl ha] at hb
    exact absurd hb List.not_mem_nil

section HookCalls

variable {host : DemoRunnerHost} {s : Surroundings} {stage : HookStage} {envelope : OperationEnvelope}
  {replies : List Reply} {events : Log}

theorem HookCalls.mem (h : HookCalls host stage envelope replies events) {event : Event}
    (hevent : event ∈ events) : ∃ call reply, event = .invoke (.hook stage) call reply
      ∧ reply ∈ replies ∧ call.ctx ∈ contexts host envelope replies := by
  obtain ⟨calls, rfl, rfl, hcontexts⟩ := h
  obtain ⟨call, hcall, rfl⟩ := List.mem_map.mp hevent
  exact ⟨call.1, call.2, rfl, List.mem_map_of_mem hcall,
    hcontexts ▸ List.mem_map_of_mem (f := fun call : ComponentCall × Reply => call.1.ctx) hcall⟩

theorem HookCalls.exists_of_reply (h : HookCalls host stage envelope replies events) {reply : Reply}
    (hreply : reply ∈ replies) : ∃ call, .invoke (.hook stage) call reply ∈ events := by
  obtain ⟨calls, rfl, rfl, -⟩ := h
  obtain ⟨call, hcall, rfl⟩ := List.mem_map.mp hreply
  exact ⟨call.1, List.mem_map_of_mem (f := hookEvent stage) hcall⟩

theorem HookCalls.exists_of_context (h : HookCalls host stage envelope replies events) {context : OperatorContext}
    (hcontext : context ∈ contexts host envelope replies) :
    ∃ call reply, .invoke (.hook stage) call reply ∈ events ∧ call.ctx = context := by
  obtain ⟨calls, rfl, -, hcontexts⟩ := h
  rw [← hcontexts] at hcontext
  obtain ⟨call, hcall, rfl⟩ := List.mem_map.mp hcontext
  exact ⟨call.1, call.2, List.mem_map_of_mem (f := hookEvent stage) hcall, rfl⟩

/-- Of the pre-hooks invoked only the last one may deny. -/
theorem HookCalls.pairwise {i : Nat} {chain : List CapabilityBinding}
    (h : HookCalls host .Pre envelope (askedHooks host s .Pre i chain) events) :
    events.Pairwise fun event _ => ¬ DeniesPre host event := by
  obtain ⟨calls, rfl, hreplies, -⟩ := h
  refine pairwise_of_last fun before event after hsplit hdenies => ?_
  obtain ⟨calls₁, calls₂, rfl, rfl, hrest⟩ := List.map_eq_append_iff.mp hsplit
  obtain ⟨call, calls₃, rfl, hcall, rfl⟩ := List.map_eq_cons_iff.mp hrest
  obtain ⟨call', reply, hevent, hdenied⟩ := hdenies
  rw [← hcall] at hevent
  obtain ⟨-, -, hreply⟩ := Event.invoke.inj hevent
  rw [List.map_append, List.map_cons, hreply] at hreplies
  have hnil := (denies_askedHooks hreplies.symm hdenied).1
  rw [List.map_eq_nil_iff] at hnil ⊢
  exact hnil

end HookCalls

/-! ## What the shape says -/

section Assembled

variable {host : DemoRunnerHost} {s : Surroundings} {envelope : OperationEnvelope}
  {opName postName : String} {targetOk : Bool} {log : Log}

/-- The kinds of events a call records that gets past the token gate. -/
inductive Recorded (host : DemoRunnerHost) (s : Surroundings) (envelope : OperationEnvelope)
    (opName postName : String) (targetOk : Bool) (event : Event) : Prop
  | quiet (h : Quiet event)
  | preChain (h : event = .chain .Pre (host.resolveHookChain .Pre opName))
  | preHook (call : ComponentCall) (reply : Reply) (h : event = .invoke (.hook .Pre) call reply)
      (hreply : reply ∈ askedPre host s opName)
      (hctx : call.ctx ∈ contexts host envelope (askedPre host s opName))
  | target (h : event = .target) (hending : preEnding host s opName = .through)
  | postChain (h : event = .chain .Post (host.resolveHookChain .Post postName))
      (htold : told host s opName targetOk = true)
  | postHook (call : ComponentCall) (reply : Reply) (h : event = .invoke (.hook .Post) call reply)
      (htold : told host s opName targetOk = true)
      (hctx : call.ctx ∈ contexts host (afterReplies host envelope (askedPre host s opName))
        (askedPost host s postName))

theorem told_of_through (hending : preEnding host s opName = .through) :
    told host s opName true = true := by
  unfold told
  rw [hending]
  rfl

theorem Tail.mem {tail : Log} (h : Tail host s envelope opName postName targetOk tail) {event : Event}
    (hevent : event ∈ tail) : Recorded host s envelope opName postName targetOk event := by
  unfold Tail at h
  split at h
  next hending =>
    obtain ⟨inner, rest, rfl, hinner, hrest⟩ := h
    rcases List.mem_cons.mp hevent with rfl | hevent
    · exact .target rfl hending
    · rcases List.mem_append.mp hevent with hevent | hevent
      · exact .quiet (hinner event hevent)
      · cases targetOk with
        | false =>
          rw [hrest] at hevent
          exact absurd hevent List.not_mem_nil
        | true =>
          obtain ⟨post, rfl, hpost⟩ := hrest
          rcases List.mem_cons.mp hevent with rfl | hevent
          · exact .postChain rfl (told_of_through hending)
          · obtain ⟨call, reply, rfl, -, hctx⟩ := hpost.mem hevent
            exact .postHook call reply rfl (told_of_through hending) hctx
  next =>
    rw [h] at hevent
    exact absurd hevent List.not_mem_nil

theorem Assembled.mem (h : Assembled host s envelope opName postName targetOk log) {event : Event}
    (hevent : event ∈ log) : Recorded host s envelope opName postName targetOk event := by
  obtain ⟨gate, pre, tail, rfl, hgate, hpre, htail⟩ := h
  rcases List.mem_append.mp hevent with hevent | hevent
  · exact .quiet (hgate event hevent)
  · rcases List.mem_cons.mp hevent with rfl | hevent
    · exact .preChain rfl
    · rcases List.mem_append.mp hevent with hevent | hevent
      · obtain ⟨call, reply, rfl, hreply, hctx⟩ := hpre.mem hevent
        exact .preHook call reply rfl hreply hctx
      · exact htail.mem hevent

/-- The target is reached through the pre-hooks. -/
theorem Assembled.through_of_target (h : Assembled host s envelope opName postName targetOk log)
    (htarget : .target ∈ log) : preEnding host s opName = .through := by
  cases h.mem htarget with
  | quiet h => exact absurd h id
  | preChain h => cases h
  | preHook call reply h => cases h
  | target h hending => exact hending
  | postChain h => cases h
  | postHook call reply h => cases h

/-- A chain that is recorded is the pre-hooks', or the post-hooks' where they are told. -/
theorem Assembled.chain_cases (h : Assembled host s envelope opName postName targetOk log)
    {stage : HookStage} {chain : List CapabilityBinding} (hevent : .chain stage chain ∈ log) :
    stage = .Pre ∧ chain = host.resolveHookChain .Pre opName
      ∨ stage = .Post ∧ chain = host.resolveHookChain .Post postName
        ∧ told host s opName targetOk = true := by
  cases h.mem hevent with
  | quiet h => exact absurd h id
  | preChain h =>
    obtain ⟨rfl, rfl⟩ := Event.chain.inj h
    exact .inl ⟨rfl, rfl⟩
  | preHook call reply h => cases h
  | target h => cases h
  | postChain h htold =>
    obtain ⟨rfl, rfl⟩ := Event.chain.inj h
    exact .inr ⟨rfl, rfl, htold⟩
  | postHook call reply h => cases h

/-- The context a hook is invoked under is one of those the replies leave. -/
theorem Assembled.context_cases (h : Assembled host s envelope opName postName targetOk log)
    {stage : HookStage} {call : ComponentCall} {reply : Reply}
    (hevent : .invoke (.hook stage) call reply ∈ log) :
    call.ctx ∈ contexts host envelope (askedPre host s opName)
      ∨ told host s opName targetOk = true
        ∧ call.ctx ∈ contexts host (afterReplies host envelope (askedPre host s opName))
          (askedPost host s postName) := by
  cases h.mem hevent with
  | quiet h => exact absurd h id
  | preChain h => cases h
  | preHook call' reply' h hreply hctx =>
    obtain ⟨-, rfl, -⟩ := Event.invoke.inj h
    exact .inl hctx
  | target h => cases h
  | postChain h => cases h
  | postHook call' reply' h htold hctx =>
    obtain ⟨-, rfl, -⟩ := Event.invoke.inj h
    exact .inr ⟨htold, hctx⟩

theorem Assembled.preChain_mem (h : Assembled host s envelope opName postName targetOk log) :
    .chain .Pre (host.resolveHookChain .Pre opName) ∈ log := by
  obtain ⟨gate, pre, tail, rfl, -⟩ := h
  exact List.mem_append_right gate List.mem_cons_self

theorem Assembled.mem_of_tail (h : Assembled host s envelope opName postName targetOk log) :
    ∃ tail, Tail host s envelope opName postName targetOk tail ∧ ∀ event ∈ tail, event ∈ log := by
  obtain ⟨gate, pre, tail, rfl, -, -, htail⟩ := h
  exact ⟨tail, htail, fun event hevent =>
    List.mem_append_right gate (List.mem_cons_of_mem _ (List.mem_append_right pre hevent))⟩

theorem Assembled.pre_mem (h : Assembled host s envelope opName postName targetOk log) :
    ∃ pre, HookCalls host .Pre envelope (askedPre host s opName) pre ∧ ∀ event ∈ pre, event ∈ log := by
  obtain ⟨gate, pre, tail, rfl, -, hpre, -⟩ := h
  exact ⟨pre, hpre, fun event hevent =>
    List.mem_append_right gate (List.mem_cons_of_mem _ (List.mem_append_left tail hevent))⟩

theorem Assembled.target_mem (h : Assembled host s envelope opName postName targetOk log)
    (hending : preEnding host s opName = .through) : .target ∈ log := by
  obtain ⟨tail, htail, hmem⟩ := h.mem_of_tail
  unfold Tail at htail
  rw [hending] at htail
  obtain ⟨inner, rest, rfl, -⟩ := htail
  exact hmem _ List.mem_cons_self

/-- Where the post-hooks are told, their chain and their invocations are recorded. -/
theorem Assembled.post_mem (h : Assembled host s envelope opName postName targetOk log)
    (htold : told host s opName targetOk = true) :
    .chain .Post (host.resolveHookChain .Post postName) ∈ log
      ∧ ∃ post, HookCalls host .Post (afterReplies host envelope (askedPre host s opName))
          (askedPost host s postName) post ∧ ∀ event ∈ post, event ∈ log := by
  obtain ⟨tail, htail, hmem⟩ := h.mem_of_tail
  unfold told at htold
  rw [Bool.and_eq_true, beq_iff_eq] at htold
  unfold Tail at htail
  rw [htold.1, htold.2] at htail
  obtain ⟨inner, rest, rfl, -, post, rfl, hpost⟩ := htail
  have hrest : ∀ event ∈ .chain .Post (host.resolveHookChain .Post postName) :: post, event ∈ log :=
    fun event hevent => hmem event (List.mem_cons_of_mem _ (List.mem_append_right inner hevent))
  exact ⟨hrest _ List.mem_cons_self, post, hpost, fun event hevent =>
    hrest event (List.mem_cons_of_mem _ hevent)⟩

/-- A recorded denial means that the pre-hooks' chain ended as denied. -/
theorem Assembled.ending_of_denies (h : Assembled host s envelope opName postName targetOk log) {event : Event}
    (hevent : event ∈ log) (hdenies : DeniesPre host event) : preEnding host s opName = .denied := by
  obtain ⟨call, reply, rfl, hdenied⟩ := hdenies
  cases h.mem hevent with
  | quiet h => exact absurd h id
  | preChain h => cases h
  | preHook call' reply' h hreply hctx =>
    obtain ⟨-, -, rfl⟩ := Event.invoke.inj h
    obtain ⟨before, after, hasked⟩ := List.append_of_mem hreply
    exact (denies_askedHooks hasked hdenied).2
  | target h => cases h
  | postChain h => cases h
  | postHook call' reply' h => cases h

/-- A chain that ended as denied has a recorded denial. -/
theorem Assembled.denies_of_ending (h : Assembled host s envelope opName postName targetOk log)
    (hending : preEnding host s opName = .denied) : ∃ event ∈ log, DeniesPre host event := by
  obtain ⟨reply, hreply, hdenied⟩ := exists_denies hending
  obtain ⟨pre, hpre, hmem⟩ := h.pre_mem
  obtain ⟨call, hcall⟩ := hpre.exists_of_reply hreply
  exact ⟨_, hmem _ hcall, call, reply, rfl, hdenied⟩

/-- Nothing is recorded after the pre-hooks where one of them denies. -/
theorem Assembled.tail_of_denies {gate pre tail : Log}
    (h : Assembled host s envelope opName postName targetOk
      (gate ++ .chain .Pre (host.resolveHookChain .Pre opName) :: (pre ++ tail)))
    (htail : Tail host s envelope opName postName targetOk tail) {event : Event}
    (hevent : event ∈ pre ++ tail) (hdenies : DeniesPre host event) : tail = [] := by
  have hending := h.ending_of_denies (List.mem_append_right gate (List.mem_cons_of_mem _ hevent)) hdenies
  unfold Tail at htail
  rw [hending] at htail
  exact htail

theorem Assembled.stops (h : Assembled host s envelope opName postName targetOk log) :
    log.Pairwise fun event _ => ¬ DeniesPre host event := by
  have hall := h
  obtain ⟨gate, pre, tail, rfl, hgate, hpre, htail⟩ := h
  have hpairwise : (pre ++ tail).Pairwise fun event _ => ¬ DeniesPre host event := by
    -- Only the last pre-hook may deny, and then nothing is recorded after it.
    refine List.pairwise_append.mpr ⟨hpre.pairwise, ?_, fun other hother event hevent hdenies => ?_⟩
    · refine List.Pairwise.imp_of_mem (fun hevent _ _ hdenies => ?_) (List.pairwise_of_forall
        (R := fun _ _ => True) fun _ _ => trivial)
      rw [hall.tail_of_denies htail (List.mem_append_right pre hevent) hdenies] at hevent
      exact List.not_mem_nil hevent
    · rw [hall.tail_of_denies htail (List.mem_append_left tail hother) hdenies] at hevent
      exact List.not_mem_nil hevent
  refine List.pairwise_append.mpr
    ⟨?_, .cons (fun _ _ => ?_) hpairwise, fun event hevent _ _ => not_deniesPre_of_quiet (hgate event hevent)⟩
  · exact List.Pairwise.imp_of_mem (fun hevent _ _ => not_deniesPre_of_quiet (hgate _ hevent))
      (List.pairwise_of_forall (R := fun _ _ => True) fun _ _ => trivial)
  · rintro ⟨call, reply, h, -⟩
    cases h

theorem hooksKeep_of_chainIdentity {ctx : OperatorContext}
    (h : Assembled host s envelope opName postName targetOk log) (hctx : envelope.context = ctx)
    (hidentity : ChainIdentity host ctx opName log) : HooksKeep host s opName postName targetOk ctx := by
  refine ⟨fun hfailed => ?_, ?_, fun htold => ?_⟩
  · -- A failed chain denies nothing, and the target is not reached.
    have htarget := (hidentity.runs ⟨_, h.preChain_mem⟩).mpr fun event hevent hdenies => by
      rw [h.ending_of_denies hevent hdenies] at hfailed
      cases hfailed
    rw [h.through_of_target htarget] at hfailed
    cases hfailed
  · refine (contexts_eq_iff hctx _).mp fun context hcontext => ?_
    rw [contexts_append] at hcontext
    rcases List.mem_append.mp hcontext with hcontext | hcontext
    · obtain ⟨pre, hpre, hmem⟩ := h.pre_mem
      obtain ⟨call, reply, hevent, rfl⟩ := hpre.exists_of_context hcontext
      exact hidentity.context _ _ _ (hmem _ hevent)
    · split at hcontext
      next htold =>
        obtain ⟨-, post, hpost, hmem⟩ := h.post_mem htold
        obtain ⟨call, reply, hevent, rfl⟩ := hpost.exists_of_context hcontext
        exact hidentity.context _ _ _ (hmem _ hevent)
      next => exact absurd hcontext List.not_mem_nil
  · exact hidentity.chains _ _ (h.post_mem htold).1

theorem chainIdentity_of_hooksKeep {ctx : OperatorContext}
    (h : Assembled host s envelope opName postName targetOk log) (hctx : envelope.context = ctx)
    (hkeep : HooksKeep host s opName postName targetOk ctx) : ChainIdentity host ctx opName log := by
  have hcontexts := (contexts_eq_iff hctx _).mpr hkeep.context
  rw [contexts_append] at hcontexts
  refine ⟨?_, h.stops, fun _ => ⟨?_, ?_⟩, ?_, ?_⟩
  · intro stage chain hevent
    rcases h.chain_cases hevent with ⟨rfl, rfl⟩ | ⟨rfl, rfl, htold⟩
    · rfl
    · exact hkeep.name htold
  · intro htarget event hevent hdenies
    have hdenied := h.ending_of_denies hevent hdenies
    rw [h.through_of_target htarget] at hdenied
    cases hdenied
  · intro hnone
    cases hending : preEnding host s opName with
    | through => exact h.target_mem hending
    | failed => exact absurd hending hkeep.answered
    | denied =>
      obtain ⟨event, hevent, hdenies⟩ := h.denies_of_ending hending
      exact absurd hdenies (hnone event hevent)
  · exact fun hnone => absurd h.preChain_mem (hnone _)
  · intro stage call reply hevent
    rcases h.context_cases hevent with hmem | ⟨htold, hmem⟩
    · exact hcontexts _ (List.mem_append_left _ hmem)
    · refine hcontexts _ (List.mem_append_right _ ?_)
      rw [if_pos htold]
      exact hmem

/-- **A call past the token gate keeps its identity exactly** where its hooks keep it. -/
theorem chainIdentity_of_assembled {ctx : OperatorContext}
    (h : Assembled host s envelope opName postName targetOk log) (hctx : envelope.context = ctx) :
    ChainIdentity host ctx opName log ↔ HooksKeep host s opName postName targetOk ctx :=
  ⟨hooksKeep_of_chainIdentity h hctx, chainIdentity_of_hooksKeep h hctx⟩

end Assembled

/-! ## The two entry points have the shape -/

section Entry

variable {host : DemoRunnerHost}

/-- The gate leaves the name and the context of an envelope, and records nothing of hooks. -/
theorem gate_keeps (s : Surroundings) (envelope : OperationEnvelope) (payloadBytes : List UInt8)
    (ctx : OperatorContext) :
    (∀ event ∈ Eff.written (host.evaluateTokenValidationPreHook s envelope payloadBytes ctx), Quiet event)
      ∧ ∀ outcome envelope', Eff.result (host.evaluateTokenValidationPreHook s envelope payloadBytes ctx)
          = .ok (outcome, envelope') →
        envelope'.opName = envelope.opName ∧ envelope'.context = envelope.context := by
  have hpass : ∀ outcome : HookChainOutcome, ∀ outcome' envelope',
      (.ok (outcome, envelope) : Except String (HookChainOutcome × OperationEnvelope)) = .ok (outcome', envelope') →
      envelope'.opName = envelope.opName ∧ envelope'.context = envelope.context := by
    intro outcome outcome' envelope' h
    cases h
    exact ⟨rfl, rfl⟩
  have hnil : ∀ event ∈ ([] : Log), Quiet event := fun _ h => absurd h List.not_mem_nil
  unfold Eff.written Eff.result evaluateTokenValidationPreHook
  split
  · exact ⟨hnil, hpass _⟩
  · split
    · exact ⟨hnil, hpass _⟩
    next request _ =>
      split
      · exact ⟨hnil, hpass _⟩
      next binding _ =>
        rw [Eff.bind_run, Eff.lift_run]
        cases isBindingReady s.disk ctx.tenant ctx.team binding with
        | error e => exact ⟨hnil, nofun⟩
        | ok ready =>
          cases ready with
          | false => exact ⟨hnil, hpass _⟩
          | true =>
            simp only [↓reduceIte]
            split
            · exact ⟨hnil, hpass _⟩
            next pack _ =>
              rw [Eff.bind_run, invoke_run]
              have hasked : ∀ call reply, ∀ event ∈ [] ++ [Event.invoke .tokenValidation call reply], Quiet event := by
                intro call reply event hevent
                rw [List.mem_singleton.mp hevent]
                trivial
              cases s.tokenValidation with
              | error e => exact ⟨hasked _ _, nofun⟩
              | ok outcome =>
                simp only
                cases gateOfReply outcome with
                | Deny reason => exact ⟨hasked _ _, hpass _⟩
                | Allow claims =>
                  refine ⟨hasked _ _, fun outcome' envelope' h => ?_⟩
                  cases h
                  exact ⟨rfl, rfl⟩

theorem appends_forCard {α : Type} (x : Eff Log α) : Eff.Appends (forCard x) := by
  intro log
  show ((x.run []).1, log ++ _) = ((x.run []).1, log ++ ([] ++ _))
  rw [List.nil_append]

theorem appends_renderIfNeeded (s : Surroundings) (providerType : String) (payloadBytes : List UInt8)
    (ctx : OperatorContext) : Eff.Appends (host.renderIfNeeded s providerType payloadBytes ctx) := by
  refine (Eff.Appends.lift _).bind fun request => ?_
  cases request with
  | none => exact Eff.Appends.pure _
  | some input => exact (appends_forCard _).bind fun outcome => Eff.Appends.lift _

theorem appends_inner (s : ProviderSurroundings) (domain : Domain) (providerType opId : String)
    (payloadBytes : List UInt8) (ctx : OperatorContext) :
    Eff.Appends (host.invokeProviderOpInner s domain providerType opId payloadBytes ctx) := by
  unfold invokeProviderOpInner
  split
  · exact Eff.Appends.fail _
  · split
    · exact (appends_renderIfNeeded _ _ _ _).bind fun _ => (appends_record _).bind fun _ => Eff.Appends.lift _
    · exact appends_invoke _ _ _

theorem quiet_forCard {α : Type} (x : Eff Log α) : ∀ event ∈ Eff.written (forCard x), Quiet event := by
  intro event hevent
  obtain ⟨inner, -, rfl⟩ := List.mem_map.mp hevent
  trivial

theorem quiet_lift {α : Type} (r : Except String α) :
    ∀ event ∈ Eff.written (Eff.lift r : Eff Log α), Quiet event := fun _ h => absurd h List.not_mem_nil

theorem quiet_renderIfNeeded (s : Surroundings) (providerType : String) (payloadBytes : List UInt8)
    (ctx : OperatorContext) :
    ∀ event ∈ Eff.written (host.renderIfNeeded s providerType payloadBytes ctx), Quiet event := by
  intro event hevent
  unfold renderIfNeeded at hevent
  have hwritten := Eff.mem_written_bind (fun request => by
    cases request with
    | none => exact Eff.Appends.pure payloadBytes
    | some input => exact (appends_forCard _).bind fun outcome => Eff.Appends.lift _) hevent
  rcases hwritten with hevent | ⟨request, -, hevent⟩
  · exact quiet_lift _ event hevent
  · cases request with
    | none => exact absurd hevent List.not_mem_nil
    | some input =>
      rcases Eff.mem_written_bind (fun _ => Eff.Appends.lift _) hevent with hevent | ⟨outcome, -, hevent⟩
      · exact quiet_forCard _ event hevent
      · exact quiet_lift _ event hevent

theorem quiet_inner (s : ProviderSurroundings) (domain : Domain) (providerType opId : String)
    (payloadBytes : List UInt8) (ctx : OperatorContext) :
    ∀ event ∈ Eff.written (host.invokeProviderOpInner s domain providerType opId payloadBytes ctx), Quiet event := by
  intro event hevent
  unfold invokeProviderOpInner at hevent
  split at hevent
  · exact absurd hevent List.not_mem_nil
  · split at hevent
    · rcases Eff.mem_written_bind
        (fun _ => (appends_record _).bind fun _ => Eff.Appends.lift _) hevent with hevent | ⟨rendered, -, hevent⟩
      · exact quiet_renderIfNeeded _ _ _ _ event hevent
      · rw [List.mem_singleton.mp hevent]
        trivial
    · rw [List.mem_singleton.mp hevent]
      trivial

theorem record_run (event : Event) (log : Log) : (record event).run log = (.ok (), log ++ [event]) := rfl

/-- A chain is recorded before its hooks. -/
theorem evaluateHookChain_run (s : Surroundings) (stage : HookStage) (chain : List CapabilityBinding)
    (envelope : OperationEnvelope) (log : Log) :
    (host.evaluateHookChain s chain stage envelope).run log
      = (Eff.result (host.evaluateHooks s stage 0 chain envelope),
        log ++ .chain stage chain :: Eff.written (host.evaluateHooks s stage 0 chain envelope)) := by
  unfold evaluateHookChain
  rw [Eff.bind_run, record_run]
  simp only
  rw [appends_evaluateHooks, List.append_assoc, List.singleton_append]

/-- The tail of a call that goes through its pre-hooks: the target, and the post-hooks where
it gives an outcome. -/
theorem tail_of_through {s : Surroundings} {envelope : OperationEnvelope} {opName postName : String}
    {targetOk : Bool} {inner : Log} (finished : OperationEnvelope) (hending : preEnding host s opName = .through)
    (hinner : ∀ event ∈ inner, Quiet event)
    (hfinished : finished.context = (afterReplies host envelope (askedPre host s opName)).context) :
    Tail host s envelope opName postName targetOk (.target :: (inner ++ if targetOk then
      .chain .Post (host.resolveHookChain .Post postName)
        :: Eff.written (host.evaluateHooks s .Post 0 (host.resolveHookChain .Post postName) finished)
      else [])) := by
  unfold Tail
  rw [hending]
  refine ⟨inner, _, rfl, hinner, ?_⟩
  cases targetOk with
  | false => rfl
  | true =>
    refine ⟨_, rfl, ?_⟩
    obtain ⟨calls, hevents, hreplies, hcontexts⟩ := (@evaluateHooks_spec host s .Post 0
      (host.resolveHookChain .Post postName) finished).1
    exact ⟨calls, hevents, hreplies, hcontexts.trans (contexts_congr hfinished _)⟩

/-- The tail of a call from its target on: what passing the operation to the target
records, and where it gives an outcome the post-hooks' chain. -/
theorem tail_of_target {s : Surroundings} {envelope passed : OperationEnvelope} {opName postName : String}
    {target : Eff Log FlowOutcome} (hending : preEnding host s opName = .through)
    (hpassed : passed.context = (afterReplies host envelope (askedPre host s opName)).context)
    (happends : Eff.Appends target) (hquiet : ∀ event ∈ Eff.written target, Quiet event)
    {go : Eff Log FlowOutcome}
    (hgo : go = do
      record .target
      let outcome ← target
      let _ ← host.evaluateHookChain s (host.resolveHookChain .Post postName) .Post
        (passed.finished host.codec outcome)
      return outcome) (log : Log) :
    ∃ tail, Tail host s envelope opName postName (Eff.result target).isOk tail ∧ (go.run log).2 = log ++ tail := by
  rw [hgo, Eff.bind_run, record_run]
  simp only
  rw [Eff.bind_run, happends]
  cases hresult : Eff.result target with
  | error e =>
    refine ⟨_, tail_of_through passed hending hquiet hpassed, ?_⟩
    simp only [Except.isOk, Except.toBool, Bool.false_eq_true, ↓reduceIte, List.append_nil,
      List.append_assoc, List.singleton_append]
  | ok outcome =>
    refine ⟨_, tail_of_through (passed.finished host.codec outcome) hending hquiet hpassed, ?_⟩
    simp only
    rw [Eff.bind_run, evaluateHookChain_run]
    simp only [Except.isOk, Except.toBool, ↓reduceIte, List.append_assoc, List.singleton_append]
    cases Eff.result (host.evaluateHooks s .Post 0 (host.resolveHookChain .Post postName)
      (passed.finished host.codec outcome)) <;> rfl

/-- How a call goes on with the result of its pre-hooks. -/
def afterPre (deny : String → OperationEnvelope → FlowOutcome) (go : OperationEnvelope → Eff Log FlowOutcome) :
    Except String (HookChainOutcome × OperationEnvelope) → Eff Log FlowOutcome
  | .error e => Eff.fail e
  | .ok (.Denied reason, envelope) => return deny reason envelope
  | .ok (.Continue, envelope) => go envelope

/-- A call that evaluates the pre-hooks and goes on by their result has the shape. -/
theorem assembled_of_run {s : Surroundings} {envelope : OperationEnvelope} {opName postName : String}
    {targetOk : Bool} {gate : Log} {call : Eff Log FlowOutcome}
    (deny : String → OperationEnvelope → FlowOutcome) (go : OperationEnvelope → Eff Log FlowOutcome)
    (hgate : ∀ event ∈ gate, Quiet event)
    (hrun : call.run [] = (afterPre deny go
        (Eff.result (host.evaluateHooks s .Pre 0 (host.resolveHookChain .Pre opName) envelope))).run
      (gate ++ .chain .Pre (host.resolveHookChain .Pre opName)
        :: Eff.written (host.evaluateHooks s .Pre 0 (host.resolveHookChain .Pre opName) envelope)))
    (hgo : preEnding host s opName = .through → ∀ log, ∃ tail,
      Tail host s envelope opName postName targetOk tail
        ∧ ((go (afterReplies host envelope (askedPre host s opName))).run log).2 = log ++ tail) :
    Assembled host s envelope opName postName targetOk (Eff.written call) := by
  obtain ⟨hpre, hends⟩ := @evaluateHooks_spec host s .Pre 0 (host.resolveHookChain .Pre opName) envelope
  unfold Eff.written
  rw [hrun]
  cases hending : preEnding host s opName with
  | through =>
    obtain ⟨tail, htail, hlog⟩ := hgo hending (gate ++ .chain .Pre (host.resolveHookChain .Pre opName)
      :: Eff.written (host.evaluateHooks s .Pre 0 (host.resolveHookChain .Pre opName) envelope))
    unfold preEnding at hending
    rw [hending] at hends
    rw [show Eff.result _ = _ from hends]
    refine ⟨gate, _, tail, ?_, hgate, hpre, htail⟩
    rw [← List.cons_append, ← List.append_assoc]
    exact hlog
  | denied =>
    have htail : Tail host s envelope opName postName targetOk [] := by
      unfold Tail
      rw [hending]
    unfold preEnding at hending
    rw [hending] at hends
    obtain ⟨reason, hdenied⟩ := hends
    rw [hdenied]
    exact ⟨gate, _, [], by rw [List.append_nil]; rfl, hgate, hpre, htail⟩
  | failed =>
    have htail : Tail host s envelope opName postName targetOk [] := by
      unfold Tail
      rw [hending]
    unfold preEnding at hending
    rw [hending] at hends
    obtain ⟨e, herror⟩ := hends
    rw [herror]
    exact ⟨gate, _, [], by rw [List.append_nil]; rfl, hgate, hpre, htail⟩

theorem assembled_capability {s : Surroundings} {capId op : String} {payloadBytes : List UInt8}
    {ctx : OperatorContext} {route : Route} {envelope : OperationEnvelope}
    (hroute : host.routeCapability s capId op ctx = .ok (.inr route))
    (hgate : Eff.result (host.evaluateTokenValidationPreHook s
      (.new s.opId s!"cap.invoke:{capId}" payloadBytes ctx) payloadBytes ctx) = .ok (.Continue, envelope)) :
    Assembled host s envelope s!"cap.invoke:{capId}"
      (renamed host s!"cap.invoke:{capId}" (askedPre host s s!"cap.invoke:{capId}")) s.target.isOk
      (Eff.written (host.invokeCapability s capId op payloadBytes ctx)) := by
  obtain ⟨hquiet, hkeeps⟩ := @gate_keeps host s (.new s.opId s!"cap.invoke:{capId}" payloadBytes ctx)
    payloadBytes ctx
  have hname : envelope.opName = s!"cap.invoke:{capId}" := (hkeeps _ _ hgate).1
  refine assembled_of_run
    (fun reason _ => capabilityRouteErrorOutcome capId route.targetOp (deniedText reason))
    (host.passToCapability s route payloadBytes ctx) hquiet ?_ ?_
  · unfold invokeCapability
    rw [Eff.bind_run, Eff.lift_run, hroute]
    simp only
    rw [Eff.bind_run, Eff.run_nil hgate]
    simp only
    rw [hname, Eff.bind_run, evaluateHookChain_run]
    cases Eff.result (host.evaluateHooks s .Pre 0 (host.resolveHookChain .Pre s!"cap.invoke:{capId}") envelope) with
    | error e => rfl
    | ok done =>
      obtain ⟨outcome, envelope'⟩ := done
      cases outcome <;> rfl
  · intro hending log
    refine tail_of_target hending rfl (appends_invoke .target
      { domain := route.binding.domain, pack := route.pack, providerId := route.binding.packId
        opId := route.targetOp, payload := .bytes payloadBytes, ctx } s.target) ?_ ?_ log
    · intro event hevent
      rw [List.mem_singleton.mp hevent]
      trivial
    · rw [← hname, ← opName_afterReplies]
      rfl

theorem assembled_providerOp {s : ProviderSurroundings} {domain : Domain} {providerType opId : String}
    {payloadBytes : List UInt8} {ctx : OperatorContext} {envelope : OperationEnvelope}
    (hgate : Eff.result (host.evaluateTokenValidationPreHook s.toSurroundings
      (.new s.opId opId payloadBytes ctx) payloadBytes ctx) = .ok (.Continue, envelope)) :
    Assembled host s.toSurroundings envelope opId opId
      (Eff.result (host.invokeProviderOpInner s domain providerType opId payloadBytes ctx)).isOk
      (Eff.written (host.invokeProviderOp s domain providerType opId payloadBytes ctx)) := by
  obtain ⟨hquiet, -⟩ := @gate_keeps host s.toSurroundings (.new s.opId opId payloadBytes ctx)
    payloadBytes ctx
  refine assembled_of_run (fun reason envelope => deniedOutcome envelope reason)
    (host.passToProvider s domain providerType opId payloadBytes ctx) hquiet ?_ ?_
  · unfold invokeProviderOp
    rw [Eff.bind_run, Eff.run_nil hgate]
    simp only
    rw [Eff.bind_run, evaluateHookChain_run]
    cases Eff.result (host.evaluateHooks s.toSurroundings .Pre 0 (host.resolveHookChain .Pre opId) envelope) with
    | error e => rfl
    | ok done =>
      obtain ⟨outcome, envelope'⟩ := done
      cases outcome <;> rfl
  · intro hending log
    exact tail_of_target hending rfl (appends_inner s domain providerType opId payloadBytes ctx)
      (quiet_inner s domain providerType opId payloadBytes ctx) rfl log

/-! ## Both entry points -/

/-- The gate lets the operation of a name through. -/
def GateContinues (host : DemoRunnerHost) (s : Surroundings) (opName : String) (payloadBytes : List UInt8)
    (ctx : OperatorContext) : Prop :=
  ∃ envelope, Eff.result (host.evaluateTokenValidationPreHook s (.new s.opId opName payloadBytes ctx)
    payloadBytes ctx) = .ok (.Continue, envelope)

/-- The call gets as far as its pre-hooks. -/
def Reaches (host : DemoRunnerHost) (s : ProviderSurroundings) (entry : Entry) (payloadBytes : List UInt8)
    (ctx : OperatorContext) : Prop :=
  match entry with
  | .capability capId op =>
    (∃ route, host.routeCapability s.toSurroundings capId op ctx = .ok (.inr route))
      ∧ GateContinues host s.toSurroundings entry.opName payloadBytes ctx
  | .providerOp _ _ _ => GateContinues host s.toSurroundings entry.opName payloadBytes ctx

/-- Whether the target gives an outcome. -/
def targetOk (host : DemoRunnerHost) (s : ProviderSurroundings) (entry : Entry) (payloadBytes : List UInt8)
    (ctx : OperatorContext) : Bool :=
  match entry with
  | .capability _ _ => s.target.isOk
  | .providerOp domain providerType opId =>
    (Eff.result (host.invokeProviderOpInner s domain providerType opId payloadBytes ctx)).isOk

/-- The name the post chain is taken for. -/
def postName (host : DemoRunnerHost) (s : ProviderSurroundings) (entry : Entry) : String :=
  match entry with
  | .capability _ _ => renamed host entry.opName (askedPre host s.toSurroundings entry.opName)
  | .providerOp _ _ _ => entry.opName

/-- The condition on a call: where it gets to its pre-hooks, its hooks keep its identity. -/
def Keeps (host : DemoRunnerHost) (s : ProviderSurroundings) (entry : Entry) (payloadBytes : List UInt8)
    (ctx : OperatorContext) : Prop :=
  Reaches host s entry payloadBytes ctx →
    HooksKeep host s.toSurroundings entry.opName (postName host s entry)
      (targetOk host s entry payloadBytes ctx) ctx

theorem chainIdentity_of_quiet {ctx : OperatorContext} {opName : String} {log : Log}
    (h : ∀ event ∈ log, Quiet event) : ChainIdentity host ctx opName log where
  chains _ _ hevent := absurd (h _ hevent) id
  stops := List.Pairwise.imp_of_mem (fun hevent _ _ => not_deniesPre_of_quiet (h _ hevent))
    (List.pairwise_of_forall (R := fun _ _ => True) fun _ _ => trivial)
  runs hchain := absurd (h _ hchain.choose_spec) id
  notReached _ htarget := absurd (h _ htarget) id
  context _ _ _ hevent := absurd (h _ hevent) id

variable {s : ProviderSurroundings} {payloadBytes : List UInt8} {ctx : OperatorContext}

/-- A call that does not get to its pre-hooks records nothing of hooks or the target. -/
theorem quiet_of_not_reaches {entry : Entry} (h : ¬ Reaches host s entry payloadBytes ctx) :
    ∀ event ∈ Eff.written (invoke host s entry payloadBytes ctx), Quiet event := by
  cases entry with
  | capability capId op =>
    obtain ⟨hquiet, -⟩ := @gate_keeps host s.toSurroundings (.new s.opId s!"cap.invoke:{capId}" payloadBytes ctx)
      payloadBytes ctx
    unfold Eff.written invoke invokeCapability
    simp only
    rw [Eff.bind_run, Eff.lift_run]
    cases hroute : host.routeCapability s.toSurroundings capId op ctx with
    | error e => exact fun _ hevent => absurd hevent List.not_mem_nil
    | ok routed =>
      cases routed with
      | inl outcome => exact fun _ hevent => absurd hevent List.not_mem_nil
      | inr route =>
        simp only
        rw [Eff.bind_run, Eff.run_nil rfl]
        cases hgate : Eff.result (host.evaluateTokenValidationPreHook s.toSurroundings
            (.new s.opId s!"cap.invoke:{capId}" payloadBytes ctx) payloadBytes ctx) with
        | error e => exact hquiet
        | ok done =>
          obtain ⟨outcome, envelope⟩ := done
          cases outcome with
          | Denied reason => exact hquiet
          | Continue => exact absurd ⟨⟨route, hroute⟩, envelope, hgate⟩ h
  | providerOp domain providerType opId =>
    obtain ⟨hquiet, -⟩ := @gate_keeps host s.toSurroundings (.new s.opId opId payloadBytes ctx) payloadBytes ctx
    unfold Eff.written invoke invokeProviderOp
    simp only
    rw [Eff.bind_run, Eff.run_nil rfl]
    cases hgate : Eff.result (host.evaluateTokenValidationPreHook s.toSurroundings
        (.new s.opId opId payloadBytes ctx) payloadBytes ctx) with
    | error e => exact hquiet
    | ok done =>
      obtain ⟨outcome, envelope⟩ := done
      cases outcome with
      | Denied reason => exact hquiet
      | Continue => exact absurd ⟨envelope, hgate⟩ h

/-- A call that gets to its pre-hooks has the shape, with an envelope under its context. -/
theorem assembled_of_reaches {entry : Entry} (h : Reaches host s entry payloadBytes ctx) :
    ∃ envelope, envelope.context = ctx ∧ Assembled host s.toSurroundings envelope entry.opName
      (postName host s entry) (targetOk host s entry payloadBytes ctx)
      (Eff.written (invoke host s entry payloadBytes ctx)) := by
  cases entry with
  | capability capId op =>
    obtain ⟨⟨route, hroute⟩, envelope, hgate⟩ := h
    exact ⟨envelope, ((gate_keeps _ _ _ _).2 _ _ hgate).2, assembled_capability hroute hgate⟩
  | providerOp domain providerType opId =>
    obtain ⟨envelope, hgate⟩ := h
    exact ⟨envelope, ((gate_keeps _ _ _ _).2 _ _ hgate).2, assembled_providerOp hgate⟩

theorem keeps_of_chainIdentity {entry : Entry}
    (h : ChainIdentity host ctx entry.opName (Eff.written (invoke host s entry payloadBytes ctx))) :
    Keeps host s entry payloadBytes ctx := by
  intro hreaches
  obtain ⟨envelope, hctx, hassembled⟩ := assembled_of_reaches hreaches
  exact (chainIdentity_of_assembled hassembled hctx).mp h

end Entry

/-- **A call keeps its identity exactly** where its hooks keep it. -/
theorem chainIdentity_iff (host : DemoRunnerHost) (s : ProviderSurroundings) (entry : Entry)
    (payloadBytes : List UInt8) (ctx : OperatorContext) :
    ChainIdentity host ctx entry.opName (Eff.written (invoke host s entry payloadBytes ctx))
      ↔ Keeps host s entry payloadBytes ctx := by
  refine ⟨keeps_of_chainIdentity, fun h => ?_⟩
  by_cases hreaches : Reaches host s entry payloadBytes ctx
  · obtain ⟨envelope, hctx, hassembled⟩ := assembled_of_reaches hreaches
    exact (chainIdentity_of_assembled hassembled hctx).mpr (h hreaches)
  · exact chainIdentity_of_quiet (quiet_of_not_reaches hreaches)

/-! ## A hook that names another tenant -/

def demoHook (id : String) : CapabilityOfferV1 := demoOffer id capOpHookPre "hook.evaluate" none

/-- The answer of a hook that allows the operation, with an envelope of a name and a tenant. -/
def allowAs (opName tenant : String) : Value :=
  .object [("decision", .string "allow"), ("envelope", .object
    [("ctx", .object [("tenant", .string tenant)]), ("op_id", .string "id"), ("op_name", .string opName),
      ("payload_cbor", .array []), ("status", .string "pending")])]

/-- Surroundings in which every component gives one reply. -/
def demoReplies (reply : Reply) : ProviderSurroundings where
  toSurroundings := demoSurroundings reply reply
  card := demoSurroundings reply reply

/-- After a hook that names another tenant the next hook is invoked for that tenant. -/
theorem hook_changes_tenant : ¬ ∀ (host : DemoRunnerHost) (s : ProviderSurroundings) (entry : Entry)
    (payloadBytes : List UInt8) (ctx : OperatorContext),
    ChainIdentity host ctx entry.opName (Eff.written (invoke host s entry payloadBytes ctx)) := by
  intro h
  let host := demoHost [demoHook "hook-a", demoHook "hook-b"]
  let reply := answered (allowAs "send_payload" "other")
  have hkeeps := keeps_of_chainIdentity (h host (demoReplies reply)
    (.providerOp .Messaging "messaging.demo" "send_payload") [] demoCtx)
  have hreaches : Reaches host (demoReplies reply) (.providerOp .Messaging "messaging.demo" "send_payload")
      [] demoCtx := by
    refine ⟨_, congrArg Prod.fst (gate_passes (Or.inr (Or.inl ?_)))⟩
    rfl
  have hcontext := (hkeeps hreaches).context
  have hasked : askedPre host (demoReplies reply).toSurroundings
      (Entry.providerOp .Messaging "messaging.demo" "send_payload").opName = [reply, reply] := by rfl
  have hreturned : (returned host reply).map (fun envelope => envelope.context.tenant) = some "other" := by
    decide +kernel
  obtain ⟨envelope, henvelope, htenant⟩ := Option.map_eq_some_iff.mp hreturned
  have hkept := hcontext reply (by rw [hasked]; exact List.mem_cons_self) envelope henvelope
  rw [hkept] at htenant
  exact absurd htenant (by decide)

end RunnerHost
