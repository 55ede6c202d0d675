import GreenticOperator.RunnerHost.Invoke

/-!
# What a chain of hooks does

The hooks of a chain are asked one after the other. `askedHooks` are the replies of those
that come to be invoked, and `chainEnding` says how the chain ends, both read off the replies
alone. `evaluateHooks_spec` is what evaluating the chain amounts to: one invocation for each
of these replies, each under the context of the envelope as the earlier replies left it
(`contexts`).

Each invocation is under the context of the caller exactly where every hook but the last one
invoked keeps it in the envelope it returns (`contexts_eq_iff`).
-/

namespace RunnerHost

open Json Domains Capabilities DemoRunnerHost

abbrev Reply := Except String FlowOutcome

/-- How a chain of hooks ends. -/
inductive Ending
  | through
  | denied
  | failed
deriving DecidableEq, Repr

variable (host : DemoRunnerHost) (s : Surroundings) (stage : HookStage)

/-- What a reply says, where it says anything. -/
def responseOf : Reply → Option HookEvalResponse
  | .ok outcome => host.hookResponse outcome
  | .error _ => none

/-- The envelope a reply brings back. -/
def returned (reply : Reply) : Option OperationEnvelope :=
  (responseOf host reply).bind HookEvalResponse.envelope

/-- A reply that denies the operation. -/
def denies (reply : Reply) : Bool := (denial stage (responseOf host reply)).isSome

/-- The replies of the hooks that come to be invoked, from the `i`th of a chain on. -/
def askedHooks : Nat → List CapabilityBinding → List Reply
  | _, [] => []
  | i, binding :: rest =>
    match host.packsByPath binding.packPath with
    | none => askedHooks (i + 1) rest
    | some _ =>
      match s.hook stage i with
      | .notEncoded _ => []
      | .answered (.error e) => [.error e]
      | .answered (.ok outcome) =>
        .ok outcome :: (if denies host stage (.ok outcome) then [] else askedHooks (i + 1) rest)

def chainEnding : Nat → List CapabilityBinding → Ending
  | _, [] => .through
  | i, binding :: rest =>
    match host.packsByPath binding.packPath with
    | none => chainEnding (i + 1) rest
    | some _ =>
      match s.hook stage i with
      | .notEncoded _ => .failed
      | .answered (.error _) => .failed
      | .answered (.ok outcome) =>
        if denies host stage (.ok outcome) then .denied else chainEnding (i + 1) rest

/-- The envelope after some replies. -/
def afterReplies (envelope : OperationEnvelope) (replies : List Reply) : OperationEnvelope :=
  replies.foldl (fun envelope reply => nextEnvelope envelope (responseOf host reply)) envelope

/-- The context each of some invocations is made under, given the replies to them. -/
def contexts (envelope : OperationEnvelope) : List Reply → List OperatorContext
  | [] => []
  | reply :: rest =>
    envelope.context :: contexts (nextEnvelope envelope (responseOf host reply)) rest

/-- The event of a hook's invocation. -/
def hookEvent (call : ComponentCall × Reply) : Event := .invoke (.hook stage) call.1 call.2

/-- The invocations of hooks with these replies, each under the context of its envelope. -/
def HookCalls (envelope : OperationEnvelope) (replies : List Reply) (events : Log) : Prop :=
  ∃ calls : List (ComponentCall × Reply), events = calls.map (hookEvent stage)
    ∧ calls.map Prod.snd = replies
    ∧ calls.map (fun call => call.1.ctx) = contexts host envelope replies

variable {host s stage}

theorem hookCalls_nil (envelope : OperationEnvelope) : HookCalls host stage envelope [] [] :=
  ⟨[], rfl, rfl, rfl⟩

theorem HookCalls.cons {envelope : OperationEnvelope} {call : ComponentCall} {reply : Reply}
    {replies : List Reply} {events : Log} (hctx : call.ctx = envelope.context)
    (h : HookCalls host stage (nextEnvelope envelope (responseOf host reply)) replies events) :
    HookCalls host stage envelope (reply :: replies) (.invoke (.hook stage) call reply :: events) := by
  obtain ⟨calls, rfl, hreplies, hcontexts⟩ := h
  refine ⟨(call, reply) :: calls, rfl, ?_, ?_⟩
  · rw [List.map_cons, hreplies]
  · rw [List.map_cons, hcontexts, hctx]
    rfl

/-! ## Evaluating a chain -/

theorem appends_record (event : Event) : Eff.Appends (record event) := fun _ => rfl

theorem invoke_run (purpose : Purpose) (call : ComponentCall) (reply : Reply) (log : Log) :
    (invokeProviderComponentOp purpose call reply).run log = (reply, log ++ [.invoke purpose call reply]) :=
  rfl

theorem appends_invoke (purpose : Purpose) (call : ComponentCall) (reply : Reply) :
    Eff.Appends (invokeProviderComponentOp purpose call reply) :=
  (appends_record _).bind fun _ => Eff.Appends.lift reply

theorem appends_evaluateHooks (i : Nat) (chain : List CapabilityBinding) (envelope : OperationEnvelope) :
    Eff.Appends (evaluateHooks host s stage i chain envelope) := by
  induction chain generalizing i envelope with
  | nil => exact Eff.Appends.pure _
  | cons binding rest ih =>
    unfold evaluateHooks
    split
    · exact ih _ _
    · split
      · exact Eff.Appends.fail _
      · refine (appends_invoke _ _ _).bind fun outcome => ?_
        simp only
        split
        · exact Eff.Appends.pure _
        · exact ih _ _

/-- The result of a chain that ends in a way, with the envelope it leaves. -/
def EndsAs (ending : Ending) (envelope : OperationEnvelope)
    (result : Except String (HookChainOutcome × OperationEnvelope)) : Prop :=
  match ending with
  | .through => result = .ok (.Continue, envelope)
  | .denied => ∃ reason, result = .ok (.Denied reason, envelope)
  | .failed => ∃ e, result = .error e

section Step

variable {i : Nat} {binding : CapabilityBinding} {rest : List CapabilityBinding}
  {envelope : OperationEnvelope} {pack : ProviderPack} {outcome : FlowOutcome}
  (hpack : host.packsByPath binding.packPath = some pack)
  (hanswer : s.hook stage i = .answered (.ok outcome))

/-- The invocation of a hook under an envelope. -/
def hookCall (stage : HookStage) (binding : CapabilityBinding) (pack : ProviderPack)
    (envelope : OperationEnvelope) : ComponentCall where
  domain := binding.domain
  pack
  providerId := binding.packId
  opId := binding.providerOp
  payload := .hook { stage := stageText stage, opName := envelope.opName, envelope }
  ctx := envelope.context

include hpack hanswer

/-- A hook that answers with a denial ends its chain. -/
theorem evaluateHooks_denied {reason : String} (h : denial stage (host.hookResponse outcome) = some reason)
    (log : Log) :
    (evaluateHooks host s stage i (binding :: rest) envelope).run log
      = (.ok (.Denied reason, nextEnvelope envelope (host.hookResponse outcome)),
        log ++ [.invoke (.hook stage) (hookCall stage binding pack envelope) (.ok outcome)]) := by
  unfold evaluateHooks
  simp only [hpack, hanswer]
  rw [Eff.bind_run, invoke_run]
  simp only [h]
  rfl

/-- A hook that answers otherwise hands its envelope on to the next one. -/
theorem evaluateHooks_passed (h : denial stage (host.hookResponse outcome) = none) (log : Log) :
    (evaluateHooks host s stage i (binding :: rest) envelope).run log
      = (evaluateHooks host s stage (i + 1) rest (nextEnvelope envelope (host.hookResponse outcome))).run
        (log ++ [.invoke (.hook stage) (hookCall stage binding pack envelope) (.ok outcome)]) := by
  rw [evaluateHooks]
  simp only [hpack, hanswer]
  rw [Eff.bind_run, invoke_run]
  simp only [h]
  rfl

end Step

/-- **Evaluating a chain** invokes the hooks that come to be asked, and ends as their
replies say. -/
theorem evaluateHooks_spec (i : Nat) (chain : List CapabilityBinding) (envelope : OperationEnvelope) :
    HookCalls host stage envelope (askedHooks host s stage i chain)
        (Eff.written (evaluateHooks host s stage i chain envelope))
      ∧ EndsAs (chainEnding host s stage i chain)
        (afterReplies host envelope (askedHooks host s stage i chain))
        (Eff.result (evaluateHooks host s stage i chain envelope)) := by
  induction chain generalizing i envelope with
  | nil => exact ⟨hookCalls_nil envelope, rfl⟩
  | cons binding rest ih =>
    unfold Eff.written Eff.result askedHooks chainEnding
    cases hpack : host.packsByPath binding.packPath with
    | none =>
      unfold evaluateHooks
      rw [hpack]
      exact ih _ _
    | some pack =>
      cases hanswer : s.hook stage i with
      | notEncoded message =>
        unfold evaluateHooks
        simp only [hpack, hanswer]
        exact ⟨hookCalls_nil envelope, _, rfl⟩
      | answered reply =>
        cases reply with
        | error e =>
          unfold evaluateHooks
          simp only [hpack, hanswer]
          exact ⟨HookCalls.cons rfl (hookCalls_nil _), e, rfl⟩
        | ok outcome =>
          simp only
          unfold denies
          rw [show responseOf host (.ok outcome) = host.hookResponse outcome from rfl]
          cases hdenial : denial stage (host.hookResponse outcome) with
          | some reason =>
            rw [evaluateHooks_denied hpack hanswer hdenial]
            exact ⟨HookCalls.cons rfl (hookCalls_nil _), reason, rfl⟩
          | none =>
            rw [evaluateHooks_passed hpack hanswer hdenial, appends_evaluateHooks _ _ _ _]
            obtain ⟨hcalls, hends⟩ := ih (i + 1) (nextEnvelope envelope (host.hookResponse outcome))
            exact ⟨HookCalls.cons rfl hcalls, hends⟩

/-! ## Denials -/

theorem singleton_eq_append {α : Type} {a b : α} {before after : List α} (h : [a] = before ++ b :: after) :
    before = [] ∧ a = b ∧ after = [] := by
  cases before with
  | nil =>
    obtain ⟨hab, hafter⟩ := List.cons.inj h
    exact ⟨rfl, hab, hafter.symm⟩
  | cons c before =>
    have hnil := (List.cons.inj h).2
    exact absurd hnil.symm (List.append_ne_nil_of_right_ne_nil before (List.cons_ne_nil _ _))

/-- A denial is the last reply of a chain, and the chain then ends as denied. -/
theorem denies_askedHooks {i : Nat} {chain : List CapabilityBinding} {reply : Reply} {before after : List Reply}
    (hasked : askedHooks host s stage i chain = before ++ reply :: after)
    (hdenies : denies host stage reply = true) :
    after = [] ∧ chainEnding host s stage i chain = .denied := by
  induction chain generalizing i before with
  | nil => exact absurd hasked.symm (List.append_ne_nil_of_right_ne_nil before (List.cons_ne_nil _ _))
  | cons binding rest ih =>
    unfold askedHooks at hasked
    unfold chainEnding
    cases hpack : host.packsByPath binding.packPath with
    | none =>
      rw [hpack] at hasked
      exact ih hasked
    | some pack =>
      rw [hpack] at hasked
      cases hanswer : s.hook stage i with
      | notEncoded message =>
        rw [hanswer] at hasked
        exact absurd hasked.symm (List.append_ne_nil_of_right_ne_nil before (List.cons_ne_nil _ _))
      | answered first =>
        rw [hanswer] at hasked
        cases first with
        | error e =>
          obtain ⟨-, hreply, -⟩ := singleton_eq_append hasked
          rw [← hreply] at hdenies
          cases hdenies
        | ok outcome =>
          simp only at hasked ⊢
          cases hfirst : denies host stage (.ok outcome) with
          | true =>
            rw [hfirst, if_pos rfl] at hasked
            exact ⟨(singleton_eq_append hasked).2.2, rfl⟩
          | false =>
            rw [hfirst, if_neg Bool.false_ne_true] at hasked
            rw [if_neg Bool.false_ne_true]
            cases before with
            | nil =>
              obtain ⟨hreply, -⟩ := List.cons.inj hasked
              rw [← hreply, hfirst] at hdenies
              cases hdenies
            | cons _ before => exact ih (List.cons.inj hasked).2

/-- A chain that ends as denied was denied by one of its replies. -/
theorem exists_denies {i : Nat} {chain : List CapabilityBinding}
    (h : chainEnding host s stage i chain = .denied) :
    ∃ reply ∈ askedHooks host s stage i chain, denies host stage reply = true := by
  induction chain generalizing i with
  | nil => cases h
  | cons binding rest ih =>
    unfold chainEnding at h
    unfold askedHooks
    cases hpack : host.packsByPath binding.packPath with
    | none =>
      rw [hpack] at h
      exact ih h
    | some pack =>
      rw [hpack] at h
      cases hanswer : s.hook stage i with
      | notEncoded message =>
        rw [hanswer] at h
        cases h
      | answered reply =>
        rw [hanswer] at h
        cases reply with
        | error e => cases h
        | ok outcome =>
          simp only at h ⊢
          cases hdenies : denies host stage (.ok outcome) with
          | true => exact ⟨_, List.mem_cons_self, hdenies⟩
          | false =>
            rw [hdenies, if_neg Bool.false_ne_true] at h
            rw [if_neg Bool.false_ne_true]
            obtain ⟨reply, hreply, hdenied⟩ := ih h
            exact ⟨reply, List.mem_cons_of_mem _ hreply, hdenied⟩

/-! ## Contexts -/

theorem nextEnvelope_eq (envelope : OperationEnvelope) (reply : Reply) :
    nextEnvelope envelope (responseOf host reply) = (returned host reply).getD envelope := rfl

theorem contexts_congr {envelope again : OperationEnvelope} (h : envelope.context = again.context)
    (replies : List Reply) : contexts host envelope replies = contexts host again replies := by
  induction replies generalizing envelope again with
  | nil => rfl
  | cons reply rest ih =>
    unfold contexts
    rw [h, nextEnvelope_eq, nextEnvelope_eq]
    cases returned host reply with
    | none => exact congrArg (again.context :: ·) (ih h)
    | some updated => rfl

theorem contexts_append (envelope : OperationEnvelope) (replies more : List Reply) :
    contexts host envelope (replies ++ more)
      = contexts host envelope replies ++ contexts host (afterReplies host envelope replies) more := by
  induction replies generalizing envelope with
  | nil => rfl
  | cons reply rest ih =>
    rw [List.cons_append, contexts, contexts, ih]
    rfl

/-- Every hook but the last one invoked keeps the caller's context in the envelope it
returns, if it returns one. -/
def KeepContext (host : DemoRunnerHost) (ctx : OperatorContext) (replies : List Reply) : Prop :=
  ∀ reply ∈ replies.dropLast, ∀ envelope, returned host reply = some envelope → envelope.context = ctx

/-- **Every hook is invoked under the caller's context exactly** where all but the last keep
it. -/
theorem contexts_eq_iff {envelope : OperationEnvelope} {ctx : OperatorContext}
    (h : envelope.context = ctx) (replies : List Reply) :
    (∀ context ∈ contexts host envelope replies, context = ctx) ↔ KeepContext host ctx replies := by
  induction replies generalizing envelope with
  | nil => exact ⟨fun _ _ hmem => absurd hmem List.not_mem_nil, fun _ _ hmem => absurd hmem List.not_mem_nil⟩
  | cons reply rest ih =>
    cases rest with
    | nil =>
      constructor
      · exact fun _ _ hmem => absurd hmem List.not_mem_nil
      · intro _ context hcontext
        rw [contexts, contexts, List.mem_singleton] at hcontext
        rw [hcontext, h]
    | cons next rest =>
      have hnext : (nextEnvelope envelope (responseOf host reply)).context = ctx
          ↔ ∀ updated, returned host reply = some updated → updated.context = ctx := by
        rw [nextEnvelope_eq]
        cases returned host reply with
        | none => exact ⟨fun _ _ hnone => (nomatch hnone), fun _ => h⟩
        | some updated =>
          exact ⟨fun hsome _ heq => (Option.some.inj heq) ▸ hsome, fun hall => hall updated rfl⟩
      rw [contexts, List.forall_mem_cons]
      constructor
      · rintro ⟨-, hrest⟩
        have hctx := hrest _ (by rw [contexts]; exact List.mem_cons_self)
        intro kept hkept
        rw [List.dropLast_cons_cons] at hkept
        rcases List.mem_cons.mp hkept with rfl | hkept
        · exact hnext.mp hctx
        · exact (ih hctx).mp hrest kept hkept
      · intro hkeep
        have hctx := hnext.mpr (hkeep reply (by rw [List.dropLast_cons_cons]; exact List.mem_cons_self))
        refine ⟨h, (ih hctx).mpr fun kept hkept => hkeep kept ?_⟩
        rw [List.dropLast_cons_cons]
        exact List.mem_cons_of_mem reply hkept

/-! ## Names -/

/-- The operation name after some replies: that of the last envelope returned. -/
def renamed (host : DemoRunnerHost) (opName : String) (replies : List Reply) : String :=
  (((replies.filterMap (returned host)).getLast?).map OperationEnvelope.opName).getD opName

theorem opName_afterReplies (envelope : OperationEnvelope) (replies : List Reply) :
    (afterReplies host envelope replies).opName = renamed host envelope.opName replies := by
  induction replies generalizing envelope with
  | nil => rfl
  | cons reply rest ih =>
    show (afterReplies host (nextEnvelope envelope (responseOf host reply)) rest).opName = _
    rw [ih, nextEnvelope_eq]
    unfold renamed
    rw [List.filterMap_cons]
    cases returned host reply with
    | none => rfl
    | some updated =>
      rw [List.getLast?_cons]
      cases (rest.filterMap (returned host)).getLast? <;> rfl

end RunnerHost
