import GreenticOperator.Hooks.InPlace

/-!
# What the hooks make of an answer

Each hook decides on the answer it is asked about (`decision`): it passes, its directive is carried
out, or the chain ends with an error. **The law** (`runInPlace_eq`): the loop that changes the answer
in place ends as the first hook that does not pass decides, each of them deciding on the answer as it
was at the start; a directive that cannot be carried out has changed nothing
(`applyInPlace_of_fails`), and no hook is asked after the first that decides.
-/

namespace Hooks

open Json Domains HttpIngress Ingress Offers RunnerHost
open MessagingUniversal (HttpInV1 HttpOutV1)

variable {codec : Codec} {host : Host} {w : World} {provider : String} {ctx : OperatorContext}

/-! ## One directive -/

/-- Whether a directive of the hook of number `i` can be carried out. -/
def Host.carriesOut (host : Host) (i : Nat) (body : HookIngressBody) : ControlDirective → Bool
  | .Dispatch target => (host.dispatch i body target).toOption.isSome
  | _ => true

/-- The effect of a directive on an answer. -/
def effect (codec : Codec) (body : HookIngressBody) : ControlDirective → HookIngressBody
  | .Continue => body
  | .Respond reply => applyReply codec body reply false
  | .Deny reply => applyReply codec body reply true
  | .Dispatch target => { body with
      responseStatus := 202
      responseHeaders := [("content-type", "application/json")]
      responseBody := some (codec.toVec (.ofFields [("ok", .bool true), ("dispatched", .bool true),
        ("target", targetValue target)]))
      events := [] }

theorem applyReplyInPlace_run (reply : IngressReply) (denyDefault : Bool) (body : HookIngressBody) :
    (applyReplyInPlace codec reply denyDefault).run body = (.ok (), applyReply codec body reply denyDefault) := by
  obtain ⟨text, card, status, reason⟩ := reply
  cases reason <;> cases card <;> cases text <;> rfl

/-- A directive that can be carried out has its whole effect. -/
theorem applyInPlace_of_carriesOut {i : Nat} {body : HookIngressBody} {directive : ControlDirective}
    (h : host.carriesOut i body directive = true) :
    (applyInPlace codec host i directive).run body = (.ok (), effect codec body directive) := by
  cases directive with
  | Continue => rfl
  | Respond reply => exact applyReplyInPlace_run reply false body
  | Deny reply => exact applyReplyInPlace_run reply true body
  | Dispatch target =>
    have hdispatch : host.dispatch i body target = .ok () := by
      obtain ⟨_, hsome⟩ := Option.isSome_iff_exists.mp h
      exact Outcome.toOption_eq_some_iff.mp hsome
    have hread : (Eff.read id).run body = (.ok body, body) := rfl
    have hlift : (Eff.lift (host.dispatch i body target)).run body = (.ok (), body) :=
      congrArg (Prod.mk · body) hdispatch
    rw [applyInPlace, Eff.bind_run_of_ok hread, Eff.bind_run_of_ok hlift]
    rfl

/-- **A directive that cannot be carried out** changes nothing. -/
theorem applyInPlace_of_fails {i : Nat} {body : HookIngressBody} {directive : ControlDirective}
    (h : host.carriesOut i body directive = false) :
    ∃ err, (applyInPlace codec host i directive).run body = (.error err, body) := by
  cases directive with
  | Continue => cases h
  | Respond reply => cases h
  | Deny reply => cases h
  | Dispatch target =>
    cases hdispatch : host.dispatch i body target with
    | ok done =>
      simp [Host.carriesOut, hdispatch, Except.toOption] at h
    | error err =>
      have hread : (Eff.read id).run body = (.ok body, body) := rfl
      have hlift : (Eff.lift (host.dispatch i body target)).run body = (.error err, body) :=
        congrArg (Prod.mk · body) hdispatch
      refine ⟨err, ?_⟩
      rw [applyInPlace, Eff.bind_run_of_ok hread, Eff.bind_run_of_error hlift]

/-! ## One hook -/

/-- How a hook that does not pass ends the chain. -/
inductive Decision
  | takes (directive : ControlDirective)
  | unasked
  | fails (message : String)

/-- What the hook of number `i` decides on an answer; none where it passes. -/
def decision (codec : Codec) (host : Host) (provider : String) (ctx : OperatorContext)
    (body : HookIngressBody) (i : Nat) (offer : Offer) : Option Decision :=
  if (codec.toCanonicalCbor (hookPayload codec provider ctx body)).isNone then some .unasked
  else match host.ask i offer (hookPayload codec provider ctx body) with
  | .error message => some (.fails message)
  | .ok outcome =>
    match directiveOfReply codec outcome with
    | none => none
    | some directive => if host.carriesOut i body directive then some (.takes directive) else none

/-- What the first of the hooks from number `i` on decides that does not pass, and its number. -/
def decided (codec : Codec) (host : Host) (provider : String) (ctx : OperatorContext)
    (body : HookIngressBody) (i : Nat) (hooks : List Offer) : Option (Nat × Decision) :=
  (hooks.zipIdx i).findSome? fun hook =>
    (decision codec host provider ctx body hook.2 hook.1).map fun d => (hook.2, d)

/-- The end of a chain of hooks from number `i` on. -/
def ending (codec : Codec) (body : HookIngressBody) (asked : List Offer) (i : Nat) (hooks : List Offer) :
    Option (Nat × Decision) → Except String (Option ControlDirective) × Chain
  | none => (.ok none, ⟨body, asked ++ hooks⟩)
  | some (j, .takes directive) =>
    (.ok (some directive), ⟨effect codec body directive, asked ++ hooks.take (j + 1 - i)⟩)
  | some (j, .unasked) => (.error "encode hook post_ingress payload", ⟨body, asked ++ hooks.take (j - i)⟩)
  | some (j, .fails message) => (.error message, ⟨body, asked ++ hooks.take (j + 1 - i)⟩)

section Loop

variable {body : HookIngressBody} {asked : List Offer} {i : Nat} {offer : Offer} {rest : List Offer}

theorem decided_cons_of_passes (h : decision codec host provider ctx body i offer = none) :
    decided codec host provider ctx body i (offer :: rest)
      = decided codec host provider ctx body (i + 1) rest := by
  unfold decided
  simp only [List.zipIdx_cons, List.findSome?_cons, h, Option.map_none]

theorem decided_cons_of_decides {d : Decision} (h : decision codec host provider ctx body i offer = some d) :
    decided codec host provider ctx body i (offer :: rest) = some (i, d) := by
  unfold decided
  simp only [List.zipIdx_cons, List.findSome?_cons, h, Option.map_some]

/-- The hooks from number `i` on have numbers from `i` on. -/
theorem le_of_decided {hooks : List Offer} {j : Nat} {d : Decision}
    (h : decided codec host provider ctx body i hooks = some (j, d)) : i ≤ j := by
  obtain ⟨hook, hmem, hdecision⟩ := List.exists_of_findSome?_eq_some h
  obtain ⟨_, -, heq⟩ := Option.map_eq_some_iff.mp hdecision
  cases heq
  exact (List.mem_zipIdx hmem).1

/-- The hook whose directive is carried out was asked and gave it. -/
theorem exists_of_decided_takes {hooks : List Offer} {j : Nat} {directive : ControlDirective}
    (h : decided codec host provider ctx body i hooks = some (j, .takes directive)) :
    ∃ offer outcome, host.ask j offer (hookPayload codec provider ctx body) = .ok outcome
      ∧ directiveOfReply codec outcome = some directive := by
  obtain ⟨⟨offer, k⟩, -, hdecision⟩ := List.exists_of_findSome?_eq_some h
  obtain ⟨d, hd, heq⟩ := Option.map_eq_some_iff.mp hdecision
  obtain ⟨rfl, rfl⟩ := Prod.mk.inj heq
  unfold decision at hd
  split at hd
  · cases hd
  · cases hask : host.ask k offer (hookPayload codec provider ctx body) with
    | error message =>
      rw [hask] at hd
      cases hd
    | ok outcome =>
      rw [hask] at hd
      cases hdirective : directiveOfReply codec outcome with
      | none =>
        simp only [hdirective, reduceCtorEq] at hd
      | some found =>
        simp only [hdirective] at hd
        split at hd
        · cases hd
          exact ⟨offer, outcome, hask, hdirective⟩
        · cases hd

/-- A hook that passes is asked, and the rest of the chain runs on the answer as it was. -/
theorem ending_cons (hooks : List Offer) (result : Option (Nat × Decision))
    (h : ∀ j d, result = some (j, d) → i + 1 ≤ j) :
    ending codec body (asked ++ [offer]) (i + 1) hooks result
      = ending codec body asked i (offer :: hooks) result := by
  cases result with
  | none => simp [ending]
  | some found =>
    obtain ⟨j, d⟩ := found
    have hle := h j d rfl
    have hone : j + 1 - i = j + 1 - (i + 1) + 1 := by omega
    have htwo : j - i = j - (i + 1) + 1 := by omega
    cases d with
    | takes directive => simp [ending, hone]
    | unasked => simp [ending, htwo]
    | fails message => simp [ending, hone]

theorem runInPlace_of_unasked (h : (codec.toCanonicalCbor (hookPayload codec provider ctx body)).isNone = true) :
    (runInPlace codec host provider ctx i (offer :: rest)).run ⟨body, asked⟩
      = (.error "encode hook post_ingress payload", ⟨body, asked⟩) := by
  rw [runInPlace, Eff.bind_run_of_ok (Eff.read_run _ _), if_pos h]
  rfl

/-- A hook that is asked. -/
theorem runInPlace_of_asked (h : ¬ (codec.toCanonicalCbor (hookPayload codec provider ctx body)).isNone = true) :
    (runInPlace codec host provider ctx i (offer :: rest)).run ⟨body, asked⟩
      = match host.ask i offer (hookPayload codec provider ctx body) with
        | .error message => (.error message, ⟨body, asked ++ [offer]⟩)
        | .ok outcome =>
          match directiveOfReply codec outcome with
          | none => (runInPlace codec host provider ctx (i + 1) rest).run ⟨body, asked ++ [offer]⟩
          | some directive =>
            match (applyInPlace codec host i directive).run body with
            | (.ok _, body) => (.ok (some directive), ⟨body, asked ++ [offer]⟩)
            | (.error _, body) => (runInPlace codec host provider ctx (i + 1) rest).run ⟨body, asked ++ [offer]⟩ := by
  rw [runInPlace, Eff.bind_run_of_ok (Eff.read_run _ _), if_neg h]
  cases hask : host.ask i offer (hookPayload codec provider ctx body) with
  | error message =>
    simp only [Eff.bind_run, Eff.modify_run, Eff.lift_run]
  | ok outcome =>
    simp only [Eff.bind_run, Eff.modify_run, Eff.lift_run]
    cases hdirective : directiveOfReply codec outcome with
    | none => rfl
    | some directive =>
      rw [Eff.bind_run, Eff.attempt_run, onBody_run]
      cases happly : (applyInPlace codec host i directive).run body with
      | mk result body' => cases result <;> simp only [happly, Eff.pure_run]

/-- **The loop over the hooks**: it ends as the first hook that does not pass decides, each on the
answer as it was at the start. -/
theorem runInPlace_eq (hooks : List Offer) (i : Nat) (body : HookIngressBody) (asked : List Offer) :
    (runInPlace codec host provider ctx i hooks).run ⟨body, asked⟩
      = ending codec body asked i hooks (decided codec host provider ctx body i hooks) := by
  induction hooks generalizing i asked with
  | nil => simp [runInPlace, decided, ending]
  | cons offer rest ih =>
    have hlater : ∀ j d, decided codec host provider ctx body (i + 1) rest = some (j, d) → i + 1 ≤ j :=
      fun _ _ => le_of_decided
    have hpasses : decision codec host provider ctx body i offer = none →
        (runInPlace codec host provider ctx (i + 1) rest).run ⟨body, asked ++ [offer]⟩
          = ending codec body asked i (offer :: rest)
            (decided codec host provider ctx body i (offer :: rest)) := by
      intro hnone
      rw [ih, decided_cons_of_passes hnone, ending_cons rest _ hlater]
    by_cases hencode : (codec.toCanonicalCbor (hookPayload codec provider ctx body)).isNone = true
    · have hdecision : decision codec host provider ctx body i offer = some .unasked := by
        rw [decision, if_pos hencode]
      rw [runInPlace_of_unasked hencode, decided_cons_of_decides hdecision]
      simp [ending]
    · rw [runInPlace_of_asked hencode]
      cases hask : host.ask i offer (hookPayload codec provider ctx body) with
      | error message =>
        have hdecision : decision codec host provider ctx body i offer = some (.fails message) := by
          rw [decision, if_neg hencode, hask]
        rw [decided_cons_of_decides hdecision]
        simp [ending]
      | ok outcome =>
        cases hdirective : directiveOfReply codec outcome with
        | none =>
          simp only [hdirective]
          exact hpasses (by simp only [decision, if_neg hencode, hask, hdirective])
        | some directive =>
          cases hcarries : host.carriesOut i body directive with
          | true =>
            have hdecision : decision codec host provider ctx body i offer = some (.takes directive) := by
              simp only [decision, if_neg hencode, hask, hdirective, hcarries, if_true]
            simp only [hdirective, applyInPlace_of_carriesOut hcarries]
            rw [decided_cons_of_decides hdecision]
            simp [ending]
          | false =>
            obtain ⟨err, happly⟩ := @applyInPlace_of_fails codec host i body directive hcarries
            simp only [hdirective, happly]
            refine hpasses ?_
            simp only [decision, if_neg hencode, hask, hdirective, hcarries, Bool.false_eq_true, if_false]

end Loop

/-! ## The loop that makes a new answer -/

/-- The host that answers as the world does. -/
def World.asHost (w : World) : Host where
  ask i _ _ := w.reply i
  dispatch i _ target := dispatchToTarget w i target

theorem applyInPlace_eq_apply (i : Nat) (body : HookIngressBody) (directive : ControlDirective) :
    (applyInPlace codec w.asHost i directive).run body
      = match applyControlDirective codec w i body directive with
        | .ok body => (.ok (), body)
        | .error err => (.error err, body) := by
  cases directive with
  | Continue => rfl
  | Respond reply => exact applyReplyInPlace_run reply false body
  | Deny reply => exact applyReplyInPlace_run reply true body
  | Dispatch target =>
    have hread : (Eff.read id).run body = (.ok body, body) := rfl
    rw [applyInPlace, Eff.bind_run_of_ok hread]
    cases hdispatch : dispatchToTarget w i target with
    | ok done =>
      have hlift : (Eff.lift (w.asHost.dispatch i body target)).run body = (.ok (), body) :=
        congrArg (Prod.mk · body) hdispatch
      rw [Eff.bind_run_of_ok hlift, applyControlDirective, hdispatch]
      rfl
    | error err =>
      have hlift : (Eff.lift (w.asHost.dispatch i body target)).run body = (.error err, body) :=
        congrArg (Prod.mk · body) hdispatch
      rw [Eff.bind_run_of_error hlift, applyControlDirective, hdispatch]
      rfl

/-- **The two loops agree**: the one that makes a new answer gives the one changed in place. -/
theorem runHooks_eq_runInPlace (hooks : List Offer) (i : Nat) (body : HookIngressBody) (asked : List Offer) :
    runHooks codec w provider ctx i hooks body
      = match (runInPlace codec w.asHost provider ctx i hooks).run ⟨body, asked⟩ with
        | (.ok applied, chain) => .ok (chain.body, applied)
        | (.error err, _) => .error err := by
  induction hooks generalizing i asked with
  | nil => rfl
  | cons offer rest ih =>
    rw [runHooks]
    by_cases hencode : (codec.toCanonicalCbor (hookPayload codec provider ctx body)).isNone = true
    · rw [runInPlace_of_unasked hencode, if_pos hencode]
      rfl
    · rw [runInPlace_of_asked hencode, if_neg hencode]
      show (w.reply i >>= _) = _
      cases hreply : w.asHost.ask i offer (hookPayload codec provider ctx body) with
      | error message =>
        rw [show w.reply i = .error message from hreply]
        rfl
      | ok outcome =>
        rw [show w.reply i = .ok outcome from hreply]
        dsimp only [bind, Except.bind]
        cases hdirective : directiveOfReply codec outcome with
        | none => exact ih (i + 1) (asked ++ [offer])
        | some directive =>
          simp only [applyInPlace_eq_apply]
          cases happly : applyControlDirective codec w i body directive with
          | ok body' => rfl
          | error err => exact ih (i + 1) (asked ++ [offer])

end Hooks
