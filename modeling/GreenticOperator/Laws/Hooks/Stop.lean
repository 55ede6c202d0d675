import GreenticOperator.HttpIngress.Dispatch

/-!
# Whether a directive stops the message

A directive that a hook has applied should stop the request: no message of the provider's answer
reaches the app flow (`Stops`). An applied directive clears the events of the answer, but not its
messages (`dispatch_of_applied`), so it stops the request only where all of them come from bots
(`stops_iff`).
-/

namespace Hooks

open Json Domains HttpIngress Ingress Offers RunnerHost
open MessagingUniversal (ChannelMessageEnvelope)

variable {codec : Codec} {w : World} {provider : String} {ctx : OperatorContext}

/-! ## One hook -/

/-- A directive that can be applied for hook `i`. -/
def Applicable (w : World) (i : Nat) : ControlDirective → Prop
  | .Dispatch target => dispatchToTarget w i target = .ok ()
  | _ => True

/-- Hook `i` answers with nothing that can be applied. -/
def Passes (codec : Codec) (w : World) (i : Nat) : Prop :=
  ∃ outcome, w.reply i = .ok outcome
    ∧ ∀ directive, directiveOfReply codec outcome = some directive → ¬ Applicable w i directive

/-- Hook `i` answers with a directive that can be applied. -/
def Takes (codec : Codec) (w : World) (i : Nat) (directive : ControlDirective) : Prop :=
  ∃ outcome, w.reply i = .ok outcome ∧ directiveOfReply codec outcome = some directive
    ∧ Applicable w i directive

theorem apply_ok_iff {i : Nat} {body : HookIngressBody} {directive : ControlDirective} :
    (∃ body', applyControlDirective codec w i body directive = .ok body')
      ↔ Applicable w i directive := by
  cases directive with
  | Continue => simp [applyControlDirective, Applicable]
  | Respond reply => simp [applyControlDirective, Applicable]
  | Deny reply => simp [applyControlDirective, Applicable]
  | Dispatch target =>
    simp only [applyControlDirective, Applicable, Outcome.bind_eq_ok_iff]
    constructor
    · rintro ⟨body', _, hdispatch, -⟩
      exact hdispatch
    · intro hdispatch
      exact ⟨_, (), hdispatch, rfl⟩

/-- What a hook asks to apply is not to go on. -/
theorem directiveOfReply_ne_continue {outcome : FlowOutcome} :
    directiveOfReply codec outcome ≠ some .Continue := by
  unfold directiveOfReply
  split
  · exact nofun
  · split
    · exact nofun
    next hne => exact fun h => hne h

theorem events_applyReply (body : HookIngressBody) (reply : IngressReply) (denyDefault : Bool) :
    (applyReply codec body reply denyDefault).events = [] := by
  dsimp only [applyReply]
  split <;> rfl

/-- An applied directive clears the events. -/
theorem events_of_apply {i : Nat} {body body' : HookIngressBody} {directive : ControlDirective}
    (h : applyControlDirective codec w i body directive = .ok body') (hne : directive ≠ .Continue) :
    body'.events = [] := by
  cases directive with
  | Continue => exact absurd rfl hne
  | Respond reply =>
    cases h
    exact events_applyReply body reply false
  | Deny reply =>
    cases h
    exact events_applyReply body reply true
  | Dispatch target =>
    unfold applyControlDirective at h
    obtain ⟨_, -, h⟩ := Outcome.bind_eq_ok_iff.mp h
    cases h
    rfl

/-- A hook that answers either passes or asks for something that can be applied. -/
theorem passes_or_takes {i : Nat} {outcome : FlowOutcome} (h : w.reply i = .ok outcome) :
    Passes codec w i ∨ ∃ directive, Takes codec w i directive := by
  by_cases htakes : ∃ directive, directiveOfReply codec outcome = some directive ∧ Applicable w i directive
  · obtain ⟨directive, hdirective, happlicable⟩ := htakes
    exact .inr ⟨directive, outcome, h, hdirective, happlicable⟩
  · refine .inl ⟨outcome, h, fun directive hdirective happlicable => htakes ?_⟩
    exact ⟨directive, hdirective, happlicable⟩

/-! ## The hooks of a request -/

/-- What a hook is asked about `body` can be encoded. -/
def Encodes (codec : Codec) (provider : String) (ctx : OperatorContext) (body : HookIngressBody) : Prop :=
  (codec.toCanonicalCbor (hookPayload codec provider ctx body)).isSome

/-- `directive` is that of the first of `n` hooks, from number `k` on, to ask for something that
can be applied. -/
def FirstTakes (codec : Codec) (w : World) (k n : Nat) (directive : ControlDirective) : Prop :=
  ∃ i, i < n ∧ (∀ j, j < i → Passes codec w (k + j)) ∧ Takes codec w (k + i) directive

theorem not_firstTakes_zero {k : Nat} {directive : ControlDirective} :
    ¬ FirstTakes codec w k 0 directive := by
  rintro ⟨i, hi, -⟩
  omega

/-- The first to ask is the next one, or it passes and the first is among the rest. -/
theorem firstTakes_succ_iff {k n : Nat} {directive : ControlDirective} :
    FirstTakes codec w k (n + 1) directive
      ↔ Takes codec w k directive ∨ Passes codec w k ∧ FirstTakes codec w (k + 1) n directive := by
  constructor
  · rintro ⟨i, hi, hpass, htake⟩
    cases i with
    | zero => exact .inl htake
    | succ i =>
      refine .inr ⟨hpass 0 (by omega), i, by omega, fun j hj => ?_, ?_⟩
      · have h := hpass (j + 1) (by omega)
        rwa [show k + (j + 1) = k + 1 + j by omega] at h
      · rwa [show k + (i + 1) = k + 1 + i by omega] at htake
  · rintro (htake | ⟨hhead, i, hi, hpass, htake⟩)
    · exact ⟨0, by omega, fun j hj => absurd hj (by omega), htake⟩
    · refine ⟨i + 1, by omega, fun j hj => ?_, ?_⟩
      · cases j with
        | zero => exact hhead
        | succ j =>
          have h := hpass j (by omega)
          rwa [show k + 1 + j = k + (j + 1) by omega] at h
      · rwa [show k + 1 + i = k + (i + 1) by omega] at htake

section Loop

variable {k : Nat} {hook : Offer} {hooks : List Offer} {body : HookIngressBody}

theorem encodes_of_runHooks {ran : HookIngressBody × Option ControlDirective}
    (h : runHooks codec w provider ctx k (hook :: hooks) body = .ok ran) :
    Encodes codec provider ctx body := by
  unfold runHooks at h
  split at h
  · cases h
  next hisNone => exact Option.isSome_iff_ne_none.mpr fun hnone => hisNone (by rw [hnone]; rfl)

theorem reply_of_runHooks {ran : HookIngressBody × Option ControlDirective}
    (h : runHooks codec w provider ctx k (hook :: hooks) body = .ok ran) :
    ∃ outcome, w.reply k = .ok outcome := by
  unfold runHooks at h
  split at h
  · cases h
  · obtain ⟨outcome, hreply, -⟩ := Outcome.bind_eq_ok_iff.mp h
    exact ⟨outcome, hreply⟩

theorem runHooks_of_reply {outcome : FlowOutcome} (hencodes : Encodes codec provider ctx body)
    (hreply : w.reply k = .ok outcome) :
    runHooks codec w provider ctx k (hook :: hooks) body
      = match directiveOfReply codec outcome with
        | none => runHooks codec w provider ctx (k + 1) hooks body
        | some directive =>
          match applyControlDirective codec w k body directive with
          | .ok body => .ok (body, some directive)
          | .error _ => runHooks codec w provider ctx (k + 1) hooks body := by
  have hisNone : ¬ (codec.toCanonicalCbor (hookPayload codec provider ctx body)).isNone = true :=
    fun hnone => by simp [Encodes, Option.isNone_iff_eq_none.mp hnone] at hencodes
  rw [runHooks, if_neg hisNone, hreply]
  rfl

/-- A hook that passes leaves the answer as it is. -/
theorem runHooks_of_passes (hencodes : Encodes codec provider ctx body) (hpass : Passes codec w k) :
    runHooks codec w provider ctx k (hook :: hooks) body
      = runHooks codec w provider ctx (k + 1) hooks body := by
  obtain ⟨outcome, hreply, hpass⟩ := hpass
  rw [runHooks_of_reply hencodes hreply]
  cases hdirective : directiveOfReply codec outcome with
  | none => rfl
  | some directive =>
    cases happly : applyControlDirective codec w k body directive with
    | error err => simp only [happly]
    | ok body' => exact absurd (apply_ok_iff.mp ⟨body', happly⟩) (hpass directive hdirective)

/-- The first hook to ask for something that can be applied ends the loop. -/
theorem runHooks_of_takes {directive : ControlDirective} (hencodes : Encodes codec provider ctx body)
    (htake : Takes codec w k directive) :
    ∃ body', runHooks codec w provider ctx k (hook :: hooks) body = .ok (body', some directive)
      ∧ applyControlDirective codec w k body directive = .ok body' := by
  obtain ⟨outcome, hreply, hdirective, happlicable⟩ := htake
  obtain ⟨body', happly⟩ : ∃ body', applyControlDirective codec w k body directive = .ok body' :=
    apply_ok_iff.mpr happlicable
  refine ⟨body', ?_, happly⟩
  rw [runHooks_of_reply hencodes hreply]
  simp only [hdirective, happly]

end Loop

/-- The loop applies a directive where a hook is the first to ask for one that can be applied. -/
theorem runHooks_applied_iff {directive : ControlDirective} {body : HookIngressBody}
    (hooks : List Offer) (k : Nat) :
    (∃ body', runHooks codec w provider ctx k hooks body = .ok (body', some directive))
      ↔ Encodes codec provider ctx body ∧ FirstTakes codec w k hooks.length directive := by
  induction hooks generalizing k with
  | nil =>
    constructor
    · rintro ⟨body', h⟩
      cases h
    · exact fun h => absurd h.2 not_firstTakes_zero
  | cons hook hooks ih =>
    rw [List.length_cons, firstTakes_succ_iff]
    constructor
    · rintro ⟨body', h⟩
      have hencodes := encodes_of_runHooks h
      obtain ⟨outcome, hreply⟩ := reply_of_runHooks h
      refine ⟨hencodes, ?_⟩
      rcases passes_or_takes hreply with hpass | ⟨other, htake⟩
      · rw [runHooks_of_passes hencodes hpass] at h
        exact .inr ⟨hpass, ((ih (k + 1)).mp ⟨body', h⟩).2⟩
      · obtain ⟨body'', hran, -⟩ := runHooks_of_takes hencodes htake
        rw [hran] at h
        cases h
        exact .inl htake
    · rintro ⟨hencodes, htake | ⟨hpass, hrest⟩⟩
      · obtain ⟨body', hran, -⟩ := runHooks_of_takes hencodes htake
        exact ⟨body', hran⟩
      · rw [runHooks_of_passes hencodes hpass]
        exact (ih (k + 1)).mpr ⟨hencodes, hrest⟩

/-- A loop that applied a directive leaves no events. -/
theorem events_of_runHooks {directive : ControlDirective} {body body' : HookIngressBody}
    (hooks : List Offer) (k : Nat)
    (h : runHooks codec w provider ctx k hooks body = .ok (body', some directive)) :
    body'.events = [] := by
  induction hooks generalizing k with
  | nil => cases h
  | cons hook hooks ih =>
    have hencodes := encodes_of_runHooks h
    obtain ⟨outcome, hreply⟩ := reply_of_runHooks h
    rcases passes_or_takes hreply with hpass | ⟨other, htake⟩
    · rw [runHooks_of_passes hencodes hpass] at h
      exact ih (k + 1) h
    · obtain ⟨body'', hran, happly⟩ := runHooks_of_takes hencodes htake
      rw [hran] at h
      cases h
      obtain ⟨_, -, hdirective, -⟩ := htake
      exact events_of_apply happly fun hcontinue =>
        directiveOfReply_ne_continue (hcontinue ▸ hdirective)

/-! ## The request -/

/-- A directive is applied to the request: the hooks are on, the bundle has packs, what they are
asked can be encoded, and one of those that are selected is the first to ask for something that can
be applied. -/
def DirectiveApplies (codec : Codec) (w : World) (request : IngressRequestV1) (ctx : OperatorContext)
    (result : IngressDispatchResult) : Prop :=
  w.hooksEnabled = true ∧ w.packsRootExists = true
    ∧ (∃ refs, w.packRefs = .ok refs ∧ refs ≠ [])
    ∧ ∃ registry directive, w.registry = .ok registry
      ∧ Encodes codec request.provider ctx (hookBody request result)
      ∧ FirstTakes codec w 0
        (registry.selectHooks hookStagePostIngress hookContractControlV1).length directive

/-- What has applied a directive is the loop over the hooks that are selected. -/
theorem loop_of_applied {body body' : HookIngressBody} {directive : ControlDirective}
    (h : applyPostIngressHooksJson codec w provider ctx body = .ok (body', some directive)) :
    w.hooksEnabled = true ∧ w.packsRootExists = true ∧ (∃ refs, w.packRefs = .ok refs ∧ refs ≠ [])
      ∧ ∃ registry, w.registry = .ok registry
        ∧ runHooks codec w provider ctx 0
          (registry.selectHooks hookStagePostIngress hookContractControlV1) body
          = .ok (body', some directive) := by
  unfold applyPostIngressHooksJson at h
  split at h
  · cases h
  next henabled =>
    split at h
    · cases h
    next hroot =>
      obtain ⟨refs, hrefs, h⟩ := Outcome.bind_eq_ok_iff.mp h
      split at h
      · cases h
      next hnonempty =>
        obtain ⟨registry, hregistry, h⟩ := Outcome.bind_eq_ok_iff.mp h
        refine ⟨by simpa using henabled, by simpa using hroot, ⟨refs, hrefs, ?_⟩, registry, hregistry, h⟩
        simpa using hnonempty

/-- With the hooks on and packs to offer some, the answer is what the loop makes of it. -/
theorem json_eq_loop {body : HookIngressBody} {refs : List String} {registry : OfferRegistry}
    (henabled : w.hooksEnabled = true) (hroot : w.packsRootExists = true) (hrefs : w.packRefs = .ok refs)
    (hnonempty : refs ≠ []) (hregistry : w.registry = .ok registry) :
    applyPostIngressHooksJson codec w provider ctx body
      = runHooks codec w provider ctx 0
        (registry.selectHooks hookStagePostIngress hookContractControlV1) body := by
  have hempty : refs.isEmpty = false := List.isEmpty_eq_false_iff.mpr hnonempty
  simp [applyPostIngressHooksJson, henabled, hroot, hrefs, hregistry, hempty, bind, Except.bind]

section Result

variable {request : IngressRequestV1} {result : IngressDispatchResult}

theorem dispatch_ok_iff {result' : IngressDispatchResult} {applied : Option ControlDirective} :
    applyPostIngressHooksDispatch codec w .Messaging request result ctx = .ok (result', applied)
      ↔ ∃ body' events,
        applyPostIngressHooksJson codec w request.provider ctx (hookBody request result)
            = .ok (body', applied)
          ∧ readEvents body'.events = .ok events
          ∧ result' = { result with
              response := ⟨body'.responseStatus, body'.responseHeaders, body'.responseBody⟩
              events } := by
  have hmessaging : (decide (Domain.Messaging = .Events) && !w.eventHooksEnabled) = false := rfl
  simp only [applyPostIngressHooksDispatch, hmessaging, Bool.false_eq_true, if_false,
    Outcome.bind_eq_ok_iff]
  constructor
  · rintro ⟨⟨body', applied'⟩, hjson, events, hevents, h⟩
    cases h
    exact ⟨body', events, hjson, hevents, rfl⟩
  · rintro ⟨body', events, hjson, hevents, rfl⟩
    exact ⟨(body', applied), hjson, events, hevents, rfl⟩

/-- An applied directive changes the response and clears the events, and it leaves the messages
that the provider gave. -/
theorem dispatch_of_applied {result' : IngressDispatchResult} {directive : ControlDirective}
    (h : applyPostIngressHooksDispatch codec w .Messaging request result ctx
      = .ok (result', some directive)) :
    DirectiveApplies codec w request ctx result ∧ result'.events = []
      ∧ result'.messagingEnvelopes = result.messagingEnvelopes := by
  obtain ⟨body', events, hjson, hevents, rfl⟩ := dispatch_ok_iff.mp h
  obtain ⟨henabled, hroot, hrefs, registry, hregistry, hran⟩ := loop_of_applied hjson
  obtain ⟨hencodes, hfirst⟩ := (runHooks_applied_iff _ 0).mp ⟨body', hran⟩
  rw [events_of_runHooks _ 0 hran] at hevents
  cases hevents
  exact ⟨⟨henabled, hroot, hrefs, registry, directive, hregistry, hencodes, hfirst⟩, rfl, rfl⟩

theorem applied_of_directiveApplies (h : DirectiveApplies codec w request ctx result) :
    ∃ result' directive,
      applyPostIngressHooksDispatch codec w .Messaging request result ctx = .ok (result', some directive)
        ∧ result'.messagingEnvelopes = result.messagingEnvelopes := by
  obtain ⟨henabled, hroot, ⟨refs, hrefs, hnonempty⟩, registry, directive, hregistry, hencodes, hfirst⟩ := h
  obtain ⟨body', hran⟩ := (runHooks_applied_iff _ 0).mpr ⟨hencodes, hfirst⟩
  have hjson := (json_eq_loop henabled hroot hrefs hnonempty hregistry).trans hran
  have hevents : readEvents body'.events = .ok [] := by
    rw [events_of_runHooks _ 0 hran]
    rfl
  exact ⟨_, directive, dispatch_ok_iff.mpr ⟨body', [], hjson, hevents, rfl⟩, rfl⟩

/-! ## The messages -/

/-- The messages of the result that no bot sent. -/
def humanEnvelopes (result : IngressDispatchResult) : List ChannelMessageEnvelope :=
  result.messagingEnvelopes.filter fun envelope => !dominatedByBot envelope

theorem handleDispatched_messaging {routeEvents : List EventEnvelopeV1 → Except String Unit}
    {applied : Option ControlDirective} :
    handleDispatched routeEvents .Messaging (.ok (result, applied))
      = ⟨applied, if (humanEnvelopes result).isEmpty then none else some (humanEnvelopes result),
        .ok result.response⟩ := by
  change (if (!(humanEnvelopes result).isEmpty) = true then Handled.mk applied
    (some (humanEnvelopes result)) (.ok result.response) else ⟨applied, none, .ok result.response⟩) = _
  cases (humanEnvelopes result).isEmpty <;> rfl

theorem humanEnvelopes_congr {result' : IngressDispatchResult}
    (h : result'.messagingEnvelopes = result.messagingEnvelopes) :
    humanEnvelopes result' = humanEnvelopes result := by
  rw [humanEnvelopes, humanEnvelopes, h]

/-- A directive that was applied to the provider's result stops the request: no message is given to
`route_messaging_envelopes`. -/
def Stops (codec : HttpIngress.Codec) (w : World) (routeEvents : List EventEnvelopeV1 → Except String Unit)
    (request : IngressRequestV1) (ctx : OperatorContext) (result : IngressDispatchResult) : Prop :=
  let handled := handleDispatched routeEvents .Messaging
    (applyPostIngressHooksDispatch codec w .Messaging request result ctx)
  handled.applied.isSome = true → handled.routed = none

theorem humanEnvelopes_isEmpty_iff :
    (humanEnvelopes result).isEmpty = true
      ↔ ∀ envelope ∈ result.messagingEnvelopes, dominatedByBot envelope = true := by
  rw [List.isEmpty_iff, humanEnvelopes, List.filter_eq_nil_iff]
  simp only [Bool.not_eq_true', Bool.not_eq_false]

/-- Where no directive applies there is nothing to stop. Where one does, the messages of the result go
on as they are, and only those of bots are dropped. -/
theorem stops_iff {routeEvents : List EventEnvelopeV1 → Except String Unit} :
    Stops codec w routeEvents request ctx result
      ↔ (DirectiveApplies codec w request ctx result
        → ∀ envelope ∈ result.messagingEnvelopes, dominatedByBot envelope = true) := by
  rw [← humanEnvelopes_isEmpty_iff, Stops]
  constructor
  · intro hstops happlies
    obtain ⟨result', directive, hdispatch, hsame⟩ := applied_of_directiveApplies happlies
    rw [hdispatch, handleDispatched_messaging, humanEnvelopes_congr hsame] at hstops
    by_contra hhuman
    rw [if_neg hhuman] at hstops
    cases hstops rfl
  · intro hbots happlied
    cases hdispatch : applyPostIngressHooksDispatch codec w .Messaging request result ctx with
    | error err => rfl
    | ok dispatched =>
      obtain ⟨result', applied⟩ := dispatched
      rw [hdispatch, handleDispatched_messaging] at happlied
      obtain ⟨directive, rfl⟩ := Option.isSome_iff_exists.mp happlied
      obtain ⟨happlies, -, hsame⟩ := dispatch_of_applied hdispatch
      rw [handleDispatched_messaging, humanEnvelopes_congr hsame, if_pos (hbots happlies)]

/-- A request is handled as what the hooks make of the result the provider's answer gives. -/
theorem handleIngress_of_result {ingest : Except String FlowOutcome} {domain : Domain}
    {routeEvents : List EventEnvelopeV1 → Except String Unit} (h : ingestResult codec ingest = .ok result) :
    handleIngress codec w ingest routeEvents domain request ctx
      = handleDispatched routeEvents domain
        (applyPostIngressHooksDispatch codec w domain request result ctx) := by
  rw [handleIngress, dispatchHttpIngress, h]
  rfl

end Result

/-! ## A denied message -/

/-- Whose message it is, which every message has to say. -/
def namesTenant (v : Value) : Bool :=
  match v.get "tenant" with
  | some context => (textField context "env").isSome && (textField context "tenant").isSome
    && (textField context "tenant_id").isSome && (context.get "attempt").isSome
  | none => false

/-- Encodings as far as one message needs them. -/
def plainCodec : HttpIngress.Codec where
  base64Encode _ := ""
  base64Decode _ := none
  fromCbor _ := none
  toCanonicalCbor _ := some []
  toText _ := ""
  readEnvelope v := do
    if !namesTenant v then none
    return {
      id := ← textField v "id"
      channel := ← textField v "channel"
      sessionId := ← textField v "session_id"
      text := textField v "text"
      attachments := []
      correlationId := none
      fromId := (v.get "from").bind fun sender => textField sender "id"
      value := v }

def outcomeOf (output : Value) : FlowOutcome :=
  { success := true, output := some output, raw := none, error := none, mode := .Exec }

/-- A bundle with one hook, which denies all. -/
def denyAll : World where
  hooksVar := none
  eventHooksVar := none
  packsRootExists := true
  packRefs := .ok ["packs/guard.gtpack"]
  registry := OfferRegistry.fromPackRefs
    (fun packRef => .ok { packId := "guard", packRef, offers := [{
      id := "deny", kind := .Hook, priority := 0, providerOp := "decide",
      stage := some hookStagePostIngress, contract := some hookContractControlV1 }] })
    ["packs/guard.gtpack"]
  reply _ := .ok (outcomeOf (.object [("action", .string "deny")]))
  runTarget _ _ := .ok ()

def chatRequest : IngressRequestV1 where
  v := 1
  domain := "messaging"
  provider := "messaging-slack"
  handler := none
  tenant := "demo"
  team := none
  method := "POST"
  path := "/v1/messaging/ingress/messaging-slack/demo"
  query := []
  headers := []
  body := []
  correlationId := none
  remoteAddr := none

/-- A provider's answer that holds one message of a user. -/
def chatAnswer : FlowOutcome :=
  outcomeOf (.object [("events", .array [.object [("channel", .string "general"),
    ("from", .object [("id", .string "alice")]), ("id", .string "m1"), ("session_id", .string "s1"),
    ("tenant", .object [("attempt", .number (.posInt 0)), ("env", .string "dev"), ("tenant", .string "demo"),
      ("tenant_id", .string "demo")]),
    ("text", .string "hello")]])])

/-- The message is given to the app flow though the hook has denied it. -/
theorem denied_message_routed :
    ∃ result, ingestResult plainCodec (.ok chatAnswer) = .ok result
      ∧ ¬ Stops plainCodec denyAll (fun _ => .ok ()) chatRequest ⟨"demo", none, none⟩ result := by
  refine ⟨_, rfl, fun hstops => ?_⟩
  have hnone := hstops (by decide +kernel)
  exact Option.isSome_iff_ne_none.mp (by decide +kernel) hnone

end Hooks
