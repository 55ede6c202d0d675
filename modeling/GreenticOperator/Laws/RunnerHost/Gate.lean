import GreenticOperator.RunnerHost.Invoke

/-!
# The token gate

What it takes to get an operation with a bearer token past the gate. The gate fails closed
(`FailsClosed`) where it lets such an operation through only on an answer of the validation
capability that says the token is valid, and says so too inside the wrapper
`{ok, output: {…}}` that components put around a result.

`failsClosed_iff` says where it does: not for an operation whose name only begins with the
name of the capability's own invocation, and not for a wrapped answer that is valid outside
and not inside.
-/

namespace RunnerHost

open Json Domains Capabilities DemoRunnerHost

variable (host : DemoRunnerHost) (s : Surroundings) (envelope : OperationEnvelope)
  (payloadBytes : List UInt8) (ctx : OperatorContext) (log : Log)

/-- The name of the one operation that is exempt from the gate. -/
def exemptOp : String := s!"cap.invoke:{capOauthTokenValidationV1}"

/-- What the validation capability is asked about the payload, where it carries a token. -/
def tokenRequest : Option Value := (host.codec.fromSlice payloadBytes).bind extractTokenValidationRequest

/-- The capability that validates tokens in the scope of a context. -/
def validator : Option CapabilityBinding :=
  host.resolveCapability capOauthTokenValidationV1 none (host.scopeOf ctx)

/-- The result in the wrapper `{ok, output: {…}}`. -/
def wrapped (output : Value) : Option Value :=
  if (output.get "ok").isSome then (output.get "output").filter fun inner => inner.asObject.isSome
  else none

/-- An answer that is valid at the top, and inside the wrapper where it has one. -/
def ValidThroughout (output : Value) : Prop :=
  isValid output = true ∧ ∀ inner, wrapped output = some inner → isValid inner = true

/-- The call that asks a validator. -/
def validationCall (binding : CapabilityBinding) (pack : ProviderPack) (request : Value) : ComponentCall where
  domain := binding.domain
  pack
  providerId := binding.packId
  opId := binding.providerOp
  payload := .validation request
  ctx

/-! ## How the gate runs -/

section Run

variable {host s envelope payloadBytes ctx log}

/-- An operation the gate has nothing to check for. -/
theorem gate_passes (h : Text.startsWith exemptOp envelope.opName = true ∨ tokenRequest host payloadBytes = none
    ∨ validator host ctx = none) :
    (host.evaluateTokenValidationPreHook s envelope payloadBytes ctx).run log
      = (.ok (.Continue, envelope), log) := by
  unfold evaluateTokenValidationPreHook
  change Text.startsWith exemptOp _ = true ∨ _ at h
  split
  next => rfl
  next hexempt =>
    rcases h with h | h | h
    · exact absurd h hexempt
    · unfold tokenRequest at h
      rw [h]
      rfl
    · unfold validator at h
      rw [h]
      split <;> rfl

section Checked

variable {request : Value} {binding : CapabilityBinding}
  (hexempt : Text.startsWith exemptOp envelope.opName = false)
  (hrequest : tokenRequest host payloadBytes = some request) (hbinding : validator host ctx = some binding)

include hexempt hrequest hbinding

/-- An operation with a token is not let through without a ready validator in a known pack. -/
theorem gate_refuses (h : isBindingReady s.disk ctx.tenant ctx.team binding ≠ .ok true
      ∨ host.packsByPath binding.packPath = none) (envelope' : OperationEnvelope) (log' : Log) :
    (host.evaluateTokenValidationPreHook s envelope payloadBytes ctx).run log
      ≠ (.ok (.Continue, envelope'), log') := by
  intro hrun
  unfold evaluateTokenValidationPreHook at hrun
  unfold tokenRequest at hrequest
  unfold validator at hbinding
  unfold exemptOp at hexempt
  rw [hexempt, hrequest, hbinding] at hrun
  simp only [Bool.false_eq_true, ↓reduceIte, Eff.bind_run, Eff.lift_run] at hrun
  cases hready : isBindingReady s.disk ctx.tenant ctx.team binding with
  | error e =>
    rw [hready] at hrun
    cases hrun
  | ok ready =>
    rw [hready] at hrun
    cases ready with
    | false => cases hrun
    | true =>
      rcases h with h | h
      · exact h hready
      · rw [h] at hrun
        cases hrun

/-- With a ready validator the gate asks it, and decides by its answer. -/
theorem gate_asks {pack : ProviderPack} (hready : isBindingReady s.disk ctx.tenant ctx.team binding = .ok true)
    (hpack : host.packsByPath binding.packPath = some pack) :
    (host.evaluateTokenValidationPreHook s envelope payloadBytes ctx).run log
      = (match s.tokenValidation with
        | .error e => .error e
        | .ok outcome => match gateOfReply outcome with
          | .Allow claims =>
            .ok (.Continue, { envelope with ctx := { envelope.ctx with authClaims := claims } })
          | .Deny reason => .ok (.Denied reason, envelope),
        log ++ [.invoke .tokenValidation (validationCall ctx binding pack request) s.tokenValidation]) := by
  unfold evaluateTokenValidationPreHook
  unfold tokenRequest at hrequest
  unfold validator at hbinding
  unfold exemptOp at hexempt
  rw [hexempt, hrequest, hbinding]
  simp only [Bool.false_eq_true, ↓reduceIte, Eff.bind_run, Eff.lift_run, hready, hpack,
    invokeProviderComponentOp, record, Eff.modify_run]
  cases s.tokenValidation with
  | error e => rfl
  | ok outcome =>
    cases hgate : gateOfReply outcome with
    | Allow claims => simp only [hgate]; rfl
    | Deny reason => simp only [hgate]; rfl

end Checked

end Run

/-! ## Failing closed -/

/-- The payload carries a bearer token that is recognised. -/
def CarriesToken : Prop :=
  ∃ payload token, host.codec.fromSlice payloadBytes = some payload
    ∧ extractBearerToken payload = some token

theorem carriesToken_iff :
    CarriesToken host payloadBytes ↔ ∃ request, tokenRequest host payloadBytes = some request := by
  unfold CarriesToken tokenRequest
  constructor
  · rintro ⟨payload, token, hpayload, htoken⟩
    rw [hpayload, Option.bind_some]
    unfold extractTokenValidationRequest
    rw [htoken]
    exact ⟨_, rfl⟩
  · rintro ⟨request, hrequest⟩
    obtain ⟨payload, hpayload, hrequest⟩ := Option.bind_eq_some_iff.mp hrequest
    unfold extractTokenValidationRequest at hrequest
    obtain ⟨token, htoken, -⟩ := Option.bind_eq_some_iff.mp hrequest
    exact ⟨payload, token, hpayload, htoken⟩

/-- Where a validator is in scope, an operation with a token that is not the validator's own
invocation passes the gate only if the validator is ready, was asked, and answered that the
token is valid throughout. -/
def FailsClosed : Prop :=
  ∀ binding envelope' log', CarriesToken host payloadBytes → validator host ctx = some binding →
    envelope.opName ≠ exemptOp →
    (host.evaluateTokenValidationPreHook s envelope payloadBytes ctx).run log
      = (.ok (.Continue, envelope'), log') →
    isBindingReady s.disk ctx.tenant ctx.team binding = .ok true
      ∧ ∃ pack request outcome output, tokenRequest host payloadBytes = some request
        ∧ log' = log ++ [.invoke .tokenValidation (validationCall ctx binding pack request) (.ok outcome)]
        ∧ outcome.success = true ∧ outcome.output = some output ∧ ValidThroughout output

/-- A successful answer that is valid at the top and not inside its wrapper. -/
def ValidOutsideOnly (reply : Except String FlowOutcome) : Prop :=
  ∃ outcome output inner, reply = .ok outcome ∧ outcome.success = true ∧ outcome.output = some output
    ∧ isValid output = true ∧ wrapped output = some inner ∧ isValid inner = false

/-- What the operation's name and the validator's answer must not be. -/
def Guarded : Prop :=
  ∀ binding, CarriesToken host payloadBytes → validator host ctx = some binding →
    envelope.opName ≠ exemptOp →
    Text.startsWith exemptOp envelope.opName = false
      ∧ (isBindingReady s.disk ctx.tenant ctx.team binding = .ok true →
          (host.packsByPath binding.packPath).isSome = true → ¬ ValidOutsideOnly s.tokenValidation)

theorem gateOfReply_allow {outcome : FlowOutcome} {claims : Option Value}
    (h : gateOfReply outcome = .Allow claims) :
    outcome.success = true ∧ ∃ output, outcome.output = some output ∧ isValid output = true := by
  unfold gateOfReply at h
  split at h
  next hsuccess =>
    refine ⟨hsuccess, ?_⟩
    split at h
    next => cases h
    next output houtput =>
      refine ⟨output, houtput, ?_⟩
      unfold evaluateTokenValidationOutput at h
      split at h
      next hvalid => exact hvalid
      next => cases h
  next => cases h

theorem exists_gateOfReply_allow {outcome : FlowOutcome} {output : Value} (hsuccess : outcome.success = true)
    (houtput : outcome.output = some output) (hvalid : isValid output = true) :
    ∃ claims, gateOfReply outcome = .Allow claims := by
  unfold gateOfReply evaluateTokenValidationOutput
  rw [if_pos hsuccess, houtput]
  simp only [if_pos hvalid]
  exact ⟨_, rfl⟩

variable {host s envelope payloadBytes ctx log}

theorem failsClosed_of_guarded (h : Guarded host s envelope payloadBytes ctx) :
    FailsClosed host s envelope payloadBytes ctx log := by
  intro binding envelope' log' htoken hbinding hname hrun
  obtain ⟨hexempt, hanswer⟩ := h binding htoken hbinding hname
  obtain ⟨request, hrequest⟩ := (carriesToken_iff host payloadBytes).mp htoken
  by_cases hready : isBindingReady s.disk ctx.tenant ctx.team binding = .ok true
  · cases hpack : host.packsByPath binding.packPath with
    | none => exact absurd hrun (gate_refuses hexempt hrequest hbinding (Or.inr hpack) envelope' log')
    | some pack =>
      rw [gate_asks hexempt hrequest hbinding hready hpack] at hrun
      obtain ⟨hresult, hlog⟩ := Prod.mk.inj hrun
      cases hreply : s.tokenValidation with
      | error e =>
        rw [hreply] at hresult
        cases hresult
      | ok outcome =>
        rw [hreply] at hresult hlog
        cases hgate : gateOfReply outcome with
        | Deny reason =>
          simp only [hgate] at hresult
          cases hresult
        | Allow claims =>
          obtain ⟨hsuccess, output, houtput, hvalid⟩ := gateOfReply_allow hgate
          refine ⟨hready, pack, request, outcome, output, hrequest, hlog.symm, hsuccess, houtput,
            hvalid, fun inner hinner => ?_⟩
          have hnot := hanswer hready (hpack ▸ rfl)
          rw [← Bool.not_eq_false]
          exact fun hinvalid =>
            hnot ⟨outcome, output, inner, hreply, hsuccess, houtput, hvalid, hinner, hinvalid⟩
  · exact absurd hrun (gate_refuses hexempt hrequest hbinding (Or.inl hready) envelope' log')

theorem guarded_of_failsClosed (h : FailsClosed host s envelope payloadBytes ctx log) :
    Guarded host s envelope payloadBytes ctx := by
  intro binding htoken hbinding hname
  obtain ⟨request, hrequest⟩ := (carriesToken_iff host payloadBytes).mp htoken
  cases hexempt : Text.startsWith exemptOp envelope.opName with
  | true =>
    -- The gate lets the operation through and records nothing.
    obtain ⟨-, pack, request, outcome, output, -, hlog, -⟩ :=
      h binding envelope log htoken hbinding hname (gate_passes (Or.inl hexempt))
    have hlength := congrArg List.length hlog
    rw [List.length_append, List.length_singleton] at hlength
    omega
  | false =>
    refine ⟨rfl, fun hready hpack => ?_⟩
    obtain ⟨pack, hpack⟩ := Option.isSome_iff_exists.mp hpack
    rintro ⟨outcome, output, inner, hreply, hsuccess, houtput, hvalid, hinner, hinvalid⟩
    obtain ⟨claims, hgate⟩ := exists_gateOfReply_allow hsuccess houtput hvalid
    have hrun : (host.evaluateTokenValidationPreHook s envelope payloadBytes ctx).run log = _ :=
      gate_asks hexempt hrequest hbinding hready hpack
    rw [hreply] at hrun
    simp only [hgate] at hrun
    obtain ⟨-, pack', request', outcome', output', -, hlog, -, houtput', -, hinside⟩ :=
      h binding _ _ htoken hbinding hname hrun
    obtain ⟨-, -, hsame⟩ := Event.invoke.inj (List.singleton_inj.mp (List.append_cancel_left hlog))
    rw [Except.ok.injEq] at hsame
    rw [← hsame, houtput, Option.some.injEq] at houtput'
    rw [hinside inner (houtput' ▸ hinner)] at hinvalid
    cases hinvalid

/-- **The gate fails closed exactly** where the operation's name does not merely begin with
the exempt one and no answer is valid outside its wrapper only. -/
theorem failsClosed_iff (host : DemoRunnerHost) (s : Surroundings) (envelope : OperationEnvelope)
    (payloadBytes : List UInt8) (ctx : OperatorContext) (log : Log) :
    FailsClosed host s envelope payloadBytes ctx log ↔ Guarded host s envelope payloadBytes ctx :=
  ⟨guarded_of_failsClosed, failsClosed_of_guarded⟩

/-! ## A wrapped answer -/

/-- The payload `{"token":"abc"}`. -/
def tokenBytes : List UInt8 :=
  [0x7b, 0x22, 0x74, 0x6f, 0x6b, 0x65, 0x6e, 0x22, 0x3a, 0x22, 0x61, 0x62, 0x63, 0x22, 0x7d]

/-- Codecs for that payload, and for outputs in plain JSON. -/
def demoCodec : Codec where
  fromSlice bytes := if bytes = tokenBytes then some (.object [("token", .string "abc")]) else none
  base64Encode _ := ""
  base64Decode _ := none
  hookResponseOfCbor _ := none
  toCanonicalCbor _ := none

def demoPack : ProviderPack := ⟨"oauth-tokens", "packs/oauth-tokens.gtpack", []⟩

/-- An offer of the demo pack. -/
def demoOffer (id capId op : String) (scope : Option CapabilityScopeV1) : CapabilityOfferV1 where
  offerId := some id
  capId
  version := "v1"
  componentRef := "component"
  op
  scope
  priority := 0
  requiresSetup := false
  setupQaRef := none
  appliesTo := none

def demoRegistry (offers : List CapabilityOfferV1) : CapabilityRegistry :=
  (CapabilityRegistry.buildFromPackIndex (fun _ => .ok (some offers))
    [(demoPack.path, ⟨demoPack.packId, .OAuth⟩)]).toOption.getD ⟨[]⟩

def demoHost (offers : List CapabilityOfferV1) : DemoRunnerHost where
  catalog _ _ := some demoPack
  packsByPath path := if path = demoPack.path then some demoPack else none
  capabilityRegistry := demoRegistry offers
  cardRenderer := ⟨fun _ _ => .ok none, fun _ bytes _ => .ok bytes⟩
  codec := demoCodec
  env := none

def demoValidator : CapabilityOfferV1 :=
  demoOffer "tokens" capOauthTokenValidationV1 "token.validate" none

def demoCtx : OperatorContext := ⟨"demo", none, none⟩

/-- A successful outcome with an output. -/
def answered (output : Value) : Except String FlowOutcome := .ok ⟨true, some output, none, none, .Exec⟩

/-- Surroundings in which every reply but the validator's is the same. -/
def demoSurroundings (tokenValidation reply : Except String FlowOutcome) : Surroundings where
  disk := .empty "bundle"
  opId := "0e5f3c1a-7d2b-4c9e-8f60-000000000000"
  tokenValidation
  hook _ _ := .answered reply
  target := reply

/-- The answer `{"ok":true,"output":{"valid":false}}`. -/
def rejectedInside : Value := .object [("ok", .bool true), ("output", .object [("valid", .bool false)])]

/-- The validator rejects the token in the usual wrapper, and the operation passes. -/
theorem gate_passes_rejected_token : ¬ ∀ (host : DemoRunnerHost) (s : Surroundings)
    (envelope : OperationEnvelope) (payloadBytes : List UInt8) (ctx : OperatorContext) (log : Log),
    FailsClosed host s envelope payloadBytes ctx log := by
  intro h
  have hguarded := guarded_of_failsClosed (h (demoHost [demoValidator])
    (demoSurroundings (answered rejectedInside) (.error "unreachable"))
    (OperationEnvelope.new "id" "send_payload" tokenBytes demoCtx) tokenBytes demoCtx [])
  obtain ⟨binding, hbinding⟩ : ∃ binding, validator (demoHost [demoValidator]) demoCtx = some binding :=
    Option.isSome_iff_exists.mp (by decide +kernel)
  have hsetup : (validator (demoHost [demoValidator]) demoCtx).map (·.requiresSetup) = some false := by
    decide +kernel
  have hpath : (validator (demoHost [demoValidator]) demoCtx).map (·.packPath) = some demoPack.path := by
    decide +kernel
  rw [hbinding, Option.map_some, Option.some.injEq] at hsetup hpath
  have htoken : CarriesToken (demoHost [demoValidator]) tokenBytes :=
    ⟨.object [("token", .string "abc")], "abc", by rfl, by decide +kernel⟩
  refine (hguarded binding htoken hbinding (by decide +kernel)).2 ?_ ?_
    ⟨⟨true, some rejectedInside, none, none, .Exec⟩, rejectedInside, .object [("valid", .bool false)],
      rfl, rfl, rfl, by decide +kernel, by rfl, by decide +kernel⟩
  · unfold isBindingReady
    rw [hsetup]
    rfl
  · rw [hpath]
    rfl

/-- Nor is a capability checked whose id only begins like the exempt one's. -/
example :
    ((demoHost [demoValidator]).evaluateTokenValidationPreHook
        (demoSurroundings (.error "unreachable") (.error "unreachable"))
        (OperationEnvelope.new "id" "cap.invoke:greentic.cap.oauth.token_validation.v10" tokenBytes demoCtx)
        tokenBytes demoCtx).run [] =
      (.ok (.Continue, OperationEnvelope.new "id" "cap.invoke:greentic.cap.oauth.token_validation.v10"
        tokenBytes demoCtx), []) :=
  gate_passes (Or.inl (by decide +kernel))

end RunnerHost
