import GreenticOperator.Laws.Hooks.Unchanged

/-!
# The status of an answer

A provider's output and a hook's both carry the status of the answer as a number of 64 bits, and both
are cut to 16 bits. A number that does not fit is sent as another one, so that a hook's denial may
leave as a success; it is not sent as another exactly where what is left of it is the default, or is
no status at all, which the response is refused for (`faithful_iff`). Every answer that is sent has
its status from one such output, or is that of a dispatch (`sends_of_handleIngress`).
-/

namespace HttpIngress

open Json Domains Hooks Ingress RunnerHost

variable {codec : Codec}

/-! ## Where a status comes from -/

/-- The output of a provider or of a hook. -/
inductive Output
  | provider (output : Value)
  | hook (output : Value)

namespace Output

/-- The object that the status is read of. -/
def decoded (codec : Codec) : Output → Value
  | provider output => (output.get "http").getD output
  | hook output => (decodeDirectiveJson codec output).getD output

def statusField : Output → String
  | provider _ => "status"
  | hook _ => "status_code"

/-- The integer that a status is taken from. -/
def carried (codec : Codec) (output : Output) : Option Nat :=
  (((output.decoded codec).get output.statusField).bind Value.asU64).map UInt64.toNat

/-- Whether a hook denies. -/
def denies (codec : Codec) (output : Output) : Bool :=
  ((textField (output.decoded codec) "action").map fun action => Text.toAsciiLowercase (Text.trim action))
    == some "deny"

/-- The status where none is carried. -/
def default (codec : Codec) : Output → Nat
  | provider _ => 200
  | hook output => if (hook output).denies codec then 403 else 200

/-- Whether the output leads to an answer: a provider's body can be read, a hook replies. -/
def Answers (codec : Codec) : Output → Prop
  | provider output => ∃ result, parseDispatchResult codec output = .ok result
  | hook output => ∃ reply, tryParseControlDirective codec output = some (.Respond reply)
      ∨ tryParseControlDirective codec output = some (.Deny reply)

end Output

/-- The answer that a hook's directive leaves. -/
def responseOf (body : HookIngressBody) : IngressHttpResponse :=
  ⟨body.responseStatus, body.responseHeaders, body.responseBody⟩

/-- What is sent where the status is taken from an output. -/
inductive Sends (codec : Codec) : Output → SentResponse → Prop
  | provider {output : Value} {result : IngressDispatchResult} {sent : SentResponse}
      (hparse : parseDispatchResult codec output = .ok result)
      (hbuild : buildHttpResponse result.response = .ok sent) : Sends codec (.provider output) sent
  | respond {output : Value} {reply : IngressReply} {sent : SentResponse} (body : HookIngressBody)
      (hparse : tryParseControlDirective codec output = some (.Respond reply))
      (hbuild : buildHttpResponse (responseOf (effect codec body (.Respond reply))) = .ok sent) :
      Sends codec (.hook output) sent
  | deny {output : Value} {reply : IngressReply} {sent : SentResponse} (body : HookIngressBody)
      (hparse : tryParseControlDirective codec output = some (.Deny reply))
      (hbuild : buildHttpResponse (responseOf (effect codec body (.Deny reply))) = .ok sent) :
      Sends codec (.hook output) sent

/-- **A faithful output**: every answer that is sent has the status carried, or the default where
none is carried or it does not fit. -/
def Faithful (codec : Codec) (output : Output) : Prop :=
  ∀ sent, Sends codec output sent →
    match output.carried codec with
    | none => sent.status = output.default codec
    | some n => (sent.status = n ∧ n < 2 ^ 16) ∨ (2 ^ 16 ≤ n ∧ sent.status = output.default codec)

/-! ## What is sent -/

/-- The status that is read of an output. -/
def readStatus (codec : Codec) (output : Output) : Nat :=
  ((output.carried codec).map (· % 2 ^ 16)).getD (output.default codec)

theorem toNat_status {v : Option Value} {status : UInt16} :
    ((((v.bind Value.asU64).map UInt64.toUInt16).getD status).toNat)
      = (((v.bind Value.asU64).map UInt64.toNat).map (· % 2 ^ 16)).getD status.toNat := by
  cases v.bind Value.asU64 with
  | none => rfl
  | some n => exact UInt64.toNat_toUInt16 n

theorem buildHttpResponse_ok_iff {response : IngressHttpResponse} :
    (∃ sent, buildHttpResponse response = .ok sent) ↔ 100 ≤ response.status.toNat ∧ response.status.toNat < 1000 := by
  unfold buildHttpResponse
  dsimp only
  split
  next h => simp [h]
  next h => simp [h]

theorem status_of_build {response : IngressHttpResponse} {sent : SentResponse}
    (h : buildHttpResponse response = .ok sent) : sent.status = response.status.toNat := by
  unfold buildHttpResponse at h
  dsimp only at h
  split at h
  · cases h
    rfl
  · cases h

/-- The reply of a directive is read of the hook's output, and denies where its action does. -/
theorem reply_of_tryParse {output : Value} {directive : ControlDirective}
    (h : tryParseControlDirective codec output = some directive) :
    match directive with
    | .Respond reply => (Output.hook output).denies codec = false
        ∧ reply = parseReply ((Output.hook output).decoded codec) false
    | .Deny reply => (Output.hook output).denies codec = true
        ∧ reply = parseReply ((Output.hook output).decoded codec) true
    | _ => True := by
  obtain ⟨text, htext, h⟩ := Option.bind_eq_some_iff.mp h
  have hdenies : (Output.hook output).denies codec
      = (Text.toAsciiLowercase (Text.trim text) == "deny") := by
    unfold Output.denies Output.decoded
    dsimp only
    rw [htext, Option.map_some, Option.some_beq_some]
  rw [hdenies]
  dsimp only at h
  split at h
  · cases h
    trivial
  · split at h
    · obtain ⟨target, -, rfl⟩ := Option.map_eq_some_iff.mp h
      trivial
    · split at h
      next hrespond =>
        cases h
        rw [hrespond]
        exact ⟨rfl, rfl⟩
      · split at h
        next hdeny =>
          cases h
          rw [hdeny]
          exact ⟨rfl, rfl⟩
        · cases h

theorem responseStatus_applyReply (body : HookIngressBody) (reply : IngressReply) (denyDefault : Bool) :
    (applyReply codec body reply denyDefault).responseStatus
      = reply.statusCode.getD (if denyDefault then 403 else 200) := by
  unfold applyReply
  dsimp only
  split <;> rfl

/-- The status that a hook's reply leaves. -/
theorem toNat_responseStatus (body : HookIngressBody) (output : Value) (denyDefault : Bool)
    (h : (Output.hook output).denies codec = denyDefault) :
    (applyReply codec body (parseReply ((Output.hook output).decoded codec) denyDefault) denyDefault).responseStatus.toNat
      = readStatus codec (.hook output) := by
  have hdefault : ((if denyDefault then 403 else 200 : UInt16)).toNat = (Output.hook output).default codec := by
    rw [Output.default, h]
    cases denyDefault <;> rfl
  rw [responseStatus_applyReply, readStatus, ← hdefault, Output.carried, ← toNat_status]
  unfold parseReply Output.statusField
  dsimp only
  cases (((Output.hook output).decoded codec).get "status_code").bind Value.asU64 with
  | none => rfl
  | some n => rfl

/-- The status of what a provider's output is parsed to. -/
theorem status_of_parse {output : Value} {result : IngressDispatchResult}
    (h : parseDispatchResult codec output = .ok result) :
    result.response.status.toNat = readStatus codec (.provider output) := by
  obtain ⟨response, hresponse, h⟩ := Outcome.bind_eq_ok_iff.mp h
  cases h
  obtain ⟨body, -, hresponse⟩ := Outcome.bind_eq_ok_iff.mp hresponse
  cases hresponse
  exact toNat_status

theorem status_of_sends {output : Output} {sent : SentResponse} (h : Sends codec output sent) :
    sent.status = readStatus codec output := by
  cases h with
  | provider hparse hbuild => rw [status_of_build hbuild, status_of_parse hparse]
  | respond body hparse hbuild =>
    obtain ⟨hdenies, rfl⟩ := reply_of_tryParse hparse
    exact (status_of_build hbuild).trans (toNat_responseStatus body _ false hdenies)
  | deny body hparse hbuild =>
    obtain ⟨hdenies, rfl⟩ := reply_of_tryParse hparse
    exact (status_of_build hbuild).trans (toNat_responseStatus body _ true hdenies)

/-- An output that leads to an answer sends it exactly where its status has three digits. -/
theorem exists_sends_iff {output : Output} :
    (∃ sent, Sends codec output sent)
      ↔ output.Answers codec ∧ 100 ≤ readStatus codec output ∧ readStatus codec output < 1000 := by
  constructor
  · rintro ⟨sent, h⟩
    have hstatus := status_of_sends h
    rw [← hstatus]
    refine ⟨?_, sent.valid⟩
    cases h with
    | provider hparse hbuild => exact ⟨_, hparse⟩
    | respond body hparse hbuild => exact ⟨_, .inl hparse⟩
    | deny body hparse hbuild => exact ⟨_, .inr hparse⟩
  · rintro ⟨hanswers, hvalid⟩
    cases output with
    | provider output =>
      obtain ⟨result, hparse⟩ := hanswers
      rw [← status_of_parse hparse] at hvalid
      obtain ⟨sent, hbuild⟩ := buildHttpResponse_ok_iff.mpr hvalid
      exact ⟨sent, .provider hparse hbuild⟩
    | hook output =>
      have body : HookIngressBody := ⟨.null, 200, [], none, []⟩
      rcases hanswers with ⟨reply, hparse | hparse⟩
      · obtain ⟨hdenies, hreply⟩ := reply_of_tryParse hparse
        rw [← toNat_responseStatus body output false hdenies, ← hreply] at hvalid
        obtain ⟨sent, hbuild⟩ :=
          (@buildHttpResponse_ok_iff (responseOf (effect codec body (.Respond reply)))).mpr hvalid
        exact ⟨sent, .respond body hparse hbuild⟩
      · obtain ⟨hdenies, hreply⟩ := reply_of_tryParse hparse
        rw [← toNat_responseStatus body output true hdenies, ← hreply] at hvalid
        obtain ⟨sent, hbuild⟩ :=
          (@buildHttpResponse_ok_iff (responseOf (effect codec body (.Deny reply)))).mpr hvalid
        exact ⟨sent, .deny body hparse hbuild⟩

/-- **A status is faithful** exactly where the number carried fits, or what is left of it is the
default or no status, or the output leads to no answer. -/
theorem faithful_iff (codec : Codec) (output : Output) :
    Faithful codec output ↔ (output.Answers codec → ∀ n, output.carried codec = some n →
      n < 2 ^ 16 ∨ n % 2 ^ 16 = output.default codec ∨ ¬ (100 ≤ n % 2 ^ 16 ∧ n % 2 ^ 16 < 1000)) := by
  have hread : ∀ n, output.carried codec = some n → readStatus codec output = n % 2 ^ 16 := by
    intro n hn
    rw [readStatus, hn]
    rfl
  constructor
  · intro hfaithful hanswers n hn
    by_cases hvalid : 100 ≤ n % 2 ^ 16 ∧ n % 2 ^ 16 < 1000
    · rw [← hread n hn] at hvalid
      obtain ⟨sent, hsent⟩ := exists_sends_iff.mpr ⟨hanswers, hvalid⟩
      have hcase := hfaithful sent hsent
      rw [hn] at hcase
      rcases hcase with ⟨-, hfits⟩ | ⟨-, hdefault⟩
      · exact .inl hfits
      · rw [status_of_sends hsent, hread n hn] at hdefault
        exact .inr (.inl hdefault)
    · exact .inr (.inr hvalid)
  · intro hcond sent hsent
    have hanswers := (exists_sends_iff.mp ⟨sent, hsent⟩).1
    have hvalid := sent.valid
    rw [status_of_sends hsent] at hvalid ⊢
    cases hcarried : output.carried codec with
    | none =>
      rw [readStatus, hcarried]
      rfl
    | some n =>
      rw [hread n hcarried] at hvalid ⊢
      rcases hcond hanswers n hcarried with hfits | hdefault | hinvalid
      · exact .inl ⟨Nat.mod_eq_of_lt hfits, hfits⟩
      · by_cases hfits : n < 2 ^ 16
        · exact .inl ⟨Nat.mod_eq_of_lt hfits, hfits⟩
        · exact .inr ⟨by omega, hdefault⟩
      · exact absurd hvalid hinvalid

/-! ## Requests -/

section Requests

variable {w : World} {ingest : Except String FlowOutcome} {domain : Domain} {request : IngressRequestV1}
  {ctx : OperatorContext} {routeEvents : List EventEnvelopeV1 → Except String Unit}

theorem result_of_handleDispatched {dispatched : Except String (IngressDispatchResult × Option ControlDirective)}
    {response : IngressHttpResponse} (h : (handleDispatched routeEvents domain dispatched).response = .ok response) :
    ∃ result applied, dispatched = .ok (result, applied) ∧ result.response = response := by
  cases dispatched with
  | error err => cases h
  | ok found =>
    obtain ⟨result, applied⟩ := found
    refine ⟨result, applied, rfl, ?_⟩
    unfold handleDispatched at h
    dsimp only at h
    split at h
    · cases h
    · split at h
      · exact Except.ok.inj h
      · exact Except.ok.inj h

theorem parse_of_ingestResult {result : IngressDispatchResult} (h : ingestResult codec ingest = .ok result) :
    ∃ outcome, ingest = .ok outcome
      ∧ parseDispatchResult codec (outcome.output.getD (.object [])) = .ok result := by
  obtain ⟨outcome, hingest, h⟩ := Outcome.bind_eq_ok_iff.mp h
  refine ⟨outcome, hingest, ?_⟩
  split at h
  · cases h
  · exact h

theorem output_of_directive {outcome : FlowOutcome} {directive : ControlDirective}
    (h : directiveOfReply codec outcome = some directive) :
    ∃ output, outcome.output = some output ∧ tryParseControlDirective codec output = some directive := by
  unfold directiveOfReply at h
  split at h
  · cases h
  · split at h
    · cases h
    · exact Option.bind_eq_some_iff.mp h

/-- The hooks leave the answer, or the effect of the directive in a hook's output. -/
theorem body_of_runHooks {body final : HookIngressBody} {applied : Option ControlDirective}
    {hooks : List Offers.Offer} (h : runHooks codec w request.provider ctx 0 hooks body = .ok (final, applied)) :
    final = body ∨ ∃ i outcome output directive, w.reply i = .ok outcome ∧ outcome.output = some output
      ∧ tryParseControlDirective codec output = some directive ∧ final = effect codec body directive := by
  rw [runHooks_eq_runInPlace hooks 0 body [], runInPlace_eq] at h
  cases hdecided : decided codec w.asHost request.provider ctx body 0 hooks with
  | none =>
    rw [hdecided] at h
    cases h
    exact .inl rfl
  | some found =>
    obtain ⟨i, d⟩ := found
    rw [hdecided] at h
    cases d with
    | takes directive =>
      cases h
      obtain ⟨_, outcome, hreply, hdirective⟩ := exists_of_decided_takes hdecided
      obtain ⟨output, houtput, hparse⟩ := output_of_directive hdirective
      exact .inr ⟨i, outcome, output, directive, hreply, houtput, hparse, rfl⟩
    | unasked => cases h
    | fails message => cases h

theorem body_of_apply {body final : HookIngressBody} {applied : Option ControlDirective}
    (h : applyPostIngressHooksJson codec w request.provider ctx body = .ok (final, applied)) :
    final = body ∨ ∃ i outcome output directive, w.reply i = .ok outcome ∧ outcome.output = some output
      ∧ tryParseControlDirective codec output = some directive ∧ final = effect codec body directive := by
  unfold applyPostIngressHooksJson at h
  split at h
  · cases h
    exact .inl rfl
  · split at h
    · cases h
      exact .inl rfl
    · obtain ⟨refs, -, h⟩ := Outcome.bind_eq_ok_iff.mp h
      split at h
      · cases h
        exact .inl rfl
      · obtain ⟨registry, -, h⟩ := Outcome.bind_eq_ok_iff.mp h
        exact body_of_runHooks h

/-- **Every answer that is sent** has its status from the provider's output or from a hook's, but for
that of a dispatch. -/
theorem sends_of_handleIngress {response : IngressHttpResponse} {sent : SentResponse}
    (h : (handleIngress codec w ingest routeEvents domain request ctx).response = .ok response)
    (hbuild : buildHttpResponse response = .ok sent) :
    (∃ outcome, ingest = .ok outcome ∧ Sends codec (.provider (outcome.output.getD (.object []))) sent)
      ∨ (∃ i outcome output, w.reply i = .ok outcome ∧ outcome.output = some output
          ∧ Sends codec (.hook output) sent)
      ∨ sent.status = 202 := by
  obtain ⟨result, applied, hdispatched, rfl⟩ := result_of_handleDispatched h
  obtain ⟨decoded, hingest, hhooks⟩ := Outcome.bind_eq_ok_iff.mp hdispatched
  obtain ⟨outcome, hprovider, hparse⟩ := parse_of_ingestResult hingest
  unfold applyPostIngressHooksDispatch at hhooks
  split at hhooks
  · cases hhooks
    exact .inl ⟨outcome, hprovider, .provider hparse hbuild⟩
  · obtain ⟨⟨body, _⟩, happly, hhooks⟩ := Outcome.bind_eq_ok_iff.mp hhooks
    obtain ⟨events, -, hhooks⟩ := Outcome.bind_eq_ok_iff.mp hhooks
    cases hhooks
    rcases body_of_apply happly with rfl | ⟨i, reply, output, directive, hreply, houtput, hdirective, rfl⟩
    · exact .inl ⟨outcome, hprovider, .provider hparse hbuild⟩
    · cases directive with
      | Continue => exact .inl ⟨outcome, hprovider, .provider hparse hbuild⟩
      | Respond answer => exact .inr (.inl ⟨i, reply, output, hreply, houtput, .respond _ hdirective hbuild⟩)
      | Deny answer => exact .inr (.inl ⟨i, reply, output, hreply, houtput, .deny _ hdirective hbuild⟩)
      | Dispatch target => exact .inr (.inr (status_of_build hbuild))

end Requests

/-! ## A denial that leaves as a success -/

/-- A hook's output: 65736 is 200 without the bits that do not fit. -/
def denial : Value := .object [("action", .string "deny"), ("status_code", .ofNat 65736)]

theorem denial_sent_as_success : ¬ Faithful plainCodec (.hook denial) := by
  intro h
  have hparse : tryParseControlDirective plainCodec denial = some (.Deny (parseReply denial true)) := by rfl
  obtain ⟨sent, hbuild⟩ :=
    (@buildHttpResponse_ok_iff (responseOf (effect plainCodec ⟨.null, 200, [], none, []⟩
      (.Deny (parseReply denial true))))).mpr (by decide)
  have hstatus := status_of_build hbuild
  rcases h sent (.deny _ hparse hbuild) with ⟨heq, -⟩ | ⟨-, heq⟩
  · rw [hstatus] at heq
    cases heq
  · rw [hstatus] at heq
    cases heq

end HttpIngress
