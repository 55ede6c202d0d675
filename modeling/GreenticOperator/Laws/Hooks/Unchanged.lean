import GreenticOperator.HttpIngress.Dispatch
import GreenticOperator.Laws.Hooks.Fold
import GreenticOperator.Laws.Hooks.Stop
import GreenticOperator.Laws.Offers.Keys

/-!
# An answer that no hook changes

The two entry points put an answer into the loop over the hooks and take it out again. Both come out
as the loop does (`HookFold`), except for what is lost where nothing applies: a text body that is no
base64 (`hookFold_iff`). Events come out as they went in, but for one with a null in its field
`http`, which no provider's answer leads to (`http_ne_null_of_parse`).
-/

namespace Hooks

open Json Domains HttpIngress Ingress Offers RunnerHost
open MessagingUniversal (HttpInV1 HttpOutV1)

variable {codec : Codec} {host : Host} {w : World} {ctx : OperatorContext}

/-! ## Events -/

theorem source_ofValue_toValue (source : EventSourceV1) : EventSourceV1.ofValue source.toValue = some source := by
  obtain ⟨domain, provider, handlerId⟩ := source
  refine Value.recordFields_ofFields (by cases handlerId <;> simp [Value.present]) fun stored h => ?_
  have hdomain : Value.requiredText "domain" stored = some domain := h.requiredText rfl
  have hprovider : Value.requiredText "provider" stored = some provider := h.requiredText rfl
  have hhandler : Value.optionalText "handler_id" stored = some handlerId := by
    refine h.optionalText (.inr ?_)
    simp [List.lookup_cons]
  simp [EventSourceV1.ofFields, hdomain, hprovider, hhandler]

theorem scope_ofValue_toValue (scope : EventScopeV1) : EventScopeV1.ofValue scope.toValue = some scope := by
  obtain ⟨tenant, team⟩ := scope
  refine Value.recordFields_ofFields (by cases team <;> simp [Value.present]) fun stored h => ?_
  have htenant : Value.requiredText "tenant" stored = some tenant := h.requiredText rfl
  have hteam : Value.optionalText "team" stored = some team := by
    refine h.optionalText (.inr ?_)
    simp [List.lookup_cons]
  simp [EventScopeV1.ofFields, htenant, hteam]

/-- An event is read as it was written, but for a null in its field `http`. -/
theorem ofValue_toValue (event : EventEnvelopeV1) :
    EventEnvelopeV1.ofValue event.toValue
      = some { event with http := event.http.filter fun v => !(v matches .null) } := by
  obtain ⟨eventId, eventType, occurredAt, source, scope, correlationId, payload, http, raw⟩ := event
  refine Value.recordFields_ofFields
    (by cases correlationId <;> cases http <;> cases raw <;> simp [Value.present]) fun stored h => ?_
  have hid : Value.requiredText "event_id" stored = some eventId := h.requiredText rfl
  have htype : Value.requiredText "event_type" stored = some eventType := h.requiredText rfl
  have hoccurred : Value.requiredText "occurred_at" stored = some occurredAt := h.requiredText rfl
  have hsource : Value.field none EventSourceV1.ofValue "source" stored = some source :=
    (h.field _ _ _).trans (source_ofValue_toValue source)
  have hscope : Value.field none EventScopeV1.ofValue "scope" stored = some scope :=
    (h.field _ _ _).trans (scope_ofValue_toValue scope)
  have hcorrelation : Value.optionalText "correlation_id" stored = some correlationId := by
    refine h.optionalText (.inr ?_)
    simp [List.lookup_append, List.lookup_cons]
  have hpayload : Value.field none some "payload" stored = some payload := h.field _ _ _
  have hraw : Value.optionalText "raw" stored = some raw := by
    refine h.optionalText (.inr ?_)
    simp [List.lookup_append, List.lookup_cons]
  have hhttp : Value.optionalField some "http" stored = some (http.filter fun v => !(v matches .null)) := by
    rw [Value.optionalField_eq, h.field,
      show List.lookup "http" _ = http by simp [List.lookup_append, List.lookup_cons]]
    cases http with
    | none => rfl
    | some v => cases v <;> rfl
  simp [EventEnvelopeV1.ofFields, hid, htype, hoccurred, hsource, hscope, hcorrelation, hpayload, hraw, hhttp]

theorem filter_http_eq_self_iff {http : Option Value} :
    (http.filter fun v => !(v matches .null)) = http ↔ http ≠ some .null := by
  cases http with
  | none => simp
  | some v => cases v <;> simp [Option.filter]

/-- The field `http` of an event that was read. -/
theorem http_of_ofValue {v : Value} {event : EventEnvelopeV1} (h : EventEnvelopeV1.ofValue v = some event) :
    ∃ fields, Value.optionalField some "http" fields = some event.http := by
  obtain ⟨fields, -, h⟩ := Option.bind_eq_some_iff.mp h
  iterate 7 obtain ⟨_, -, h⟩ := Option.bind_eq_some_iff.mp h
  obtain ⟨http, hhttp, h⟩ := Option.bind_eq_some_iff.mp h
  obtain ⟨_, -, h⟩ := Option.bind_eq_some_iff.mp h
  cases h
  exact ⟨fields, hhttp⟩

theorem optionalField_ne_null {fields : List (String × Value)} {name : String} {v : Option Value}
    (h : Value.optionalField some name fields = some v) : v ≠ some .null := by
  intro hnull
  cases hnull
  unfold Value.optionalField at h
  split at h
  · cases h
  · split at h
    · cases h
    next hv =>
      cases h
      exact hv rfl
  · cases h

/-- The events that a provider's answer leads to have no null in their field `http`. -/
theorem http_ne_null_of_parse {value : Value} {result : IngressDispatchResult}
    (h : parseDispatchResult codec value = .ok result) : ∀ event ∈ result.events, event.http ≠ some .null := by
  obtain ⟨response, -, h⟩ := Outcome.bind_eq_ok_iff.mp h
  cases h
  intro event hevent
  obtain ⟨entry, -, hread⟩ := List.mem_filterMap.mp hevent
  obtain ⟨fields, hhttp⟩ := http_of_ofValue hread
  exact optionalField_ne_null hhttp

/-- An event as it comes out of the hooks. -/
def recoded (event : EventEnvelopeV1) : EventEnvelopeV1 :=
  { event with http := event.http.filter fun v => !(v matches .null) }

theorem readEvents_toValue (events : List EventEnvelopeV1) :
    readEvents (events.map EventEnvelopeV1.toValue) = .ok (events.map recoded) := by
  unfold readEvents
  refine Outcome.mapM_ok_of_forall₂ ?_
  rw [List.forall₂_map_left_iff, List.forall₂_map_right_iff, List.forall₂_same]
  intro event _
  rw [ofValue_toValue]
  rfl

theorem map_recoded_eq_iff {events : List EventEnvelopeV1} :
    events.map recoded = events ↔ ∀ event ∈ events, event.http ≠ some .null := by
  have hself : events.map recoded = events.map id ↔ _ := List.map_inj_left
  rw [List.map_id] at hself
  rw [hself]
  constructor
  · intro h event hevent
    exact filter_http_eq_self_iff.mp (congrArg EventEnvelopeV1.http (h event hevent))
  · intro h event hevent
    rw [recoded, filter_http_eq_self_iff.mpr (h event hevent)]
    rfl

/-! ## The loop, from the world -/

theorem selected_pairwise {selected : List Offer} (h : w.selected = .ok selected) :
    selected.Pairwise byPriority := by
  unfold World.selected at h
  split at h
  · cases h
    exact .nil
  · split at h
    · cases h
      exact .nil
    · obtain ⟨refs, -, h⟩ := Outcome.bind_eq_ok_iff.mp h
      split at h
      · cases h
        exact .nil
      · obtain ⟨registry, -, h⟩ := Outcome.bind_eq_ok_iff.mp h
        cases h
        exact List.pairwise_insertionSort byPriority _

/-- A directive that fails leaves the answer as it was. -/
theorem applyInPlace_kept {i : Nat} {body : HookIngressBody} {directive : ControlDirective} {err : String}
    (h : ((applyInPlace codec host i directive).run body).1 = .error err) :
    ((applyInPlace codec host i directive).run body).2 = body := by
  cases hcarries : host.carriesOut i body directive with
  | true =>
    rw [applyInPlace_of_carriesOut hcarries] at h
    cases h
  | false =>
    obtain ⟨err', happly⟩ := @applyInPlace_of_fails codec host i body directive hcarries
    rw [happly]

theorem applyJsonInPlace_of_selected {selected : List Offer} {provider : String} {body : HookIngressBody}
    (h : w.selected = .ok selected) :
    (applyJsonInPlace codec w host provider ctx).run ⟨body, []⟩
      = ending codec body [] 0 selected (decided codec host provider ctx body 0 selected) := by
  have hselected : (Eff.lift w.selected).run (⟨body, []⟩ : Chain) = (.ok selected, ⟨body, []⟩) := by
    rw [h]
    rfl
  rw [applyJsonInPlace, Eff.bind_run_of_ok hselected]
  exact runInPlace_eq selected 0 body []

theorem applyJsonInPlace_of_unselected {err : String} {provider : String} {body : HookIngressBody}
    (h : w.selected = .error err) :
    (applyJsonInPlace codec w host provider ctx).run ⟨body, []⟩ = (.error err, ⟨body, []⟩) := by
  have hselected : (Eff.lift w.selected).run (⟨body, []⟩ : Chain) = (.error err, ⟨body, []⟩) := by
    rw [h]
    rfl
  rw [applyJsonInPlace, Eff.bind_run_of_error hselected]

/-! ## The two entry points -/

/-- What an entry point makes of its answer; `put` is the answer after an applied directive. -/
def folded {α : Type} (codec : Codec) (body : HookIngressBody) (given : α) (put : HookIngressBody → α) :
    Option (Nat × Decision) → Except String (Option ControlDirective) × α
  | none => (.ok none, given)
  | some (_, .takes directive) => (.ok (some directive), put (effect codec body directive))
  | some (_, .unasked) => (.error "encode hook post_ingress payload", given)
  | some (_, .fails message) => (.error message, given)

/-- The result of a provider with the answer of the hooks in it. -/
def withAnswer (result : IngressDispatchResult) (body : HookIngressBody) : IngressDispatchResult :=
  { result with
    response := ⟨body.responseStatus, body.responseHeaders, body.responseBody⟩
    events := body.events.filterMap EventEnvelopeV1.ofValue }

/-- Whether the results of a domain are put before the hooks. -/
def World.asks (w : World) (domain : Domain) : Bool := !(domain = .Events && !w.eventHooksEnabled)

/-- An answer of a messaging provider, and a result of a provider of some domain, with the requests
they answer. -/
structure Answers where
  httpRequest : HttpInV1
  response : HttpOutV1
  domain : Domain
  request : IngressRequestV1
  result : IngressDispatchResult

/-- **The hooks fold their answers**: the first directive that can be carried out has its effect, on
the answer as it was, and no hook is asked after it. -/
structure HookFold (codec : Codec) (host : Host) (w : World) (ctx : OperatorContext) (a : Answers) :
    Prop where
  ordered : ∀ selected, w.selected = .ok selected → selected.Pairwise byPriority
  kept : ∀ i body directive err, ((applyInPlace codec host i directive).run body).1 = .error err →
    ((applyInPlace codec host i directive).run body).2 = body
  loop : ∀ selected provider body, w.selected = .ok selected →
    (applyJsonInPlace codec w host provider ctx).run ⟨body, []⟩
      = ending codec body [] 0 selected (decided codec host provider ctx body 0 selected)
  http : ∀ selected, w.selected = .ok selected →
    (applyPostIngressHooksHttp codec w host a.httpRequest ctx).run a.response
      = folded codec (httpBody codec a.httpRequest a.response) a.response (withBody codec a.response)
        (decided codec host a.httpRequest.provider ctx (httpBody codec a.httpRequest a.response) 0 selected)
  dispatch : ∀ selected, w.selected = .ok selected → w.asks a.domain = true →
    (applyDispatchInPlace codec w host a.domain a.request ctx).run a.result
      = folded codec (hookBody a.request a.result) a.result (withAnswer a.result)
        (decided codec host a.request.provider ctx (hookBody a.request a.result) 0 selected)
  off : w.asks a.domain = false →
    (applyDispatchInPlace codec w host a.domain a.request ctx).run a.result = (.ok none, a.result)
  unselected : ∀ err, w.selected = .error err →
    (applyPostIngressHooksHttp codec w host a.httpRequest ctx).run a.response = (.error err, a.response)
    ∧ (w.asks a.domain = true →
      (applyDispatchInPlace codec w host a.domain a.request ctx).run a.result = (.error err, a.result))

section Http

variable {request : HttpInV1} {response : HttpOutV1}

theorem withBody_httpBody :
    withBody codec response (httpBody codec request response) = response
      ↔ (response.bodyB64.bind codec.base64Decode).map codec.base64Encode = response.bodyB64 := by
  obtain ⟨v, status, headers, bodyB64, events⟩ := response
  simp [withBody, httpBody]

/-- A text body is kept where it is one. -/
theorem recoded_eq_iff (hbase64 : ∀ text bytes, codec.base64Decode text = some bytes → codec.base64Encode bytes = text)
    {text : Option String} :
    (text.bind codec.base64Decode).map codec.base64Encode = text
      ↔ ∀ t, text = some t → (codec.base64Decode t).isSome = true := by
  cases text with
  | none => simp
  | some t =>
    cases hdecode : codec.base64Decode t with
    | none => simp [hdecode]
    | some bytes => simp [hdecode, hbase64 t bytes hdecode]

theorem http_eq_folded_iff
    (hbase64 : ∀ text bytes, codec.base64Decode text = some bytes → codec.base64Encode bytes = text)
    {selected : List Offer} (h : w.selected = .ok selected) :
    (applyPostIngressHooksHttp codec w host request ctx).run response
        = folded codec (httpBody codec request response) response (withBody codec response)
          (decided codec host request.provider ctx (httpBody codec request response) 0 selected)
      ↔ (decided codec host request.provider ctx (httpBody codec request response) 0 selected = none →
        ∀ t, response.bodyB64 = some t → (codec.base64Decode t).isSome = true) := by
  rw [Eff.run_eq, applyPostIngressHooksHttp, applyJsonInPlace_of_selected h]
  cases decided codec host request.provider ctx (httpBody codec request response) 0 selected with
  | none =>
    simp only [ending, folded, Prod.mk.injEq, true_and, withBody_httpBody, true_implies]
    exact recoded_eq_iff hbase64
  | some found =>
    obtain ⟨j, d⟩ := found
    cases d <;> simp [ending, folded]

theorem http_of_unselected {err : String} (h : w.selected = .error err) :
    (applyPostIngressHooksHttp codec w host request ctx).run response = (.error err, response) := by
  rw [Eff.run_eq, applyPostIngressHooksHttp, applyJsonInPlace_of_unselected h]

end Http

section Dispatch

variable {domain : Domain} {request : IngressRequestV1} {result : IngressDispatchResult}

/-- An applied directive leaves no events. -/
theorem events_effect {body : HookIngressBody} {directive : ControlDirective} (hne : directive ≠ .Continue) :
    (effect codec body directive).events = [] := by
  cases directive with
  | Continue => exact absurd rfl hne
  | Respond reply => exact events_applyReply body reply false
  | Deny reply => exact events_applyReply body reply true
  | Dispatch target => rfl

theorem not_off_of_asks (h : w.asks domain = true) : ¬ (domain = .Events && !w.eventHooksEnabled) = true := by
  rw [World.asks, Bool.not_eq_true'] at h
  simp [h]

theorem dispatch_of_off (h : w.asks domain = false) :
    (applyDispatchInPlace codec w host domain request ctx).run result = (.ok none, result) := by
  have hoff : (domain = .Events && !w.eventHooksEnabled) = true := by
    simpa [World.asks] using h
  exact if_pos hoff

theorem dispatch_of_unselected {err : String} (h : w.selected = .error err) (hasks : w.asks domain = true) :
    (applyDispatchInPlace codec w host domain request ctx).run result = (.error err, result) := by
  refine (if_neg (not_off_of_asks hasks)).trans ?_
  rw [applyJsonInPlace_of_unselected h]

/-- A directive that a hook has decided on is not to go on. -/
theorem ne_continue_of_decided {provider : String} {body : HookIngressBody} {i j : Nat} {hooks : List Offer}
    {directive : ControlDirective}
    (h : decided codec host provider ctx body i hooks = some (j, .takes directive)) : directive ≠ .Continue := by
  obtain ⟨_, _, -, hdirective⟩ := exists_of_decided_takes h
  exact fun hcontinue => directiveOfReply_ne_continue (hcontinue ▸ hdirective)

theorem dispatch_eq_folded_iff {selected : List Offer} (h : w.selected = .ok selected)
    (hasks : w.asks domain = true) :
    (applyDispatchInPlace codec w host domain request ctx).run result
        = folded codec (hookBody request result) result (withAnswer result)
          (decided codec host request.provider ctx (hookBody request result) 0 selected)
      ↔ (decided codec host request.provider ctx (hookBody request result) 0 selected = none →
        ∀ event ∈ result.events, event.http ≠ some .null) := by
  rw [Eff.run_eq, applyDispatchInPlace, if_neg (not_off_of_asks hasks), applyJsonInPlace_of_selected h]
  cases hdecided : decided codec host request.provider ctx (hookBody request result) 0 selected with
  | none =>
    have hevents : readEvents (hookBody request result).events = .ok (result.events.map recoded) :=
      readEvents_toValue result.events
    simp only [ending, hevents, folded, Prod.mk.injEq, true_and, true_implies]
    rw [← map_recoded_eq_iff]
    exact ⟨fun heq => congrArg IngressDispatchResult.events heq, fun heq => by rw [heq]; rfl⟩
  | some found =>
    obtain ⟨j, d⟩ := found
    cases d with
    | takes directive =>
      have hevents := @events_effect codec (hookBody request result) directive (ne_continue_of_decided hdecided)
      simp [ending, folded, withAnswer, hevents, readEvents]
      rfl
    | unasked => simp [ending, folded]
    | fails message => simp [ending, folded]

end Dispatch

/-- **The fold over the hooks holds** exactly where what no hook changes can be put back: the text
body of the one answer is base64, and no event of the other has a null in its field `http`. -/
theorem hookFold_iff (codec : Codec) (host : Host) (w : World) (ctx : OperatorContext) (a : Answers)
    (hbase64 : ∀ text bytes, codec.base64Decode text = some bytes → codec.base64Encode bytes = text) :
    HookFold codec host w ctx a ↔ ∀ selected, w.selected = .ok selected →
      (decided codec host a.httpRequest.provider ctx (httpBody codec a.httpRequest a.response) 0 selected = none →
        ∀ t, a.response.bodyB64 = some t → (codec.base64Decode t).isSome = true)
      ∧ (w.asks a.domain = true →
        decided codec host a.request.provider ctx (hookBody a.request a.result) 0 selected = none →
        ∀ event ∈ a.result.events, event.http ≠ some .null) := by
  constructor
  · intro hfold selected h
    refine ⟨(http_eq_folded_iff hbase64 h).mp (hfold.http selected h), fun hasks => ?_⟩
    exact (dispatch_eq_folded_iff h hasks).mp (hfold.dispatch selected h hasks)
  · intro hkept
    exact {
      ordered := fun _ => selected_pairwise
      kept := fun _ _ _ _ => applyInPlace_kept
      loop := fun _ _ _ => applyJsonInPlace_of_selected
      http := fun selected h => (http_eq_folded_iff hbase64 h).mpr (hkept selected h).1
      dispatch := fun selected h hasks => (dispatch_eq_folded_iff h hasks).mpr ((hkept selected h).2 hasks)
      off := fun hoff => dispatch_of_off hoff
      unselected := fun err h => ⟨http_of_unselected h, fun hasks => dispatch_of_unselected h hasks⟩ }

/-! ## A bundle without packs -/

/-- The encodings of the text "hi". -/
def hiCodec : HttpIngress.Codec where
  base64Encode bytes := if bytes = [0x68, 0x69] then "aGk=" else ""
  base64Decode text := if text = "aGk=" then some [0x68, 0x69] else none
  fromCbor _ := none
  toCanonicalCbor _ := some []
  toText _ := ""
  readEnvelope _ := none

def noPacks : World where
  hooksVar := none
  eventHooksVar := none
  packsRootExists := false
  packRefs := .ok []
  registry := .ok OfferRegistry.empty
  reply _ := .error "no hook"
  runTarget _ _ := .error "no dispatch"

/-- Answers with a text body. -/
def answersWith (bodyB64 : String) : Answers where
  httpRequest := { v := 1, provider := "messaging-slack", route := none, bindingId := none,
                   tenantHint := none, teamHint := none, method := "POST", path := "/", query := [],
                   headers := [], bodyB64 := "" }
  response := { v := 1, status := 200, headers := [], bodyB64 := some bodyB64, events := [] }
  domain := .Messaging
  request := chatRequest
  result := ⟨⟨200, [], none⟩, [], []⟩

/-- A body that is base64 is kept. -/
theorem hookFold_hi : HookFold hiCodec noPacks.asHost noPacks ⟨"demo", none, none⟩ (answersWith "aGk=") := by
  refine (hookFold_iff hiCodec noPacks.asHost noPacks _ _ ?_).mpr ?_
  · intro text bytes h
    obtain ⟨htext, hbytes⟩ : text = "aGk=" ∧ [0x68, 0x69] = bytes := by simpa [hiCodec] using h
    rw [htext, ← hbytes]
    rfl
  · intro selected _
    refine ⟨fun _ t ht => ?_, fun _ _ event hevent => ?_⟩
    · cases ht
      rfl
    · cases hevent

/-- A body that is no base64 is lost though no hook is asked. -/
theorem undecodable_body_lost :
    ¬ HookFold hiCodec noPacks.asHost noPacks ⟨"demo", none, none⟩ (answersWith "!!") := by
  intro h
  have hhttp := congrArg (fun out => out.2.bodyB64) (h.http [] rfl)
  cases hhttp

end Hooks
