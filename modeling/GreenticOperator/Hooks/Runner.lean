import GreenticOperator.Domains
import GreenticOperator.Ingress.ControlDirective
import GreenticOperator.Lib.Outcome
import GreenticOperator.Offers.Registry
import GreenticOperator.RunnerHost.Types

/-!
# Hooks after the ingress

`src/hooks/runner.rs`. The hooks that the packs of a bundle offer are asked one after another
about a request and the answer its provider gave, until a directive of one of them is applied. A
directive that cannot be applied is passed over, like a hook that fails or has nothing to say.
-/

namespace Hooks

open Json Domains HttpIngress Ingress Offers RunnerHost

/-- What the hooks of a request run in: the two variables of the environment, the packs of the
bundle, and the answers to what is called. The replies are those to the hooks in the order they
are selected in; `runTarget` is what comes of a dispatch by the hook of that number. -/
structure World where
  hooksVar : Option String
  eventHooksVar : Option String
  packsRootExists : Bool
  packRefs : Except String (List String)
  registry : Except String OfferRegistry
  reply : Nat → Except String FlowOutcome
  runTarget : Nat → DispatchTarget → Except String Unit

def normalized (value : String) : String := Text.toAsciiLowercase (Text.trim value)

def World.hooksEnabled (w : World) : Bool :=
  match w.hooksVar with
  | some value =>
    let value := normalized value
    !(value == "0" || value == "false" || value == "no" || value == "off")
  | none => true

def World.eventHooksEnabled (w : World) : Bool :=
  match w.eventHooksVar with
  | some value =>
    let value := normalized value
    value == "1" || value == "true" || value == "yes" || value == "on"
  | none => false

/-- What the hooks see of a request, and what a directive changes. -/
structure HookIngressBody where
  request : Value
  responseStatus : UInt16
  responseHeaders : List (String × String)
  responseBody : Option (List UInt8)
  events : List Value

def HookIngressBody.responseValue (codec : Codec) (body : HookIngressBody) : Value :=
  .ofFields [("status", .ofNat body.responseStatus.toNat),
    ("headers", pairsToValue body.responseHeaders),
    ("body_b64", .ofOption (body.responseBody.map codec.base64Encode))]

/-- What a hook is asked. -/
def hookPayload (codec : Codec) (provider : String) (ctx : OperatorContext) (body : HookIngressBody) :
    Value :=
  .ofFields [("stage", .string hookStagePostIngress), ("contract", .string hookContractControlV1),
    ("provider", .string provider), ("request", body.request),
    ("response", body.responseValue codec), ("events", .array body.events),
    ("tenant", .string ctx.tenant), ("team", .ofOption ctx.team),
    ("correlation_id", .ofOption ctx.correlationId)]

/-! ## Applying a directive -/

def applyReply (codec : Codec) (body : HookIngressBody) (reply : IngressReply) (denyDefault : Bool) :
    HookIngressBody :=
  let body := { body with
    responseStatus := reply.statusCode.getD (if denyDefault then 403 else 200)
    responseHeaders := (reply.reasonCode.map fun code => ("x-reason-code", code)).toList
    events := [] }
  match reply.cardCbor, reply.text with
  | some card, text =>
    { body with
      responseHeaders := body.responseHeaders ++ [("content-type", "application/json")]
      responseBody := some (codec.toVec
        (.ofFields (Value.present "text" (text.map Value.string) ++ [("card", card)]))) }
  | none, some text =>
    { body with
      responseHeaders := body.responseHeaders ++ [("content-type", "text/plain")]
      responseBody := some text.toUTF8.toList }
  | none, none => { body with responseBody := none }

def isSafeSegment (value : String) : Bool :=
  if value == "" || value == "." || value == ".." then false
  else !value.toList.contains '/' && !value.toList.contains '\\' && !value.toList.contains '\x00'
    && !value.toList.contains ':' && !Text.startsWithChar '.' value

def ensureSegment (what value : String) : Except String Unit :=
  if isSafeSegment value then .ok () else .error ("invalid dispatch " ++ what ++ " '" ++ value ++ "'")

def ensureDispatchTargetSafe (target : DispatchTarget) : Except String Unit := do
  ensureSegment "tenant" target.tenant
  target.team.forM (ensureSegment "team")
  ensureSegment "pack" target.pack
  target.flow.forM (ensureSegment "flow")
  target.node.forM (ensureSegment "node")

/-- The checks of a dispatch, and then the search for the pack and the run of its flow. -/
def dispatchToTarget (w : World) (i : Nat) (target : DispatchTarget) : Except String Unit := do
  ensureDispatchTargetSafe target
  w.runTarget i target

def targetValue (target : DispatchTarget) : Value :=
  .ofFields [("tenant", .string target.tenant), ("team", .ofOption target.team),
    ("pack", .string target.pack), ("flow", .ofOption target.flow), ("node", .ofOption target.node)]

/-- What a directive of the hook of number `i` makes of the answer. -/
def applyControlDirective (codec : Codec) (w : World) (i : Nat) (body : HookIngressBody) :
    ControlDirective → Except String HookIngressBody
  | .Continue => .ok body
  | .Respond reply => .ok (applyReply codec body reply false)
  | .Deny reply => .ok (applyReply codec body reply true)
  | .Dispatch target => do
    dispatchToTarget w i target
    return { body with
      responseStatus := 202
      responseHeaders := [("content-type", "application/json")]
      responseBody := some (codec.toVec (.ofFields [("ok", .bool true), ("dispatched", .bool true),
        ("target", targetValue target)]))
      events := [] }

/-! ## The hooks of a request -/

/-- The directive that a reply asks to apply. -/
def directiveOfReply (codec : Codec) (outcome : FlowOutcome) : Option ControlDirective :=
  if !outcome.success then none
  else match outcome.output.bind (tryParseControlDirective codec) with
  | some .Continue => none
  | directive => directive

/-- The loop over the selected hooks from number `i` on: the answer it ends with, and the
directive that was applied. -/
def runHooks (codec : Codec) (w : World) (provider : String) (ctx : OperatorContext) :
    Nat → List Offer → HookIngressBody → Except String (HookIngressBody × Option ControlDirective)
  | _, [], body => .ok (body, none)
  | i, _ :: rest, body => do
    if (codec.toCanonicalCbor (hookPayload codec provider ctx body)).isNone then
      throw "encode hook post_ingress payload"
    let outcome ← w.reply i
    match directiveOfReply codec outcome with
    | none => runHooks codec w provider ctx (i + 1) rest body
    | some directive =>
      match applyControlDirective codec w i body directive with
      | .ok body => return (body, some directive)
      | .error _ => runHooks codec w provider ctx (i + 1) rest body

def applyPostIngressHooksJson (codec : Codec) (w : World) (provider : String) (ctx : OperatorContext)
    (body : HookIngressBody) : Except String (HookIngressBody × Option ControlDirective) := do
  if !w.hooksEnabled then return (body, none)
  if !w.packsRootExists then return (body, none)
  let refs ← w.packRefs
  if refs.isEmpty then return (body, none)
  let registry ← w.registry
  runHooks codec w provider ctx 0
    (registry.selectHooks hookStagePostIngress hookContractControlV1) body

/-- The events of an answer as the hooks left them. -/
def readEvents (values : List Value) : Except String (List EventEnvelopeV1) :=
  values.mapM fun v =>
    match EventEnvelopeV1.ofValue v with
    | some event => .ok event
    | none => .error "hook output events were not valid ingress event envelopes"

/-- What the hooks are given of a request and the provider's result. -/
def hookBody (request : IngressRequestV1) (result : IngressDispatchResult) : HookIngressBody where
  request := request.toValue
  responseStatus := result.response.status
  responseHeaders := result.response.headers
  responseBody := result.response.body
  events := result.events.map EventEnvelopeV1.toValue

/-- The provider's result after the hooks, with the directive that was applied. -/
def applyPostIngressHooksDispatch (codec : Codec) (w : World) (domain : Domain)
    (request : IngressRequestV1) (result : IngressDispatchResult) (ctx : OperatorContext) :
    Except String (IngressDispatchResult × Option ControlDirective) := do
  if domain = .Events && !w.eventHooksEnabled then return (result, none)
  let (body, applied) ← applyPostIngressHooksJson codec w request.provider ctx (hookBody request result)
  let events ← readEvents body.events
  return ({ result with
    response := { status := body.responseStatus, headers := body.responseHeaders, body := body.responseBody }
    events }, applied)

end Hooks
