import GreenticOperator.Hooks.Runner
import GreenticOperator.Lib.Eff
import GreenticOperator.MessagingUniversal.App

/-!
# The hooks, on an answer that is changed in place

`src/hooks/runner.rs`. The loop over the hooks as it runs: a directive changes the answer one field
after another, what was changed before an error stays changed, and each hook is asked about the
answer as it is then. The two entry points put the answer of an ingress into the loop and take it
out again. One of them carries the body as a base64 text.
-/

namespace Hooks

open Json Domains HttpIngress Ingress Offers RunnerHost
open MessagingUniversal (HttpInV1 HttpOutV1)

/-- What answers the hooks' calls: the runner host, asked by the hook of a number with a payload, and
the dispatcher. A pack whose path has no file name fails like a call that cannot be made. -/
structure Host where
  ask : Nat → Offer → Value → Except String FlowOutcome
  dispatch : Nat → HookIngressBody → DispatchTarget → Except String Unit

/-! ## Applying a directive -/

def pushHeader (name value : String) : Eff HookIngressBody Unit :=
  Eff.modify fun body => { body with responseHeaders := body.responseHeaders ++ [(name, value)] }

def setBody (bytes : Option (List UInt8)) : Eff HookIngressBody Unit :=
  Eff.modify fun body => { body with responseBody := bytes }

def applyReplyInPlace (codec : Codec) (reply : IngressReply) (denyDefault : Bool) :
    Eff HookIngressBody Unit := do
  let statusDefault : UInt16 := if denyDefault then 403 else 200
  Eff.modify fun body => { body with responseStatus := reply.statusCode.getD statusDefault }
  Eff.modify fun body => { body with responseHeaders := [] }
  match reply.reasonCode with
  | some code => pushHeader "x-reason-code" code
  | none => pure ()
  Eff.modify fun body => { body with events := [] }
  match reply.cardCbor, reply.text with
  | some card, some text =>
    pushHeader "content-type" "application/json"
    setBody (some (codec.toVec (.ofFields [("text", .string text), ("card", card)])))
  | some card, none =>
    pushHeader "content-type" "application/json"
    setBody (some (codec.toVec (.ofFields [("card", card)])))
  | none, some text =>
    pushHeader "content-type" "text/plain"
    setBody (some text.toUTF8.toList)
  | none, none => setBody none

/-- `apply_control_directive_with_dispatcher`, for the hook of number `i`. -/
def applyInPlace (codec : Codec) (host : Host) (i : Nat) : ControlDirective → Eff HookIngressBody Unit
  | .Continue => pure ()
  | .Respond reply => applyReplyInPlace codec reply false
  | .Deny reply => applyReplyInPlace codec reply true
  | .Dispatch target => do
    let body ← Eff.read id
    Eff.lift (host.dispatch i body target)
    Eff.modify fun body => { body with responseStatus := 202 }
    Eff.modify fun body => { body with responseHeaders := [("content-type", "application/json")] }
    setBody (some (codec.toVec (.ofFields [("ok", .bool true), ("dispatched", .bool true),
      ("target", targetValue target)])))
    Eff.modify fun body => { body with events := [] }

/-! ## The loop -/

/-- The answer, and the hooks that were asked about it. -/
structure Chain where
  body : HookIngressBody
  asked : List Offer

/-- A computation on the answer of a chain. -/
def onBody {α : Type} (x : Eff HookIngressBody α) : Eff Chain α := fun chain =>
  ((x chain.body).1, { chain with body := (x chain.body).2 })

@[simp] theorem onBody_run {α : Type} (x : Eff HookIngressBody α) (chain : Chain) :
    (onBody x).run chain = ((x.run chain.body).1, { chain with body := (x.run chain.body).2 }) := rfl

/-- The selected hooks from number `i` on; the directive that was applied. -/
def runInPlace (codec : Codec) (host : Host) (provider : String) (ctx : OperatorContext) :
    Nat → List Offer → Eff Chain (Option ControlDirective)
  | _, [] => pure none
  | i, offer :: rest => do
    let payload ← Eff.read fun chain => hookPayload codec provider ctx chain.body
    if (codec.toCanonicalCbor payload).isNone then Eff.fail "encode hook post_ingress payload"
    Eff.modify fun chain => { chain with asked := chain.asked ++ [offer] }
    let outcome ← Eff.lift (host.ask i offer payload)
    match directiveOfReply codec outcome with
    | none => runInPlace codec host provider ctx (i + 1) rest
    | some directive =>
      match ← (onBody (applyInPlace codec host i directive)).attempt with
      | .ok () => return some directive
      | .error _ => runInPlace codec host provider ctx (i + 1) rest

/-- The hooks that a request is put before: none where they are off or the bundle has no packs. -/
def World.selected (w : World) : Except String (List Offer) := do
  if !w.hooksEnabled then return []
  if !w.packsRootExists then return []
  let refs ← w.packRefs
  if refs.isEmpty then return []
  let registry ← w.registry
  return registry.selectHooks hookStagePostIngress hookContractControlV1

/-- `apply_post_ingress_hooks_json`. -/
def applyJsonInPlace (codec : Codec) (w : World) (host : Host) (provider : String) (ctx : OperatorContext) :
    Eff Chain (Option ControlDirective) := do
  runInPlace codec host provider ctx 0 (← Eff.lift w.selected)

/-! ## The entry points -/

def httpBody (codec : Codec) (request : HttpInV1) (response : HttpOutV1) : HookIngressBody where
  request := request.toValue
  responseStatus := response.status
  responseHeaders := response.headers
  responseBody := response.bodyB64.bind codec.base64Decode
  events := response.events

/-- A text body is what the hooks left of its bytes. -/
def withBody (codec : Codec) (response : HttpOutV1) (body : HookIngressBody) : HttpOutV1 :=
  { response with
    status := body.responseStatus
    headers := body.responseHeaders
    bodyB64 := body.responseBody.map codec.base64Encode
    events := body.events }

def applyPostIngressHooksHttp (codec : Codec) (w : World) (host : Host) (request : HttpInV1)
    (ctx : OperatorContext) : Eff HttpOutV1 (Option ControlDirective) := fun response =>
  match (applyJsonInPlace codec w host request.provider ctx).run ⟨httpBody codec request response, []⟩ with
  | (.error err, _) => (.error err, response)
  | (.ok applied, chain) => (.ok applied, withBody codec response chain.body)

/-- The response is taken over before the events are read. -/
def applyDispatchInPlace (codec : Codec) (w : World) (host : Host) (domain : Domain)
    (request : IngressRequestV1) (ctx : OperatorContext) :
    Eff IngressDispatchResult (Option ControlDirective) := fun result =>
  if domain = .Events && !w.eventHooksEnabled then (.ok none, result)
  else
    match (applyJsonInPlace codec w host request.provider ctx).run ⟨hookBody request result, []⟩ with
    | (.error err, _) => (.error err, result)
    | (.ok applied, chain) =>
      let result := { result with
        response := ⟨chain.body.responseStatus, chain.body.responseHeaders, chain.body.responseBody⟩ }
      match readEvents chain.body.events with
      | .error err => (.error err, result)
      | .ok events => (.ok applied, { result with events })

end Hooks
