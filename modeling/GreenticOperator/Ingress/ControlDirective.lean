import GreenticOperator.HttpIngress.Types
import GreenticOperator.Lib.Text

/-!
# Control directives

`src/ingress/control_directive.rs`. What a hook may say about a request that came in: to go on,
to answer it or deny it, or to hand it to a flow of some pack.
-/

namespace Ingress

open Json HttpIngress

structure DispatchTarget where
  tenant : String
  team : Option String
  pack : String
  flow : Option String
  node : Option String
deriving DecidableEq, Repr

structure IngressReply where
  text : Option String
  cardCbor : Option Value
  statusCode : Option UInt16
  reasonCode : Option String

inductive ControlDirective
  | Continue
  | Dispatch (target : DispatchTarget)
  | Respond (reply : IngressReply)
  | Deny (reply : IngressReply)

def directiveKeys : List String :=
  ["hook_decision_cbor_b64", "cbor_b64", "hook_decision_cbor", "result_cbor_b64"]

/-- The JSON of the first of the keys that holds base64 of CBOR. -/
def decodeDirectiveJson (codec : Codec) (output : Value) : Option Value := do
  let _ ← output.asObject
  directiveKeys.findSome? fun key => do
    codec.fromCbor (← codec.base64Decode (← textField output key))

/-- A text field without the white space at its ends, unless nothing is left. -/
def filledField (v : Value) (name : String) : Option String :=
  ((textField v name).map Text.trim).filter (· != "")

def parseDispatchTargetString (raw : String) : Option DispatchTarget :=
  match ((Text.split '/' raw).map Text.trim).filter (· != "") with
  | [tenant, team, pack] => some { tenant, team, pack, flow := none, node := none }
  | [tenant, team, pack, flow] => some { tenant, team, pack, flow, node := none }
  | [tenant, team, pack, flow, node] => some { tenant, team, pack, flow, node }
  | _ => none

def parseDispatch (raw : Option Value) : Option DispatchTarget := do
  let raw ← raw
  match raw.asStr with
  | some target => parseDispatchTargetString target
  | none =>
    let _ ← raw.asObject
    let tenant := Text.trim (← textField raw "tenant")
    let pack := Text.trim (← textField raw "pack")
    if tenant.isEmpty || pack.isEmpty then none
    else
      some { tenant, team := filledField raw "team", pack, flow := filledField raw "flow",
             node := filledField raw "node" }

/-- A field of the reason an answer gives. -/
def reasonField (decoded : Value) (name : String) : Option String :=
  (decoded.get "reason").bind fun reason => textField reason name

def parseReply (decoded : Value) (deny : Bool) : IngressReply where
  text := (textField decoded "response_text").or
    (if deny then reasonField decoded "text" else none)
  cardCbor := decoded.get "response_card"
  statusCode := (((decoded.get "status_code").bind Value.asU64).map UInt64.toUInt16).or
    (some (if deny then 403 else 200))
  reasonCode := (textField decoded "reason_code").or (reasonField decoded "code")

def tryParseControlDirective (codec : Codec) (output : Value) : Option ControlDirective := do
  let decoded := (decodeDirectiveJson codec output).getD output
  let action := Text.toAsciiLowercase (Text.trim (← textField decoded "action"))
  if action = "continue" then some .Continue
  else if action = "dispatch" then (parseDispatch (decoded.get "target")).map .Dispatch
  else if action = "respond" then some (.Respond (parseReply decoded false))
  else if action = "deny" then some (.Deny (parseReply decoded true))
  else none

end Ingress
