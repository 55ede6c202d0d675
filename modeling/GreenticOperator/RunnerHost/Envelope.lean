import GreenticOperator.Lib.JsonRecord
import GreenticOperator.RunnerHost.Types

/-!
# Operation envelopes

`src/demo/runner_host.rs`. The envelope of an operation is what its hooks are shown, and what
they may answer with. A hook's answer is read as CBOR, in one of several wrappings, and
otherwise as plain JSON.
-/

namespace RunnerHost

open Json

inductive OperationStatus
  | Pending
  | Denied
  | Ok
  | Err
deriving DecidableEq, Repr

structure OperationEnvelopeContext where
  tenant : String
  team : Option String
  correlationId : Option String
  authClaims : Option Value
deriving Repr

structure OperationEnvelope where
  opId : String
  opName : String
  ctx : OperationEnvelopeContext
  payloadCbor : List UInt8
  metaCbor : Option (List UInt8)
  status : OperationStatus
  resultCbor : Option (List UInt8)
deriving Repr

/-- A new envelope under a drawn id. -/
def OperationEnvelope.new (opId opName : String) (payload : List UInt8) (ctx : OperatorContext) :
    OperationEnvelope where
  opId
  opName
  ctx := ⟨ctx.tenant, ctx.team, ctx.correlationId, none⟩
  payloadCbor := payload
  metaCbor := none
  status := .Pending
  resultCbor := none

/-- The context an envelope says its operation runs under. -/
def OperationEnvelope.context (envelope : OperationEnvelope) : OperatorContext :=
  ⟨envelope.ctx.tenant, envelope.ctx.team, envelope.ctx.correlationId⟩

structure HookEvalRequest where
  stage : String
  opName : String
  envelope : OperationEnvelope

structure HookEvalResponse where
  decision : String
  reason : Option String
  envelope : Option OperationEnvelope

inductive HookChainOutcome
  | Continue
  | Denied (reason : String)
deriving DecidableEq, Repr

/-! ## As JSON -/

def OperationStatus.text : OperationStatus → String
  | .Pending => "pending"
  | .Denied => "denied"
  | .Ok => "ok"
  | .Err => "err"

def OperationEnvelopeContext.toValue (ctx : OperationEnvelopeContext) : Value :=
  Value.ofFields ([("tenant", .string ctx.tenant), ("team", Value.ofOption ctx.team),
      ("correlation_id", Value.ofOption ctx.correlationId)]
    ++ (ctx.authClaims.map fun claims => ("auth_claims", claims)).toList)

def OperationEnvelope.toValue (envelope : OperationEnvelope) : Value :=
  Value.ofFields [("op_id", .string envelope.opId), ("op_name", .string envelope.opName),
    ("ctx", envelope.ctx.toValue), ("payload_cbor", Value.ofBytes envelope.payloadCbor),
    ("meta_cbor", (envelope.metaCbor.map Value.ofBytes).getD .null),
    ("status", .string envelope.status.text),
    ("result_cbor", (envelope.resultCbor.map Value.ofBytes).getD .null)]

def readByte (v : Value) : Option UInt8 :=
  v.asU64.bind fun n => if n.toNat < 256 then some (UInt8.ofNat n.toNat) else none

def readBytes : Value → Option (List UInt8) := Value.listOf readByte

def readStatus (v : Value) : Option OperationStatus :=
  match v.unitVariant with
  | some "pending" => some .Pending
  | some "denied" => some .Denied
  | some "ok" => some .Ok
  | some "err" => some .Err
  | _ => none

def readEnvelopeContext (v : Value) : Option OperationEnvelopeContext := do
  let fields ← Value.recordFields ["tenant", "team", "correlation_id", "auth_claims"] 3 v
  let tenant ← Value.requiredText "tenant" fields
  let team ← Value.optionalText "team" fields
  let correlationId ← Value.optionalText "correlation_id" fields
  let authClaims ← Value.optionalField some "auth_claims" fields
  return { tenant, team, correlationId, authClaims }

def readEnvelope (v : Value) : Option OperationEnvelope := do
  let fields ← Value.recordFields
    ["op_id", "op_name", "ctx", "payload_cbor", "meta_cbor", "status", "result_cbor"] 7 v
  let opId ← Value.requiredText "op_id" fields
  let opName ← Value.requiredText "op_name" fields
  let ctx ← Value.field none readEnvelopeContext "ctx" fields
  let payloadCbor ← Value.field none readBytes "payload_cbor" fields
  let metaCbor ← Value.optionalField readBytes "meta_cbor" fields
  let status ← Value.field none readStatus "status" fields
  let resultCbor ← Value.optionalField readBytes "result_cbor" fields
  return { opId, opName, ctx, payloadCbor, metaCbor, status, resultCbor }

def readHookResponse (v : Value) : Option HookEvalResponse := do
  let fields ← Value.recordFields ["decision", "reason", "envelope"] 1 v
  let decision ← Value.requiredText "decision" fields
  let reason ← Value.optionalText "reason" fields
  let envelope ← Value.optionalField readEnvelope "envelope" fields
  return { decision, reason, envelope }

/-! ## Codecs -/

/-- The codecs the host uses: JSON text, base64 text, and CBOR. -/
structure Codec where
  fromSlice : List UInt8 → Option Value
  base64Encode : List UInt8 → String
  base64Decode : String → Option (List UInt8)
  hookResponseOfCbor : List UInt8 → Option HookEvalResponse
  toCanonicalCbor : Value → Option (List UInt8)

def hookResponseKeys : List String := ["hook_decision_cbor_b64", "cbor_b64", "hook_decision_cbor"]

/-- The bytes of an array of bytes or a base64 text. -/
def plainCborBlob (codec : Codec) (v : Value) : Option (List UInt8) :=
  match v with
  | .array _ => readBytes v
  | .string s => codec.base64Decode s
  | _ => none

mutual

/-- The CBOR bytes a value wraps: itself, or the first of its known fields that has some. -/
def extractCborBlob (codec : Codec) : Value → Option (List UInt8)
  | .object fields => hookResponseKeys.findSome? fun key => cborBlobOfField codec key fields
  | v => plainCborBlob codec v

/-- The CBOR bytes of the field of a name. -/
def cborBlobOfField (codec : Codec) (key : String) : List (String × Value) → Option (List UInt8)
  | [] => none
  | (name, v) :: rest => if key = name then extractCborBlob codec v else cborBlobOfField codec key rest

end

def decodeHookResponse (codec : Codec) (v : Value) : Except String HookEvalResponse :=
  match ((extractCborBlob codec v).bind codec.hookResponseOfCbor).or (readHookResponse v) with
  | some response => .ok response
  | none => .error "hook response is not valid cbor or legacy json"

end RunnerHost
