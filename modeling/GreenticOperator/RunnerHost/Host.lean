import GreenticOperator.Capabilities.Install
import GreenticOperator.Lib.Eff
import GreenticOperator.RunnerHost.Envelope

/-!
# The runner host: the token gate and the hook chains

`src/demo/runner_host.rs`. Before an operation runs, a bearer token in its payload is
validated and its pre-hooks are asked; its post-hooks are told afterwards. A hook may answer
with an envelope that takes the place of the operation's own.

What the host does is recorded as a list of events. What its surroundings do is given by
position: the reply to the validation of the token, to each hook of a chain and to the
target.
-/

namespace RunnerHost

open Json Domains Capabilities

/-!
## Bearer tokens of an operation's payload

A payload may carry a bearer token in one of several places. The
first token found is sent to the token validation capability, with what the payload asks of
its issuer, audience and scopes; the answer is read here too.
-/

def firstStringAtPaths (payload : Value) (paths : List String) : Option String :=
  paths.findSome? fun path => (payload.pointer path).bind Value.asStr

def firstValueAtPaths (payload : Value) (paths : List String) : Option Value :=
  paths.findSome? fun path => payload.pointer path

def parseBearerValue (raw : String) : Option String :=
  let trimmed := Text.trim raw
  if trimmed.isEmpty then none
  else match Text.stripPrefix "Bearer " trimmed with
  | some rest =>
    let token := Text.trim rest
    if token.isEmpty then none else some token
  | none => some trimmed

/-- The token of one entry of a list of headers. -/
def bearerOfEntry (entry : Value) : Option String := do
  let name ← ((entry.get "name").or (entry.get "key")).bind Value.asStr
  if Text.eqIgnoreAsciiCase name "authorization" then
    let value ← (entry.get "value").bind Value.asStr
    parseBearerValue value
  else none

def extractBearerFromHeaders (headers : Value) : Option String :=
  match headers with
  | .object map =>
    ["authorization", "Authorization"].findSome? fun key =>
      ((map.lookup key).bind Value.asStr).bind parseBearerValue
  | .array values => values.findSome? bearerOfEntry
  | _ => none

def bearerPaths : List String :=
  ["/token_validation/token", "/auth/token", "/bearer_token", "/token", "/access_token",
    "/authorization"]

def extractBearerToken (payload : Value) : Option String :=
  ((firstStringAtPaths payload bearerPaths).bind parseBearerValue).or
    (((payload.get "headers").bind extractBearerFromHeaders).or
      (((payload.pointer "/metadata/authorization").bind Value.asStr).bind parseBearerValue))

def normalizeStringOrArray (value : Value) : Value :=
  match value with
  | .string raw => .array ((Text.splitWhitespace raw).map Value.string)
  | .array items => .array ((items.filterMap Value.asStr).map Value.string)
  | _ => .array []

/-- What the token validation capability is asked about a payload with a token. -/
def extractTokenValidationRequest (payload : Value) : Option Value := do
  let token ← extractBearerToken payload
  let issuer := firstStringAtPaths payload ["/token_validation/issuer", "/auth/issuer", "/issuer"]
  let audience :=
    firstValueAtPaths payload ["/token_validation/audience", "/auth/audience", "/audience"]
  let scopes := firstValueAtPaths payload
    ["/token_validation/scopes", "/token_validation/required_scopes", "/auth/scopes",
      "/auth/required_scopes", "/scopes"]
  return Value.ofFields ([("token", .string token)]
    ++ (issuer.map fun issuer => ("issuer", Value.string issuer)).toList
    ++ (audience.map fun audience => ("audience", normalizeStringOrArray audience)).toList
    ++ (scopes.map fun scopes => ("scopes", normalizeStringOrArray scopes)).toList)

inductive TokenValidationDecision
  | Allow (claims : Option Value)
  | Deny (reason : String)
deriving Repr

/-- Whether an answer of the capability says that the token is valid. -/
def isValid (output : Value) : Bool :=
  (((output.get "valid").bind Value.asBool).or ((output.get "ok").bind Value.asBool)).getD false

def evaluateTokenValidationOutput (output : Value) : TokenValidationDecision :=
  if isValid output then
    let claims := ((output.get "claims").filter fun value => value.asObject.isSome).or
      (if (output.get "sub").isSome then some output else none)
    .Allow claims
  else
    let reason := (((output.get "reason").bind Value.asStr).or
      ((output.get "error").bind Value.asStr)).getD "invalid bearer token"
    .Deny reason

/-! ## The host -/

/-- Resolving the placeholders of a card in a payload: the request to be sent, if one is
needed, and the payload with the resolved card. -/
structure CardRenderer where
  request : String → List UInt8 → Except String (Option (List UInt8))
  rewrite : String → List UInt8 → Value → Except String (List UInt8)

structure DemoRunnerHost where
  catalog : Domain → String → Option ProviderPack
  packsByPath : String → Option ProviderPack
  capabilityRegistry : CapabilityRegistry
  cardRenderer : CardRenderer
  codec : Codec
  /-- The variable `GREENTIC_ENV`. -/
  env : Option String

inductive CallPayload
  | bytes (payload : List UInt8)
  | validation (request : Value)
  | hook (request : HookEvalRequest)

/-- An invocation of an operation of a provider component. -/
structure ComponentCall where
  domain : Domain
  pack : ProviderPack
  providerId : String
  opId : String
  payload : CallPayload
  ctx : OperatorContext

/-- Why a component is invoked. -/
inductive Purpose
  | tokenValidation
  | hook (stage : HookStage)
  | target
deriving DecidableEq, Repr

inductive Event
  | invoke (purpose : Purpose) (call : ComponentCall) (reply : Except String FlowOutcome)
  /-- A chain of hooks about to be evaluated. -/
  | chain (stage : HookStage) (bindings : List CapabilityBinding)
  /-- The operation is passed on to its target. -/
  | target
  | flow (domain : Domain) (pack : ProviderPack) (flowId : String) (payload : Value)
      (ctx : OperatorContext) (reply : Except String FlowOutcome)
  /-- An event of the capability call that resolves a card. -/
  | card (event : Event)

abbrev Log := List Event

/-- What becomes of a hook: its request cannot be encoded, or its component is invoked. -/
inductive HookAnswer
  | notEncoded (message : String)
  | answered (reply : Except String FlowOutcome)

/-- What the surroundings do during one call. -/
structure Surroundings where
  disk : InstallFiles
  /-- The id drawn for the operation. -/
  opId : String
  tokenValidation : Except String FlowOutcome
  hook : HookStage → Nat → HookAnswer
  target : Except String FlowOutcome

def record (event : Event) : Eff Log Unit := Eff.modify fun log => log ++ [event]

/-- The invocation of a component with the reply it gets. -/
def invokeProviderComponentOp (purpose : Purpose) (call : ComponentCall) (reply : Except String FlowOutcome) :
    Eff Log FlowOutcome := do
  record (.invoke purpose call reply)
  Eff.lift reply

namespace DemoRunnerHost

def scopeOf (host : DemoRunnerHost) (ctx : OperatorContext) : ResolveScope :=
  ⟨host.env, some ctx.tenant, ctx.team⟩

def resolveCapability (host : DemoRunnerHost) (capId : String) (minVersion : Option String)
    (scope : ResolveScope) : Option CapabilityBinding :=
  host.capabilityRegistry.resolve capId minVersion scope

def resolveHookChain (host : DemoRunnerHost) (stage : HookStage) (opName : String) :
    List CapabilityBinding :=
  host.capabilityRegistry.resolveHookChain stage opName

/-! ## The token gate -/

/-- The reply of the token validation, read as the gate reads it. -/
def gateOfReply (outcome : FlowOutcome) : TokenValidationDecision :=
  if outcome.success then
    match outcome.output with
    | none => .Deny "token validation returned no output"
    | some output => evaluateTokenValidationOutput output
  else .Deny (outcome.error.getD "token validation capability invocation failed")

def evaluateTokenValidationPreHook (host : DemoRunnerHost) (s : Surroundings)
    (envelope : OperationEnvelope) (payloadBytes : List UInt8) (ctx : OperatorContext) :
    Eff Log (HookChainOutcome × OperationEnvelope) :=
  if Text.startsWith s!"cap.invoke:{capOauthTokenValidationV1}" envelope.opName then
    return (.Continue, envelope)
  else match (host.codec.fromSlice payloadBytes).bind extractTokenValidationRequest with
  | none => return (.Continue, envelope)
  | some validationRequest =>
    match host.resolveCapability capOauthTokenValidationV1 none (host.scopeOf ctx) with
    | none => return (.Continue, envelope)
    | some binding => do
      if ← Eff.lift (isBindingReady s.disk ctx.tenant ctx.team binding) then
        match host.packsByPath binding.packPath with
        | none => return (.Denied s!"token validation pack not found at {binding.packPath}", envelope)
        | some pack => do
          let outcome ← invokeProviderComponentOp .tokenValidation
            { domain := binding.domain, pack, providerId := binding.packId
              opId := binding.providerOp, payload := .validation validationRequest, ctx }
            s.tokenValidation
          match gateOfReply outcome with
          | .Allow claims =>
            return (.Continue, { envelope with ctx := { envelope.ctx with authClaims := claims } })
          | .Deny reason => return (.Denied reason, envelope)
      else
        return (.Denied s!"token validation capability is not installed (stable_id={binding.stableId})",
          envelope)

/-! ## Hook chains -/

def stageText : HookStage → String
  | .Pre => "pre"
  | .Post => "post"

/-- What a hook's reply says, where it says anything: a failed invocation, a reply without
an output and one that cannot be decoded are passed over. -/
def hookResponse (host : DemoRunnerHost) (outcome : FlowOutcome) : Option HookEvalResponse :=
  if outcome.success then
    outcome.output.bind fun output => (decodeHookResponse host.codec output).toOption
  else none

/-- The envelope after a hook's response. -/
def nextEnvelope (envelope : OperationEnvelope) (response : Option HookEvalResponse) : OperationEnvelope :=
  (response.bind HookEvalResponse.envelope).getD envelope

/-- The reason a response gives for denying the operation, where it does. -/
def denial (stage : HookStage) (response : Option HookEvalResponse) : Option String :=
  response.bind fun response =>
    if Text.eqIgnoreAsciiCase response.decision "deny" && stage == .Pre then
      some (response.reason.getD "hook denied operation")
    else none

/-- The hooks of a chain from the `i`th on. -/
def evaluateHooks (host : DemoRunnerHost) (s : Surroundings) (stage : HookStage) :
    Nat → List CapabilityBinding → OperationEnvelope → Eff Log (HookChainOutcome × OperationEnvelope)
  | _, [], envelope => return (.Continue, envelope)
  | i, binding :: rest, envelope =>
    match host.packsByPath binding.packPath with
    | none => evaluateHooks host s stage (i + 1) rest envelope
    | some pack =>
      match s.hook stage i with
      | .notEncoded message => Eff.fail s!"failed to encode hook request as cbor: {message}"
      | .answered reply => do
        let outcome ← invokeProviderComponentOp (.hook stage)
          { domain := binding.domain, pack, providerId := binding.packId, opId := binding.providerOp
            payload := .hook { stage := stageText stage, opName := envelope.opName, envelope }
            ctx := envelope.context }
          reply
        let response := host.hookResponse outcome
        match denial stage response with
        | some reason => return (.Denied reason, nextEnvelope envelope response)
        | none => evaluateHooks host s stage (i + 1) rest (nextEnvelope envelope response)

def evaluateHookChain (host : DemoRunnerHost) (s : Surroundings) (chain : List CapabilityBinding)
    (stage : HookStage) (envelope : OperationEnvelope) : Eff Log (HookChainOutcome × OperationEnvelope) := do
  record (.chain stage chain)
  evaluateHooks host s stage 0 chain envelope

end DemoRunnerHost

/-!
## Marking capabilities

`src/demo/runner_host.rs`. An offer is marked as ready or as failed for the tenant and team of
a context, with the record that goes into its install file.
-/

def markCapabilityReady (files : InstallFiles) (write : RecordWrite) (nowUnixSec : UInt64)
    (ctx : OperatorContext) (binding : CapabilityBinding) : InstallFiles × Except String String :=
  writeInstallRecord files write ctx.tenant ctx.team
    (.ready binding.capId binding.stableId binding.packId nowUnixSec)

def markCapabilityFailed (files : InstallFiles) (write : RecordWrite) (nowUnixSec : UInt64)
    (ctx : OperatorContext) (binding : CapabilityBinding) (failureKey : String) :
    InstallFiles × Except String String :=
  writeInstallRecord files write ctx.tenant ctx.team
    (.failed binding.capId binding.stableId binding.packId failureKey nowUnixSec)

inductive Mark
  | ready
  | failed (failureKey : String)
deriving DecidableEq, Repr

/-- One call that marks an offer, with the time and how its write ends. -/
structure MarkCall where
  ctx : OperatorContext
  binding : CapabilityBinding
  mark : Mark
  nowUnixSec : UInt64
  write : RecordWrite
deriving DecidableEq, Repr

def MarkCall.exec (call : MarkCall) (files : InstallFiles) : InstallFiles × Except String String :=
  match call.mark with
  | .ready => markCapabilityReady files call.write call.nowUnixSec call.ctx call.binding
  | .failed failureKey =>
    markCapabilityFailed files call.write call.nowUnixSec call.ctx call.binding failureKey

end RunnerHost
