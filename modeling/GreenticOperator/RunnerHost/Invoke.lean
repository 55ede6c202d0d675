import GreenticOperator.RunnerHost.Host

/-!
# The runner host: capability calls and provider operations

`src/demo/runner_host.rs`. Both entry points put an operation through the token gate and its
pre-hooks, pass it on to its target and tell its post-hooks of the outcome.
-/

namespace RunnerHost

open Json Domains Capabilities

/-! ## Outcomes of calls that do not get through -/

def missingCapabilityOutcome (capId opName : String) (componentId : Option String) : FlowOutcome where
  success := false
  output := some (Value.ofFields [("code", .string "missing_capability"),
    ("error", Value.ofFields [("type", .string "MissingCapability"), ("cap_id", .string capId),
      ("op_name", .string opName), ("component_id", Value.ofOption componentId)])])
  raw := none
  error :=
    let component := componentId.getD "<unknown>"
    some s!"MissingCapability(cap_id={capId}, op_name={opName}, component_id={component})"
  mode := .Exec

def capabilityNotInstalledOutcome (capId opName stableId : String) : FlowOutcome where
  success := false
  output := some (Value.ofFields [("code", .string "capability_not_installed"),
    ("error", Value.ofFields [("type", .string "CapabilityNotInstalled"), ("cap_id", .string capId),
      ("op_name", .string opName), ("stable_id", .string stableId)])])
  raw := none
  error := some s!"CapabilityNotInstalled(cap_id={capId}, op_name={opName}, stable_id={stableId})"
  mode := .Exec

def capabilityRouteErrorOutcome (capId opName reason : String) : FlowOutcome where
  success := false
  output := some (Value.ofFields [("code", .string "capability_route_error"),
    ("error", Value.ofFields [("type", .string "CapabilityRouteError"), ("cap_id", .string capId),
      ("op_name", .string opName), ("reason", .string reason)])])
  raw := none
  error := some reason
  mode := .Exec

/-- The operations an OAuth broker supports, as its error texts list them. -/
def supportedBrokerOps : String :=
  s!"(supported: {oauthOpInitiateAuth}, {oauthOpAwaitResult}, {oauthOpGetAccessToken}, {oauthOpRequestResourceToken})"

def deniedText (reason : String) : String := s!"operation denied by pre-hook: {reason}"

/-- The envelope of an operation that ended with an outcome. -/
def OperationEnvelope.finished (envelope : OperationEnvelope) (codec : Codec) (outcome : FlowOutcome) :
    OperationEnvelope :=
  { envelope with
    status := if outcome.success then .Ok else .Err
    resultCbor := outcome.output.bind codec.toCanonicalCbor }

namespace DemoRunnerHost

/-! ## Capability calls -/

/-- Where a capability call goes. -/
structure Route where
  binding : CapabilityBinding
  pack : ProviderPack
  targetOp : String

/-- What `invoke_capability` does before the operation pipeline: the outcome of a call that
cannot be routed, or the call's route. -/
def routeCapability (host : DemoRunnerHost) (s : Surroundings) (capId op : String) (ctx : OperatorContext) :
    Except String (FlowOutcome ⊕ Route) :=
  let requestedOp := Text.trim op
  if capId == capOauthBrokerV1 && requestedOp.isEmpty then
    .ok (.inl (capabilityRouteErrorOutcome capId "<missing-op>"
      s!"oauth broker capability requires an explicit op {supportedBrokerOps}"))
  else if capId == capOauthBrokerV1 && !isOauthBrokerOperation requestedOp then
    .ok (.inl (capabilityRouteErrorOutcome capId requestedOp
      s!"unsupported oauth broker op `{requestedOp}` {supportedBrokerOps}"))
  else
    let scope := host.scopeOf ctx
    let binding :=
      if requestedOp.isEmpty then host.resolveCapability capId none scope
      else host.capabilityRegistry.resolveForOp capId none scope (some requestedOp)
    match binding with
    | none => .ok (.inl (missingCapabilityOutcome capId op none))
    | some binding =>
      match isBindingReady s.disk ctx.tenant ctx.team binding with
      | .error e => .error e
      | .ok false => .ok (.inl (capabilityNotInstalledOutcome capId op binding.stableId))
      | .ok true =>
        match host.packsByPath binding.packPath with
        | none => .ok (.inl (capabilityRouteErrorOutcome capId op
            s!"resolved pack not found at {binding.packPath}"))
        | some pack =>
          let targetOp :=
            if capId == capOauthBrokerV1 || requestedOp.isEmpty then binding.providerOp else requestedOp
          .ok (.inr { binding, pack, targetOp })

/-- The rest of `invoke_capability`, once the pre-hooks let the call through. -/
def passToCapability (host : DemoRunnerHost) (s : Surroundings) (route : Route) (payloadBytes : List UInt8)
    (ctx : OperatorContext) (envelope : OperationEnvelope) : Eff Log FlowOutcome := do
  record .target
  let outcome ← invokeProviderComponentOp .target
    { domain := route.binding.domain, pack := route.pack, providerId := route.binding.packId
      opId := route.targetOp, payload := .bytes payloadBytes, ctx }
    s.target
  let envelope := envelope.finished host.codec outcome
  let postChain := host.resolveHookChain .Post envelope.opName
  let _ ← host.evaluateHookChain s postChain .Post envelope
  return outcome

def invokeCapability (host : DemoRunnerHost) (s : Surroundings) (capId op : String)
    (payloadBytes : List UInt8) (ctx : OperatorContext) : Eff Log FlowOutcome := do
  match ← Eff.lift (host.routeCapability s capId op ctx) with
  | .inl outcome => return outcome
  | .inr route => do
    let envelope := OperationEnvelope.new s.opId s!"cap.invoke:{capId}" payloadBytes ctx
    let (tokenValidation, envelope) ← host.evaluateTokenValidationPreHook s envelope payloadBytes ctx
    match tokenValidation with
    | .Denied reason => return capabilityRouteErrorOutcome capId route.targetOp (deniedText reason)
    | .Continue => do
      let preChain := host.resolveHookChain .Pre envelope.opName
      let (preHook, envelope) ← host.evaluateHookChain s preChain .Pre envelope
      match preHook with
      | .Denied reason => return capabilityRouteErrorOutcome capId route.targetOp (deniedText reason)
      | .Continue => host.passToCapability s route payloadBytes ctx envelope

/-! ## Provider operations -/

/-- What the surroundings do during a provider operation, with the capability call that
resolves a card. -/
structure ProviderSurroundings extends Surroundings where
  card : Surroundings

/-- A computation whose events are those of the capability call for a card. -/
def forCard {α : Type} (x : Eff Log α) : Eff Log α := fun log =>
  ((x.run []).1, log ++ (x.run []).2.map Event.card)

/-- The resolved card in the outcome of the capability call for it. -/
def resolvedCard (outcome : FlowOutcome) : Except String Value :=
  if outcome.success then
    match outcome.output with
    | none => .error s!"card capability {capOauthCardV1}:oauth.card.resolve returned no structured output"
    | some resolved => .ok resolved
  else
    let reason := (outcome.error.or outcome.raw).getD "capability invocation failed"
    .error s!"card capability {capOauthCardV1}:oauth.card.resolve failed: {reason}"

/-- The payload of a flow, with the card in it resolved. -/
def renderIfNeeded (host : DemoRunnerHost) (s : Surroundings) (providerType : String)
    (payloadBytes : List UInt8) (ctx : OperatorContext) : Eff Log (List UInt8) := do
  match ← Eff.lift (host.cardRenderer.request providerType payloadBytes) with
  | none => return payloadBytes
  | some input => do
    let outcome ← forCard (host.invokeCapability s capOauthCardV1 "oauth.card.resolve" input ctx)
    Eff.lift ((resolvedCard outcome).bind (host.cardRenderer.rewrite providerType payloadBytes))

def invokeProviderOpInner (host : DemoRunnerHost) (s : ProviderSurroundings) (domain : Domain)
    (providerType opId : String) (payloadBytes : List UInt8) (ctx : OperatorContext) : Eff Log FlowOutcome :=
  match host.catalog domain providerType with
  | none => Eff.fail s!"provider {providerType} not found for domain {domainName domain}"
  | some pack =>
    if pack.entryFlows.any (· == opId) then do
      let rendered ← host.renderIfNeeded s.card providerType payloadBytes ctx
      let payload := (host.codec.fromSlice rendered).getD
        (Value.ofFields [("payload", .string (host.codec.base64Encode rendered))])
      record (.flow domain pack opId payload ctx s.target)
      Eff.lift s.target
    else
      invokeProviderComponentOp .target
        { domain, pack, providerId := providerType, opId, payload := .bytes payloadBytes, ctx } s.target

/-- The rest of `invoke_provider_op`, once the pre-hooks let the operation through. -/
def passToProvider (host : DemoRunnerHost) (s : ProviderSurroundings) (domain : Domain)
    (providerType opId : String) (payloadBytes : List UInt8) (ctx : OperatorContext)
    (envelope : OperationEnvelope) : Eff Log FlowOutcome := do
  record .target
  let outcome ← host.invokeProviderOpInner s domain providerType opId payloadBytes ctx
  let envelope := envelope.finished host.codec outcome
  let postChain := host.resolveHookChain .Post opId
  let _ ← host.evaluateHookChain s.toSurroundings postChain .Post envelope
  return outcome

/-- The outcome of an operation that a pre-hook denied, with its envelope. -/
def deniedOutcome (envelope : OperationEnvelope) (reason : String) : FlowOutcome where
  success := false
  output := some { envelope with status := .Denied }.toValue
  raw := none
  error := some (deniedText reason)
  mode := .Exec

def invokeProviderOp (host : DemoRunnerHost) (s : ProviderSurroundings) (domain : Domain)
    (providerType opId : String) (payloadBytes : List UInt8) (ctx : OperatorContext) : Eff Log FlowOutcome := do
  let envelope := OperationEnvelope.new s.opId opId payloadBytes ctx
  let (tokenValidation, envelope) ←
    host.evaluateTokenValidationPreHook s.toSurroundings envelope payloadBytes ctx
  match tokenValidation with
  | .Denied reason =>
    return { success := false, output := none, raw := none, error := some (deniedText reason), mode := .Exec }
  | .Continue => do
    let preChain := host.resolveHookChain .Pre opId
    let (preHook, envelope) ← host.evaluateHookChain s.toSurroundings preChain .Pre envelope
    match preHook with
    | .Denied reason => return deniedOutcome envelope reason
    | .Continue => host.passToProvider s domain providerType opId payloadBytes ctx envelope

end DemoRunnerHost

end RunnerHost
