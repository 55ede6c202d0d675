import GreenticOperator.RunnerHost.Invoke

/-!
# Capability calls

`src/cli.rs`, `src/capability_runtime.rs`. A call finds a callable in the catalog of the offers in
scope, checks its input against the schema the callable names, invokes the capability and checks
the output.
-/

namespace Cli

open Domains Capabilities RunnerHost Json

inductive CapabilityAdapterKind
  | DirectComponent
  | HttpCompatibility
deriving DecidableEq, Repr

def adapterKind (raw : Option String) : CapabilityAdapterKind :=
  if raw = some "http_compatibility" then .HttpCompatibility else .DirectComponent

structure ResolvedCallableRecord where
  capabilityId : String
  operationId : Option String
  stableId : String
  packId : String
  domain : String
  packPath : String
  providerComponentRef : String
  providerOp : String
  inputSchemaRef : Option String
  outputSchemaRef : Option String
  version : String
  requiresSetup : Bool
  setupQaRef : Option String
  adapterKind : CapabilityAdapterKind
  scope : ResolveScope
deriving DecidableEq, Repr

def resolvedCallable (ctx : OperatorContext) (scope : ResolveScope) (offer : CapabilityOfferRecord) :
    ResolvedCallableRecord where
  capabilityId := offer.capId
  operationId := offer.operationId
  stableId := offer.stableId
  packId := offer.packId
  domain := domainName offer.domain
  packPath := offer.packPath
  providerComponentRef := offer.providerComponentRef
  providerOp := offer.providerOp
  inputSchemaRef := offer.inputSchemaRef
  outputSchemaRef := offer.outputSchemaRef
  version := offer.version
  requiresSetup := offer.requiresSetup
  setupQaRef := offer.setupQaRef
  adapterKind := adapterKind offer.adapterKind
  scope := ⟨scope.env, some ctx.tenant, ctx.team⟩

/-- The callables of `build_catalog_artifacts`. -/
def buildCallables (offers : List CapabilityOfferRecord) (ctx : OperatorContext) (scope : ResolveScope) :
    List ResolvedCallableRecord :=
  offers.map (resolvedCallable ctx scope)

/-- The callable of an operation: by operation id, otherwise by the op of the provider. -/
def findCallable (callables : List ResolvedCallableRecord) (capId operation : String) :
    Option ResolvedCallableRecord :=
  (callables.find? fun item => item.capabilityId == capId && item.operationId == some operation).or
    (callables.find? fun item => item.capabilityId == capId && item.providerOp == operation)

/-- The callables of a host for a context. -/
def callablesOf (host : DemoRunnerHost) (ctx : OperatorContext) : List ResolvedCallableRecord :=
  let scope := host.scopeOf ctx
  buildCallables (host.capabilityRegistry.offersInScope scope) ctx scope

/-- The arguments of a call, with its input as it is parsed and put into bytes. -/
structure DemoCapabilityCallArgs where
  capId : String
  operation : String
  ctx : OperatorContext
  input : Except String (Value × List UInt8)

/-- The op a call passes on. -/
def requestedOp (callable : ResolvedCallableRecord) (operation : String) : String :=
  callable.operationId.getD operation

/-- The check of a value against a schema in a pack, where a schema is named. -/
def validateAgainst (validatePackSchema : String → String → Value → Except String Unit) (packPath : String)
    (schemaRef : Option String) (value : Value) : Except String Unit :=
  match schemaRef with
  | none => .ok ()
  | some schemaRef => validatePackSchema packPath schemaRef value

/-- `DemoCapabilityCallArgs::run`, from the catalog on. -/
def DemoCapabilityCallArgs.run (host : DemoRunnerHost) (s : Surroundings)
    (validatePackSchema : String → String → Value → Except String Unit) (args : DemoCapabilityCallArgs) :
    Eff Log FlowOutcome :=
  match findCallable (callablesOf host args.ctx) args.capId args.operation with
  | none => Eff.fail s!"capability {args.capId} operation {args.operation} is not resolved in current scope"
  | some callable => do
    let (input, payloadBytes) ← Eff.lift args.input
    Eff.lift (validateAgainst validatePackSchema callable.packPath callable.inputSchemaRef input)
    let outcome ← host.invokeCapability s callable.capabilityId (requestedOp callable args.operation)
      payloadBytes args.ctx
    Eff.lift (validateAgainst validatePackSchema callable.packPath callable.outputSchemaRef
      (outcome.output.getD .null))
    if outcome.success then return outcome
    else Eff.fail s!"capability call failed cap_id={callable.capabilityId} operation={args.operation}"

end Cli
