import GreenticOperator.Deployments.TrustBoundary

/-!
# Completing the drain of a revision

`src/deployments/api.rs`. A complete-drain request reads the environment and checks that the
revision is draining; the transition itself is a later call of the deployer library's
`archive`, which reads the environment again under the library's lock. Between the two any
other request may run, so a request is two atomic steps of the `System` that all requests
share.

The deployer library and the identifier crates are not part of the repository. What the
requests use of them is a `Library`; `Library.Documented` is what the comments of the source
say of `archive`.
-/

namespace Deployments

open Json HttpUtil

inductive RevisionLifecycle
  | Inactive
  | Staged
  | Warming
  | Ready
  | Draining
  | Failed
  | Archived
deriving DecidableEq

/-- The name of a lifecycle in an error text. -/
def RevisionLifecycle.debug : RevisionLifecycle → String
  | Inactive => "Inactive"
  | Staged => "Staged"
  | Warming => "Warming"
  | Ready => "Ready"
  | Draining => "Draining"
  | Failed => "Failed"
  | Archived => "Archived"

/-- A 128-bit identifier of a revision. -/
abbrev Ulid := BitVec 128

structure Revision where
  revisionId : Ulid
  lifecycle : RevisionLifecycle

structure Environment where
  revisions : List Revision

inductive OpErrorKind
  | NotFound
  | Conflict
  | NotDrained
  | Unauthorized
  | PermissionMissing
  | InvalidArgument
  | Spec
  | AnswersParse
  | NotYetImplemented
  | CapabilityMissing
  | Store
  | Io
  | SchemaGeneration
  | Audit
  | RevenuePolicy
  | TrustRoot
  | OperatorKey
  | Fetch
deriving DecidableEq

structure OpError where
  kind : OpErrorKind
  message : String
deriving DecidableEq

structure RevisionTransitionPayload where
  environmentId : String
  revisionId : String
deriving DecidableEq

/-- The environments by their ids, each as a load of it ends. -/
abbrev EnvironmentStore := String → Except OpError Environment

/-- What requests use of code outside the repository. `Request` is every other request that
changes the environments: the library's other operations, from any client. -/
structure Library (Request : Type) where
  /-- The environment id that a text stands for. -/
  envId : String → Except String String
  /-- The identifier that a text stands for. -/
  ulid : String → Except String Ulid
  /-- The transition of `revisions::archive`, with the outcome it reports. -/
  archive : EnvironmentStore → RevisionTransitionPayload → Except OpError (EnvironmentStore × Value)
  transact : Request → EnvironmentStore → Except OpError (EnvironmentStore × Value)
  /-- The kind of an error as a response names it. -/
  kindText : OpErrorKind → String
  display : OpError → String

variable {Request : Type}

def OpErrorKind.status : OpErrorKind → Nat
  | NotFound => 404
  | Conflict | NotDrained => 409
  | Unauthorized | PermissionMissing => 403
  | InvalidArgument | Spec | AnswersParse => 400
  | NotYetImplemented | CapabilityMissing => 501
  | Store | Io | SchemaGeneration | Audit | RevenuePolicy | TrustRoot | OperatorKey | Fetch => 500

def opErrorResponse (lib : Library Request) (err : OpError) : HttpResponse :=
  jsonResponse err.kind.status (.ofFields [("error", .ofFields
    [("kind", .string (lib.kindText err.kind)), ("message", .string (lib.display err))])])

def precheckDrainCompletable (lib : Library Request) (env : Environment) (revisionId : String) :
    Except OpError Unit :=
  match lib.ulid revisionId with
  | .error e => .error ⟨.InvalidArgument, "revision_id: " ++ e⟩
  | .ok target =>
    match env.revisions.find? (·.revisionId == target) with
    | none => .error ⟨.NotFound, "revision `" ++ revisionId ++ "` not found in env"⟩
    | some rev =>
      if rev.lifecycle ≠ .Draining then
        .error ⟨.Conflict, "/complete-drain requires revision in `Draining`; revision `" ++ revisionId
          ++ "` is `" ++ rev.lifecycle.debug
          ++ "`. Initiate drain (`Ready → Draining`) before completing it."⟩
      else .ok ()

/-- The first half of `complete_drain`: the check of an environment loaded without its lock. -/
def preflight (lib : Library Request) (store : EnvironmentStore)
    (payload : RevisionTransitionPayload) : Except HttpResponse Unit :=
  match lib.envId payload.environmentId with
  | .error e => .error (opErrorResponse lib ⟨.InvalidArgument, "environment_id: " ++ e⟩)
  | .ok envId =>
    match store envId with
    | .error e => .error (opErrorResponse lib e)
    | .ok env => (precheckDrainCompletable lib env payload.revisionId).mapError (opErrorResponse lib)

/-- An operation of the library with the response to it. One that fails changes nothing. -/
def runBlocking (lib : Library Request)
    (op : EnvironmentStore → Except OpError (EnvironmentStore × Value)) (store : EnvironmentStore) :
    EnvironmentStore × Except HttpResponse HttpResponse :=
  match op store with
  | .ok (store', outcome) => (store', .ok (jsonResponse 200 outcome))
  | .error err => (store, .error (opErrorResponse lib err))

/-- The second half of `complete_drain`. -/
def finish (lib : Library Request) (payload : RevisionTransitionPayload) (store : EnvironmentStore) :
    EnvironmentStore × Except HttpResponse HttpResponse :=
  runBlocking lib (fun store => lib.archive store payload) store

/-! ## All requests together -/

/-- The environments, and the complete-drain requests between their two halves. -/
structure System where
  store : EnvironmentStore
  checked : Nat → Option RevisionTransitionPayload

/-- The atomic steps of requests. A complete-drain request has a number of its own. -/
inductive Step (Request : Type)
  | preflight (id : Nat) (payload : RevisionTransitionPayload)
  | finish (id : Nat)
  | other (request : Request)

def exec (lib : Library Request) : Step Request → System → System
  | .preflight id payload, s =>
    match s.checked id, preflight lib s.store payload with
    | none, .ok () => { s with checked := fun i => if i = id then some payload else s.checked i }
    | _, _ => s
  | .finish id, s =>
    match s.checked id with
    | some payload =>
      ⟨(finish lib payload s.store).1, fun i => if i = id then none else s.checked i⟩
    | none => s
  | .other request, s => { s with store := (runBlocking lib (lib.transact request) s.store).1 }

/-- A system that no complete-drain request has entered. -/
def idle (store : EnvironmentStore) : System := ⟨store, fun _ => none⟩

end Deployments
