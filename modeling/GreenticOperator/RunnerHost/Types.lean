import GreenticOperator.Lib.Json

/-!
# What the runner host hands around

`src/demo/runner_host.rs`. The context an operation runs under and the outcome of a flow.
-/

namespace RunnerHost

structure OperatorContext where
  tenant : String
  team : Option String
  correlationId : Option String
deriving DecidableEq, Repr

inductive RunnerExecutionMode
  | Exec
  | Integration
deriving DecidableEq, Repr

structure FlowOutcome where
  success : Bool
  output : Option Json.Value
  raw : Option String
  error : Option String
  mode : RunnerExecutionMode
deriving Repr

end RunnerHost
