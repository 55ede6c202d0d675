import GreenticOperator.Lib.Json
import GreenticOperator.Lib.Words
import GreenticOperator.RunnerHost.Types

/-!
# Retries and dead letters

`src/messaging_universal/retry.rs` and `dlq.rs`, with the errors of a provider that
`src/messaging_universal/egress.rs` reads them off. How long to wait before the next attempt,
whether there is one, and what is kept of a message that is given up.
-/

namespace MessagingUniversal

open Json RunnerHost

structure RetryPolicy where
  maxAttempts : Nat
  baseDelayMs : Nat := 500
  maxDelayMs : Nat := 30000
  jitterMs : Nat := 250

def u32Max : Nat := 2 ^ 32 - 1

def u64Max : Nat := 2 ^ 64 - 1

/-- The policy of a batch: one attempt and the retries, as far as the counter goes. -/
def RetryPolicy.ofRetries (retries : UInt32) : RetryPolicy where
  maxAttempts := max (min (retries.toNat + 1) u32Max) 1

def RetryPolicy.backoffMs (policy : RetryPolicy) (attempt : Nat) : Nat :=
  let shift := min (attempt - 1) 63
  min (min (policy.baseDelayMs * 2 ^ shift) u64Max) policy.maxDelayMs

def RetryPolicy.delayWithJitter (policy : RetryPolicy) (attempt jitterMs : Nat) : Nat :=
  min (policy.backoffMs attempt + min jitterMs policy.jitterMs) u64Max

/-! ## The errors of a provider -/

structure NodeErrorDetails where
  code : String
  message : String
  retryable : Bool
  backoffMs : Option UInt64
  details : Option Value

def NodeErrorDetails.toJson (err : NodeErrorDetails) : Value :=
  .ofFields [("code", .string err.code), ("message", .string err.message),
    ("retryable", .bool err.retryable),
    ("backoff_ms", (err.backoffMs.map fun ms => .number (.posInt ms)).getD .null),
    ("details", err.details.getD .null)]

/-- The error object that a text holds from its first brace on. `readObject` gives the fields of
the text of a JSON object, in their order. -/
def parseJsonNodeError (readObject : String → Option (List (String × Value))) (text : String) :
    Option NodeErrorDetails :=
  match (Text.trim text).toList.dropWhile (· != '{') with
  | [] => none
  | candidate => do
    let fields ← readObject (String.ofList candidate)
    let code ← Value.optionalField Value.asStr "code" fields
    let message ← Value.optionalField Value.asStr "message" fields
    let retryable ← Value.optionalField Value.asBool "retryable" fields
    let backoffMs ← Value.optionalField Value.asU64 "backoff-ms" fields
    let details ← Value.optionalField some "details" fields
    return { code := code.getD "node-error", message := message.getD text,
             retryable := retryable.getD false, backoffMs, details }

def parseNodeError (readObject : String → Option (List (String × Value))) (outcome : FlowOutcome) :
    NodeErrorDetails :=
  let raw := outcome.error.or outcome.raw
  match raw.bind (parseJsonNodeError readObject) with
  | some parsed => parsed
  | none =>
    { code := "node-error", message := raw.getD "unknown node error", retryable := false,
      backoffMs := none, details := none }

/-! ## Dead letters -/

def buildDlqEntry (ts jobId provider : String) (ctx : OperatorContext) (attempt maxAttempts : Nat)
    (nodeError messageSummary : Value) : Value :=
  .ofFields [("ts", .string ts), ("job_id", .string jobId), ("provider", .string provider),
    ("tenant", .string ctx.tenant), ("team", .ofOption ctx.team), ("session_id", .null),
    ("correlation_id", .ofOption ctx.correlationId), ("attempt", .ofNat attempt),
    ("max_attempts", .ofNat maxAttempts), ("node_error", nodeError),
    ("message_summary", messageSummary)]

/-! ## The policy in machine words

With the widths it is declared with: the shift, the product and the sum as the code computes them. The send
loop takes the numbers these words stand for. -/

open Words

structure RetryPolicyWords where
  maxAttempts : UInt32
  baseDelayMs : UInt64 := 500
  maxDelayMs : UInt64 := 30000
  jitterMs : UInt64 := 250

namespace RetryPolicyWords

/-- The numbers of a policy. -/
def value (policy : RetryPolicyWords) : RetryPolicy where
  maxAttempts := policy.maxAttempts.toNat
  baseDelayMs := policy.baseDelayMs.toNat
  maxDelayMs := policy.maxDelayMs.toNat
  jitterMs := policy.jitterMs.toNat

/-- There is no value where a step of the computation overflows. -/
def backoffMs (policy : RetryPolicyWords) (attempt : UInt32) : Option UInt64 := do
  let shift := min (saturatingSub attempt 1) 63
  let multiplier ← checkedShl 1 shift
  let base := saturatingMul policy.baseDelayMs multiplier
  return min base policy.maxDelayMs

def delayWithJitter (policy : RetryPolicyWords) (attempt : UInt32) (jitterMs : UInt64) :
    Option UInt64 := do
  let backoff ← policy.backoffMs attempt
  let jitter := min jitterMs policy.jitterMs
  return saturatingAdd backoff jitter

end RetryPolicyWords

end MessagingUniversal
