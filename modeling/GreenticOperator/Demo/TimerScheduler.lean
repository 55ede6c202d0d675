import GreenticOperator.Demo.Card

/-!
# The scheduler of timers

`src/demo/timer_scheduler.rs`. The manifests of event packs name operations that are to be run at
intervals. A thread runs each when it is due and then says when it is due next; between its passes it
waits for a message that it is to stop.
-/

namespace Demo.TimerScheduler

open Json Json.Value
open Card (getStr getArray)

structure TimerHandlerConfig where
  provider : String
  opId : String
  handlerId : String
  intervalSeconds : UInt64
deriving DecidableEq, Repr

/-! ## Handlers of manifests -/

/-- An unsigned number as Rust reads it: digits, with a plus sign in front or not. -/
def parseU64 (text : String) : Option UInt64 :=
  let digits := match text.toList with
    | '+' :: rest => rest
    | all => all
  if digits ≠ [] ∧ digits.all Char.isDigit ∧ Nat.ofDigitChars 10 digits 0 < 2 ^ 64 then
    some (UInt64.ofNat (Nat.ofDigitChars 10 digits 0))
  else none

/-- The handler and the interval in the name of an operation, where it is one for a timer. -/
def parseTimerOp (op : String) (defaultIntervalSeconds : UInt64) : Option (String × UInt64) :=
  if Text.eqIgnoreAsciiCase op "timer_tick" || Text.eqIgnoreAsciiCase op "ingest_timer" then
    some ("default", defaultIntervalSeconds)
  else
    (Text.stripPrefix "timer_" op).map fun tail =>
      if tail = "" then ("default", defaultIntervalSeconds)
      else
        match parseU64 (Text.lastPart '_' tail) with
        | some interval => (if '_' ∈ tail.toList then Text.beforeLast '_' tail else "default", max interval 1)
        | none => (tail, defaultIntervalSeconds)

def parseTimerHandlerEntry (value : Value) (defaultProvider : String) (defaultIntervalSeconds : UInt64) :
    Option TimerHandlerConfig :=
  match value with
  | .string opId => some ⟨defaultProvider, opId, "default", defaultIntervalSeconds⟩
  | value =>
    ((getStr value "op_id").or (getStr value "op")).map fun opId => {
      provider := ((getStr value "provider_type").or (getStr value "provider")).getD defaultProvider
      opId
      handlerId := ((getStr value "handler_id").or (getStr value "handler")).getD "default"
      intervalSeconds := max ((((value.get "interval_seconds").bind asU64).or
        ((value.get "interval").bind asU64)).getD defaultIntervalSeconds) 1 }

def providerExtensionInlineJson (manifest : Value) : Except String Value :=
  match ((manifest.get "extensions").bind (·.get "greentic.provider-extension.v1")).bind (·.get "inline") with
  | some inline => .ok inline
  | none => .error "provider extension inline payload missing"

/-- The handlers that are named under one of the two keys for them. -/
def entriesOf (value : Value) (defaultProvider : String) (defaultIntervalSeconds : UInt64) : List TimerHandlerConfig :=
  ["timer_handlers", "timers"].flatMap fun key =>
    ((getArray value key).getD []).filterMap (parseTimerHandlerEntry · defaultProvider defaultIntervalSeconds)

def parseExplicitTimerHandlers (manifest : Value) (defaultProvider : String) (defaultIntervalSeconds : UInt64) :
    Except String (List TimerHandlerConfig) := do
  let inline ← providerExtensionInlineJson manifest
  let handlers := entriesOf inline defaultProvider defaultIntervalSeconds
  if handlers ≠ [] then return handlers
  else return ((getArray inline "providers").getD []).flatMap fun provider =>
    (entriesOf provider defaultProvider defaultIntervalSeconds).map fun handler =>
      if handler.provider = defaultProvider then
        { handler with provider := (getStr provider "provider_type").getD defaultProvider }
      else handler

def parseProviderOps (manifest : Value) (providerId : String) : Except String (List String) := do
  let inline ← providerExtensionInlineJson manifest
  return ((getArray inline "providers").getD []).flatMap fun provider =>
    if (getStr provider "provider_type").getD "" = providerId then
      ((getArray provider "ops").getD []).filterMap asStr
    else []

/-- A provider that was found, with the manifest of its pack as it is read. -/
structure DetectedProvider where
  providerId : String
  domain : String
  manifest : Except String Value

def handlersOf (defaultIntervalSeconds : UInt64) (provider : DetectedProvider) :
    Except String (List TimerHandlerConfig) := do
  let manifest ← provider.manifest
  let explicit ← parseExplicitTimerHandlers manifest provider.providerId (max defaultIntervalSeconds 1)
  if explicit ≠ [] then return explicit
  else
    let ops ← parseProviderOps manifest provider.providerId
    return ops.filterMap fun op =>
      (parseTimerOp op (max defaultIntervalSeconds 1)).map fun (handlerId, intervalSeconds) =>
        ⟨provider.providerId, op, handlerId, intervalSeconds⟩

def handlersIfEvents (defaultIntervalSeconds : UInt64) (provider : DetectedProvider) :
    Except String (List TimerHandlerConfig) :=
  if provider.domain = "events" then handlersOf defaultIntervalSeconds provider else .ok []

def discoverTimerHandlers (defaultIntervalSeconds : UInt64) :
    List DetectedProvider → Except String (List TimerHandlerConfig)
  | [] => .ok []
  | provider :: rest => do
    let handlers ← handlersIfEvents defaultIntervalSeconds provider
    let others ← discoverTimerHandlers defaultIntervalSeconds rest
    return handlers ++ others

/-! ## The loop -/

structure ScheduledTimer where
  config : TimerHandlerConfig
  nextTick : Nat
  lastRun : Option String
deriving DecidableEq, Repr

/-- An instant some seconds later, in nanoseconds, where the clock has one. -/
def addSeconds (limit now : Nat) (seconds : UInt64) : Option Nat :=
  if now + 10 ^ 9 * seconds.toNat ≤ limit then some (now + 10 ^ 9 * seconds.toNat) else none

/-- Where the thread is. In a pass `now` is the instant that the timers are compared with. -/
inductive Point
  | building (handlers : List TimerHandlerConfig) (built : List ScheduledTimer)
  | top (timers : List ScheduledTimer)
  | passing (now : Nat) (looked rest : List ScheduledTimer)
  | running (now : Nat) (looked : List ScheduledTimer) (timer : ScheduledTimer) (rest : List ScheduledTimer)
  | waiting (wake : Nat) (timers : List ScheduledTimer)
  | ended
  | panicked
deriving DecidableEq, Repr

/-- The thread, the clock, and the channel to it: whether a message was sent, and whether the handle is gone. -/
structure State where
  time : Nat
  sent : Bool
  closed : Bool
  point : Point
deriving DecidableEq, Repr

inductive Event
  | built
  | started
  | looked
  | skipped
  | ran (due time : Nat)
  | advanced (old new : Nat)
  | slept
  | woke
  | finished
  | overflowed
  | elapsed
  | stopped
  | dropped
deriving DecidableEq, Repr

/-- What the thread does itself. -/
def Event.isLoop : Event → Bool
  | elapsed | stopped | dropped => false
  | _ => true

/-- The time to the next timer, at least fifty milliseconds. -/
def sleepFor (time : Nat) (timers : List ScheduledTimer) : Nat :=
  max (((timers.map fun timer => timer.nextTick - time).min?).getD (200 * 10 ^ 6)) (50 * 10 ^ 6)

def start (handlers : List TimerHandlerConfig) (time : Nat) : State :=
  ⟨time, false, false, if handlers = [] then .ended else .building handlers []⟩

/-- The next step of the thread; a run of a handler that succeeds says when it was. -/
def loopStep (limit : Nat) (outcome : Option String) (s : State) : Option (Event × State) :=
  match s.point with
  | .building (handler :: rest) built =>
    match addSeconds limit s.time (max handler.intervalSeconds 1) with
    | some due => some (.built, { s with point := .building rest (built ++ [⟨handler, due, none⟩]) })
    | none => some (.overflowed, { s with point := .panicked })
  | .building [] built => some (.started, { s with point := .top built })
  | .top timers => some (.looked, { s with point := .passing s.time [] timers })
  | .passing now looked (timer :: rest) =>
    if now < timer.nextTick then some (.skipped, { s with point := .passing now (looked ++ [timer]) rest })
    else some (.ran timer.nextTick s.time, { s with point := .running now looked timer rest })
  | .running now looked timer rest =>
    match addSeconds limit s.time timer.config.intervalSeconds with
    | some due =>
      some (.advanced timer.nextTick due,
        { s with point := .passing now (looked ++ [⟨timer.config, due, outcome.or timer.lastRun⟩]) rest })
    | none => some (.overflowed, { s with point := .panicked })
  | .passing _ looked [] => some (.slept, { s with point := .waiting (s.time + sleepFor s.time looked) looked })
  | .waiting wake timers =>
    -- Only a message ends the loop: that the other end is gone is taken for the time being over.
    if s.sent then some (.finished, { s with point := .ended })
    else if s.closed ∨ wake ≤ s.time then some (.woke, { s with point := .top timers })
    else none
  | .ended => none
  | .panicked => none

/-- Steps of the thread and of what is around it, in any order. -/
inductive Step (limit : Nat) : State → Event → State → Prop
  | loop {s s' : State} {event : Event} (outcome : Option String) (h : loopStep limit outcome s = some (event, s')) :
      Step limit s event s'
  | elapse (s : State) {time : Nat} (h : s.time ≤ time) : Step limit s .elapsed { s with time }
  | stop (s : State) (h : s.closed = false) : Step limit s .stopped { s with sent := true, closed := true }
  | drop (s : State) (h : s.closed = false) : Step limit s .dropped { s with closed := true }

/-- A run whose steps all meet a condition. -/
inductive Runs (limit : Nat) (Ok : State → Event → Prop) : State → List Event → State → Prop
  | nil (s : State) : Runs limit Ok s [] s
  | cons {s s' s'' : State} {event : Event} {events : List Event} (hstep : Step limit s event s') (hok : Ok s event)
      (hrest : Runs limit Ok s' events s'') : Runs limit Ok s (event :: events) s''

end Demo.TimerScheduler
