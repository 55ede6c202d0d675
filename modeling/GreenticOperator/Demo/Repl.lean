import GreenticOperator.QaSetup

/-!
# The demo as a dialogue

`src/demo/repl.rs`, `src/demo/runner.rs`, `src/demo/history.rs`, `src/demo/types.rs`. A flow runs until it
is blocked. Then commands are read, of which a click lets it go on. What it showed when it was blocked is
kept, and can be gone back to. A setup asks the questions of a form in the same way, card after card.
-/

namespace Demo.Repl

open Json Json.Value Prompt
open Card (CardView detectAdaptiveCardView)
open Commands
open QaSetup (FormSpec Terminal Collected collectLine mergeInputs renderQaCard validateAnswersAgainstFormSpec knownInput)

variable {ω κ : Type}

/-! ## The runner -/

/-- How the execution of a flow ends; one that waits leaves a snapshot from which it is resumed. -/
inductive FlowExecution (κ : Type)
  | waiting (reason : Option String) (snapshot : κ) (output : Value)
  | completed (output : Value)
  | failed (error : String)

/-- A flow with the stores it works on, and the forms that its pack has for a setup. -/
structure Flow (ω κ : Type) where
  execute : ω → (input : Value) → (snapshot : Option κ) → ω × FlowExecution κ
  terminal : Terminal
  packToFormSpec : (provider : Option String) → Option FormSpec

inductive UserEvent
  | CardSubmit (actionId : String) (fields : List (String × Value))
  | Raw (value : Value)

def UserEvent.intoValue : UserEvent → Value
  | .CardSubmit actionId fields => .object [("action_id", .string actionId), ("inputs", .object fields)]
  | .Raw value => value

structure DemoRunner (ω κ : Type) where
  initialInput : Value
  pendingInput : Option Value
  snapshot : Option κ
  stores : ω

inductive DemoBlockedOn (κ : Type)
  | Waiting (reason : Option String) (snapshot : κ) (output : Value)
  | Finished (output : Value)
  | Error (error : String)

def DemoRunner.submitUserEvent (runner : DemoRunner ω κ) (event : UserEvent) : DemoRunner ω κ :=
  { runner with pendingInput := some event.intoValue }

def DemoRunner.runUntilBlocked (flow : Flow ω κ) (runner : DemoRunner ω κ) : DemoRunner ω κ × DemoBlockedOn κ :=
  let input := runner.pendingInput.getD runner.initialInput
  match flow.execute runner.stores input runner.snapshot with
  | (stores, .waiting reason snapshot output) =>
    ({ runner with pendingInput := none, snapshot := some snapshot, stores }, .Waiting reason snapshot output)
  | (stores, .completed output) => ({ runner with pendingInput := none, snapshot := none, stores }, .Finished output)
  | (stores, .failed error) => ({ runner with pendingInput := none, stores }, .Error error)

/-! ## The history -/

structure Snapshot where
  output : Value
  card : Option CardView
  pendingInputs : List (String × String)

/-- The stack of what was shown, the latest first. -/
abbrev DemoHistory := List Snapshot

/-- The stack without its latest snapshot, and the one before it; the first of all stays. -/
def goBack : DemoHistory → Option (DemoHistory × Snapshot)
  | _ :: previous :: rest => some (previous :: rest, previous)
  | _ => none

/-! ## The dialogue -/

structure DemoRepl (ω κ : Type) where
  runner : DemoRunner ω κ
  pendingInputs : List (String × String)
  lastOutput : Option Value
  currentCard : Option CardView
  history : DemoHistory

/-- Which loop reads the next line: that of the commands, or that of the setup for a question. -/
inductive Place
  | command
  | setup (form : FormSpec) (answers : Value) (questionId : String)

structure Session (ω κ : Type) where
  repl : DemoRepl ω κ
  place : Place

inductive ReplEnd
  | quit
  | finished (output : Value)
  | failed (error : String)

/-- What became of a line. -/
inductive Event
  | shown
  | refused
  | set
  | clicked
  | restored
  | asked
  | setupDone
  | setupFailed
  | quit
deriving DecidableEq, Repr

def DemoRepl.new (runner : DemoRunner ω κ) : DemoRepl ω κ where
  runner := runner
  pendingInputs := []
  lastOutput := none
  currentCard := none
  history := []

/-- The flow runs until it is blocked, and what it shows then is kept. -/
def DemoRepl.untilBlocked (flow : Flow ω κ) (repl : DemoRepl ω κ) : Turn (Session ω κ) ReplEnd :=
  match repl.runner.runUntilBlocked flow with
  | (runner, .Waiting _ _ output) =>
    let currentCard := detectAdaptiveCardView output
    let snapshot : Snapshot := { output, card := currentCard, pendingInputs := repl.pendingInputs }
    .again {
      repl := { repl with runner, currentCard, lastOutput := some output, history := snapshot :: repl.history }
      place := .command }
  | (_, .Finished output) => .done (.finished output)
  | (_, .Error error) => .done (.failed error)

def knownAction (card : Option CardView) (actionId : String) : Bool :=
  match card with
  | some card => card.actions.any fun action => action.id == actionId
  | none => true

def DemoRepl.click (flow : Flow ω κ) (repl : DemoRepl ω κ) (actionId : String) : Turn (Session ω κ) ReplEnd :=
  let fields := repl.pendingInputs.map fun input => (input.1, Value.string input.2)
  DemoRepl.untilBlocked flow
    { repl with pendingInputs := [], runner := repl.runner.submitUserEvent (.CardSubmit actionId fields) }

/-- The next card of a setup, or the end of the setup where there is none. -/
def handleSetup (flow : Flow ω κ) (repl : DemoRepl ω κ) (form : FormSpec) (answers : Value) : Event × Session ω κ :=
  let (card, next) := renderQaCard flow.terminal form answers
  match next with
  | none =>
    match validateAnswersAgainstFormSpec form answers with
    | .ok () => (.setupDone, { repl, place := .command })
    | .error _ => (.setupFailed, { repl, place := .command })
  | some questionId =>
    let place := Place.setup form answers questionId
    match detectAdaptiveCardView card with
    | some view => (.asked, { repl := { repl with currentCard := some view, pendingInputs := [] }, place })
    | none => (.asked, { repl, place })

def commandLine (flow : Flow ω κ) (repl : DemoRepl ω κ) (line : String) : Event × Turn (Session ω κ) ReplEnd :=
  let stays : Turn (Session ω κ) ReplEnd := .again { repl, place := .command }
  let trimmed := Text.trim line
  if trimmed = "" then (.shown, stays)
  else
    match parseCommand trimmed with
    | .ok .Show => (.shown, stays)
    | .ok .Json => (.shown, stays)
    | .ok .Help => (.shown, stays)
    | .ok .Back =>
      match goBack repl.history with
      | some (history, snapshot) =>
        let repl := { repl with
          history
          pendingInputs := snapshot.pendingInputs
          lastOutput := some snapshot.output
          currentCard := snapshot.card }
        (.restored, .again { repl, place := .command })
      | none => (.refused, stays)
    | .ok (.Setup provider) =>
      match flow.packToFormSpec provider with
      | some form =>
        let (event, session) := handleSetup flow repl form (.object [])
        (event, .again session)
      | none => (.setupFailed, stays)
    | .ok .Quit => (.quit, .done .quit)
    | .ok (.Input field value) =>
      if knownInput repl.currentCard field then
        let pendingInputs := SortedMap.alter field (fun _ => value) repl.pendingInputs
        (.set, .again { repl := { repl with pendingInputs }, place := .command })
      else (.refused, stays)
    | .ok (.Click actionId) =>
      if knownAction repl.currentCard actionId then (.clicked, repl.click flow actionId) else (.refused, stays)
    | .error _ => (.refused, stays)

/-- A setup that is quit fails, and the dialogue goes on. -/
def setupLine (flow : Flow ω κ) (repl : DemoRepl ω κ) (form : FormSpec) (answers : Value) (questionId line : String) :
    Event × Session ω κ :=
  let place := Place.setup form answers questionId
  match collectLine repl.currentCard repl.pendingInputs line with
  | .shown => (.shown, { repl, place })
  | .refused => (.refused, { repl, place })
  | .set pendingInputs => (.set, { repl := { repl with pendingInputs }, place })
  | .submitted => handleSetup flow repl form (mergeInputs questionId repl.pendingInputs answers)
  | .quit => (.setupFailed, { repl, place := .command })

def Session.readLine (flow : Flow ω κ) (s : Session ω κ) (line : String) : Event × Turn (Session ω κ) ReplEnd :=
  match s.place with
  | .command => commandLine flow s.repl line
  | .setup form answers questionId =>
    let (event, session) := setupLine flow s.repl form answers questionId line
    (event, .again session)

/-- At the end of the input a read leaves the line blank, and that is taken for a blank line. -/
def dialogue (flow : Flow ω κ) : Loop (Session ω κ) ReplEnd where
  onLine s line := (s.readLine flow line).2
  onEnd s := (s.readLine flow "").2

/-- The result of a dialogue, where it comes to one in so many reads. -/
def DemoRepl.run (flow : Flow ω κ) (repl : DemoRepl ω κ) (reads : Nat) (script : List String) : Option ReplEnd :=
  match repl.untilBlocked flow with
  | .done r => some r
  | .again s => (dialogue flow).run reads script s

end Demo.Repl
