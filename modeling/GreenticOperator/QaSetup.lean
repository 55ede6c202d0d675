import GreenticOperator.Demo.Card
import GreenticOperator.Demo.Commands
import GreenticOperator.Demo.TimerScheduler
import GreenticOperator.Lib.Prompt

/-!
# The setup wizard

`src/qa_setup_wizard.rs`, `src/demo/qa_bridge.rs`. The questions of a form are asked one after the other, each
until a line answers it. Another wizard shows them as cards, whose inputs are set by commands.
-/

namespace QaSetup

open Json Json.Value Prompt
open Demo.Card (CardView detectAdaptiveCardView)
open Demo.Commands

inductive QuestionType
  | String
  | Boolean
  | Number
  | Integer
  | Enum
deriving DecidableEq, Repr

structure Constraint where
  pattern : Option String
deriving DecidableEq, Repr

structure QuestionSpec where
  id : String
  kind : QuestionType
  description : Option String
  required : Bool
  choices : Option (List String)
  defaultValue : Option String
  secret : Bool
  constraint : Option Constraint
deriving DecidableEq, Repr

structure FormSpec where
  questions : List QuestionSpec

/-- What the wizards rest on: how a floating-point number is read, with its text as the result, how a form is rendered
as a card with the question that is next, what reading a secret gives at the end of the input, and whether arithmetic
is checked for overflow. -/
structure Terminal where
  parseF64 : String → Option String
  renderCard : FormSpec → Value → Value × Option String
  promptPasswordAtEnd : Except String String
  overflowChecks : Bool

/-! ## Answers -/

/-- An integer as Rust reads it: digits, with a sign in front or not. -/
def parseI64 (text : String) : Option Int64 :=
  match text.toList with
  | '-' :: digits =>
    if digits ≠ [] ∧ digits.all Char.isDigit ∧ Nat.ofDigitChars 10 digits 0 ≤ 2 ^ 63 then
      some (-Int64.ofNat (Nat.ofDigitChars 10 digits 0))
    else none
  | _ => (Demo.TimerScheduler.parseU64 text).bind fun n =>
    if n.toNat < 2 ^ 63 then some (Int64.ofNat n.toNat) else none

def parseUsize (text : String) : Option Nat := (Demo.TimerScheduler.parseU64 text).map UInt64.toNat

def ofI64 (n : Int64) : Value :=
  if 0 ≤ n.toInt then .number (.posInt (UInt64.ofNat n.toInt.toNat)) else .number (.negInt n)

def isTrueWord (word : String) : Bool := ["yes", "y", "true", "1", "on"].contains word

def isFalseWord (word : String) : Bool := ["no", "n", "false", "0", "off"].contains word

/-- An answer to a yes-or-no question as one of two words, where it is one. -/
def normalizeAnswer (answer : String) (kind : QuestionType) : String :=
  if kind = .Boolean then
    if isTrueWord (Text.toAsciiLowercase answer) then "true"
    else if isFalseWord (Text.toAsciiLowercase answer) then "false"
    else answer
  else answer

/-- One pattern is known; every other one is taken for matched. -/
def matchesPattern (value pattern : String) : Bool :=
  if pattern = "^https?://\\S+" then
    (Text.startsWith "http://" value || Text.startsWith "https://" value)
      && decide (8 < value.utf8ByteSize) && !value.toList.any Text.isWhitespace
  else true

def parseTypedValue (terminal : Terminal) (kind : QuestionType) (input : String) : Value :=
  match kind with
  | .Boolean =>
    if isTrueWord (Text.toAsciiLowercase input) then .bool true
    else if isFalseWord (Text.toAsciiLowercase input) then .bool false
    else .string input
  | .Number | .Integer =>
    match parseI64 input with
    | some n => ofI64 n
    | none =>
      match terminal.parseF64 input with
      | some text => .number (.float text)
      | none => .string input
  | _ => .string input

def QuestionSpec.pattern (question : QuestionSpec) : Option String := question.constraint.bind (·.pattern)

def failsPattern (question : QuestionSpec) (value : String) : Option String :=
  question.pattern.filter fun pattern => !matchesPattern value pattern

/-- What an object of answers lacks, or has in the wrong form. -/
def validateAnswersAgainstFormSpec (form : FormSpec) (answers : Value) : Except String Unit :=
  match answers.asObject with
  | none => .error "setup answers must be an object"
  | some map => form.questions.forM fun question => do
    if question.required ∧ (map.lookup question.id = none ∨ map.lookup question.id matches some .null) then
      let described := (question.description.map fun text => s!" ({text})").getD ""
      throw s!"missing required setup answer for '{question.id}'{described}"
    match (map.lookup question.id).bind asStr with
    | some s =>
      match failsPattern question s with
      | some pattern => throw s!"answer for '{question.id}' does not match pattern: {pattern}"
      | none => return ()
    | none => return ()

/-! ## Questions that are asked for a line -/

/-- What a line is for the question that it answers. -/
inductive Reply
  | answer (value : Option Value)
  | again (message : String)
  | panicked
deriving Repr

def chooseTyped (terminal : Terminal) (kind : QuestionType) (choices : List String) (normalized : String) : Reply :=
  let options := String.intercalate ", " choices
  if choices.contains normalized then .answer (some (parseTypedValue terminal kind normalized))
  else .again s!"  Invalid choice. Options: {options}"

/-- The choice of a number, or the line as it is. The number is looked at first, and one is subtracted from it. -/
def chooseBy (terminal : Terminal) (kind : QuestionType) (choices : List String) (normalized : String) : Reply :=
  match parseUsize normalized with
  | some 0 => if terminal.overflowChecks then .panicked else chooseTyped terminal kind choices normalized
  | some (i + 1) =>
    match choices[i]? with
    | some choice => .answer (some (.string choice))
    | none => chooseTyped terminal kind choices normalized
  | none => chooseTyped terminal kind choices normalized

def replyTo (terminal : Terminal) (question : QuestionSpec) (input : String) : Reply :=
  let trimmed := Text.trim input
  if trimmed = "" then
    match question.defaultValue with
    | some value => .answer (some (parseTypedValue terminal question.kind value))
    | none => if question.required then .again "  This field is required." else .answer none
  else
    let normalized := normalizeAnswer trimmed question.kind
    match failsPattern question normalized with
    | some pattern => .again s!"  Invalid format. Expected pattern: {pattern}"
    | none =>
      match question.choices with
      | some (first :: rest) => chooseBy terminal question.kind (first :: rest) normalized
      | _ => .answer (some (parseTypedValue terminal question.kind normalized))

/-- What a question makes of the end of the input: nothing is read, as where a blank line is; a secret is read in
another way. -/
def replyAtEnd (terminal : Terminal) (question : QuestionSpec) : Except String Reply :=
  if question.secret then terminal.promptPasswordAtEnd.map (replyTo terminal question)
  else .ok (replyTo terminal question "")

inductive Asked
  | answered (value : Option Value)
  | failed (reason : String)
  | panicked

def turnOf (reply : Except String Reply) : Turn Unit Asked :=
  match reply with
  | .ok (.answer value) => .done (.answered value)
  | .ok (.again _) => .again ()
  | .ok .panicked => .done .panicked
  | .error reason => .done (.failed reason)

/-- One question, asked until it is answered. -/
def askFormSpecQuestion (terminal : Terminal) (question : QuestionSpec) : Loop Unit Asked where
  onLine _ line := turnOf (.ok (replyTo terminal question line))
  onEnd _ := turnOf (replyAtEnd terminal question)

/-! ## Forms -/

structure FormState where
  question : QuestionSpec
  rest : List QuestionSpec
  answers : List (String × Value)

inductive FormEnd
  | collected (answers : Value)
  | failed (reason : String)
  | panicked

/-- The next question that has an id. -/
def nextQuestion : List QuestionSpec → List (String × Value) → Turn FormState FormEnd
  | [], answers => .done (.collected (.object answers))
  | question :: rest, answers =>
    if question.id = "" then nextQuestion rest answers else .again { question, rest, answers }

def afterRead (s : FormState) : Turn Unit Asked → Turn FormState FormEnd
  | .again () => .again s
  | .done (.answered (some value)) => nextQuestion s.rest (insertField s.question.id value s.answers)
  | .done (.answered none) => nextQuestion s.rest s.answers
  | .done (.failed reason) => .done (.failed reason)
  | .done .panicked => .done .panicked

def promptLoop (terminal : Terminal) : Loop FormState FormEnd where
  onLine s line := afterRead s ((askFormSpecQuestion terminal s.question).onLine () line)
  onEnd s := afterRead s ((askFormSpecQuestion terminal s.question).onEnd ())

/-- The answers of a form, where they are there after so many reads. -/
def promptFormSpecAnswers (terminal : Terminal) (form : FormSpec) (reads : Nat) (script : List String) : Option FormEnd :=
  match nextQuestion form.questions [] with
  | .done r => some r
  | .again s => (promptLoop terminal).run reads script s

/-! ## Cards -/

/-- An action of a card has an id by which it can be clicked. -/
def withActionId : Value → Value
  | .object fields => if fields.lookup "id" = none then .object (insertField "id" (.string "submit") fields) else .object fields
  | action => action

def renderQaCard (terminal : Terminal) (form : FormSpec) (answers : Value) : Value × Option String :=
  let (card, next) := terminal.renderCard form answers
  match card, (card.get "actions").bind asArray with
  | .object fields, some actions => (.object (insertField "actions" (.array (actions.map withActionId)) fields), next)
  | card, _ => (card, next)

/-- What a line does to the inputs of a card. -/
inductive Collected
  | shown
  | refused
  | set (pendingInputs : List (String × String))
  | submitted
  | quit
deriving DecidableEq, Repr

def knownInput (card : Option CardView) (field : String) : Bool :=
  match card with
  | some card => card.inputs.any fun input => input.id == field
  | none => true

def collectLine (card : Option CardView) (pendingInputs : List (String × String)) (line : String) : Collected :=
  let trimmed := Text.trim line
  if trimmed = "" then .shown
  else
    match parseCommand trimmed with
    | .ok (.Input field value) =>
      if knownInput card field then .set (SortedMap.alter field (fun _ => value) pendingInputs) else .refused
    | .ok (.Click _) => .submitted
    | .ok .Quit => .quit
    | .ok (.Setup _) => .refused
    | .ok .Back => .refused
    | .ok _ => .shown
    | .error _ => .refused

/-- The answers with the input of a question in them, or with all inputs where it has none. -/
def mergeInputs (questionId : String) (pendingInputs : List (String × String)) (answers : Value) : Value :=
  let fields := answers.asObject.getD []
  match pendingInputs.lookup questionId with
  | some value => .object (insertField questionId (.string value) fields)
  | none => .object (pendingInputs.foldl (fun done input => insertField input.1 (.string input.2) done) fields)

structure CardState where
  answers : Value
  questionId : String
  currentCard : Option CardView
  pendingInputs : List (String × String)

inductive CardEnd
  | collected (answers : Value)
  | failed (reason : String)
  | quit

/-- The next card of a form, or its answers where there is none. -/
def nextCard (terminal : Terminal) (form : FormSpec) (answers : Value) (currentCard : Option CardView)
    (pendingInputs : List (String × String)) : Turn CardState CardEnd :=
  let (card, next) := renderQaCard terminal form answers
  match next with
  | none =>
    match validateAnswersAgainstFormSpec form answers with
    | .ok () => .done (.collected answers)
    | .error reason => .done (.failed reason)
  | some questionId =>
    match detectAdaptiveCardView card with
    | some view => .again { answers, questionId, currentCard := some view, pendingInputs := [] }
    | none => .again { answers, questionId, currentCard, pendingInputs }

def collectCardInputs (terminal : Terminal) (form : FormSpec) : Loop CardState CardEnd where
  onLine s line :=
    match collectLine s.currentCard s.pendingInputs line with
    | .set pendingInputs => .again { s with pendingInputs }
    | .submitted =>
      nextCard terminal form (mergeInputs s.questionId s.pendingInputs s.answers) s.currentCard s.pendingInputs
    | .quit => .done .quit
    | _ => .again s
  onEnd _ := .done (.failed "wizard cancelled (EOF)")

def runInteractiveCardWizard (terminal : Terminal) (form : FormSpec) (reads : Nat) (script : List String) :
    Option CardEnd :=
  match nextCard terminal form (.object []) none [] with
  | .done r => some r
  | .again s => (collectCardInputs terminal form).run reads script s

end QaSetup
