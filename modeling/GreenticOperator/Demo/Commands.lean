import GreenticOperator.Lib.Text

/-!
# Commands of the demo

`src/demo/commands.rs`. A command is a name after an at sign; what follows the name is its argument.
-/

namespace Demo.Commands

inductive DemoCommand
  | Show
  | Json
  | Input (field value : String)
  | Click (actionId : String)
  | Setup (provider : Option String)
  | Back
  | Quit
  | Help
deriving DecidableEq, Repr

inductive CommandParseError
  | Unknown (command : String)
  | InvalidFormat (message : String)
deriving DecidableEq, Repr

/-- The word at the start of a text, and what follows the white space after it. -/
def splitWord (s : String) : String × String :=
  (String.ofList (s.toList.takeWhile fun c => !Text.isWhitespace c),
    String.ofList ((s.toList.dropWhile fun c => !Text.isWhitespace c).drop 1))

def parseInputCommand (rest : String) : Except CommandParseError DemoCommand :=
  if rest = "" then .error (.InvalidFormat "@input requires <field>=<value>")
  else
    let (before, after) := Text.splitOnce '=' rest
    let field := Text.trim before
    let value := Text.trim (after.getD "")
    if field = "" ∨ value = "" then
      .error (.InvalidFormat "@input requires a field and a value separated by '='")
    else .ok (.Input field value)

def parseCommand (line : String) : Except CommandParseError DemoCommand :=
  match Text.stripPrefix "@" (Text.trim line) with
  | none => .error (.InvalidFormat "commands must start with '@'")
  | some command =>
    let (word, after) := splitWord (Text.trim command)
    let rest := Text.trim after
    match Text.toAsciiLowercase word with
    | "show" => .ok .Show
    | "json" => .ok .Json
    | "back" => .ok .Back
    | "help" => .ok .Help
    | "quit" => .ok .Quit
    | "setup" => .ok (.Setup (if rest = "" then none else some rest))
    | "click" =>
      if rest = "" then .error (.InvalidFormat "@click requires an action id") else .ok (.Click rest)
    | "input" => parseInputCommand rest
    | unknown => .error (.Unknown unknown)

example : parseCommand " @Input name = Ada " = .ok (.Input "name" "Ada") := by decide +kernel

end Demo.Commands
