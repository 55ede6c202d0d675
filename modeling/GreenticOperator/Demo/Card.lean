import GreenticOperator.Lib.Json

/-!
# Views of adaptive cards

`src/demo/card/parse.rs`. Of a card its texts, its inputs and its actions are listed. Inputs are looked
for in the body of the card and in the items of its elements and of their columns, on any level.
-/

namespace Demo.Card

open Json Json.Value

structure CardInput where
  id : String
  label : Option String
  placeholder : Option String
  inputType : Option String
deriving DecidableEq, Repr

structure CardAction where
  id : String
  title : Option String
  actionType : Option String
deriving DecidableEq, Repr

structure CardView where
  version : Option String
  title : Option String
  summaryText : Option String
  bodyTexts : List String
  inputs : List CardInput
  actions : List CardAction
deriving DecidableEq, Repr

def cardType : String := "AdaptiveCard"

def getStr (value : Value) (key : String) : Option String := (value.get key).bind asStr

def getArray (value : Value) (key : String) : Option (List Value) := (value.get key).bind asArray

/-! ## Inputs -/

def parseInput (value : Value) : Option CardInput :=
  match value.asObject with
  | none => none
  | some _ =>
    let inputType := getStr value "type"
    if Text.startsWith "input" ((inputType.map Text.toAsciiLowercase).getD "") then
      some {
        id := ((getStr value "id").or (getStr value "dataId")).getD "<unnamed-input>"
        label := (getStr value "title").or (getStr value "label")
        placeholder := getStr value "placeholder"
        inputType }
    else none

mutual

/-- The inputs of elements, one element after the other. -/
def collectInputs : List Value → List CardInput
  | [] => []
  | item :: rest => (parseInput item).toList ++ inputsBelow item ++ collectInputs rest

/-- The inputs of the items of an element, and of the items of its columns. -/
def inputsBelow : Value → List CardInput
  | .object fields => inputsOfItems fields ++ inputsOfColumns fields
  | _ => []

def inputsOfItems : List (String × Value) → List CardInput
  | [] => []
  | (key, .array children) :: rest => if key = "items" then collectInputs children else inputsOfItems rest
  | (key, _) :: rest => if key = "items" then [] else inputsOfItems rest

def inputsOfColumns : List (String × Value) → List CardInput
  | [] => []
  | (key, .array columns) :: rest => if key = "columns" then inputsOfEach columns else inputsOfColumns rest
  | (key, _) :: rest => if key = "columns" then [] else inputsOfColumns rest

def inputsOfEach : List Value → List CardInput
  | [] => []
  | .object fields :: rest => inputsOfItems fields ++ inputsOfEach rest
  | _ :: rest => inputsOfEach rest

end

/-! ## The view -/

def parseAction (value : Value) : Option CardAction :=
  value.asObject.map fun _ => {
    id := ((getStr value "id").or (getStr value "actionId")).getD "<unnamed-action>"
    title := getStr value "title"
    actionType := getStr value "type" }

/-- A card is in a value, in its payload, or in the outputs of one of them; or the value is one. -/
def extractCardObject (value : Value) : Option Value :=
  let inPayload := (value.get "payload").bind fun payload =>
    (payload.get "card").or ((payload.get "outputs").bind (·.get "card"))
  match (value.get "card").or (inPayload.or ((value.get "outputs").bind (·.get "card"))) with
  | some card => card.asObject.map fun _ => card
  | none => if ((getStr value "type").map (Text.eqIgnoreAsciiCase cardType)).getD false then some value else none

def bodyText (item : Value) : Option String :=
  (getStr item "type").bind fun itemType =>
    if Text.toAsciiLowercase itemType = "textblock" then getStr item "text" else none

def detectAdaptiveCardView (value : Value) : Option CardView :=
  match extractCardObject value with
  | none => none
  | some card =>
    if Text.eqIgnoreAsciiCase ((getStr card "type").getD "") cardType then
      some {
        version := getStr card "version"
        title := getStr card "title"
        summaryText := (getStr card "summary").or (getStr card "title")
        bodyTexts := ((getArray card "body").getD []).filterMap bodyText
        inputs := collectInputs ((getArray card "body").getD [])
        actions := ((getArray card "actions").getD []).filterMap parseAction }
    else none

end Demo.Card
