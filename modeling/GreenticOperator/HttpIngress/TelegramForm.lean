import GreenticOperator.Demo.Card
import GreenticOperator.Lib.SortedMap
import Mathlib.Logic.Function.Basic
import Mathlib.Algebra.Order.Ring.Int

/-!
# Forms of Telegram

`src/demo/http_ingress.rs`. Telegram has no inputs in its messages. Where a card with text inputs is sent
to a chat, their ids are kept with what the card submits; the next text of the chat is taken for the first
of the inputs, and what the card submits is added to the envelope of the text.
-/

namespace HttpIngress

open Json Json.Value Demo.Card

/-! ## The inputs of a card -/

mutual

def collectInputIds : List Value → List String
  | [] => []
  | item :: rest => inputIdsOf item ++ collectInputIds rest

/-- The id of a text input, or those in a container, a column or a set of columns. -/
def inputIdsOf : Value → List String
  | .object fields =>
    match getStr (.object fields) "type" with
    | some "Input.Text" => (getStr (.object fields) "id").toList
    | some "Container" => inputIdsOfItems fields
    | some "Column" => inputIdsOfItems fields
    | some "ColumnSet" => inputIdsOfColumns fields
    | _ => []
  | _ => []

def inputIdsOfItems : List (String × Value) → List String
  | [] => []
  | (key, .array children) :: rest => if key = "items" then collectInputIds children else inputIdsOfItems rest
  | (key, _) :: rest => if key = "items" then [] else inputIdsOfItems rest

def inputIdsOfColumns : List (String × Value) → List String
  | [] => []
  | (key, .array columns) :: rest => if key = "columns" then inputIdsOfEach columns else inputIdsOfColumns rest
  | (key, _) :: rest => if key = "columns" then [] else inputIdsOfColumns rest

def inputIdsOfEach : List Value → List String
  | [] => []
  | .object fields :: rest => inputIdsOfItems fields ++ inputIdsOfEach rest
  | _ :: rest => inputIdsOfEach rest

end

/-! ## Forms -/

/-- A form that a chat has to answer: the ids of its inputs, and what its card submits. -/
structure TelegramFormState where
  inputIds : List String
  submitData : List (String × String)
deriving DecidableEq, Repr

/-- The forms of chats. -/
abbrev TelegramFormStore := String → Option TelegramFormState

def TelegramFormStore.put (store : TelegramFormStore) (chatId : String) (form : TelegramFormState) : TelegramFormStore :=
  Function.update store chatId (some form)

def TelegramFormStore.take (store : TelegramFormStore) (chatId : String) :
    Option TelegramFormState × TelegramFormStore :=
  (store chatId, Function.update store chatId none)

/-- An envelope: its text, its metadata, and all else. -/
structure Envelope (ρ : Type) where
  text : Option String
  metadata : List (String × String)
  others : ρ
deriving DecidableEq, Repr

variable {ρ : Type}

def Envelope.meta (envelope : Envelope ρ) (key : String) : Option String := envelope.metadata.lookup key

def Envelope.insert (envelope : Envelope ρ) (key value : String) : Envelope ρ :=
  { envelope with metadata := SortedMap.alter key (fun _ => value) envelope.metadata }

/-- What a card submits: the data of its first action that submits and has data. -/
def submitDataOf (toText : Value → String) (card : Value) : List (String × String) :=
  let submit := ((getArray card "actions").getD []).findSome? fun action =>
    if getStr action "type" = some "Action.Submit" then (action.get "data").bind asObject else none
  (submit.getD []).map fun (key, value) =>
    (key, match value with
      | .string s => s
      | other => toText other)

/-- The form of a card that is sent, where it has text inputs. -/
def extractFormStateFromCard (fromStr : String → Option Value) (toText : Value → String) (envelope : Envelope ρ) :
    Option TelegramFormState := do
  let card ← (envelope.meta "adaptive_card").bind fromStr
  let body ← getArray card "body"
  if collectInputIds body = [] then none
  else return { inputIds := collectInputIds body, submitData := submitDataOf toText card }

/-! ## Answers -/

def isFormReply (envelope : Envelope ρ) : Bool := envelope.meta "is_form_reply" = some "true"

/-- An answer to a form: a reply to it, or a text of a chat that says nothing of another action. -/
def hasPendingForm (storePresent : Bool) (envelope : Envelope ρ) : Bool :=
  isFormReply envelope || (storePresent && (envelope.meta "chat_id").isSome && (envelope.meta "action").isNone
    && (envelope.meta "routeToCardId").isNone && envelope.text.isSome)

/-- The text as it is logged: its first eight bytes. Between the bytes of a character there is no cut. -/
def textPreview (text : String) : Option String :=
  if (text.toList.map Char.utf8Size).sum ≤ 8 then some text
  else (Text.splitAtByte 8 text.toList).map fun front => String.ofList front.1 ++ "..."

/-- The text is put under the id of the first input, once it is logged. -/
def injectText (form : TelegramFormState) (envelope : Envelope ρ) : Option (Envelope ρ) :=
  match envelope.text, form.inputIds.head? with
  | some text, some firstId => (textPreview text).map fun _ => envelope.insert firstId text
  | _, _ => some envelope

def injectSubmit (form : TelegramFormState) (envelope : Envelope ρ) : Envelope ρ :=
  form.submitData.foldl (fun envelope entry => envelope.insert entry.1 entry.2) envelope

/-- One envelope; there is no outcome where the thread panics. -/
def preprocessOne (store : Option TelegramFormStore) (envelope : Envelope ρ) :
    Option (Envelope ρ × Option TelegramFormStore) :=
  if hasPendingForm store.isSome envelope then
    match store, envelope.meta "chat_id" with
    | some forms, some chatId =>
      match forms.take chatId with
      | (some form, rest) => (injectText form envelope).map fun filled => (injectSubmit form filled, some rest)
      | (none, rest) => some (envelope, some rest)
    | _, _ => some (envelope, store)
  else some (envelope, store)

def preprocess : Option TelegramFormStore → List (Envelope ρ) → Option (List (Envelope ρ) × Option TelegramFormStore)
  | store, [] => some ([], store)
  | store, envelope :: rest => do
    let (done, store) ← preprocessOne store envelope
    let (results, store) ← preprocess store rest
    return (done :: results, store)

end HttpIngress
