/-
BusinessCase.Error.Given — errors made outright from given arguments.

Arguments are of any kind. What an error shows of them has to be text or to
have one; its payload holds them as they were given.

  §1 Forms     — `ErrorForm`, and the arguments that each takes.
  §2 Arguments — names and issues.
  §3 Errors    — `GivenError`, `ErrorForm.make`.
-/
import BusinessCase.Error

namespace BusinessCase

/-! ## §1 Forms -/

/-- The ways to make an error of the engine. -/
inductive ErrorForm where
  | general
  | formula
  | lex
  | parse
  | unknownReference
  | unknownFunction
  | nonNumeric
  | circular
  | workbookFormat
  | validation
  | cancelled
  | timedOut
  deriving DecidableEq

namespace ErrorForm

def argumentCounts : ErrorForm → Nat × Nat
  | lex | nonNumeric => (2, 2)
  | parse => (1, 3)
  | cancelled | timedOut => (0, 1)
  | _ => (1, 1)

/-- The message among the arguments, where there is one. -/
def message? (args : List Value) : ErrorForm → Option Value
  | general | formula | workbookFormat | cancelled | timedOut => args[0]?
  | parse => match args.getD 2 Value.null with
    | .null => none
    | message => some message
  | _ => none

/-- The arguments that the text of an error shows. -/
def shown (args : List Value) (form : ErrorForm) : List Value :=
  match form, form.message? args with
  | validation, _ => []
  | _, some message => [message]
  | _, none => args

end ErrorForm

/-! ## §2 Arguments -/

/-- Names as an error takes them: texts of a list, characters of a text, names of fields. -/
def namesAmong : Value → Except Failure (List String)
  | .text s => .ok (Text.characters s)
  | .object fields => .ok (fields.map Prod.fst)
  | value => match value.texts? with
    | some names => .ok names
    | none => .error .wrongKind

def membersOf : Value → Except Failure (List Value)
  | .text s => .ok ((Text.characters s).map .text)
  | .list items => .ok items
  | .object fields => .ok (fields.map fun field => .text field.1)
  | .null | .bool _ | .int _ | .float _ => .error .wrongKind

/-- An issue as it is given: the entry it is about, and its payload. -/
structure GivenIssue where
  target : Option String
  payload : Value

namespace GivenIssue

/-- The fields of an issue; the first three have to be there. -/
def fieldNames : List String :=
  ["target_id", "kind", "message", "field", "offset", "severity", "ids"]

/-- A field of a payload, unless it is given as nothing. -/
def optional (name : String) : Value → List (String × Value)
  | .null => []
  | value => [(name, value)]

/-- Reads an issue. What it is about is a text, unless it is empty or zero. -/
def read (value : Value) : Except Failure GivenIssue := do
  let fields := match value with
    | .object fields => fields
    | _ => []
  let has (name : String) : Bool := (Value.field? fields name).isSome
  let get (name : String) : Value := Value.fieldOrNull fields name
  if fields.any (fun field => !fieldNames.contains field.1) then .error .wrongKind
  if !(fieldNames.take 3).all has then .error .wrongKind
  if (get "target_id").isTruthy && (get "target_id").text?.isNone then .error .wrongKind
  let ids ← if (get "ids").isTruthy then membersOf (get "ids") else .ok []
  let severity := (Value.field? fields "severity").getD (.text Severity.error.name)
  .ok {
    target := (get "target_id").text?
    payload := .object (
      [("kind", get "kind"), ("message", get "message"), ("severity", severity)] ++
        optional "targetId" (get "target_id") ++ optional "field" (get "field") ++
        optional "offset" (get "offset") ++
        (if ids.isEmpty then [] else [("ids", .list ids)])) }

end GivenIssue

/-! ## §3 Errors -/

/-- An error made from arguments: its text, and its payload. -/
structure GivenError where
  text : String
  payload : Value

/-- An error of the engine, with its message as it was given, if one was. -/
def GivenError.of (e : EngineError) (message : Option Value) : GivenError :=
  let fields := [("kind", Value.text e.kind), ("message", message.getD (.text e.message))]
  { text := e.message, payload := .object (fields ++ e.details) }

def GivenError.ofIssues (issues : List GivenIssue) : GivenError :=
  let text := EngineError.validationText (issues.map (·.target))
  { text
    payload := .object [("kind", .text (EngineError.validation []).kind),
      ("message", .text text), ("issues", .list (issues.map (·.payload)))] }

namespace ErrorForm

/-- The error of a form with the first arguments; what is missing counts as nothing. -/
def build (form : ErrorForm) (args : List Value) : Except Failure GivenError := do
  let first := args.headD .null
  let second := args.getD 1 .null
  let message := form.message? args
  let text := (message.getD .null).plain
  let found := match second with
    | .null => none
    | value => some value.plain
  let of (e : EngineError) : GivenError := .of e message
  match form with
  | general => .ok (of (.general text))
  | formula => .ok (of (.formula text))
  | workbookFormat => .ok (of (.workbookFormat text))
  | cancelled => .ok (of (if message.isNone then .stopped else .cancelled text))
  | timedOut => .ok (of (if message.isNone then .expired else .timedOut text))
  | lex => .ok (of (.lex first second.plain))
  | parse =>
    .ok (of (if message.isNone then .unexpected first found else .parse first found text))
  | unknownReference => (namesAmong first).map fun names => of (.unknownReference names)
  | unknownFunction => (namesAmong first).map fun names => of (.unknownFunction names)
  | nonNumeric => .ok (of (.nonNumeric first.plain second))
  | circular => (namesAmong first).map fun names => of (.circular names)
  | validation => do
    let issues ← (← membersOf first).mapM GivenIssue.read
    .ok (.ofIssues issues)

/-- Makes an error, if the arguments are as many as its form takes and can be shown. -/
def make (form : ErrorForm) (args : List Value) : Except Failure GivenError :=
  if args.length < form.argumentCounts.1 || form.argumentCounts.2 < args.length then
    .error .wrongKind
  else if !(form.shown args).all Value.isShown then .error .notShown
  else form.build args

end ErrorForm

end BusinessCase
