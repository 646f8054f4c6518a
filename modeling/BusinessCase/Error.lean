/-
BusinessCase.Error — everything that can end an operation.

`EngineError` is what the engine reports on purpose, with a word for its kind,
a text, and a payload. `Failure` adds what arithmetic, malformed settings and
missing data can do.

  §1 Engine   — `EngineError`, its kind, text and payload.
  §2 Failures — `Failure`, and the ways into it.
  §3 Formulas — `treeOf`, `numberOf`.
-/
import BusinessCase.Validation.Workbook
import BusinessCase.Workbook.Payload

namespace BusinessCase

open Formula

/-! ## §1 Engine -/

/-- What the engine reports on purpose. -/
inductive EngineError where
  | general (message : String)
  | formula (message : String)
  | lex (offset : Value) (char : String)
  | parse (offset : Value) (found : Option String) (message : String)
  | unknownReference (names : List String)
  | unknownFunction (names : List String)
  | nonNumeric (name : String) (value : Value)
  | circular (ids : List String)
  | workbookFormat (message : String)
  | validation (issues : List Issue)
  | cancelled (message : String)
  | timedOut (message : String)

namespace EngineError

def kind : EngineError → String
  | general _ => "simulation_error"
  | formula _ => "formula_error"
  | lex _ _ => "lex_error"
  | parse _ _ _ => "parse_error"
  | unknownReference _ => "unknown_reference"
  | unknownFunction _ => "unknown_function"
  | nonNumeric _ _ => "non_numeric_result"
  | circular _ => "circular_dependency"
  | workbookFormat _ => "workbook_format"
  | validation _ => "validation_error"
  | cancelled _ => "cancelled"
  | timedOut _ => "timeout"

/-- What is said about as many problems as there are targets; those that are named are listed in
increasing order. -/
def validationText (targets : List (Option String)) : String :=
  let names := sortedIds ((targets.filterMap id).filter (!·.isEmpty))
  "Workbook has " ++ toString targets.length ++ " validation error(s)" ++
    (if names.isEmpty then "" else " in: " ++ ", ".intercalate names)

def message : EngineError → String
  | general message | formula message | parse _ _ message | workbookFormat message
  | cancelled message | timedOut message => message
  | lex offset char => "Invalid character '" ++ char ++ "' at position " ++ offset.plain
  | unknownReference names => unknownNamesText "reference" (sortIds names)
  | unknownFunction names => unknownNamesText "function" (sortIds names)
  | nonNumeric name value => nonNumericText name value
  | circular ids => circularText ids
  | validation issues => validationText (issues.map (·.target))

def details : EngineError → List (String × Value)
  | lex offset _ | parse offset _ _ => [("offset", offset)]
  | circular ids => [("ids", .list (ids.map .text))]
  | validation issues => [("issues", .list (issues.map Issue.toValue))]
  | _ => []

def toValue (e : EngineError) : Value :=
  .object ([("kind", .text e.kind), ("message", .text e.message)] ++ e.details)

/-- A parse error of the given place and token, with the usual text. -/
def unexpected (offset : Value) (found : Option String) : EngineError :=
  parse offset found (ParseError.unexpectedText offset found)

/-- A simulation was told to stop. -/
def stopped : EngineError := cancelled "Simulation was cancelled"

/-- A simulation ran past its deadline. -/
def expired : EngineError := timedOut "Simulation deadline exceeded"

end EngineError

/-! ## §2 Failures -/

/-- What can end an operation. -/
inductive Failure where
  | engine (error : EngineError)
  /-- A value that is refused, with the reason. -/
  | badValue (reason : String)
  | arithmetic (error : ArithmeticError)
  | foreignNode
  /-- A value of a kind that the operation has no use for. -/
  | wrongKind
  | stackExhausted
  | missingColumn (name : String)
  /-- A list without the first entry that is needed. -/
  | emptyList
  /-- The uniform numbers have run out. -/
  | exhausted
  /-- There is no room for what was asked for. -/
  | noRoom

namespace Failure

/-- A message would have to show a whole number that is too long. -/
def notShown : Failure := badValue Value.unshownText

/-- A text that is no formula ends the operation with its error; a numeral token that is no number
is a refused value. -/
def ofParse : ParseError → Failure
  | .badNumeral text => badValue (ParseError.badNumeral text).message
  | e => engine (.parse e.offset e.found e.message)

def ofSyntax : SyntaxError → Failure
  | .lex e => engine (.lex (.int e.offset) e.text)
  | .parse e => ofParse e

def ofEval : EvalError → Failure
  | .nonNumeric name value =>
    if value.isShown then engine (.nonNumeric name value) else notShown
  | .arithmetic e => arithmetic e
  | .foreignNode => foreignNode
  | .stackExhausted => stackExhausted

def ofReadStop : ReadStop → Failure
  | .limitNotANumber => wrongKind
  | .stackExhausted => stackExhausted

def ofPayload : PayloadError → Failure
  | .format fault => engine (.workbookFormat fault.message)
  | .numberTooLarge => arithmetic .overflow
  | .notShown => notShown

def ofFault : ValidationFault → Failure
  | .unusableCategoryId _ => wrongKind
  | .unshownCategoryId _ => notShown
  | .reading _ stop => ofReadStop stop

end Failure

/-! ## §3 Formulas -/

/-- The tree of a formula, unless its text is none or something stops its reading. -/
def treeOf (limits : Limits) (expression : String) : Except Failure (Expr Float) :=
  match readStop? limits expression with
  | some stop => .error (.ofReadStop stop)
  | none => (Formula.read limits expression).mapError .ofSyntax

/-- The number that a tree stands for among the cells of a table. -/
def numberOf (table : Table (Cell Float)) (e : Expr Float) : Except Failure Float :=
  (e.value (resolve table.find?)).mapError .ofEval

end BusinessCase
