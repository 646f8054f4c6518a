/-
BusinessCase.Service.Handlers — requests to the service, and its answers.

A formula can be checked, a workbook validated, and a workbook simulated. Bad
requests are answered with what is wrong with them; what no rule foresees is
answered without a body.

  §1 Answers     — `Response`, the shapes of error bodies.
  §2 Requests    — `Request`, its content and its counts.
  §3 Checking    — formulas and workbooks.
  §4 Simulation  — parameters, run, answer.
  §5 Dispatch    — `handle`.
-/
import BusinessCase.Service.Route
import BusinessCase.Simulation.Engine
import BusinessCase.Text.Encoding

namespace BusinessCase.Service

/-! ## §1 Answers -/

/-- The body of an answer. -/
inductive Body where
  | value (v : Value)
  | report (report : Report Float) (metadata : Metadata)
  | none

/-- What a body carries, if there is one. -/
def Body.toValue? : Body → Option Value
  | value v => some v
  | report r metadata => some (r.toValue metadata)
  | none => Option.none

/-- An answer, and what was logged while it was made. -/
structure Response where
  status : Nat
  body : Body
  log : List Log.Record := []

/-- An answer that reports an error. -/
def refuse (status : Nat) (error : Value) (log : List Log.Record := []) : Response :=
  { status, body := .value (.object [("ok", .bool false), ("error", error)]), log }

def badRequest (message : String) : Response :=
  refuse 400 (.object [("kind", .text "bad_request"), ("message", .text message)])

/-- An answer to a request whose treatment ended in a way that nothing foresees. -/
def unforeseen : Response := { status := 500, body := .none }

/-- An answer to a simulation that failed for a reason of its own. -/
def internalError (log : List Log.Record) : Response :=
  refuse 500
    (.object [("kind", .text "internal_error"), ("message", .text "Server-side error")])
    (log ++ [Log.error "api" "Simulation failed"])

def noData : Response := badRequest "No input data provided"

/-! ## §2 Requests -/

/-- What a request carries. -/
inductive Content where
  | nothing
  /-- Data that are handed in as they are. A text never spells a whole number of more than 4300
  digits, so only such data can hold one. -/
  | data (value : Value)
  /-- A text, and what is said about its type, if anything is. -/
  | text (contentType : Option String) (text : String)

/-- A request: where it goes, and what it carries. -/
structure Request where
  target : String
  content : Content

def isTypeBlank (c : Char) : Bool := c = ' ' || c = '\t'

/-- The name of a type without what follows a semicolon. -/
def typeName (contentType : String) : String :=
  let name := contentType.toList.takeWhile (· != ';')
  Text.lower (String.ofList (Text.stripChars isTypeBlank name))

def announcesData (contentType : String) : Bool :=
  let name := typeName contentType
  name = "application/json" || (name.startsWith "application/" && name.endsWith "+json")

/-- The data that a text spells; the outer nothing is a text too deep to be read. -/
def dataOf? (text : String) : Option (Option Value) :=
  match Text.decoded? text with
  | none => some none
  | some text =>
    match Value.read text with
    | .ok value => some (some value)
    | .error .malformed => some none
    | .error .tooDeep => none

/-- The data of a request, as far as it carries any. -/
def Content.data? : Content → Option (Option Value)
  | nothing => some none
  | data value => some (some value)
  | text contentType source => if contentType.any announcesData then dataOf? source else some none

/-- A count in a request: a whole number, also one that is written as a decimal. -/
def count? (value : Value) (name : String) : Except String (Option Int) :=
  let refused :=
    if value.isShown then name ++ " must be an integer, got " ++ value.quoted
    else Value.unshownText
  match value with
  | .null => .ok none
  | .int n => .ok (some n)
  | .float x =>
    if Value.isWhole x then
      match Value.wholePart x with
      | .ok n => .ok (some n)
      | .error _ => .error refused
    else .error refused
  | _ => .error refused

/-- The places of the stack that the way from a request to its treatment takes. -/
def placesOfRequest : Nat := 11

/-! ## §3 Checking -/

def checkFormula (env : Environment) (fields : List (String × Value)) : Response :=
  let expression := Value.fieldOrNull fields "expression"
  let known := (Value.field? fields "knownIds").getD (.list [])
  match expression with
  | .null | .text _ =>
    match known.texts? with
    | none => badRequest "'knownIds' must be a list of ids"
    | some known =>
      let answer (limits : Formula.Limits) : Response :=
        match checkExpression limits known {} expression.text? with
        | (_, some issue) => refuse 400 issue.toValue
        | (e, none) =>
          let names := sortedIds (e.elim [] Formula.Expr.references)
          { status := 200
            body := .value (.object [("ok", .bool true), ("references", .list (names.map .text))]) }
      if expression.text?.all Text.isAllBlank then answer {}
      else match readLimits env [] with
        | .error _ => unforeseen
        | .ok limits =>
          let limits := limits.inside placesOfRequest
          if (checkStop? limits expression.text?).isSome then unforeseen else answer limits
  | _ => badRequest "'expression' must be a string"

def refusePayload : PayloadError → Response
  | .format fault => refuse 400 (EngineError.workbookFormat fault.message).toValue
  | .numberTooLarge | .notShown => unforeseen

def validateWorkbook (env : Environment) (fields : List (String × Value)) : Response :=
  match Workbook.ofValue (Value.fieldOrNull fields "workbook") with
  | .error e => refusePayload e
  | .ok w =>
    match readLimits env [] with
    | .error _ => unforeseen
    | .ok limits =>
      match w.validate (limits.inside placesOfRequest) with
      | .error _ => unforeseen
      | .ok issues =>
        { status := 200
          body := .value (.object [
            ("ok", .bool (blocking issues).isEmpty),
            ("issues", .list (issues.map Issue.toValue))]) }

/-! ## §4 Simulation -/

/-- What a request asks of a simulation. -/
structure Parameters where
  iterations : Value
  seed : Option Int
  token : Option CancellationToken

/-- The token of a run that is given so many seconds; nothing and zero mean no limit. -/
def tokenFor (timeout : Value) : Except NumeralFault (Option CancellationToken) :=
  if timeout.isTruthy then
    timeout.readDecimal.map fun seconds => some (CancellationToken.withTimeout 0.0 seconds)
  else .ok none

def invalidParameters (reason : String) : Response :=
  badRequest ("Invalid simulation parameters: " ++ reason)

def seed? (value : Value) : Except String (Option Int) := do
  let seed ← count? value "seed"
  if seed.any (· < 0) then .error "seed must be a non-negative integer" else .ok seed

/-- The parameters of a request, or the answer to those that make no sense. -/
def parametersOf (settings : Settings) (fields : List (String × Value)) :
    Except Response Parameters := do
  let iterations ← (count? (Value.fieldOrNull fields "iterations") "iterations").mapError
    invalidParameters
  let seed ← (seed? (Value.fieldOrNull fields "seed")).mapError invalidParameters
  let token ← (tokenFor (Value.fieldOrNull fields "timeoutSeconds")).mapError fun
    | .tooLarge => unforeseen
    | fault => invalidParameters fault.message
  let iterations := iterations.elim settings.iterations .int
  match inRange? iterations settings.maxIterations with
  | some true => .ok { iterations, seed, token }
  | some false =>
    .error (badRequest ("iterations must be between 1 and " ++ settings.maxIterations.plain))
  | none => .error unforeseen

/-- The answer to a simulation that gave no report. -/
def refuseFailure (timeout : Value) (log : List Log.Record) : Failure → Response
  | .engine (.timedOut message) =>
    refuse 408 (EngineError.timedOut message).toValue
      (log ++ [Log.warning "api" ("Simulation timed out after " ++ timeout.plain ++ "s")])
  | .engine (.cancelled message) => refuse 409 (EngineError.cancelled message).toValue log
  | .engine e => refuse 400 e.toValue log
  | _ => internalError log

def refuseSimulation : PayloadError → Response
  | .notShown => invalidParameters Value.unshownText
  | e => refusePayload e

/-- Simulates a workbook. The token is looked at `elapsed` seconds after the request came in. -/
def runSimulation (env : Environment) (entropy : List UInt32) (elapsed : Float)
    (fields : List (String × Value)) : Response :=
  match Settings.read env [] with
  | .error _ => unforeseen
  | .ok settings =>
    let settings := settings.inside placesOfRequest
    match Workbook.ofValue (Value.fieldOrNull fields "workbook") with
    | .error e => refuseSimulation e
    | .ok w =>
      match parametersOf settings fields with
      | .error response => response
      | .ok p =>
        let signal := p.token.map fun token => token.signal elapsed
        let seed := p.seed.elim .null .int
        let outcome := simulate settings w p.iterations seed signal entropy
        match outcome.result with
        | .ok (report, metadata) =>
          -- An answer shows the seed, so it cannot be formed where the seed cannot be shown.
          if metadata.seed.isShown then
            { status := 200, body := .report report metadata, log := outcome.log }
          else { unforeseen with log := outcome.log }
        | .error failure =>
          refuseFailure (Value.fieldOrNull fields "timeoutSeconds") outcome.log failure

/-! ## §5 Dispatch -/

def handle (env : Environment) (entropy : List UInt32) (elapsed : Float) (request : Request) :
    Response :=
  let withFields (answer : List (String × Value) → Response) : Response :=
    match request.content.data? with
    | none => unforeseen
    | some (some (.object fields)) => answer fields
    | some _ => noData
  match Route.ofTarget request.target with
  | .validateExpression => withFields (checkFormula env)
  | .validateWorkbook => withFields (validateWorkbook env)
  | .runSimulation => withFields (runSimulation env entropy elapsed)
  | .file => { status := 405, body := .none }
  | .nowhere => { status := 404, body := .none }

end BusinessCase.Service
