/-
BusinessCase.Validation.Expression — is a formula fit for use?

A formula has to be there, to be well formed, to call built-in functions with
a count of arguments they take, and to refer to known ids or constants. The
first rule that fails is reported; the tree is handed on if there is one, so
that the references of a faulty formula still count.
-/
import BusinessCase.Dependency.Ids
import BusinessCase.Formula.Message
import BusinessCase.Formula.Stack
import BusinessCase.Text.Blank
import BusinessCase.Validation.Issue

namespace BusinessCase

open Formula

/-- Where a formula stands in the workbook. -/
structure Place where
  target : Option String := none
  field : Option String := none

def Place.issue (place : Place) (kind : IssueKind) (message : String)
    (offset : Option Value := none) : Issue :=
  { target := place.target, field := place.field, kind, message, offset }

def Place.syntaxIssue (place : Place) : SyntaxError → Issue
  | .lex e => place.issue .lexError e.message (some (.int e.offset))
  | .parse e => place.issue .parseError e.message (some e.offset)

/-- Functions that are called but not built in, in increasing order. -/
def unknownFunctions (e : Expr Float) : List String :=
  sortedIds ((e.calls.map Prod.fst).filter fun callee => (Builtin.ofName? callee).isNone)

/-- Why a call does not fit the function it calls. -/
def badArguments? (call : String × Nat) : Option String :=
  (Builtin.ofName? call.1).bind fun f =>
    if f.accepts call.2 then none
    else some (call.1 ++ "() takes " ++ f.arityText ++ " argument(s), got " ++ toString call.2)

/-- Names that are neither known nor constants, in increasing order. -/
def unknownReferences (known : List String) (e : Expr Float) : List String :=
  sortedIds (e.references.filter fun name => !known.contains name && !constantNames.contains name)

/-- The first problem of a tree. -/
def nameIssue? (place : Place) (known : List String) (e : Expr Float) : Option Issue :=
  let functions := unknownFunctions e
  if !functions.isEmpty then
    some (place.issue .unknownFunction (unknownNamesText "function" functions))
  else match e.calls.findSome? badArguments? with
    | some message => some (place.issue .invalidArguments message)
    | none =>
      let missing := unknownReferences known e
      if missing.isEmpty then none
      else some (place.issue .unknownReference (unknownNamesText "reference" missing))

def emptyExpressionText : String := "Start by selecting a metric"

/-- The tree of a formula, if it has one, and its first problem, if it has any. -/
def checkExpression (limits : Limits) (known : List String) (place : Place)
    (expression : Option String) : Option (Expr Float) × Option Issue :=
  match expression.filter (fun text => !Text.isAllBlank text) with
  | none => (none, some (place.issue .emptyExpression emptyExpressionText))
  | some text =>
    match Formula.read limits text with
    | .error e => (none, some (place.syntaxIssue e))
    | .ok e => (some e, nameIssue? place known e)

/-- What stops the check of a formula: a text that is not blank is read. -/
def checkStop? (limits : Limits) (expression : Option String) : Option ReadStop :=
  (expression.filter fun text => !Text.isAllBlank text).bind (readStop? limits.inner)

end BusinessCase
