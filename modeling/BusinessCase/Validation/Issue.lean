/-
BusinessCase.Validation.Issue — problems found in a workbook.
-/
import BusinessCase.Value

namespace BusinessCase

/-- How much a problem matters. -/
inductive Severity where
  /-- Nothing can be simulated. -/
  | error
  /-- The workbook can be used, but is probably not what was meant. -/
  | warning
  deriving DecidableEq

def Severity.name : Severity → String
  | error => "error"
  | warning => "warning"

/-- What a problem is about. -/
inductive IssueKind where
  | emptyExpression
  | lexError
  | parseError
  | unknownFunction
  | invalidArguments
  | unknownReference
  | invalidValue
  | invalidDistribution
  | duplicateId
  | unknownCategory
  | circularDependency
  /-- A kind that this library does not produce itself. -/
  | other (name : String)
  deriving DecidableEq

def IssueKind.name : IssueKind → String
  | emptyExpression => "empty_expression"
  | lexError => "lex_error"
  | parseError => "parse_error"
  | unknownFunction => "unknown_function"
  | invalidArguments => "invalid_arguments"
  | unknownReference => "unknown_reference"
  | invalidValue => "invalid_value"
  | invalidDistribution => "invalid_distribution"
  | duplicateId => "duplicate_id"
  | unknownCategory => "unknown_category"
  | circularDependency => "circular_dependency"
  | other name => name

/-- A problem: where it is, what it is, and what is said about it. -/
structure Issue where
  /-- The id of the entry it is about, if it is about one. -/
  target : Option String
  kind : IssueKind
  message : String
  field : Option String := none
  /-- The place in the formula. -/
  offset : Option Value := none
  severity : Severity := .error
  /-- All ids concerned, where there are several. -/
  ids : List String := []

namespace Issue

/-- A field that is written only where there is something to write. -/
def optionalField (name : String) : Option Value → List (String × Value)
  | some value => [(name, value)]
  | none => []

def toValue (issue : Issue) : Value :=
  .object (
    [("kind", .text issue.kind.name), ("message", .text issue.message),
      ("severity", .text issue.severity.name)] ++
    optionalField "targetId" (issue.target.map .text) ++
    optionalField "field" (issue.field.map .text) ++
    optionalField "offset" issue.offset ++
    optionalField "ids"
      (if issue.ids.isEmpty then none else some (.list (issue.ids.map .text))))

end Issue

/-- The problems that stop a simulation. -/
def blocking (issues : List Issue) : List Issue := issues.filter (·.severity = .error)

end BusinessCase
