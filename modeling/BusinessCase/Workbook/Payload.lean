/-
BusinessCase.Workbook.Payload — a workbook read from a payload.

Field names come in two spellings. An id loses the blanks around it where it
is declared; everything else is taken as given. Reading stops at the first
fault.

  §1 Faults  — `FormatFault`, `PayloadError`.
  §2 Parts   — fields, numbers, bounds.
  §3 Entries — metrics, formulas, categories; `Workbook.ofValue`.
-/
import BusinessCase.Value.Shown
import BusinessCase.Workbook.Basic

namespace BusinessCase

/-! ## §1 Faults -/

/-- What is wrong with a payload. -/
inductive FormatFault where
  | notAnObject
  | notAList (field : String)
  | entryNotAnObject (field : String)
  | missingId (what : String)
  | notANumber (place : String) (value : Value)
  | distributionNotAnObject (metric : String)
  | notAText (metric : String) (field : String)
  | expressionNotAText (formula : String)
  | unknownType (category : String) (value : Value)
  | metricIdsNotIds (category : String)

def FormatFault.message : FormatFault → String
  | notAnObject => "Workbook must be an object"
  | notAList field => "'" ++ field ++ "' must be a list"
  | entryNotAnObject field => "Every entry of '" ++ field ++ "' must be an object"
  | missingId what => "Every " ++ what ++ " needs a non-empty string 'id'"
  | notANumber place value => place ++ " must be a number, got " ++ value.quoted
  | distributionNotAnObject metric =>
    "metric '" ++ metric ++ "': 'distribution' must be an object or null"
  | notAText metric field => "metric '" ++ metric ++ "': '" ++ field ++ "' must be a string"
  | expressionNotAText formula => "formula '" ++ formula ++ "': 'expression' must be a string"
  | unknownType category value =>
    "category '" ++ category ++ "': type must be one of " ++
      (Value.list (CategoryType.all.map fun type => .text type.name)).quoted ++ ", got " ++
      value.quoted
  | metricIdsNotIds category => "category '" ++ category ++ "': metricIds must be a list of ids"

/-- Why a payload is no workbook. -/
inductive PayloadError where
  | format (fault : FormatFault)
  /-- A whole number in it is beyond the range of doubles. -/
  | numberTooLarge
  /-- A name or a message would have to show a whole number that is too long. -/
  | notShown

/-- The fault of a value; if the value cannot be shown, that is the fault. -/
def PayloadError.about (value : Value) (fault : FormatFault) : PayloadError :=
  if value.isShown then format fault else notShown

namespace Workbook

/-! ## §2 Parts -/

/-- Fields of an object by name. -/
abbrev Fields := List (String × Value)

/-- The fields of every entry of a list of objects; anything that is empty or zero stands for an
empty list. -/
def entries (fields : Fields) (field : String) : Except PayloadError (List Fields) :=
  let value := Value.fieldOrNull fields field
  if !value.isTruthy then .ok []
  else match value with
    | .list items => items.mapM fun item => match item with
      | .object entry => .ok entry
      | _ => .error (.format (.entryNotAnObject field))
    | _ => .error (.format (.notAList field))

/-- The id of an entry, without blanks around it. -/
def requireId (fields : Fields) (what : String) : Except PayloadError String :=
  match Value.fieldOrNull fields "id" with
  | .text id =>
    let id := Text.strip id
    if id.isEmpty then .error (.format (.missingId what)) else .ok id
  | _ => .error (.format (.missingId what))

/-- The name of an entry: what is given unless it is empty, or else the id. -/
def nameOr (fields : Fields) (id : String) : Except PayloadError String :=
  let name := Value.fieldOrNull fields "name"
  if !name.isTruthy then .ok id
  else if name.isShown then .ok name.plain
  else .error .notShown

def number? (value : Value) (place : String) : Except PayloadError (Option Float) :=
  match value with
  | .null => .ok none
  | value => match value.number with
    | .ok x => .ok (some x)
    | .error .tooLarge => .error .numberTooLarge
    | .error .notANumber => .error (.about value (.notANumber place value))

/-- A bound of an estimate; a missing one is no number. -/
def bound (fields : Fields) (field place : String) : Except PayloadError Float := do
  let x ← number? (Value.fieldOrNull fields field) (place ++ "." ++ field)
  .ok (x.getD (0.0 / 0.0))

def textOrNull (fields : Fields) (metric field : String) : Except PayloadError (Option String) :=
  match Value.fieldOrNull fields field with
  | .null => .ok none
  | .text s => .ok (some s)
  | _ => .error (.format (.notAText metric field))

/-! ## §3 Entries -/

def distribution? (fields : Fields) (metric : String) :
    Except PayloadError (Option (Distribution Float)) :=
  match Value.fieldOrNull fields "distribution" with
  | .null => .ok none
  | .object bounds => do
    let place := "metric '" ++ metric ++ "'"
    let low ← bound bounds "min" place
    let mode ← bound bounds "mode" place
    let high ← bound bounds "max" place
    .ok (some ⟨low, mode, high⟩)
  | _ => .error (.format (.distributionNotAnObject metric))

def metricOf (fields : Fields) : Except PayloadError Metric := do
  let id ← requireId fields "metric"
  let distribution ← distribution? fields id
  let formula ← textOrNull fields id "formula"
  let unit ← textOrNull fields id "unit"
  let name ← nameOr fields id
  let value ← number? (Value.fieldOrNull fields "value") ("metric '" ++ id ++ "'.value")
  .ok {
    id, name, unit, value, distribution, formula
    categoryId := Value.firstField fields ["categoryId", "category_id"]
    description := Value.fieldOrNull fields "description" }

def formulaOf (fields : Fields) : Except PayloadError NamedFormula := do
  let id ← requireId fields "formula"
  match Value.fieldOrNull fields "expression" with
  | .text expression => (nameOr fields id).map fun name => { id, expression, name }
  | _ => .error (.format (.expressionNotAText id))

def typeOf? (value : Value) : Option CategoryType :=
  CategoryType.all.find? fun type => value.text? == some type.name

def categoryOf (fields : Fields) : Except PayloadError Category := do
  let id ← requireId fields "category"
  let given := Value.fieldOrNull fields "type"
  match typeOf? given with
  | none => .error (.about given (.unknownType id given))
  | some type =>
    let listed := Value.firstField fields ["metricIds", "metric_ids"]
    match if listed.isTruthy then listed.texts? else some [] with
    | none => .error (.format (.metricIdsNotIds id))
    | some metricIds =>
      (nameOr fields id).map fun name =>
        { id, name, type, metricIds, description := Value.fieldOrNull fields "description" }

/-- Reads a workbook: its metrics, then its formulas, then its categories. -/
def ofValue : Value → Except PayloadError Workbook
  | .object fields => do
    let metrics ← (← entries fields "metrics").mapM metricOf
    let formulas ← (← entries fields "formulas").mapM formulaOf
    let categories ← (← entries fields "categories").mapM categoryOf
    .ok { metrics, formulas, categories }
  | _ => .error (.format .notAnObject)

end Workbook

end BusinessCase
