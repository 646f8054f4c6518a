/-
BusinessCase.Value — data as a request carries it.

A payload is untyped until it has been read: a number where an id belongs, a
list where a number belongs. `Value` holds it as it came, whole numbers apart
from decimals, fields in the order they were given, no field name twice.

  §1 Type     — `Value`, field look-up, truth.
  §2 Numbers  — `Value.number`, the double a value stands for.
  §3 Showing  — `Value.quoted` for messages, `Value.plain` for names.
-/
import BusinessCase.Decimal.Shortest
import BusinessCase.Table
import BusinessCase.Text.Quoted

namespace BusinessCase

/-! ## §1 Type -/

/-- A piece of payload. -/
inductive Value where
  | null
  | bool (b : Bool)
  | int (n : Int)
  | float (x : Float)
  | text (s : String)
  | list (items : List Value)
  | object (fields : List (String × Value))
  deriving Inhabited

namespace Value

def field? (fields : List (String × Value)) (name : String) : Option Value :=
  Table.find? fields name

/-- The field of that name, `null` where it is missing. -/
def fieldOrNull (fields : List (String × Value)) (name : String) : Value :=
  (field? fields name).getD .null

/-- The first of the named fields that is there, even if it holds `null`. -/
def firstField (fields : List (String × Value)) (names : List String) : Value :=
  (names.findSome? (field? fields)).getD .null

/-- Everything but `null`, `false`, zero and what is empty. -/
def isTruthy : Value → Bool
  | null => false
  | bool b => b
  | int n => n != 0
  | float x => x != 0.0
  | text s => !s.isEmpty
  | list items => !items.isEmpty
  | object fields => !fields.isEmpty

def isTruthValue : Value → Bool
  | bool _ => true
  | _ => false

def text? : Value → Option String
  | text s => some s
  | _ => none

/-- The texts of a list that holds nothing else. -/
def texts? : Value → Option (List String)
  | list items => items.mapM text?
  | _ => none

/-- Lists and objects can be changed, so they are no keys of a look-up. -/
def isKey : Value → Bool
  | list _ | object _ => false
  | _ => true

def kindName : Value → String
  | null => "NoneType"
  | bool _ => "bool"
  | int _ => "int"
  | float _ => "float"
  | text _ => "str"
  | list _ => "list"
  | object _ => "dict"

/-! ## §2 Numbers -/

/-- Why a value has no double. -/
inductive NumberFault where
  /-- The whole number is beyond the largest finite double. -/
  | tooLarge
  /-- The value is no number; truth values are none. -/
  | notANumber

/-- The double nearest to a whole number, unless that would be infinite. -/
def ofInt? (n : Int) : Option Float :=
  let x := Decimal.nearestInt n
  if x.isInf then none else some x

def number : Value → Except NumberFault Float
  | int n => match ofInt? n with
    | some x => .ok x
    | none => .error .tooLarge
  | float x => .ok x
  | _ => .error .notANumber

/-! ## §3 Showing -/

mutual

/-- The value as messages show it: texts in quotes, decimals in their exact text. -/
def quoted : Value → String
  | null => "None"
  | bool true => "True"
  | bool false => "False"
  | int n => toString n
  | float x => Decimal.exact x
  | text s => Text.quoted s
  | list items => "[" ++ ", ".intercalate (quotedItems items) ++ "]"
  | object fields => "\x7b" ++ ", ".intercalate (quotedFields fields) ++ "\x7d"

def quotedItems : List Value → List String
  | [] => []
  | item :: rest => quoted item :: quotedItems rest

def quotedFields : List (String × Value) → List String
  | [] => []
  | (name, value) :: rest => (Text.quoted name ++ ": " ++ quoted value) :: quotedFields rest

end

/-- The value as a bare text: a text is itself, all else is shown as in messages. -/
def plain : Value → String
  | text s => s
  | value => value.quoted

end Value

end BusinessCase
