/-
BusinessCase.Value.Whole — whole numbers out of payload values.

`truncate` takes whatever stands for a number and cuts off its fraction;
`readDecimal` takes whatever stands for a decimal.
-/
import BusinessCase.Decimal.Numeral
import BusinessCase.Value

namespace BusinessCase

/-- Why a value does not give a number. -/
inductive NumeralFault where
  /-- Text that is not the spelling of a whole number. -/
  | integer (text : String) (fault : Decimal.IntegerFault)
  /-- Text that is not the spelling of a whole number in hexadecimal digits. -/
  | hexadecimal (text : String)
  /-- Text that is not the spelling of a decimal. -/
  | decimal (text : String)
  /-- No number at all has no whole part. -/
  | noNumber
  /-- An infinite number has no whole part, and a whole number may be too large for a double. -/
  | tooLarge
  /-- The value is of a kind that never gives a number. -/
  | kind (name : String)

/-- What is said about a text that spells no whole number; a long text is shown in part. -/
def NumeralFault.malformedText (base : Nat) (text : String) : String :=
  "invalid literal for int() with base " ++ toString base ++ ": " ++
    String.ofList ((Text.quoted text).toList.take 200)

def NumeralFault.message : NumeralFault → String
  | integer text .malformed => malformedText 10 text
  | hexadecimal text => malformedText 16 text
  | integer _ (.tooManyDigits count) =>
    "Exceeds the limit (" ++ toString Decimal.maxIntegerDigits ++
      " digits) for integer string conversion: value has " ++ toString count ++
      " digits; use sys.set_int_max_str_digits() to increase the limit"
  | decimal text => "could not convert string to float: " ++ Text.quoted text
  | noNumber => "cannot convert float NaN to integer"
  | tooLarge => "int too large to convert to float"
  | kind name => "float() argument must be a string or a real number, not '" ++ name ++ "'"

namespace Value

def wholePart (x : Float) : Except NumeralFault Int :=
  match Decimal.decode x with
  | .notANumber => .error .noNumber
  | .infinite _ => .error .tooLarge
  | .finite d =>
    let (num, den) := d.ratio
    let whole : Int := num / den
    .ok (if d.negative then -whole else whole)

def isWhole (x : Float) : Bool :=
  match Decimal.decode x with
  | .finite d => d.ratio.1 % d.ratio.2 == 0
  | _ => false

/-- The whole number that a value stands for, its fraction cut off. -/
def truncate : Value → Except NumeralFault Int
  | int n => .ok n
  | bool b => .ok (if b then 1 else 0)
  | float x => wholePart x
  | text s => (Decimal.readInt s).mapError (.integer s)
  | value => .error (.kind value.kindName)

def readDecimal : Value → Except NumeralFault Float
  | int n => match ofInt? n with
    | some x => .ok x
    | none => .error .tooLarge
  | bool b => .ok (if b then 1.0 else 0.0)
  | float x => .ok x
  | text s => match Decimal.readFloat? s with
    | some x => .ok x
    | none => .error (.decimal s)
  | value => .error (.kind value.kindName)

end Value

end BusinessCase
