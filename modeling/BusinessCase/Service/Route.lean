/-
BusinessCase.Service.Route — what the target of a request leads to.

A target may name a scheme and an authority, a query and a fragment besides
its path; none of them matters. Escaped characters of the path are read once,
and slashes in front count as one. Files lie beside the handlers, but they are
not there for requests that carry data.

  §1 Targets — the path of a target.
  §2 Escapes — characters written by their number.
  §3 Routes  — `Route`, `Route.ofTarget`.
-/
import BusinessCase.Value.Reader

namespace BusinessCase.Service

/-! ## §1 Targets -/

/-- What is left of a target without controls and blanks in front and breaks anywhere. -/
def cleanTarget (cs : List Char) : List Char :=
  (cs.dropWhile (·.toNat ≤ 0x20)).filter fun c => c != '\t' && c != '\n' && c != '\r'

def isSchemeChar (c : Char) : Bool := c.isAlphanum || c = '+' || c = '-' || c = '.'

/-- The target behind its scheme, if it has one: a letter, further scheme characters, a colon. -/
def afterScheme (cs : List Char) : List Char :=
  let scheme := cs.takeWhile (· != ':')
  match cs.dropWhile (· != ':') with
  | [] => cs
  | _ :: rest => if scheme.head?.any Char.isAlpha && scheme.all isSchemeChar then rest else cs

/-- The target behind its authority, if it has one: two slashes, and all up to the next mark. -/
def afterAuthority : List Char → List Char
  | '/' :: '/' :: rest => rest.dropWhile fun c => c != '/' && c != '?' && c != '#'
  | cs => cs

/-- The path of a target: what is left before a query and a fragment. -/
def pathOf (target : List Char) : List Char :=
  (afterAuthority (afterScheme (cleanTarget target))).takeWhile fun c => c != '?' && c != '#'

/-! ## §2 Escapes -/

/-- The character of an escaped byte. Larger bytes are parts of characters that no route has, and
stand for the replacement character. -/
def escapedChar (byte : Nat) : Char := if byte < 128 then Char.ofNat byte else '\ufffd'

/-- Reads every per cent sign with two hexadecimal digits as a character. -/
def unescaped : List Char → List Char
  | '%' :: a :: b :: rest =>
    match Value.hexValue? a, Value.hexValue? b with
    | some high, some low => escapedChar (16 * high + low) :: unescaped rest
    | _, _ => '%' :: unescaped (a :: b :: rest)
  | c :: rest => c :: unescaped rest
  | [] => []

/-! ## §3 Routes -/

/-- What a request can lead to. -/
inductive Route where
  | validateExpression
  | validateWorkbook
  | runSimulation
  /-- A file, which takes no data. -/
  | file
  | nowhere
  deriving DecidableEq

/-- Replaces two slashes that stand together by one, from the left. -/
def mergeSlashes : List Char → List Char
  | '/' :: '/' :: rest => '/' :: mergeSlashes rest
  | c :: rest => c :: mergeSlashes rest
  | [] => []

/-- The name of a file: it starts with no slash, and does not go on with a line break. -/
def isFileName : List Char → Bool
  | [] => false
  | c :: rest => c != '/' && !rest.contains '\n'

def isFilePath (path : List Char) : Bool :=
  match Value.afterWord? "static/".toList path with
  | some name => isFileName name
  | none => false

def Route.ofPath (path : List Char) : Route :=
  if path = "validate_expression".toList then validateExpression
  else if path = "validate_workbook".toList then validateWorkbook
  else if path = "run_simulation".toList then runSimulation
  else if isFilePath path || isFilePath (mergeSlashes path) then file
  else nowhere

/-- The route of a target. Its path is taken as a target once more before escapes are read. -/
def Route.ofTarget (target : String) : Route :=
  let path := unescaped (pathOf (pathOf target.toList))
  ofPath (path.dropWhile (· = '/'))

end BusinessCase.Service
