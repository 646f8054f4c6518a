/-
BusinessCase.Log — records, and the loggers that write them to a file.

A logger is configured once, the first time it is asked for; it has a level
below which it writes nothing. Above a logger stand those whose names are cut
off its own at a point, as far as they are in use, and above all of them the
top logger. A logger without a level takes that of the nearest logger above it
that has one, and a record goes to the files of all loggers above it too.

  §1 Levels  — names and numbers.
  §2 Records — what an operation reports.
  §3 Names   — the loggers above a logger.
  §4 Loggers — `Journal`, its configuration and its lines.
-/
import BusinessCase.Table
import BusinessCase.Text.Case
import BusinessCase.Text.Quoted

namespace BusinessCase

/-! ## §1 Levels -/

namespace Log

/-- Named levels; of two names for one number the first is written. -/
def levels : List (String × Int) :=
  [("CRITICAL", 50), ("FATAL", 50), ("ERROR", 40), ("WARNING", 30), ("WARN", 30), ("INFO", 20),
   ("DEBUG", 10), ("NOTSET", 0)]

/-- The level of a logger that is given a name that is none. -/
def defaultLevel : Int := 20

/-- The level of the top logger until it is configured. -/
def topLevel : Int := 30

/-- Why a name of a level is refused. -/
inductive LevelFault where
  /-- The name stands for a text that is no level. -/
  | unknown (text : String)
  /-- The name stands for something that is no text either. -/
  | kind

def unknownLevelText (text : String) : String := "Unknown level: " ++ Text.quoted text

def basicFormat : String := "%(levelname)s:%(name)s:%(message)s"

/-- The number of a level, whatever the case of its name. Two names are taken: by the basic
format, and by the table of styles. -/
def levelOf (name : String) : Except LevelFault Int :=
  let name := Text.upper name
  if name = "BASIC_FORMAT" then .error (.unknown basicFormat)
  else if name = "_STYLES" then .error .kind
  else .ok ((levels.lookup name).getD defaultLevel)

def levelName (level : Int) : String :=
  match levels.find? fun entry => entry.2 = level with
  | some entry => entry.1
  | none => "Level " ++ toString level

/-! ## §2 Records -/

/-- What an operation reports. -/
structure Record where
  level : String
  logger : String
  message : String

def warning (logger message : String) : Record := ⟨"WARNING", logger, message⟩

def error (logger message : String) : Record := ⟨"ERROR", logger, message⟩

/-- The text of a record in a log file, without its time. -/
def entry (level : Int) (logger message : String) : String :=
  let name := levelName level
  name ++ String.ofList (List.replicate (8 - name.length) ' ') ++ " | " ++ logger ++ " | " ++
    message

/-- A line of a log file. Only the first line of a record has a time, which is left out here. -/
inductive Line where
  | first (text : String)
  | further (text : String)

def lineEnds : List Nat := [0xa, 0xb, 0xc, 0xd, 0x1c, 0x1d, 0x1e, 0x85, 0x2028, 0x2029]

/-- The lines of a text that starts with the line read so far, newest character first; a return and
a feed end one line together. -/
def linesFrom (current : List Char) : List Char → List String
  | [] => [String.ofList current.reverse]
  | '\r' :: '\n' :: rest => String.ofList current.reverse :: linesFrom [] rest
  | c :: rest =>
    if lineEnds.contains c.toNat then String.ofList current.reverse :: linesFrom [] rest
    else linesFrom (c :: current) rest

/-- The lines that a record adds to a file. A text with half a character cannot be written. -/
def linesOf (entry : String) : List Line :=
  if (Text.codes entry.toList).any Text.isSurrogate then []
  else match linesFrom [] entry.toList with
    | [] => []
    | text :: others => .first text :: others.map .further

/-! ## §3 Names -/

def topName : String := "root"

/-- The name under which a logger is known; without a name it is the top logger. -/
def knownName (name : String) : String := if name.isEmpty then topName else name

/-- A name, given in reverse, up to its last point; nothing where no point has anything before
it. -/
def beforePoint? (reversed : List Char) : Option (List Char) :=
  match reversed.dropWhile (· != '.') with
  | _ :: rest => if rest.isEmpty then none else some rest
  | [] => none

/-- The names above a name that is given in reverse, nearest first. Of points that stand
together only the last counts. -/
def namesAbove : (rounds : Nat) → List Char → List (List Char)
  | 0, _ => []
  | rounds + 1, reversed =>
    match beforePoint? reversed with
    | none => []
    | some shorter => shorter :: namesAbove rounds (shorter.drop 1)

/-- The names above a name, nearest first, without the top. -/
def above (name : String) : List String :=
  let names := (namesAbove name.length name.toList.reverse).map fun reversed =>
    String.ofList reversed.reverse
  names.filter (· != topName)

end Log

/-! ## §4 Loggers -/

/-- A configured logger. -/
structure Logger where
  level : Int
  /-- Does it write to the file, besides the console? -/
  toFile : Bool

/-- How many places a logger writes to. -/
def Logger.handlers (logger : Logger) : Nat := if logger.toFile then 2 else 1

/-- The configured loggers, the names of all loggers in use, and the lines of the log file. -/
structure Journal where
  loggers : Table Logger := []
  inUse : List String := []
  lines : List Log.Line := []

namespace Journal

/-- A journal in which the logger of that name is in use. -/
def enlist (journal : Journal) (name : String) : Journal :=
  if journal.inUse.contains name then journal
  else { journal with inUse := name :: journal.inUse }

/-- The logger of that name, configured as asked unless it already is. A level that is refused
matters only if it is asked for. -/
def get (journal : Journal) (name : String) (level : Except Log.LevelFault Int) (toFile : Bool) :
    Except Log.LevelFault (Logger × Journal) :=
  let name := Log.knownName name
  match journal.loggers.find? name with
  | some logger => .ok (logger, journal)
  | none => level.map fun level =>
    let logger : Logger := ⟨level, toFile⟩
    (logger, { journal.enlist name with loggers := journal.loggers.set name logger })

/-- The loggers in use above one that is not the top, nearest first. -/
def ancestors (journal : Journal) : (rounds : Nat) → String → List String
  | 0, _ => []
  | rounds + 1, name =>
    match (Log.above name).find? journal.inUse.contains with
    | some parent => parent :: journal.ancestors rounds parent
    | none => []

/-- A logger, the loggers in use above it, nearest first, and the top. Each name is shorter than the
one below it. -/
def lineage (journal : Journal) (name : String) : List String :=
  if name = Log.topName then [name]
  else name :: journal.ancestors name.length name ++ [Log.topName]

/-- The level from which on a logger writes. -/
def effectiveLevel (journal : Journal) (name : String) : Int :=
  let own (name : String) : Option Int :=
    match journal.loggers.find? name with
    | some logger => if logger.level = 0 then none else some logger.level
    | none => if name = Log.topName then some Log.topLevel else none
  ((journal.lineage name).findSome? own).getD 0

/-- Logs a message: one entry for every logger of the lineage that writes to the file. -/
def log (journal : Journal) (name : String) (level : Int) (message : String) : Journal :=
  let name := Log.knownName name
  let journal := journal.enlist name
  if level ≤ 0 || level < journal.effectiveLevel name then journal
  else
    let files := (journal.lineage name).filter fun n =>
      (journal.loggers.find? n).any (·.toFile)
    let lines := files.flatMap fun _ => Log.linesOf (Log.entry level name message)
    { journal with lines := journal.lines ++ lines }

end Journal

end BusinessCase
