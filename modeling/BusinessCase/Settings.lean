/-
BusinessCase.Settings — every adjustable number and word.

A setting is given outright, or taken from an environment variable, or left at
its default. An empty variable counts as missing. What is given outright is
kept in the form in which it was given, and is of any kind; only the rules
that settings keep by themselves are checked here.

  §1 Errors      — `SettingsError`.
  §2 Environment — variables as whole numbers, decimals and switches.
  §3 Given       — settings given outright, by name.
  §4 Horizon     — `HorizonSettings`.
  §5 Engine      — limits, and the settings of a run.
  §6 Service     — where the service listens, and what is logged.
-/
import BusinessCase.Formula.Limits
import BusinessCase.Scalar.Binary64
import BusinessCase.Simulation.Run
import BusinessCase.Value.Shown
import BusinessCase.Value.Whole

namespace BusinessCase

/-! ## §1 Errors -/

/-- Why settings are refused. -/
inductive SettingsError where
  | numeral (fault : NumeralFault)
  | batchSizeNotPositive
  | workersNotPositive
  | unknownExecutor (given : Value)
  /-- Benefits and costs spread over different years. -/
  | yearsDiffer
  | noYears
  /-- There is no setting of that name. -/
  | unknownName (name : String)
  /-- A setting is of a kind that its rule cannot be held against. -/
  | wrongKind (name : String)

def SettingsError.message : SettingsError → String
  | numeral fault => fault.message
  | batchSizeNotPositive => "batch_size must be positive"
  | workersNotPositive => "workers must be positive"
  | unknownExecutor given =>
    if given.isShown then "executor must be 'process' or 'thread', got " ++ given.quoted
    else Value.unshownText
  | yearsDiffer => "growth and efficiency multipliers must cover the same years"
  | noYears => "horizon must cover at least one year"
  | unknownName name => "no setting is named " ++ Text.quoted name
  | wrongKind name => "a value of this kind is no use as " ++ name

/-! ## §2 Environment -/

/-- Environment variables by name. -/
abbrev Environment := Table String

namespace Environment

/-- A variable that is there and not empty. -/
def filled? (env : Environment) (name : String) : Option String :=
  (env.find? name).filter (!·.isEmpty)

def int? (env : Environment) (name : String) : Except SettingsError (Option Int) :=
  match env.filled? name with
  | none => .ok none
  | some text => match (Value.text text).truncate with
    | .ok n => .ok (some n)
    | .error fault => .error (.numeral fault)

def int (env : Environment) (name : String) (default : Int) : Except SettingsError Int :=
  (env.int? name).map (·.getD default)

def decimal (env : Environment) (name : String) (default : Float) : Except SettingsError Float :=
  match env.filled? name with
  | none => .ok default
  | some text => match (Value.text text).readDecimal with
    | .ok x => .ok x
    | .error fault => .error (.numeral fault)

/-- A switch, which is on for a few words, or a default. -/
def switch (env : Environment) (name : String) (default : Bool) : Bool :=
  match env.filled? name with
  | none => default
  | some text => ["1", "true", "yes", "on"].contains (Text.lower (Text.strip text))

/-- A word, or a default; an empty word counts. -/
def word (env : Environment) (name default : String) : String := (env.find? name).getD default

end Environment

/-! ## §3 Given -/

/-- Settings that are given outright, by name. -/
abbrev Given := List (String × Value)

namespace Given

/-- A setting that is given outright, or else found elsewhere. -/
def orElse (given : Given) (name : String) (other : Except SettingsError Value) :
    Except SettingsError Value :=
  match Value.field? given name with
  | some value => .ok value
  | none => other

/-- A setting that is given outright, or else a variable with a whole number, or else a default. -/
def orInt (given : Given) (name : String) (env : Environment) (variableName : String)
    (default : Int) : Except SettingsError Value :=
  given.orElse name ((env.int variableName default).map .int)

/-- All names that are given are names of settings. -/
def checkNames (given : Given) (names : List String) : Except SettingsError Unit :=
  match given.find? fun field => !names.contains field.1 with
  | some field => .error (.unknownName field.1)
  | none => .ok ()

/-- The settings of a group that is given as an object, or none if the group is missing. -/
def group (given : Given) (name : String) : Except SettingsError Given :=
  match Value.field? given name with
  | none | some .null => .ok []
  | some (.object fields) => .ok fields
  | some _ => .error (.wrongKind name)

end Given

/-! ## §4 Horizon -/

/-- How a year's flows spread over the years, in the form in which it was given. -/
structure HorizonSettings where
  growth : List Value
  efficiency : List Value
  discountRate : Value
  rateId : Value

namespace HorizonSettings

def names : List String := ["growth", "efficiency", "default_discount_rate", "discount_rate_id"]

def years (h : HorizonSettings) : Nat := h.growth.length

def months (h : HorizonSettings) : Nat := 12 * h.years

/-- Three years of growing benefits and falling costs. -/
def defaultGrowth : List Value := [.float 1.0, .float 1.07, .float 1.15]

/-- Factors on the costs of three years. -/
def defaultEfficiency : List Value := [.float 1.0, .float 0.95, .float 0.9]

/-- The factors of a value: the items of a list, the characters of a text, the names of an
object. -/
def factors? : Value → Option (List Value)
  | .list items => some items
  | .text s => some ((Text.characters s).map .text)
  | .object fields => some (fields.map fun field => .text field.1)
  | .null | .bool _ | .int _ | .float _ => none

def factors (given : Given) (name : String) (default : List Value) :
    Except SettingsError (List Value) :=
  match Value.field? given name with
  | none => .ok default
  | some value => match factors? value with
    | some items => .ok items
    | none => .error (.wrongKind name)

/-- Reads the horizon: benefits and costs cover the same years, and at least one. -/
def read (env : Environment) (given : Given) : Except SettingsError HorizonSettings := do
  given.checkNames names
  let discountRate ←
    given.orElse "default_discount_rate" ((env.decimal "ROI_DISCOUNT_RATE" 0.25).map .float)
  let rateId ← given.orElse "discount_rate_id" (.ok (.text "discount_rate"))
  let growth ← factors given "growth" defaultGrowth
  let efficiency ← factors given "efficiency" defaultEfficiency
  if growth.length ≠ efficiency.length then .error .yearsDiffer
  else if growth.isEmpty then .error .noYears
  else .ok { growth, efficiency, discountRate, rateId }

/-- A factor on the flows of a year; truth values count as zero and one. -/
def factorOf : Value → Except HorizonFault Float
  | .bool b => .ok (if b then 1.0 else 0.0)
  | value => value.number.mapError .number

def faultAmong (factors : List Value) : Option HorizonFault :=
  factors.findSome? fun value => match factorOf value with
    | .ok _ => none
    | .error fault => some fault

/-- The factors in doubles; what stands for a faulty one is never used. -/
def doubles (factors : List Value) : List Float :=
  factors.map fun value => match factorOf value with
    | .ok x => x
    | .error _ => Scalar.nan

/-- The horizon in doubles, with what keeps trials from using it. -/
def horizon (h : HorizonSettings) : Horizon Float :=
  { growth := doubles h.growth
    efficiency := doubles h.efficiency
    defaultRate := factorOf h.discountRate
    rateId := h.rateId.text?
    fault := ((faultAmong h.growth).or (faultAmong h.efficiency)).or
      (if h.rateId.isKey then none else some .unusableId)
    given := [.list h.growth, .list h.efficiency, h.discountRate, h.rateId] }

end HorizonSettings

/-! ## §5 Engine -/

def limitNames : List String := ["max_expression_length", "max_nesting", "max_depth"]

def readLimits (env : Environment) (given : Given) : Except SettingsError Formula.Limits := do
  given.checkNames limitNames
  let expressionLength ←
    given.orInt "max_expression_length" env "ROI_MAX_EXPRESSION_LENGTH" 4000
  let nesting ← given.orInt "max_nesting" env "ROI_MAX_NESTING" 64
  let depth ← given.orInt "max_depth" env "ROI_MAX_DEPTH" 256
  .ok { expressionLength, nesting, depth }

def Executor.name : Executor → String
  | process => "process"
  | thread => "thread"

/-- The settings of a run. -/
structure Settings where
  iterations : Value
  maxIterations : Value
  seed : Value
  batchSize : Value
  workers : Value
  executor : Executor
  checkInterval : Value
  /-- Seconds between two looks of a waiting run at its token. -/
  pollSeconds : Value
  topK : Value
  horizon : HorizonSettings
  limits : Formula.Limits

namespace Settings

def names : List String :=
  ["iterations", "max_iterations", "seed", "batch_size", "workers", "executor", "check_interval",
   "poll_seconds", "top_k", "horizon", "limits"]

def executorOf? (given : Value) : Option Executor :=
  [Executor.process, .thread].find? fun e => given.text? == some e.name

/-- A count of at least one; what is no number cannot be compared with one. -/
def checkPositive (name : String) (value : Value) (refused : SettingsError) :
    Except SettingsError Unit :=
  match value.below? (.int 1) with
  | some true => .error refused
  | some false => .ok ()
  | none => .error (.wrongKind name)

/-- Reads the settings. A horizon or limits that are given outright are looked at before anything
else, and the rules that settings keep after everything else. -/
def read (env : Environment) (given : Given) : Except SettingsError Settings := do
  let horizonGiven ← given.group "horizon"
  if (Value.field? given "horizon").isSome then
    let _ ← HorizonSettings.read env horizonGiven
  let limitsGiven ← given.group "limits"
  if (Value.field? given "limits").isSome then
    let _ ← readLimits env limitsGiven
  given.checkNames names
  let iterations ← given.orInt "iterations" env "ROI_ITERATIONS" 5000
  let maxIterations ← given.orInt "max_iterations" env "ROI_MAX_ITERATIONS" 200000
  let seed ← given.orElse "seed" ((env.int? "ROI_SEED").map fun n => n.elim .null .int)
  let batchSize ← given.orInt "batch_size" env "ROI_BATCH_SIZE" 1000
  let workers ← given.orInt "workers" env "ROI_WORKERS" 1
  let executorGiven ← given.orElse "executor" (.ok (.text (env.word "ROI_EXECUTOR" "process")))
  let checkInterval ← given.orElse "check_interval" (.ok (.int 250))
  let pollSeconds ← given.orElse "poll_seconds" (.ok (.float 0.05))
  let topK ← given.orInt "top_k" env "ROI_TOP_K" 8
  let horizon ← HorizonSettings.read env horizonGiven
  let limits ← readLimits env limitsGiven
  checkPositive "batch_size" batchSize .batchSizeNotPositive
  checkPositive "workers" workers .workersNotPositive
  match executorOf? executorGiven with
  | none => .error (.unknownExecutor executorGiven)
  | some executor =>
    .ok { iterations, maxIterations, seed, batchSize, workers, executor, checkInterval,
          pollSeconds, topK, horizon, limits }

/-- The settings for what is done from within, where so many places of the stack more are taken. -/
def inside (places : Nat) (s : Settings) : Settings := { s with limits := s.limits.inside places }

/-- The workers of a run, given as a number of at least one. -/
def workerCount (s : Settings) : Workers :=
  match s.workers with
  | .int n => .whole n.toNat
  | .float x => .decimal x
  | _ => .whole 1

def interval (s : Settings) : Interval :=
  match s.checkInterval with
  | .int n => .whole n
  | .bool b => .whole (if b then 1 else 0)
  | .float x => .decimal x
  | _ => .unusable

/-- How the trials of a run are spread over batches of the given size. -/
def schedule (s : Settings) (batchSize : Nat) : Schedule :=
  { batchSize, workers := s.workerCount, executor := s.executor, checkInterval := s.interval }

/-- How many inputs the ranking lists, or all; nothing where the setting is no whole number. -/
def rankingSize? (s : Settings) : Option (Option Int) :=
  match s.topK with
  | .null => some none
  | .int n => some (some n)
  | .bool b => some (some (if b then 1 else 0))
  | _ => none

end Settings

/-! ## §6 Service -/

/-- Where the service listens. -/
structure ServiceSettings where
  host : String
  port : Int
  debug : Bool

def ServiceSettings.read (env : Environment) : Except SettingsError ServiceSettings := do
  let port ← env.int "ROI_API_PORT" 5000
  .ok { host := env.word "ROI_API_HOST" "127.0.0.1", port
        debug := env.switch "ROI_API_DEBUG" false }

/-- What is logged, and where besides the console. -/
structure LogSettings where
  level : String
  directory : Option String

def LogSettings.read (env : Environment) : LogSettings :=
  { level := env.word "ROI_LOG_LEVEL" "INFO", directory := env.filled? "ROI_LOG_DIR" }

end BusinessCase
