/-
BusinessCase.Proofs.Service.Answers — which requests are answered.

An answer carries data without an error, or says what is wrong. A few requests
get neither: their data are nested too deep, a number in them has no double, a
category id cannot be looked up, the limits admit a formula that the stack has
no room for, or the seed of a report cannot be written. All others are answered.

  §1 Answers    — `Response.Answers`, and the shapes that answers have.
  §2 Checking   — formulas and workbooks.
  §3 Parameters — counts, seeds and time limits.
  §4 Simulation — reports and failures.
  §5 Whole      — `handle_answers`.
-/
import BusinessCase.Proofs.Settings
import BusinessCase.Proofs.Validation.Faults
import BusinessCase.Proofs.Workbook.Payload
import BusinessCase.Service.Handlers

namespace BusinessCase.Service

open Formula

variable {env : Environment} {settings : Settings} {fields : List (String × Value)} {r : Response}

/-! ## §1 Answers -/

/-- The answer carries data, and none of its fields is an error. -/
structure Response.Succeeds (r : Response) : Prop where
  status : r.status = 200
  body : ∃ given, r.body.toValue? = some (.object given) ∧ Value.field? given "error" = none

/-- The answer names the kind of an error, says what is wrong, and may add to that. -/
structure Response.Refuses (r : Response) : Prop where
  status : r.status ∈ [400, 408, 409, 500]
  body : ∃ kind message details, r.body.toValue? = some (.object [("ok", .bool false),
    ("error", .object (("kind", .text kind) :: ("message", .text message) :: details))])

def Response.Answers (r : Response) : Prop := r.Succeeds ∨ r.Refuses

theorem Response.not_answers_of_none (none : r.body.toValue? = none) : ¬ r.Answers := by
  rintro (⟨-, given, body, -⟩ | ⟨-, kind, message, details, body⟩) <;>
    · rw [none] at body
      cases body

theorem not_answers_unforeseen : ¬ unforeseen.Answers := Response.not_answers_of_none rfl

theorem answers_badRequest (message : String) : (badRequest message).Answers :=
  .inr ⟨by simp [badRequest, refuse], _, message, [], rfl⟩

theorem answers_error {status : Nat} (among : status ∈ [400, 408, 409, 500]) (e : EngineError)
    (log : List Log.Record) : (refuse status e.toValue log).Answers :=
  .inr ⟨among, e.kind, e.message, e.details, rfl⟩

theorem answers_issue (issue : Issue) : (refuse 400 issue.toValue).Answers :=
  .inr ⟨by simp [refuse], _, _, _, rfl⟩

theorem answers_refusePayload {e : PayloadError} (format : e.IsFormat) :
    (refusePayload e).Answers := by
  obtain ⟨fault, rfl⟩ := format
  exact answers_error (by decide) _ []

/-! ## §2 Checking -/

/-- The formula is to be read, and its reading stops. -/
def FormulaStops (limits : Limits) (fields : List (String × Value)) : Prop :=
  ∃ known text, ((Value.field? fields "knownIds").getD (.list [])).texts? = some known ∧
    Value.fieldOrNull fields "expression" = .text text ∧
    checkStop? (limits.inside placesOfRequest) (some text) ≠ none

/-- The payload holds a number or a name that has no use, or its validation stops. -/
def PayloadStops (limits : Limits) (payload : Value) : Prop :=
  (∃ e, Workbook.ofValue payload = .error e ∧ ¬ e.IsFormat) ∨
    ∃ w, Workbook.ofValue payload = .ok w ∧ w.faults limits ≠ []

theorem answers_check (limits : Limits) (known : List String) (expression : Option String) :
    Response.Answers (match checkExpression limits known {} expression with
      | (_, some issue) => refuse 400 issue.toValue
      | (e, none) =>
        let names := sortedIds (e.elim [] Formula.Expr.references)
        { status := 200
          body := .value (.object
            [("ok", .bool true), ("references", .list (names.map .text))]) }) := by
  split
  · exact answers_issue _
  · exact .inl ⟨rfl, _, rfl, rfl⟩

/-- **A formula is checked unless its reading stops.** -/
theorem checkFormula_answers_iff (limits : readLimits env [] = .ok settings.limits) :
    (checkFormula env fields).Answers ↔ ¬ FormulaStops settings.limits fields := by
  unfold checkFormula FormulaStops
  dsimp only
  cases ids : ((Value.field? fields "knownIds").getD (.list [])).texts? with
  | none =>
    refine iff_of_true ?_ ?_
    · split
      · exact answers_badRequest _
      · exact answers_badRequest _
      · exact answers_badRequest _
    · rintro ⟨_, _, ⟨⟩, _⟩
  | some known =>
    cases given : Value.fieldOrNull fields "expression" with
    | text text =>
      dsimp only
      split
      · next blank =>
        refine iff_of_true (answers_check {} known (some text)) ?_
        rintro ⟨_, _, -, ⟨⟩, stops⟩
        have isBlank : Text.isAllBlank text = true := blank
        exact stops (by simp [checkStop?, Option.filter, isBlank])
      · rw [limits]
        dsimp only
        split
        · next stops =>
          refine iff_of_false not_answers_unforeseen (not_not_intro ?_)
          exact ⟨known, text, rfl, rfl, Option.isSome_iff_ne_none.mp stops⟩
        · next goesOn =>
          refine iff_of_true (answers_check _ known (some text)) ?_
          rintro ⟨_, _, -, ⟨⟩, stops⟩
          exact goesOn (Option.isSome_iff_ne_none.mpr stops)
    | null =>
      refine iff_of_true (answers_check {} known none) ?_
      rintro ⟨_, _, -, ⟨⟩, -⟩
    | bool | int | float | list | object =>
      refine iff_of_true (answers_badRequest _) ?_
      rintro ⟨_, _, -, ⟨⟩, -⟩

/-- **A workbook is validated, or its payload refused, unless that stops.** -/
theorem validateWorkbook_answers_iff (limits : readLimits env [] = .ok settings.limits) :
    (validateWorkbook env fields).Answers ↔
      ¬ PayloadStops (settings.limits.inside placesOfRequest)
        (Value.fieldOrNull fields "workbook") := by
  unfold validateWorkbook PayloadStops
  cases Workbook.ofValue (Value.fieldOrNull fields "workbook") with
  | error e =>
    dsimp only
    by_cases format : e.IsFormat
    · refine iff_of_true (answers_refusePayload format) ?_
      rintro (⟨_, ⟨⟩, other⟩ | ⟨_, ⟨⟩, _⟩)
      exact other format
    · refine iff_of_false ?_ (not_not_intro (.inl ⟨e, rfl, format⟩))
      cases e with
      | format fault => exact absurd ⟨fault, rfl⟩ format
      | numberTooLarge | notShown => exact not_answers_unforeseen
  | ok w =>
    simp only [limits]
    cases stop : w.faults (settings.limits.inside placesOfRequest) with
    | nil =>
      rw [validate_eq_ok_iff.mpr ⟨stop, rfl⟩]
      refine iff_of_true (.inl ⟨rfl, _, rfl, rfl⟩) ?_
      rintro (⟨_, ⟨⟩, _⟩ | ⟨_, ⟨⟩, stops⟩)
      exact stops stop
    | cons fault rest =>
      rw [Workbook.validate, stop]
      refine iff_of_false not_answers_unforeseen (not_not_intro (.inr ⟨w, rfl, ?_⟩))
      simp [stop]

/-! ## §3 Parameters -/

/-- Counts that make sense come with a time limit that has no double. -/
def TimeStops (fields : List (String × Value)) : Prop :=
  (∃ count, count? (Value.fieldOrNull fields "iterations") "iterations" = .ok count) ∧
    (∃ seed, seed? (Value.fieldOrNull fields "seed") = .ok seed) ∧
    ∃ n, Value.fieldOrNull fields "timeoutSeconds" = .int n ∧ Value.ofInt? n = none

theorem tokenFor_tooLarge_iff {timeout : Value} :
    tokenFor timeout = .error .tooLarge ↔ ∃ n, timeout = .int n ∧ Value.ofInt? n = none := by
  rw [tokenFor]
  cases timeout with
  | int n =>
    have zero : ∃ x, Value.ofInt? 0 = some x := ⟨_, rfl⟩
    obtain ⟨z, zero⟩ := zero
    cases double : Value.ofInt? n with
    | none =>
      have nonzero : n ≠ 0 := by
        rintro rfl
        rw [zero] at double
        cases double
      refine iff_of_true ?_ ⟨n, rfl, double⟩
      simp [Value.isTruthy, nonzero, Value.readDecimal, double, Except.map]
    | some x =>
      refine iff_of_false ?_ ?_
      · split <;> simp [Value.readDecimal, double, Except.map]
      · rintro ⟨_, ⟨⟩, none⟩
        rw [double] at none
        cases none
  | text s =>
    refine iff_of_false ?_ ?_
    · split
      · rw [Value.readDecimal]
        split <;> simp [Except.map]
      · simp
    · rintro ⟨_, ⟨⟩, -⟩
  | null | bool | float | list | object =>
    refine iff_of_false ?_ ?_
    · split <;> simp [Value.readDecimal, Except.map]
    · rintro ⟨_, ⟨⟩, -⟩

/-- A whole number lies within whole bounds, or it does not. -/
theorem exists_inRange? (a b : Int) : ∃ within, inRange? (.int a) (.int b) = some within := by
  have compared (a b : Int) : ∃ c, (Value.int a).atMost? (.int b) = some c := ⟨_, rfl⟩
  obtain ⟨low, first⟩ := compared 1 a
  rw [inRange?, first]
  cases low with
  | true => exact compared a b
  | false => exact ⟨false, rfl⟩

/-- The answer to parameters that make no sense is missing only where the time limit has no
double. -/
theorem parametersOf_error (iterations : ∃ n, settings.iterations = .int n)
    (maxIterations : ∃ n, settings.maxIterations = .int n)
    (refused : parametersOf settings fields = .error r) : r.Answers ↔ ¬ TimeStops fields := by
  unfold TimeStops
  rw [← tokenFor_tooLarge_iff]
  rcases bind_eq_error refused with noCount | ⟨count, counted, refused⟩
  · obtain ⟨reason, failed, rfl⟩ := mapError_eq_error noCount
    rw [failed]
    refine iff_of_true (answers_badRequest _) ?_
    rintro ⟨⟨_, ⟨⟩⟩, -⟩
  rcases bind_eq_error refused with noSeed | ⟨seed, seeded, refused⟩
  · obtain ⟨reason, failed, rfl⟩ := mapError_eq_error noSeed
    rw [failed]
    refine iff_of_true (answers_badRequest _) ?_
    rintro ⟨-, ⟨_, ⟨⟩⟩, -⟩
  rcases bind_eq_error refused with noToken | ⟨token, timed, refused⟩
  · obtain ⟨fault, failed, rfl⟩ := mapError_eq_error noToken
    rw [failed]
    cases fault with
    | tooLarge =>
      exact iff_of_false not_answers_unforeseen
        (not_not_intro ⟨⟨count, mapError_eq_ok counted⟩, ⟨seed, mapError_eq_ok seeded⟩, rfl⟩)
    | integer | hexadecimal | decimal | noNumber | kind =>
      refine iff_of_true (answers_badRequest _) ?_
      rintro ⟨-, -, ⟨⟩⟩
  · rw [mapError_eq_ok timed]
    refine iff_of_true ?_ (by rintro ⟨-, -, ⟨⟩⟩)
    obtain ⟨usual, iterations⟩ := iterations
    obtain ⟨greatest, maxIterations⟩ := maxIterations
    have whole : count.elim settings.iterations Value.int = .int (count.getD usual) := by
      cases count with
      | none => exact iterations
      | some n => rfl
    obtain ⟨within, range⟩ := exists_inRange? (count.getD usual) greatest
    simp only [whole, maxIterations, range] at refused
    cases within with
    | true => cases refused
    | false =>
      cases refused
      exact answers_badRequest _

theorem parametersOf_ok {p : Parameters} (made : parametersOf settings fields = .ok p) :
    seed? (Value.fieldOrNull fields "seed") = .ok p.seed ∧ ¬ TimeStops fields := by
  unfold TimeStops
  rw [← tokenFor_tooLarge_iff]
  obtain ⟨count, counted, made⟩ := bind_eq_ok made
  obtain ⟨seed, seeded, made⟩ := bind_eq_ok made
  obtain ⟨token, timed, made⟩ := bind_eq_ok made
  rw [mapError_eq_ok seeded, mapError_eq_ok timed]
  refine ⟨?_, by rintro ⟨-, -, ⟨⟩⟩⟩
  dsimp only at made
  split at made
  · cases made
    rfl
  · cases made
  · cases made

/-- A count can be shown where its value has a double: it is that whole number, or the whole part of
a decimal. -/
theorem isShown_of_count? {value : Value} {name : String} {n : Int} (fits : value.fits)
    (counted : count? value name = .ok (some n)) : (Value.int n).isShown := by
  unfold count? at counted
  dsimp only at counted
  cases value with
  | int k =>
    cases counted
    exact Value.isShown_of_fits fits
  | float x =>
    dsimp only at counted
    split at counted
    · split at counted
      · next whole =>
        cases counted
        exact Value.isShown_int_iff.mpr (Value.lt_shownBound_of_wholePart whole)
      · cases counted
    · cases counted
  | null | bool | text | list | object => cases counted

theorem count?_of_seed? {value : Value} {seed : Option Int} (read : seed? value = .ok seed) :
    count? value "seed" = .ok seed := by
  obtain ⟨n, counted, read⟩ := bind_eq_ok read
  split at read
  · cases read
  · cases read
    exact counted

/-! ## §4 Simulation -/

/-- The run that a request asks for ends with a report, about which this is said. -/
def Reports (settings : Settings) (entropy : List UInt32) (elapsed : Float)
    (fields : List (String × Value)) (metadata : Metadata) : Prop :=
  ∃ w p report, Workbook.ofValue (Value.fieldOrNull fields "workbook") = .ok w ∧
    parametersOf settings fields = .ok p ∧
    (simulate settings w p.iterations (p.seed.elim .null .int)
      (p.token.map fun token => token.signal elapsed) entropy).result = .ok (report, metadata)

/-- What keeps a simulation from being answered. -/
inductive SimulationStops (settings : Settings) (entropy : List UInt32) (elapsed : Float)
    (fields : List (String × Value)) : Prop where
  /-- A number of the workbook has no double. -/
  | number (tooLarge :
      Workbook.ofValue (Value.fieldOrNull fields "workbook") = .error .numberTooLarge)
  /-- The time limit has no double. -/
  | time {w : Workbook} (read : Workbook.ofValue (Value.fieldOrNull fields "workbook") = .ok w)
      (stops : TimeStops fields)
  /-- There is a report, but its seed is too long to be written. -/
  | seed {metadata : Metadata} (reports : Reports settings entropy elapsed fields metadata)
      (unshown : metadata.seed.isShown = false)

theorem answers_refuseFailure (timeout : Value) (log : List Log.Record) (failure : Failure) :
    (refuseFailure timeout log failure).Answers := by
  unfold refuseFailure
  split
  · exact answers_error (by decide) _ _
  · exact answers_error (by decide) _ _
  · exact answers_error (by decide) _ _
  · exact .inr ⟨by simp [internalError, refuse], _, _, [], rfl⟩

theorem answers_report (report : Report Float) (metadata : Metadata) (log : List Log.Record) :
    Response.Answers { status := 200, body := .report report metadata, log } :=
  .inl ⟨rfl, _, rfl, rfl⟩

/-- An outcome is answered unless it is a report whose seed cannot be written. -/
theorem answers_outcome_iff {outcome : SimulationOutcome} {timeout : Value} :
    Response.Answers (match outcome.result with
      | .ok (report, metadata) =>
        if metadata.seed.isShown then
          { status := 200, body := .report report metadata, log := outcome.log }
        else { unforeseen with log := outcome.log }
      | .error failure => refuseFailure timeout outcome.log failure) ↔
    ¬ ∃ metadata, (∃ report, outcome.result = .ok (report, metadata)) ∧
      metadata.seed.isShown = false := by
  split
  · next report metadata ended =>
    split
    · next shown =>
      refine iff_of_true (answers_report report metadata _) ?_
      rintro ⟨_, ⟨_, ended'⟩, unshown⟩
      cases ended.symm.trans ended'
      rw [shown] at unshown
      cases unshown
    · next unshown =>
      exact iff_of_false (Response.not_answers_of_none rfl)
        (not_not_intro ⟨metadata, ⟨report, ended⟩, Bool.eq_false_iff.mpr unshown⟩)
  · next failure ended =>
    refine iff_of_true (answers_refuseFailure _ _ failure) ?_
    rintro ⟨_, ⟨_, ended'⟩, _⟩
    cases ended.symm.trans ended'

/-- The seed of a report is the one that was asked for, or that of the settings. -/
theorem seed_of_simulate {w : Workbook} {iterations seed : Value} {signal : Option Signal}
    {entropy : List UInt32} {report : Report Float} {metadata : Metadata}
    (ended : (simulate settings w iterations seed signal entropy).result = .ok (report, metadata)) :
    metadata.seed = seedFor settings seed := by
  unfold simulate at ended
  dsimp only at ended
  split at ended
  · cases ended
  · split at ended
    · cases ended
    · split at ended
      · cases ended
      · obtain ⟨made, -, same⟩ := map_eq_ok ended
        cases same
        rfl

section

variable {entropy : List UInt32} {elapsed : Float}

theorem simulationStops_error_iff {e : PayloadError}
    (payload : Workbook.ofValue (Value.fieldOrNull fields "workbook") = .error e) :
    SimulationStops settings entropy elapsed fields ↔ e = .numberTooLarge := by
  constructor
  · rintro (tooLarge | ⟨read, -⟩ | ⟨⟨w, _, _, read, -⟩, -⟩)
    · exact Except.error.inj (payload.symm.trans tooLarge)
    · cases payload.symm.trans read
    · cases payload.symm.trans read
  · rintro rfl
    exact .number payload

theorem simulationStops_ok_iff {w : Workbook}
    (payload : Workbook.ofValue (Value.fieldOrNull fields "workbook") = .ok w) :
    SimulationStops settings entropy elapsed fields ↔
      TimeStops fields ∨ ∃ metadata, Reports settings entropy elapsed fields metadata ∧
        metadata.seed.isShown = false := by
  constructor
  · rintro (tooLarge | ⟨-, stops⟩ | ⟨reports, unshown⟩)
    · cases payload.symm.trans tooLarge
    · exact .inl stops
    · exact .inr ⟨_, reports, unshown⟩
  · rintro (stops | ⟨metadata, reports, unshown⟩)
    · exact .time payload stops
    · exact .seed reports unshown

theorem reports_iff {w : Workbook} {p : Parameters} {metadata : Metadata}
    (payload : Workbook.ofValue (Value.fieldOrNull fields "workbook") = .ok w)
    (made : parametersOf settings fields = .ok p) :
    Reports settings entropy elapsed fields metadata ↔
      ∃ report, (simulate settings w p.iterations (p.seed.elim .null .int)
        (p.token.map fun token => token.signal elapsed) entropy).result =
          .ok (report, metadata) := by
  constructor
  · rintro ⟨_, _, report, payload', made', ended⟩
    cases payload.symm.trans payload'
    cases made.symm.trans made'
    exact ⟨report, ended⟩
  · rintro ⟨report, ended⟩
    exact ⟨w, p, report, payload, made, ended⟩

/-- **A simulation is answered unless a number, the time limit or the seed stops that.** -/
theorem runSimulation_answers_iff (read : Settings.read env [] = .ok settings) :
    (runSimulation env entropy elapsed fields).Answers ↔
      ¬ SimulationStops (settings.inside placesOfRequest) entropy elapsed fields := by
  have drawn := Settings.drawn read
  unfold runSimulation
  rw [read]
  dsimp only
  cases payload : Workbook.ofValue (Value.fieldOrNull fields "workbook") with
  | error e =>
    rw [simulationStops_error_iff payload]
    cases e with
    | format fault =>
      exact iff_of_true (answers_refusePayload ⟨fault, rfl⟩) (by rintro ⟨⟩)
    | numberTooLarge => exact iff_of_false not_answers_unforeseen (not_not_intro rfl)
    | notShown => exact iff_of_true (answers_badRequest _) (by rintro ⟨⟩)
  | ok w =>
    rw [simulationStops_ok_iff payload]
    dsimp only
    cases made : parametersOf (settings.inside placesOfRequest) fields with
    | error r =>
      dsimp only
      rw [parametersOf_error drawn.iterations drawn.maxIterations made, not_or]
      refine (and_iff_left ?_).symm
      rintro ⟨metadata, ⟨_, p, _, _, made', _⟩, _⟩
      cases made.symm.trans made'
    | ok p =>
      dsimp only
      rw [or_iff_right (parametersOf_ok made).2]
      simp only [reports_iff payload made]
      exact answers_outcome_iff

/-! ## §5 Whole -/

/-- What keeps data from being answered where a request leads to. -/
def Route.Stops (settings : Settings) (entropy : List UInt32) (elapsed : Float)
    (fields : List (String × Value)) : Route → Prop
  | validateExpression => FormulaStops settings.limits fields
  | validateWorkbook =>
    PayloadStops (settings.limits.inside placesOfRequest) (Value.fieldOrNull fields "workbook")
  | runSimulation => SimulationStops (settings.inside placesOfRequest) entropy elapsed fields
  | file | nowhere => False

/-- What keeps a request from being answered: its data are nested too deep, or stop its handler. -/
def Request.Stops (settings : Settings) (entropy : List UInt32) (elapsed : Float)
    (request : Request) : Prop :=
  request.content.data? = none ∨ ∃ fields, request.content.data? = some (some (.object fields)) ∧
    (Route.ofTarget request.target).Stops settings entropy elapsed fields

/-- The request leads to a handler. -/
def Request.IsServed (request : Request) : Prop :=
  Route.ofTarget request.target ∈ [.validateExpression, .validateWorkbook, .runSimulation]

/-- Data in which every whole number has a double, and no metric names its category by a list or an
object. -/
structure Plain (data : Value) : Prop where
  fits : data.fits
  keys : ∀ fields w, data = .object fields →
    Workbook.ofValue (Value.fieldOrNull fields "workbook") = .ok w →
    ∀ m ∈ w.metrics, m.categoryId.isKey

/-- The payload is turned down for its format, or gives a workbook whose validation ends. -/
def Decided (limits : Limits) (payload : Value) : Prop :=
  (∃ fault, Workbook.ofValue payload = .error (.format fault)) ∨
    ∃ w issues, Workbook.ofValue payload = .ok w ∧ w.validate limits = .ok issues

theorem decided_iff {limits : Limits} {payload : Value} :
    Decided limits payload ↔ ¬ PayloadStops limits payload := by
  unfold Decided PayloadStops
  cases Workbook.ofValue payload with
  | error e =>
    simp [PayloadError.IsFormat]
  | ok w =>
    simp [validate_eq_ok_iff]

/-- Data that carry fields are answered by the handler, all others by a refusal. -/
theorem answers_withFields_iff {content : Content} {answer : List (String × Value) → Response}
    {stops : List (String × Value) → Prop}
    (each : ∀ fields, (answer fields).Answers ↔ ¬ stops fields) :
    Response.Answers (match content.data? with
      | none => unforeseen
      | some (some (.object fields)) => answer fields
      | some _ => noData) ↔
    ¬ (content.data? = none ∨
      ∃ fields, content.data? = some (some (.object fields)) ∧ stops fields) := by
  split
  · next unread => exact iff_of_false not_answers_unforeseen (not_not_intro (.inl unread))
  · next fields given => simp [given, each fields]
  · next given noObject found =>
    refine iff_of_true (answers_badRequest _) ?_
    rintro (unread | ⟨fields, object, -⟩)
    · cases found.symm.trans unread
    · exact noObject fields (Option.some.inj (found.symm.trans object))

theorem handle_answers_iff (read : Settings.read env [] = .ok settings) {request : Request}
    (served : request.IsServed) :
    (handle env entropy elapsed request).Answers ↔ ¬ request.Stops settings entropy elapsed := by
  have limits := (Settings.drawn read).limits
  unfold handle Request.Stops
  unfold Request.IsServed at served
  cases route : Route.ofTarget request.target with
  | validateExpression => exact answers_withFields_iff fun _ => checkFormula_answers_iff limits
  | validateWorkbook => exact answers_withFields_iff fun _ => validateWorkbook_answers_iff limits
  | runSimulation => exact answers_withFields_iff fun _ => runSimulation_answers_iff read
  | file | nowhere => simp [route] at served

/-- Nothing stops a payload without large numbers and strange category ids, under safe limits. -/
theorem not_payloadStops {limits : Limits} {payload : Value} (fits : payload.fits)
    (keys : ∀ w, Workbook.ofValue payload = .ok w → ∀ m ∈ w.metrics, m.categoryId.isKey)
    (safe : limits.inner.inner.Safe) : ¬ PayloadStops limits payload := by
  rintro (⟨e, failed, other⟩ | ⟨w, read, stops⟩)
  · exact other (Workbook.ofValue_failsOnly fits e failed)
  · exact stops (faults_eq_nil_of_keys safe fun m listed =>
      ⟨keys w read m listed, Value.isShown_of_fits (Workbook.fits_categoryId fits read m listed)⟩)

/-- Nothing stops a simulation without large numbers. -/
theorem not_simulationStops (shown : settings.seed.isShown) (fits : Value.fieldsFit fields) :
    ¬ SimulationStops settings entropy elapsed fields := by
  rintro (tooLarge | ⟨-, -, -, n, limit, noDouble⟩ | ⟨⟨w, p, report, -, made, ended⟩, unshown⟩)
  · obtain ⟨fault, format⟩ :=
      Workbook.ofValue_failsOnly (Value.fits_fieldOrNull fits "workbook") _ tooLarge
    cases format
  · have double := Value.fits_fieldOrNull fits "timeoutSeconds"
    rw [limit, Value.fits, noDouble] at double
    cases double
  · have seeded := count?_of_seed? (parametersOf_ok made).1
    have same := seed_of_simulate ended
    cases named : p.seed with
    | none =>
      rw [named] at same
      rw [same] at unshown
      exact Bool.false_ne_true (unshown.symm.trans shown)
    | some n =>
      rw [named] at same seeded
      rw [same] at unshown
      exact Bool.false_ne_true (unshown.symm.trans
        (isShown_of_count? (Value.fits_fieldOrNull fits "seed") seeded))

/-- Nothing stops plain data where the nesting limit is low enough. -/
theorem not_stops (read : Settings.read env [] = .ok settings) {k : Int}
    (nesting : settings.limits.nesting = .int k)
    (low : placesOfRequest + 2 + 5 * k.toNat ≤ readingPlaces) (route : Route)
    (plain : Plain (.object fields)) : ¬ route.Stops settings entropy elapsed fields := by
  have drawn := Settings.drawn read
  cases route with
  | validateExpression =>
    rintro ⟨known, text, -, -, stops⟩
    have lower : placesOfRequest + 1 + 5 * k.toNat ≤ readingPlaces := by omega
    have safe : (settings.limits.inside placesOfRequest).inner.Safe := drawn.safe nesting lower
    exact stops (checkStop?_eq_none safe _)
  | validateWorkbook =>
    exact not_payloadStops (Value.fits_fieldOrNull plain.fits "workbook")
      (fun w => plain.keys fields w rfl) (drawn.safe nesting low)
  | runSimulation => exact not_simulationStops drawn.seed plain.fits
  | file | nowhere => exact not_false

end

/-- **Which requests are answered, in all environments that settings can be read from.** A request
to one of the three handlers is answered if and only if its data do not stop it, and a payload is
turned down for its format or gives a workbook whose validation ends if and only if it does not stop
that. Where the stack has room for the fivefold of the nesting limit, nothing stops data in which
every whole number has a double, and no metric names its category by a list or an object. -/
theorem handle_answers (env : Environment) (entropy : List UInt32) (elapsed : Float)
    (read : Settings.read env [] = .ok settings) :
    (∀ request : Request, request.IsServed →
      ((handle env entropy elapsed request).Answers ↔ ¬ request.Stops settings entropy elapsed)) ∧
    (∀ limits payload, Decided limits payload ↔ ¬ PayloadStops limits payload) ∧
    (∀ k : Int, settings.limits.nesting = .int k →
      placesOfRequest + 2 + 5 * k.toNat ≤ readingPlaces →
      (∀ request : Request, request.IsServed → request.content.data? ≠ none →
        (∀ data, request.content.data? = some (some data) → Plain data) →
        (handle env entropy elapsed request).Answers) ∧
      ∀ payload, payload.fits →
        (∀ w, Workbook.ofValue payload = .ok w → ∀ m ∈ w.metrics, m.categoryId.isKey) →
        Decided (settings.limits.inside placesOfRequest) payload) := by
  refine ⟨fun request served => handle_answers_iff read served,
    fun limits payload => decided_iff, fun k nesting low => ⟨?_, ?_⟩⟩
  · intro request served readable plain
    refine (handle_answers_iff read served).mpr ?_
    rintro (unread | ⟨fields, given, stops⟩)
    · exact readable unread
    · exact not_stops read nesting low _ (plain _ given) stops
  · intro payload fits keys
    exact decided_iff.mpr (not_payloadStops fits keys ((Settings.drawn read).safe nesting low))

/-- A workbook of one metric, which names its category by the given value. -/
def payloadNaming (categoryId : Value) : Value :=
  .object [("metrics",
    .list [.object [("id", .text "m"), ("value", .int 2), ("categoryId", categoryId)]])]

/-- A request to validate that workbook. -/
def requestNaming (categoryId : Value) : Request :=
  { target := "/validate_workbook"
    content := .data (.object [("workbook", payloadNaming categoryId)]) }

theorem isServed_requestNaming (categoryId : Value) : (requestNaming categoryId).IsServed := by
  have route : Route.ofTarget "/validate_workbook" = .validateWorkbook := rfl
  simp [Request.IsServed, requestNaming, route]

/-- The theorem at a category that is named by a text, in an environment without variables. -/
theorem handle_answers_text :
    (∃ settings, Settings.read [] [] = .ok settings) ∧
      (handle [] [] 0.0 (requestNaming (.text "c"))).Answers := by
  have read : ∃ settings, Settings.read [] [] = .ok settings := ⟨_, rfl⟩
  refine ⟨read, ?_⟩
  obtain ⟨settings, read⟩ := read
  have nesting : settings.limits.nesting = .int 64 := by
    cases read
    rfl
  refine ((handle_answers [] [] 0.0 read).2.2 64 nesting (by decide)).1 _
    (isServed_requestNaming _) (by simp [requestNaming, Content.data?]) ?_
  intro data given
  cases given
  refine ⟨rfl, ?_⟩
  rintro fields w ⟨⟩ made m listed
  cases made
  cases List.mem_singleton.mp listed
  rfl

/-- **Some requests are not answered.** A category that is named by a list stops the validation of
its workbook, under the default limits and in an environment without variables. -/
theorem handle_unanswered :
    (∃ settings, Settings.read [] [] = .ok settings) ∧
      (requestNaming (.list [.text "c"])).IsServed ∧
      ¬ (handle [] [] 0.0 (requestNaming (.list [.text "c"]))).Answers ∧
      ¬ Decided {} (payloadNaming (.list [.text "c"])) := by
  refine ⟨⟨_, rfl⟩, isServed_requestNaming _, Response.not_answers_of_none rfl, ?_⟩
  rintro (⟨fault, format⟩ | ⟨w, issues, read, ended⟩)
  · cases format
  · cases read
    cases ended

end BusinessCase.Service
