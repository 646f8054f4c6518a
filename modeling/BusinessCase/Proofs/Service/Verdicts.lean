/-
BusinessCase.Proofs.Service.Verdicts — a workbook that is validated, and the
same workbook when it is simulated.

Both handlers read the payload in the same way, and both look for all problems
of the workbook under the same limits. What a validation refuses a simulation
refuses too, for the same reasons, and what a validation lets pass no
simulation turns down. The two part where a formula just has room on the stack:
a simulation reads it two calls further in.

  §1 Pairs      — `Concerns`, two requests about one payload.
  §2 Validation — what a validation answers.
  §3 Simulation — what a simulation answers, compiled or not.
  §4 Whole      — `handle_agrees`.
  §5 Limits     — where the answers differ: `handle_differs`.
-/
import BusinessCase.Proofs.Service.Answers
import BusinessCase.Proofs.Simulation.Failures
import BusinessCase.Proofs.Simulation.Verdict

namespace BusinessCase.Service

open Formula

variable {env : Environment} {settings : Settings} {fields : List (String × Value)} {w : Workbook}

/-! ## §1 Pairs -/

/-- The body of an answer that reports an error. -/
def errorBody (error : Value) : Body := .value (.object [("ok", .bool false), ("error", error)])

/-- The body of the answer to a validation: may the workbook be simulated, and what is there to say
about it? -/
def verdictBody (ok : Bool) (issues : List Issue) : Body :=
  .value (.object [("ok", .bool ok), ("issues", .list (issues.map Issue.toValue))])

/-- The answer to a validation says whether the workbook may be simulated. -/
def Response.Decides (r : Response) (ok : Bool) : Prop :=
  r.status = 200 ∧ ∃ given, r.body.toValue? = some (.object given) ∧
    Value.field? given "ok" = some (.bool ok)

/-- Counts that make sense, and no time limit. -/
structure Runnable (settings : Settings) (fields : List (String × Value)) : Prop where
  iterations : ∃ count, count? (Value.fieldOrNull fields "iterations") "iterations" = .ok count ∧
    inRange? (count.elim settings.iterations .int) settings.maxIterations = some true
  seed : ∃ seed, seed? (Value.fieldOrNull fields "seed") = .ok seed
  timeout : (Value.fieldOrNull fields "timeoutSeconds").isTruthy = false

/-- One request asks for the validation of the payload, the other for its simulation. -/
structure Concerns (settings : Settings) (validation simulation : Request) (payload : Value) :
    Prop where
  validates : Route.ofTarget validation.target = .validateWorkbook
  simulates : Route.ofTarget simulation.target = .runSimulation
  asked : ∃ fields, validation.content.data? = some (some (.object fields)) ∧
    Value.fieldOrNull fields "workbook" = payload
  run : ∃ fields, simulation.content.data? = some (some (.object fields)) ∧
    Value.fieldOrNull fields "workbook" = payload ∧ Runnable settings fields

/-- Every formula of the payload has room on the stack two calls further in than a validation reads
it. -/
def HasRoom (settings : Settings) (payload : Value) : Prop :=
  ∀ w, Workbook.ofValue payload = .ok w → ∀ entry ∈ w.formulaEntries,
    entry.fault? (settings.limits.inside (placesOfRequest + 2)) = none

/-! ## §2 Validation -/

/-- A validation that nothing stops lists all problems of the workbook. -/
theorem validateWorkbook_eq (limits : readLimits env [] = .ok settings.limits)
    (made : Workbook.ofValue (Value.fieldOrNull fields "workbook") = .ok w)
    (unstopped : w.faults (settings.limits.inside placesOfRequest) = []) :
    validateWorkbook env fields =
      { status := 200
        body := verdictBody (blocking (w.issues settings.limits)).isEmpty
          (w.issues settings.limits) } := by
  have ended : w.validate (settings.limits.inside placesOfRequest) =
      .ok (w.issues settings.limits) :=
    validate_eq_ok_iff.mpr ⟨unstopped, issues_inside.symm⟩
  rw [validateWorkbook, made]
  dsimp only
  rw [limits]
  dsimp only
  rw [ended]
  rfl

/-- A validation refuses the payload, or ends in nothing foreseen, or lists all problems. -/
theorem validateWorkbook_cases (limits : readLimits env [] = .ok settings.limits)
    (fields : List (String × Value)) :
    (∃ fault, Workbook.ofValue (Value.fieldOrNull fields "workbook") = .error (.format fault) ∧
      validateWorkbook env fields = refuse 400 (EngineError.workbookFormat fault.message).toValue) ∨
    validateWorkbook env fields = unforeseen ∨
    ∃ w, Workbook.ofValue (Value.fieldOrNull fields "workbook") = .ok w ∧
      w.faults (settings.limits.inside placesOfRequest) = [] := by
  cases made : Workbook.ofValue (Value.fieldOrNull fields "workbook") with
  | error e =>
    rw [validateWorkbook, made]
    cases e with
    | format fault => exact .inl ⟨fault, rfl, rfl⟩
    | numberTooLarge | notShown => exact .inr (.inl rfl)
  | ok w =>
    cases ended : w.validate (settings.limits.inside placesOfRequest) with
    | error fault =>
      refine .inr (.inl ?_)
      rw [validateWorkbook, made]
      dsimp only
      rw [limits]
      dsimp only
      rw [ended]
    | ok issues => exact .inr (.inr ⟨w, rfl, (validate_eq_ok_iff.mp ended).1⟩)

theorem decides_verdictBody {ok decided : Bool} {issues : List Issue} :
    Response.Decides { status := 200, body := verdictBody decided issues } ok ↔ decided = ok := by
  constructor
  · rintro ⟨-, given, body, same⟩
    cases body
    exact Value.bool.inj (Option.some.inj same)
  · rintro rfl
    exact ⟨rfl, _, rfl, rfl⟩

theorem not_decides {r : Response} (other : r.status ≠ 200) (ok : Bool) : ¬ r.Decides ok :=
  fun decided => other decided.1

/-! ## §3 Simulation -/

section Simulation

variable (entropy : List UInt32) (elapsed : Float)

theorem runSimulation_format (read : Settings.read env [] = .ok settings) {fault : FormatFault}
    (format : Workbook.ofValue (Value.fieldOrNull fields "workbook") = .error (.format fault)) :
    runSimulation env entropy elapsed fields =
      refuse 400 (EngineError.workbookFormat fault.message).toValue := by
  rw [runSimulation, read]
  dsimp only
  rw [format]
  rfl

/-- Counts that make sense are those of a run that nobody stops. -/
theorem parametersOf_runnable (read : Settings.read env [] = .ok settings)
    (runnable : Runnable settings fields) :
    ∃ (n : Int) (seed : Option Int),
      parametersOf (settings.inside placesOfRequest) fields = .ok ⟨.int n, seed, none⟩ ∧
      checkedTrials ((settings.inside placesOfRequest).inside 1) (.int n) = .ok (.int n) := by
  obtain ⟨usual, whole⟩ := (Settings.drawn read).iterations
  obtain ⟨count, counted, range⟩ := runnable.iterations
  obtain ⟨seed, seeded⟩ := runnable.seed
  have wanted : count.elim settings.iterations Value.int = .int (count.getD usual) := by
    cases count with
    | none => exact whole
    | some n => rfl
  have unlimited : tokenFor (Value.fieldOrNull fields "timeoutSeconds") = .ok none := by
    rw [tokenFor, runnable.timeout]
    rfl
  rw [wanted] at range
  refine ⟨count.getD usual, seed, ?_, ?_⟩
  · have inside : (settings.inside placesOfRequest).iterations = settings.iterations := rfl
    have greatest : (settings.inside placesOfRequest).maxIterations = settings.maxIterations := rfl
    rw [parametersOf, counted, seeded, unlimited]
    dsimp only [bind, Except.bind, Except.mapError]
    rw [inside, greatest, wanted, range]
  · have greatest : ((settings.inside placesOfRequest).inside 1).maxIterations =
        settings.maxIterations := rfl
    have truncated : trialsWanted ((settings.inside placesOfRequest).inside 1)
        (.int (count.getD usual)) = .ok (.int (count.getD usual)) := rfl
    rw [checkedTrials, truncated]
    dsimp only [bind, Except.bind]
    rw [greatest, range]

/-- The limits and the horizon under which a request compiles a workbook. -/
def compileFor (settings : Settings) (w : Workbook) : Except CompileError (Plan Float) :=
  w.compile (settings.limits.inside (placesOfRequest + 1)) settings.horizon.horizon

/-- A workbook without a plan is answered with what its compilation ended in. -/
theorem runSimulation_uncompiled (read : Settings.read env [] = .ok settings)
    (payload : Workbook.ofValue (Value.fieldOrNull fields "workbook") = .ok w)
    (runnable : Runnable settings fields) {e : CompileError}
    (failed : compileFor settings w = .error e) :
    ∃ log, runSimulation env entropy elapsed fields =
      refuseFailure (Value.fieldOrNull fields "timeoutSeconds") log (.ofCompile e) := by
  obtain ⟨n, seed, made, counted⟩ := parametersOf_runnable read runnable
  have ended := simulate_of_compile counted failed (seed.elim .null .int) none entropy
  refine ⟨(simulate (settings.inside placesOfRequest) w (.int n) (seed.elim .null .int) none
    entropy).log, ?_⟩
  rw [runSimulation, read]
  dsimp only
  rw [payload]
  dsimp only
  rw [made]
  dsimp only [Option.map_none]
  rw [ended]

theorem refuseFailure_internal {failure : Failure} (internal : failure.IsInternal) (timeout : Value)
    (log : List Log.Record) :
    refuseFailure timeout log failure = internalError log := by
  cases failure with
  | engine e => exact internal.elim
  | badValue | arithmetic | foreignNode | wrongKind | stackExhausted | missingColumn | emptyList
  | exhausted | noRoom => rfl

/-- **A workbook with a plan is not turned down.** -/
theorem runSimulation_compiled (read : Settings.read env [] = .ok settings)
    (payload : Workbook.ofValue (Value.fieldOrNull fields "workbook") = .ok w)
    (runnable : Runnable settings fields) {plan : Plan Float}
    (compiled : compileFor settings w = .ok plan) :
    (runSimulation env entropy elapsed fields).status ≠ 400 := by
  obtain ⟨n, seed, made, -⟩ := parametersOf_runnable read runnable
  have planned : w.compile ((settings.inside placesOfRequest).inside 1).limits
      (settings.inside placesOfRequest).horizon.horizon = .ok plan := compiled
  have internal := simulate_internal planned (.int n) (seed.elim .null .int) entropy
  rw [runSimulation, read]
  dsimp only
  rw [payload]
  dsimp only
  rw [made]
  dsimp only [Option.map_none]
  have success : (200 : Nat) ≠ 400 := by decide
  have inner : (500 : Nat) ≠ 400 := by decide
  split
  · split
    · exact success
    · exact inner
  · next failure ended =>
    rw [refuseFailure_internal (internal failure ended)]
    exact inner

end Simulation

/-! ## §4 Whole -/

section Whole

/-- What a compilation comes to where every formula has room. -/
theorem compileFor_eq (room : w.faults (settings.limits.inside (placesOfRequest + 2)) = []) :
    compileFor settings w =
      if w.cycle settings.limits ≠ [] then .error (.circular (w.cycle settings.limits))
      else if blocking (w.issues settings.limits) ≠ [] then
        .error (.invalid (blocking (w.issues settings.limits)))
      else
        .ok (w.plan (settings.limits.inside (placesOfRequest + 1)) settings.horizon.horizon) := by
  have unstopped : w.faults (settings.limits.inside (placesOfRequest + 1)).inner = [] := room
  rw [compileFor, compile_of_validated unstopped, cycle_inside, issues_inside]

/-- Where a formula has no room, that ends the compilation. -/
theorem compileFor_stopped (none : w.faults (settings.limits.inside (placesOfRequest + 2)) ≠ []) :
    ∃ fault, compileFor settings w = .error (.stopped fault) := by
  obtain ⟨fault, rest, faults⟩ := List.exists_cons_of_ne_nil none
  have stopped : (w.faults (settings.limits.inside (placesOfRequest + 1)).inner).head? =
      some fault := congrArg List.head? faults
  exact ⟨fault, compile_of_fault stopped⟩

/-- Two calls further in there is nothing but room that can be missing. -/
theorem hasRoom_iff {payload : Value} (read : Workbook.ofValue payload = .ok w)
    (unstopped : w.faults (settings.limits.inside placesOfRequest) = []) :
    HasRoom settings payload ↔ w.faults (settings.limits.inside (placesOfRequest + 2)) = [] := by
  rw [faults_eq_nil_iff, and_iff_right (faults_eq_nil_iff.mp unstopped).1, HasRoom]
  constructor
  · intro room
    exact room w read
  · intro room w' read'
    cases read.symm.trans read'
    exact room

variable (entropy : List UInt32) (elapsed : Float)

/-- A request that concerns a payload is treated by its handler. -/
theorem handle_validation (env : Environment) {payload : Value} {validation simulation : Request}
    (concerns : Concerns settings validation simulation payload) :
    ∃ fields, Value.fieldOrNull fields "workbook" = payload ∧
      handle env entropy elapsed validation = validateWorkbook env fields := by
  obtain ⟨fields, given, same⟩ := concerns.asked
  refine ⟨fields, same, ?_⟩
  simp only [handle, concerns.validates, given]

theorem handle_simulation (env : Environment) {payload : Value} {validation simulation : Request}
    (concerns : Concerns settings validation simulation payload) :
    ∃ fields, Value.fieldOrNull fields "workbook" = payload ∧ Runnable settings fields ∧
      handle env entropy elapsed simulation = runSimulation env entropy elapsed fields := by
  obtain ⟨fields, given, same, runnable⟩ := concerns.run
  refine ⟨fields, same, runnable, ?_⟩
  simp only [handle, concerns.simulates, given]

/-- A simulation of a workbook with problems names those that a validation finds. -/
theorem runSimulation_problems (read : Settings.read env [] = .ok settings)
    (payload : Workbook.ofValue (Value.fieldOrNull fields "workbook") = .ok w)
    (runnable : Runnable settings fields)
    (room : w.faults (settings.limits.inside (placesOfRequest + 2)) = [])
    (problems : blocking (w.issues settings.limits) ≠ []) :
    (runSimulation env entropy elapsed fields).status = 400 ∧
      (∀ issue ∈ blocking (w.issues settings.limits), issue.kind = .circularDependency →
        (runSimulation env entropy elapsed fields).body =
          errorBody (EngineError.circular issue.ids).toValue) ∧
      ((∀ issue ∈ blocking (w.issues settings.limits), issue.kind ≠ .circularDependency) →
        (runSimulation env entropy elapsed fields).body =
          errorBody (EngineError.validation (blocking (w.issues settings.limits))).toValue) := by
  have compiled := compileFor_eq room
  by_cases acyclic : w.cycle settings.limits = []
  · rw [if_neg (not_not_intro acyclic), if_pos problems] at compiled
    obtain ⟨log, answer⟩ := runSimulation_uncompiled entropy elapsed read payload runnable
      compiled
    rw [answer]
    exact ⟨rfl, fun issue member kind => absurd acyclic (ids_of_circular member kind).1,
      fun _ => rfl⟩
  · rw [if_pos acyclic] at compiled
    obtain ⟨log, answer⟩ := runSimulation_uncompiled entropy elapsed read payload runnable
      compiled
    rw [answer]
    refine ⟨rfl, fun issue member kind => ?_, fun none => ?_⟩
    · rw [(ids_of_circular member kind).2]
      rfl
    · obtain ⟨issue, member, kind⟩ := exists_circular acyclic
      exact absurd kind (none issue member)

/-- A simulation ends in a failure of its own where a formula has no room. -/
theorem runSimulation_stopped (read : Settings.read env [] = .ok settings)
    (payload : Workbook.ofValue (Value.fieldOrNull fields "workbook") = .ok w)
    (runnable : Runnable settings fields)
    (none : w.faults (settings.limits.inside (placesOfRequest + 2)) ≠ []) :
    ∃ log, runSimulation env entropy elapsed fields = internalError log := by
  obtain ⟨fault, stopped⟩ := compileFor_stopped none
  obtain ⟨log, answer⟩ := runSimulation_uncompiled entropy elapsed read payload runnable
    stopped
  exact ⟨log, answer.trans (refuseFailure_internal (Failure.isInternal_ofFault fault) _ log)⟩

/-- No simulation turns down a workbook without problems. -/
theorem runSimulation_unproblematic (read : Settings.read env [] = .ok settings)
    (payload : Workbook.ofValue (Value.fieldOrNull fields "workbook") = .ok w)
    (runnable : Runnable settings fields) (none : blocking (w.issues settings.limits) = []) :
    (runSimulation env entropy elapsed fields).status ≠ 400 := by
  by_cases room : w.faults (settings.limits.inside (placesOfRequest + 2)) = []
  · have acyclic : w.cycle settings.limits = [] := by
      by_contra cyclic
      obtain ⟨issue, member, -⟩ := exists_circular cyclic
      rw [none] at member
      cases member
    have compiled := compileFor_eq room
    rw [if_neg (not_not_intro acyclic), if_neg (not_not_intro none)] at compiled
    exact runSimulation_compiled entropy elapsed read payload runnable compiled
  · obtain ⟨log, answer⟩ := runSimulation_stopped entropy elapsed read payload runnable room
    have inner : (500 : Nat) ≠ 400 := by decide
    rw [answer]
    exact inner

/-- **A validation and a simulation agree, for all payloads.** Under any environment that settings
can be read from, with counts that make sense and no time limit: what a validation refuses is
refused by the simulation with the same body. Where a validation finds that a workbook may not be
simulated, the simulation names the ids of the cycle that is among the problems, or else all
problems that stop it; only a formula without room keeps it from that. What a validation lets pass
no simulation refuses. There is room wherever four places more than those of a request leave enough
for the fivefold of the nesting limit. -/
theorem handle_agrees {payload : Value} {validation simulation : Request}
    {verdict outcome : Response}
    (entropy entropy' : List UInt32) (elapsed elapsed' : Float)
    (read : Settings.read env [] = .ok settings)
    (concerns : Concerns settings validation simulation payload)
    (validated : handle env entropy elapsed validation = verdict)
    (simulated : handle env entropy' elapsed' simulation = outcome) :
    (verdict.status = 400 → outcome.status = 400 ∧ outcome.body = verdict.body) ∧
    (verdict.Decides false → ∃ issues, verdict.body = verdictBody false issues ∧
      (HasRoom settings payload → outcome.status = 400 ∧
        (∀ issue ∈ blocking issues, issue.kind = .circularDependency →
          outcome.body = errorBody (EngineError.circular issue.ids).toValue) ∧
        ((∀ issue ∈ blocking issues, issue.kind ≠ .circularDependency) →
          outcome.body = errorBody (EngineError.validation (blocking issues)).toValue)) ∧
      (¬ HasRoom settings payload → outcome.status = 500 ∧
        outcome.body = (internalError []).body)) ∧
    (verdict.Decides true → outcome.status ≠ 400) ∧
    (∀ k : Int, settings.limits.nesting = .int k →
      placesOfRequest + 4 + 5 * k.toNat ≤ readingPlaces → HasRoom settings payload) := by
  obtain ⟨asked, sameAsked, answered⟩ :=
    handle_validation entropy elapsed env concerns
  obtain ⟨fields, sameRun, runnable, ran⟩ :=
    handle_simulation entropy' elapsed' env concerns
  have drawn := Settings.drawn read
  rw [← validated, answered, ← simulated, ran]
  have safe (k : Int) (nesting : settings.limits.nesting = .int k)
      (low : placesOfRequest + 4 + 5 * k.toNat ≤ readingPlaces) : HasRoom settings payload := by
    have inner : (settings.limits.inside (placesOfRequest + 2)).inner.inner.Safe :=
      drawn.safe nesting low
    exact fun w _ entry _ => fault?_eq_none inner entry
  rcases validateWorkbook_cases drawn.limits asked with
    ⟨fault, format, verdict⟩ | verdict | ⟨w, made, unstopped⟩
  · rw [sameAsked, ← sameRun] at format
    rw [verdict, runSimulation_format entropy' elapsed' read format]
    have undecided (ok : Bool) :
        ¬ (refuse 400 (EngineError.workbookFormat fault.message).toValue).Decides ok :=
      not_decides (by simp [refuse]) ok
    exact ⟨fun _ => ⟨rfl, rfl⟩, fun decided => (undecided _ decided).elim,
      fun decided => (undecided _ decided).elim, safe⟩
  · have undecided (ok : Bool) : ¬ unforeseen.Decides ok := not_decides (by simp [unforeseen]) ok
    have unrefused : unforeseen.status ≠ 400 := by simp [unforeseen]
    rw [verdict]
    exact ⟨fun refused => (unrefused refused).elim, fun decided => (undecided _ decided).elim,
      fun decided => (undecided _ decided).elim, safe⟩
  · have verdict := validateWorkbook_eq drawn.limits made unstopped
    rw [sameAsked, ← sameRun] at made
    rw [verdict, decides_verdictBody, decides_verdictBody]
    have room := hasRoom_iff made unstopped
    rw [sameRun] at room
    refine ⟨by rintro ⟨⟩, fun problematic => ?_, fun unproblematic => ?_, safe⟩
    · have problems : blocking (w.issues settings.limits) ≠ [] := by
        simpa using problematic
      refine ⟨_, by rw [problematic], fun enough => ?_, fun missing => ?_⟩
      · exact runSimulation_problems entropy' elapsed' read made runnable (room.mp enough) problems
      · obtain ⟨log, answer⟩ := runSimulation_stopped entropy' elapsed' read made runnable
          (mt room.mpr missing)
        rw [answer]
        exact ⟨rfl, rfl⟩
    · exact runSimulation_unproblematic entropy' elapsed' read made runnable
        (by simpa using unproblematic)

/-- A request to validate a payload. -/
def validationOf (payload : Value) : Request :=
  { target := "/validate_workbook", content := .data (.object [("workbook", payload)]) }

/-- A request for one trial of the payload. -/
def simulationOf (payload : Value) : Request :=
  { target := "/run_simulation"
    content := .data (.object [("workbook", payload), ("iterations", .int 1), ("seed", .int 1)]) }

theorem concerns_of (payload : Value)
    (range : inRange? (.int 1) settings.maxIterations = some true) :
    Concerns settings (validationOf payload) (simulationOf payload) payload := by
  have validates : Route.ofTarget "/validate_workbook" = .validateWorkbook := rfl
  have simulates : Route.ofTarget "/run_simulation" = .runSimulation := rfl
  exact ⟨validates, simulates, ⟨_, rfl, rfl⟩, _, rfl, rfl, ⟨some 1, rfl, range⟩, ⟨some 1, rfl⟩, rfl⟩

/-- A workbook with problems is found to have some. -/
theorem decides_false {payload : Value} (limits : readLimits env [] = .ok settings.limits)
    (made : Workbook.ofValue payload = .ok w)
    (unstopped : w.faults (settings.limits.inside placesOfRequest) = [])
    (unsound : ¬ w.Sound settings.limits) :
    (handle env entropy elapsed (validationOf payload)).Decides false := by
  have route : Route.ofTarget "/validate_workbook" = .validateWorkbook := rfl
  have problems : (blocking (w.issues settings.limits)).isEmpty = false := by
    simpa [blocking_issues_eq_nil_iff] using unsound
  have answered : handle env entropy elapsed (validationOf payload) =
      validateWorkbook env [("workbook", payload)] := by
    simp only [handle, validationOf, Content.data?, route]
  have found : validateWorkbook env [("workbook", payload)] = _ :=
    validateWorkbook_eq limits made unstopped
  rw [answered, found, problems]
  exact decides_verdictBody.mpr rfl

/-- A payload of two metrics under one id. -/
def repeatedPayload : Value :=
  .object [("metrics", .list [.object [("id", .text "m")], .object [("id", .text "m")]])]

def repeatedWorkbook : Workbook :=
  { metrics := [⟨"m", "m", none, none, none, none, .null, .null⟩,
      ⟨"m", "m", none, none, none, none, .null, .null⟩]
    formulas := [], categories := [] }

/-- The theorem at that payload, in an environment without variables. -/
theorem handle_agrees_repeated :
    (handle [] [] 0.0 (validationOf repeatedPayload)).Decides false ∧
      (handle [] [] 0.0 (simulationOf repeatedPayload)).status = 400 := by
  have read : ∃ settings, Settings.read [] [] = .ok settings := ⟨_, rfl⟩
  obtain ⟨settings, read⟩ := read
  have nesting : settings.limits.nesting = .int 64 := by
    cases read
    rfl
  have range : inRange? (.int 1) settings.maxIterations = some true := by
    cases read
    rfl
  have drawn := Settings.drawn read
  have made : Workbook.ofValue repeatedPayload = .ok repeatedWorkbook := rfl
  have inner : (settings.limits.inside placesOfRequest).inner.inner.Safe :=
    drawn.safe nesting (by decide : placesOfRequest + 2 + 5 * Int.toNat 64 ≤ readingPlaces)
  have unstopped : repeatedWorkbook.faults (settings.limits.inside placesOfRequest) = [] :=
    faults_eq_nil inner (by simp [repeatedWorkbook, Metric.NamesByText])
  have unsound : ¬ repeatedWorkbook.Sound settings.limits := fun sound =>
    absurd sound.distinct (by decide)
  have decided := decides_false [] 0.0 drawn.limits made unstopped unsound
  obtain ⟨-, problematic, -, safe⟩ :=
    handle_agrees [] [] 0.0 0.0 read (concerns_of repeatedPayload range) rfl rfl
  obtain ⟨issues, -, agrees, -⟩ := problematic decided
  exact ⟨decided, (agrees (safe 64 nesting (by decide))).1⟩

end Whole

/-! ## §5 Limits -/

/-- A formula that a validation just has room for, and a category that lists a stranger. -/
def deepPayload : Value :=
  .object [
    ("formulas", .list [.object [("id", .text "f"), ("name", .text "f"),
      ("expression", .text (String.ofList (nestedOne 243)))]]),
    ("categories", .list [.object [("id", .text "c"), ("name", .text "c"), ("type", .text "facts"),
      ("metricIds", .list [.text "ghost"])]])]

def deepWorkbook : Workbook :=
  { metrics := [], formulas := [⟨"f", "f", String.ofList (nestedOne 243)⟩]
    categories := [⟨"c", "c", .facts, ["ghost"], .null⟩] }

/-- A limit of a thousand from the environment. -/
def wideEnvironment : Environment := [("ROI_MAX_NESTING", "1000")]

/-- An environment that no settings can be read from. -/
def emptyBatches : Environment := [("ROI_BATCH_SIZE", "0")]

/-- The only formula of the workbook is stopped where its reading is. -/
theorem fault?_deep {limits : Limits} {entry : Entry}
    (member : entry ∈ deepWorkbook.formulaEntries) :
    entry.fault? limits =
      (readStop? limits.inner.inner (String.ofList (nestedOne 243))).map (.reading "f") := by
  have entries : deepWorkbook.formulaEntries =
    [⟨"f", "expression", String.ofList (nestedOne 243)⟩] := rfl
  rw [entries, List.mem_singleton] at member
  simp [member, Entry.fault?, checkStop?, Option.filter, isAllBlank_nestedOne]

/-- **The answers differ where a formula loses its room, and where there are no settings.** Under a
nesting limit of a thousand a validation reads a formula that a simulation has no room for, so the
stranger in a category is reported by one of them only. Where batches have no size, a payload that
is no object is refused by a validation, and a simulation ends in nothing foreseen. -/
theorem handle_differs :
    (∃ settings, Settings.read wideEnvironment [] = .ok settings ∧
      Concerns settings (validationOf deepPayload) (simulationOf deepPayload) deepPayload) ∧
    (handle wideEnvironment [] 0.0 (validationOf deepPayload)).Decides false ∧
    (handle wideEnvironment [] 0.0 (simulationOf deepPayload)).status = 500 ∧
    (handle emptyBatches [] 0.0 (validationOf .null)).status = 400 ∧
    (handle emptyBatches [] 0.0 (simulationOf .null)).status = 500 := by
  have read : ∃ settings, Settings.read wideEnvironment [] = .ok settings := ⟨_, rfl⟩
  obtain ⟨settings, read⟩ := read
  have limits : settings.limits = { nesting := .int 1000 } := by
    cases read
    rfl
  have range : inRange? (.int 1) settings.maxIterations = some true := by
    cases read
    rfl
  have drawn := Settings.drawn read
  have concerns := concerns_of deepPayload range
  have made : Workbook.ofValue deepPayload = .ok deepWorkbook := rfl
  have value : ∃ x, Decimal.readFloat? "1" = some x := ⟨_, rfl⟩
  obtain ⟨x, value⟩ := value
  have unstopped : deepWorkbook.faults (settings.limits.inside placesOfRequest) = [] := by
    refine faults_eq_nil_iff.mpr ⟨by simp [deepWorkbook], fun entry member => ?_⟩
    rw [fault?_deep member, limits, readStop?_nestedOne_eq_none rfl rfl rfl value
      (Limits.allows_whole.mpr (.inr rfl)) (by decide)]
    rfl
  have missing : deepWorkbook.faults (settings.limits.inside (placesOfRequest + 2)) ≠ [] := by
    intro none
    have read := (faults_eq_nil_iff.mp none).2 _ List.mem_cons_self
    rw [fault?_deep List.mem_cons_self, limits, readStop?_nestedOne rfl rfl rfl
      (Limits.allows_whole.mpr (.inr rfl)) (by decide)] at read
    cases read
  have unsound : ¬ deepWorkbook.Sound settings.limits := fun sound => by
    obtain ⟨m, listed, -⟩ := sound.members _ List.mem_cons_self "ghost" List.mem_cons_self
    cases listed
  obtain ⟨fields, payload, runnable, ran⟩ :=
    handle_simulation [] 0.0 wideEnvironment concerns
  rw [← payload] at made
  obtain ⟨log, answer⟩ := runSimulation_stopped [] 0.0 read made runnable missing
  refine ⟨⟨settings, read, concerns⟩, ?_, ?_, ?_, ?_⟩
  · exact decides_false [] 0.0 drawn.limits (payload ▸ made) unstopped unsound
  · rw [ran, answer]
    rfl
  · rfl
  · rfl

end BusinessCase.Service
