/-
BusinessCase.Proofs.Workbook.Payload — how the reading of a workbook fails.

Where every whole number of a payload has a double, all that can be wrong with
it is its format: no name and no message shows a number that is too long. What
is read of such a payload has no such numbers either.

  §1 Parts   — fields, names, numbers, bounds.
  §2 Entries — metrics, formulas, categories.
  §3 Whole   — `ofValue_failsOnly`, `fits_categoryId`.
-/
import BusinessCase.Proofs.Steps
import BusinessCase.Proofs.Value.Sizes
import BusinessCase.Workbook.Payload

namespace BusinessCase

/-- The error says what is wrong with the format of a payload. -/
def PayloadError.IsFormat (e : PayloadError) : Prop := ∃ fault, e = .format fault

theorem PayloadError.isFormat_about {value : Value} (fits : value.fits) (fault : FormatFault) :
    (PayloadError.about value fault).IsFormat :=
  ⟨fault, if_pos (Value.isShown_of_fits fits)⟩

namespace Workbook

open PayloadError

variable {fields : Fields}

/-! ## §1 Parts -/

theorem format_failsOnly {α : Type} (fault : FormatFault) :
    FailsOnly IsFormat (.error (.format fault) : Except PayloadError α) :=
  .error ⟨fault, rfl⟩

theorem entries_failsOnly (fields : Fields) (field : String) :
    FailsOnly IsFormat (entries fields field) := by
  rw [entries]
  split
  · exact .ok []
  · split
    · refine .mapM fun item _ => ?_
      split
      · exact .ok _
      · exact format_failsOnly _
    · exact format_failsOnly _

/-- The entries of a list have no other numbers than the payload. -/
theorem fits_entries (fits : Value.fieldsFit fields) {field : String} {listed : List Fields}
    (read : entries fields field = .ok listed) : ∀ entry ∈ listed, Value.fieldsFit entry := by
  have whole := Value.fits_fieldOrNull fits field
  rw [entries] at read
  split at read
  · cases read
    intro entry member
    cases member
  · split at read
    · next items isList =>
      intro entry member
      rw [isList] at whole
      obtain ⟨item, among, same⟩ := exists_of_mem_mapM read member
      have part := Value.allFit_iff.mp whole item among
      split at same
      · cases same
        exact part
      · cases same
    · cases read

theorem requireId_failsOnly (fields : Fields) (what : String) :
    FailsOnly IsFormat (requireId fields what) := by
  rw [requireId]
  split
  · dsimp only
    split
    · exact format_failsOnly _
    · exact .ok _
  · exact format_failsOnly _

theorem nameOr_failsOnly (fits : Value.fieldsFit fields) (id : String) :
    FailsOnly IsFormat (nameOr fields id) := by
  rw [nameOr]
  split
  · exact .ok id
  · rw [if_pos (Value.isShown_of_fits (Value.fits_fieldOrNull fits "name"))]
    exact .ok _

theorem number?_failsOnly {value : Value} (fits : value.fits) (place : String) :
    FailsOnly IsFormat (number? value place) := by
  unfold number?
  split
  · exact .ok none
  · split
    · exact .ok _
    · next tooLarge =>
      -- Only a whole number can be too large, and this one has a double.
      cases value with
      | int n =>
        obtain ⟨x, double⟩ := Option.isSome_iff_exists.mp fits
        rw [Value.number, double] at tooLarge
        cases tooLarge
      | _ => cases tooLarge
    · exact .error (isFormat_about fits _)

theorem bound_failsOnly (fits : Value.fieldsFit fields) (field place : String) :
    FailsOnly IsFormat (bound fields field place) :=
  (number?_failsOnly (Value.fits_fieldOrNull fits field) _).bind fun _ _ => .ok _

theorem textOrNull_failsOnly (fields : Fields) (metric field : String) :
    FailsOnly IsFormat (textOrNull fields metric field) := by
  rw [textOrNull]
  split
  · exact .ok none
  · exact .ok _
  · exact format_failsOnly _

/-! ## §2 Entries -/

theorem distribution?_failsOnly (fits : Value.fieldsFit fields) (metric : String) :
    FailsOnly IsFormat (distribution? fields metric) := by
  have whole := Value.fits_fieldOrNull fits "distribution"
  rw [distribution?]
  split
  · exact .ok none
  · next bounds isObject =>
    rw [isObject] at whole
    exact (bound_failsOnly whole "min" _).bind fun low _ =>
      (bound_failsOnly whole "mode" _).bind fun mode _ =>
        (bound_failsOnly whole "max" _).bind fun high _ => .ok _
  · exact format_failsOnly _

theorem metricOf_failsOnly (fits : Value.fieldsFit fields) :
    FailsOnly IsFormat (metricOf fields) :=
  (requireId_failsOnly fields "metric").bind fun id _ =>
    (distribution?_failsOnly fits id).bind fun _ _ =>
      (textOrNull_failsOnly fields id "formula").bind fun _ _ =>
        (textOrNull_failsOnly fields id "unit").bind fun _ _ =>
          (nameOr_failsOnly fits id).bind fun _ _ =>
            (number?_failsOnly (Value.fits_fieldOrNull fits "value") _).bind fun _ _ => .ok _

theorem formulaOf_failsOnly (fits : Value.fieldsFit fields) :
    FailsOnly IsFormat (formulaOf fields) := by
  refine (requireId_failsOnly fields "formula").bind fun id _ => ?_
  split
  · exact (nameOr_failsOnly fits id).map _
  · exact format_failsOnly _

theorem categoryOf_failsOnly (fits : Value.fieldsFit fields) :
    FailsOnly IsFormat (categoryOf fields) := by
  refine (requireId_failsOnly fields "category").bind fun id _ => ?_
  dsimp only
  split
  · exact .error (isFormat_about (Value.fits_fieldOrNull fits "type") _)
  · split
    · exact format_failsOnly _
    · exact (nameOr_failsOnly fits id).map _

/-- The id and the category of a metric are those of its entry. -/
theorem parts_of_metricOf {m : Metric} (read : metricOf fields = .ok m) :
    requireId fields "metric" = .ok m.id ∧
      m.categoryId = Value.firstField fields ["categoryId", "category_id"] := by
  obtain ⟨id, declared, read⟩ := bind_eq_ok read
  obtain ⟨distribution, -, read⟩ := bind_eq_ok read
  obtain ⟨formula, -, read⟩ := bind_eq_ok read
  obtain ⟨unit, -, read⟩ := bind_eq_ok read
  obtain ⟨name, -, read⟩ := bind_eq_ok read
  obtain ⟨value, -, read⟩ := bind_eq_ok read
  cases read
  exact ⟨declared, rfl⟩

/-! ## §3 Whole -/

/-- **A payload whose numbers have doubles is a workbook, or its format is wrong.** -/
theorem ofValue_failsOnly {payload : Value} (fits : payload.fits) :
    FailsOnly IsFormat (ofValue payload) := by
  cases payload with
  | object fields =>
    have list {α : Type} (field : String) (read : Fields → Except PayloadError α)
        (each : ∀ {entry : Fields}, Value.fieldsFit entry → FailsOnly IsFormat (read entry)) :
        FailsOnly IsFormat (entries fields field >>= fun listed => listed.mapM read) :=
      (entries_failsOnly fields field).bind fun listed found =>
        .mapM fun entry member => each (fits_entries fits found entry member)
    have parts := (list "metrics" metricOf metricOf_failsOnly).bind fun metrics _ =>
      (list "formulas" formulaOf formulaOf_failsOnly).bind fun formulas _ =>
        (list "categories" categoryOf categoryOf_failsOnly).bind fun categories _ =>
          FailsOnly.ok (Workbook.mk metrics formulas categories)
    simpa only [ofValue, bind_assoc] using parts
  | null | bool | int | float | text | list => exact format_failsOnly _

/-- The metrics and the categories of a workbook are read from lists of its payload. -/
theorem parts_of_ofValue {payload : Value} {w : Workbook} (read : ofValue payload = .ok w) :
    ∃ fields metrics categories, payload = .object fields ∧
      entries fields "metrics" = .ok metrics ∧ metrics.mapM metricOf = .ok w.metrics ∧
      entries fields "categories" = .ok categories ∧
      categories.mapM categoryOf = .ok w.categories := by
  cases payload with
  | object fields =>
    obtain ⟨metricEntries, found, read⟩ := bind_eq_ok read
    obtain ⟨metrics, made, read⟩ := bind_eq_ok read
    obtain ⟨_, -, read⟩ := bind_eq_ok read
    obtain ⟨_, -, read⟩ := bind_eq_ok read
    obtain ⟨groups, found', read⟩ := bind_eq_ok read
    obtain ⟨categories, made', read⟩ := bind_eq_ok read
    cases read
    exact ⟨fields, metricEntries, groups, rfl, found, made, found', made'⟩
  | null | bool | int | float | text | list => cases read

/-- The category ids of a workbook have no other numbers than its payload. -/
theorem fits_categoryId {payload : Value} {w : Workbook} (fits : payload.fits)
    (read : ofValue payload = .ok w) : ∀ m ∈ w.metrics, m.categoryId.fits := by
  obtain ⟨fields, listed, -, rfl, found, made, -⟩ := parts_of_ofValue read
  intro m member
  obtain ⟨entry, among, same⟩ := exists_of_mem_mapM made member
  rw [(parts_of_metricOf same).2]
  exact Value.fits_firstField (fits_entries fits found entry among) _

end Workbook

end BusinessCase
