/-
BusinessCase.Proofs.Formula.Reading — the trees that reading gives.

A token list has a tree if and only if the grammar derives it and the limits
admit it; there is at most one. Where there is none, the error is about a
token of the list, about its end, or about a limit.

  §1 Counts — `exceeds` and the nesting of a whole formula.
  §2 Trees  — `parse_eq_ok_iff`, `Derives.unique`, `read_eq_ok_iff`.
  §3 Errors — `ParseError.IsAbout`.
-/
import BusinessCase.Proofs.Formula.Consumption
import BusinessCase.Proofs.Formula.Descent

namespace BusinessCase.Formula

variable {limits : Limits} {length : Nat} {stack : List Frame}

/-! ## §1 Counts -/

/-- A place below a quotient is below every greater whole number. -/
theorem compare_quotient_mono {mark : Mark} {m n : Int} (le : m ≤ n)
    (h : mark.compare (.quotient m 1) = .lt) : mark.compare (.quotient n 1) = .lt := by
  cases mark with
  | least => rfl
  | greatest => cases h
  | quotient num den =>
    simp only [Mark.compare, Int.compare_eq_lt] at h ⊢
    have scaled : m * den ≤ n * den := Int.mul_le_mul_of_nonneg_right le (Int.natCast_nonneg den)
    omega

/-- A count exceeds a limit that has its place below the count. -/
theorem exceeds_eq (count : Nat) (limit : Value) :
    exceeds count limit = limit.mark?.any fun mark => mark.compare (.quotient count 1) == .lt := by
  have comparable : (Value.int count).isComparable = true := rfl
  have place : (Value.int count).mark? = some (.quotient count 1) := rfl
  cases limit with
  | int n =>
    rw [Bool.eq_iff_iff]
    simp [exceeds, Value.mark?, Mark.compare, Int.compare_eq_lt]
  | null | text _ | list _ | object _ =>
    simp [exceeds, Value.below?, Value.ordered?, Value.isComparable, Value.mark?]
  | bool b =>
    simp [exceeds, Value.below?, Value.ordered?, Value.isComparable, Value.mark?]
  | float x =>
    simp only [exceeds, Value.below?, Value.ordered?, comparable, place]
    cases mark : (Value.float x).mark? <;> simp [Value.isComparable]

/-- A count that is within a limit bounds all smaller ones. -/
theorem exceeds_mono {m n : Nat} (le : m ≤ n) (limit : Value)
    (h : exceeds n limit = false) : exceeds m limit = false := by
  rw [exceeds_eq] at h ⊢
  cases place : limit.mark? with
  | none => rfl
  | some mark =>
    have within : mark.compare (.quotient n 1) ≠ .lt := by simpa [place] using h
    have smaller : mark.compare (.quotient m 1) ≠ .lt := fun beyond =>
      within (compare_quotient_mono (by omega) beyond)
    simpa using smaller

/-- The nesting limit allows a whole formula if it allows the most that is open at once. Where
nothing is opened, the limit is not looked at. -/
theorem Limits.allows_whole {n : Nat} :
    limits.Allows 0 n ↔ n = 0 ∨ exceeds n limits.nesting = false := by
  constructor
  · intro h
    rcases Nat.eq_zero_or_pos n with none | some
    · exact .inl none
    · exact .inr (h n some (by omega))
  · rintro (rfl | room)
    · exact Limits.allows_zero 0
    · intro count _ below
      exact exceeds_mono (by omega) limits.nesting room

/-! ## §2 Trees -/

/-- The limits admit a tree that opens at most `n` at once. -/
def Limits.Admits (limits : Limits) (tree : Expr Float) (n : Nat) : Prop :=
  (n = 0 ∨ exceeds n limits.nesting = false) ∧ exceeds tree.height limits.depth = false

/-- Tokens that the grammar derives within the nesting limit are read to their tree. -/
theorem Derives.parseFrom_eq_ok {ts : List Token} {tree : Expr Float} {n : Nat}
    (derived : Derives .sum ts tree n) (room : limits.Allows 0 n) :
    parseFrom limits length [] .operand ts = .ok tree := by
  have accepted : Accepts limits length [] ts tree [] .sum := derived.accepted room trivial
  obtain ⟨above, last, closed, settled, read⟩ := accepted trivial
  rw [List.append_nil] at read
  rw [read, parseFrom]
  simp only [finish, closed]

/-- Reading tokens ends with a tree if and only if the grammar derives them within the nesting
limit. -/
theorem parseFrom_eq_ok_iff {ts : List Token} (emitted : ∀ t ∈ ts, t.Emitted)
    {tree : Expr Float} :
    parseFrom limits length [] .operand ts = .ok tree ↔
      ∃ n, Derives .sum ts tree n ∧ limits.Allows 0 n := by
  constructor
  · intro h
    exact (Reads.start limits).derives emitted h
  · rintro ⟨n, derived, room⟩
    exact derived.parseFrom_eq_ok room

/-- The depth that the parser looks at is the height of the tree. -/
theorem Derives.depth_eq {p : Phrase} {ts : List Token} {tree : Expr Float} {n : Nat}
    (derived : Derives p ts tree n) : tree.depth.getD 0 = tree.height := by
  rw [Expr.depth_eq, if_pos derived.isProper, Option.getD_some]

/-- **The parser gives a tree if and only if the grammar derives it** and the limits admit it. -/
theorem parse_eq_ok_iff {ts : List Token} (emitted : ∀ t ∈ ts, t.Emitted) {tree : Expr Float} :
    parse limits length ts = .ok tree ↔ ∃ n, Derives .sum ts tree n ∧ limits.Admits tree n := by
  constructor
  · intro h
    rw [parse_eq_parseFrom] at h
    split at h
    · cases h
    · next found readTo =>
      obtain ⟨n, derived, room⟩ := (parseFrom_eq_ok_iff emitted).mp readTo
      rw [derived.depth_eq] at h
      split at h
      · cases h
      · next low =>
        cases h
        exact ⟨n, derived, Limits.allows_whole.mp room, by simpa using low⟩
  · rintro ⟨n, derived, room, low⟩
    have readTo : parseFrom limits length [] .operand ts = .ok tree :=
      (parseFrom_eq_ok_iff emitted).mpr ⟨n, derived, Limits.allows_whole.mpr room⟩
    rw [parse_eq_parseFrom, readTo]
    simp only [derived.depth_eq, low, Bool.false_eq_true, if_false]

/-- Limits that bound nothing. -/
def Limits.none : Limits := { nesting := .null, depth := .null }

theorem Limits.none_admits (tree : Expr Float) (n : Nat) : Limits.none.Admits tree n :=
  ⟨.inr (exceeds_eq n .null), exceeds_eq tree.height .null⟩

/-- **The grammar is unambiguous**: tokens have at most one tree. -/
theorem Derives.unique {ts : List Token} (emitted : ∀ t ∈ ts, t.Emitted)
    {first second : Expr Float} {m n : Nat} (left : Derives .sum ts first m)
    (right : Derives .sum ts second n) : first = second := by
  have readFirst : parse .none 0 ts = .ok first :=
    (parse_eq_ok_iff emitted).mpr ⟨m, left, Limits.none_admits first m⟩
  have readSecond : parse .none 0 ts = .ok second :=
    (parse_eq_ok_iff emitted).mpr ⟨n, right, Limits.none_admits second n⟩
  exact Except.ok.inj (readFirst.symm.trans readSecond)

/-- Reading a text gives a tree if and only if the text is short enough, scans, and its tokens
have that tree. -/
theorem read_eq_ok_iff {expression : String} {tree : Expr Float} :
    read limits expression = .ok tree ↔
      exceeds (Text.size expression) limits.expressionLength = false ∧
        ∃ ts n, tokens expression = .ok ts ∧ Derives .sum ts tree n ∧ limits.Admits tree n := by
  unfold read
  cases exceeds (Text.size expression) limits.expressionLength with
  | true => simp
  | false =>
    cases scanned : tokens expression with
    | error e => simp
    | ok ts =>
      have taken : parse limits expression.length ts = .ok tree ↔
          ∃ n, Derives .sum ts tree n ∧ limits.Admits tree n :=
        parse_eq_ok_iff (emitted_of_mem_tokens scanned)
      cases parsed : parse limits expression.length ts with
      | error e => simpa [parsed] using taken
      | ok found => simpa [parsed] using taken

/-! ## §3 Errors -/

/-- The error is about the end of the formula, one of its tokens, or a limit. -/
def ParseError.IsAbout (limits : Limits) (length : Nat) (ts : List Token) : ParseError → Prop
  | .endOfInput offset => offset = length
  | .unexpected token => token ∈ ts
  | .tooNested token limit => token ∈ ts ∧ limit = limits.nesting
  | .tooDeep limit => limit = limits.depth
  | .tooLong _ | .badNumeral _ => False

theorem ParseError.IsAbout.cons {error : ParseError} {ts : List Token}
    (h : error.IsAbout limits length ts) (t : Token) : error.IsAbout limits length (t :: ts) := by
  cases error with
  | endOfInput => exact h
  | unexpected => exact List.mem_cons_of_mem t h
  | tooNested => exact ⟨List.mem_cons_of_mem t h.1, h.2⟩
  | tooDeep => exact h
  | tooLong => exact h
  | badNumeral => exact h

/-- A step that opens a frame fails only where the limit is reached. -/
theorem openFrame_error {t : Token} {frame : Frame} {mode : Mode} {error : ParseError}
    (h : openFrame limits t frame mode stack = .error error) :
    error = .tooNested t limits.nesting ∧ exceeds (nesting stack + 1) limits.nesting = true := by
  unfold openFrame at h
  split at h
  · next beyond =>
    cases h
    exact ⟨rfl, beyond⟩
  · cases h

theorem stepOperand_error {t : Token} (emitted : t.Emitted) {error : ParseError}
    (h : stepOperand limits stack t = .error error) :
    error = .unexpected t ∨
      error = .tooNested t limits.nesting ∧ exceeds (nesting stack + 1) limits.nesting = true := by
  unfold stepOperand at h
  cases kind : t.kind with
  | number =>
    obtain ⟨x, value⟩ := emitted.exists_number kind
    simp [kind, value] at h
  | identifier => simp [kind] at h
  | leftParen =>
    rw [kind] at h
    exact .inr (openFrame_error h)
  | operator =>
    simp only [kind] at h
    split at h
    · exact .inr (openFrame_error h)
    · cases h
      exact .inl rfl
  | rightParen | comma =>
    rw [kind] at h
    cases h
    exact .inl rfl

theorem stepOperator_error {t : Token} {operand : Expr Float} {error : ParseError}
    (h : stepOperator stack operand t = .error error) : error = .unexpected t := by
  unfold stepOperator at h
  cases kind : t.kind with
  | operator =>
    simp only [kind] at h
    split at h
    · cases h
    · split at h
      · cases h
      · cases h
        rfl
  | rightParen =>
    simp only [kind] at h
    split at h
    · cases h
    · cases h
    · cases h
      rfl
  | comma =>
    simp only [kind] at h
    split at h
    · cases h
    · cases h
      rfl
  | number | identifier | leftParen =>
    rw [kind] at h
    cases h
    rfl

/-- A token on which the parser stops is not expected there, or opens too much. -/
theorem step_error {mode : Mode} {t : Token} (emitted : t.Emitted) {error : ParseError}
    (h : step limits stack mode t = .error error) :
    error = .unexpected t ∨
      error = .tooNested t limits.nesting ∧ exceeds (nesting stack + 1) limits.nesting = true := by
  cases mode with
  | operand => exact stepOperand_error emitted h
  | firstArgument =>
    unfold step at h
    dsimp only at h
    split at h
    · cases h
    · exact stepOperand_error emitted h
  | named name =>
    rw [step] at h
    split at h
    · exact .inr (openFrame_error h)
    · exact .inl (stepOperator_error h)
  | operator operand => exact .inl (stepOperator_error h)

theorem finish_error {mode : Mode} {error : ParseError}
    (h : finish length stack mode = .error error) : error = .endOfInput length := by
  cases mode with
  | operand | firstArgument =>
    cases h
    rfl
  | named name =>
    simp only [finish] at h
    split at h
    · cases h
    · cases h
      rfl
  | operator operand =>
    simp only [finish] at h
    split at h
    · cases h
    · cases h
      rfl

theorem parseFrom_error {ts : List Token} (emitted : ∀ t ∈ ts, t.Emitted) {mode : Mode}
    {error : ParseError} (h : parseFrom limits length stack mode ts = .error error) :
    error.IsAbout limits length ts := by
  induction ts generalizing stack mode with
  | nil =>
    rw [finish_error h]
    rfl
  | cons t rest ih =>
    rw [parseFrom] at h
    split at h
    · have later := ih (fun u member => emitted u (List.mem_cons_of_mem t member)) h
      exact later.cons t
    · next stopped =>
      cases h
      rcases step_error (emitted t List.mem_cons_self) stopped with rfl | ⟨rfl, -⟩
      · exact List.mem_cons_self
      · exact ⟨List.mem_cons_self, rfl⟩

/-- **Where the parser gives no tree it says what is wrong with the tokens.** -/
theorem parse_error {ts : List Token} (emitted : ∀ t ∈ ts, t.Emitted) {error : ParseError}
    (h : parse limits length ts = .error error) : error.IsAbout limits length ts := by
  rw [parse_eq_parseFrom] at h
  split at h
  · next stopped =>
    cases h
    exact parseFrom_error emitted stopped
  · split at h
    · cases h
      rfl
    · cases h

end BusinessCase.Formula
