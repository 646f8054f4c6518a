/-
BusinessCase.Proofs.Formula.Viability — where a text stops being a formula.

What the parser has read can always be completed: an operand where one is due,
then a parenthesis for each that is open. A token that it does not take cannot
stand there whatever follows. So an error points at the first token with which
the text is no beginning of a formula any more, or at the end of a text that
breaks off.

  §1 Sentences — `IsSentence`, `IsViable`.
  §2 Endings   — what completes open frames: `Reads.completes`.
  §3 Limits    — `Unlimited`, reading as far as no limit is in the way.
  §4 Errors    — `Reached`, and the first token that cannot follow.
  §5 Room      — the places that a text takes on the stack.
  §6 Whole     — `Limits.Silent`, `treeOf_earliest`.
  §7 Openings  — a text that no limit and no error of its tokens stops.
-/
import BusinessCase.Proofs.Formula.Room
import BusinessCase.Proofs.Formula.Spacing

namespace BusinessCase.Formula

variable {limits : Limits} {length : Nat} {stack : List Frame} {mode : Mode} {read : List Token}

/-! ## §1 Sentences -/

/-- The tokens are a whole formula. -/
def IsSentence (ts : List Token) : Prop := ∃ e n, Derives .sum ts e n

/-- Tokens of a text can follow so that the whole is a formula. -/
def IsViable (ts : List Token) : Prop :=
  ∃ more, (∀ t ∈ more, t.Emitted) ∧ IsSentence (ts ++ more)

/-! ## §2 Endings -/

/-- The number one, where an operand is due. -/
def oneToken : Token := ⟨.number, "1", 0⟩

def closingToken : Token := ⟨.rightParen, ")", 0⟩

theorem emitted_oneToken : oneToken.Emitted := ⟨'1', [], _, rfl, rfl, rfl⟩

theorem emitted_closingToken : closingToken.Emitted := ⟨')', [], _, rfl, rfl, rfl⟩

/-- A closing parenthesis for each parenthesis and call that is open. -/
def closers : List Frame → List Token
  | [] => []
  | .group :: stack | .call _ _ :: stack => closingToken :: closers stack
  | .sum _ _ :: stack | .product _ _ :: stack | .sign _ :: stack => closers stack

theorem eq_closingToken_of_mem_closers (stack : List Frame) :
    ∀ t ∈ closers stack, t = closingToken := by
  induction stack with
  | nil => simp [closers]
  | cons frame rest ih => cases frame <;> simpa [closers] using ih

theorem closers_cases (stack : List Frame) :
    closers stack = [] ∨ ∃ rest, closers stack = closingToken :: rest := by
  cases same : closers stack with
  | nil => exact .inl rfl
  | cons t rest =>
    have closing := eq_closingToken_of_mem_closers stack t (by simp [same])
    exact .inr ⟨rest, by rw [closing]⟩

/-- A complete operand is all that is missing, apart from the closing parentheses. -/
theorem Opens.completes (opens : Opens limits stack read) (length : Nat) (e : Expr Float) :
    ∃ tree, runOn limits length stack e (closers stack) = .ok tree := by
  induction opens generalizing e with
  | nothing => exact ⟨e, rfl⟩
  | @sum stack read ts t left n below fresh _ _ _ ih =>
    obtain ⟨tree, ended⟩ := ih (.binary (.ofSign t.text) left e)
    have stops : Stops productSigns (closers stack) := by
      rcases closers_cases stack with none | ⟨rest, some⟩
      · rw [none]
        trivial
      · rw [some]
        rfl
    have settled : Settled (.sum left (.ofSign t.text) :: stack) := trivial
    refine ⟨tree, ?_⟩
    rw [runOn_of_settled fresh.settled] at ended
    rw [runOn_of_settled settled, closers, parseFrom_closeSum fresh stops, ended]
  | product below _ _ _ _ ih => exact ih _
  | sign below _ _ ih => exact ih _
  | group below _ _ ih =>
    obtain ⟨tree, ended⟩ := ih e
    exact ⟨tree, (parseFrom_cons (step_closing_group rfl rfl) _).trans ended⟩
  | call below _ _ _ ih | arguments below _ _ _ _ _ _ ih =>
    obtain ⟨tree, ended⟩ := ih _
    exact ⟨tree, (parseFrom_cons (step_closing_call rfl rfl) _).trans ended⟩

/-- **What has been read can be completed.** -/
theorem Reads.completes (reads : Reads limits stack mode read) (length : Nat) :
    ∃ more tree, (∀ t ∈ more, t.Emitted) ∧ parseFrom limits length stack mode more = .ok tree := by
  have closing (stack : List Frame) : ∀ t ∈ closers stack, t.Emitted := fun t member =>
    eq_closingToken_of_mem_closers stack t member ▸ emitted_closingToken
  cases reads with
  | operand below =>
    obtain ⟨x, value⟩ := emitted_oneToken.exists_number rfl
    obtain ⟨tree, ended⟩ := below.completes length (.number x)
    have taken : Formula.step limits stack .operand oneToken = .ok (complete stack (.number x)) := by
      simp only [Formula.step, stepOperand, oneToken] at value ⊢
      simp only [value]
    exact ⟨oneToken :: closers stack, tree,
      List.forall_mem_cons.mpr ⟨emitted_oneToken, closing stack⟩,
      (parseFrom_cons taken _).trans ended⟩
  | @firstArgument stack before name opening below isName opens room =>
    obtain ⟨tree, ended⟩ := below.completes length (.call name.text [])
    have closed : Formula.step limits (.call name.text [] :: stack) .firstArgument closingToken =
        .ok (complete stack (.call name.text [])) := rfl
    exact ⟨closingToken :: closers stack, tree,
      List.forall_mem_cons.mpr ⟨emitted_closingToken, closing stack⟩,
      (parseFrom_cons closed _).trans ended⟩
  | @named _ before name below isName =>
    obtain ⟨tree, ended⟩ := below.completes length (.reference name.text)
    have follow : CanFollow (closers stack) := by
      rcases closers_cases stack with none | ⟨rest, some⟩
      · rw [none]
        trivial
      · rw [some, CanFollow]
        decide
    exact ⟨closers stack, tree, closing stack, (parseFrom_named follow _).trans ended⟩
  | @operator _ before ts e n below settled derived room =>
    obtain ⟨tree, ended⟩ := below.completes length e
    rw [runOn_of_settled settled] at ended
    exact ⟨closers stack, tree, closing stack, ended⟩

theorem Reads.isViable (reads : Reads limits stack mode read) : IsViable read := by
  obtain ⟨more, tree, emitted, ended⟩ := reads.completes 0
  obtain ⟨n, derived, -⟩ := reads.derives emitted ended
  exact ⟨more, emitted, tree, n, derived⟩

/-! ## §3 Limits -/

theorem exceeds_none (count : Nat) : exceeds count Limits.none.nesting = false :=
  exceeds_eq count .null

/-- What comes of a token is the same without limits, unless it opens more than they allow. -/
def Unlimited (limits : Limits) (stack : List Frame) (t : Token)
    (bounded unbounded : Except ParseError (List Frame × Mode)) : Prop :=
  bounded = unbounded ∨
    bounded = .error (.tooNested t limits.nesting) ∧
      exceeds (nesting stack + 1) limits.nesting = true

variable (limits stack) in
theorem openFrame_unlimited (t : Token) (frame : Frame) (mode : Mode) :
    Unlimited limits stack t (openFrame limits t frame mode stack)
      (openFrame .none t frame mode stack) := by
  cases room : exceeds (nesting stack + 1) limits.nesting with
  | false => exact .inl ((openFrame_ok room).trans (openFrame_ok (exceeds_none _)).symm)
  | true => exact .inr ⟨by simp [openFrame, room], room⟩

variable (limits stack) in
theorem stepOperand_unlimited (t : Token) :
    Unlimited limits stack t (stepOperand limits stack t) (stepOperand .none stack t) := by
  unfold stepOperand
  cases t.kind with
  | leftParen => exact openFrame_unlimited limits stack t _ _
  | operator =>
    dsimp only
    split
    · exact openFrame_unlimited limits stack t _ _
    · exact .inl rfl
  | number | identifier | rightParen | comma => exact .inl rfl

variable (limits stack) in
theorem step_unlimited (mode : Mode) (t : Token) :
    Unlimited limits stack t (step limits stack mode t) (step .none stack mode t) := by
  unfold step
  cases mode with
  | operand => exact stepOperand_unlimited limits stack t
  | firstArgument =>
    dsimp only
    split
    · exact .inl rfl
    · exact stepOperand_unlimited limits _ t
  | named name =>
    dsimp only
    split
    · exact openFrame_unlimited limits stack t _ _
    · exact .inl rfl
  | operator operand => exact .inl rfl

/-- Tokens are read as if there were no limits, unless one of them opens too much. -/
theorem parseFrom_unlimited (ts : List Token) :
    parseFrom limits length stack mode ts = parseFrom .none length stack mode ts ∨
      ∃ t, parseFrom limits length stack mode ts = .error (.tooNested t limits.nesting) := by
  induction ts generalizing stack mode with
  | nil => exact .inl rfl
  | cons t rest ih =>
    rw [parseFrom, parseFrom]
    rcases step_unlimited limits _ mode t with same | ⟨nested, -⟩
    · rw [same]
      cases Formula.step .none stack mode t with
      | error error => exact .inl rfl
      | ok after => exact ih
    · rw [nested]
      exact .inr ⟨t, rfl⟩

/-- No more is open than tokens have been read. -/
theorem Opens.nesting_le (opens : Opens limits stack read) : nesting stack ≤ read.length := by
  induction opens with
  | nothing => exact Nat.le_refl 0
  | sum | product =>
    rw [nesting_cons_not rfl, List.length_append]
    omega
  | sign | group | call | arguments =>
    rw [nesting_cons_nests rfl, List.length_append]
    simp only [List.length_cons, List.length_append, List.length_nil]
    omega

theorem Reads.nesting_le (reads : Reads limits stack mode read) : nesting stack ≤ read.length := by
  cases reads with
  | operand below => exact below.nesting_le
  | firstArgument below isName opens room => exact (Opens.call below isName opens room).nesting_le
  | named below | operator below =>
    have le := below.nesting_le
    rw [List.length_append]
    omega

/-- Tokens that are no more than the nesting limit are read as if there were no limits. -/
theorem Reads.parseFrom_none {most : Nat} (room : exceeds most limits.nesting = false)
    {ts : List Token} (emitted : ∀ t ∈ ts, t.Emitted) (reads : Reads limits stack mode read)
    (few : (read ++ ts).length ≤ most) :
    parseFrom limits length stack mode ts = parseFrom .none length stack mode ts := by
  induction ts generalizing stack mode read with
  | nil => rfl
  | cons t rest ih =>
    have le := reads.nesting_le
    have within : exceeds (nesting stack + 1) limits.nesting = false := by
      refine exceeds_mono (Nat.le_trans ?_ few) limits.nesting room
      simp only [List.length_append, List.length_cons]
      omega
    have same : Formula.step limits stack mode t = Formula.step .none stack mode t := by
      rcases step_unlimited limits stack mode t with same | ⟨-, beyond⟩
      · exact same
      · rw [within] at beyond
        cases beyond
    rw [parseFrom, parseFrom, ← same]
    cases stepped : Formula.step limits stack mode t with
    | error error => rfl
    | ok after =>
      have reads' := reads.step (emitted t List.mem_cons_self) stepped
      exact ih (fun u member => emitted u (List.mem_cons_of_mem t member)) reads' (by simpa using few)

/-! ## §4 Errors -/

/-- The parser is in that state behind the tokens that it has read, if there are no limits. -/
structure Reached (length : Nat) (read : List Token) (stack : List Frame) (mode : Mode) : Prop where
  reads : Reads .none stack mode read
  goesOn : ∀ more, parseFrom .none length [] .operand (read ++ more) =
    parseFrom .none length stack mode more

theorem Reached.start (length : Nat) : Reached length [] [] .operand :=
  ⟨Reads.start .none, fun _ => rfl⟩

theorem Reached.step (reached : Reached length read stack mode) {t : Token} (emitted : t.Emitted)
    {after : List Frame} {mode' : Mode}
    (stepped : Formula.step .none stack mode t = .ok (after, mode')) :
    Reached length (read ++ [t]) after mode' := by
  refine ⟨reached.reads.step emitted stepped, fun more => ?_⟩
  rw [List.append_assoc, List.singleton_append, reached.goesOn, parseFrom_cons stepped]

/-- **A token that is not taken cannot stand there**, whatever follows. -/
theorem Reached.not_isSentence (reached : Reached length read stack mode) {t : Token}
    {error : ParseError} (stuck : Formula.step .none stack mode t = .error error)
    (more : List Token) : ¬ IsSentence (read ++ t :: more) := by
  rintro ⟨e, n, derived⟩
  have unbounded : Limits.none.Allows 0 n := fun count _ _ => exceeds_none count
  have taken : parseFrom .none length [] .operand (read ++ t :: more) = .ok e :=
    derived.parseFrom_eq_ok unbounded
  rw [reached.goesOn, parseFrom, stuck] at taken
  cases taken

/-- An error points at the first token with which the tokens cannot be the beginning of a formula, or
at the end of such a beginning. -/
inductive Earliest (length : Nat) (ts : List Token) : ParseError → Prop where
  | token {before after : List Token} {t : Token} (split : ts = before ++ t :: after)
      (viable : IsViable before) (stuck : ∀ more, ¬ IsSentence (before ++ t :: more)) :
      Earliest length ts (.unexpected t)
  | ending {more : List Token} (some_token : more ≠ []) (emitted : ∀ t ∈ more, t.Emitted)
      (sentence : IsSentence (ts ++ more)) : Earliest length ts (.endOfInput length)

/-- **Where no limit is in the way, errors are neither early nor late.** -/
theorem Reached.earliest (reached : Reached length read stack mode) {ts : List Token}
    (emitted : ∀ t ∈ ts, t.Emitted) {error : ParseError}
    (failed : parseFrom .none length stack mode ts = .error error) :
    Earliest length (read ++ ts) error := by
  -- Each token that is taken goes from the tokens that are left to those that have been read.
  induction ts generalizing read stack mode with
  | nil =>
    obtain ⟨more, tree, words, ended⟩ := reached.reads.completes length
    obtain ⟨n, derived, -⟩ := reached.reads.derives words ended
    have some_token : more ≠ [] := by
      rintro rfl
      rw [ended] at failed
      cases failed
    rw [finish_error failed, List.append_nil]
    exact .ending some_token words ⟨tree, n, derived⟩
  | cons t rest ih =>
    obtain ⟨first, others⟩ := List.forall_mem_cons.mp emitted
    rw [parseFrom] at failed
    cases stepped : Formula.step .none stack mode t with
    | ok after =>
      rw [stepped] at failed
      have later := ih (reached.step first stepped) others failed
      rwa [List.append_assoc, List.singleton_append] at later
    | error error' =>
      -- Where the first token is not taken, what has been read is viable and the token is the end.
      rw [stepped] at failed
      obtain rfl : error' = error := Except.error.inj failed
      rcases step_error first stepped with rfl | ⟨-, beyond⟩
      · exact .token rfl reached.reads.isViable (reached.not_isSentence stepped)
      · rw [exceeds_none] at beyond
        cases beyond

/-- The error says that a limit is exceeded. -/
def ParseError.isOfLimit : ParseError → Bool
  | .tooNested _ _ | .tooDeep _ | .tooLong _ => true
  | .endOfInput _ | .unexpected _ | .badNumeral _ => false

/-- An error of tokens that is not that of a limit is neither early nor late. -/
theorem parse_earliest {ts : List Token} (emitted : ∀ t ∈ ts, t.Emitted) {error : ParseError}
    (failed : parse limits length ts = .error error) (silent : error.isOfLimit = false) :
    Earliest length ts error := by
  rw [parse_eq_parseFrom] at failed
  split at failed
  · next stopped =>
    cases failed
    rcases parseFrom_unlimited ts with same | ⟨t, nested⟩
    · rw [same] at stopped
      exact (Reached.start length).earliest emitted stopped
    · rw [nested] at stopped
      cases stopped
      cases silent
  · split at failed
    · cases failed
      cases silent
    · cases failed

/-! ## §5 Room -/

/-- The most places that what a token opens can take. -/
def Token.places (t : Token) : Nat :=
  match t.kind with
  | .leftParen => 5
  | .operator => 1
  | _ => 0

def placesIn : List Token → Nat
  | [] => 0
  | t :: ts => t.places + placesIn ts

@[simp] theorem placesIn_cons (t : Token) (ts : List Token) :
    placesIn (t :: ts) = t.places + placesIn ts := rfl

@[simp] theorem placesIn_append (ts us : List Token) :
    placesIn (ts ++ us) = placesIn ts + placesIn us := by
  induction ts with
  | nil => simp [placesIn]
  | cons t ts ih => simp [ih, Nat.add_assoc]

/-- What is open takes no more places than the tokens that have been read can take. -/
theorem Opens.placesOf_le (opens : Opens limits stack read) : placesOf stack ≤ placesIn read := by
  induction opens with
  | nothing => exact Nat.le_refl 0
  | sum _ _ _ _ _ ih | product _ _ _ _ _ ih =>
    simp only [placesOf_cons, Frame.places, placesIn_append]
    omega
  | sign _ isSign _ ih =>
    simp only [placesOf_cons, Frame.places, placesIn_append, placesIn_cons, Token.places, isSign.1]
    omega
  | group _ opening _ ih =>
    simp only [placesOf_cons, Frame.places, placesIn_append, placesIn_cons, Token.places, opening]
    omega
  | call _ _ opening _ ih =>
    simp only [placesOf_cons, Frame.places, placesIn_append, placesIn_cons, Token.places, opening]
    omega
  | arguments _ _ opening _ _ _ _ ih =>
    simp only [placesOf_cons, Frame.places, placesIn_append, placesIn_cons, Token.places, opening]
    omega

theorem Reads.placesOf_le (reads : Reads limits stack mode read) :
    placesOf stack ≤ placesIn read := by
  cases reads with
  | operand below => exact below.placesOf_le
  | firstArgument below isName opens room => exact (Opens.call below isName opens room).placesOf_le
  | named below | operator below =>
    have le := below.placesOf_le
    rw [placesIn_append]
    omega

/-- The stack has room for tokens that open little. -/
theorem parseStop?_of_places (counts : limits.nesting.isComparable)
    (comparable : limits.depth.isComparable) {ts : List Token} (emitted : ∀ t ∈ ts, t.Emitted)
    (few : placesIn ts + limits.taken ≤ readingPlaces) : parseStop? limits length ts = none := by
  refine (Reads.start limits).goesOn counts comparable emitted fun after _ front opened stands => ?_
  obtain ⟨rest, whole⟩ := stands
  have places := opened.placesOf_le
  rw [List.nil_append] at whole
  rw [← whole, placesIn_append] at few
  omega

/-! ## §6 Whole -/

mutual

/-- A tree is no higher than it has tokens. -/
theorem Derives.height_le {p : Phrase} {ts : List Token} {e : Expr Float} {n : Nat} :
    Derives p ts e n → e.height ≤ ts.length
  | .number _ _ | .reference _ => by simp [Expr.height]
  | .emptyCall _ _ _ => by simp [Expr.height, Expr.heightAll]
  | .call _ _ inside _ => by
    have le := inside.heightAll_le
    simp only [Expr.height, List.length_cons, List.length_append]
    omega
  | .group _ inside _ => by
    have le := inside.height_le
    simp only [List.length_cons, List.length_append]
    omega
  | .primary h | .signed h | .product h => h.height_le
  | .sign _ argument => by
    have le := argument.height_le
    simp only [Expr.height, List.length_cons]
    omega
  | .times left _ right | .plus left _ right => by
    have first := left.height_le
    have second := right.height_le
    simp only [Expr.height, List.length_append, List.length_cons]
    omega

theorem DerivesAll.heightAll_le {ts : List Token} {es : List (Expr Float)} {n : Nat} :
    DerivesAll ts es n → Expr.heightAll es ≤ ts.length
  | .one h => by
    have le := h.height_le
    simpa [Expr.heightAll] using le
  | .more front _ last => by
    have first := front.heightAll_le
    have second := last.height_le
    simp only [Expr.heightAll_append, Expr.heightAll, List.length_append, List.length_cons]
    omega

end

/-- A text has no more tokens than characters. -/
theorem length_le_of_tokensFrom {start : Nat} {cs : List Char} {ts : List Token}
    (scanned : tokensFrom start cs = .ok ts) : ts.length ≤ cs.length := by
  fun_induction tokensFrom start cs generalizing ts with
  | case1 =>
    cases scanned
    exact Nat.le_refl 0
  | case2 start rest ih => exact Nat.le_succ_of_le (ih scanned)
  | case3 => cases scanned
  | case4 start c rest _ l taken ih =>
    obtain ⟨later, others, rfl⟩ := map_eq_ok scanned
    have shorter := lexeme_rest_length taken
    have few := ih others
    rw [List.length_cons]
    omega

/-- A text of so many characters reaches no limit. -/
structure Limits.Ample (limits : Limits) (size : Nat) : Prop where
  expressionLength : exceeds size limits.expressionLength = false
  nesting : exceeds size limits.nesting = false
  depth : exceeds size limits.depth = false

/-- The text is not refused for a limit. -/
def Limits.Silent (limits : Limits) (expression : String) : Prop :=
  ∀ error, Formula.read limits expression = .error (.parse error) → error.isOfLimit = false

variable {expression : String} {ts : List Token}

/-- Under limits that a text does not reach, no limit is an error of its tokens. -/
theorem parse_ample (scanned : tokens expression = .ok ts)
    (ample : limits.Ample (Text.size expression)) {error : ParseError}
    (failed : parse limits expression.length ts = .error error) : error.isOfLimit = false := by
  have emitted := emitted_of_mem_tokens scanned
  have few : ts.length ≤ Text.size expression := by
    rw [size_of_tokens scanned, ← String.length_toList]
    exact length_le_of_tokensFrom scanned
  rw [parse_eq_parseFrom, (Reads.start limits).parseFrom_none ample.nesting emitted few] at failed
  split at failed
  · next stopped =>
    cases failed
    cases (Reached.start expression.length).earliest emitted stopped with
    | token => rfl
    | ending => rfl
  · next e ended =>
    obtain ⟨n, derived, -⟩ := (parseFrom_eq_ok_iff emitted).mp ended
    have low : exceeds e.height limits.depth = false :=
      exceeds_mono (derived.height_le.trans few) limits.depth ample.depth
    rw [derived.depth_eq, low] at failed
    cases failed

theorem Limits.Ample.silent (ample : limits.Ample (Text.size expression))
    (scanned : tokens expression = .ok ts) : limits.Silent expression := by
  intro error failed
  rw [read_of_tokens scanned ample.expressionLength] at failed
  cases parsed : parse limits expression.length ts with
  | ok e =>
    rw [parsed] at failed
    cases failed
  | error error' =>
    rw [parsed] at failed
    cases failed
    exact parse_ample scanned ample parsed

/-- Where no limit is the reason, a text without a tree has an error of its tokens. -/
theorem exists_of_treeOf_error (scanned : tokens expression = .ok ts)
    (silent : limits.Silent expression) (room : readStop? limits expression = none)
    (fails : ∀ e, treeOf limits expression ≠ .ok e) :
    ∃ error, Formula.read limits expression = .error (.parse error) ∧
      parse limits expression.length ts = .error error := by
  cases short : exceeds (Text.size expression) limits.expressionLength with
  | true =>
    have long : Formula.read limits expression =
        .error (.parse (.tooLong limits.expressionLength)) := by
      rw [Formula.read, short, if_pos rfl]
    cases silent _ long
  | false =>
    have whole := read_of_tokens scanned short
    cases parsed : parse limits expression.length ts with
    | ok e =>
      refine absurd ?_ (fails e)
      rw [treeOf, room, whole, parsed]
      rfl
    | error error =>
      rw [parsed] at whole
      exact ⟨error, whole, rfl⟩

/-- Reading runs out of stack exactly where the stack stops it. -/
theorem treeOf_eq_stackExhausted_iff :
    treeOf limits expression = .error .stackExhausted ↔
      readStop? limits expression = some .stackExhausted := by
  unfold treeOf
  cases stop : readStop? limits expression with
  | some reason =>
    cases reason with
    | limitNotANumber => simp [Failure.ofReadStop]
    | stackExhausted => simp [Failure.ofReadStop]
  | none =>
    simp only [reduceCtorEq, iff_false]
    cases Formula.read limits expression with
    | ok e => simp [Except.mapError]
    | error error =>
      cases error with
      | lex e => simp [Except.mapError, Failure.ofSyntax]
      | parse e => cases e <;> simp [Except.mapError, Failure.ofSyntax, Failure.ofParse]

/-- **An error of a text points at the first token that cannot stand where it does.** Where no limit
is the reason and the stack has room for what the text opens, a text that has tokens and no tree
gives an error. The error tells the first token, as it stands in the text, such that the tokens
before it are the beginning of a formula and are none any more with it; or it tells the end of the
text, where all tokens are the beginning of a formula and more are needed. Limits no smaller than
the text are never the reason. There is room for every text whose opening parentheses, each counted
five times, and operators are few enough; where there is none, the stack runs out, and only there.
-/
theorem treeOf_earliest (limits : Limits) (scanned : tokens expression = .ok ts) :
    (limits.Silent expression → readStop? limits expression = none →
      (∀ e, treeOf limits expression ≠ .ok e) →
      ∃ offset found message,
        treeOf limits expression = .error (.engine (.parse offset found message)) ∧
        ((∃ before t after, ts = before ++ t :: after ∧
            found = some t.text ∧ offset = .int t.offset ∧
            t.text.toList <+: expression.toList.drop t.offset ∧ IsViable before ∧
            ∀ more, ¬ IsSentence (before ++ t :: more)) ∨
          found = none ∧ offset = .int (Text.size expression) ∧
            ∃ more, more ≠ [] ∧ (∀ t ∈ more, t.Emitted) ∧ IsSentence (ts ++ more))) ∧
    (limits.Ample (Text.size expression) → limits.Silent expression) ∧
    (limits.expressionLength.isComparable → limits.nesting.isComparable →
      limits.depth.isComparable → placesIn ts + limits.taken ≤ readingPlaces →
      readStop? limits expression = none) ∧
    (treeOf limits expression = .error .stackExhausted ↔
      readStop? limits expression = some .stackExhausted) := by
  have emitted := emitted_of_mem_tokens scanned
  refine ⟨fun silent room fails => ?_, fun ample => ample.silent scanned,
    fun counted counts comparable few => ?_, treeOf_eq_stackExhausted_iff⟩
  · obtain ⟨error, unread, parsed⟩ := exists_of_treeOf_error scanned silent room fails
    have failed : treeOf limits expression = .error (.ofSyntax (.parse error)) := by
      rw [treeOf, room, unread]
      rfl
    cases parse_earliest emitted parsed (silent error unread) with
    | @token before after t split viable stuck =>
      have scan := (tokensFrom_eq_ok_iff List.drop_zero).mp scanned
      have stands := (scan.words t (by simp [split])).stands
      exact ⟨_, _, _, failed, .inl ⟨before, t, after, split, rfl, rfl, stands, viable, stuck⟩⟩
    | @ending more some_token words sentence =>
      have size : (expression.length : Int) = Text.size expression := by
        rw [size_of_tokens scanned]
      exact ⟨_, _, _, failed,
        .inr ⟨rfl, congrArg Value.int size, more, some_token, words, sentence⟩⟩
  · rw [readStop?_of_tokens counted scanned]
    split
    · rfl
    · exact parseStop?_of_places counts comparable emitted few

/-- The theorem at `f(1,)`: arguments are missing behind the comma, which the parenthesis shows. -/
theorem treeOf_earliest_call :
    ∃ before t after, tokens "f(1,)" = .ok (before ++ t :: after) ∧ t = ⟨.rightParen, ")", 4⟩ ∧
      IsViable before ∧ ∀ more, ¬ IsSentence (before ++ t :: more) := by
  let ts : List Token := [⟨.identifier, "f", 0⟩, ⟨.leftParen, "(", 1⟩, ⟨.number, "1", 2⟩,
    ⟨.comma, ",", 3⟩, ⟨.rightParen, ")", 4⟩]
  have scanned : tokens "f(1,)" = .ok ts := by
    simp [ts, tokens, tokensFrom, lexeme, singleKind?, isOperatorSign, startsNumeral, splitNumeral,
      isIdentifierStart, isIdentifierPart, Except.map]
  obtain ⟨earliest, silent, room, -⟩ := treeOf_earliest {} scanned
  have unstopped : readStop? {} "f(1,)" = none := room rfl rfl rfl (by decide)
  have unread : Formula.read {} "f(1,)" =
      .error (.parse (.unexpected ⟨.rightParen, ")", 4⟩)) := by
    rw [read_of_tokens scanned rfl, parse_eq_parseFrom]
    rfl
  have failed : treeOf {} "f(1,)" =
      .error (.ofSyntax (.parse (.unexpected ⟨.rightParen, ")", 4⟩))) := by
    rw [treeOf, unstopped, unread]
    rfl
  have fails (e : Expr Float) : treeOf {} "f(1,)" ≠ .ok e := by
    rw [failed]
    simp
  obtain ⟨offset, found, message, told, cases⟩ :=
    earliest (silent ⟨rfl, rfl, rfl⟩) unstopped fails
  rw [failed] at told
  cases told
  rcases cases with ⟨before, t, after, split, text, -, -, viable, stuck⟩ | ⟨none, -⟩
  · have member : t ∈ ts := by simp [split]
    have shown : t.text = ")" := (Option.some.inj text).symm
    have same : t = ⟨.rightParen, ")", 4⟩ := by
      simp only [ts, List.mem_cons, List.not_mem_nil, or_false] at member
      rcases member with rfl | rfl | rfl | rfl | rfl
      · exact absurd shown (by decide)
      · exact absurd shown (by decide)
      · exact absurd shown (by decide)
      · exact absurd shown (by decide)
      · rfl
    exact ⟨before, t, after, split ▸ scanned, same, viable, stuck⟩
  · cases none

/-! ## §7 Openings -/

/-- So many opening parentheses, and nothing inside them. -/
def openings (k : Nat) : String := String.ofList (List.replicate k '(')

theorem tokens_openings (k : Nat) :
    tokens (openings k) = .ok ((List.range' 0 k).map (⟨.leftParen, "(", ·⟩)) := by
  have run (k offset : Nat) : tokensFrom offset (List.replicate k '(') =
      .ok ((List.range' offset k).map (⟨.leftParen, "(", ·⟩)) := by
    induction k generalizing offset with
    | zero => simp [tokensFrom]
    | succ k ih =>
      have opening : lexeme '(' (List.replicate k '(') =
          some ⟨.leftParen, ['('], List.replicate k '('⟩ := rfl
      rw [List.replicate_succ, tokensFrom_cons offset (by decide) opening, ih]
      rfl
  rw [tokens, openings, String.toList_ofList, run]

/-- Every formula has a number or a name. -/
theorem Derives.exists_operand {p : Phrase} {ts : List Token} {e : Expr Float} {n : Nat} :
    Derives p ts e n → ∃ t ∈ ts, t.kind = .number ∨ t.kind = .identifier
  | .number kind _ => ⟨_, List.mem_cons_self, .inl kind⟩
  | .reference kind | .emptyCall kind _ _ | .call kind _ _ _ => ⟨_, List.mem_cons_self, .inr kind⟩
  | .group _ inside _ => by
    obtain ⟨t, member, kind⟩ := inside.exists_operand
    exact ⟨t, by simp [member], kind⟩
  | .primary h | .signed h | .product h => h.exists_operand
  | .sign _ argument => by
    obtain ⟨t, member, kind⟩ := argument.exists_operand
    exact ⟨t, by simp [member], kind⟩
  | .times left _ _ | .plus left _ _ => by
    obtain ⟨t, member, kind⟩ := left.exists_operand
    exact ⟨t, by simp [member], kind⟩

/-- **A text can fill the stack before it turns out to be no formula**: three hundred opening
parentheses are within limits of a thousand, and no error tells that they are no formula. -/
theorem treeOf_openings :
    let limits : Limits := { nesting := .int 1000, depth := .int 1000 }
    limits.Ample (Text.size (openings 300)) ∧
      (∃ ts, tokens (openings 300) = .ok ts ∧ ¬ IsSentence ts) ∧
      treeOf limits (openings 300) = .error .stackExhausted := by
  intro limits
  have scanned := tokens_openings 300
  have size : Text.size (openings 300) = 300 := by
    rw [size_of_tokens scanned, openings, String.length_ofList, List.length_replicate]
  have kinds : ∀ t ∈ (List.range' 0 300).map (⟨.leftParen, "(", ·⟩ : Nat → Token),
      t.kind = .leftParen := by
    intro t member
    obtain ⟨offset, -, rfl⟩ := List.mem_map.mp member
    rfl
  refine ⟨by rw [size]; exact ⟨rfl, rfl, rfl⟩, ⟨_, scanned, ?_⟩, ?_⟩
  · rintro ⟨e, n, derived⟩
    obtain ⟨t, member, kind⟩ := derived.exists_operand
    rw [kinds t member] at kind
    simp at kind
  · have room : limits.Allows 0 300 := Limits.allows_whole.mpr (.inr rfl)
    have full : parseStop? limits (openings 300).length
        ((List.range' 0 300).map (⟨.leftParen, "(", ·⟩)) = some .stackExhausted := by
      have stopped : readStopFrom? limits (openings 300).length [] .operand
          ((List.range' 0 300).map (⟨.leftParen, "(", ·⟩) ++ []) = some .stackExhausted :=
        readStopFrom?_openings rfl kinds (by simp [placesOf, limits, operandPlaces])
          (by simpa [nesting] using room) []
      rwa [List.append_nil] at stopped
    have stopped : readStop? limits (openings 300) = some .stackExhausted := by
      have counted : limits.expressionLength.isComparable = true := rfl
      have short : exceeds 300 limits.expressionLength = false := rfl
      have counts := readStop?_of_tokens counted scanned
      rw [size, short, if_neg Bool.false_ne_true] at counts
      exact counts.trans full
    rw [treeOf, stopped]
    rfl

end BusinessCase.Formula
