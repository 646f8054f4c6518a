/-
BusinessCase.Proofs.Formula.Room — reading on a stack of a fixed size.

No frame takes more than five places, and only the nesting limit bounds how
many frames are open. A limit that is low enough therefore keeps every token
list on the stack; a high one does not, whatever it admits otherwise.

  §1 Frames — places and nesting of what is open.
  §2 Whole  — `parseStop?_eq_none`, and `parse_exact`.
  §3 Nested — a tree in ever more parentheses.
-/
import BusinessCase.Formula.Stack
import BusinessCase.Proofs.Formula.Reading

namespace BusinessCase.Formula

variable {limits : Limits} {length : Nat} {stack : List Frame} {read : List Token}

/-! ## §1 Frames -/

theorem placesOf_cons (frame : Frame) (stack : List Frame) :
    placesOf (frame :: stack) = frame.places + placesOf stack := by
  simp only [placesOf, ← List.sum_eq_foldl_nat, List.map_cons, List.sum_cons]

theorem nesting_cons_not {frame : Frame} (nests : frame.nests = false) (stack : List Frame) :
    nesting (frame :: stack) = nesting stack := by
  simp [nesting, nests]

/-- A frame takes five places at most, and none unless it counts as nesting. -/
theorem placesOf_le (stack : List Frame) : placesOf stack ≤ 5 * nesting stack := by
  induction stack with
  | nil => exact Nat.le_refl 0
  | cons frame rest ih =>
    rw [placesOf_cons]
    cases frame with
    | sum | product =>
      rw [nesting_cons_not rfl]
      simpa only [Frame.places, Nat.zero_add] using ih
    | sign | group | call =>
      rw [nesting_cons_nests rfl]
      simp only [Frame.places]
      omega

/-- No token needs more than what is open takes. -/
theorem placesAt_le (stack : List Frame) (mode : Mode) (t : Token) :
    placesAt stack mode t ≤ placesOf stack := by
  cases mode with
  | operand => exact Nat.le_refl _
  | firstArgument =>
    simp only [placesAt]
    split <;> omega
  | named | operator => exact Nat.zero_le _

/-- Behind an operand nothing is needed. -/
theorem placesAt_behind {mode : Mode} (behind : mode.startsOperand = false) (t : Token) :
    placesAt stack mode t = 0 := by
  cases mode with
  | operand | firstArgument => cases behind
  | named | operator => rfl

/-- Where something nests, the limit has been held against it. -/
theorem Opens.room (opens : Opens limits stack read) :
    nesting stack = 0 ∨ exceeds (nesting stack) limits.nesting = false := by
  induction opens with
  | nothing => exact .inl rfl
  | sum _ _ _ _ _ ih => exact ih
  | product _ _ _ _ _ ih => exact ih
  | sign _ _ room => exact .inr (by rwa [nesting_cons_nests rfl])
  | group _ _ room => exact .inr (by rwa [nesting_cons_nests rfl])
  | call _ _ _ room => exact .inr (by rwa [nesting_cons_nests rfl])
  | arguments _ _ _ room => exact .inr (by rwa [nesting_cons_nests rfl])

theorem Reads.room {mode : Mode} (reads : Reads limits stack mode read) :
    nesting stack = 0 ∨ exceeds (nesting stack) limits.nesting = false := by
  cases reads with
  | operand below => exact below.room
  | firstArgument below isName opens room => exact .inr (by rwa [nesting_cons_nests rfl])
  | named below => exact below.room
  | operator below => exact below.room

/-! ## §2 Whole -/

/-- An error takes two places at most. -/
theorem ParseError.places_le (mode : Mode) (e : ParseError) : e.places mode ≤ 2 := by
  cases e <;> simp only [ParseError.places] <;> first | (split <;> omega) | omega

/-- Where two places are left, there is room for every error. -/
theorem errorStop?_eq_none (fits : placesOf stack + limits.taken ≤ readingPlaces) (mode : Mode)
    (e : ParseError) : errorStop? limits stack mode e = none := by
  have few := e.places_le mode
  refine if_neg (Nat.not_lt.mpr ?_)
  simp only [readingPlaces, operandPlaces] at fits ⊢
  omega

/-- Reading goes on behind a token that can follow, if there was room for it. -/
theorem readStopFrom?_cons (counts : limits.nesting.isComparable) {mode next : Mode} {t : Token}
    {after : List Frame} (stepped : step limits stack mode t = .ok (after, next))
    (rest : List Token) :
    readStopFrom? limits length stack mode (t :: rest) =
      if operandPlaces < placesAt stack mode t + limits.taken then some .stackExhausted
      else readStopFrom? limits length after next rest := by
  rw [readStopFrom?, stepped]
  simp only [counts, Bool.not_true, Bool.and_false, Bool.false_eq_true, if_false]

/-- The reading of the tokens that are left goes on to its end if the stack has room for whatever is
open on the way. -/
theorem Reads.goesOn (counts : limits.nesting.isComparable) (comparable : limits.depth.isComparable)
    {ts : List Token} (emitted : ∀ t ∈ ts, t.Emitted) {mode : Mode}
    (reads : Reads limits stack mode read)
    (fits : ∀ after mode' front, Reads limits after mode' front → front <+: read ++ ts →
      placesOf after + limits.taken ≤ readingPlaces) :
    readStopFrom? limits length stack mode ts = none := by
  have here := fits stack mode read reads (List.prefix_append _ _)
  induction ts generalizing stack mode read with
  | nil =>
    rw [readStopFrom?]
    split
    · exact if_pos comparable
    · exact errorStop?_eq_none here mode _
  | cons t rest ih =>
    cases stepped : Formula.step limits stack mode t with
    | error =>
      rw [readStopFrom?, stepped]
      exact errorStop?_eq_none here mode _
    | ok state =>
      obtain ⟨after, mode'⟩ := state
      have reads' := reads.step (emitted t List.mem_cons_self) stepped
      have whole : read ++ t :: rest = read ++ [t] ++ rest := by simp
      have needed := placesAt_le stack mode t
      have within : ¬ operandPlaces < placesAt stack mode t + limits.taken := by
        simp only [readingPlaces, operandPlaces] at here ⊢
        omega
      rw [readStopFrom?_cons counts stepped, if_neg within]
      exact ih (fun u member => emitted u (List.mem_cons_of_mem t member)) reads'
        (fun after mode' front opened stands => fits after mode' front opened (whole ▸ stands))
        (fits after mode' _ reads' (whole ▸ List.prefix_append _ _))

/-- **A low nesting limit keeps every reading on the stack.** -/
theorem parseStop?_eq_none {k : Int} (bound : limits.nesting = .int k)
    (comparable : limits.depth.isComparable) (low : limits.taken + 5 * k.toNat ≤ readingPlaces)
    {ts : List Token} (emitted : ∀ t ∈ ts, t.Emitted) : parseStop? limits length ts = none := by
  have counts : limits.nesting.isComparable = true := by rw [bound]; rfl
  refine (Reads.start limits).goesOn counts comparable emitted fun after _ _ opened _ => ?_
  have room : nesting after ≤ k.toNat := by
    rcases opened.room with none | within
    · omega
    · have : ¬ k < (nesting after : Int) := by simpa [exceeds, bound] using within
      omega
  have places := placesOf_le after
  omega

/-- **What the parser gives, for all tokens and limits.** It gives a tree if and only if the tree
has a derivation that opens nothing, or no more at once than the nesting limit, and is no higher
than the depth limit; else an error about the tokens or a limit. No token list has two trees. A
nesting limit whose fivefold the stack has room for keeps the reading on the stack. -/
theorem parse_exact (limits : Limits) (length : Nat) {ts : List Token}
    (emitted : ∀ t ∈ ts, t.Emitted) :
    (∀ tree, parse limits length ts = .ok tree ↔
      ∃ n, Derives .sum ts tree n ∧ (n = 0 ∨ exceeds n limits.nesting = false) ∧
        exceeds tree.height limits.depth = false) ∧
    (∀ error, parse limits length ts = .error error → error.IsAbout limits length ts) ∧
    (∀ first second m n, Derives .sum ts first m → Derives .sum ts second n → first = second) ∧
    (∀ k : Int, limits.nesting = .int k → limits.depth.isComparable →
      limits.taken + 5 * k.toNat ≤ readingPlaces → parseStop? limits length ts = none) :=
  ⟨fun _ => parse_eq_ok_iff emitted, fun _ => parse_error emitted,
    fun _ _ _ _ left right => left.unique emitted right,
    fun _ bound comparable low => parseStop?_eq_none bound comparable low emitted⟩

/-- The theorem at `2*-x`, under the limits of a default configuration. -/
theorem parse_exact_product :
    parse {} 4 [⟨.number, "2", 0⟩, ⟨.operator, "*", 1⟩, ⟨.operator, "-", 2⟩,
      ⟨.identifier, "x", 3⟩] =
        .ok (.binary .times (.number 2) (.unary .minus (.reference "x"))) := by
  have emitted : ∀ t ∈ [(⟨.number, "2", 0⟩ : Token), ⟨.operator, "*", 1⟩, ⟨.operator, "-", 2⟩,
      ⟨.identifier, "x", 3⟩], t.Emitted := by
    intro t member
    simp only [List.mem_cons, List.not_mem_nil, or_false] at member
    rcases member with rfl | rfl | rfl | rfl
    · exact ⟨'2', [], _, rfl, rfl, rfl⟩
    · exact ⟨'*', [], _, rfl, rfl, rfl⟩
    · exact ⟨'-', [], _, rfl, rfl, rfl⟩
    · exact ⟨'x', [], _, rfl, rfl, rfl⟩
  have two : Derives .product [⟨.number, "2", 0⟩] (.number 2) 0 :=
    .signed (.primary (.number rfl rfl))
  have negated : Derives .signed [⟨.operator, "-", 2⟩, ⟨.identifier, "x", 3⟩]
      (.unary .minus (.reference "x")) 1 :=
    .sign ⟨rfl, .inr rfl⟩ (.primary (.reference rfl))
  exact ((parse_exact {} 4 emitted).1 _).mpr
    ⟨1, .product (.times two ⟨rfl, .inl rfl⟩ negated), .inr rfl, rfl⟩

/-- Limits that keep every reading on the stack: the nesting limit is a whole number whose fivefold
fits, and the other limits can be compared with counts. -/
structure Limits.Safe (limits : Limits) : Prop where
  nesting : ∃ k : Int, limits.nesting = .int k ∧ limits.taken + 5 * k.toNat ≤ readingPlaces
  depth : limits.depth.isComparable
  expressionLength : limits.expressionLength.isComparable

/-- What stops the reading of a text stops that of its tokens, if the text is not too long. -/
theorem readStop?_of_tokens (counted : limits.expressionLength.isComparable) {expression : String}
    {ts : List Token} (scanned : tokens expression = .ok ts) :
    readStop? limits expression =
      if exceeds (Text.size expression) limits.expressionLength then none
      else parseStop? limits expression.length ts := by
  rw [readStop?, counted, scanned]
  rfl

theorem readStop?_eq_none (safe : limits.Safe) (expression : String) :
    readStop? limits expression = none := by
  obtain ⟨k, bound, low⟩ := safe.nesting
  cases scanned : tokens expression with
  | error =>
    rw [readStop?, safe.expressionLength, scanned]
    exact ite_self _
  | ok ts =>
    rw [readStop?_of_tokens safe.expressionLength scanned]
    split
    · rfl
    · exact parseStop?_eq_none bound safe.depth low (emitted_of_mem_tokens scanned)

/-! ## §3 Nested -/

/-- The number one inside `k` pairs of parentheses. -/
def nestedOne : (k : Nat) → List Char
  | 0 => ['1']
  | k + 1 => '(' :: (nestedOne k ++ [')'])

/-- Its tokens, the first of them at `offset`. -/
def nestedTokens (offset : Nat) : (k : Nat) → List Token
  | 0 => [⟨.number, "1", offset⟩]
  | k + 1 => ⟨.leftParen, "(", offset⟩ ::
      (nestedTokens (offset + 1) k ++ [⟨.rightParen, ")", offset + 2 * k + 2⟩])

/-- The text is scanned into the tokens, whatever follows, unless that goes on the number. -/
theorem tokensFrom_nestedOne (k : Nat) {offset : Nat} {rest : List Char}
    (ends : rest = [] ∨ ∃ later, rest = ')' :: later) :
    tokensFrom offset (nestedOne k ++ rest) =
      (tokensFrom (offset + 2 * k + 1) rest).map (nestedTokens offset k ++ ·) := by
  induction k generalizing offset rest with
  | zero =>
    have scanned : lexeme '1' rest = some ⟨.number, ['1'], rest⟩ := by
      rcases ends with rfl | ⟨later, rfl⟩ <;> rfl
    exact tokensFrom_cons offset (by decide) scanned
  | succ k ih =>
    have opened : tokensFrom offset ('(' :: (nestedOne k ++ ')' :: rest)) =
        (tokensFrom (offset + 1) (nestedOne k ++ ')' :: rest)).map
          (⟨.leftParen, "(", offset⟩ :: ·) :=
      tokensFrom_cons offset (by decide : '(' ≠ ' ') rfl
    have inside : tokensFrom (offset + 1) (nestedOne k ++ ')' :: rest) =
        (tokensFrom (offset + 1 + 2 * k + 1) (')' :: rest)).map
          (nestedTokens (offset + 1) k ++ ·) :=
      ih (.inr ⟨rest, rfl⟩)
    have closed : tokensFrom (offset + 2 * k + 2) (')' :: rest) =
        (tokensFrom (offset + 2 * k + 2 + 1) rest).map
          (⟨.rightParen, ")", offset + 2 * k + 2⟩ :: ·) :=
      tokensFrom_cons _ (by decide : ')' ≠ ' ') rfl
    have whole : nestedOne (k + 1) ++ rest = '(' :: (nestedOne k ++ ')' :: rest) := by
      simp [nestedOne]
    have behind : offset + 1 + 2 * k + 1 = offset + 2 * k + 2 := by omega
    have after : offset + 2 * (k + 1) + 1 = offset + 2 * k + 2 + 1 := by omega
    rw [whole, opened, inside, behind, closed, after]
    cases tokensFrom (offset + 2 * k + 2 + 1) rest <;> simp [Except.map, nestedTokens]

/-- The grammar derives them, with as much open at once as there are pairs. -/
theorem derives_nestedTokens {x : Float} (value : Decimal.readFloat? "1" = some x)
    (offset k : Nat) : Derives .sum (nestedTokens offset k) (.number x) k := by
  induction k generalizing offset with
  | zero => exact .product (.signed (.primary (.number rfl value)))
  | succ k ih => exact .product (.signed (.primary (.group rfl (ih (offset + 1)) rfl)))

/-- The tokens start with all their opening parentheses. -/
theorem exists_openings (offset k : Nat) :
    ∃ openings rest, nestedTokens offset k = openings ++ rest ∧ openings.length = k ∧
      ∀ t ∈ openings, t.kind = .leftParen := by
  induction k generalizing offset with
  | zero => exact ⟨[], _, rfl, rfl, by simp⟩
  | succ k ih =>
    obtain ⟨openings, rest, same, length, kinds⟩ := ih (offset + 1)
    refine ⟨⟨.leftParen, "(", offset⟩ :: openings,
      rest ++ [⟨.rightParen, ")", offset + 2 * k + 2⟩], ?_, ?_, ?_⟩
    · rw [nestedTokens, same, List.append_assoc]
      rfl
    · rw [List.length_cons, length]
    · simpa using kinds

/-- An operand cannot be read where more is open than the stack has places for. -/
theorem readStopFrom?_full (full : operandPlaces < placesOf stack + limits.taken)
    (ts : List Token) : readStopFrom? limits length stack .operand ts = some .stackExhausted := by
  have failed (e : ParseError) : errorStop? limits stack .operand e = some .stackExhausted :=
    if_pos (by omega)
  cases ts with
  | nil => exact failed _
  | cons t rest =>
    rw [readStopFrom?]
    split
    · exact failed _
    · exact if_pos full

/-- Opening parentheses fill the stack where the nesting limit has room for them. -/
theorem readStopFrom?_openings (comparable : limits.nesting.isComparable) {openings : List Token}
    (kinds : ∀ t ∈ openings, t.kind = .leftParen)
    (full : operandPlaces < placesOf stack + 4 * openings.length + limits.taken)
    (room : limits.Allows (nesting stack) openings.length) (rest : List Token) :
    readStopFrom? limits length stack .operand (openings ++ rest) = some .stackExhausted := by
  induction openings generalizing stack with
  | nil =>
    rw [List.length_nil] at full
    exact readStopFrom?_full (by omega) rest
  | cons t openings ih =>
    obtain ⟨first, others⟩ := Limits.allows_succ.mp room
    have opened : step limits stack .operand t = .ok (.group :: stack, .operand) := by
      rw [step, stepOperand, kinds t List.mem_cons_self]
      exact openFrame_ok first
    have taller : placesOf (.group :: stack) = 4 + placesOf stack := placesOf_cons _ _
    rw [List.length_cons] at full
    rw [List.cons_append, readStopFrom?_cons comparable opened]
    split
    · rfl
    · exact ih (fun u member => kinds u (List.mem_cons_of_mem t member)) (by omega)
        (allows_inside rfl others)

/-- **A high nesting limit does not keep every reading on the stack.** -/
theorem parseStop?_nestedTokens (comparable : limits.nesting.isComparable) {offset k : Nat}
    (room : limits.Allows 0 k) (full : operandPlaces < 4 * k + limits.taken) :
    parseStop? limits length (nestedTokens offset k) = some .stackExhausted := by
  obtain ⟨openings, rest, same, count, kinds⟩ := exists_openings offset k
  have empty : placesOf [] = 0 := rfl
  have inside : limits.Allows (nesting []) openings.length := by rwa [count]
  rw [same]
  exact readStopFrom?_openings comparable kinds (by omega) inside rest

theorem tokens_nestedOne (k : Nat) :
    tokens (String.ofList (nestedOne k)) = .ok (nestedTokens 0 k) := by
  have scanned : tokensFrom 0 (nestedOne k ++ []) =
      (tokensFrom (0 + 2 * k + 1) []).map (nestedTokens 0 k ++ ·) :=
    tokensFrom_nestedOne k (.inl rfl)
  rw [List.append_nil] at scanned
  rw [tokens, String.toList_ofList, scanned, tokensFrom]
  simp [Except.map]

/-- No character of the text is the mark of a stand-in. -/
theorem size_nestedOne (k : Nat) : Text.size (String.ofList (nestedOne k)) = 2 * k + 1 := by
  have codes_append (k : Nat) (rest : List Char) :
      (Text.codes (nestedOne k ++ rest)).length = 2 * k + 1 + (Text.codes rest).length := by
    induction k generalizing rest with
    | zero =>
      have one := Text.codes_cons (by decide : '1' ≠ Text.mark) rest
      simp [nestedOne, one, Nat.add_comm]
    | succ k ih =>
      have opening := Text.codes_cons (by decide : '(' ≠ Text.mark) (nestedOne k ++ ')' :: rest)
      have closing := Text.codes_cons (by decide : ')' ≠ Text.mark) rest
      have whole : nestedOne (k + 1) ++ rest = '(' :: (nestedOne k ++ ')' :: rest) := by
        simp [nestedOne]
      rw [whole, opening, List.length_cons, ih, closing, List.length_cons]
      omega
  have whole := codes_append k []
  rw [List.append_nil] at whole
  rw [Text.size, String.toList_ofList, whole]
  rfl

theorem isAllBlank_nestedOne (k : Nat) :
    Text.isAllBlank (String.ofList (nestedOne k)) = false := by
  rw [Text.isAllBlank, String.toList_ofList]
  cases k <;> rfl

/-- The text of so many parentheses cannot be read either. -/
theorem readStop?_nestedOne (counted : limits.expressionLength.isComparable) {k : Nat}
    (short : exceeds (2 * k + 1) limits.expressionLength = false)
    (comparable : limits.nesting.isComparable) (room : limits.Allows 0 k)
    (full : operandPlaces < 4 * k + limits.taken) :
    readStop? limits (String.ofList (nestedOne k)) = some .stackExhausted := by
  rw [readStop?_of_tokens counted (tokens_nestedOne k), size_nestedOne, short]
  exact parseStop?_nestedTokens comparable room full

/-- Nested parentheses are read as far as the stack and the nesting limit have room for them. -/
theorem readStopFrom?_nestedTokens (comparable : limits.nesting.isComparable) {x : Float}
    (value : Decimal.readFloat? "1" = some x) {k : Nat} (settled : Settled stack)
    (fits : placesOf stack + 4 * k + limits.taken ≤ operandPlaces)
    (room : limits.Allows (nesting stack) k) (offset : Nat) (rest : List Token) :
    readStopFrom? limits length stack .operand (nestedTokens offset k ++ rest) =
      readStopFrom? limits length stack (.operator (.number x)) rest := by
  induction k generalizing stack offset rest with
  | zero =>
    have one : step limits stack .operand ⟨.number, "1", offset⟩ =
        .ok (stack, .operator (.number x)) := by
      rw [step, stepOperand, value]
      exact congrArg _ (complete_of_settled settled _)
    have needed : placesAt stack .operand ⟨.number, "1", offset⟩ = placesOf stack := rfl
    rw [nestedTokens, List.singleton_append, readStopFrom?_cons comparable one, needed,
      if_neg (by omega)]
  | succ k ih =>
    obtain ⟨first, others⟩ := Limits.allows_succ.mp room
    have taller : placesOf (.group :: stack) = 4 + placesOf stack := placesOf_cons _ _
    have opened : step limits stack .operand ⟨.leftParen, "(", offset⟩ =
        .ok (.group :: stack, .operand) := openFrame_ok first
    have closed : step limits (.group :: stack) (.operator (.number x))
        ⟨.rightParen, ")", offset + 2 * k + 2⟩ = .ok (stack, .operator (.number x)) := by
      rw [step_closing_group rfl rfl, complete_of_settled settled]
    have needed : placesAt stack .operand ⟨.leftParen, "(", offset⟩ = placesOf stack := rfl
    have grouped : Settled (.group :: stack) := trivial
    have whole : nestedTokens offset (k + 1) ++ rest = ⟨.leftParen, "(", offset⟩ ::
        (nestedTokens (offset + 1) k ++ ⟨.rightParen, ")", offset + 2 * k + 2⟩ :: rest) := by
      simp [nestedTokens]
    rw [whole, readStopFrom?_cons comparable opened, needed, if_neg (by omega),
      ih grouped (by omega) (allows_inside rfl others), readStopFrom?_cons comparable closed,
      placesAt_behind rfl, if_neg (by omega)]

/-- The text of so many parentheses is read. -/
theorem readStop?_nestedOne_eq_none (counted : limits.expressionLength.isComparable)
    (comparable : limits.nesting.isComparable) (deep : limits.depth.isComparable) {x : Float}
    (value : Decimal.readFloat? "1" = some x) {k : Nat} (room : limits.Allows 0 k)
    (fits : 4 * k + limits.taken ≤ operandPlaces) :
    readStop? limits (String.ofList (nestedOne k)) = none := by
  have empty : placesOf [] = 0 := rfl
  rw [readStop?_of_tokens counted (tokens_nestedOne k)]
  split
  · rfl
  · have settled : Settled [] := trivial
    rw [parseStop?, ← List.append_nil (nestedTokens 0 k),
      readStopFrom?_nestedTokens comparable value settled (by omega) room, readStopFrom?]
    exact if_pos deep

/-- Neither bound on the limits can be left out: a limit below zero does not keep out what opens
nothing, and three hundred parentheses exhaust the stack under a limit of a thousand. -/
theorem parse_beyond_limits :
    (parse { nesting := .int (-1) } 1 [⟨.identifier, "x", 0⟩] = .ok (.reference "x") ∧
      ∀ n, exceeds n (.int (-1)) = true) ∧
    (Derives .sum (nestedTokens 0 300) (.number 1) 300 ∧ exceeds 300 (.int 1000) = false ∧
      exceeds (Expr.height (.number (1 : Float))) (.int 256) = false ∧
      parseStop? { nesting := .int 1000 } 601 (nestedTokens 0 300) = some .stackExhausted) := by
  have name : ∀ t ∈ [(⟨.identifier, "x", 0⟩ : Token)], t.Emitted := by
    simpa using ⟨'x', [], _, rfl, rfl, rfl⟩
  refine ⟨⟨?_, fun n => ?_⟩, derives_nestedTokens rfl 0 300, rfl, rfl, ?_⟩
  · exact (parse_eq_ok_iff name).mpr
      ⟨0, .product (.signed (.primary (.reference rfl))), .inl rfl, rfl⟩
  · simp only [exceeds, decide_eq_true_eq]
    omega
  · exact parseStop?_nestedTokens rfl (Limits.allows_whole.mpr (.inr rfl)) (by decide)

end BusinessCase.Formula
