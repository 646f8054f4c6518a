/-
BusinessCase.Proofs.Formula.RoundTrip — what is written for a tree is read back.

A tree that is written as a formula, with any number of spaces between the
words, is read as the same tree under limits that it keeps to. The stack has to
have room for what is open around an operand: one place for a sign, four for
parentheses and five for a call that has an argument. How many places a reading
takes at most is its peak; for a tree that is written as a formula it is worked
out by an induction on the tree, along with the frames that are opened and
closed.

  §1 Peak    — `peakFrom`, the most places that a reading takes.
  §2 Phrases — `Passes`, what a phrase does to the peak.
  §3 Trees   — `passes_words`.
  §4 Whole   — `treeOf_print`.
  §5 Calls   — a tree that its limits have room for, and the stack has not.
-/
import BusinessCase.Error
import BusinessCase.Proofs.Formula.Printing
import BusinessCase.Proofs.Formula.Room

namespace BusinessCase.Formula

variable {limits : Limits} {length : Nat} {stack : List Frame} {mode : Mode} {e : Expr Float}

/-! ## §1 Peak -/

/-- The most places that are needed while tokens are read, up to a token that cannot follow. -/
def peakFrom (limits : Limits) (stack : List Frame) (mode : Mode) : List Token → Nat
  | [] => 0
  | t :: rest =>
    max (placesAt stack mode t) (match step limits stack mode t with
      | .ok (stack, mode) => peakFrom limits stack mode rest
      | .error _ => 0)

section Steps

variable {t : Token} {after : List Frame} {next : Mode}

theorem peakFrom_cons (h : step limits stack mode t = .ok (after, next)) (rest : List Token) :
    peakFrom limits stack mode (t :: rest) =
      max (placesAt stack mode t) (peakFrom limits after next rest) := by
  rw [peakFrom, h]

theorem peakFrom_operand (h : step limits stack .operand t = .ok (after, next))
    (rest : List Token) :
    peakFrom limits stack .operand (t :: rest) =
      max (placesOf stack) (peakFrom limits after next rest) :=
  peakFrom_cons h rest

theorem peakFrom_behind (behind : mode.startsOperand = false)
    (h : step limits stack mode t = .ok (after, next)) (rest : List Token) :
    peakFrom limits stack mode (t :: rest) = peakFrom limits after next rest := by
  rw [peakFrom_cons h, placesAt_behind behind, Nat.zero_max]

end Steps

/-- A token that completes what is open around an operand. -/
theorem peakFrom_closing (behind : mode.startsOperand = false) {below : List Frame} {t : Token}
    (h : step limits stack mode t = .ok (complete below e)) (rest : List Token) :
    peakFrom limits stack mode (t :: rest) =
      peakFrom limits (complete below e).1 (complete below e).2 rest :=
  peakFrom_behind behind h rest

/-- **The stack runs out exactly where the peak is too high for it**, as long as the tokens are a
formula. -/
theorem readStopFrom?_eq (counts : limits.nesting.isComparable)
    (comparable : limits.depth.isComparable) (outside : limits.taken ≤ operandPlaces)
    {ts : List Token} (whole : parseFrom limits length stack mode ts = .ok e) :
    readStopFrom? limits length stack mode ts =
      if peakFrom limits stack mode ts + limits.taken ≤ operandPlaces then none
      else some .stackExhausted := by
  induction ts generalizing stack mode with
  | nil =>
    rw [parseFrom] at whole
    have low : 0 + limits.taken ≤ operandPlaces := by omega
    rw [readStopFrom?, whole, peakFrom, if_pos low]
    exact if_pos comparable
  | cons t rest ih =>
    rw [parseFrom] at whole
    cases stepped : step limits stack mode t with
    | error error =>
      rw [stepped] at whole
      cases whole
    | ok state =>
      obtain ⟨after, next⟩ := state
      rw [stepped] at whole
      rw [readStopFrom?_cons counts stepped, peakFrom_cons stepped]
      split
      · next full => rw [if_neg (by omega)]
      · next room =>
        rw [ih whole]
        congr 1
        exact propext (by omega)

/-! ## §2 Phrases -/

/-- The tokens of a phrase have been read when only those behind are left, and no more than so many
places were taken besides those below. A sum is left open at its last operator. -/
def Passes (limits : Limits) (stack : List Frame) (ts : List Token) (e : Expr Float) (room : Nat)
    (rest : List Token) : Phrase → Prop
  | .primary | .signed =>
    peakFrom limits stack .operand (ts ++ rest) = max (placesOf stack + room)
      (peakFrom limits (complete stack e).1 (complete stack e).2 rest)
  | .product =>
    Settled stack → peakFrom limits stack .operand (ts ++ rest) =
      max (placesOf stack + room) (peakFrom limits stack (.operator e) rest)
  | .sum =>
    Fresh stack → ∃ above last, closeSum above last = (stack, e) ∧ placesOf above = placesOf stack ∧
      peakFrom limits stack .operand (ts ++ rest) =
        max (placesOf stack + room) (peakFrom limits above (.operator last) rest)

theorem passes_leaf {t : Token} (read : step limits stack .operand t = .ok (complete stack e))
    (rest : List Token) : Passes limits stack [t] e 0 rest .primary :=
  peakFrom_operand read rest

/-- A name that no parenthesis follows is a reference. -/
theorem peakFrom_named {rest : List Token} (follow : CanFollow rest) (name : String) :
    peakFrom limits stack (.named name) rest =
      peakFrom limits (complete stack (.reference name)).1
        (complete stack (.reference name)).2 rest := by
  cases rest with
  | nil => rfl
  | cons t rest =>
    rw [peakFrom, peakFrom, step_named follow]
    rfl

theorem passes_reference {t : Token} (kind : t.kind = .identifier) {rest : List Token}
    (follow : CanFollow rest) :
    Passes limits stack [t] (.reference t.text) 0 rest .primary := by
  rw [Passes, List.singleton_append, peakFrom_operand (step_name kind), peakFrom_named follow]
  rfl

theorem passes_group {opening closing : Token} {ts rest : List Token} {room : Nat}
    (opens : opening.kind = .leftParen) (closes : closing.kind = .rightParen)
    (within : exceeds (nesting stack + 1) limits.nesting = false)
    (inside : Passes limits (.group :: stack) ts e room (closing :: rest) .sum) :
    Passes limits stack (opening :: (ts ++ [closing])) e (room + 4) rest .primary := by
  have opened : step limits stack .operand opening = .ok (.group :: stack, .operand) := by
    rw [step, stepOperand, opens]
    exact openFrame_ok within
  obtain ⟨above, last, closed, places, peak⟩ := inside trivial
  have whole : opening :: (ts ++ [closing]) ++ rest = opening :: (ts ++ closing :: rest) := by
    simp
  have taller : placesOf (.group :: stack) = 4 + placesOf stack := placesOf_cons _ _
  rw [Passes, whole, peakFrom_operand opened, peak,
    peakFrom_closing rfl (step_closing_group closes closed)]
  omega

theorem passes_sign {t : Token} {ts rest : List Token} {room : Nat} (isSign : t.IsSumSign)
    (within : exceeds (nesting stack + 1) limits.nesting = false)
    (argument : Passes limits (.sign (.ofSign t.text) :: stack) ts e room rest .signed) :
    Passes limits stack (t :: ts) (.unary (.ofSign t.text) e) (room + 1) rest .signed := by
  have taller : placesOf (.sign (.ofSign t.text) :: stack) = 1 + placesOf stack :=
    placesOf_cons _ _
  rw [Passes, List.cons_append, peakFrom_operand (step_sign isSign within), argument,
    complete_sign]
  omega

theorem passes_times {t : Token} {ts us rest : List Token} {l r : Expr Float} {m n : Nat}
    (isSign : t.IsProductSign) (left : Passes limits stack ts l m (t :: (us ++ rest)) .product)
    (right : Passes limits (.product l (.ofSign t.text) :: stack) us r n rest .signed) :
    Passes limits stack (ts ++ t :: us) (.binary (.ofSign t.text) l r) (max m n) rest .product := by
  intro settled
  have same : placesOf (.product l (.ofSign t.text) :: stack) = 0 + placesOf stack :=
    placesOf_cons _ _
  rw [List.append_assoc, List.cons_append, left settled,
    peakFrom_behind rfl (step_times isSign), right,
    complete_product, complete_of_settled settled]
  dsimp only
  omega

theorem passes_plus {t : Token} {ts us rest : List Token} {l r : Expr Float} {m n : Nat}
    (isSign : t.IsSumSign) (left : Passes limits stack ts l m (t :: (us ++ rest)) .sum)
    (right : Passes limits (.sum l (.ofSign t.text) :: stack) us r n rest .product) :
    Passes limits stack (ts ++ t :: us) (.binary (.ofSign t.text) l r) (max m n) rest .sum := by
  intro fresh
  obtain ⟨above, last, closed, places, peak⟩ := left fresh
  have same : placesOf (.sum l (.ofSign t.text) :: stack) = 0 + placesOf stack :=
    placesOf_cons _ _
  refine ⟨.sum l (.ofSign t.text) :: stack, r, rfl, by omega, ?_⟩
  rw [List.append_assoc, List.cons_append, peak,
    peakFrom_behind rfl (step_plus isSign closed),
    right trivial]
  omega

/-- What a phrase passes can stand where one that binds weaker can. -/
theorem Passes.loosen {p q : Phrase} {ts rest : List Token} {room : Nat}
    (passes : Passes limits stack ts e room rest q) (le : p.rank ≤ q.rank) :
    Passes limits stack ts e room rest p := by
  have signed (h : Passes limits stack ts e room rest .signed) :
      Passes limits stack ts e room rest .product := by
    intro settled
    rw [h, complete_of_settled settled]
  have product (h : Passes limits stack ts e room rest .product) :
      Passes limits stack ts e room rest .sum := by
    intro fresh
    exact ⟨stack, e, closeSum_of_fresh fresh e, rfl, h fresh.settled⟩
  cases q with
  | sum => cases p <;> first | exact passes | simp [Phrase.rank] at le
  | product =>
    cases p with
    | sum => exact product passes
    | product => exact passes
    | signed | primary => simp [Phrase.rank] at le
  | signed =>
    cases p with
    | sum => exact product (signed passes)
    | product => exact signed passes
    | signed => exact passes
    | primary => simp [Phrase.rank] at le
  | primary =>
    cases p with
    | sum => exact product (signed passes)
    | product => exact signed passes
    | signed | primary => exact passes

/-! The arguments of a call. -/

/-- The name of a call and its opening parenthesis. -/
theorem peakFrom_call {name opening : Token} (isName : name.kind = .identifier)
    (opens : opening.kind = .leftParen)
    (within : exceeds (nesting stack + 1) limits.nesting = false) (rest : List Token) :
    peakFrom limits stack .operand (name :: opening :: rest) =
      max (placesOf stack) (peakFrom limits (.call name.text [] :: stack) .firstArgument rest) := by
  have opened : step limits stack (.named name.text) opening =
      .ok (.call name.text [] :: stack, .firstArgument) := by
    rw [step, if_pos opens]
    exact openFrame_ok within
  rw [peakFrom_operand (step_name isName), peakFrom_behind rfl opened]

theorem peakFrom_firstArgument {ts : List Token} (starts : StartsInside ts) :
    peakFrom limits stack .firstArgument ts = peakFrom limits stack .operand ts := by
  obtain ⟨t, rest, rfl, kind⟩ := starts
  have needed : placesAt stack .firstArgument t = placesAt stack .operand t := if_neg kind
  rw [peakFrom, peakFrom, step_firstArgument kind, needed]

/-- The arguments of a call have been read, the last one being left open. -/
def PassesAll (limits : Limits) (stack : List Frame) (callee : String) (before : Nat)
    (es : List (Expr Float)) (room : Nat) (rest : List Token) : Prop :=
  ∃ above last front argument, es = front ++ [argument] ∧
    closeSum above last = (.call callee front :: stack, argument) ∧
    placesOf above = placesOf stack + 5 ∧
    before = max (placesOf stack + 5 + room) (peakFrom limits above (.operator last) rest)

/-- A call without arguments needs no place of its own. -/
theorem passes_emptyCall {name opening closing : Token} (isName : name.kind = .identifier)
    (opens : opening.kind = .leftParen) (closes : closing.kind = .rightParen)
    (within : exceeds (nesting stack + 1) limits.nesting = false) (rest : List Token) :
    Passes limits stack [name, opening, closing] (.call name.text []) 0 rest .primary := by
  have closed : step limits (.call name.text [] :: stack) .firstArgument closing =
      .ok (complete stack (.call name.text [])) := by
    simp only [step, closes]
  have needed : placesAt (.call name.text [] :: stack) .firstArgument closing = 0 := if_pos closes
  have read : peakFrom limits stack .operand ([name, opening, closing] ++ rest) = _ :=
    peakFrom_call isName opens within (closing :: rest)
  rw [Passes, read, peakFrom_cons closed, needed, Nat.zero_max]
  rfl

theorem passes_call {name opening closing : Token} {ts rest : List Token}
    {es : List (Expr Float)} {room : Nat} (isName : name.kind = .identifier)
    (opens : opening.kind = .leftParen) (closes : closing.kind = .rightParen)
    (starts : StartsInside ts) (within : exceeds (nesting stack + 1) limits.nesting = false)
    (inside : PassesAll limits stack name.text
      (peakFrom limits (.call name.text [] :: stack) .operand (ts ++ closing :: rest)) es room
      (closing :: rest)) :
    Passes limits stack (name :: opening :: (ts ++ [closing])) (.call name.text es) (room + 5) rest
      .primary := by
  obtain ⟨above, last, front, argument, rfl, closed, places, peak⟩ := inside
  have whole : name :: opening :: (ts ++ [closing]) ++ rest =
      name :: opening :: (ts ++ closing :: rest) := by simp
  rw [Passes, whole, peakFrom_call isName opens within, peakFrom_firstArgument (starts.append _),
    peak, peakFrom_closing rfl (step_closing_call closes closed)]
  omega

theorem passesAll_one {callee : String} {ts rest : List Token} {room : Nat}
    (passes : Passes limits (.call callee [] :: stack) ts e room rest .sum) :
    PassesAll limits stack callee
      (peakFrom limits (.call callee [] :: stack) .operand (ts ++ rest)) [e] room rest := by
  have taller : placesOf (.call callee [] :: stack) = 5 + placesOf stack := placesOf_cons _ _
  obtain ⟨above, last, closed, places, peak⟩ := passes trivial
  refine ⟨above, last, [], e, rfl, closed, by omega, ?_⟩
  rw [peak]
  omega

theorem passesAll_more {callee : String} {comma : Token} {us rest : List Token} {before m n : Nat}
    {es : List (Expr Float)} (separates : comma.kind = .comma)
    (front : PassesAll limits stack callee before es m (comma :: (us ++ rest)))
    (last : Passes limits (.call callee es :: stack) us e n rest .sum) :
    PassesAll limits stack callee before (es ++ [e]) (max m n) rest := by
  have taller : placesOf (.call callee es :: stack) = 5 + placesOf stack := placesOf_cons _ _
  obtain ⟨above, pending, done, argument, rfl, closed, places, peak⟩ := front
  obtain ⟨above', pending', closed', places', peak'⟩ := last trivial
  refine ⟨above', pending', done ++ [argument], e, rfl, closed', by omega, ?_⟩
  rw [peak, peakFrom_behind rfl (step_comma separates closed), peak']
  omega

/-! ## §3 Trees -/

/-- The places that open signs, parentheses and calls take. -/
def Weights.places : Weights := ⟨1, 4, 5, 0⟩

theorem passes_enclose {p q : Phrase} {ts rest : List Token} {ws : List Word} {n room : Nat}
    (bare : ∀ {stack : List Frame} {us rest : List Token}, us.map Token.word = ws →
      limits.Allows (nesting stack) n → CanFollow rest → Passes limits stack us e room rest q)
    (same : ts.map Token.word = Word.enclose (p.encloses q) ws)
    (within : limits.Allows (nesting stack) (n + if p.encloses q then 1 else 0))
    (follow : CanFollow rest) :
    Passes limits stack ts e (room + if p.encloses q then 4 else 0) rest p := by
  cases needed : p.encloses q with
  | false =>
    rw [needed] at same within
    have le : p.rank ≤ q.rank := by simpa [Phrase.encloses] using needed
    exact (bare same within follow).loosen le
  | true =>
    rw [needed] at same within
    obtain ⟨first, others⟩ := Limits.allows_succ.mp within
    obtain ⟨t, us, t', rfl, opens, words, closes⟩ := tokens_enclosed same
    have follows : CanFollow (t' :: rest) := canFollow_cons (by simp [closes]) rest
    have inside : Passes limits (.group :: stack) us e room (t' :: rest) .sum :=
      (bare words (allows_inside rfl others) follows).loosen (Nat.zero_le _)
    exact (passes_group opens closes first inside).loosen (by cases p <;> simp [Phrase.rank])

theorem passes_binary {op : Operator} (written : op.isWritten) {t : Token}
    (same : t.word = op.word) {ts us rest : List Token} {l r : Expr Float} {m n : Nat}
    (left : Passes limits stack ts l m (t :: (us ++ rest)) op.phrase)
    (right : ∀ {frame : Frame}, frame.nests = false →
      Passes limits (frame :: stack) us r n rest op.phrase.next) :
    Passes limits stack (ts ++ t :: us) (.binary op l r) (max m n) rest op.phrase := by
  have kind : t.kind = .operator := congrArg Word.kind same
  have text : t.text = op.sign := congrArg Word.text same
  have node : Passes limits stack (ts ++ t :: us) (.binary (.ofSign t.text) l r) (max m n) rest
      op.phrase := by
    cases op with
    | plus => exact passes_plus ⟨kind, .inl text⟩ left (right rfl)
    | minus => exact passes_plus ⟨kind, .inr text⟩ left (right rfl)
    | times => exact passes_times ⟨kind, .inl text⟩ left (right rfl)
    | divide => exact passes_times ⟨kind, .inr text⟩ left (right rfl)
    | other => cases written
  rwa [text, ofSign_sign written] at node

/-- The arguments that follow start with a comma, if there are any. -/
theorem canFollow_behind {es : List (Expr Numeral)} {us rest : List Token}
    (same : us.map Token.word = wordsBehind es) (follow : CanFollow rest) :
    CanFollow (us ++ rest) := by
  cases es with
  | nil =>
    obtain rfl := List.map_eq_nil_iff.mp same
    exact follow
  | cons e others =>
    rw [wordsBehind] at same
    obtain ⟨t, tail, rfl, separates, -⟩ := List.map_eq_cons_iff.mp same
    have kind : t.kind = .comma := congrArg Word.kind separates
    exact canFollow_cons (by simp [kind]) _

mutual

/-- **What is written for a tree takes the places that its openings count for.** -/
theorem passes_words : (e : Expr Numeral) → e.isWritable → ∀ {p : Phrase} {stack : List Frame}
    {ts rest : List Token}, ts.map Token.word = e.words p →
      limits.Allows (nesting stack) (e.opened .openings p) → CanFollow rest →
        Passes limits stack ts (e.map Numeral.value) (e.opened .places p) rest p
  | .number n, _, p, stack, ts, rest, same, _, _ => by
    obtain ⟨t, rfl, kind, text⟩ := tokens_single same
    have read : step limits stack .operand t = .ok (complete stack (.number n.value)) := by
      rw [step, stepOperand, kind, text]
      simp only [n.reads]
    exact (passes_leaf read rest).loosen (by cases p <;> simp [Phrase.rank])
  | .reference name, _, p, stack, ts, rest, same, _, follow => by
    obtain ⟨t, rfl, kind, text⟩ := tokens_single same
    have leaf : Passes limits stack [t] (.reference t.text) 0 rest .primary :=
      passes_reference kind follow
    rw [text] at leaf
    exact leaf.loosen (by cases p <;> simp [Phrase.rank])
  | .unary op argument, writable, p, stack, ts, rest, same, within, follow => by
    simp only [Expr.isWritable, Bool.and_eq_true] at writable
    rw [Expr.words] at same
    refine passes_enclose (fun same within follow => ?_) same within follow
    obtain ⟨t, us, rfl, first, others⟩ := List.map_eq_cons_iff.mp same
    obtain ⟨room, inside⟩ := Limits.allows_succ.mp within
    have back : Operator.ofSign t.text = op := by
      rw [show t.text = op.sign from congrArg Word.text first,
        ofSign_sign (isWritten_of_isSign writable.1)]
    have node := passes_sign (isSumSign_of_word writable.1 first) room
      (passes_words argument writable.2 others (allows_inside rfl inside) follow)
    rwa [back] at node
  | .binary op left right, writable, p, stack, ts, rest, same, within, follow => by
    simp only [Expr.isWritable, Bool.and_eq_true] at writable
    rw [Expr.words] at same
    refine passes_enclose (fun {stack us rest} same within follow => ?_) same within follow
    obtain ⟨roomLeft, roomRight⟩ := Limits.allows_max.mp within
    obtain ⟨before, others, rfl, first, same⟩ := List.map_eq_append_iff.mp same
    obtain ⟨t, behind, rfl, sign, last⟩ := List.map_eq_cons_iff.mp same
    have follows : CanFollow (t :: (behind ++ rest)) :=
      canFollow_cons (by simp [show t.kind = .operator from congrArg Word.kind sign]) _
    refine passes_binary writable.1.1 sign (passes_words left writable.1.2 first roomLeft follows)
      (fun {frame} open_none => passes_words right writable.2 last ?_ follow)
    rwa [nesting_cons_not open_none]
  | .call callee arguments, writable, p, stack, ts, rest, same, within, follow => by
    simp only [Expr.isWritable, Bool.and_eq_true] at writable
    rw [Expr.words] at same
    obtain ⟨name, others, rfl, first, same⟩ := List.map_eq_cons_iff.mp same
    obtain ⟨t, inside, t', rfl, opens, words, closes⟩ := tokens_enclosed same
    rw [opened_call] at within
    obtain ⟨room, within⟩ := Limits.allows_succ.mp within
    have isName : name.kind = .identifier := congrArg Word.kind first
    have text : name.text = callee := congrArg Word.text first
    have node : Passes limits stack (name :: t :: (inside ++ [t']))
        (.call name.text (Expr.mapAll Numeral.value arguments))
        ((Expr.call callee arguments).opened .places p) rest .primary := by
      by_cases empty : arguments = []
      · subst empty
        obtain rfl := List.map_eq_nil_iff.mp words
        exact passes_emptyCall isName opens closes room rest
      · have follows : CanFollow (t' :: rest) := canFollow_cons (by simp [closes]) rest
        have some_argument : arguments.isEmpty = false := by simpa using empty
        rw [Expr.opened, some_argument]
        exact passes_call isName opens closes
          (derives_wordsAll arguments empty writable.2 words).startsInside room
          (passes_wordsAll arguments empty writable.2 words within follows)
    rw [text] at node
    exact node.loosen (by cases p <;> simp [Phrase.rank])
  | .foreign, writable, _, _, _, _, _, _, _ => by simp [Expr.isWritable] at writable

theorem passes_wordsAll : (es : List (Expr Numeral)) → es ≠ [] → allWritable es →
    ∀ {stack : List Frame} {callee : String} {ts rest : List Token},
      ts.map Token.word = wordsAll es →
      limits.Allows (nesting stack + 1) (openedAll .openings es) → CanFollow rest →
        PassesAll limits stack callee
          (peakFrom limits (.call callee [] :: stack) .operand (ts ++ rest))
          (Expr.mapAll Numeral.value es) (openedAll .places es) rest
  | [], some_argument, _, _, _, _, _, _, _, _ => absurd rfl some_argument
  | e :: others, _, writable, stack, callee, ts, rest, same, within, follow => by
    simp only [allWritable, Bool.and_eq_true] at writable
    rw [wordsAll] at same
    obtain ⟨roomFirst, roomOthers⟩ := Limits.allows_max.mp within
    obtain ⟨first, behind, rfl, words, same⟩ := List.map_eq_append_iff.mp same
    have passes : Passes limits (.call callee [] :: stack) first (e.map Numeral.value)
        (e.opened .places .sum) (behind ++ rest) .sum :=
      passes_words e writable.1 words (allows_inside rfl roomFirst) (canFollow_behind same follow)
    have one := passesAll_one passes
    rw [List.append_assoc]
    exact passes_behind others writable.2 one same roomOthers follow

/-- Arguments that follow those that have been read already. -/
theorem passes_behind : (es : List (Expr Numeral)) → allWritable es →
    ∀ {stack : List Frame} {callee : String} {us rest : List Token} {front : List (Expr Float)}
      {before room : Nat},
      PassesAll limits stack callee before front room (us ++ rest) →
      us.map Token.word = wordsBehind es →
      limits.Allows (nesting stack + 1) (openedAll .openings es) → CanFollow rest →
        PassesAll limits stack callee before (front ++ Expr.mapAll Numeral.value es)
          (max room (openedAll .places es)) rest
  | [], _, stack, callee, us, rest, front, before, room, passes, same, _, _ => by
    obtain rfl := List.map_eq_nil_iff.mp same
    simpa [Expr.mapAll, openedAll] using passes
  | e :: others, writable, stack, callee, us, rest, front, before, room, passes, same, within,
      follow => by
    simp only [allWritable, Bool.and_eq_true] at writable
    rw [wordsBehind] at same
    obtain ⟨roomFirst, roomOthers⟩ := Limits.allows_max.mp within
    obtain ⟨t, tail, rfl, separates, same⟩ := List.map_eq_cons_iff.mp same
    obtain ⟨next, behind, rfl, words, same⟩ := List.map_eq_append_iff.mp same
    rw [List.cons_append, List.append_assoc] at passes
    have more := passesAll_more (congrArg Word.kind separates) passes
      (passes_words e writable.1 words (allows_inside rfl roomFirst) (canFollow_behind same follow))
    have all := passes_behind others writable.2 more same roomOthers follow
    simpa [Expr.mapAll, openedAll, Nat.max_assoc] using all

end

/-! ## §4 Whole -/

/-- The limits are numbers that neither the tree nor the formula that is written for it exceeds. -/
structure Expr.IsWithin (limits : Limits) (gap : Nat → Nat) (e : Expr Numeral) : Prop where
  counted : limits.expressionLength.isComparable
  short : exceeds (Text.size (e.print gap)) limits.expressionLength = false
  counts : limits.nesting.isComparable
  few : e.opened .openings .sum = 0 ∨ exceeds (e.opened .openings .sum) limits.nesting = false
  comparable : limits.depth.isComparable
  low : exceeds e.height limits.depth = false

mutual

theorem height_map {α β : Type} (f : α → β) : (e : Expr α) → (e.map f).height = e.height
  | .number _ | .reference _ | .foreign => rfl
  | .unary _ argument => by rw [Expr.map, Expr.height, Expr.height, height_map f argument]
  | .binary _ left right => by
    rw [Expr.map, Expr.height, Expr.height, height_map f left, height_map f right]
  | .call _ arguments => by rw [Expr.map, Expr.height, Expr.height, heightAll_map f arguments]

theorem heightAll_map {α β : Type} (f : α → β) :
    (es : List (Expr α)) → Expr.heightAll (Expr.mapAll f es) = Expr.heightAll es
  | [] => rfl
  | e :: rest => by
    rw [Expr.mapAll, Expr.heightAll, Expr.heightAll, height_map f e, heightAll_map f rest]

end

/-- The formula is scanned into the words of the tree. -/
theorem tokens_print {e : Expr Numeral} (writable : e.isWritable) (gap : Nat → Nat) :
    ∃ ts, tokens (e.print gap) = .ok ts ∧ ts.map Token.word = e.words .sum := by
  obtain ⟨ts, scanned, same⟩ :=
    tokensFrom_layout (isProper_words e writable .sum) (apart_words e .sum) gap 0 0
  exact ⟨ts, by rwa [tokens, Expr.print, String.toList_ofList], same⟩

/-- The tree is read, as far as the stack has room. -/
theorem read_print {gap : Nat → Nat} {e : Expr Numeral} (writable : e.isWritable)
    (within : e.IsWithin limits gap) : read limits (e.print gap) = .ok (e.map Numeral.value) := by
  obtain ⟨ts, scanned, same⟩ := tokens_print writable gap
  refine read_eq_ok_iff.mpr
    ⟨within.short, ts, _, scanned, derives_words e writable same, within.few, ?_⟩
  rw [height_map]
  exact within.low

theorem readStop?_print {gap : Nat → Nat} {e : Expr Numeral} (writable : e.isWritable)
    (within : e.IsWithin limits gap) :
    readStop? limits (e.print gap) =
      if e.opened .places .sum + limits.taken ≤ operandPlaces then none
      else some .stackExhausted := by
  obtain ⟨ts, scanned, same⟩ := tokens_print writable gap
  have empty : placesOf [] = 0 := rfl
  have room : limits.Allows (nesting []) (e.opened .openings .sum) :=
    Limits.allows_whole.mpr within.few
  have ends : CanFollow [] := trivial
  obtain ⟨above, last, -, closed, peak⟩ := passes_words e writable same room ends trivial
  have peak_eq : peakFrom limits [] .operand ts = e.opened .places .sum := by
    rw [List.append_nil, peakFrom] at peak
    omega
  rw [readStop?_of_tokens within.counted scanned, within.short, if_neg Bool.false_ne_true,
    parseStop?]
  by_cases outside : limits.taken ≤ operandPlaces
  · have whole : parseFrom limits (e.print gap).length [] .operand ts =
        .ok (e.map Numeral.value) := (derives_words e writable same).parseFrom_eq_ok room
    rw [readStopFrom?_eq within.counts within.comparable outside whole, peak_eq]
  · rw [readStopFrom?_full (by omega), if_neg (by omega)]

mutual

/-- No opening takes more than five places. -/
theorem opened_places_le : (e : Expr Numeral) → (p : Phrase) →
    e.opened .places p ≤ 5 * e.opened .openings p
  | .number _, _ | .reference _, _ | .foreign, _ => by simp [Expr.opened]
  | .unary _ argument, p => by
    have inner := opened_places_le argument .signed
    have sign : Weights.places.sign = 1 ∧ Weights.openings.sign = 1 := ⟨rfl, rfl⟩
    have group : Weights.places.group = 4 ∧ Weights.openings.group = 1 := ⟨rfl, rfl⟩
    rw [Expr.opened, Expr.opened]
    split <;> omega
  | .binary op left right, p => by
    have first := opened_places_le left op.phrase
    have second := opened_places_le right op.phrase.next
    have group : Weights.places.group = 4 ∧ Weights.openings.group = 1 := ⟨rfl, rfl⟩
    rw [Expr.opened, Expr.opened]
    split <;> omega
  | .call _ arguments, p => by
    have inner := openedAll_places_le arguments
    have call : Weights.places.call = 5 ∧ Weights.places.emptyCall = 0 := ⟨rfl, rfl⟩
    rw [opened_call, Expr.opened]
    split <;> omega

theorem openedAll_places_le : (es : List (Expr Numeral)) →
    openedAll .places es ≤ 5 * openedAll .openings es
  | [] => Nat.zero_le _
  | e :: rest => by
    have first := opened_places_le e .sum
    have others := openedAll_places_le rest
    rw [openedAll, openedAll]
    omega

end

/-- **What is written for a tree is read back as the same tree**, whatever the spaces between its
words, if the stack has room for what is open at once, as it always has under a low nesting limit;
else the stack runs out. No formula of the tree has fewer tokens or opens less. -/
theorem treeOf_print {gap : Nat → Nat} {e : Expr Numeral} (writable : e.isWritable)
    (within : e.IsWithin limits gap) :
    treeOf limits (e.print gap) =
        (if e.opened .places .sum + limits.taken ≤ operandPlaces then .ok (e.map Numeral.value)
         else .error .stackExhausted) ∧
      (∀ k : Int, limits.nesting = .int k → limits.taken + 5 * k.toNat ≤ operandPlaces →
        treeOf limits (e.print gap) = .ok (e.map Numeral.value)) ∧
      ∀ ts n, Derives .sum ts (e.map Numeral.value) n →
        (e.words .sum).length ≤ ts.length ∧ e.opened .openings .sum ≤ n := by
  have taken : treeOf limits (e.print gap) =
      (if e.opened .places .sum + limits.taken ≤ operandPlaces then .ok (e.map Numeral.value)
       else .error .stackExhausted) := by
    rw [treeOf, readStop?_print writable within, read_print writable within]
    by_cases room : e.opened .places .sum + limits.taken ≤ operandPlaces
    · rw [if_pos room, if_pos room]
      rfl
    · rw [if_neg room, if_neg room]
      rfl
  refine ⟨taken, fun k bound low => ?_, fun ts n derived => derived.words_le e rfl⟩
  have places := opened_places_le e .sum
  have few : e.opened .openings .sum ≤ k.toNat := by
    rcases within.few with none | allowed
    · omega
    · have : ¬ k < (e.opened .openings .sum : Int) := by simpa [exceeds, bound] using allowed
      omega
  rw [taken, if_pos (by omega)]

/-- The theorem at `a -(b-c)*-2`: only the difference that is a factor needs parentheses. -/
theorem treeOf_print_product :
    treeOf {} "a -(b-c)*-2" = .ok (.binary .minus (.reference "a")
      (.binary .times (.binary .minus (.reference "b") (.reference "c"))
        (.unary .minus (.number 2)))) := by
  let two : Numeral := ⟨"2", 2, .whole (List.all_eq_true.mp rfl) (by decide), rfl⟩
  let e : Expr Numeral := .binary .minus (.reference "a")
    (.binary .times (.binary .minus (.reference "b") (.reference "c")) (.unary .minus (.number two)))
  let gap : Nat → Nat := fun i => if i = 1 then 1 else 0
  have printed : e.print gap = "a -(b-c)*-2" := by decide
  have within : e.IsWithin {} gap := ⟨rfl, by rw [printed]; rfl, rfl, .inr rfl, rfl, rfl⟩
  have taken := (treeOf_print (by decide) within).1
  rw [printed] at taken
  exact taken

/-! ## §5 Calls -/

/-- Calls of `f` inside each other, with a reference in the innermost. -/
def nestedCalls : (k : Nat) → Expr Numeral
  | 0 => .reference "x"
  | k + 1 => .call "f" [nestedCalls k]

theorem isWritable_nestedCalls (k : Nat) : (nestedCalls k).isWritable := by
  induction k with
  | zero => decide
  | succ k ih =>
    have name : isIdentifier "f" := by decide
    simp [nestedCalls, Expr.isWritable, allWritable, ih, name]

/-- Each call counts for one opening. -/
theorem opened_nestedCalls (weights : Weights) (k : Nat) :
    (nestedCalls k).opened weights .sum = weights.call * k := by
  induction k with
  | zero => rfl
  | succ k ih => simp [nestedCalls, Expr.opened, openedAll, ih, Nat.mul_succ]

theorem height_nestedCalls (k : Nat) : (nestedCalls k).height = k + 1 := by
  induction k with
  | zero => rfl
  | succ k ih => simp [nestedCalls, Expr.height, Expr.heightAll, ih]

/-- Without spaces the words stand side by side. -/
theorem layout_tight (i : Nat) (ws : List Word) :
    layout (fun _ => 0) i ws = ws.flatMap fun w => w.text.toList := by
  induction ws generalizing i with
  | nil => rfl
  | cons w rest ih => simp [layout, ih]

/-- Each call takes three characters, none of which is the mark of a stand-in. -/
theorem size_nestedCalls (k : Nat) :
    Text.size ((nestedCalls k).print fun _ => 0) = 3 * k + 1 := by
  have codes_append (k : Nat) (rest : List Char) :
      (Text.codes (((nestedCalls k).words .sum).flatMap (fun w => w.text.toList) ++ rest)).length =
        3 * k + 1 + (Text.codes rest).length := by
    induction k generalizing rest with
    | zero =>
      have name := Text.codes_cons (by decide : 'x' ≠ Text.mark) rest
      have whole : ((nestedCalls 0).words .sum).flatMap (fun w => w.text.toList) ++ rest =
          'x' :: rest := rfl
      rw [whole, name, List.length_cons]
      omega
    | succ k ih =>
      have name := @Text.codes_cons 'f' (by decide)
      have opening := @Text.codes_cons '(' (by decide)
      have closing := @Text.codes_cons ')' (by decide)
      have whole : ((nestedCalls (k + 1)).words .sum).flatMap (fun w => w.text.toList) ++ rest =
          'f' :: '(' ::
            (((nestedCalls k).words .sum).flatMap (fun w => w.text.toList) ++ ')' :: rest) := by
        have brackets : Word.opening.text.toList = ['('] ∧ Word.closing.text.toList = [')'] :=
          ⟨rfl, rfl⟩
        simp [nestedCalls, Expr.words, wordsAll, wordsBehind, List.flatMap_append, brackets]
      rw [whole, name, opening, List.length_cons, List.length_cons, ih, closing, List.length_cons]
      omega
  have whole := codes_append k []
  rw [List.append_nil] at whole
  rw [Expr.print, Text.size, String.toList_ofList, layout_tight, whole]
  rfl

/-- **A high nesting limit does not keep every tree on the stack**: two hundred and twenty calls
inside each other are within limits of a thousand. -/
theorem treeOf_nestedCalls :
    let limits : Limits := { nesting := .int 1000, depth := .int 1000 }
    (nestedCalls 220).isWritable ∧ (nestedCalls 220).IsWithin limits (fun _ => 0) ∧
      treeOf limits ((nestedCalls 220).print fun _ => 0) = .error .stackExhausted := by
  intro limits
  have writable := isWritable_nestedCalls 220
  have within : (nestedCalls 220).IsWithin limits (fun _ => 0) :=
    { counted := rfl
      short := by rw [size_nestedCalls]; rfl
      counts := rfl
      few := by rw [opened_nestedCalls]; exact .inr rfl
      comparable := rfl
      low := by rw [height_nestedCalls]; rfl }
  have full : readStop? limits ((nestedCalls 220).print fun _ => 0) = some .stackExhausted := by
    rw [readStop?_print writable within, opened_nestedCalls]
    rfl
  refine ⟨writable, within, ?_⟩
  rw [treeOf, full]
  rfl

end BusinessCase.Formula
