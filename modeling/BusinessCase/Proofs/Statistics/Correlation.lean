/-
BusinessCase.Proofs.Statistics.Correlation — the correlation of two series over
the reals.

Without rounding, two series of equal length have Pearson's coefficient of their
pairs of numbers for correlation. The lengths that both series are brought to
one by are the roots of their summed squares, the coefficient keeps within one
by itself, and that of two pairs is a whole number because two pairs lie on a
line. Where a series does not change the formula has zero over zero, which is
zero as in the guards.

  §1 Pairs     — pairs of numbers in two series.
  §2 Pearson   — `pearson`, its bound, and what lines make of it.
  §3 Constancy — a series does not change, told by its range and by its squares.
  §4 Lengths   — vectors and angles over the reals.
  §5 Formula   — `correlation_eq`, a correlation is Pearson's coefficient.
  §6 Whole     — `correlation_laws`.
-/
import BusinessCase.Proofs.Statistics.Permutation

namespace BusinessCase

open Scalar

/-! ## §1 Pairs -/

section Pairs

variable {K : Type} {xs ys us vs : List (Exact K)}

theorem numberPairs_swap (xs ys : List (Exact K)) :
    numberPairs ys xs = (numberPairs xs ys).map Prod.swap := by
  rw [numberPairs, numberPairs, ← List.zip_swap, List.filterMap_map, List.map_filterMap]
  refine List.filterMap_congr fun pair _ => ?_
  obtain ⟨x, y⟩ := pair
  cases x <;> cases y <;> rfl

theorem numberPairs_append (long : xs.length = ys.length) (us vs : List (Exact K)) :
    numberPairs (xs ++ us) (ys ++ vs) = numberPairs xs ys ++ numberPairs us vs := by
  rw [numberPairs, List.zip_append long, List.filterMap_append, numberPairs, numberPairs]

/-- Pairs of which one entry is no number count for nothing. -/
theorem numberPairs_eq_nil (missing : ∀ pair ∈ us.zip vs, pair.1 = .nan ∨ pair.2 = .nan) :
    numberPairs us vs = [] := by
  refine List.filterMap_eq_nil_iff.mpr ?_
  rintro ⟨u, v⟩ member
  rcases missing _ member with none | none
  · obtain rfl : u = .nan := none
    rfl
  · obtain rfl : v = .nan := none
    cases u <;> rfl

variable [Field K] (a b : K)

theorem numberPairs_line (xs ys : List (Exact K)) :
    numberPairs (xs.map fun x => Exact.num a * x + Exact.num b) ys =
      (numberPairs xs ys).map fun pair => (a * pair.1 + b, pair.2) := by
  rw [numberPairs, numberPairs, List.zip_map_left, List.filterMap_map, List.map_filterMap]
  refine List.filterMap_congr fun pair _ => ?_
  obtain ⟨x, y⟩ := pair
  cases x <;> cases y <;> rfl

omit [Field K] in
theorem numberPairs_self (xs : List (Exact K)) :
    numberPairs xs xs = (numbers xs).map fun x => (x, x) := by
  have self : xs.zip xs = xs.map fun x => (x, x) := by
    simpa using List.zip_map' (l := xs) (f := id) (g := id)
  rw [numberPairs, self, numbers, List.filterMap_map, List.map_filterMap]
  refine List.filterMap_congr fun x _ => ?_
  cases x <;> rfl

end Pairs

/-! ## §2 Pearson -/

section Pearson

variable {β : Type} {ps : List (ℝ × ℝ)} {xs : List ℝ} {a : ℝ}

/-- The sum of the products of how far the numbers of pairs lie from their means. -/
noncomputable def comoment (ps : List (ℝ × ℝ)) : ℝ :=
  ((centeredPairs ps).map fun d => d.1 * d.2).sum

/-- The sum of the squares of how far numbers lie from their mean. -/
noncomputable def secondMoment (xs : List ℝ) : ℝ := comoment (xs.map fun x => (x, x))

/-- Pearson's coefficient of pairs of numbers. It is zero where the first or the second of them are
all the same, as zero divided by zero is. -/
noncomputable def pearson (ps : List (ℝ × ℝ)) : ℝ :=
  comoment ps / (√(secondMoment (ps.map Prod.fst)) * √(secondMoment (ps.map Prod.snd)))

theorem secondMoment_eq (xs : List ℝ) :
    secondMoment xs = (xs.map fun x => (x - xs.sum / xs.length) ^ 2).sum := by
  simp [secondMoment, comoment, centeredPairs, Function.comp_def, sq]

theorem sum_squares_nonneg (f : β → ℝ) (items : List β) :
    0 ≤ (items.map fun item => f item ^ 2).sum := by
  refine List.sum_nonneg fun square member => ?_
  obtain ⟨item, -, rfl⟩ := List.mem_map.mp member
  exact sq_nonneg (f item)

theorem secondMoment_nonneg (xs : List ℝ) : 0 ≤ secondMoment xs := by
  rw [secondMoment_eq]
  exact sum_squares_nonneg _ xs

theorem comoment_swap (ps : List (ℝ × ℝ)) : comoment (ps.map Prod.swap) = comoment ps := by
  simp only [comoment, centeredPairs, List.map_map, List.length_map]
  refine congrArg List.sum (List.map_congr_left fun p _ => ?_)
  exact mul_comm _ _

theorem pearson_swap (ps : List (ℝ × ℝ)) : pearson (ps.map Prod.swap) = pearson ps := by
  rw [pearson, pearson, comoment_swap, mul_comm (√_)]
  simp [Function.comp_def]

/-- The inequality of Cauchy and Schwarz for lists. -/
theorem sq_sum_mul_le (ds : List (ℝ × ℝ)) :
    (ds.map fun d => d.1 * d.2).sum ^ 2 ≤
      (ds.map fun d => d.1 ^ 2).sum * (ds.map fun d => d.2 ^ 2).sum := by
  simp only [← Fin.sum_univ_fun_getElem]
  exact Finset.sum_mul_sq_le_sq_mul_sq Finset.univ _ _

theorem secondMoment_fst (ps : List (ℝ × ℝ)) :
    secondMoment (ps.map Prod.fst) = ((centeredPairs ps).map fun d => d.1 ^ 2).sum := by
  simp [secondMoment_eq, centeredPairs, Function.comp_def]

theorem secondMoment_snd (ps : List (ℝ × ℝ)) :
    secondMoment (ps.map Prod.snd) = ((centeredPairs ps).map fun d => d.2 ^ 2).sum := by
  simp [secondMoment_eq, centeredPairs, Function.comp_def]

/-- **Pearson's coefficient is at most one in size.** -/
theorem abs_pearson_le_one (ps : List (ℝ × ℝ)) : |pearson ps| ≤ 1 := by
  have squares : comoment ps ^ 2 ≤
      secondMoment (ps.map Prod.fst) * secondMoment (ps.map Prod.snd) := by
    rw [secondMoment_fst, secondMoment_snd]
    exact sq_sum_mul_le (centeredPairs ps)
  have size : |comoment ps| ≤
      √(secondMoment (ps.map Prod.fst)) * √(secondMoment (ps.map Prod.snd)) := by
    rw [← Real.sqrt_mul (secondMoment_nonneg _)]
    exact Real.abs_le_sqrt squares
  rw [pearson, abs_div, abs_of_nonneg (mul_nonneg (Real.sqrt_nonneg _) (Real.sqrt_nonneg _))]
  exact div_le_one_of_le₀ size ((abs_nonneg _).trans size)

/-- A line moves a mean as it moves the numbers. -/
theorem mean_line (some_number : xs ≠ []) (a b : ℝ) :
    (xs.map fun x => a * x + b).sum / xs.length = a * (xs.sum / xs.length) + b := by
  have count : (xs.length : ℝ) ≠ 0 := by simpa using some_number
  rw [List.sum_map_add, List.sum_map_mul_left, List.map_id', List.map_const', List.sum_replicate,
    nsmul_eq_mul]
  field_simp

theorem comoment_line (ps : List (ℝ × ℝ)) (a b : ℝ) :
    comoment (ps.map fun p => (a * p.1 + b, p.2)) = a * comoment ps := by
  by_cases none : ps = []
  · simp [none, comoment, centeredPairs]
  · have some_number : ps.map Prod.fst ≠ [] := by simpa using none
    have moved := mean_line some_number a b
    rw [List.length_map, List.map_map] at moved
    rw [comoment, comoment, centeredPairs, centeredPairs, ← List.sum_map_mul_left]
    simp only [List.map_map, List.length_map]
    refine congrArg List.sum (List.map_congr_left fun p _ => ?_)
    simp only [Function.comp_def] at moved ⊢
    rw [moved]
    ring

theorem secondMoment_line (xs : List ℝ) (a b : ℝ) :
    secondMoment (xs.map fun x => a * x + b) = a ^ 2 * secondMoment xs := by
  have first := comoment_line (xs.map fun x => (x, a * x + b)) a b
  have second := comoment_line (xs.map fun x => (x, x)) a b
  rw [← comoment_swap] at second
  rw [secondMoment, secondMoment]
  simp only [List.map_map, Function.comp_def, Prod.swap_prod_mk] at first second ⊢
  rw [first, second]
  ring

/-- **What a line makes of Pearson's coefficient** is the same for a line that rises, and its
negative for one that falls. -/
theorem pearson_line (ps : List (ℝ × ℝ)) (a b : ℝ) :
    pearson (ps.map fun p => (a * p.1 + b, p.2)) = a / |a| * pearson ps := by
  have firsts : (ps.map fun p => (a * p.1 + b, p.2)).map Prod.fst =
      (ps.map Prod.fst).map fun x => a * x + b := by simp [Function.comp_def]
  have seconds : (ps.map fun p => (a * p.1 + b, p.2)).map Prod.snd = ps.map Prod.snd := by
    simp [Function.comp_def]
  rw [pearson, pearson, firsts, seconds, comoment_line, secondMoment_line,
    Real.sqrt_mul (sq_nonneg a), Real.sqrt_sq_eq_abs, mul_assoc, mul_div_mul_comm]

/-- The side of a slope above zero. -/
theorem div_abs_of_pos (rises : 0 < a) : a / |a| = 1 := by
  rw [abs_of_pos rises, div_self rises.ne']

/-- The side of a slope below zero. -/
theorem div_abs_of_neg (falls : a < 0) : a / |a| = -1 := by
  rw [abs_of_neg falls, div_neg, div_self falls.ne]

/-- A series that changes has the coefficient one with itself. -/
theorem pearson_self (changes : secondMoment xs ≠ 0) :
    pearson (xs.map fun x => (x, x)) = 1 := by
  have same : comoment (xs.map fun x => (x, x)) = secondMoment xs := rfl
  simp only [pearson, same, List.map_map, Function.comp_def, List.map_id']
  rw [Real.mul_self_sqrt (secondMoment_nonneg xs), div_self changes]

end Pearson

/-! ## §3 Constancy -/

section Constancy

variable {xs : List ℝ}

/-- All numbers of the list are the same. -/
def IsConstant (xs : List ℝ) : Prop := ∀ x ∈ xs, ∀ y ∈ xs, x = y

theorem isConstant_of_length_lt (few : xs.length < 2) : IsConstant xs := by
  match xs, few with
  | [], _ => simp [IsConstant]
  | [x], _ => simp [IsConstant]

/-- Numbers are all the same exactly if none of them lies apart from their mean. -/
theorem secondMoment_eq_zero_iff : secondMoment xs = 0 ↔ IsConstant xs := by
  rw [secondMoment_eq]
  constructor
  · intro none x hx y hy
    have apart (z : ℝ) (hz : z ∈ xs) : z = xs.sum / xs.length := by
      have square := List.all_zero_of_le_zero_le_of_sum_eq_zero (l := xs.map _)
        (by simpa using fun z _ => sq_nonneg (z - xs.sum / xs.length)) none
        (List.mem_map_of_mem hz)
      exact sub_eq_zero.mp (pow_eq_zero_iff two_ne_zero |>.mp square)
    rw [apart x hx, apart y hy]
  · intro same
    have zero : ∀ square ∈ xs.map fun x => (x - xs.sum / xs.length) ^ 2, square = 0 := by
      simp only [List.forall_mem_map]
      intro x hx
      have count : (xs.length : ℝ) ≠ 0 :=
        Nat.cast_ne_zero.mpr (List.length_pos_of_mem hx).ne'
      rw [List.sum_eq_card_nsmul xs x fun y hy => same y hy x hx, nsmul_eq_mul,
        mul_div_cancel_left₀ x count, sub_self, zero_pow two_ne_zero]
    rw [List.sum_eq_card_nsmul _ 0 zero, smul_zero]

/-- The range of numbers is zero exactly if they are all the same. -/
theorem eq_range_zero_iff : eq (range (xs.map Exact.num)) (nat 0) = true ↔ IsConstant xs := by
  cases xs with
  | nil => simp [range, IsConstant]
  | cons x rest =>
    have greatest_mem := List.max?_eq_some_iff.mp
      (List.max?_cons' : (x :: rest).max? = some (rest.foldl max x))
    have least_mem := List.min?_eq_some_iff.mp
      (List.min?_cons' : (x :: rest).min? = some (rest.foldl min x))
    rw [List.map_cons, range, greatest_map_num, least_map_num, Exact.num_sub, Exact.nat_eq,
      Exact.eq_num, decide_eq_true_eq, Nat.cast_zero, sub_eq_zero]
    constructor
    · intro same y hy z hz
      have pinned (w : ℝ) (hw : w ∈ x :: rest) : w = rest.foldl min x :=
        le_antisymm ((greatest_mem.2 w hw).trans_eq same) (least_mem.2 w hw)
      rw [pinned y hy, pinned z hz]
    · intro same
      exact same _ greatest_mem.1 _ least_mem.1

end Constancy

/-! ## §4 Lengths -/

section Lengths

variable {ds : List ℝ}

/-- The greatest size is a number that no size is above. -/
theorem greatest_abs (d : ℝ) (rest : List ℝ) :
    ∃ largest, greatest (Scalar.abs (.num d)) ((rest.map Exact.num).map Scalar.abs) =
      .num largest ∧ ∀ x ∈ d :: rest, |x| ≤ largest := by
  have sizes := greatest_map_num |d| (rest.map (|·|))
  have isMax := List.max?_eq_some_iff.mp
    (List.max?_cons' : (|d| :: rest.map (|·|)).max? = some ((rest.map (|·|)).foldl max |d|))
  refine ⟨_, ?_, fun x member => isMax.2 _ ?_⟩
  · rwa [List.map_map] at sizes ⊢
  · rw [← List.map_cons (f := fun x : ℝ => |x|)]
    exact List.mem_map_of_mem member

/-- Dividing all numbers by one above zero, and multiplying the length by it, changes nothing. -/
theorem scaled_length {largest : ℝ} (positive : 0 < largest) :
    Exact.num largest * sqrt (sumPairwise (((ds.map Exact.num).map (· / Exact.num largest)).map
      fun y => y * y)) = Exact.num √(ds.map (· ^ 2)).sum := by
  have squares : ((ds.map Exact.num).map (· / Exact.num largest)).map (fun y => y * y) =
      (ds.map fun x => x ^ 2 * (largest ^ 2)⁻¹).map Exact.num := by
    rw [List.map_map, List.map_map, List.map_map]
    refine List.map_congr_left fun x _ => ?_
    rw [Function.comp_apply, Function.comp_apply, Function.comp_apply,
      Exact.num_div positive.ne', Exact.num_mul, ← sq, div_pow, div_eq_mul_inv]
  have sum_nonneg : 0 ≤ (ds.map (· ^ 2)).sum := sum_squares_nonneg _ ds
  have root : sqrt (Exact.num ((ds.map (· ^ 2)).sum * (largest ^ 2)⁻¹)) =
      .num (√(ds.map (· ^ 2)).sum / largest) := by
    have above := mul_nonneg sum_nonneg (inv_nonneg.mpr (sq_nonneg largest))
    refine (if_neg above.not_gt).trans (congrArg Exact.num ?_)
    calc √((ds.map (· ^ 2)).sum * (largest ^ 2)⁻¹)
        = √(ds.map (· ^ 2)).sum * √(largest ^ 2)⁻¹ := Real.sqrt_mul sum_nonneg _
      _ = √(ds.map (· ^ 2)).sum / largest := by
        rw [Real.sqrt_inv, Real.sqrt_sq positive.le, div_eq_mul_inv]
  rw [squares, Exact.sumPairwise_eq, Exact.sum_map_num, List.sum_map_mul_right, root,
    Exact.num_mul, mul_div_cancel₀ _ positive.ne']

/-- **The length of numbers as a vector** is the root of their summed squares, whatever is divided
out first. -/
theorem vectorLength_map_num (ds : List ℝ) (changes : (ds.map (· ^ 2)).sum ≠ 0) :
    vectorLength (ds.map Exact.num) = .num √(ds.map (· ^ 2)).sum := by
  cases ds with
  | nil => simp at changes
  | cons d rest =>
    obtain ⟨largest, isGreatest, bound⟩ := greatest_abs d rest
    -- Were the greatest size zero, all numbers would be zero.
    have positive : 0 < largest := by
      refine lt_of_le_of_ne ((abs_nonneg d).trans (bound d List.mem_cons_self)) fun zero => ?_
      refine changes (List.sum_eq_zero fun square member => ?_)
      obtain ⟨x, hx, rfl⟩ := List.mem_map.mp member
      simpa using (bound x hx).trans_eq zero.symm
    rw [List.map_cons, vectorLength_cons, isGreatest, ← List.map_cons]
    exact scaled_length positive

/-- The cosine of the angle between vectors that have a direction. -/
theorem alignment_map_num (ds : List (ℝ × ℝ)) (first : (ds.map fun d => d.1 ^ 2).sum ≠ 0)
    (second : (ds.map fun d => d.2 ^ 2).sum ≠ 0) :
    alignment ((ds.map Prod.fst).map Exact.num) ((ds.map Prod.snd).map Exact.num) =
      .num ((ds.map fun d => d.1 * d.2).sum /
        (√(ds.map fun d => d.1 ^ 2).sum * √(ds.map fun d => d.2 ^ 2).sum)) := by
  have firsts := vectorLength_map_num (ds.map Prod.fst) (by rwa [List.map_map])
  have seconds := vectorLength_map_num (ds.map Prod.snd) (by rwa [List.map_map])
  rw [List.map_map (g := (· ^ 2))] at firsts seconds
  have root (xs : List ℝ) (nonzero : (xs.map (· ^ 2)).sum ≠ 0) : √(xs.map (· ^ 2)).sum ≠ 0 :=
    (Real.sqrt_ne_zero (sum_squares_nonneg _ xs)).mpr nonzero
  have left := root (ds.map Prod.fst) (by rwa [List.map_map])
  have right := root (ds.map Prod.snd) (by rwa [List.map_map])
  rw [List.map_map] at left right
  set A := √(ds.map ((· ^ 2) ∘ Prod.fst)).sum
  set B := √(ds.map ((· ^ 2) ∘ Prod.snd)).sum
  have products : List.zipWith (fun x y => (x / Exact.num A) * (y / Exact.num B))
      ((ds.map Prod.fst).map Exact.num) ((ds.map Prod.snd).map Exact.num) =
        (ds.map fun d => d.1 * d.2 * (A * B)⁻¹).map Exact.num := by
    simp only [List.map_map, List.zipWith_map, List.zipWith_self]
    refine List.map_congr_left fun d _ => ?_
    rw [Function.comp_apply, Function.comp_apply, Function.comp_apply, Exact.num_div left,
      Exact.num_div right, Exact.num_mul, div_mul_div_comm, div_eq_mul_inv]
  rw [alignment, firsts, seconds, products, Exact.sumPairwise_eq, Exact.sum_map_num,
    List.sum_map_mul_right, ← div_eq_mul_inv]
  rfl

end Lengths

/-! ## §5 Formula -/

section Formula

variable {ps : List (ℝ × ℝ)} {r : ℝ}

theorem one_eq : (nat 1 : Exact ℝ) = .num 1 := by rw [Exact.nat_eq, Nat.cast_one]

/-- What keeps within one is not clipped. -/
theorem clip_num (within : |r| ≤ 1) : clip (Exact.num r) = .num r := by
  obtain ⟨below, above⟩ := abs_le.mp within
  have minus : -(Exact.num 1 : Exact ℝ) = .num (-1) := rfl
  rw [clip, one_eq, minus, Exact.lt_num, Exact.lt_num, decide_eq_false below.not_gt,
    decide_eq_false above.not_gt]
  rfl

/-- Of the numbers that are rounded, one and minus one stay as they are. -/
theorem roundSign_num (whole : r = 1 ∨ r = -1) : roundSign (Exact.num r) = .num r := by
  have half : (decimal 5 1 : Exact ℝ) = .num (1 / 2) :=
    congrArg Exact.num (by norm_num : ((5 : ℕ) : ℝ) / 10 ^ 1 = 1 / 2)
  have minus (x : ℝ) : -(Exact.num x : Exact ℝ) = .num (-x) := rfl
  rw [roundSign, half, one_eq, minus, minus]
  rcases whole with rfl | rfl <;> norm_num

/-- **Two pairs lie on a line**, so their coefficient is one or minus one. -/
theorem pearson_of_two {p q : ℝ × ℝ} (firsts : p.1 ≠ q.1) (seconds : p.2 ≠ q.2) :
    pearson [p, q] = 1 ∨ pearson [p, q] = -1 := by
  obtain ⟨x, y⟩ := p
  obtain ⟨x', y'⟩ := q
  -- The first numbers lie on a line over the second ones, which rises or falls.
  set slope := (x - x') / (y - y') with slope_eq
  have rise : slope * (y - y') = x - x' := div_mul_cancel₀ _ (sub_ne_zero.mpr seconds)
  have onLine : [(x, y), (x', y')] =
      ([y, y'].map fun z => (z, z)).map fun p => (slope * p.1 + (x - slope * y), p.2) := by
    simp only [List.map_cons, List.map_nil, List.cons.injEq, Prod.mk.injEq, and_true]
    constructor <;> linarith
  have changes : secondMoment [y, y'] ≠ 0 := fun none =>
    seconds (secondMoment_eq_zero_iff.mp none y (by simp) y' (by simp))
  rw [onLine, pearson_line, pearson_self changes, mul_one]
  have steep : slope ≠ 0 := div_ne_zero (sub_ne_zero.mpr firsts) (sub_ne_zero.mpr seconds)
  rcases steep.lt_or_gt with falls | rises
  · exact .inr (div_abs_of_neg falls)
  · exact .inl (div_abs_of_pos rises)

/-- **The coefficient of pairs in which both series change** is that of Pearson: neither clipping
nor rounding does anything to it. -/
theorem coefficient_map_num (first : secondMoment (ps.map Prod.fst) ≠ 0)
    (second : secondMoment (ps.map Prod.snd) ≠ 0) :
    coefficient ((ps.map Prod.fst).map Exact.num) ((ps.map Prod.snd).map Exact.num) =
      .num (pearson ps) := by
  have some_pair : ps ≠ [] := by
    rintro rfl
    exact first (secondMoment_eq_zero_iff.mpr (by simp [IsConstant]))
  obtain ⟨firsts, seconds⟩ := centered_pairs some_pair
  have unclipped : clip (alignment (centered ((ps.map Prod.fst).map Exact.num))
      (centered ((ps.map Prod.snd).map Exact.num))) = .num (pearson ps) := by
    have angle := alignment_map_num (centeredPairs ps) (by rwa [← secondMoment_fst])
      (by rwa [← secondMoment_snd])
    rw [firsts, seconds, angle, ← secondMoment_fst, ← secondMoment_snd]
    exact clip_num (abs_pearson_le_one ps)
  have isNumber : isNaN (Exact.num (pearson ps)) = false := Exact.isNaN_num _
  rw [coefficient, unclipped]
  simp only [isNumber, Bool.false_eq_true, if_false, List.length_map]
  split
  · next two =>
    obtain ⟨p, q, rfl⟩ := List.length_eq_two.mp two
    refine roundSign_num (pearson_of_two (fun same => first ?_) fun same => second ?_) <;>
    · rw [secondMoment_eq_zero_iff]
      simp [IsConstant, same]
  · rfl

/-- Where a series does not change, the formula gives zero. -/
theorem pearson_of_constant (none : IsConstant (ps.map Prod.fst) ∨ IsConstant (ps.map Prod.snd)) :
    pearson ps = 0 := by
  rcases none with none | none <;>
    simp [pearson, secondMoment_eq_zero_iff.mpr none]

/-- **The correlation of two series of equal length** is Pearson's coefficient of their pairs of
numbers. -/
theorem correlation_eq {xs ys : List (Exact ℝ)} (long : xs.length = ys.length) :
    correlation xs ys = .num (pearson (numberPairs xs ys)) := by
  set ps := numberPairs xs ys
  have pairs : knownPairs xs ys = ps.map fun pair => (.num pair.1, .num pair.2) :=
    knownPairs_eq xs ys
  have firsts : (knownPairs xs ys).map Prod.fst = (ps.map Prod.fst).map Exact.num := by
    simp [pairs]
  have seconds : (knownPairs xs ys).map Prod.snd = (ps.map Prod.snd).map Exact.num := by
    simp [pairs]
  rw [correlation, if_neg (not_not.mpr long)]
  dsimp only
  rw [firsts, seconds]
  split
  · next guarded =>
    rw [Bool.or_eq_true, Bool.or_eq_true, decide_eq_true_eq, eq_range_zero_iff, eq_range_zero_iff,
      or_assoc] at guarded
    have none : IsConstant (ps.map Prod.fst) ∨ IsConstant (ps.map Prod.snd) := by
      refine guarded.elim (fun few => .inl (isConstant_of_length_lt ?_)) id
      rwa [pairs, List.length_map, ← List.length_map (f := Prod.fst)] at few
    rw [pearson_of_constant none, Exact.nat_eq, Nat.cast_zero]
  · next passed =>
    rw [Bool.or_eq_true, Bool.or_eq_true, decide_eq_true_eq, eq_range_zero_iff, eq_range_zero_iff,
      not_or, not_or] at passed
    exact coefficient_map_num (mt secondMoment_eq_zero_iff.mp passed.1.2)
      (mt secondMoment_eq_zero_iff.mp passed.2)

end Formula

/-! ## §6 Whole -/

section Whole

variable {xs ys xs' ys' : List (Exact ℝ)} {a : ℝ}

theorem correlation_of_length_ne (unequal : xs.length ≠ ys.length) :
    correlation xs ys = .num 0 := by
  rw [correlation, if_pos unequal, Exact.nat_eq, Nat.cast_zero]

theorem correlation_swap (xs ys : List (Exact ℝ)) : correlation xs ys = correlation ys xs := by
  by_cases long : xs.length = ys.length
  · rw [correlation_eq long, correlation_eq long.symm, numberPairs_swap xs ys, pearson_swap]
  · rw [correlation_of_length_ne long, correlation_of_length_ne (Ne.symm long)]

/-- Pairs of entries may stand in any order. -/
theorem correlation_perm (long : xs.length = ys.length) (long' : xs'.length = ys'.length)
    (perm : (xs'.zip ys').Perm (xs.zip ys)) : correlation xs' ys' = correlation xs ys :=
  correlation_congr long' long (perm.filterMap _)

/-- Pairs without two numbers may come in between. -/
theorem correlation_insert (xs ys : List (Exact ℝ)) (place : ℕ) {us vs : List (Exact ℝ)}
    (long : us.length = vs.length)
    (missing : ∀ pair ∈ us.zip vs, pair.1 = .nan ∨ pair.2 = .nan) :
    correlation (xs.take place ++ us ++ xs.drop place) (ys.take place ++ vs ++ ys.drop place) =
      correlation xs ys := by
  have length (zs ws : List (Exact ℝ)) :
      (zs.take place ++ ws ++ zs.drop place).length = zs.length + ws.length := by
    simp only [List.length_append, List.length_take, List.length_drop]
    omega
  by_cases same : xs.length = ys.length
  · have fronts : (xs.take place).length = (ys.take place).length := by
      rw [List.length_take, List.length_take, same]
    have longer : (xs.take place ++ us).length = (ys.take place ++ vs).length := by
      rw [List.length_append, List.length_append, fronts, long]
    have pairs : numberPairs (xs.take place ++ us ++ xs.drop place)
        (ys.take place ++ vs ++ ys.drop place) = numberPairs xs ys := by
      rw [numberPairs_append longer, numberPairs_append fronts, numberPairs_eq_nil missing,
        List.append_nil, ← numberPairs_append fronts, List.take_append_drop,
        List.take_append_drop]
    rw [correlation_eq (by rw [length, length, same, long]), correlation_eq same, pairs]
  · rw [correlation_of_length_ne (by rw [length, length]; omega), correlation_of_length_ne same]

/-- What a line does to one of the series. -/
theorem correlation_line (xs ys : List (Exact ℝ)) (a b : ℝ) :
    correlation (xs.map fun x => Exact.num a * x + Exact.num b) ys =
      Exact.num (a / |a|) * correlation xs ys := by
  by_cases long : xs.length = ys.length
  · rw [correlation_eq (by rw [List.length_map, long]), correlation_eq long, numberPairs_line,
      pearson_line, Exact.num_mul]
  · rw [correlation_of_length_ne (by rwa [List.length_map]), correlation_of_length_ne long,
      Exact.num_mul, mul_zero]

/-- A series that holds two numbers has the correlation one with itself. -/
theorem correlation_self {u v : ℝ} (hu : .num u ∈ xs) (hv : .num v ∈ xs) (ne : u ≠ v) :
    correlation xs xs = .num 1 := by
  have number {z : ℝ} (hz : .num z ∈ xs) : z ∈ numbers xs :=
    List.mem_filterMap.mpr ⟨.num z, hz, rfl⟩
  have changes : secondMoment (numbers xs) ≠ 0 := fun none =>
    ne (secondMoment_eq_zero_iff.mp none u (number hu) v (number hv))
  rw [correlation_eq rfl, numberPairs_self, pearson_self changes]

/-- **The laws of correlation** over the reals. The correlation of two series is Pearson's
coefficient of their pairs of numbers, which is at most one in size without being clipped, and zero
for series of different length. It is the same for the two series in the other order, for their
pairs in any order, and with pairs in between of which an entry is no number. A line that rises
leaves it as it is when one of the series is moved along it, and a line that falls turns its sign.
So a series that holds two different numbers has the correlation one with what a rising line makes
of it, and minus one with what a falling line does. -/
theorem correlation_laws (xs ys : List (Exact ℝ)) :
    (correlation xs ys =
        .num (if xs.length = ys.length then pearson (numberPairs xs ys) else 0) ∧
      |pearson (numberPairs xs ys)| ≤ 1) ∧
    correlation xs ys = correlation ys xs ∧
    (∀ xs' ys' : List (Exact ℝ), xs.length = ys.length → xs'.length = ys'.length →
      (xs'.zip ys').Perm (xs.zip ys) → correlation xs' ys' = correlation xs ys) ∧
    (∀ (place : ℕ) (us vs : List (Exact ℝ)), us.length = vs.length →
      (∀ pair ∈ us.zip vs, pair.1 = .nan ∨ pair.2 = .nan) →
      correlation (xs.take place ++ us ++ xs.drop place) (ys.take place ++ vs ++ ys.drop place) =
        correlation xs ys) ∧
    (∀ a b : ℝ,
      (0 < a → correlation (xs.map fun x => Exact.num a * x + Exact.num b) ys = correlation xs ys) ∧
      (a < 0 →
        correlation (xs.map fun x => Exact.num a * x + Exact.num b) ys = -correlation xs ys)) ∧
    (∀ u v : ℝ, .num u ∈ xs → .num v ∈ xs → u ≠ v → ∀ a b : ℝ,
      (0 < a → correlation xs (xs.map fun x => Exact.num a * x + Exact.num b) = .num 1) ∧
      (a < 0 → correlation xs (xs.map fun x => Exact.num a * x + Exact.num b) = .num (-1))) := by
  refine ⟨⟨?_, abs_pearson_le_one _⟩, correlation_swap xs ys,
    fun _ _ long long' perm => correlation_perm long long' perm,
    fun place _ _ long missing => correlation_insert xs ys place long missing,
    fun a b => ⟨fun rises => ?_, fun falls => ?_⟩,
    fun u v hu hv ne a b => ⟨fun rises => ?_, fun falls => ?_⟩⟩
  · split
    · next long => exact correlation_eq long
    · next unequal => exact correlation_of_length_ne unequal
  · rw [correlation_line, div_abs_of_pos rises]
    cases correlation xs ys with
    | num r => rw [Exact.num_mul, one_mul]
    | nan => rfl
  · rw [correlation_line, div_abs_of_neg falls]
    cases correlation xs ys with
    | num r => exact congrArg Exact.num (neg_one_mul r)
    | nan => rfl
  · rw [correlation_swap, correlation_line, div_abs_of_pos rises, correlation_self hu hv ne,
      Exact.num_mul, one_mul]
  · rw [correlation_swap, correlation_line, div_abs_of_neg falls, correlation_self hu hv ne,
      Exact.num_mul, mul_one]

end Whole

/-- Two series of prices, of which the second falls as the first rises. -/
noncomputable def pricePairs : List (Exact ℝ) × List (Exact ℝ) :=
  ([.num 1, .nan, .num 4], [.num 9, .num 8, .num 6])

/-- The theorem at those prices: their pairs may stand in another order, and one that misses a price
may come in between; the first prices may be doubled and raised; and they have the correlation minus
one with what is left of ten after each of them. -/
theorem correlation_laws_prices :
    ((0 : ℝ) < 2 ∧ (-1 : ℝ) < 0) ∧
      correlation [.num 4, .num 1, .nan] [.num 6, .num 9, .num 8] =
        correlation pricePairs.1 pricePairs.2 ∧
      correlation [.num 1, .num 5, .nan, .num 4] [.num 9, .nan, .num 8, .num 6] =
        correlation pricePairs.1 pricePairs.2 ∧
      correlation (pricePairs.1.map fun x => Exact.num 2 * x + Exact.num 3) pricePairs.2 =
        correlation pricePairs.1 pricePairs.2 ∧
      correlation pricePairs.1 (pricePairs.1.map fun x => Exact.num (-1) * x + Exact.num 10) =
        .num (-1) := by
  have rises : (0 : ℝ) < 2 := by norm_num
  have falls : (-1 : ℝ) < 0 := by norm_num
  obtain ⟨-, -, reordered, inserted, moved, lines⟩ :=
    correlation_laws pricePairs.1 pricePairs.2
  refine ⟨⟨rises, falls⟩, reordered _ _ rfl rfl ?_, inserted 1 [.num 5] [.nan] rfl (by simp),
    (moved 2 3).1 rises,
    (lines 1 4 (by simp [pricePairs]) (by simp [pricePairs]) (by norm_num) (-1) 10).2 falls⟩
  exact (List.Perm.swap _ _ _).trans ((List.Perm.swap _ _ []).cons _)

end BusinessCase
