/-
BusinessCase.Proofs.Scalar.Exact — the numeric rules in exact arithmetic.

The numbers of an ordered field, and one value besides them that is no number.
Nothing is rounded and nothing is infinite; where an operation has no answer in
the field, or is given no number, its answer is no number, and no number is
never equal to, below or above anything. The functions that lead out of a field
are given with it, so what is said of all fields is said of the reals with the
functions of analysis, and of the rationals with any.

  §1 Functions  — `RealFunctions`.
  §2 Numbers    — `Exact`, and the operations on it.
  §3 Operations — what they do to numbers, and to no number.
  §4 Sums       — a sum does not depend on the order of its terms.
-/
import BusinessCase.Statistics.Moments
import Mathlib

namespace BusinessCase

/-! ## §1 Functions -/

/-- The constants and functions of the numeric rules that lead out of a field. -/
class RealFunctions (K : Type) where
  pi : K
  euler : K
  sqrt : K → K
  log : K → K
  cos : K → K
  power : K → K → K

/-- The reals have those of analysis. -/
noncomputable instance : RealFunctions ℝ where
  pi := Real.pi
  euler := Real.exp 1
  sqrt := Real.sqrt
  log := Real.log
  cos := Real.cos
  power := Real.rpow

/-! ## §2 Numbers -/

/-- A number of the field, or no number. -/
inductive Exact (K : Type) where
  | num (x : K)
  | nan
  deriving DecidableEq

namespace Exact

variable {K : Type}

def map (f : K → K) : Exact K → Exact K
  | num x => num (f x)
  | nan => nan

def map₂ (f : K → K → K) : Exact K → Exact K → Exact K
  | num x, num y => num (f x y)
  | _, _ => nan

/-- A relation holds between numbers only. -/
def both (r : K → K → Bool) : Exact K → Exact K → Bool
  | num x, num y => r x y
  | _, _ => false

instance [Add K] : Add (Exact K) := ⟨map₂ (· + ·)⟩

instance [Sub K] : Sub (Exact K) := ⟨map₂ (· - ·)⟩

instance [Mul K] : Mul (Exact K) := ⟨map₂ (· * ·)⟩

instance [Neg K] : Neg (Exact K) := ⟨map (- ·)⟩

instance [Zero K] : Zero (Exact K) := ⟨num 0⟩

/-- Nothing is divided by zero. -/
def div [Zero K] [Div K] [DecidableEq K] : Exact K → Exact K → Exact K
  | num x, num y => if y = 0 then nan else num (x / y)
  | _, _ => nan

instance [Zero K] [Div K] [DecidableEq K] : Div (Exact K) := ⟨div⟩

/-- Zero has no power with a negative exponent. To the power of zero everything is one, and one is
to every power. -/
def power [Field K] [LinearOrder K] [RealFunctions K] : Exact K → Exact K → Exact K
  | num x, num y => if x = 0 ∧ y < 0 then nan else num (RealFunctions.power x y)
  | num x, nan => if x = 1 then num 1 else nan
  | nan, num y => if y = 0 then num 1 else nan
  | nan, nan => nan

def powNat [Field K] : Exact K → Nat → Exact K
  | num x, n => num (x ^ n)
  | nan, n => if n = 0 then num 1 else nan

instance [Field K] [LinearOrder K] [FloorRing K] [RealFunctions K] : Scalar (Exact K) where
  nat n := num n
  decimal m k := num (m / 10 ^ k)
  nan := nan
  pi := num RealFunctions.pi
  euler := num RealFunctions.euler
  isNaN | num _ => false | nan => true
  isInfinite _ := false
  eq := both fun x y => x = y
  lt := both fun x y => x < y
  le := both fun x y => x ≤ y
  abs := map (|·|)
  sqrt | num x => if x < 0 then nan else num (RealFunctions.sqrt x) | nan => nan
  log | num x => if x ≤ 0 then nan else num (RealFunctions.log x) | nan => nan
  cos := map RealFunctions.cos
  power := power
  powNat := powNat
  wholePart | num x => ⌊x⌋.toNat | nan => 0
  exactSum xs := .ok (xs.foldl (· + ·) (num 0))

/-! ## §3 Operations -/

/-- What an operation makes a number of are numbers. -/
theorem numbers_of_map₂ {f : K → K → K} {a b : Exact K} {x : K} (number : map₂ f a b = num x) :
    ∃ y z, a = num y ∧ b = num z := by
  rcases a with y | _ <;> rcases b with z | _
  · exact ⟨y, z, rfl, rfl⟩
  all_goals cases number

section Field

variable [Field K] (x y : K) (z : Exact K)

@[simp] theorem num_add : num x + num y = num (x + y) := rfl

@[simp] theorem num_sub : num x - num y = num (x - y) := rfl

@[simp] theorem num_mul : num x * num y = num (x * y) := rfl

@[simp] theorem nan_add : nan + z = nan := rfl

@[simp] theorem add_nan : z + nan = nan := by cases z <;> rfl

theorem numbers_of_mul {a b : Exact K} {x : K} (number : a * b = num x) :
    ∃ y z, a = num y ∧ b = num z :=
  numbers_of_map₂ number

theorem numbers_of_sub {a b : Exact K} {x : K} (number : a - b = num x) :
    ∃ y z, a = num y ∧ b = num z :=
  numbers_of_map₂ number

variable [DecidableEq K]

theorem num_div {x y : K} (h : y ≠ 0) : num x / num y = num (x / y) := if_neg h

theorem number_of_div {a b : Exact K} {x : K} (number : a / b = num x) : ∃ y, a = num y := by
  cases a with
  | num y => exact ⟨y, rfl⟩
  | nan => cases number

end Field

section Rules

variable [Field K] [LinearOrder K] [FloorRing K] [RealFunctions K] (x y : K) (n : Nat)

@[simp] theorem nat_eq : (Scalar.nat n : Exact K) = num (n : K) := rfl

@[simp] theorem isNaN_num : Scalar.isNaN (num x) = false := rfl

@[simp] theorem isNaN_nan : Scalar.isNaN (nan : Exact K) = true := rfl

@[simp] theorem eq_num : Scalar.eq (num x) (num y) = decide (x = y) := rfl

@[simp] theorem lt_num : Scalar.lt (num x) (num y) = decide (x < y) := rfl

@[simp] theorem le_num : Scalar.le (num x) (num y) = decide (x ≤ y) := rfl

@[simp] theorem abs_num : Scalar.abs (num x) = num |x| := rfl

@[simp] theorem powerNat_num : Scalar.powerNat (num x) n = .ok (num (x ^ n)) := rfl

/-- What is a number is one of the field. -/
theorem isNaN_eq_false_iff {z : Exact K} : Scalar.isNaN z = false ↔ ∃ x, z = num x := by
  cases z <;> simp

end Rules

section Checked

variable [Field K] [LinearOrder K] [FloorRing K] [RealFunctions K] {x y : K}

theorem divide_num (nonzero : y ≠ 0) : Scalar.divide (num x) (num y) = .ok (num (x / y)) := by
  have isOther : ¬ Scalar.eq (num y) (Scalar.nat 0) = true := by simp [nonzero]
  rw [Scalar.divide, if_neg isOther, num_div nonzero]

theorem logarithm_num (positive : 0 < x) :
    Scalar.logarithm (num x) = .ok (num (RealFunctions.log x)) := by
  have above : ¬ Scalar.le (num x) (Scalar.nat 0) = true := by simp [positive]
  rw [Scalar.logarithm, if_neg above]
  exact congrArg Except.ok (if_neg positive.not_ge)

theorem root_num (nonneg : 0 ≤ x) : Scalar.root (num x) = .ok (num (RealFunctions.sqrt x)) := by
  have above : ¬ Scalar.lt (num x) (Scalar.nat 0) = true := by simp [nonneg]
  rw [Scalar.root, if_neg above]
  exact congrArg Except.ok (if_neg nonneg.not_gt)

theorem cosine_num : Scalar.cosine (num x) = .ok (num (RealFunctions.cos x)) := rfl

/-- What is above zero has a real power with any exponent. -/
theorem powerOf_num (positive : 0 < x) :
    Scalar.powerOf (num x) (num y) = .ok (num (RealFunctions.power x y)) := by
  have real : Scalar.leavesReals (num x) (num y) = false := by
    simp [Scalar.leavesReals, positive.le]
  have power : Scalar.power (num x) (num y) = num (RealFunctions.power x y) :=
    if_neg fun both => positive.ne' both.1
  rw [Scalar.powerOf, real]
  simp only [Bool.false_eq_true, if_false]
  rw [power]
  rfl

end Checked

/-! ## §4 Sums -/

section Sums

variable [Field K]

theorem zero_eq : (0 : Exact K) = num 0 := rfl

instance : AddCommMonoid (Exact K) where
  add_assoc := by rintro (_ | _) (_ | _) (_ | _) <;> simp [add_assoc]
  zero_add := by rintro (_ | _) <;> simp [zero_eq]
  add_zero := by rintro (_ | _) <;> simp [zero_eq]
  add_comm := by rintro (_ | _) (_ | _) <;> simp [add_comm]
  nsmul := nsmulRec

theorem sum_map_num (xs : List K) : (xs.map num).sum = num xs.sum := by
  induction xs with
  | nil => rfl
  | cons x xs ih => rw [List.map_cons, List.sum_cons, List.sum_cons, ih, num_add]

/-- A sum is a number only if all its terms are. -/
theorem numbers_of_sum {xs : List (Exact K)} {x : K} (number : xs.sum = num x) :
    ∀ z ∈ xs, ∃ y, z = num y := by
  rintro (y | _) member
  · exact ⟨y, rfl⟩
  · obtain ⟨before, after, rfl⟩ := List.append_of_mem member
    rw [List.sum_append, List.sum_cons, nan_add, add_nan] at number
    cases number

theorem foldl_add (start : Exact K) (xs : List (Exact K)) :
    xs.foldl (· + ·) start = start + xs.sum := by
  induction xs generalizing start with
  | nil => exact (add_zero start).symm
  | cons x xs ih => rw [List.foldl_cons, ih, List.sum_cons, add_assoc]

variable [LinearOrder K] [FloorRing K] [RealFunctions K]

theorem sumLeft_eq (xs : List (Exact K)) : Scalar.sumLeft xs = xs.sum := by
  have zero : (Scalar.nat 0 : Exact K) = 0 := by rw [nat_eq, Nat.cast_zero, zero_eq]
  rw [Scalar.sumLeft, zero, foldl_add, zero_add]

theorem addLanes_sum {lanes xs : List (Exact K)} (same : lanes.length = xs.length) :
    (addLanes lanes xs).sum = lanes.sum + xs.sum := by
  induction lanes generalizing xs with
  | nil =>
    obtain rfl := List.length_eq_zero_iff.mp same.symm
    simp [addLanes]
  | cons lane lanes ih =>
    obtain ⟨x, xs, rfl⟩ := List.exists_cons_of_length_eq_add_one same.symm
    have others := ih (Nat.succ.inj same)
    rw [addLanes] at others ⊢
    rw [List.zipWith_cons_cons, List.sum_cons, List.sum_cons, List.sum_cons, others]
    exact add_add_add_comm lane x lanes.sum xs.sum

/-- Groups of eight keep their sum on their way into the lanes. -/
theorem fillLanes_sum {lanes xs : List (Exact K)} (eight : lanes.length = 8) :
    (fillLanes lanes xs).1.sum + (fillLanes lanes xs).2.sum = lanes.sum + xs.sum := by
  fun_induction fillLanes lanes xs with
  | case1 lanes xs whole ih =>
    have group : lanes.length = (xs.take 8).length := by
      rw [eight, List.length_take, Nat.min_eq_left whole]
    have length : (addLanes lanes (xs.take 8)).length = 8 := by
      rw [addLanes, List.length_zipWith, ← group, Nat.min_self, eight]
    rw [ih length, addLanes_sum group, add_assoc, ← List.sum_append, List.take_append_drop]
  | case2 => rfl

theorem sumLanes_eq (lanes : List (Exact K)) : sumLanes lanes = lanes.sum := by
  unfold sumLanes
  split
  · simp [add_assoc]
  · exact sumLeft_eq _

theorem sumBlock_eq (xs : List (Exact K)) : sumBlock xs = xs.sum := by
  unfold sumBlock
  split
  · exact sumLeft_eq xs
  · next enough =>
    have eight : (xs.take 8).length = 8 := by
      rw [List.length_take]
      omega
    show (fillLanes (xs.take 8) (xs.drop 8)).2.foldl (· + ·)
      (sumLanes (fillLanes (xs.take 8) (xs.drop 8)).1) = xs.sum
    rw [foldl_add, sumLanes_eq, fillLanes_sum eight, ← List.sum_append, List.take_append_drop]

/-- **In exact arithmetic it does not matter how a sum is split.** -/
theorem sumPairwise_eq (xs : List (Exact K)) : sumPairwise xs = xs.sum := by
  fun_induction sumPairwise xs with
  | case1 xs long middle first second =>
    rw [first, second, ← List.sum_append, List.take_append_drop]
  | case2 xs short => exact sumBlock_eq xs

end Sums

end Exact

end BusinessCase
