/-
Integer arithmetic that reports what a machine would lose.

Values are mathematical integers. Each operation computes exactly and then
checks that the machine's type holds the result: `signed` for a two's complement
type with the given largest value, `narrow` for a conversion to an unsigned
type. A program written with these operations and proved to return `.ok` has no
overflow, no division by zero, no wrap and no lossy conversion in it.

The largest values are parameters, so the library fixes no width.
-/
import Mathlib.Data.Int.Basic
import Mathlib.Tactic.NormNum

set_option autoImplicit false

namespace Checked

/-- What can go wrong. -/
inductive Fault
  | overflow
  | division_by_zero
  | narrowing
  | wrap
  deriving DecidableEq, Repr

/-- A signed type with this largest value holds `x`. -/
def Fits (limit x : ℤ) : Prop := -limit - 1 ≤ x ∧ x ≤ limit

instance (limit x : ℤ) : Decidable (Fits limit x) := inferInstanceAs (Decidable (_ ∧ _))

/-! ## Operations -/

def signed (limit x : ℤ) : Except Fault ℤ := if Fits limit x then .ok x else .error .overflow

def add (limit x y : ℤ) : Except Fault ℤ := signed limit (x + y)

def sub (limit x y : ℤ) : Except Fault ℤ := signed limit (x - y)

def mul (limit x y : ℤ) : Except Fault ℤ := signed limit (x * y)

/-- Division truncates towards zero. -/
def div (limit x y : ℤ) : Except Fault ℤ :=
  if y = 0 then .error .division_by_zero else signed limit (x.tdiv y)

/-- Conversion to an unsigned type whose values are below `bound`. -/
def narrow (bound x : ℤ) : Except Fault ℤ :=
  if 0 ≤ x ∧ x < bound then .ok x else .error .narrowing

/-- Decrement of an unsigned counter. -/
def decrement (x : ℤ) : Except Fault ℤ := if 0 < x then .ok (x - 1) else .error .wrap

/-! ## When they succeed -/

variable {limit x y : ℤ}

theorem signed_ok (h : Fits limit x) : signed limit x = .ok x := if_pos h

theorem add_ok (h : Fits limit (x + y)) : add limit x y = .ok (x + y) := signed_ok h

theorem sub_ok (h : Fits limit (x - y)) : sub limit x y = .ok (x - y) := signed_ok h

theorem mul_ok (h : Fits limit (x * y)) : mul limit x y = .ok (x * y) := signed_ok h

theorem narrow_ok {bound : ℤ} (h0 : 0 ≤ x) (hx : x < bound) : narrow bound x = .ok x :=
  if_pos ⟨h0, hx⟩

theorem decrement_ok (h : 0 < x) : decrement x = .ok (x - 1) := if_pos h

/-- The difference of two values between `0` and the largest fits. -/
theorem fits_sub (hx0 : 0 ≤ x) (hx : x ≤ limit) (hy0 : 0 ≤ y) (hy : y ≤ limit) :
    Fits limit (x - y) := by
  constructor <;> omega

/-- A nonnegative value divided by a positive one stays between `0` and itself. -/
theorem div_ok (hx0 : 0 ≤ x) (hx : x ≤ limit) (hy : 0 < y) : div limit x y = .ok (x.tdiv y) := by
  have hle : x.tdiv y ≤ x := by
    rw [Int.tdiv_eq_ediv_of_nonneg hx0]
    exact Int.ediv_le_self y hx0
  have hnonneg : 0 ≤ x.tdiv y := Int.tdiv_nonneg hx0 (le_of_lt hy)
  rw [div, if_neg (ne_of_gt hy)]
  exact signed_ok ⟨by omega, by omega⟩

/-- Going on from an operation that succeeded. -/
theorem ok_bind {α β : Type} (a : α) (f : α → Except Fault β) :
    ((.ok a : Except Fault α) >>= f) = f a := rfl

end Checked
