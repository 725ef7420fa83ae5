/-
IEEE 754 binary64 values: their bit patterns and the rationals they denote.

Every finite double is an integer multiple of `2 ^ (-1074)`, which is how
`magnitude` writes it, for normal and subnormal numbers alike. Arithmetic on
doubles is not here but in `DoubleArith`; what is computed exactly from a finite
double is computed from the rational it denotes.
-/
import Mathlib.Data.Rat.Defs
import Mathlib.Data.Rat.Floor
import Mathlib.Data.Int.Log

set_option autoImplicit false

/-- A binary64 value by its bits. -/
structure Double where
  bits : UInt64
  deriving DecidableEq, Repr

namespace Double

/-- The sign bit. -/
def negative (x : Double) : Bool := 2 ^ 63 ≤ x.bits.toNat

/-- The biased exponent. -/
def exponent (x : Double) : ℕ := x.bits.toNat / 2 ^ 52 % 2 ^ 11

/-- The stored part of the significand. -/
def fraction (x : Double) : ℕ := x.bits.toNat % 2 ^ 52

/-- `std::isfinite`. -/
def isfinite (x : Double) : Bool := x.exponent ≠ 2047

/-- `std::isnan`. -/
def isnan (x : Double) : Bool := x.exponent = 2047 ∧ x.fraction ≠ 0

/-- The significand with its hidden bit, in units of `2 ^ (-1074)` shifted by
the exponent. -/
def units (x : Double) : ℕ :=
  if x.exponent = 0 then x.fraction else (2 ^ 52 + x.fraction) * 2 ^ (x.exponent - 1)

/-- The absolute value of a finite double. -/
def magnitude (x : Double) : ℚ := (x.units : ℚ) / 2 ^ 1074

/-- The rational a finite double denotes. -/
def toRat (x : Double) : ℚ := if x.negative then -x.magnitude else x.magnitude

def zero : Double := ⟨0⟩

/-- `std::numeric_limits<double>::quiet_NaN()`. -/
def quiet_NaN : Double := ⟨0x7FF8000000000000⟩

end Double
