/-
The doubles in order, and rounding to the nearest of them.

Below the sign bit the bits of a double count the finite magnitudes upwards:
the next bit pattern is the next magnitude, and is a step above it that depends
on the exponent field alone. `ordinal` extends the count to both signs, and
`valueAt` is strictly monotone on it, so neighbouring doubles are neighbouring
integers. `RoundsTo` is IEEE 754's round to nearest, ties to even; that it has
one result is a fact about two even neighbours.
-/
import Mathlib.Data.Int.ConditionallyCompleteOrder
import Mathlib.Data.Nat.Log
import Mathlib.Order.Monotone.Basic
import Mathlib.Algebra.Order.Ring.Abs
import Mathlib.Tactic.Linarith
import Mathlib.Tactic.NormNum
import Mathlib.Tactic.Positivity
import OpenMeteo.Lib.Double

set_option autoImplicit false

namespace Double

/-! ## Magnitudes by their bits -/

/-- The bits below the sign. -/
def payload (x : Double) : ℕ := x.bits.toNat % 2 ^ 63

/-- The magnitude with these bits, in units of `2 ^ (-1074)`. -/
def unitsAt (b : ℕ) : ℕ :=
  if b / 2 ^ 52 = 0 then b % 2 ^ 52 else (2 ^ 52 + b % 2 ^ 52) * 2 ^ (b / 2 ^ 52 - 1)

/-- How far the next magnitude is above it. -/
def stepAt (b : ℕ) : ℕ := 2 ^ (b / 2 ^ 52 - 1)

theorem exponent_eq (x : Double) : x.exponent = x.payload / 2 ^ 52 := by
  unfold exponent payload
  omega

theorem fraction_eq (x : Double) : x.fraction = x.payload % 2 ^ 52 := by
  unfold fraction payload
  omega

theorem units_eq (x : Double) : x.units = unitsAt x.payload := by
  rw [units, unitsAt, exponent_eq, fraction_eq]

/-- The finite magnitudes are those whose exponent field is not full. -/
theorem isfinite_iff (x : Double) : x.isfinite = true ↔ x.payload < 2047 * 2 ^ 52 := by
  have hlt : x.payload < 2 ^ 63 := Nat.mod_lt _ (by norm_num)
  rw [isfinite, decide_eq_true_eq, exponent_eq]
  omega

/-- **The next bits are the next magnitude**, one step up. -/
theorem unitsAt_succ (b : ℕ) : unitsAt (b + 1) = unitsAt b + stepAt b := by
  unfold unitsAt stepAt
  by_cases hcarry : b % 2 ^ 52 + 1 = 2 ^ 52
  -- the fraction is full: the exponent moves, and the fraction starts again
  · have hdiv : (b + 1) / 2 ^ 52 = b / 2 ^ 52 + 1 := by omega
    have hmod : (b + 1) % 2 ^ 52 = 0 := by omega
    rw [hdiv, hmod, if_neg (Nat.succ_ne_zero _), Nat.add_sub_cancel, Nat.add_zero]
    by_cases hsub : b / 2 ^ 52 = 0
    · rw [if_pos hsub, hsub, Nat.zero_sub, pow_zero, hcarry, Nat.mul_one]
    · obtain ⟨e, he⟩ := Nat.exists_eq_succ_of_ne_zero hsub
      have hfull : 2 ^ 52 + b % 2 ^ 52 + 1 = 2 ^ 52 * 2 := by omega
      rw [if_neg hsub, he, Nat.succ_sub_one, ← Nat.succ_mul, Nat.succ_eq_add_one,
        Nat.succ_eq_add_one, hfull, pow_succ' 2 e, Nat.mul_assoc (2 ^ 52) 2 (2 ^ e)]
  · have hdiv : (b + 1) / 2 ^ 52 = b / 2 ^ 52 := by omega
    have hmod : (b + 1) % 2 ^ 52 = b % 2 ^ 52 + 1 := by omega
    rw [hdiv, hmod]
    by_cases hsub : b / 2 ^ 52 = 0
    · rw [if_pos hsub, if_pos hsub, hsub, Nat.zero_sub, pow_zero]
    · rw [if_neg hsub, if_neg hsub, ← Nat.add_assoc, Nat.succ_mul]

theorem stepAt_pos (b : ℕ) : 0 < stepAt b := Nat.pow_pos (by norm_num)

theorem stepAt_mono {b c : ℕ} (h : b ≤ c) : stepAt b ≤ stepAt c :=
  Nat.pow_le_pow_right (by norm_num) (Nat.sub_le_sub_right (Nat.div_le_div_right h) 1)

/-- The step of a normal magnitude is small against it. -/
theorem stepAt_le {b : ℕ} (h : 2 ^ 52 ≤ b) : stepAt b * 2 ^ 52 ≤ unitsAt b := by
  have hnormal : b / 2 ^ 52 ≠ 0 := by omega
  rw [unitsAt, if_neg hnormal, stepAt, Nat.mul_comm]
  exact Nat.mul_le_mul_right _ (Nat.le_add_right _ _)

/-- Subnormal magnitudes are one unit apart. -/
theorem stepAt_subnormal {b : ℕ} (h : b < 2 ^ 52) : stepAt b = 1 := by
  rw [stepAt, Nat.div_eq_of_lt h, Nat.zero_sub, pow_zero]

/-! ## Both signs -/

/-- The place of a double among all of them; both zeros are at 0. -/
def ordinal (x : Double) : ℤ := if x.negative then -(x.payload : ℤ) else x.payload

/-- The value at a place. -/
def valueAt (i : ℤ) : ℚ :=
  if i < 0 then -((unitsAt i.natAbs : ℚ) / 2 ^ 1074) else (unitsAt i.natAbs : ℚ) / 2 ^ 1074

/-- From one place to the next. -/
def gapAt (i : ℤ) : ℚ := valueAt (i + 1) - valueAt i

theorem unitsAt_zero : unitsAt 0 = 0 := by
  rw [unitsAt, Nat.zero_div, if_pos rfl, Nat.zero_mod]

theorem valueAt_natCast (b : ℕ) : valueAt b = (unitsAt b : ℚ) / 2 ^ 1074 := by
  rw [valueAt, if_neg (by omega), Int.natAbs_natCast]

theorem valueAt_zero : valueAt 0 = 0 := by
  rw [valueAt, if_neg (lt_irrefl 0), Int.natAbs_zero, unitsAt_zero, Nat.cast_zero, zero_div]

/-- Values on the two sides of zero mirror each other. -/
theorem valueAt_neg (i : ℤ) : valueAt (-i) = -valueAt i := by
  unfold valueAt
  rw [Int.natAbs_neg]
  by_cases hzero : i = 0
  · rw [hzero, neg_zero, if_neg (lt_irrefl 0), Int.natAbs_zero, unitsAt_zero, Nat.cast_zero,
      zero_div, neg_zero]
  · by_cases hneg : i < 0
    · rw [if_neg (by omega), if_pos hneg, neg_neg]
    · rw [if_pos (by omega), if_neg hneg]

theorem toRat_eq (x : Double) : x.toRat = valueAt x.ordinal := by
  unfold toRat magnitude ordinal
  rw [units_eq, ← valueAt_natCast]
  split
  · rw [valueAt_neg]
  · rfl

theorem ordinal_natAbs (x : Double) : x.ordinal.natAbs = x.payload := by
  unfold ordinal
  split <;> omega

/-- Every place short of the infinities is a finite double's. -/
theorem exists_ordinal {i : ℤ} (h : i.natAbs < 2047 * 2 ^ 52) :
    ∃ y : Double, y.isfinite = true ∧ y.ordinal = i := by
  have hbits : ∀ b : ℕ, b < 2 ^ 64 → (UInt64.ofNat b).toNat = b :=
    fun b hb => UInt64.toNat_ofNat_of_lt' hb
  by_cases hneg : i < 0
  · refine ⟨⟨UInt64.ofNat (2 ^ 63 + i.natAbs)⟩, ?_, ?_⟩
    · rw [isfinite_iff, payload, hbits _ (by omega)]
      omega
    · rw [ordinal, payload, negative, hbits _ (by omega), if_pos (by simp)]
      omega
  · refine ⟨⟨UInt64.ofNat i.natAbs⟩, ?_, ?_⟩
    · rw [isfinite_iff, payload, hbits _ (by omega)]
      omega
    · rw [ordinal, payload, negative, hbits _ (by omega),
        if_neg (by rw [decide_eq_true_eq]; omega)]
      omega

theorem gapAt_nonneg {i : ℤ} (h : 0 ≤ i) : gapAt i = (stepAt i.natAbs : ℚ) / 2 ^ 1074 := by
  obtain ⟨b, rfl⟩ := Int.eq_ofNat_of_zero_le h
  rw [gapAt, ← Nat.cast_succ, valueAt_natCast, valueAt_natCast, unitsAt_succ, Nat.cast_add, add_div,
    add_sub_cancel_left, Int.natAbs_natCast]

/-- Below zero the gap is the step from the place nearer to it. -/
theorem gapAt_neg {i : ℤ} (h : i < 0) : gapAt i = (stepAt (i + 1).natAbs : ℚ) / 2 ^ 1074 := by
  have hmirror : gapAt i = gapAt (-(i + 1)) := by
    rw [gapAt, gapAt, show -(i + 1) + 1 = -i by ring, valueAt_neg, valueAt_neg, neg_sub_neg]
  rw [hmirror, gapAt_nonneg (by omega), Int.natAbs_neg]

theorem gapAt_pos (i : ℤ) : 0 < gapAt i := by
  by_cases h : 0 ≤ i
  · rw [gapAt_nonneg h]
    exact div_pos (Nat.cast_pos.mpr (stepAt_pos _)) (by positivity)
  · rw [gapAt_neg (by omega)]
    exact div_pos (Nat.cast_pos.mpr (stepAt_pos _)) (by positivity)

/-- **Places and values have one order.** -/
theorem valueAt_strictMono : StrictMono valueAt :=
  strictMono_int_of_lt_succ fun i => sub_pos.mp (gapAt_pos i)

/-- The gaps at a normal double are small against it. -/
theorem gapAt_le {i : ℤ} (h : 2 ^ 52 ≤ i.natAbs) :
    gapAt i * 2 ^ 52 ≤ |valueAt i| ∧ gapAt (i - 1) * 2 ^ 52 ≤ |valueAt i| := by
  have hsmall : ∀ c : ℕ, c ≤ i.natAbs → (stepAt c : ℚ) / 2 ^ 1074 * 2 ^ 52 ≤ |valueAt i| := by
    intro c hc
    have hstep : (stepAt c : ℚ) * 2 ^ 52 ≤ unitsAt i.natAbs := by
      exact_mod_cast (Nat.mul_le_mul_right _ (stepAt_mono hc)).trans (stepAt_le h)
    have habs : |valueAt i| = (unitsAt i.natAbs : ℚ) / 2 ^ 1074 := by
      have hnonneg : (0 : ℚ) ≤ (unitsAt i.natAbs : ℚ) / 2 ^ 1074 := by positivity
      unfold valueAt
      split
      · rw [abs_neg, abs_of_nonneg hnonneg]
      · rw [abs_of_nonneg hnonneg]
    rw [habs, div_mul_eq_mul_div]
    exact div_le_div_of_nonneg_right hstep (by positivity)
  by_cases hneg : i < 0
  · rw [gapAt_neg hneg, gapAt_neg (by omega)]
    exact ⟨hsmall _ (by omega), hsmall _ (by omega)⟩
  · rw [gapAt_nonneg (by omega), gapAt_nonneg (by omega)]
    exact ⟨hsmall _ (by omega), hsmall _ (by omega)⟩

/-- The gaps on the two sides of a subnormal double are one unit both. -/
theorem gapAt_subnormal {i : ℤ} (h : i.natAbs < 2 ^ 52) : gapAt (i - 1) = gapAt i := by
  have hunit : ∀ j : ℤ, -2 ^ 52 ≤ j → j < 2 ^ 52 → gapAt j = 1 / 2 ^ 1074 := by
    intro j hlo hhi
    by_cases hneg : j < 0
    · rw [gapAt_neg hneg, stepAt_subnormal (by omega), Nat.cast_one]
    · rw [gapAt_nonneg (by omega), stepAt_subnormal (by omega), Nat.cast_one]
  rw [hunit i (by omega) (by omega), hunit (i - 1) (by omega) (by omega)]

/-! ## Round to nearest, ties to even -/

/-- `x` is what `r` is rounded to: no finite double is nearer, one as near only
leaves it to an even `x`, and `r` is not so large that it rounds to an
infinity. -/
structure RoundsTo (r : ℚ) (x : Double) : Prop where
  finite : x.isfinite = true
  no_overflow : |r| < 2 ^ 1024 - 2 ^ 970
  nearest : ∀ y : Double, y.isfinite = true → |r - x.toRat| ≤ |r - y.toRat|
  even : ∀ y : Double, y.isfinite = true → y.toRat ≠ x.toRat →
    |r - y.toRat| = |r - x.toRat| → x.fraction % 2 = 0
/-- Halfway from a place to the next. -/
def midAt (i : ℤ) : ℚ := (valueAt i + valueAt (i + 1)) / 2

theorem midAt_eq (i : ℤ) :
    midAt i = valueAt i + gapAt i / 2 ∧ midAt (i - 1) = valueAt i - gapAt (i - 1) / 2 := by
  unfold midAt gapAt
  rw [sub_add_cancel]
  constructor <;> linarith

theorem abs_sub_le_abs_sub {r a b : ℚ} (h : a < b) :
    (|r - a| ≤ |r - b| ↔ r ≤ (a + b) / 2) ∧ (|r - b| ≤ |r - a| ↔ (a + b) / 2 ≤ r) := by
  have hpos : 0 < b - a := sub_pos.mpr h
  have hsquares : (r - b) ^ 2 - (r - a) ^ 2 = (b - a) * (a + b - 2 * r) := by ring
  have hswapped : (r - a) ^ 2 - (r - b) ^ 2 = (b - a) * (2 * r - (a + b)) := by ring
  constructor
  · rw [← sq_le_sq, ← sub_nonneg, hsquares, mul_nonneg_iff_of_pos_left hpos]
    constructor
    · intro hle
      linarith
    · intro hle
      linarith
  · rw [← sq_le_sq, ← sub_nonneg, hswapped, mul_nonneg_iff_of_pos_left hpos]
    constructor
    · intro hle
      linarith
    · intro hle
      linarith

theorem midAt_neg (i : ℤ) : midAt (-i) = -midAt (i - 1) := by
  rw [midAt, midAt, show -i + 1 = -(i - 1) by ring, sub_add_cancel, valueAt_neg, valueAt_neg]
  ring

/-- Halfway from the last finite double to where the next would be. -/
theorem midAt_last : midAt (2047 * 2 ^ 52 - 1) = 2 ^ 1024 - 2 ^ 970 := by
  have hnext : valueAt (2047 * 2 ^ 52) = 2 ^ 1024 := by
    have hunits : unitsAt (2047 * 2 ^ 52) = 2 ^ 2098 := by
      rw [unitsAt, Nat.mul_div_cancel _ (by norm_num), Nat.mul_mod_left, if_neg (by norm_num),
        add_zero, ← pow_add]
    have hplace : (2047 * 2 ^ 52 : ℤ) = (2047 * 2 ^ 52 : ℕ) := by norm_num
    rw [hplace, valueAt_natCast, hunits, Nat.cast_pow, Nat.cast_ofNat,
      div_eq_iff (by positivity), ← pow_add]
  have hgap : gapAt (2047 * 2 ^ 52 - 1) = 2 ^ 971 := by
    have hstep : stepAt (2047 * 2 ^ 52 - 1) = 2 ^ 2045 := by
      rw [stepAt, show (2047 * 2 ^ 52 - 1) / 2 ^ 52 - 1 = 2045 by norm_num]
    rw [gapAt_nonneg (by norm_num), show (2047 * 2 ^ 52 - 1 : ℤ).natAbs = 2047 * 2 ^ 52 - 1 by rfl,
      hstep, Nat.cast_pow, Nat.cast_ofNat, div_eq_iff (by positivity), ← pow_add]
  have hmid : midAt (2047 * 2 ^ 52 - 1)
      = valueAt (2047 * 2 ^ 52) - gapAt (2047 * 2 ^ 52 - 1) / 2 := by
    unfold midAt gapAt
    rw [sub_add_cancel]
    ring
  rw [hmid, hnext, hgap, pow_succ 2 970, mul_div_cancel_right₀ _ two_ne_zero]

theorem fraction_even (x : Double) : x.fraction % 2 = 0 ↔ x.ordinal % 2 = 0 := by
  have hplace := ordinal_natAbs x
  rw [fraction_eq]
  omega

/-- The midpoints grow with the places. -/
theorem midAt_strictMono : StrictMono midAt := by
  intro i j h
  have hleft := valueAt_strictMono h
  have hright := valueAt_strictMono (Int.add_lt_add_right h 1)
  unfold midAt
  linarith

/-- No place above is met halfway before the next one is. -/
theorem le_midAt_of_lt {i j : ℤ} (h : i < j) : midAt i ≤ (valueAt i + valueAt j) / 2 := by
  have hnext := valueAt_strictMono.monotone (Int.add_one_le_of_lt h)
  unfold midAt
  linarith

theorem midAt_le_of_lt {i j : ℤ} (h : j < i) : (valueAt j + valueAt i) / 2 ≤ midAt (i - 1) := by
  have hprev := valueAt_strictMono.monotone (Int.le_sub_one_of_lt h)
  unfold midAt
  rw [sub_add_cancel]
  linarith

/-- Towards a greater double a number that rounds to `x` stops halfway. -/
theorem RoundsTo.le_mid {r : ℚ} {x y : Double} (h : RoundsTo r x) (hy : y.isfinite = true)
    (hlt : x.toRat < y.toRat) :
    r ≤ (x.toRat + y.toRat) / 2 ∧ (r = (x.toRat + y.toRat) / 2 → x.ordinal % 2 = 0) := by
  have hnear := h.nearest y hy
  refine ⟨(abs_sub_le_abs_sub hlt).1.mp hnear, fun heq => (fraction_even x).mp ?_⟩
  exact h.even y hy hlt.ne' (le_antisymm ((abs_sub_le_abs_sub hlt).2.mpr heq.ge) hnear)

theorem RoundsTo.mid_le {r : ℚ} {x y : Double} (h : RoundsTo r x) (hy : y.isfinite = true)
    (hlt : y.toRat < x.toRat) :
    (y.toRat + x.toRat) / 2 ≤ r ∧ (r = (y.toRat + x.toRat) / 2 → x.ordinal % 2 = 0) := by
  have hnear := h.nearest y hy
  refine ⟨(abs_sub_le_abs_sub hlt).2.mp hnear, fun heq => (fraction_even x).mp ?_⟩
  exact h.even y hy hlt.ne (le_antisymm ((abs_sub_le_abs_sub hlt).1.mpr heq.le) hnear)

/-- **Rounding, by the neighbours.** A number rounds to a double when it is
between the two midpoints around it, and on a midpoint only if it is even. -/
theorem roundsTo_iff {r : ℚ} {x : Double} :
    RoundsTo r x ↔ x.isfinite = true ∧ |r| < 2 ^ 1024 - 2 ^ 970
      ∧ (midAt (x.ordinal - 1) ≤ r ∧ r ≤ midAt x.ordinal)
      ∧ (r = midAt (x.ordinal - 1) ∨ r = midAt x.ordinal → x.ordinal % 2 = 0) := by
  constructor
  · intro h
    have hfinite := h.finite
    obtain ⟨hlow, hhigh⟩ := abs_lt.mp h.no_overflow
    have hplace := ordinal_natAbs x
    rw [isfinite_iff] at hfinite
    -- the next double is no nearer, or there is none and `r` would overflow
    have habove : r ≤ midAt x.ordinal ∧ (r = midAt x.ordinal → x.ordinal % 2 = 0) := by
      by_cases hlast : x.ordinal = 2047 * 2 ^ 52 - 1
      · rw [hlast, midAt_last]
        exact ⟨hhigh.le, fun heq => absurd heq hhigh.ne⟩
      · obtain ⟨y, hy, hyo⟩ := exists_ordinal (i := x.ordinal + 1) (by omega)
        have hlt : x.toRat < y.toRat := by
          rw [toRat_eq, toRat_eq, hyo]
          exact valueAt_strictMono (Int.lt_succ _)
        rw [midAt, ← hyo, ← toRat_eq, ← toRat_eq]
        exact h.le_mid hy hlt
    have hbelow : midAt (x.ordinal - 1) ≤ r
        ∧ (r = midAt (x.ordinal - 1) → x.ordinal % 2 = 0) := by
      by_cases hlast : x.ordinal = -(2047 * 2 ^ 52 - 1)
      · have hmid : midAt (x.ordinal - 1) = -(2 ^ 1024 - 2 ^ 970) := by
          rw [hlast, show (-(2047 * 2 ^ 52 - 1) - 1 : ℤ) = -(2047 * 2 ^ 52) by norm_num, midAt_neg,
            midAt_last]
        rw [hmid]
        exact ⟨hlow.le, fun heq => absurd heq hlow.ne'⟩
      · obtain ⟨y, hy, hyo⟩ := exists_ordinal (i := x.ordinal - 1) (by omega)
        have hlt : y.toRat < x.toRat := by
          rw [toRat_eq, toRat_eq, hyo]
          exact valueAt_strictMono (Int.sub_one_lt_of_le le_rfl)
        rw [midAt, sub_add_cancel, ← hyo, ← toRat_eq, ← toRat_eq]
        exact h.mid_le hy hlt
    exact ⟨h.finite, h.no_overflow, ⟨hbelow.1, habove.1⟩,
      fun heq => heq.elim hbelow.2 habove.2⟩
  · rintro ⟨hfinite, hrange, ⟨hlow, hhigh⟩, heven⟩
    -- any other double is on one side, and at most as near as the neighbour there
    have hother : ∀ y : Double, y.toRat ≠ x.toRat →
        |r - x.toRat| ≤ |r - y.toRat| ∧ (|r - y.toRat| = |r - x.toRat| → x.fraction % 2 = 0) := by
      intro y hne
      rw [toRat_eq, toRat_eq] at hne ⊢
      rcases lt_trichotomy x.ordinal y.ordinal with hlt | heq | hlt
      · have hmid := le_midAt_of_lt hlt
        have hval := abs_sub_le_abs_sub (r := r) (valueAt_strictMono hlt)
        refine ⟨hval.1.mpr (hhigh.trans hmid), fun htie => (fraction_even x).mpr (heven ?_)⟩
        exact Or.inr (le_antisymm hhigh (hmid.trans (hval.2.mp htie.le)))
      · exact absurd (congrArg valueAt heq.symm) hne
      · have hmid := midAt_le_of_lt hlt
        have hval := abs_sub_le_abs_sub (r := r) (valueAt_strictMono hlt)
        refine ⟨hval.2.mpr (hmid.trans hlow), fun htie => (fraction_even x).mpr (heven ?_)⟩
        exact Or.inl (le_antisymm ((hval.1.mp htie.le).trans hmid) hlow)
    refine ⟨hfinite, hrange, fun y _ => ?_, fun y _ hne => (hother y hne).2⟩
    by_cases hne : y.toRat = x.toRat
    · rw [hne]
    · exact (hother y hne).1

/-- **A number rounds to one value.** Two results would be neighbours, with the
number halfway between them, and of two neighbours only one is even. -/
theorem RoundsTo.unique {r : ℚ} {x y : Double} (hx : RoundsTo r x) (hy : RoundsTo r y) :
    x.toRat = y.toRat := by
  obtain ⟨-, -, ⟨hxlow, hxhigh⟩, hxeven⟩ := roundsTo_iff.mp hx
  obtain ⟨-, -, ⟨hylow, hyhigh⟩, hyeven⟩ := roundsTo_iff.mp hy
  have hno : ∀ i j : ℤ, i < j → r ≤ midAt i → midAt (j - 1) ≤ r →
      (r = midAt i → i % 2 = 0) → (r = midAt (j - 1) → j % 2 = 0) → False := by
    intro i j hlt hi hj hieven hjeven
    have hmid : midAt i ≤ midAt (j - 1) := midAt_strictMono.monotone (Int.le_sub_one_of_lt hlt)
    have hri : r = midAt i := le_antisymm hi (hmid.trans hj)
    have hrj : r = midAt (j - 1) := le_antisymm (hi.trans hmid) hj
    have hsame : i = j - 1 := midAt_strictMono.injective (hri.symm.trans hrj)
    have := hieven hri
    have := hjeven hrj
    omega
  rw [toRat_eq, toRat_eq]
  rcases lt_trichotomy x.ordinal y.ordinal with hlt | heq | hlt
  · exact (hno _ _ hlt hxhigh hylow (hxeven ∘ Or.inr) (hyeven ∘ Or.inl)).elim
  · rw [heq]
  · exact (hno _ _ hlt hyhigh hxlow (hyeven ∘ Or.inr) (hxeven ∘ Or.inl)).elim

/-! ## How far rounding goes -/

theorem toRat_ne_zero {x : Double} (h : 2 ^ 52 ≤ x.payload) : x.toRat ≠ 0 := by
  intro hzero
  rw [← ordinal_natAbs] at h
  have hgap := (gapAt_le h).1
  rw [← toRat_eq, hzero, abs_zero] at hgap
  linarith [gapAt_pos x.ordinal]

/-- **Rounding to a normal double** is off by half a unit of its last place at most. -/
theorem RoundsTo.close {r : ℚ} {x : Double} (h : RoundsTo r x) (hnormal : 2 ^ 52 ≤ x.payload) :
    |r - x.toRat| * 2 ^ 53 ≤ |x.toRat| := by
  obtain ⟨-, -, ⟨hlow, hhigh⟩, -⟩ := roundsTo_iff.mp h
  rw [← ordinal_natAbs] at hnormal
  obtain ⟨hgaphigh, hgaplow⟩ := gapAt_le hnormal
  obtain ⟨hmidhigh, hmidlow⟩ := midAt_eq x.ordinal
  rw [toRat_eq]
  rcases abs_cases (r - valueAt x.ordinal) with ⟨habs, -⟩ | ⟨habs, -⟩
  · rw [habs]
    linarith
  · rw [habs]
    linarith

/-- **Rounding to a subnormal double** goes as far on one side as on the other,
so whatever is as near rounds to it too. -/
theorem RoundsTo.of_nearer {r q : ℚ} {x : Double} (h : RoundsTo r x)
    (hsubnormal : x.payload < 2 ^ 52) (hnear : |q - x.toRat| ≤ |r - x.toRat|) :
    RoundsTo q x := by
  obtain ⟨hfinite, -, ⟨hlow, hhigh⟩, heven⟩ := roundsTo_iff.mp h
  rw [← ordinal_natAbs] at hsubnormal
  obtain ⟨hmidhigh, hmidlow⟩ := midAt_eq x.ordinal
  rw [gapAt_subnormal hsubnormal] at hmidlow
  rw [toRat_eq] at hnear
  have hdist : |r - valueAt x.ordinal| ≤ gapAt x.ordinal / 2 := by
    rw [abs_le]
    constructor <;> linarith
  have hvalue := abs_le.mp (hnear.trans hdist)
  have hbetween : midAt (x.ordinal - 1) ≤ q ∧ q ≤ midAt x.ordinal := by
    constructor <;> linarith
  refine roundsTo_iff.mpr ⟨hfinite, ?_, hbetween, fun htie => heven ?_⟩
  · have htop := midAt_strictMono (show x.ordinal < 2047 * 2 ^ 52 - 1 by omega)
    have hbottom := midAt_strictMono (show -(2047 * 2 ^ 52) < x.ordinal - 1 by omega)
    rw [midAt_neg, midAt_last] at hbottom
    rw [midAt_last] at htop
    exact abs_lt.mpr ⟨hbottom.trans_le hbetween.1, hbetween.2.trans_lt htop⟩
  -- `q` is on a midpoint, so `r` is on one
  · have hreach : gapAt x.ordinal / 2 ≤ |r - valueAt x.ordinal| := by
      refine le_trans ?_ hnear
      rcases htie with htie | htie
      · exact le_trans (by linarith) (neg_le_abs _)
      · exact le_trans (by linarith) (le_abs_self _)
    rcases abs_cases (r - valueAt x.ordinal) with ⟨habs, -⟩ | ⟨habs, -⟩
    · exact Or.inr (by linarith)
    · exact Or.inl (by linarith)

/-! ## Integers -/

/-- The bits below the sign of a positive integer below `2 ^ 53`. -/
def integerBits (n : ℕ) : ℕ := (n.log2 + 1022) * 2 ^ 52 + n * 2 ^ (52 - n.log2)

/-- The double that an integer below `2 ^ 53` is. -/
def ofInt (n : ℤ) : Double :=
  if n = 0 then zero
  else ⟨UInt64.ofNat ((if n < 0 then 2 ^ 63 else 0) + integerBits n.natAbs)⟩

/-- An integer is scaled so that its highest bit is the hidden one. -/
theorem scaled_bounds {n : ℕ} (hpos : n ≠ 0) (hlt : n < 2 ^ 53) :
    n.log2 ≤ 52 ∧ 2 ^ 52 ≤ n * 2 ^ (52 - n.log2) ∧ n * 2 ^ (52 - n.log2) < 2 ^ 53 := by
  have hlow := Nat.log2_self_le hpos
  have hhigh := Nat.lt_log2_self (n := n)
  have hlog : n.log2 ≤ 52 := Nat.le_of_lt_succ ((Nat.log2_lt hpos).mpr hlt)
  refine ⟨hlog, ?_, ?_⟩
  · calc 2 ^ 52 = 2 ^ n.log2 * 2 ^ (52 - n.log2) := by rw [← pow_add, Nat.add_sub_cancel' hlog]
      _ ≤ n * 2 ^ (52 - n.log2) := Nat.mul_le_mul_right _ hlow
  · calc n * 2 ^ (52 - n.log2) < 2 ^ (n.log2 + 1) * 2 ^ (52 - n.log2) :=
        Nat.mul_lt_mul_of_pos_right hhigh (Nat.pow_pos (by norm_num))
      _ = 2 ^ 53 := by rw [← pow_add]; congr 1; omega

theorem unitsAt_integerBits {n : ℕ} (hpos : n ≠ 0) (hlt : n < 2 ^ 53) :
    unitsAt (integerBits n) = n * 2 ^ 1074 ∧ integerBits n < 2047 * 2 ^ 52 := by
  obtain ⟨hlog, hlow, hhigh⟩ := scaled_bounds hpos hlt
  have hdiv : integerBits n / 2 ^ 52 = n.log2 + 1023 := by
    rw [integerBits]
    omega
  have hmod : 2 ^ 52 + integerBits n % 2 ^ 52 = n * 2 ^ (52 - n.log2) := by
    rw [integerBits]
    omega
  refine ⟨?_, ?_⟩
  · have hexponent : 52 - n.log2 + (n.log2 + 1023 - 1) = 1074 := by omega
    rw [unitsAt, if_neg (by omega), hdiv, hmod, Nat.mul_assoc, ← pow_add, hexponent]
  · rw [integerBits]
    omega

/-- **Integers below `2 ^ 53` are doubles.** -/
theorem ofInt_spec {n : ℤ} (hlt : n.natAbs < 2 ^ 53) :
    (ofInt n).isfinite = true ∧ (ofInt n).toRat = n := by
  by_cases hzero : n = 0
  · subst hzero
    refine ⟨rfl, ?_⟩
    have hordinal : (ofInt 0).ordinal = 0 := rfl
    rw [toRat_eq, hordinal, valueAt_zero, Int.cast_zero]
  · obtain ⟨hunits, hbits⟩ := unitsAt_integerBits (Int.natAbs_ne_zero.mpr hzero) hlt
    have hvalue : (unitsAt (integerBits n.natAbs) : ℚ) / 2 ^ 1074 = n.natAbs := by
      rw [hunits, Nat.cast_mul, Nat.cast_pow, Nat.cast_ofNat]
      exact mul_div_cancel_right₀ _ (by positivity)
    rw [isfinite_iff, toRat_eq, ordinal, ofInt, if_neg hzero, payload, negative]
    dsimp only
    have hofNat : ∀ b : ℕ, b < 2 ^ 64 → (UInt64.ofNat b).toNat = b :=
      fun b hb => UInt64.toNat_ofNat_of_lt' hb
    rw [hofNat _ (by split <;> omega)]
    by_cases hneg : n < 0
    · have hmod : (2 ^ 63 + integerBits n.natAbs) % 2 ^ 63 = integerBits n.natAbs := by omega
      rw [if_pos hneg, hmod, if_pos (decide_eq_true (by omega)), valueAt_neg, valueAt_natCast,
        hvalue]
      have habs : (n.natAbs : ℤ) = -n := by omega
      rw [← Int.cast_natCast, habs, Int.cast_neg, neg_neg]
      exact ⟨hbits, rfl⟩
    · rw [if_neg hneg, zero_add, Nat.mod_eq_of_lt (by omega),
        if_neg (by rw [decide_eq_true_iff]; omega), valueAt_natCast, hvalue]
      have habs : (n.natAbs : ℤ) = n := by omega
      rw [← Int.cast_natCast, habs]
      exact ⟨hbits, rfl⟩
end Double
