/-
Arithmetic on doubles: the exact result, rounded.

`nearestPlace` finds the magnitude nearest to a rational by its place among the
magnitudes, and is computable. It has no upper end; what is too large becomes an
infinity only when the bits are put together. `roundsTo_round` says that this is
the rounding `RoundsTo` describes. Programs are then followed by the rationals
their doubles denote: `IsNumber x r` says that `x` is not a NaN and denotes `r`,
where an infinity denotes the power of two that every finite double is below, and
each operation has one lemma about it.
-/
import Mathlib.Algebra.Order.Floor.Semiring
import Mathlib.Data.Nat.Log
import Mathlib.Tactic.FieldSimp
import OpenMeteo.Lib.DoubleNearest

set_option autoImplicit false

namespace Double

/-! ## The place below a magnitude -/

/-- The place of the greatest magnitude that is at most `u` units. -/
def placeBelow (u : ℚ) : ℕ :=
  let e := Nat.log2 ⌊u⌋₊ - 52
  e * 2 ^ 52 + ⌊u⌋₊ / 2 ^ e

theorem unitsAt_strictMono : StrictMono unitsAt := by
  refine strictMono_nat_of_lt_succ fun b => ?_
  rw [unitsAt_succ]
  exact Nat.lt_add_of_pos_right (stepAt_pos b)

/-- A place by its exponent and its significand, hidden bit included. -/
theorem unitsAt_place {e f : ℕ} (hf : f < 2 ^ 53) (hnormal : e = 0 ∨ 2 ^ 52 ≤ f) :
    unitsAt (e * 2 ^ 52 + f) = f * 2 ^ e ∧ stepAt (e * 2 ^ 52 + f) = 2 ^ e := by
  unfold unitsAt stepAt
  by_cases hsmall : f < 2 ^ 52
  · have he : e = 0 := by omega
    subst he
    have hdiv : (0 * 2 ^ 52 + f) / 2 ^ 52 = 0 := by omega
    have hmod : (0 * 2 ^ 52 + f) % 2 ^ 52 = f := by omega
    rw [hdiv, hmod, if_pos rfl, pow_zero, mul_one]
    exact ⟨rfl, rfl⟩
  · have hdiv : (e * 2 ^ 52 + f) / 2 ^ 52 = e + 1 := by omega
    have hmod : 2 ^ 52 + (e * 2 ^ 52 + f) % 2 ^ 52 = f := by omega
    rw [hdiv, hmod, if_neg (Nat.succ_ne_zero e), Nat.add_sub_cancel]
    exact ⟨rfl, rfl⟩

/-- The significand `placeBelow` takes fits, and is normal when it is shifted. -/
theorem significand_bounds (k : ℕ) :
    k / 2 ^ (Nat.log2 k - 52) < 2 ^ 53
      ∧ (Nat.log2 k - 52 = 0 ∨ 2 ^ 52 ≤ k / 2 ^ (Nat.log2 k - 52)) := by
  have hlt : k < 2 ^ (Nat.log2 k + 1) := Nat.lt_log2_self
  have hpos : 0 < 2 ^ (Nat.log2 k - 52) := Nat.two_pow_pos _
  constructor
  · rw [Nat.div_lt_iff_lt_mul hpos, ← pow_add]
    exact hlt.trans_le (Nat.pow_le_pow_right (by norm_num) (by omega))
  · by_cases hsmall : Nat.log2 k - 52 = 0
    · exact Or.inl hsmall
    · have hk : k ≠ 0 := by
        rintro rfl
        exact hsmall rfl
      refine Or.inr ((Nat.le_div_iff_mul_le hpos).mpr ?_)
      rw [← pow_add, show 52 + (Nat.log2 k - 52) = Nat.log2 k by omega]
      exact Nat.log2_self_le hk

/-- **The place below**: the next magnitude is above. -/
theorem placeBelow_spec {u : ℚ} (h : 0 ≤ u) :
    (unitsAt (placeBelow u) : ℚ) ≤ u ∧ u < unitsAt (placeBelow u + 1) := by
  obtain ⟨hf, hnormal⟩ := significand_bounds ⌊u⌋₊
  obtain ⟨hunits, hstep⟩ := unitsAt_place hf hnormal
  have hpos : 0 < 2 ^ (Nat.log2 ⌊u⌋₊ - 52) := Nat.two_pow_pos _
  have hlow : ⌊u⌋₊ / 2 ^ (Nat.log2 ⌊u⌋₊ - 52) * 2 ^ (Nat.log2 ⌊u⌋₊ - 52) ≤ ⌊u⌋₊ :=
    Nat.div_mul_le_self _ _
  have hhigh : ⌊u⌋₊ + 1
      ≤ ⌊u⌋₊ / 2 ^ (Nat.log2 ⌊u⌋₊ - 52) * 2 ^ (Nat.log2 ⌊u⌋₊ - 52)
        + 2 ^ (Nat.log2 ⌊u⌋₊ - 52) := by
    have := Nat.lt_div_mul_add (a := ⌊u⌋₊) hpos
    omega
  constructor
  · rw [placeBelow, hunits]
    exact le_trans (Nat.cast_le.mpr hlow) (Nat.floor_le h)
  · rw [unitsAt_succ, placeBelow, hunits, hstep]
    refine lt_of_lt_of_le (Nat.lt_floor_add_one u) ?_
    exact_mod_cast hhigh

/-! ## The nearest place -/

/-- The place of the magnitude nearest to `u` units, the even one of two. -/
def nearestPlace (u : ℚ) : ℕ :=
  let b := placeBelow u
  let mid : ℚ := (unitsAt b + unitsAt (b + 1)) / 2
  if u < mid ∨ u = mid ∧ b % 2 = 0 then b else b + 1

/-- **The nearest place** is between the two midpoints around it, and on one
only if it is even. -/
theorem nearestPlace_spec {u : ℚ} (h : 0 ≤ u) :
    (2 * u ≤ unitsAt (nearestPlace u) + unitsAt (nearestPlace u + 1)
        ∧ (2 * u = unitsAt (nearestPlace u) + unitsAt (nearestPlace u + 1) →
            nearestPlace u % 2 = 0))
      ∧ ∀ b, nearestPlace u = b + 1 →
        (unitsAt b + unitsAt (b + 1) : ℚ) ≤ 2 * u
          ∧ (2 * u = unitsAt b + unitsAt (b + 1) → (b + 1) % 2 = 0) := by
  obtain ⟨hlow, hhigh⟩ := placeBelow_spec h
  unfold nearestPlace
  generalize placeBelow u = p at hlow hhigh
  have hnext : (unitsAt (p + 1) : ℚ) < unitsAt (p + 1 + 1) :=
    Nat.cast_lt.mpr (unitsAt_strictMono (Nat.lt_succ_self _))
  dsimp only
  split
  · next hdown =>
    refine ⟨⟨?_, fun htie => ?_⟩, ?_⟩
    · rcases hdown with hlt | ⟨heq, -⟩ <;> linarith
    · rcases hdown with hlt | ⟨-, heven⟩
      · linarith
      · exact heven
    · rintro b rfl
      have hprev : (unitsAt b : ℚ) < unitsAt (b + 1) :=
        Nat.cast_lt.mpr (unitsAt_strictMono (Nat.lt_succ_self _))
      exact ⟨by linarith, fun htie => by linarith⟩
  · next hup =>
    rw [not_or, not_lt] at hup
    obtain ⟨hmid, hodd⟩ := hup
    refine ⟨⟨by linarith, fun htie => by linarith⟩, fun b hb => ?_⟩
    cases Nat.succ_injective hb
    refine ⟨by linarith, fun htie => ?_⟩
    have htie' : ¬ p % 2 = 0 := fun heven => hodd ⟨by linarith, heven⟩
    omega

/-- Rounding keeps the order: two numbers that crossed would be on one midpoint,
and the two places there are not both even. -/
theorem nearestPlace_mono {u v : ℚ} (h : 0 ≤ u) (hle : u ≤ v) :
    nearestPlace u ≤ nearestPlace v := by
  obtain ⟨-, hbelow⟩ := nearestPlace_spec h
  obtain ⟨⟨habove, heven⟩, -⟩ := nearestPlace_spec (h.trans hle)
  by_contra hlt
  obtain ⟨d, hd⟩ := Nat.exists_eq_add_of_lt (not_le.mp hlt)
  obtain ⟨hlow, hodd⟩ := hbelow _ hd
  generalize nearestPlace v = c at *
  have hleft : unitsAt c ≤ unitsAt (c + d) := unitsAt_strictMono.monotone (by omega)
  have hright : unitsAt (c + 1) ≤ unitsAt (c + d + 1) := unitsAt_strictMono.monotone (by omega)
  have hsum : (unitsAt c + unitsAt (c + 1) : ℚ) ≤ unitsAt (c + d) + unitsAt (c + d + 1) := by
    exact_mod_cast Nat.add_le_add hleft hright
  have hc := heven (by linarith)
  have hd := hodd (by linarith)
  have hsame : (unitsAt c : ℚ) = unitsAt (c + d) := by
    have hleft' : (unitsAt c : ℚ) ≤ unitsAt (c + d) := Nat.cast_le.mpr hleft
    have hright' : (unitsAt (c + 1) : ℚ) ≤ unitsAt (c + d + 1) := Nat.cast_le.mpr hright
    linarith
  have := unitsAt_strictMono.injective (Nat.cast_injective hsame)
  omega

/-- A magnitude is rounded to itself. -/
theorem nearestPlace_unitsAt (c : ℕ) : nearestPlace (unitsAt c) = c := by
  obtain ⟨⟨habove, -⟩, hbelow⟩ := nearestPlace_spec (Nat.cast_nonneg (unitsAt c) : (0 : ℚ) ≤ _)
  generalize nearestPlace (unitsAt c) = b at *
  rcases lt_trichotomy b c with hlt | heq | hlt
  · have hleft : (unitsAt b : ℚ) < unitsAt c := Nat.cast_lt.mpr (unitsAt_strictMono hlt)
    have hright : (unitsAt (b + 1) : ℚ) ≤ unitsAt c :=
      Nat.cast_le.mpr (unitsAt_strictMono.monotone hlt)
    linarith
  · exact heq
  · obtain ⟨d, rfl⟩ := Nat.exists_eq_add_of_lt hlt
    have hleft : (unitsAt c : ℚ) ≤ unitsAt (c + d) :=
      Nat.cast_le.mpr (unitsAt_strictMono.monotone (Nat.le_add_right _ _))
    have hright : (unitsAt c : ℚ) < unitsAt (c + d + 1) := Nat.cast_lt.mpr (unitsAt_strictMono hlt)
    linarith [(hbelow _ rfl).1]

/-- The step above a magnitude that is not above `u`, against `u`. -/
theorem stepAt_le_max {b : ℕ} {u : ℚ} (h : (unitsAt b : ℚ) ≤ u) :
    (stepAt b : ℚ) * 2 ^ 52 ≤ max u (2 ^ 52) := by
  by_cases hnormal : 2 ^ 52 ≤ b
  · have hstep : (stepAt b : ℚ) * 2 ^ 52 ≤ unitsAt b := by exact_mod_cast stepAt_le hnormal
    exact le_max_of_le_left (hstep.trans h)
  · rw [stepAt_subnormal (not_le.mp hnormal), Nat.cast_one, one_mul]
    exact le_max_right _ _

/-- Rounding goes half a step at most. -/
theorem nearestPlace_error {u : ℚ} (h : 0 ≤ u) :
    |unitsAt (nearestPlace u) - u| * 2 ^ 53 ≤ max u (2 ^ 52) := by
  obtain ⟨⟨habove, -⟩, hbelow⟩ := nearestPlace_spec h
  have hmax : (0 : ℚ) ≤ max u (2 ^ 52) := le_max_of_le_left h
  generalize nearestPlace u = b at *
  have hstep : ∀ c, (unitsAt (c + 1) : ℚ) = unitsAt c + stepAt c := by
    intro c
    rw [unitsAt_succ, Nat.cast_add]
  rcases abs_cases ((unitsAt b : ℚ) - u) with ⟨habs, hsign⟩ | ⟨habs, hsign⟩ <;> rw [habs]
  · cases b with
    | zero =>
      rw [unitsAt_zero, Nat.cast_zero] at hsign ⊢
      linarith
    | succ c =>
      have hmid := (hbelow c rfl).1
      have hc : (unitsAt c : ℚ) ≤ u := by
        have := hstep c
        have : (0 : ℚ) ≤ stepAt c := Nat.cast_nonneg _
        linarith
      linarith [hstep c, stepAt_le_max hc]
  · linarith [hstep b, stepAt_le_max (show (unitsAt b : ℚ) ≤ u by linarith)]

/-! ## The nearest magnitude -/

/-- `r`, rounded to the nearest magnitude; there is no greatest one. -/
def nearest (r : ℚ) : ℚ := (unitsAt (nearestPlace (r * 2 ^ 1074)) : ℚ) / 2 ^ 1074

theorem nearest_nonneg (r : ℚ) : 0 ≤ nearest r :=
  div_nonneg (Nat.cast_nonneg _) (by positivity)

theorem nearest_mono {r s : ℚ} (h : 0 ≤ r) (hle : r ≤ s) : nearest r ≤ nearest s := by
  have hunits : 0 ≤ r * 2 ^ 1074 := mul_nonneg h (by positivity)
  have hplace := nearestPlace_mono hunits (mul_le_mul_of_nonneg_right hle (by positivity))
  have hcast : (unitsAt _ : ℚ) ≤ unitsAt _ :=
    Nat.cast_le.mpr (unitsAt_strictMono.monotone hplace)
  exact div_le_div_of_nonneg_right hcast (by positivity)

theorem nearest_unitsAt (b : ℕ) : nearest ((unitsAt b : ℚ) / 2 ^ 1074) = unitsAt b / 2 ^ 1074 := by
  rw [nearest, div_mul_cancel₀ _ (by positivity), nearestPlace_unitsAt]

theorem nearest_zero : nearest 0 = 0 := by
  have h := nearest_unitsAt 0
  rwa [unitsAt_zero, Nat.cast_zero, zero_div] at h

/-- Half a unit of the subnormal numbers. -/
def halfUnit : ℚ := 1 / 2 ^ 1075

theorem halfUnit_pos : 0 < halfUnit := by
  unfold halfUnit
  positivity

theorem halfUnit_le {n : ℕ} (h : n ≤ 1000) : 2 ^ n * halfUnit ≤ 1 / 2 ^ 53 := by
  rw [halfUnit, ← mul_div_assoc, mul_one, div_le_div_iff₀ (by positivity) (by positivity),
    ← pow_add, one_mul]
  exact pow_le_pow_right₀ one_le_two (by omega)

/-- **How far rounding goes**: half a unit in the last place, or of the subnormal
numbers. -/
theorem nearest_error {r : ℚ} (h : 0 ≤ r) : |nearest r - r| ≤ max (r / 2 ^ 53) halfUnit := by
  have herror := nearestPlace_error (mul_nonneg h (by positivity : (0 : ℚ) ≤ 2 ^ 1074))
  have hunits : nearest r - r
      = (unitsAt (nearestPlace (r * 2 ^ 1074)) - r * 2 ^ 1074) / 2 ^ 1074 := by
    rw [nearest, sub_div, mul_div_cancel_right₀ _ (by positivity)]
  have hlast : halfUnit * (2 ^ 53 * 2 ^ 1074) = 2 ^ 52 := by
    rw [halfUnit, ← pow_add, div_mul_eq_mul_div, one_mul, div_eq_iff (by positivity), ← pow_add]
  have hscale : max (r / 2 ^ 53) halfUnit * (2 ^ 1074 * 2 ^ 53)
      = max (r * 2 ^ 1074) (2 ^ 52) := by
    rw [max_mul_of_nonneg _ _ (by positivity), mul_comm (2 ^ 1074) (2 ^ 53), hlast, ← mul_assoc,
      div_mul_cancel₀ _ (by positivity)]
  rw [hunits, abs_div, abs_of_pos (by positivity : (0 : ℚ) < 2 ^ 1074), div_le_iff₀ (by positivity)]
  refine le_of_mul_le_mul_right ?_ (by positivity : (0 : ℚ) < 2 ^ 53)
  rw [mul_assoc, hscale]
  exact herror

theorem nearest_error_add {r : ℚ} (h : 0 ≤ r) : |nearest r - r| ≤ r / 2 ^ 53 + halfUnit := by
  refine (nearest_error h).trans (max_le ?_ ?_)
  · exact le_add_of_nonneg_right halfUnit_pos.le
  · exact le_add_of_nonneg_left (div_nonneg h (by positivity))

/-- No number from one on rounds as a subnormal one does. -/
theorem nearest_error_of_one_le {r : ℚ} (h : 1 ≤ r) : |nearest r - r| ≤ r / 2 ^ 53 := by
  refine (nearest_error (zero_le_one.trans h)).trans (max_le le_rfl ?_)
  have hunit := halfUnit_le (n := 0) (by norm_num)
  have hone : (1 : ℚ) / 2 ^ 53 ≤ r / 2 ^ 53 := div_le_div_of_nonneg_right h (by positivity)
  linarith

/-- A coarse bound, to rule out overflow with. -/
theorem nearest_le {r : ℚ} (h : 0 ≤ r) : nearest r ≤ 2 * r + 1 := by
  have herror := (abs_le.mp (nearest_error h)).2
  have hunit := halfUnit_le (n := 0) (by norm_num)
  rcases le_max_iff.mp herror with hle | hle <;> linarith

theorem nearest_nearest (r : ℚ) : nearest (nearest r) = nearest r := nearest_unitsAt _

/-- Nothing lies between a number and what it is rounded to. -/
theorem le_of_lt_nearest {r s : ℚ} (hr : 0 ≤ r) (hs : nearest s = s) (h : s < nearest r) :
    s ≤ r := by
  by_contra hlt
  have := nearest_mono hr (not_le.mp hlt).le
  linarith

/-- **Whole numbers** of at most 53 digits are not rounded. -/
theorem nearest_natCast {n : ℕ} (h : n < 2 ^ 53) : nearest n = n := by
  by_cases hzero : n = 0
  · rw [hzero, Nat.cast_zero, nearest_zero]
  · have hvalue : (unitsAt (integerBits n) : ℚ) / 2 ^ 1074 = n := by
      rw [(unitsAt_integerBits hzero h).1, Nat.cast_mul, Nat.cast_pow, Nat.cast_ofNat,
        mul_div_cancel_right₀ _ (by positivity)]
    rw [← hvalue]
    exact nearest_unitsAt _

theorem nearest_one : nearest 1 = 1 := by
  exact_mod_cast nearest_natCast (n := 1) (by norm_num)

theorem one_le_nearest {r : ℚ} (h : 1 ≤ r) : 1 ≤ nearest r := by
  have := nearest_mono zero_le_one h
  rwa [nearest_one] at this

/-! ## Doubles by their sign and their place -/

/-- The place of the infinities. -/
def infinityPlace : ℕ := 2047 * 2 ^ 52

def ofPlace (negative : Bool) (b : ℕ) : Double :=
  ⟨UInt64.ofNat (if negative then 2 ^ 63 + b else b)⟩

theorem bits_ofPlace (negative : Bool) {b : ℕ} (hb : b < 2 ^ 63) :
    (ofPlace negative b).bits.toNat = if negative then 2 ^ 63 + b else b := by
  rw [ofPlace, UInt64.toNat_ofNat_of_lt']
  change _ < 2 ^ 64
  split <;> omega

theorem payload_ofPlace (negative : Bool) {b : ℕ} (hb : b < 2 ^ 63) :
    (ofPlace negative b).payload = b := by
  rw [payload, bits_ofPlace negative hb]
  split <;> omega

theorem negative_ofPlace (negative : Bool) {b : ℕ} (hb : b < 2 ^ 63) :
    (ofPlace negative b).negative = negative := by
  rw [Double.negative, bits_ofPlace negative hb]
  cases negative
  · exact decide_eq_false (by simp only [Bool.false_eq_true, if_false]; omega)
  · exact decide_eq_true (by simp only [if_true]; omega)

theorem isnan_iff (x : Double) : x.isnan = true ↔ infinityPlace < x.payload := by
  have hlt : x.payload < 2 ^ 63 := Nat.mod_lt _ (by norm_num)
  rw [isnan, decide_eq_true_eq, exponent_eq, fraction_eq, infinityPlace]
  omega

/-- What an infinity counts as. -/
def infinityValue : ℚ := 2 ^ 1024

theorem infinityValue_pos : 0 < infinityValue := by
  unfold infinityValue
  positivity

theorem lt_infinityValue {r : ℚ} (h : r ≤ 2 ^ 100) : r < infinityValue :=
  h.trans_lt (pow_lt_pow_right₀ one_lt_two (by norm_num))

theorem unitsAt_infinityPlace : (unitsAt infinityPlace : ℚ) / 2 ^ 1074 = infinityValue := by
  have hunits := (unitsAt_place (e := 2046) (f := 2 ^ 52) (by norm_num) (Or.inr le_rfl)).1
  rw [show 2046 * 2 ^ 52 + 2 ^ 52 = infinityPlace by rfl] at hunits
  rw [hunits, Nat.cast_mul, Nat.cast_pow, Nat.cast_pow, Nat.cast_ofNat, ← pow_add, infinityValue,
    div_eq_iff (by positivity), ← pow_add]

/-- `x` is not a NaN and denotes `r`, where an infinity denotes `infinityValue`. -/
structure IsNumber (x : Double) (r : ℚ) : Prop where
  not_nan : x.isnan = false
  value : x.toRat = r

theorem isNumber_of_isfinite {x : Double} (h : x.isfinite = true) : IsNumber x x.toRat := by
  refine ⟨?_, rfl⟩
  rw [isfinite_iff] at h
  rw [Bool.eq_false_iff, ne_eq, isnan_iff, infinityPlace]
  omega

theorem abs_toRat (x : Double) : |x.toRat| = (unitsAt x.payload : ℚ) / 2 ^ 1074 := by
  have hnonneg : (0 : ℚ) ≤ (unitsAt x.payload : ℚ) / 2 ^ 1074 := by positivity
  rw [toRat, magnitude, units_eq]
  split
  · rw [abs_neg, abs_of_nonneg hnonneg]
  · rw [abs_of_nonneg hnonneg]

theorem magnitude_nonneg (x : Double) : 0 ≤ x.magnitude :=
  div_nonneg (Nat.cast_nonneg _) (by positivity)

theorem magnitude_pos {x : Double} (h : x.units ≠ 0) : 0 < x.magnitude :=
  div_pos (Nat.cast_pos.mpr (Nat.pos_of_ne_zero h)) (by positivity)

theorem magnitude_eq (x : Double) : x.magnitude = |x.toRat| := by
  rw [abs_toRat, magnitude, units_eq]

namespace IsNumber

variable {x y : Double} {r s : ℚ}

/-- Finite is what is smaller than an infinity. -/
theorem isfinite_iff (h : IsNumber x r) : x.isfinite = true ↔ |r| < infinityValue := by
  have hplace := unitsAt_strictMono.lt_iff_lt (a := x.payload) (b := infinityPlace)
  rw [← h.value, abs_toRat, ← unitsAt_infinityPlace, div_lt_div_iff_of_pos_right (by positivity),
    Nat.cast_lt, hplace, Double.isfinite_iff]
  rfl

/-- A magnitude is rounded to itself. -/
theorem nearest_eq (h : IsNumber x r) (hr : 0 ≤ r) : nearest r = r := by
  have habs := abs_toRat x
  rw [h.value, abs_of_nonneg hr] at habs
  rw [habs]
  exact nearest_unitsAt _

end IsNumber

/-! ## Rounding to a double -/

/-- The double nearest to a magnitude, with a sign. -/
def round (negative : Bool) (m : ℚ) : Double :=
  ofPlace negative (min (nearestPlace (m * 2 ^ 1074)) infinityPlace)

theorem round_bits (negative : Bool) (m : ℚ) :
    (round negative m).negative = negative
      ∧ (round negative m).payload = min (nearestPlace (m * 2 ^ 1074)) infinityPlace := by
  have hplace : min (nearestPlace (m * 2 ^ 1074)) infinityPlace < 2 ^ 63 :=
    lt_of_le_of_lt (min_le_right _ _) (by rw [infinityPlace]; norm_num)
  exact ⟨negative_ofPlace _ hplace, payload_ofPlace _ hplace⟩

theorem isNumber_round (negative : Bool) (m : ℚ) :
    IsNumber (round negative m)
      (if negative then -min (nearest m) infinityValue else min (nearest m) infinityValue) := by
  obtain ⟨hsign, hplace⟩ := round_bits negative m
  refine ⟨?_, ?_⟩
  · rw [Bool.eq_false_iff, ne_eq, isnan_iff, hplace, not_lt]
    exact min_le_right _ _
  · rw [toRat, hsign, magnitude, units_eq, hplace, unitsAt_strictMono.monotone.map_min,
      Nat.cast_min, ← unitsAt_infinityPlace, nearest, min_div_div_right (by positivity)]

/-! ## Operations -/

/-- `x < y`. Both zeros are at one place. -/
def lt (x y : Double) : Bool := !x.isnan && !y.isnan && decide (x.ordinal < y.ordinal)

/-- `x <= y`. -/
def le (x y : Double) : Bool := !x.isnan && !y.isnan && decide (x.ordinal ≤ y.ordinal)

/-- `std::min`. -/
def std_min (x y : Double) : Double := if lt y x then y else x

/-- `std::max`. -/
def std_max (x y : Double) : Double := if lt x y then y else x

/-- `std::clamp`. -/
def std_clamp (x low high : Double) : Double :=
  if lt x low then low else if lt high x then high else x

/-- `x * y`. -/
def mul (x y : Double) : Double :=
  let negative := x.negative != y.negative
  if x.isnan ∨ y.isnan then quiet_NaN
  else if x.isfinite ∧ y.isfinite then round negative (x.magnitude * y.magnitude)
  -- an infinity, times zero or times anything else
  else if x.payload = 0 ∨ y.payload = 0 then quiet_NaN
  else ofPlace negative infinityPlace

/-- `x + y`. -/
def add (x y : Double) : Double :=
  if x.isnan ∨ y.isnan then quiet_NaN
  else if x.isfinite ∧ y.isfinite then
    let sum := x.toRat + y.toRat
    -- a sum of zero is negative only when both terms are
    round (if sum = 0 then x.negative && y.negative else decide (sum < 0)) |sum|
  else if ¬ x.isfinite ∧ ¬ y.isfinite ∧ x.negative ≠ y.negative then quiet_NaN
  else if x.isfinite then y else x

/-- `-x`. -/
def neg (x : Double) : Double := ofPlace (!x.negative) x.payload

/-- `x - y`. -/
def sub (x y : Double) : Double := add x (neg y)

/-- The conversion of an integer, which may have too many digits. -/
def roundInt (n : ℤ) : Double := round (decide (n < 0)) |(n : ℚ)|

def one : Double := ⟨0x3FF0000000000000⟩

theorem isNumber_zero : IsNumber zero 0 := by
  refine ⟨by decide, ?_⟩
  have hordinal : zero.ordinal = 0 := rfl
  rw [toRat_eq, hordinal, valueAt_zero]

theorem isNumber_one : IsNumber one 1 := by
  refine ⟨by decide, ?_⟩
  have hunits : one.units = 2 ^ 1074 := by decide +kernel
  have hsign : one.negative = false := by decide
  rw [toRat, hsign, magnitude, hunits, Nat.cast_pow, Nat.cast_ofNat,
    div_self (by positivity), if_neg Bool.false_ne_true]

namespace IsNumber

variable {x y : Double} {r s : ℚ}

theorem lt_iff (hx : IsNumber x r) (hy : IsNumber y s) : lt x y = true ↔ r < s := by
  rw [lt, hx.not_nan, hy.not_nan, ← hx.value, ← hy.value, toRat_eq, toRat_eq,
    valueAt_strictMono.lt_iff_lt]
  simp

theorem le_iff (hx : IsNumber x r) (hy : IsNumber y s) : le x y = true ↔ r ≤ s := by
  rw [le, hx.not_nan, hy.not_nan, ← hx.value, ← hy.value, toRat_eq, toRat_eq,
    valueAt_strictMono.le_iff_le]
  simp

theorem min (hx : IsNumber x r) (hy : IsNumber y s) : IsNumber (std_min x y) (min r s) := by
  unfold std_min
  split
  · next h => rwa [min_eq_right ((hy.lt_iff hx).mp h).le]
  · next h => rwa [min_eq_left (not_lt.mp (mt (hy.lt_iff hx).mpr h))]

theorem max (hx : IsNumber x r) (hy : IsNumber y s) : IsNumber (std_max x y) (max r s) := by
  unfold std_max
  split
  · next h => rwa [max_eq_right ((hx.lt_iff hy).mp h).le]
  · next h => rwa [max_eq_left (not_lt.mp (mt (hx.lt_iff hy).mpr h))]

theorem clamp {low high : Double} {a b : ℚ} (hx : IsNumber x r) (hlow : IsNumber low a)
    (hhigh : IsNumber high b) (hle : a ≤ b) :
    IsNumber (std_clamp x low high) (Max.max a (Min.min r b)) := by
  unfold std_clamp
  split
  · next h =>
    have hlt := (hx.lt_iff hlow).mp h
    rwa [max_eq_left (le_trans (min_le_left _ _) hlt.le)]
  · next h =>
    have hge := not_lt.mp (mt (hx.lt_iff hlow).mpr h)
    split
    · next h' => rwa [min_eq_right ((hhigh.lt_iff hx).mp h').le, max_eq_right hle]
    · next h' =>
      rwa [min_eq_left (not_lt.mp (mt (hhigh.lt_iff hx).mpr h')), max_eq_right hge]

/-- What is not below zero has a positive sign, or is a zero. -/
theorem sign_of_nonneg (hx : IsNumber x r) (hr : 0 ≤ r) : x.negative = false ∨ r = 0 := by
  have hvalue := hx.value
  rw [toRat] at hvalue
  split at hvalue
  · have hmagnitude := x.magnitude_nonneg
    exact Or.inr (by linarith)
  · next h => exact Or.inl (Bool.eq_false_iff.mpr h)

/-- **Products** of finite doubles that are not negative. -/
theorem mul (hx : IsNumber x r) (hy : IsNumber y s) (hr : 0 ≤ r) (hs : 0 ≤ s)
    (hrfinite : r < infinityValue) (hsfinite : s < infinityValue) :
    IsNumber (mul x y) (Min.min (nearest (r * s)) infinityValue) := by
  have hxfinite := hx.isfinite_iff.mpr (by rwa [abs_of_nonneg hr])
  have hyfinite := hy.isfinite_iff.mpr (by rwa [abs_of_nonneg hs])
  have hround := isNumber_round (x.negative != y.negative) (x.magnitude * y.magnitude)
  rw [magnitude_eq, magnitude_eq, hx.value, hy.value, abs_of_nonneg hr, abs_of_nonneg hs] at hround
  rw [Double.mul, if_neg (by rw [hx.not_nan, hy.not_nan]; decide), if_pos ⟨hxfinite, hyfinite⟩,
    magnitude_eq, magnitude_eq, hx.value, hy.value, abs_of_nonneg hr, abs_of_nonneg hs]
  -- the sign is that of the product, unless that is a zero
  by_cases hsign : (x.negative != y.negative) = true
  · have hzero : r * s = 0 := by
      rcases hx.sign_of_nonneg hr with hxs | hxs
      · rcases hy.sign_of_nonneg hs with hys | hys
        · rw [hxs, hys] at hsign
          exact absurd hsign (by decide)
        · rw [hys, mul_zero]
      · rw [hxs, zero_mul]
    rw [if_pos hsign, hzero, nearest_zero, min_eq_left infinityValue_pos.le, neg_zero] at hround
    rwa [hzero, nearest_zero, min_eq_left infinityValue_pos.le]
  · rwa [if_neg hsign] at hround

theorem neg (hx : IsNumber x r) : IsNumber (neg x) (-r) := by
  have hlt : x.payload < 2 ^ 63 := Nat.mod_lt _ (by norm_num)
  have hpayload : (Double.neg x).payload = x.payload := payload_ofPlace _ hlt
  refine ⟨?_, ?_⟩
  · rw [Bool.eq_false_iff, ne_eq, isnan_iff, hpayload, ← isnan_iff, hx.not_nan]
    exact Bool.false_ne_true
  · rw [← hx.value, toRat, toRat, magnitude, magnitude, units_eq, units_eq, hpayload, Double.neg,
      negative_ofPlace _ hlt]
    cases x.negative
    · rfl
    · rw [Bool.not_true, if_neg Bool.false_ne_true, if_pos rfl, neg_neg]

/-- **Sums** of finite doubles that are not negative. -/
theorem add (hx : IsNumber x r) (hy : IsNumber y s) (hsum : 0 ≤ r + s)
    (hrfinite : |r| < infinityValue) (hsfinite : |s| < infinityValue) :
    IsNumber (add x y) (Min.min (nearest (r + s)) infinityValue) := by
  have hxfinite := hx.isfinite_iff.mpr hrfinite
  have hyfinite := hy.isfinite_iff.mpr hsfinite
  rw [Double.add, if_neg (by rw [hx.not_nan, hy.not_nan]; decide), if_pos ⟨hxfinite, hyfinite⟩]
  dsimp only
  rw [hx.value, hy.value, abs_of_nonneg hsum]
  have hround := isNumber_round
    (if r + s = 0 then x.negative && y.negative else decide (r + s < 0)) (r + s)
  by_cases hzero : r + s = 0
  · rw [if_pos hzero, hzero, nearest_zero, min_eq_left infinityValue_pos.le, neg_zero,
      ite_self] at hround
    rwa [if_pos hzero, hzero, nearest_zero, min_eq_left infinityValue_pos.le]
  · rw [if_neg hzero, if_neg (by rw [decide_eq_true_eq, not_lt]; exact hsum)] at hround
    rwa [if_neg hzero]

theorem roundInt {n : ℤ} (h : 0 ≤ n) :
    IsNumber (roundInt n) (Min.min (nearest n) infinityValue) := by
  have hround := isNumber_round (decide (n < 0)) |(n : ℚ)|
  rw [if_neg (by rw [decide_eq_true_eq, not_lt]; exact h),
    abs_of_nonneg (by exact_mod_cast h)] at hround
  rwa [Double.roundInt, abs_of_nonneg (by exact_mod_cast h)]

end IsNumber

/-! ## IEEE 754 -/

theorem midAt_natCast (b : ℕ) :
    (unitsAt b : ℚ) + unitsAt (b + 1) = 2 * (midAt b * 2 ^ 1074) := by
  rw [midAt, ← Nat.cast_succ, valueAt_natCast, valueAt_natCast, ← add_div, mul_comm 2,
    div_mul_eq_mul_div, div_mul_cancel₀ _ two_ne_zero, div_mul_cancel₀ _ (by positivity)]

/-- The nearest place, by the midpoints of `roundsTo_iff`. -/
theorem nearestPlace_mid {m : ℚ} (h : 0 ≤ m) {b : ℕ} (hb : nearestPlace (m * 2 ^ 1074) = b) :
    (midAt (b - 1 : ℤ) ≤ m ∧ m ≤ midAt b)
      ∧ (m = midAt (b - 1 : ℤ) ∨ m = midAt b → (b : ℤ) % 2 = 0) := by
  have hunit : (0 : ℚ) < 2 ^ 1074 := by positivity
  have hscale : ∀ p q : ℚ, 2 * (p * 2 ^ 1074) ≤ 2 * (q * 2 ^ 1074) → p ≤ q := fun p q hle =>
    le_of_mul_le_mul_right (le_of_mul_le_mul_left hle two_pos) hunit
  obtain ⟨⟨habove, heven⟩, hbelow⟩ := nearestPlace_spec (mul_nonneg h hunit.le)
  rw [hb, midAt_natCast] at habove heven
  rw [hb] at hbelow
  have hhigheven : m = midAt b → (b : ℤ) % 2 = 0 := by
    intro htie
    have := heven (by rw [htie])
    omega
  cases b with
  | zero =>
    have hlow : midAt ((0 : ℕ) - 1 : ℤ) < m := by
      have hneg := valueAt_strictMono (show (-1 : ℤ) < 0 by norm_num)
      rw [valueAt_zero] at hneg
      rw [midAt, Nat.cast_zero, zero_sub, neg_add_cancel, valueAt_zero]
      linarith
    exact ⟨⟨hlow.le, hscale _ _ habove⟩,
      fun htie => htie.elim (fun heq => absurd heq hlow.ne') hhigheven⟩
  | succ c =>
    obtain ⟨hmid, hodd⟩ := hbelow c rfl
    rw [midAt_natCast] at hmid hodd
    have hcast : ((c + 1 : ℕ) : ℤ) - 1 = c := by omega
    rw [hcast]
    refine ⟨⟨hscale _ _ hmid, hscale _ _ habove⟩, fun htie => htie.elim (fun heq => ?_) hhigheven⟩
    have := hodd (by rw [heq])
    omega

theorem abs_signed (negative : Bool) {m : ℚ} (h : 0 ≤ m) :
    |(if negative then -m else m)| = m := by
  split
  · rw [abs_neg, abs_of_nonneg h]
  · rw [abs_of_nonneg h]

/-- **The rounding is that of IEEE 754**, short of overflow. -/
theorem roundsTo_round (negative : Bool) {m : ℚ} (h : 0 ≤ m) (hlt : m < 2 ^ 1024 - 2 ^ 970) :
    RoundsTo (if negative then -m else m) (round negative m) := by
  generalize hb : nearestPlace (m * 2 ^ 1074) = b
  obtain ⟨⟨hlow, hhigh⟩, heven⟩ := nearestPlace_mid h hb
  -- the midpoint below the infinities is above `m`
  have hfinite : b < infinityPlace := by
    rw [← midAt_last] at hlt
    have := midAt_strictMono.lt_iff_lt.mp (hlow.trans_lt hlt)
    rw [infinityPlace]
    omega
  obtain ⟨hsign, hplace⟩ := round_bits negative m
  rw [hb, min_eq_left hfinite.le] at hplace
  refine roundsTo_iff.mpr ⟨?_, (abs_signed negative h).trans_lt hlt, ?_⟩
  · rw [isfinite_iff, hplace]
    exact hfinite
  · rw [ordinal, hsign, hplace]
    cases negative
    · exact ⟨⟨hlow, hhigh⟩, heven⟩
    · rw [if_pos rfl, if_pos rfl, midAt_neg, show -(b : ℤ) - 1 = -(b + 1) by ring, midAt_neg,
        add_sub_cancel_right]
      refine ⟨⟨by linarith, by linarith⟩, fun htie => ?_⟩
      have := heven (htie.symm.imp (fun heq => by linarith) fun heq => by linarith)
      omega

end Double
