/-
Retry delays in doubles.

The law of `Backoff` is about exact arithmetic. Here `calculate_retry_delay` is
the code's own computation: the cap and the first delay are converted, every
product is rounded, the comparisons are those of doubles, and the last cast is
undefined for what a 64-bit integer cannot hold. `rounded_delay` says that the
cast never is, and how far the delay is from the law.

The loop's doubles denote rationals, `back_off_nearest`. Rounding multiplies an
error by at most `1 + 2 ^ (-53)` and adds half a subnormal unit; `Near` counts
both. A multiplier above one would multiply the second kind without an end, but
then no product is subnormal.
-/
import OpenMeteo.Backoff
import OpenMeteo.Lib.Checked
import OpenMeteo.Lib.DoubleArith

set_option autoImplicit false

namespace OpenMeteo

open Double (IsNumber nearest)

/-! ## The delay -/

/-- `std::numeric_limits<std::int64_t>::max()`. -/
def int64_max : ℤ := 9223372036854775807

/-- `static_cast<std::int64_t>` of a double. -/
def int64_of_double (x : Double) : Except Checked.Fault ℤ :=
  if x.isfinite then Checked.signed int64_max (truncate x.toRat) else .error .overflow

namespace RetryPolicy

def multiplier (policy : RetryPolicy) : Double :=
  if policy.backoff_multiplier.isfinite then
    Double.std_max policy.backoff_multiplier Double.zero
  else Double.one

def jitter_spread (policy : RetryPolicy) : Double :=
  if policy.jitter_factor.isfinite then
    Double.std_clamp policy.jitter_factor Double.zero Double.one
  else Double.zero

/-- The interval `std::uniform_real_distribution` is made with. -/
def jitter_range (policy : RetryPolicy) : Double × Double :=
  (Double.sub Double.one policy.jitter_spread, Double.add Double.one policy.jitter_spread)

/-- A number of that interval, both ends included. -/
def Draws (policy : RetryPolicy) (jitter : Double) : Prop :=
  Double.le policy.jitter_range.1 jitter = true ∧ Double.le jitter policy.jitter_range.2 = true

end RetryPolicy

/-- The loop of `calculate_retry_delay`. -/
def back_off_rounded (multiplier max_ms : Double) : ℕ → Double → Double
  | 0, delay_ms => delay_ms
  | n + 1, delay_ms =>
    back_off_rounded multiplier max_ms n (Double.std_min (Double.mul delay_ms multiplier) max_ms)

/-- `calculate_retry_delay`, in doubles. -/
def calculate_retry_delay_rounded (attempt : UInt8) (policy : RetryPolicy) (jitter : Double) :
    Except Checked.Fault ℤ :=
  let maximum := max policy.max_delay 0
  let max_ms := Double.roundInt maximum
  let delay_ms := Double.roundInt (max 0 (min policy.initial_delay maximum))
  let delay_ms := back_off_rounded policy.multiplier max_ms (attempt.toNat - 1) delay_ms
  let delay_ms :=
    if Double.lt Double.zero policy.jitter_spread then Double.mul delay_ms jitter else delay_ms
  if ¬ delay_ms.isfinite ∨ Double.le max_ms delay_ms then .ok maximum
  else int64_of_double delay_ms

/-! ## The rationals behind it -/

/-- The loop, on what its doubles denote. -/
def back_off_nearest (multiplier max_ms : ℚ) : ℕ → ℚ → ℚ
  | 0, delay_ms => delay_ms
  | n + 1, delay_ms =>
    back_off_nearest multiplier max_ms n (min (nearest (delay_ms * multiplier)) max_ms)

namespace RetryPolicy

variable (policy : RetryPolicy)

theorem multiplier_isNumber :
    IsNumber policy.multiplier policy.growth ∧ policy.growth < Double.infinityValue := by
  unfold multiplier growth
  split
  · next h =>
    have hfinite := (Double.isNumber_of_isfinite h).isfinite_iff.mp h
    refine ⟨(Double.isNumber_of_isfinite h).max Double.isNumber_zero, ?_⟩
    exact max_lt (lt_of_abs_lt hfinite) Double.infinityValue_pos
  · exact ⟨Double.isNumber_one, Double.lt_infinityValue (by norm_num)⟩

theorem jitter_spread_isNumber : IsNumber policy.jitter_spread policy.spread := by
  unfold jitter_spread spread
  split
  · next h =>
    exact (Double.isNumber_of_isfinite h).clamp Double.isNumber_zero Double.isNumber_one
      zero_le_one
  · exact Double.isNumber_zero

/-- The interval of the draws is not empty, and within `0` and `2`. -/
theorem jitter_range_bounds : ∃ low high : ℚ,
    IsNumber policy.jitter_range.1 low ∧ IsNumber policy.jitter_range.2 high
      ∧ 0 ≤ low ∧ low ≤ 1 ∧ 1 ≤ high ∧ high ≤ 2 := by
  obtain ⟨hs0, hs1⟩ := policy.spread_bounds
  have htwo : nearest 2 = 2 := by exact_mod_cast Double.nearest_natCast (n := 2) (by norm_num)
  have hlarge : (2 : ℚ) < Double.infinityValue := Double.lt_infinityValue (by norm_num)
  have hlow := Double.isNumber_one.add policy.jitter_spread_isNumber.neg (by linarith)
    (by rw [abs_one]; linarith) (by rw [abs_neg, abs_of_nonneg hs0]; linarith)
  have hhigh := Double.isNumber_one.add policy.jitter_spread_isNumber (by linarith)
    (by rw [abs_one]; linarith) (by rw [abs_of_nonneg hs0]; linarith)
  have hlowle : nearest (1 + -policy.spread) ≤ 1 := by
    have hmono := Double.nearest_mono (by linarith)
      (show 1 + -policy.spread ≤ 1 by linarith)
    rwa [Double.nearest_one] at hmono
  have hhighge : 1 ≤ nearest (1 + policy.spread) := Double.one_le_nearest (by linarith)
  have hhighle : nearest (1 + policy.spread) ≤ 2 := by
    rw [← htwo]
    exact Double.nearest_mono (by linarith) (by linarith)
  rw [min_eq_left (by linarith)] at hlow hhigh
  exact ⟨_, _, hlow, hhigh, Double.nearest_nonneg _, hlowle, hhighge, hhighle⟩

end RetryPolicy

/-- Conversions of 64-bit integers do not overflow. -/
theorem roundInt_isNumber {n : ℤ} (h0 : 0 ≤ n) (hmax : n ≤ int64_max) :
    IsNumber (Double.roundInt n) (nearest n) ∧ nearest n ≤ 2 ^ 65 := by
  have hnonneg : (0 : ℚ) ≤ n := by exact_mod_cast h0
  have hle : (n : ℚ) ≤ 9223372036854775807 := by exact_mod_cast hmax
  have hnearest : nearest n ≤ 2 ^ 65 := by linarith [Double.nearest_le hnonneg]
  have hnumber := IsNumber.roundInt h0
  rw [min_eq_left (Double.lt_infinityValue (by linarith)).le] at hnumber
  exact ⟨hnumber, hnearest⟩

/-- **What the loop denotes**, by induction on its steps. A product may be an
infinity, which the cap takes away. -/
theorem back_off_isNumber {multiplier max_ms : Double} {m c : ℚ} (hm : IsNumber multiplier m)
    (hm0 : 0 ≤ m) (hmfinite : m < Double.infinityValue) (hc : IsNumber max_ms c)
    (hcfinite : c < Double.infinityValue) (n : ℕ) :
    ∀ delay_ms x, IsNumber delay_ms x → 0 ≤ x → x ≤ c →
      IsNumber (back_off_rounded multiplier max_ms n delay_ms) (back_off_nearest m c n x)
        ∧ 0 ≤ back_off_nearest m c n x ∧ back_off_nearest m c n x ≤ c := by
  induction n with
  | zero => exact fun delay_ms x hx h0 hle => ⟨hx, h0, hle⟩
  | succ n ih =>
    intro delay_ms x hx h0 hle
    have hproduct := (hx.mul hm h0 hm0 (hle.trans_lt hcfinite) hmfinite).min hc
    rw [min_assoc, min_eq_right hcfinite.le] at hproduct
    exact ih _ _ hproduct (le_min (Double.nearest_nonneg _) (h0.trans hle)) (min_le_right _ _)

namespace RetryPolicy

variable (policy : RetryPolicy)

theorem cap_le {policy : RetryPolicy} (hmax : policy.max_delay ≤ int64_max) :
    policy.cap ≤ int64_max := max_le hmax (by decide)

theorem first_delay_cast_bounds :
    (0 : ℚ) ≤ policy.first_delay ∧ (policy.first_delay : ℚ) ≤ policy.cap :=
  ⟨by exact_mod_cast policy.first_delay_bounds.1, by exact_mod_cast policy.first_delay_bounds.2⟩

theorem cap_cast_nonneg : (0 : ℚ) ≤ policy.cap := by exact_mod_cast policy.cap_nonneg

/-- The delay before jitter. -/
def rounded_law (n : ℕ) : ℚ :=
  back_off_nearest policy.growth (nearest policy.cap) n (nearest policy.first_delay)

/-- The delay that is compared to the cap. -/
def rounded_ms (n : ℕ) (jitter : ℚ) : ℚ :=
  if 0 < policy.spread then nearest (policy.rounded_law n * jitter) else policy.rounded_law n

/-- The delay that is returned. -/
def rounded_delay_ms (n : ℕ) (jitter : ℚ) : ℤ :=
  if nearest policy.cap ≤ policy.rounded_ms n jitter then policy.cap
  else ⌊policy.rounded_ms n jitter⌋

variable {policy}

theorem rounded_law_isNumber (hmax : policy.max_delay ≤ int64_max) (n : ℕ) :
    IsNumber (back_off_rounded policy.multiplier (Double.roundInt policy.cap) n
        (Double.roundInt policy.first_delay)) (policy.rounded_law n)
      ∧ 0 ≤ policy.rounded_law n ∧ policy.rounded_law n ≤ nearest policy.cap := by
  have hcap := RetryPolicy.cap_le hmax
  obtain ⟨hfirst, hfirstle⟩ := policy.first_delay_bounds
  obtain ⟨hmax_ms, hlarge⟩ := roundInt_isNumber policy.cap_nonneg hcap
  obtain ⟨hmultiplier, hfinite⟩ := policy.multiplier_isNumber
  have hdelay := (roundInt_isNumber hfirst (hfirstle.trans hcap)).1
  refine back_off_isNumber hmultiplier policy.growth_nonneg hfinite hmax_ms
    (Double.lt_infinityValue (by linarith)) n _ _ hdelay (Double.nearest_nonneg _) ?_
  exact Double.nearest_mono policy.first_delay_cast_bounds.1 policy.first_delay_cast_bounds.2

theorem draws_isNumber {jitter : Double} (h : policy.Draws jitter) :
    IsNumber jitter jitter.toRat ∧ 0 ≤ jitter.toRat ∧ jitter.toRat ≤ 2 := by
  obtain ⟨low, high, hlow, hhigh, hlow0, -, -, hhigh2⟩ := policy.jitter_range_bounds
  have hnan : jitter.isnan = false := by
    have hle := h.1
    rw [Double.le, Bool.and_eq_true, Bool.and_eq_true, Bool.not_eq_true'] at hle
    simpa using hle.1.2
  have hjitter : IsNumber jitter jitter.toRat := ⟨hnan, rfl⟩
  have hge := (hlow.le_iff hjitter).mp h.1
  have hle := (hjitter.le_iff hhigh).mp h.2
  exact ⟨hjitter, by linarith, by linarith⟩

/-- **The delay that is compared**, of every draw. With the jitter it is at most
about twice the cap, so it is no infinity. -/
theorem rounded_ms_isNumber (hmax : policy.max_delay ≤ int64_max) (n : ℕ) {jitter : Double}
    (hdraws : 0 < policy.spread → policy.Draws jitter) :
    IsNumber
        (if Double.lt Double.zero policy.jitter_spread then
          Double.mul (back_off_rounded policy.multiplier (Double.roundInt policy.cap) n
            (Double.roundInt policy.first_delay)) jitter
        else back_off_rounded policy.multiplier (Double.roundInt policy.cap) n
          (Double.roundInt policy.first_delay)) (policy.rounded_ms n jitter.toRat)
      ∧ policy.rounded_ms n jitter.toRat < Double.infinityValue := by
  have hcap := RetryPolicy.cap_le hmax
  have hlarge := (roundInt_isNumber policy.cap_nonneg hcap).2
  obtain ⟨hlaw, hlaw0, hlawle⟩ := rounded_law_isNumber hmax n
  have hspread := Double.isNumber_zero.lt_iff policy.jitter_spread_isNumber
  unfold rounded_ms
  by_cases h : 0 < policy.spread
  · obtain ⟨hjitter, hj0, hj2⟩ := draws_isNumber (hdraws h)
    have hle : policy.rounded_law n * jitter.toRat ≤ 2 ^ 65 * 2 :=
      mul_le_mul (hlawle.trans hlarge) hj2 hj0 (by positivity)
    have hproduct : nearest (policy.rounded_law n * jitter.toRat) < Double.infinityValue :=
      Double.lt_infinityValue (by linarith [Double.nearest_le (mul_nonneg hlaw0 hj0)])
    have hmul := hlaw.mul hjitter hlaw0 hj0 (Double.lt_infinityValue (by linarith))
      (Double.lt_infinityValue (by linarith))
    rw [min_eq_left hproduct.le] at hmul
    rw [if_pos (hspread.mpr h), if_pos h]
    exact ⟨hmul, hproduct⟩
  · rw [if_neg (mt hspread.mp h), if_neg h]
    exact ⟨hlaw, Double.lt_infinityValue (by linarith)⟩

theorem rounded_ms_nonneg (hmax : policy.max_delay ≤ int64_max) (n : ℕ) (jitter : ℚ) :
    0 ≤ policy.rounded_ms n jitter := by
  unfold rounded_ms
  split
  · exact Double.nearest_nonneg _
  · exact (rounded_law_isNumber hmax n).2.1

/-- The delay is a double. -/
theorem nearest_rounded_ms (hmax : policy.max_delay ≤ int64_max) (n : ℕ) (jitter : ℚ) :
    nearest (policy.rounded_ms n jitter) = policy.rounded_ms n jitter := by
  obtain ⟨hnumber, hnonneg, -⟩ := rounded_law_isNumber hmax n
  unfold rounded_ms
  split
  · exact Double.nearest_nearest _
  · exact hnumber.nearest_eq hnonneg

/-- No double lies between the cap and what it is rounded to, so what is below
the one is not above the other. -/
theorem rounded_delay_ms_bounds (hmax : policy.max_delay ≤ int64_max) (n : ℕ) (jitter : ℚ) :
    0 ≤ policy.rounded_delay_ms n jitter ∧ policy.rounded_delay_ms n jitter ≤ policy.cap := by
  unfold rounded_delay_ms
  split
  · exact ⟨policy.cap_nonneg, le_rfl⟩
  · next hlt =>
    refine ⟨Int.floor_nonneg.mpr (rounded_ms_nonneg hmax n jitter), ?_⟩
    have hle := Double.le_of_lt_nearest policy.cap_cast_nonneg (nearest_rounded_ms hmax n jitter)
      (not_le.mp hlt)
    exact_mod_cast (Int.floor_le _).trans hle

end RetryPolicy

theorem int64_of_double_ok {x : Double} {r : ℚ} (hx : IsNumber x r) (h0 : 0 ≤ r)
    (hfinite : r < Double.infinityValue) (hle : ⌊r⌋ ≤ int64_max) :
    int64_of_double x = .ok ⌊r⌋ := by
  have htruncate : truncate x.toRat = ⌊r⌋ := by rw [hx.value, truncate, if_pos h0]
  have hfloor := Int.floor_nonneg.mpr h0
  rw [int64_of_double, if_pos (hx.isfinite_iff.mpr (by rwa [abs_of_nonneg h0])), htruncate]
  exact Checked.signed_ok ⟨by unfold int64_max; omega, hle⟩

/-- The end of `calculate_retry_delay`: compare, then cast. -/
theorem compare_cast {max_ms delay_ms : Double} {cap : ℤ} {c ms : ℚ} (hms : IsNumber delay_ms ms)
    (h0 : 0 ≤ ms) (hfinite : ms < Double.infinityValue)
    (hle : Double.le max_ms delay_ms = true ↔ c ≤ ms) (hfits : ¬ c ≤ ms → ⌊ms⌋ ≤ int64_max) :
    (if ¬ delay_ms.isfinite ∨ Double.le max_ms delay_ms then .ok cap
      else int64_of_double delay_ms)
      = (.ok (if c ≤ ms then cap else ⌊ms⌋) : Except Checked.Fault ℤ) := by
  have hisfinite : delay_ms.isfinite = true :=
    hms.isfinite_iff.mpr (by rwa [abs_of_nonneg h0])
  by_cases h : c ≤ ms
  · rw [if_pos (Or.inr (hle.mpr h)), if_pos h]
  · rw [if_neg (by rw [not_or, not_not]; exact ⟨hisfinite, mt hle.mp h⟩), if_neg h]
    exact int64_of_double_ok hms h0 hfinite (hfits h)

/-- **The code's computation**, on what its doubles denote: nothing overflows, and
the last cast is of a number that fits. -/
theorem calculate_retry_delay_rounded_eq {policy : RetryPolicy}
    (hmax : policy.max_delay ≤ int64_max) (attempt : UInt8) {jitter : Double}
    (hdraws : 0 < policy.spread → policy.Draws jitter) :
    calculate_retry_delay_rounded attempt policy jitter
      = .ok (policy.rounded_delay_ms (attempt.toNat - 1) jitter.toRat) := by
  have hcap := RetryPolicy.cap_le hmax
  have hmax_ms := (roundInt_isNumber policy.cap_nonneg hcap).1
  obtain ⟨hdelay, hfinite⟩ := RetryPolicy.rounded_ms_isNumber hmax (attempt.toNat - 1) hdraws
  have hms0 := RetryPolicy.rounded_ms_nonneg hmax (attempt.toNat - 1) jitter.toRat
  have hbounds := RetryPolicy.rounded_delay_ms_bounds hmax (attempt.toNat - 1) jitter.toRat
  refine compare_cast hdelay hms0 hfinite (hmax_ms.le_iff hdelay) fun hlt => ?_
  rw [RetryPolicy.rounded_delay_ms, if_neg hlt] at hbounds
  exact hbounds.2.trans hcap

/-! ## How far the doubles are from the law -/

/-- `x` is `y` after `k` roundings, each off by a factor and by `η`, which doubles
from one to the next. -/
structure Near (η : ℚ) (k : ℕ) (x y : ℚ) : Prop where
  low : y * (1 - 1 / 2 ^ 53) ^ k - (2 ^ k - 1) * η ≤ x
  high : x ≤ y * (1 + 1 / 2 ^ 53) ^ k + (2 ^ k - 1) * η

namespace Near

variable {η x y : ℚ} {k : ℕ}

theorem slack_nonneg (hη : 0 ≤ η) (k : ℕ) : 0 ≤ (2 ^ k - 1) * η :=
  mul_nonneg (sub_nonneg.mpr (one_le_pow₀ one_le_two)) hη

theorem slack_succ (η : ℚ) (k : ℕ) : (2 ^ (k + 1) - 1) * η = 2 * ((2 ^ k - 1) * η) + η := by
  rw [pow_succ]
  ring

theorem refl (η y : ℚ) : Near η 0 y y := by
  constructor <;> rw [pow_zero, pow_zero, sub_self, zero_mul, mul_one]
  · rw [sub_zero]
  · rw [add_zero]

/-- One more rounding. -/
theorem round (h : Near η k x y) (hη : 0 ≤ η) (herror : |nearest x - x| ≤ x / 2 ^ 53 + η) :
    Near η (k + 1) (nearest x) y := by
  obtain ⟨hlow, hhigh⟩ := abs_le.mp herror
  have hslack := slack_nonneg hη k
  constructor
  · have hstep := mul_le_mul_of_nonneg_right h.low (by norm_num : (0 : ℚ) ≤ 1 - 1 / 2 ^ 53)
    rw [sub_mul, mul_assoc, ← pow_succ] at hstep
    rw [slack_succ]
    linarith
  · have hstep := mul_le_mul_of_nonneg_right h.high (by norm_num : (0 : ℚ) ≤ 1 + 1 / 2 ^ 53)
    rw [add_mul, mul_assoc, ← pow_succ] at hstep
    rw [slack_succ]
    linarith

theorem mul {m : ℚ} (h : Near η k x y) (hη : 0 ≤ η) (hm : 0 ≤ m) (hone : η = 0 ∨ m ≤ 1) :
    Near η k (x * m) (y * m) := by
  have hslack := slack_nonneg hη k
  have hshrink : (2 ^ k - 1) * η * m ≤ (2 ^ k - 1) * η := by
    rcases hone with rfl | hone
    · rw [mul_zero, zero_mul]
    · exact mul_le_of_le_one_right hslack hone
  have hlow := mul_le_mul_of_nonneg_right h.low hm
  have hhigh := mul_le_mul_of_nonneg_right h.high hm
  rw [sub_mul, mul_right_comm] at hlow
  rw [add_mul, mul_right_comm] at hhigh
  exact ⟨by linarith, by linarith⟩

theorem min {c d : ℚ} (h : Near η k x y) (hc : Near η k c d) :
    Near η k (Min.min x c) (Min.min y d) := by
  have hp : (0 : ℚ) ≤ (1 - 1 / 2 ^ 53) ^ k := pow_nonneg (by norm_num) k
  constructor
  · have hy := mul_le_mul_of_nonneg_right (min_le_left y d) hp
    have hd := mul_le_mul_of_nonneg_right (min_le_right y d) hp
    exact le_min (by linarith [h.low]) (by linarith [hc.low])
  · rcases min_cases y d with ⟨heq, -⟩ | ⟨heq, -⟩ <;> rw [heq]
    · exact (min_le_left x c).trans h.high
    · exact (min_le_right x c).trans hc.high

theorem mono {η' : ℚ} {k' : ℕ} (h : Near η k x y) (hη : 0 ≤ η) (hle : η ≤ η') (hk : k ≤ k')
    (hy : 0 ≤ y) : Near η' k' x y := by
  have hcount : (2 : ℚ) ^ k - 1 ≤ 2 ^ k' - 1 :=
    sub_le_sub_right (pow_le_pow_right₀ one_le_two hk) 1
  have hslack : (2 ^ k - 1) * η ≤ (2 ^ k' - 1) * η' :=
    mul_le_mul hcount hle hη (sub_nonneg.mpr (one_le_pow₀ one_le_two))
  have hdown : y * (1 - 1 / 2 ^ 53) ^ k' ≤ y * (1 - 1 / 2 ^ 53) ^ k :=
    mul_le_mul_of_nonneg_left (pow_le_pow_of_le_one (by norm_num) (by norm_num) hk) hy
  have hup : y * (1 + 1 / 2 ^ 53) ^ k ≤ y * (1 + 1 / 2 ^ 53) ^ k' :=
    mul_le_mul_of_nonneg_left (pow_le_pow_right₀ (by norm_num) hk) hy
  exact ⟨by linarith [h.low], by linarith [h.high]⟩

/-- A factor of at most two costs one step of the slack. -/
theorem scale {j : ℚ} (h : Near η k x y) (hη : 0 ≤ η) (hy : 0 ≤ y) (hj0 : 0 ≤ j) (hj2 : j ≤ 2) :
    Near η (k + 1) (x * j) (y * j) := by
  have hslack : (2 ^ k - 1) * η * j ≤ (2 ^ (k + 1) - 1) * η := by
    rw [slack_succ, mul_comm]
    have := mul_le_mul_of_nonneg_right hj2 (slack_nonneg hη k)
    linarith
  have hyj : 0 ≤ y * j := mul_nonneg hy hj0
  have hdown : y * j * (1 - 1 / 2 ^ 53) ^ (k + 1) ≤ y * j * (1 - 1 / 2 ^ 53) ^ k :=
    mul_le_mul_of_nonneg_left (pow_le_pow_of_le_one (by norm_num) (by norm_num) k.le_succ) hyj
  have hup : y * j * (1 + 1 / 2 ^ 53) ^ k ≤ y * j * (1 + 1 / 2 ^ 53) ^ (k + 1) :=
    mul_le_mul_of_nonneg_left (pow_le_pow_right₀ (by norm_num) k.le_succ) hyj
  have hlow := mul_le_mul_of_nonneg_right h.low hj0
  have hhigh := mul_le_mul_of_nonneg_right h.high hj0
  rw [sub_mul, mul_right_comm] at hlow
  rw [add_mul, mul_right_comm] at hhigh
  exact ⟨by linarith, by linarith⟩

end Near

/-- A whole number is rounded by a factor only. -/
theorem near_nearest_intCast {n : ℤ} (h : 0 ≤ n) : Near 0 1 (nearest n) n := by
  refine (Near.refl 0 (n : ℚ)).round le_rfl ?_
  rw [add_zero]
  rcases h.lt_or_eq with hpos | rfl
  · exact Double.nearest_error_of_one_le (by exact_mod_cast hpos)
  · rw [Int.cast_zero, Double.nearest_zero, sub_zero, abs_zero, zero_div]

/-- **The loop stays near**, by induction on its steps, where `P` keeps the
rounding errors within what `Near` allows. -/
theorem back_off_near {η m c cap : ℚ} {P : ℚ → Prop} (hη : 0 ≤ η) (hm : 0 ≤ m)
    (hone : η = 0 ∨ m ≤ 1) (hcap : 0 ≤ cap) (hc : Near η 1 c cap)
    (herror : ∀ x, P x → |nearest (x * m) - x * m| ≤ x * m / 2 ^ 53 + η)
    (hkeep : ∀ x, P x → P (min (nearest (x * m)) c)) (n : ℕ) :
    ∀ k x y, P x → Near η (k + 1) x y →
      Near η (k + 1 + n) (back_off_nearest m c n x) (back_off m cap n y) := by
  induction n with
  | zero => exact fun k x y _ h => h
  | succ n ih =>
    intro k x y hx h
    have hround := (h.mul hη hm hone).round hη (herror x hx)
    have hstep := hround.min (hc.mono hη le_rfl (by omega) hcap)
    have hrest := ih (k + 1) _ _ (hkeep x hx) hstep
    rwa [show k + 1 + 1 + n = k + 1 + (n + 1) by omega] at hrest

namespace RetryPolicy

variable {policy : RetryPolicy}

/-- The law, as the loop computes it exactly. -/
theorem law_eq_back_off (policy : RetryPolicy) (n : ℕ) :
    policy.law n = back_off policy.growth policy.cap n policy.first_delay := by
  obtain ⟨h0, hle⟩ := policy.first_delay_cast_bounds
  exact (back_off_eq policy.growth_nonneg n _ h0 hle).symm

/-- Zero, or at least one. -/
def ZeroOrMore (x : ℚ) : Prop := x = 0 ∨ 1 ≤ x

theorem zeroOrMore_nearest_intCast {n : ℤ} (h : 0 ≤ n) : ZeroOrMore (nearest n) := by
  rcases h.lt_or_eq with hpos | rfl
  · exact Or.inr (Double.one_le_nearest (by exact_mod_cast hpos))
  · exact Or.inl (by rw [Int.cast_zero, Double.nearest_zero])

/-- **The delay before jitter**, near the law. A multiplier of at most one never
adds to the slack of the subnormal numbers, and a greater one never meets them. -/
theorem rounded_law_near (policy : RetryPolicy) (n : ℕ) :
    Near Double.halfUnit (n + 1) (policy.rounded_law n) (policy.law n) := by
  have hcap := near_nearest_intCast policy.cap_nonneg
  have hfirst := near_nearest_intCast policy.first_delay_bounds.1
  have hcap0 := policy.cap_cast_nonneg
  have hfirst0 := policy.first_delay_cast_bounds.1
  have hunit := Double.halfUnit_pos.le
  rw [law_eq_back_off, rounded_law, show n + 1 = 0 + 1 + n by omega]
  by_cases hsmall : policy.growth ≤ 1
  · refine back_off_near (P := fun x => 0 ≤ x) hunit policy.growth_nonneg (Or.inr hsmall) hcap0
      (hcap.mono le_rfl hunit le_rfl hcap0) (fun x hx => ?_) (fun x hx => ?_) n 0 _ _
      (Double.nearest_nonneg _) (hfirst.mono le_rfl hunit le_rfl hfirst0)
    · exact Double.nearest_error_add (mul_nonneg hx policy.growth_nonneg)
    · exact le_min (Double.nearest_nonneg _) (Double.nearest_nonneg _)
  · have hlarge := (not_le.mp hsmall).le
    have hloop := back_off_near (P := ZeroOrMore) le_rfl policy.growth_nonneg (Or.inl rfl) hcap0
      hcap (fun x hx => ?_) (fun x hx => ?_) n 0 _ _
      (zeroOrMore_nearest_intCast policy.first_delay_bounds.1) hfirst
    · refine hloop.mono le_rfl hunit le_rfl ?_
      rw [← law_eq_back_off]
      exact (policy.law_bounds n).1
    · rw [add_zero]
      rcases hx with rfl | hx
      · rw [zero_mul, Double.nearest_zero, sub_zero, abs_zero, zero_div]
      · exact Double.nearest_error_of_one_le (one_le_mul_of_one_le_of_one_le hx hlarge)
    · -- both the product and the cap are zero or at least one
      have hproduct : ZeroOrMore (nearest (x * policy.growth)) := by
        rcases hx with rfl | hx
        · exact Or.inl (by rw [zero_mul, Double.nearest_zero])
        · exact Or.inr (Double.one_le_nearest (one_le_mul_of_one_le_of_one_le hx hlarge))
      rcases min_cases (nearest (x * policy.growth)) (nearest (policy.cap : ℚ)) with
        ⟨heq, -⟩ | ⟨heq, -⟩ <;> rw [heq]
      · exact hproduct
      · exact zeroOrMore_nearest_intCast policy.cap_nonneg

/-- The delay that is compared, against the one the law compares. -/
theorem rounded_ms_near (hmax : policy.max_delay ≤ int64_max) (n : ℕ) {jitter : ℚ}
    (hjitter : 0 < policy.spread → 0 ≤ jitter ∧ jitter ≤ 2) :
    Near Double.halfUnit (n + 3) (policy.rounded_ms n jitter)
      (if 0 < policy.spread then policy.law n * jitter else policy.law n) := by
  have hlaw := (policy.law_bounds n).1
  have hunit := Double.halfUnit_pos.le
  have hnear := policy.rounded_law_near n
  unfold rounded_ms
  split
  · next h =>
    obtain ⟨h0, h2⟩ := hjitter h
    have hproduct := mul_nonneg (rounded_law_isNumber hmax n).2.1 h0
    exact (hnear.scale hunit hlaw h0 h2).round hunit (Double.nearest_error_add hproduct)
  · exact hnear.mono hunit le_rfl (by omega) hlaw

end RetryPolicy

/-! ## One delay -/

/-- 257 roundings are off by less than 258 times one. -/
theorem Near.abs_sub_le {x y : ℚ} {k : ℕ} (h : Near Double.halfUnit k x y) (hk : k ≤ 257)
    (hy : 0 ≤ y) : |x - y| ≤ (258 * y + 1) / 2 ^ 53 := by
  have hslack : (2 ^ k - 1) * Double.halfUnit ≤ 1 / 2 ^ 53 := by
    have hunit := Double.halfUnit_le (n := k) (by omega)
    have := Double.halfUnit_pos
    linarith
  have hk' : (k : ℚ) ≤ 257 := by exact_mod_cast hk
  have hdown : 1 - 257 / 2 ^ 53 ≤ (1 - 1 / 2 ^ 53 : ℚ) ^ k := by
    have hbernoulli := one_add_mul_le_pow (by norm_num : (-2 : ℚ) ≤ -(1 / 2 ^ 53)) k
    rw [← sub_eq_add_neg] at hbernoulli
    linarith
  have hup : (1 + 1 / 2 ^ 53 : ℚ) ^ k ≤ 1 + 258 / 2 ^ 53 := by
    -- the two powers multiply to less than one
    have hproduct : (1 + 1 / 2 ^ 53 : ℚ) ^ k * (1 - 1 / 2 ^ 53) ^ k ≤ 1 := by
      rw [← mul_pow]
      exact pow_le_one₀ (by norm_num) (by norm_num)
    have hpos : (0 : ℚ) ≤ (1 + 1 / 2 ^ 53) ^ k := pow_nonneg (by norm_num) k
    have hle := (mul_le_mul_of_nonneg_left hdown hpos).trans hproduct
    refine le_of_mul_le_mul_right (hle.trans ?_) (by norm_num : (0 : ℚ) < 1 - 257 / 2 ^ 53)
    norm_num
  have hlow := mul_le_mul_of_nonneg_left hdown hy
  have hhigh := mul_le_mul_of_nonneg_left hup hy
  refine abs_le.mpr ⟨?_, ?_⟩
  · linarith [h.low]
  · linarith [h.high]

/-- What is near before the comparison is near after it. -/
theorem near_delay {cap : ℤ} {x y : ℚ} {k : ℕ} (h : Near Double.halfUnit k x y) (hk : k ≤ 257)
    (hcap : 0 ≤ cap) (hx : 0 ≤ x) (hy : 0 ≤ y) :
    |((if nearest cap ≤ x then cap else ⌊x⌋ : ℤ) : ℚ)
        - (if (cap : ℚ) ≤ y then cap else ⌊y⌋ : ℤ)| < 1 + cap / 2 ^ 44 := by
  rcases hcap.lt_or_eq with hpos | rfl
  · have hone : (1 : ℚ) ≤ cap := by exact_mod_cast hpos
    obtain ⟨hlow, hhigh⟩ := abs_le.mp (h.abs_sub_le hk hy)
    obtain ⟨hcaplow, hcaphigh⟩ := abs_le.mp (Double.nearest_error_of_one_le hone)
    have hxfloor := Int.lt_floor_add_one x
    have hxfloor' := Int.floor_le x
    have hyfloor := Int.lt_floor_add_one y
    have hyfloor' := Int.floor_le y
    by_cases hxcap : nearest (cap : ℚ) ≤ x <;> by_cases hycap : (cap : ℚ) ≤ y
    · rw [if_pos hxcap, if_pos hycap, sub_self, abs_zero]
      linarith
    · rw [if_pos hxcap, if_neg hycap, abs_lt]
      rw [not_le] at hycap
      constructor <;> linarith
    · rw [if_neg hxcap, if_pos hycap, abs_lt]
      rw [not_le] at hxcap
      constructor <;> linarith
    · rw [if_neg hxcap, if_neg hycap, abs_lt]
      rw [not_le] at hxcap hycap
      constructor <;> linarith
  -- without a cap no time at all is waited
  · rw [Int.cast_zero, Double.nearest_zero, if_pos hx, if_pos hy, sub_self, abs_zero]
    norm_num

/-- **A delay in doubles.** For every policy, every attempt and every draw the
interval of the draws is in order, the last cast is of a number that fits, and
the delay is between zero and the cap. It is off the law by one millisecond, and
by one part in `2 ^ 44` of the cap, so with a cap of five centuries by one
millisecond at most. -/
theorem rounded_delay (policy : RetryPolicy) (hmax : policy.max_delay ≤ int64_max)
    (attempt : UInt8) (jitter : Double) (hdraws : 0 < policy.spread → policy.Draws jitter) :
    Double.le policy.jitter_range.1 policy.jitter_range.2 = true
      ∧ ∃ delay, calculate_retry_delay_rounded attempt policy jitter = .ok delay
        ∧ 0 ≤ delay ∧ delay ≤ policy.cap
        ∧ |(delay : ℚ) - calculate_retry_delay attempt policy jitter.toRat|
            < 1 + policy.cap / 2 ^ 44
        ∧ (policy.cap ≤ 2 ^ 44 →
            |delay - calculate_retry_delay attempt policy jitter.toRat| ≤ 1) := by
  obtain ⟨low, high, hlow, hhigh, -, hlow1, hhigh1, -⟩ := policy.jitter_range_bounds
  obtain ⟨h0, hle⟩ :=
    RetryPolicy.rounded_delay_ms_bounds hmax (attempt.toNat - 1) jitter.toRat
  have hattempt := attempt.toNat_lt
  have hbetween : 0 < policy.spread → 0 ≤ jitter.toRat ∧ jitter.toRat ≤ 2 :=
    fun h => (RetryPolicy.draws_isNumber (hdraws h)).2
  have hnear := RetryPolicy.rounded_ms_near hmax (attempt.toNat - 1) hbetween
  have hlaw0 : 0 ≤ (if 0 < policy.spread then policy.law (attempt.toNat - 1) * jitter.toRat
      else policy.law (attempt.toNat - 1)) := by
    split
    · next h => exact mul_nonneg (policy.law_bounds _).1 (hbetween h).1
    · exact (policy.law_bounds _).1
  have hdistance := near_delay hnear (by omega) policy.cap_nonneg
    (RetryPolicy.rounded_ms_nonneg hmax _ _) hlaw0
  have hexact : calculate_retry_delay attempt policy jitter.toRat = _ :=
    calculate_retry_delay_eq attempt policy jitter.toRat
  rw [truncate, if_pos hlaw0] at hexact
  rw [← hexact] at hdistance
  refine ⟨(hlow.le_iff hhigh).mpr (hlow1.trans hhigh1), _,
    calculate_retry_delay_rounded_eq hmax attempt hdraws, h0, hle, hdistance, fun hcap => ?_⟩
  have hcap' : (policy.cap : ℚ) / 2 ^ 44 ≤ 1 := by
    rw [div_le_one₀ (by positivity)]
    exact_mod_cast hcap
  have hstrict : |(policy.rounded_delay_ms (attempt.toNat - 1) jitter.toRat : ℚ)
      - calculate_retry_delay attempt policy jitter.toRat| < 2 :=
    lt_of_lt_of_le hdistance (by linarith)
  have hint : |policy.rounded_delay_ms (attempt.toNat - 1) jitter.toRat
      - calculate_retry_delay attempt policy jitter.toRat| < 2 := by
    exact_mod_cast hstrict
  omega

/-- A draw of 0.95: the law's 1899 milliseconds and a fraction are rounded up to
1900, so the millisecond cannot be spared. -/
theorem rounded_delay_default :
    calculate_retry_delay_rounded 3 {} ⟨0x3FEE666666666666⟩ = .ok 1900
      ∧ calculate_retry_delay 3 {} (Double.toRat ⟨0x3FEE666666666666⟩) = 1899
      ∧ ∃ delay, calculate_retry_delay_rounded 3 {} ⟨0x3FEE666666666666⟩ = .ok delay
        ∧ |delay - calculate_retry_delay 3 {} (Double.toRat ⟨0x3FEE666666666666⟩)| ≤ 1 := by
  refine ⟨by decide +kernel, by decide +kernel, ?_⟩
  obtain ⟨-, delay, hdelay, -, -, -, hone⟩ := rounded_delay {} (by decide) 3 ⟨0x3FEE666666666666⟩
    fun _ => ⟨by decide +kernel, by decide +kernel⟩
  exact ⟨delay, hdelay, hone (by decide)⟩

/-! ## Without jitter -/

/-- The loop keeps the order of the delays it starts from. -/
theorem back_off_nearest_mono {m c : ℚ} (hm : 0 ≤ m) (hc : 0 ≤ c) (n : ℕ) :
    ∀ x y, 0 ≤ x → x ≤ y → back_off_nearest m c n x ≤ back_off_nearest m c n y := by
  induction n with
  | zero => exact fun x y _ hle => hle
  | succ n ih =>
    intro x y hx hle
    refine ih _ _ (le_min (Double.nearest_nonneg _) hc) (min_le_min_right c ?_)
    exact Double.nearest_mono (mul_nonneg hx hm) (mul_le_mul_of_nonneg_right hle hm)

/-- **Rounded delays do not shrink**: a double times at least one is not rounded
to less than itself. -/
theorem RetryPolicy.rounded_law_mono {policy : RetryPolicy} (hgrowth : 1 ≤ policy.growth) :
    Monotone policy.rounded_law := by
  obtain ⟨hfirst, hle⟩ := policy.first_delay_cast_bounds
  have hdelay := Double.nearest_nonneg (policy.first_delay : ℚ)
  refine monotone_nat_of_le_succ fun n => ?_
  refine back_off_nearest_mono policy.growth_nonneg (Double.nearest_nonneg _) n _ _ hdelay
    (le_min ?_ (Double.nearest_mono hfirst hle))
  have hmore := Double.nearest_mono hdelay (le_mul_of_one_le_right hdelay hgrowth)
  rwa [Double.nearest_nearest] at hmore

/-- **Whole delays are exact**, by induction on the steps: a product above the
cap may be rounded, but not to below the cap. -/
theorem back_off_nearest_whole {g cap : ℕ} (hcap : cap < 2 ^ 53) (n : ℕ) :
    ∀ x : ℕ, x ≤ cap → back_off_nearest g cap n x = back_off g cap n x := by
  induction n with
  | zero => exact fun x _ => rfl
  | succ n ih =>
    intro x hx
    have hexact : min (nearest ((x : ℚ) * g)) cap = ((min (x * g) cap : ℕ) : ℚ) := by
      rw [← Nat.cast_mul]
      rcases le_total (x * g) cap with hle | hle
      · rw [min_eq_left hle, Double.nearest_natCast (hle.trans_lt hcap),
          min_eq_left (Nat.cast_le.mpr hle)]
      · have hcast : (cap : ℚ) ≤ (x * g : ℕ) := Nat.cast_le.mpr hle
        have hmore := Double.nearest_mono (Nat.cast_nonneg cap) hcast
        rw [Double.nearest_natCast hcap] at hmore
        rw [min_eq_right hle, min_eq_right hmore]
    have hstep : min ((x : ℚ) * g) cap = ((min (x * g) cap : ℕ) : ℚ) := by
      rw [Nat.cast_min, Nat.cast_mul]
    rw [back_off_nearest, back_off, hexact, hstep]
    exact ih _ (min_le_right _ _)

theorem RetryPolicy.rounded_law_whole {policy : RetryPolicy} {g : ℕ} (hgrowth : policy.growth = g)
    (hcap : policy.cap < 2 ^ 53) (n : ℕ) :
    nearest policy.cap = policy.cap ∧ policy.rounded_law n = policy.law n := by
  obtain ⟨c, hc⟩ := Int.eq_ofNat_of_zero_le policy.cap_nonneg
  obtain ⟨d, hd⟩ := Int.eq_ofNat_of_zero_le policy.first_delay_bounds.1
  have hle := policy.first_delay_bounds.2
  have hwhole : nearest c = c := Double.nearest_natCast (by omega)
  have hfirst : nearest d = d := Double.nearest_natCast (by omega)
  rw [RetryPolicy.law_eq_back_off, RetryPolicy.rounded_law, hgrowth, hc, hd,
    Int.cast_natCast, Int.cast_natCast, hwhole, hfirst]
  exact ⟨rfl, back_off_nearest_whole (by omega) n d (by omega)⟩

/-- **Delays in doubles without jitter.** From one attempt to the next they do not
shrink where the multiplier is at least one, and where it is a whole number and
the cap below `2 ^ 53` milliseconds they are those of the law. -/
theorem rounded_delays_without_jitter (policy : RetryPolicy)
    (hmax : policy.max_delay ≤ int64_max) (hspread : policy.spread = 0) :
    (1 ≤ policy.growth → ∀ (attempt later : UInt8) (jitter jitter' : Double), attempt ≤ later →
        ∃ delay delay', calculate_retry_delay_rounded attempt policy jitter = .ok delay
          ∧ calculate_retry_delay_rounded later policy jitter' = .ok delay' ∧ delay ≤ delay')
      ∧ ∀ g : ℕ, policy.growth = g → policy.cap < 2 ^ 53 →
          ∀ (attempt : UInt8) (jitter : Double),
            calculate_retry_delay_rounded attempt policy jitter
              = .ok (calculate_retry_delay attempt policy jitter.toRat) := by
  have hno : ¬ 0 < policy.spread := by
    rw [hspread]
    exact lt_irrefl 0
  have hms : ∀ n jitter, policy.rounded_ms n jitter = policy.rounded_law n :=
    fun n jitter => if_neg hno
  have hcode : ∀ (attempt : UInt8) (jitter : Double),
      calculate_retry_delay_rounded attempt policy jitter
        = .ok (policy.rounded_delay_ms (attempt.toNat - 1) jitter.toRat) :=
    fun attempt jitter => calculate_retry_delay_rounded_eq hmax attempt fun h => absurd h hno
  refine ⟨fun hgrowth attempt later jitter jitter' hle => ?_,
    fun g hgrowth hcap attempt jitter => ?_⟩
  · have hattempt := UInt8.le_iff_toNat_le.mp hle
    have hlaw := RetryPolicy.rounded_law_mono hgrowth
      (show attempt.toNat - 1 ≤ later.toNat - 1 by omega)
    refine ⟨_, _, hcode attempt jitter, hcode later jitter', ?_⟩
    have hbound :=
      (RetryPolicy.rounded_delay_ms_bounds hmax (attempt.toNat - 1) jitter.toRat).2
    unfold RetryPolicy.rounded_delay_ms at hbound ⊢
    rw [hms] at hbound ⊢
    rw [hms]
    by_cases hreached : nearest (policy.cap : ℚ) ≤ policy.rounded_law (later.toNat - 1)
    · rw [if_pos hreached]
      exact hbound
    · rw [if_neg hreached, if_neg fun h => hreached (h.trans hlaw)]
      exact Int.floor_le_floor hlaw
  · obtain ⟨hwhole, hlaw⟩ := RetryPolicy.rounded_law_whole hgrowth hcap (attempt.toNat - 1)
    rw [hcode, calculate_retry_delay_eq, if_neg hno, RetryPolicy.rounded_delay_ms, hms, hwhole,
      hlaw, truncate, if_pos (policy.law_bounds _).1]

theorem rounded_delays_without_jitter_doubled :
    calculate_retry_delay_rounded 6 { jitter_factor := Double.zero } Double.zero
        = .ok (calculate_retry_delay 6 { jitter_factor := Double.zero } Double.zero.toRat)
      ∧ calculate_retry_delay 6 { jitter_factor := Double.zero } Double.zero.toRat = 16000 :=
  ⟨(rounded_delays_without_jitter { jitter_factor := Double.zero } (by decide)
      (by decide +kernel)).2 2 (by decide +kernel) (by decide +kernel) 6 Double.zero,
    by decide +kernel⟩

end OpenMeteo
