/-
The delays between attempts follow the capped exponential law.

The loop of `calculate_retry_delay` caps after every multiplication.
`back_off_eq` says that capping once, at the end, is the same: once a delay has
reached the cap with a multiplier above one it stays there, and with a
multiplier of at most one it never reaches it. Everything else about a delay is
read off the closed form.
-/
import Mathlib.Algebra.Order.Ring.Pow
import Mathlib.Tactic.Linarith
import Mathlib.Tactic.Ring
import OpenMeteo.RetryBounded

set_option autoImplicit false

namespace OpenMeteo

/-! ## The settings the law reads -/

namespace RetryPolicy

/-- The longest delay, `M`. -/
def cap (policy : RetryPolicy) : ℤ := max policy.max_delay 0

/-- The first delay, `d0`. -/
def first_delay (policy : RetryPolicy) : ℤ := max 0 (min policy.initial_delay policy.cap)

/-- The factor from one delay to the next, `m`. -/
def growth (policy : RetryPolicy) : ℚ :=
  if policy.backoff_multiplier.isfinite then max policy.backoff_multiplier.toRat 0 else 1

/-- The width of the jitter, `s`. -/
def spread (policy : RetryPolicy) : ℚ :=
  if policy.jitter_factor.isfinite then max 0 (min policy.jitter_factor.toRat 1) else 0

variable (policy : RetryPolicy)

theorem cap_nonneg : 0 ≤ policy.cap := le_max_right _ _

theorem first_delay_bounds : 0 ≤ policy.first_delay ∧ policy.first_delay ≤ policy.cap :=
  ⟨le_max_left _ _, max_le policy.cap_nonneg (min_le_right _ _)⟩

theorem growth_nonneg : 0 ≤ policy.growth := by
  unfold growth
  split
  · exact le_max_right _ _
  · norm_num

theorem spread_bounds : 0 ≤ policy.spread ∧ policy.spread ≤ 1 := by
  unfold spread
  split
  · exact ⟨le_max_left _ _, max_le (by norm_num) (min_le_right _ _)⟩
  · exact ⟨le_refl _, by norm_num⟩

/-- The delay before jitter: exponential, and capped. -/
def law (n : ℕ) : ℚ := min (policy.cap : ℚ) (policy.first_delay * policy.growth ^ n)

theorem law_bounds (n : ℕ) : 0 ≤ policy.law n ∧ policy.law n ≤ policy.cap := by
  have hfirst : (0 : ℚ) ≤ policy.first_delay := by exact_mod_cast policy.first_delay_bounds.1
  refine ⟨le_min (by exact_mod_cast policy.cap_nonneg) ?_, min_le_left _ _⟩
  exact mul_nonneg hfirst (pow_nonneg policy.growth_nonneg n)

theorem law_mono (hgrowth : 1 ≤ policy.growth) {n k : ℕ} (hle : n ≤ k) :
    policy.law n ≤ policy.law k := by
  have hfirst : (0 : ℚ) ≤ policy.first_delay := by exact_mod_cast policy.first_delay_bounds.1
  exact min_le_min_left _ (mul_le_mul_of_nonneg_left (pow_le_pow_right₀ hgrowth hle) hfirst)

end RetryPolicy

/-! ## One delay -/

/-- **Capping after every step is capping once**, by induction on the steps. -/
theorem back_off_eq {multiplier max_ms : ℚ} (hmultiplier : 0 ≤ multiplier) (n : ℕ) :
    ∀ delay_ms, 0 ≤ delay_ms → delay_ms ≤ max_ms →
      back_off multiplier max_ms n delay_ms = min max_ms (delay_ms * multiplier ^ n) := by
  induction n with
  | zero =>
    intro delay_ms _ hle
    rw [back_off, pow_zero, mul_one, min_eq_right hle]
  | succ n ih =>
    intro delay_ms h0 hle
    have hstep : 0 ≤ delay_ms * multiplier := mul_nonneg h0 hmultiplier
    rw [back_off, ih _ (le_min hstep (le_trans h0 hle)) (min_le_right _ _), pow_succ' multiplier n,
      ← mul_assoc]
    by_cases hover : delay_ms * multiplier ≤ max_ms
    · rw [min_eq_left hover]
    · -- the cap is reached, so the multiplier is above one and the delay stays there
      rw [not_le] at hover
      have hone : 1 ≤ multiplier := by
        by_contra hsmall
        have : delay_ms * multiplier ≤ delay_ms * 1 :=
          mul_le_mul_of_nonneg_left (le_of_lt (not_le.mp hsmall)) h0
        linarith
      have hcap : 0 ≤ max_ms := le_trans h0 hle
      have hstay : max_ms * 1 ≤ max_ms * multiplier ^ n :=
        mul_le_mul_of_nonneg_left (one_le_pow₀ hone) hcap
      have hmore : max_ms * multiplier ^ n ≤ delay_ms * multiplier * multiplier ^ n :=
        mul_le_mul_of_nonneg_right (le_of_lt hover) (pow_nonneg hmultiplier n)
      rw [min_eq_right (le_of_lt hover), min_eq_left (by linarith), min_eq_left (by linarith)]

/-- The end of `calculate_retry_delay`: compare, then truncate. -/
theorem compare_truncate {cap : ℤ} {delay : ℚ} (h0 : 0 ≤ delay) :
    (if (cap : ℚ) ≤ delay then cap else truncate delay) = ⌊min (cap : ℚ) delay⌋ := by
  by_cases hle : (cap : ℚ) ≤ delay
  · rw [if_pos hle, min_eq_left hle, Int.floor_intCast]
  · rw [if_neg hle, min_eq_right (le_of_lt (not_le.mp hle)), truncate, if_pos h0]

/-- `calculate_retry_delay`, in the settings of the law. -/
theorem calculate_retry_delay_eq (attempt : UInt8) (policy : RetryPolicy) (jitter : ℚ) :
    calculate_retry_delay attempt policy jitter
      = if (policy.cap : ℚ) ≤
          (if 0 < policy.spread then policy.law (attempt.toNat - 1) * jitter
            else policy.law (attempt.toNat - 1))
        then policy.cap
        else truncate (if 0 < policy.spread then policy.law (attempt.toNat - 1) * jitter
          else policy.law (attempt.toNat - 1)) := by
  have hfirst := policy.first_delay_bounds
  rw [RetryPolicy.law, ← back_off_eq policy.growth_nonneg _ (policy.first_delay : ℚ)
    (by exact_mod_cast hfirst.1) (by exact_mod_cast hfirst.2)]
  rfl

/-- Without spread nothing is drawn. -/
theorem calculate_retry_delay_no_spread (policy : RetryPolicy) (hspread : ¬ 0 < policy.spread)
    (attempt : UInt8) (jitter : ℚ) :
    calculate_retry_delay attempt policy jitter
      = ⌊min (policy.cap : ℚ) (policy.law (attempt.toNat - 1))⌋ := by
  rw [calculate_retry_delay_eq, if_neg hspread]
  exact compare_truncate (policy.law_bounds _).1

/-- **The law**, for every draw of the jitter. -/
theorem calculate_retry_delay_law (policy : RetryPolicy) (attempt : UInt8) {jitter : ℚ}
    (hlow : 1 - policy.spread ≤ jitter) (hhigh : jitter ≤ 1 + policy.spread) :
    calculate_retry_delay attempt policy jitter
      = ⌊min (policy.cap : ℚ) (jitter * policy.law (attempt.toNat - 1))⌋ := by
  obtain ⟨hs0, hs1⟩ := policy.spread_bounds
  have hlaw := (policy.law_bounds (attempt.toNat - 1)).1
  have hjitter : 0 ≤ jitter := by linarith
  by_cases hspread : 0 < policy.spread
  · rw [calculate_retry_delay_eq, if_pos hspread, mul_comm]
    exact compare_truncate (mul_nonneg hjitter hlaw)
  · -- the only draw there could be is one
    have hone : jitter = 1 := by linarith
    rw [calculate_retry_delay_no_spread policy hspread, hone, one_mul]

/-- No delay is longer than the cap, whatever the generator yields. -/
theorem calculate_retry_delay_le (policy : RetryPolicy) (attempt : UInt8) (jitter : ℚ) :
    calculate_retry_delay attempt policy jitter ≤ policy.cap := by
  rw [calculate_retry_delay_eq]
  generalize (if 0 < policy.spread then policy.law (attempt.toNat - 1) * jitter
    else policy.law (attempt.toNat - 1)) = delay
  by_cases hle : (policy.cap : ℚ) ≤ delay
  · rw [if_pos hle]
  · rw [if_neg hle, truncate]
    rw [not_le] at hle
    split
    · exact_mod_cast le_trans (Int.floor_le delay) (le_of_lt hle)
    · next hneg =>
      have : ⌈delay⌉ ≤ 0 := Int.ceil_le.mpr (by exact_mod_cast le_of_lt (not_le.mp hneg))
      exact le_trans this policy.cap_nonneg

/-! ## All the delays of a call -/

variable {σ : Type}

/-- The same port, in a world that adds up the time it is asked to sleep. -/
def RetryPort.metered (port : RetryPort σ) : RetryPort (σ × ℤ) where
  operation := fun w => ((port.operation w.1).1, ((port.operation w.1).2, w.2))
  sleep_for := fun delay w =>
    ((port.sleep_for delay w.1).1, ((port.sleep_for delay w.1).2, w.2 + delay))
  jitter := fun w => ((port.jitter w.1).1, ((port.jitter w.1).2, w.2))

/-- Adding up changes nothing. -/
theorem metered_mirrors (port : RetryPort σ) : port.metered.Mirrors port :=
  ⟨fun _ => ⟨rfl, rfl⟩, fun _ _ => ⟨rfl, rfl⟩, fun _ => ⟨rfl, rfl⟩⟩

/-- From its `attempt`-th call on the loop sleeps at most once for each attempt
that remains, and never longer than the cap, by induction on the fuel. -/
theorem with_retry_loop_total (port : RetryPort σ) (policy : RetryPolicy) (fuel : ℕ) :
    ∀ attempt w, (with_retry_loop port.metered policy fuel attempt).Ensures w fun _ w' =>
      w'.2 ≤ w.2 + (policy.max_attempts.toNat - attempt.toNat : ℕ) * policy.cap := by
  have hcap := policy.cap_nonneg
  have hnone : ∀ (attempt : UInt8) (total : ℤ),
      total ≤ total + (policy.max_attempts.toNat - attempt.toNat : ℕ) * policy.cap :=
    fun attempt total => le_add_of_nonneg_right (mul_nonneg (Int.natCast_nonneg _) hcap)
  induction fuel with
  | zero => exact fun attempt w => hnone attempt w.2
  | succ fuel ih =>
    intro attempt w
    by_cases hallowed : attempt ≤ policy.max_attempts
    · rw [with_retry_loop_succ _ _ _ _ hallowed]
      -- neither the operation nor the draw sleeps
      refine Proc.Ensures.bind (P := fun _ (w₁ : σ × ℤ) => w₁.2 = w.2) rfl (fun result w₁ h₁ => ?_)
        fun w₁ h₁ => h₁ ▸ hnone attempt w₁.2
      split
      · next hagain =>
        have hlt := UInt8.lt_iff_toNat_lt.mp hagain.2
        have hmax := policy.max_attempts.toNat_lt
        have hsucc : (attempt + 1).toNat = attempt.toNat + 1 := by
          rw [UInt8.toNat_add]
          exact Nat.mod_eq_of_lt (by change attempt.toNat + 1 < 256; omega)
        -- one attempt fewer remains, and its share pays for this sleep
        have hremain : ((policy.max_attempts.toNat - attempt.toNat : ℕ) : ℤ) * policy.cap
            = policy.cap
              + (policy.max_attempts.toNat - (attempt + 1).toNat : ℕ) * policy.cap := by
          rw [hsucc, show policy.max_attempts.toNat - attempt.toNat
            = policy.max_attempts.toNat - (attempt.toNat + 1) + 1 by omega]
          push_cast
          ring
        refine Proc.Ensures.bind (P := fun _ (w₂ : σ × ℤ) => w₂.2 = w.2) h₁ (fun jitter w₂ h₂ => ?_)
          fun w₂ h₂ => h₂ ▸ hnone attempt w₂.2
        have hdelay := calculate_retry_delay_le policy attempt jitter
        refine Proc.Ensures.bind (P := fun _ (w₃ : σ × ℤ) => w₃.2 ≤ w.2 + policy.cap) ?_
          (fun _ w₃ h₃ => (ih (attempt + 1) w₃).mono fun _ w' hw' => ?_) fun w₃ h₃ => ?_
        · change w₂.2 + _ ≤ _
          omega
        · rw [hremain]
          omega
        · rw [hremain]
          have := hnone (attempt + 1) w₃.2
          omega
      · exact h₁ ▸ hnone attempt w₁.2
    · rw [with_retry_loop, if_neg hallowed]
      exact hnone attempt w.2

/-- **Backoff delays follow the capped exponential law for every policy.** Hence
they are bounded by the cap, do not shrink from one attempt to the next where
nothing is drawn and the multiplier is at least one, and add up to at most the
cap for each attempt after the first. -/
theorem backoff_law (policy : RetryPolicy) :
    (∀ (attempt : UInt8) (jitter : ℚ), 1 - policy.spread ≤ jitter → jitter ≤ 1 + policy.spread →
      calculate_retry_delay attempt policy jitter
          = ⌊min (policy.cap : ℚ) (jitter * min (policy.cap : ℚ)
              (policy.first_delay * policy.growth ^ (attempt.toNat - 1)))⌋
        ∧ 0 ≤ calculate_retry_delay attempt policy jitter
        ∧ calculate_retry_delay attempt policy jitter ≤ policy.cap)
      ∧ (policy.spread = 0 → 1 ≤ policy.growth → ∀ (attempt later : UInt8) (jitter jitter' : ℚ),
          attempt ≤ later →
            calculate_retry_delay attempt policy jitter
              ≤ calculate_retry_delay later policy jitter')
      ∧ (1 ≤ policy.max_attempts.toNat → ∀ (σ : Type) (port : RetryPort σ) (fuel : ℕ) (w : σ),
          (with_retry port.metered policy fuel (w, 0)).2.2
              ≤ ((policy.max_attempts.toNat : ℤ) - 1) * policy.cap
            ∧ (with_retry port.metered policy fuel (w, 0)).1 = (with_retry port policy fuel w).1
            ∧ (with_retry port.metered policy fuel (w, 0)).2.1
              = (with_retry port policy fuel w).2) := by
  refine ⟨fun attempt jitter hlow hhigh => ?_, fun hspread hgrowth attempt later j j' hle => ?_,
    fun hmax σ port fuel w => ?_⟩
  · have hlaw := calculate_retry_delay_law policy attempt hlow hhigh
    refine ⟨hlaw, ?_, calculate_retry_delay_le policy attempt jitter⟩
    rw [hlaw]
    have hjitter : 0 ≤ jitter := by linarith [policy.spread_bounds.2]
    exact Int.floor_nonneg.mpr (le_min (by exact_mod_cast policy.cap_nonneg)
      (mul_nonneg hjitter (policy.law_bounds _).1))
  · have hno : ¬ 0 < policy.spread := by
      rw [hspread]
      exact lt_irrefl 0
    rw [calculate_retry_delay_no_spread policy hno, calculate_retry_delay_no_spread policy hno]
    have hattempt := UInt8.le_iff_toNat_le.mp hle
    exact Int.floor_le_floor (min_le_min_left _ (policy.law_mono hgrowth (by omega)))
  · have htotal : (with_retry port.metered policy fuel (w, 0)).2.2
        ≤ 0 + (policy.max_attempts.toNat - (1 : UInt8).toNat : ℕ) * policy.cap :=
      with_retry_loop_total port policy fuel 1 (w, 0)
    have hone : (1 : UInt8).toNat = 1 := rfl
    rw [hone, zero_add, Nat.cast_sub hmax, Nat.cast_one] at htotal
    exact ⟨htotal, with_retry_mirrors (metered_mirrors port) policy fuel (w, 0)⟩

end OpenMeteo
