/-
The arithmetic of the limiter is safe for every configuration.

Each function of `rate_limit.cpp` is written once more with the operations of
`Lib/Checked.lean`, one for every difference, sum, product, quotient, duration
conversion and narrowing cast of the source, in its order. `std::int64_t`, the
milliseconds and the nanoseconds all hold values up to `duration_max`. What is
proved is that these functions never fault: from any state that a run reaches
they return what the functions of `RateLimit.lean` return.

The invariant is `Timely`: the count is at most its maximum, the stamp is not
later than the present, and every deadline a thread holds is a time point.
-/
import OpenMeteo.Lib.Checked
import OpenMeteo.RateLimitThreads

set_option autoImplicit false

namespace OpenMeteo.RateLimiter

open Checked

/-! ## The functions, with their arithmetic checked -/

/-- `duration_cast<milliseconds>` of nanoseconds. -/
def to_ms_checked (d : ℤ) : Except Fault ℤ := Checked.div duration_max d ns_per_ms

/-- The conversion of milliseconds to nanoseconds. -/
def to_ns_checked (d : ℤ) : Except Fault ℤ := Checked.mul duration_max d ns_per_ms

/-- The integer literal is converted to `std::uint16_t`. -/
def sanitized_checked (config : Config) : Except Fault Config := do
  let config :=
    if config.refill_interval ≤ 0 then { config with refill_interval := 100 } else config
  let one ← Checked.narrow 65536 1
  let config := { config with max_tokens := max config.max_tokens (UInt16.ofInt one) }
  pure { config with initial_tokens := min config.initial_tokens config.max_tokens }

/-- The whole intervals since the stamp: a difference, a cast and a quotient. -/
def earned_checked (s : RateLimiter) (now : ℤ) : Except Fault ℤ := do
  let elapsed ← Checked.sub duration_max now s.last_refill_
  let elapsed ← to_ms_checked elapsed
  Checked.div duration_max elapsed s.config_.refill_interval

/-- `refill`, with the sum that is narrowed and the product that moves the stamp. -/
def refill_checked (s : RateLimiter) (now : ℤ) : Except Fault RateLimiter :=
  if s.config_.max_tokens ≤ s.tokens_ then
    -- a full bucket drops what passed, and computes nothing
    pure { s with last_refill_ := now }
  else do
    let earned ← s.earned_checked now
    if earned ≤ 0 then
      pure s
    else do
      let total ← Checked.add duration_max s.tokens_.toNat earned
      if (s.config_.max_tokens.toNat : ℤ) ≤ total then
        pure { s with tokens_ := s.config_.max_tokens, last_refill_ := now }
      else do
        -- below the maximum, so the counter holds it
        let tokens ← Checked.narrow 65536 total
        -- the product is in milliseconds, and converted when it is added
        let moved ← Checked.mul duration_max earned s.config_.refill_interval
        let moved ← to_ns_checked moved
        let last ← Checked.add duration_max s.last_refill_ moved
        pure { s with tokens_ := UInt16.ofInt tokens, last_refill_ := last }

/-- `take_or_wait_time`; `now` is the reading of the refill, `later` that of the wait. -/
def take_or_wait_time_checked (s : RateLimiter) (now later : ℤ) :
    Except Fault (Option ℤ × RateLimiter) := do
  let s ← s.refill_checked now
  if 0 < s.tokens_ then do
    let tokens ← Checked.decrement s.tokens_.toNat
    pure (none, { s with tokens_ := UInt16.ofInt tokens })
  else do
    -- an interval too long for nanoseconds is taken for the longest time there is
    let longest ← to_ms_checked duration_max
    let interval ←
      if longest ≤ s.config_.refill_interval then pure duration_max
      else to_ns_checked s.config_.refill_interval
    let since ← Checked.sub duration_max later s.last_refill_
    let wait ← Checked.sub duration_max interval since
    pure (some (max wait 0), s)

/-- `available_tokens`, whose sum is cut at the maximum before it is narrowed. -/
def available_tokens_checked (s : RateLimiter) (now : ℤ) : Except Fault UInt16 := do
  let earned ← s.earned_checked now
  let total ← Checked.add duration_max s.tokens_.toNat (max earned 0)
  let count ← Checked.narrow 65536 (min total s.config_.max_tokens.toNat)
  pure (UInt16.ofInt count)

/-- The deadline of `acquire_for`. The time left to the end of the clock is compared
first, so the sum is only made where it fits. -/
def acquire_deadline_checked (max_wait now : ℤ) : Except Fault ℤ :=
  if max_wait ≤ 0 then pure now
  else do
    let left ← Checked.sub duration_max duration_max now
    let remaining ← to_ms_checked left
    if remaining ≤ max_wait then pure duration_max
    else do
      let wait ← to_ns_checked max_wait
      Checked.add duration_max now wait

/-- The comparison of `acquire_until`: the time left, which may be negative. -/
def past_deadline_checked (deadline : Option ℤ) (wait now : ℤ) : Except Fault Bool :=
  match deadline with
  | some d => do
    let left ← Checked.sub duration_max d now
    pure (left < wait)
  | none => pure false

/-- `RateLimiter::RateLimiter`. -/
def new_checked (config : Config) (now : ℤ) : Except Fault RateLimiter := do
  let _ ← sanitized_checked config
  pure (new config now)

/-! ### Steps and runs -/

namespace System

/-- `System.step`, with the checked functions. -/
def step_checked (sys : System) (l : Label) : Except Fault (Option (Outcome × System)) :=
  match sys.threads l.thread, l.action with
  | .idle, .try_acquire => do
    let r ← sys.limiter.take_or_wait_time_checked l.now l.later
    pure (some (if r.1.isNone then .granted else .refused, { sys with limiter := r.2 }))
  | .idle, .acquire =>
    match sys.limiter.config_.max_wait with
    | some max_wait => do
      let deadline ← acquire_deadline_checked max_wait l.now
      pure (some (.started, sys.goto l.thread (.looping (some deadline))))
    | none => pure (some (.started, sys.goto l.thread (.looping none)))
  | .idle, .acquire_for max_wait => do
    let deadline ← acquire_deadline_checked max_wait l.now
    pure (some (.started, sys.goto l.thread (.looping (some deadline))))
  | .idle, .available_tokens => do
    let count ← sys.limiter.available_tokens_checked l.now
    pure (some (.available count, sys))
  | .idle, .reset => pure (some (.done, { sys with limiter := sys.limiter.reset l.now }))
  | .looping deadline, .attempt => do
    let r ← sys.limiter.take_or_wait_time_checked l.now l.later
    match r.1 with
    | none => pure (some (.granted, { sys with limiter := r.2 }.goto l.thread .idle))
    | some wait =>
      pure (some (.missed, { sys with limiter := r.2 }.goto l.thread (.waiting deadline wait)))
  | .waiting deadline wait, .settle => do
    let late ← past_deadline_checked deadline wait l.now
    if late then pure (some (.refused, sys.goto l.thread .idle))
    else pure (some (.slept, sys.goto l.thread (.looping deadline)))
  | _, _ => pure none

/-- `System.run`, with the checked functions: a fault ends it. -/
def run_checked : System → List Label → Except Fault (Option (List Outcome × System))
  | sys, [] => pure (some ([], sys))
  | sys, l :: rest => do
    match ← sys.step_checked l with
    | none => pure none
    | some (out, sys') =>
      match ← run_checked sys' rest with
      | none => pure none
      | some (outs, final) => pure (some (out :: outs, final))

/-- The constructor, and the run of everything behind it. -/
def run_from_checked (config : Config) (start : ℤ) (labels : List Label) :
    Except Fault (Option (List Outcome × System)) := do
  let limiter ← new_checked config start
  run_checked ⟨limiter, fun _ => .idle⟩ labels

end System

/-! ## The functions never fault -/

/-- The invariant, with a stamp that is a time point. -/
structure Timely (s : RateLimiter) (t : ℤ) : Prop extends Within s t where
  last_nonneg : 0 ≤ s.last_refill_

variable {s : RateLimiter} {t now later : ℤ}

theorem Timely.mono (h : s.Timely t) (hle : t ≤ now) : s.Timely now :=
  ⟨h.toWithin.mono hle, h.last_nonneg⟩

/-- The literal `1` fits a counter. -/
theorem sanitized_checked_ok (config : Config) :
    sanitized_checked config = .ok (sanitized config) := by
  rw [sanitized_checked, Checked.narrow_ok (by norm_num) (by norm_num)]
  rfl

/-- An elapsed time divides down to milliseconds and to whole intervals. -/
theorem Timely.earned_checked (h : s.Timely now) (hnow : now ≤ duration_max) :
    s.earned_checked now = .ok (s.earned now) := by
  have hnonneg := h.last_nonneg
  have hlast := h.last_le
  have hms0 : 0 ≤ to_ms (now - s.last_refill_) := Int.tdiv_nonneg (by omega) (by decide)
  have hms : to_ms (now - s.last_refill_) ≤ now - s.last_refill_ := by
    rw [to_ms, Int.tdiv_eq_ediv_of_nonneg (by omega)]
    exact Int.ediv_le_self _ (by omega)
  unfold RateLimiter.earned_checked to_ms_checked
  rw [Checked.sub_ok (Checked.fits_sub (by omega) hnow hnonneg (by omega)), Checked.ok_bind,
    Checked.div_ok (by omega) (by omega) (by decide), Checked.ok_bind]
  exact Checked.div_ok hms0 (le_trans hms (by omega)) s.config_sane.interval_pos

/-- What was earned, in milliseconds and in nanoseconds, is no more than what passed. -/
theorem Timely.earned_le (h : s.Timely now) :
    s.earned now * ns_per_ms ≤ now - s.last_refill_
      ∧ s.earned now * s.config_.refill_interval ≤ now - s.last_refill_
      ∧ s.earned now * s.config_.refill_interval * ns_per_ms ≤ now - s.last_refill_ := by
  obtain ⟨he0, hele, -⟩ := earned_bounds s now h.last_le
  have hpos := s.config_sane.interval_pos
  have hmul : s.earned now * s.config_.refill_interval * ns_per_ms ≤ now - s.last_refill_ := by
    rw [mul_assoc]
    exact hele
  have hsmall : s.earned now ≤ s.earned now * s.config_.refill_interval :=
    le_mul_of_one_le_right he0 (by omega)
  simp only [ns_per_ms] at hmul ⊢
  refine ⟨?_, ?_, hmul⟩
  · omega
  · omega

/-- The stamp never moves back. -/
theorem refill_last_ge (s : RateLimiter) (now : ℤ) (h : s.last_refill_ ≤ now) :
    s.last_refill_ ≤ (s.refill now).last_refill_ := by
  obtain ⟨he0, -, -⟩ := earned_bounds s now h
  have hmoved : 0 ≤ s.earned now * s.config_.refill_interval * ns_per_ms :=
    mul_nonneg (mul_nonneg he0 (le_of_lt s.config_sane.interval_pos)) (by decide)
  unfold refill
  split
  · exact h
  · split
    · exact le_refl _
    · dsimp only
      split
      · exact h
      · dsimp only
        omega

/-- **`refill` never faults**, in any of its branches. -/
theorem Timely.refill_checked (h : s.Timely now) (hnow : now ≤ duration_max) :
    s.refill_checked now = .ok (s.refill now) := by
  have hnonneg := h.last_nonneg
  have hlast := h.last_le
  have htokens := s.tokens_.toNat_lt
  have hmax := s.config_.max_tokens.toNat_lt
  obtain ⟨hsmall, hms, hns⟩ := h.earned_le
  obtain ⟨he0, -, -⟩ := earned_bounds s now hlast
  have hprod0 : 0 ≤ s.earned now * s.config_.refill_interval :=
    mul_nonneg he0 (le_of_lt s.config_sane.interval_pos)
  unfold RateLimiter.refill_checked RateLimiter.refill
  by_cases hfull : s.config_.max_tokens ≤ s.tokens_
  · rw [if_pos hfull, if_pos hfull]
    rfl
  · rw [if_neg hfull, if_neg hfull, h.earned_checked hnow, Checked.ok_bind]
    by_cases hnone : s.earned now ≤ 0
    · rw [if_pos hnone, if_pos hnone]
      rfl
    · have htotal : Checked.Fits duration_max (s.tokens_.toNat + s.earned now) := by
        simp only [ns_per_ms, duration_max] at hsmall hnow ⊢
        constructor
        · omega
        · omega
      rw [if_neg hnone, if_neg hnone, Checked.add_ok htotal, Checked.ok_bind]
      dsimp only
      by_cases hsat : (s.config_.max_tokens.toNat : ℤ) ≤ s.tokens_.toNat + s.earned now
      · rw [if_pos hsat, if_pos hsat]
        rfl
      · -- what was earned does not fill the bucket, so it fits a counter
        rw [if_neg hsat, if_neg hsat, Checked.narrow_ok (by omega) (by omega), Checked.ok_bind,
          Checked.mul_ok ⟨by omega, by omega⟩, Checked.ok_bind, to_ns_checked,
          Checked.mul_ok ⟨by simp only [ns_per_ms]; omega, by omega⟩, Checked.ok_bind,
          Checked.add_ok ⟨by simp only [ns_per_ms]; omega, by omega⟩]
        rfl

/-- A refill keeps the invariant. -/
theorem Timely.refill (h : s.Timely now) : (s.refill now).Timely now :=
  ⟨h.toWithin.refill.2, le_trans h.last_nonneg (refill_last_ge s now h.last_le)⟩

/-- **The locked section of an acquisition never faults.** -/
theorem Timely.take_checked (h : s.Timely now) (hlater : now ≤ later) (hmax : later ≤ duration_max) :
    s.take_or_wait_time_checked now later = .ok (s.take_or_wait_time now later) := by
  have hrefilled := h.refill
  unfold RateLimiter.take_or_wait_time_checked RateLimiter.take_or_wait_time
  rw [h.refill_checked (le_trans hlater hmax), Checked.ok_bind]
  dsimp only
  generalize s.refill now = r at hrefilled ⊢
  have hnonneg := hrefilled.last_nonneg
  have hlast := hrefilled.last_le
  by_cases hpos : 0 < r.tokens_
  · have hpos' : 1 ≤ r.tokens_.toNat := UInt16.lt_iff_toNat_lt.mp hpos
    have hlt := r.tokens_.toNat_lt
    have hdec : (r.tokens_ - 1).toNat = r.tokens_.toNat - 1 :=
      UInt16.toNat_sub_of_le _ _ (UInt16.le_iff_toNat_le.mpr hpos')
    -- the decremented count is the counter's own
    have hcast : UInt16.ofInt ((r.tokens_.toNat : ℤ) - 1) = r.tokens_ - 1 := by
      have hback := u16_toNat_ofInt ((r.tokens_.toNat : ℤ) - 1) (by omega) (by omega)
      refine UInt16.toNat_inj.mp ?_
      omega
    rw [if_pos hpos, if_pos hpos, Checked.decrement_ok (by omega), Checked.ok_bind, hcast]
    rfl
  · have hinterval := r.config_sane.interval_pos
    have hlongest : to_ms_checked duration_max = .ok (to_ms duration_max) := by decide
    rw [if_neg hpos, if_neg hpos, hlongest, Checked.ok_bind]
    have hsince : Checked.sub duration_max later r.last_refill_ = .ok (later - r.last_refill_) :=
      Checked.sub_ok ⟨by simp only [duration_max]; omega, by omega⟩
    have hwait : ∀ interval, 0 ≤ interval → interval ≤ duration_max →
        Checked.sub duration_max interval (later - r.last_refill_)
          = .ok (interval - (later - r.last_refill_)) := fun interval hi0 hi =>
      Checked.sub_ok ⟨by omega, by omega⟩
    by_cases hlong : to_ms duration_max ≤ r.config_.refill_interval
    · rw [if_pos hlong, if_pos hlong]
      change (Checked.sub duration_max later r.last_refill_ >>= _) = _
      rw [hsince, Checked.ok_bind, hwait _ (by decide) (le_refl _)]
      rfl
    · -- an interval below the longest is at most the longest time in nanoseconds
      have hmul : 0 ≤ r.config_.refill_interval * ns_per_ms
          ∧ r.config_.refill_interval * ns_per_ms ≤ duration_max := by
        have hbound : to_ms duration_max = 9223372036854 := by decide
        rw [hbound] at hlong
        simp only [ns_per_ms, duration_max]
        omega
      rw [if_neg hlong, if_neg hlong, to_ns_checked, Checked.mul_ok ⟨by omega, hmul.2⟩]
      change (Checked.sub duration_max later r.last_refill_ >>= _) = _
      rw [hsince, Checked.ok_bind, hwait _ hmul.1 hmul.2]
      rfl

/-- **`available_tokens` never faults**: what was earned is at most what passed. -/
theorem Timely.available_checked (h : s.Timely now) (hnow : now ≤ duration_max) :
    s.available_tokens_checked now = .ok (s.available_tokens now) := by
  have hnonneg := h.last_nonneg
  have hlast := h.last_le
  have htokens := s.tokens_.toNat_lt
  have hmax := s.config_.max_tokens.toNat_lt
  obtain ⟨hsmall, -, -⟩ := h.earned_le
  obtain ⟨he0, -, -⟩ := earned_bounds s now hlast
  have htotal : Checked.Fits duration_max (s.tokens_.toNat + max (s.earned now) 0) := by
    simp only [ns_per_ms, duration_max] at hsmall hnow ⊢
    constructor
    · omega
    · omega
  unfold RateLimiter.available_tokens_checked
  rw [h.earned_checked hnow, Checked.ok_bind, Checked.add_ok htotal, Checked.ok_bind,
    Checked.narrow_ok (by omega) (by omega)]
  rfl

/-- The deadline of a call is a time point, and nothing on the way to it overflows. -/
theorem acquire_deadline_ok (max_wait : ℤ) (h0 : 0 ≤ now) (hnow : now ≤ duration_max) :
    acquire_deadline_checked max_wait now = .ok (acquire_deadline max_wait now)
      ∧ 0 ≤ acquire_deadline max_wait now ∧ acquire_deadline max_wait now ≤ duration_max := by
  unfold acquire_deadline_checked acquire_deadline
  by_cases hzero : max_wait ≤ 0
  · rw [if_pos hzero, if_pos hzero]
    exact ⟨rfl, h0, hnow⟩
  · have hleft : 0 ≤ duration_max - now := by omega
    rw [if_neg hzero, if_neg hzero, Checked.sub_ok ⟨by omega, by omega⟩, Checked.ok_bind,
      to_ms_checked, Checked.div_ok hleft (by omega) (by decide), Checked.ok_bind]
    change (if to_ms (duration_max - now) ≤ max_wait then _ else _) = _ ∧ _
    by_cases hlong : to_ms (duration_max - now) ≤ max_wait
    · rw [if_pos hlong, if_pos hlong]
      exact ⟨rfl, by decide, le_refl _⟩
    · -- a wait below the milliseconds that are left is below the nanoseconds that are
      have hfits : max_wait * ns_per_ms ≤ duration_max - now := by
        rw [to_ms, Int.tdiv_eq_ediv_of_nonneg hleft] at hlong
        simp only [ns_per_ms] at hlong ⊢
        omega
      have hmul0 : 0 ≤ max_wait * ns_per_ms := mul_nonneg (by omega) (by decide)
      rw [if_neg hlong, if_neg hlong, to_ns_checked, Checked.mul_ok ⟨by omega, by omega⟩,
        Checked.ok_bind, Checked.add_ok ⟨by omega, by omega⟩]
      exact ⟨rfl, by omega, by omega⟩

/-- The difference of two time points fits a duration, whichever is later. -/
theorem past_deadline_ok {deadline : Option ℤ} (wait : ℤ)
    (hd : ∀ d, deadline = some d → 0 ≤ d ∧ d ≤ duration_max) (h0 : 0 ≤ now)
    (hnow : now ≤ duration_max) :
    past_deadline_checked deadline wait now = .ok (past_deadline deadline wait now) := by
  cases deadline with
  | none => rfl
  | some d =>
    obtain ⟨hd0, hdmax⟩ := hd d rfl
    rw [past_deadline_checked, Checked.sub_ok (Checked.fits_sub hd0 hdmax h0 hnow)]
    rfl

/-! ## Every run -/

/-- The clock readings of a step. -/
def Label.readings (l : Label) : List ℤ :=
  match l.action with
  | .try_acquire | .attempt => [l.now, l.later]
  | _ => [l.now]

/-- Every step reads the clock at least once. -/
theorem Label.now_mem_readings (l : Label) : l.now ∈ l.readings := by
  unfold Label.readings
  split
  · exact List.mem_cons_self ..
  · exact List.mem_cons_self ..
  · exact List.mem_cons_self ..

/-- The deadline of the acquisition a thread is in. -/
def Thread.deadline : Thread → Option ℤ
  | .idle => none
  | .looping deadline => deadline
  | .waiting deadline _ => deadline

/-- The invariant of a run. -/
structure System.Timely (sys : System) (t : ℤ) : Prop where
  limiter : sys.limiter.Timely t
  deadlines : ∀ i d, (sys.threads i).deadline = some d → 0 ≤ d ∧ d ≤ duration_max

/-- A thread that moves changes no deadline but its own. -/
theorem goto_deadlines {sys : System}
    (h : ∀ i d, (sys.threads i).deadline = some d → 0 ≤ d ∧ d ≤ duration_max) (thread : ℕ)
    {place : Thread} (hplace : ∀ d, place.deadline = some d → 0 ≤ d ∧ d ≤ duration_max) :
    ∀ i d, ((sys.goto thread place).threads i).deadline = some d → 0 ≤ d ∧ d ≤ duration_max := by
  intro i d hd
  unfold System.goto at hd
  dsimp only at hd
  by_cases hi : i = thread
  · rw [if_pos hi] at hd
    exact hplace d hd
  · rw [if_neg hi] at hd
    exact h i d hd

/-- The two readings of a locked section. -/
theorem Label.later_bounds {l : Label} (hl : l.readings = [l.now, l.later])
    (hsorted : (t :: l.readings).Pairwise (· ≤ ·))
    (hrange : ∀ r ∈ l.readings, 0 ≤ r ∧ r ≤ duration_max) :
    l.now ≤ l.later ∧ l.later ≤ duration_max := by
  rw [hl] at hsorted hrange
  have hpair := (List.pairwise_cons.mp (List.pairwise_cons.mp hsorted).2).1
  exact ⟨hpair l.later (List.mem_singleton_self _), (hrange l.later (by simp)).2⟩

variable {sys : System} {l : Label}

/-- **One step never faults**, whatever the thread does. -/
theorem System.Timely.step_checked (h : sys.Timely t)
    (hsorted : (t :: l.readings).Pairwise (· ≤ ·))
    (hrange : ∀ r ∈ l.readings, 0 ≤ r ∧ r ≤ duration_max) :
    sys.step_checked l = .ok (sys.step l) := by
  obtain ⟨h0, hmax⟩ := hrange l.now l.now_mem_readings
  have hnow : sys.limiter.Timely l.now :=
    h.limiter.mono ((List.pairwise_cons.mp hsorted).1 l.now l.now_mem_readings)
  have hdeadline := h.deadlines l.thread
  unfold System.step_checked System.step
  cases hthread : sys.threads l.thread with
  | idle =>
    cases haction : l.action with
    | try_acquire =>
      obtain ⟨hle, hlatest⟩ :=
        Label.later_bounds (by rw [Label.readings, haction]) hsorted hrange
      dsimp only
      rw [hnow.take_checked hle hlatest]
      rfl
    | acquire =>
      dsimp only
      -- only a configured wait needs a deadline
      cases sys.limiter.config_.max_wait with
      | none => rfl
      | some max_wait =>
        dsimp only
        rw [(acquire_deadline_ok max_wait h0 hmax).1]
        rfl
    | acquire_for max_wait =>
      dsimp only
      rw [(acquire_deadline_ok max_wait h0 hmax).1]
      rfl
    | available_tokens =>
      dsimp only
      rw [hnow.available_checked hmax]
      rfl
    | reset | attempt | settle => rfl
  | looping deadline =>
    cases haction : l.action with
    | attempt =>
      obtain ⟨hle, hlatest⟩ :=
        Label.later_bounds (by rw [Label.readings, haction]) hsorted hrange
      dsimp only
      rw [hnow.take_checked hle hlatest, Checked.ok_bind]
      cases (sys.limiter.take_or_wait_time l.now l.later).1 with
      | none => rfl
      | some wait => rfl
    | _ => rfl
  | waiting deadline wait =>
    cases haction : l.action with
    | settle =>
      rw [hthread] at hdeadline
      have hbounded : ∀ d, deadline = some d → 0 ≤ d ∧ d ≤ duration_max := hdeadline
      dsimp only
      rw [past_deadline_ok wait hbounded h0 hmax, Checked.ok_bind]
      cases past_deadline deadline wait l.now with
      | false => rfl
      | true => rfl
    | _ => rfl

/-- A step keeps the stamp a time point. -/
theorem Timely.step {sys sys' : System} {out : Outcome} (h : sys.limiter.Timely l.now)
    (h0 : 0 ≤ l.now) (hstep : sys.step l = some (out, sys')) : sys'.limiter.Timely l.now := by
  refine ⟨(System.step_within h.toWithin hstep).2, ?_⟩
  rcases System.step_limiter hstep with heq | heq | heq
  · rw [heq]
    exact h.last_nonneg
  · rw [heq, (h.toWithin.take l.later).2.1]
    exact le_trans h.last_nonneg (refill_last_ge _ _ h.last_le)
  · rw [heq]
    exact h0

/-- A step keeps the invariant. -/
theorem System.Timely.step (h : sys.Timely t) (hsorted : (t :: l.readings).Pairwise (· ≤ ·))
    (hrange : ∀ r ∈ l.readings, 0 ≤ r ∧ r ≤ duration_max) {out : Outcome} {sys' : System}
    (hstep : sys.step l = some (out, sys')) : sys'.Timely l.now := by
  obtain ⟨h0, hmax⟩ := hrange l.now l.now_mem_readings
  have hnow : sys.limiter.Timely l.now :=
    h.limiter.mono ((List.pairwise_cons.mp hsorted).1 l.now l.now_mem_readings)
  refine ⟨hnow.step h0 hstep, ?_⟩
  have hidle : ∀ d, Thread.idle.deadline = some d → 0 ≤ d ∧ d ≤ duration_max :=
    fun d hd => by cases hd
  have hstarted : ∀ max_wait d,
      (Thread.looping (some (acquire_deadline max_wait l.now))).deadline = some d →
        0 ≤ d ∧ d ≤ duration_max := by
    rintro max_wait d ⟨⟩
    exact (acquire_deadline_ok max_wait h0 hmax).2
  have hdeadline := h.deadlines l.thread
  -- the deadline a thread moves on with is a new one, its own, or none
  cases System.step_cases hstep with
  | try_acquire | available_tokens | reset => exact h.deadlines
  | acquire =>
    refine goto_deadlines h.deadlines _ ?_
    cases sys.limiter.config_.max_wait with
    | none => exact hidle
    | some max_wait => exact hstarted max_wait
  | acquire_for max_wait => exact goto_deadlines h.deadlines _ (hstarted max_wait)
  | took | gave_up => exact goto_deadlines h.deadlines _ hidle
  | missed _ _ hplace | slept _ _ hplace =>
    rw [hplace] at hdeadline
    exact goto_deadlines h.deadlines _ hdeadline

/-- **No run faults**, by induction on the steps, and the invariant holds at its end. -/
theorem System.Timely.run_checked (labels : List Label) :
    ∀ {sys : System} {t : ℤ}, sys.Timely t →
      (t :: labels.flatMap Label.readings).Pairwise (· ≤ ·) →
      (∀ r ∈ labels.flatMap Label.readings, 0 ≤ r ∧ r ≤ duration_max) →
      sys.run_checked labels = .ok (sys.run labels)
        ∧ ∀ outs final, sys.run labels = some (outs, final) →
          ∃ last ∈ t :: labels.flatMap Label.readings, final.Timely last := by
  induction labels with
  | nil =>
    intro sys t h _ _
    refine ⟨rfl, ?_⟩
    rintro outs final ⟨⟩
    exact ⟨t, List.mem_cons_self .., h⟩
  | cons l rest ih =>
    intro sys t h hsorted hrange
    rw [List.flatMap_cons] at hsorted hrange
    have hhere : (t :: l.readings).Pairwise (· ≤ ·) :=
      hsorted.sublist (List.Sublist.cons_cons _ (List.sublist_append_left _ _))
    have hhere_range : ∀ r ∈ l.readings, 0 ≤ r ∧ r ≤ duration_max :=
      fun r hr => hrange r (List.mem_append_left _ hr)
    have hbehind : (l.now :: rest.flatMap Label.readings).Pairwise (· ≤ ·) := by
      rw [List.pairwise_cons, List.pairwise_append] at hsorted
      exact List.pairwise_cons.mpr ⟨hsorted.2.2.2 l.now l.now_mem_readings, hsorted.2.2.1⟩
    rw [System.run_checked, System.run, h.step_checked hhere hhere_range, Checked.ok_bind]
    cases hstep : sys.step l with
    | none =>
      refine ⟨rfl, ?_⟩
      rintro outs final ⟨⟩
    | some r =>
      obtain ⟨out, sys'⟩ := r
      obtain ⟨hok, hinv⟩ := ih (h.step hhere hhere_range hstep) hbehind
        fun r hr => hrange r (List.mem_append_right _ hr)
      dsimp only
      rw [hok, Checked.ok_bind]
      cases hrun : sys'.run rest with
      | none =>
        refine ⟨rfl, ?_⟩
        rintro outs final ⟨⟩
      | some r' =>
        obtain ⟨outs', final'⟩ := r'
        refine ⟨rfl, ?_⟩
        rintro outs final ⟨⟩
        obtain ⟨last, hlast, htimely⟩ := hinv outs' final' hrun
        refine ⟨last, ?_, htimely⟩
        rw [List.flatMap_cons]
        rcases List.mem_cons.mp hlast with rfl | hmem
        · exact List.mem_cons_of_mem _ (List.mem_append_left _ l.now_mem_readings)
        · exact List.mem_cons_of_mem _ (List.mem_append_right _ hmem)

/-- **Limiter arithmetic is safe for every configuration.** In any run from
construction on, with readings between `0` and the largest time point that do
not run backwards, nothing faults, and in the state it ends in the count is at
most its maximum and the stamp not later than the last reading. -/
theorem arithmetic_safe (config : Config) (start : ℤ) (labels : List Label)
    (hclock : (start :: labels.flatMap Label.readings).Pairwise (· ≤ ·))
    (hrange : ∀ r ∈ start :: labels.flatMap Label.readings, 0 ≤ r ∧ r ≤ duration_max) :
    sanitized_checked config = .ok (sanitized config)
      ∧ System.run_from_checked config start labels
        = .ok ((System.new config start).run labels)
      ∧ ∀ outs final, (System.new config start).run labels = some (outs, final) →
        final.limiter.tokens_ ≤ final.limiter.config_.max_tokens
          ∧ ∀ now, (∀ r ∈ start :: labels.flatMap Label.readings, r ≤ now) →
            final.limiter.last_refill_ ≤ now := by
  have hstart := hrange start (List.mem_cons_self ..)
  have hnew : (System.new config start).Timely start :=
    ⟨⟨new_within config start, hstart.1⟩, fun i d hd => by cases hd⟩
  obtain ⟨hok, hinv⟩ := System.Timely.run_checked labels hnew hclock
    fun r hr => hrange r (List.mem_cons_of_mem _ hr)
  refine ⟨sanitized_checked_ok config, ?_, fun outs final hrun => ?_⟩
  · rw [System.run_from_checked, new_checked, sanitized_checked_ok]
    exact hok
  · obtain ⟨last, hlast, htimely⟩ := hinv outs final hrun
    exact ⟨UInt16.le_iff_toNat_le.mpr htimely.limiter.tokens_le,
      fun now hnow => le_trans htimely.limiter.last_le (hnow last hlast)⟩

/-- The longest interval and the longest deadline, at the last time points there are. -/
theorem arithmetic_safe_longest :
    System.run_from_checked
        { max_tokens := 1, refill_interval := 9223372036854775807, initial_tokens := 0 }
        9223372036854775000
        [⟨0, .acquire_for 9223372036854775807, 9223372036854775001, 9223372036854775001⟩,
          ⟨0, .attempt, 9223372036854775806, 9223372036854775807⟩]
      = .ok ((System.new
          { max_tokens := 1, refill_interval := 9223372036854775807, initial_tokens := 0 }
          9223372036854775000).run
        [⟨0, .acquire_for 9223372036854775807, 9223372036854775001, 9223372036854775001⟩,
          ⟨0, .attempt, 9223372036854775806, 9223372036854775807⟩]) :=
  (arithmetic_safe _ _ _ (by decide) (by decide)).2.1

end OpenMeteo.RateLimiter
