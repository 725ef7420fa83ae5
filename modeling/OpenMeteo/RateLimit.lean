/-
The rate limiter of `rate_limit.hpp` and `src/core/rate_limit.cpp`: its
configuration, its state, and the functions that run with the mutex held.

Token counts are the `std::uint16_t` of the source. Durations and time points
are integers, in the unit the source keeps them in: `refill_interval` and
`max_wait` in milliseconds, everything read from or compared with the clock in
nanoseconds. `std::chrono` converts between the two by a multiplication one way
and by C++ division, which truncates towards zero, the other way.

Every call of `Clock::now()` is an argument. A function that reads the clock
twice takes two readings, so nothing here assumes that time stands still while
the mutex is held.
-/
import Mathlib.Tactic.Linarith
import Mathlib.Tactic.NormNum
import Mathlib.Data.Int.Basic

set_option autoImplicit false

namespace OpenMeteo

/-! ## Units of time -/

/-- Nanoseconds in a millisecond. -/
def ns_per_ms : ℤ := 1000000

/-- `duration_cast<milliseconds>` of a duration in nanoseconds. -/
def to_ms (d : ℤ) : ℤ := d.tdiv ns_per_ms

/-- `Clock::duration::max()`, and also `Clock::time_point::max()`. -/
def duration_max : ℤ := 9223372036854775807

/-! ## 16-bit counters -/

/-- `static_cast<std::uint16_t>` of a value that fits loses nothing. -/
theorem u16_toNat_ofInt (x : ℤ) (h0 : 0 ≤ x) (hx : x < 65536) :
    ((UInt16.ofInt x).toNat : ℤ) = x := by
  rw [UInt16.ofInt, UInt16.toNat_ofNat']
  omega

theorem u16_toNat_max (a b : UInt16) : (max a b).toNat = max a.toNat b.toNat := by
  change (if a ≤ b then b else a).toNat = _
  split
  · next h => exact (max_eq_right (UInt16.le_iff_toNat_le.mp h)).symm
  · next h => exact (max_eq_left (by rw [UInt16.le_iff_toNat_le] at h; omega)).symm

theorem u16_toNat_min (a b : UInt16) : (min a b).toNat = min a.toNat b.toNat := by
  change (if a ≤ b then a else b).toNat = _
  split
  · next h => exact (min_eq_left (UInt16.le_iff_toNat_le.mp h)).symm
  · next h => exact (min_eq_right (by rw [UInt16.le_iff_toNat_le] at h; omega)).symm

namespace RateLimiter

/-! ## Configuration -/

/-- `RateLimiter::Config`, with the defaults of the header. -/
structure Config where
  max_tokens : UInt16 := 10
  refill_interval : ℤ := 100
  initial_tokens : UInt16 := 10
  max_wait : Option ℤ := none
  deriving DecidableEq, Repr

/-- What `sanitized` establishes. -/
structure Config.Sane (config : Config) : Prop where
  interval_pos : 0 < config.refill_interval
  max_pos : 0 < config.max_tokens.toNat
  initial_le : config.initial_tokens.toNat ≤ config.max_tokens.toNat

def sanitized (config : Config) : Config :=
  let config :=
    if config.refill_interval ≤ 0 then { config with refill_interval := 100 } else config
  let config := { config with max_tokens := max config.max_tokens 1 }
  { config with initial_tokens := min config.initial_tokens config.max_tokens }

theorem sanitized_interval (config : Config) :
    (sanitized config).refill_interval
      = if config.refill_interval ≤ 0 then 100 else config.refill_interval := by
  unfold sanitized
  split <;> rfl

theorem sanitized_max (config : Config) :
    (sanitized config).max_tokens = max config.max_tokens 1 := by
  unfold sanitized
  split <;> rfl

theorem sanitized_initial (config : Config) :
    (sanitized config).initial_tokens
      = min config.initial_tokens (sanitized config).max_tokens := by
  unfold sanitized
  split <;> rfl

theorem sanitized_sane (config : Config) : (sanitized config).Sane := by
  refine ⟨?_, ?_, ?_⟩
  · rw [sanitized_interval]
    split
    · norm_num
    · next h => omega
  · have h1 : (1 : UInt16).toNat = 1 := rfl
    rw [sanitized_max, u16_toNat_max, h1]
    omega
  · rw [sanitized_initial, u16_toNat_min]
    exact min_le_right _ _

/-- The length of one refill interval in nanoseconds. -/
def Config.interval_ns (config : Config) : ℤ := config.refill_interval * ns_per_ms

theorem Config.Sane.interval_ns_pos {config : Config} (h : config.Sane) :
    0 < config.interval_ns := by
  have := h.interval_pos
  simp only [Config.interval_ns, ns_per_ms]
  omega

end RateLimiter

/-! ## State -/

/-- A `RateLimiter`: the configuration it keeps, which its constructor has
sanitized, and the two fields the mutex guards. -/
structure RateLimiter where
  config_ : RateLimiter.Config
  config_sane : config_.Sane
  tokens_ : UInt16
  last_refill_ : ℤ

namespace RateLimiter

/-- The constructor, with its reading of the clock. -/
def new (config : Config) (now : ℤ) : RateLimiter where
  config_ := sanitized config
  config_sane := sanitized_sane config
  tokens_ := (sanitized config).initial_tokens
  last_refill_ := now

/-- The whole intervals that have passed since the last refill. -/
def earned (s : RateLimiter) (now : ℤ) : ℤ :=
  (to_ms (now - s.last_refill_)).tdiv s.config_.refill_interval

def refill (s : RateLimiter) (now : ℤ) : RateLimiter :=
  -- full: what has passed since the stamp is dropped
  if s.config_.max_tokens ≤ s.tokens_ then
    { s with last_refill_ := now }
  else if s.earned now ≤ 0 then
    s
  else
    let total := (s.tokens_.toNat : ℤ) + s.earned now
    -- saturating, or by whole intervals, so that the remainder is kept
    if (s.config_.max_tokens.toNat : ℤ) ≤ total then
      { s with tokens_ := s.config_.max_tokens, last_refill_ := now }
    else
      { s with
        tokens_ := UInt16.ofInt total
        last_refill_ :=
          s.last_refill_ + s.earned now * s.config_.refill_interval * ns_per_ms }

/-- `take_or_wait_time`: `none` when a token was taken, else the time to wait.
`now` is the reading of `refill`, `later` the one the wait is computed from. -/
def take_or_wait_time (s : RateLimiter) (now later : ℤ) : Option ℤ × RateLimiter :=
  let s := s.refill now
  if 0 < s.tokens_ then
    (none, { s with tokens_ := s.tokens_ - 1 })
  else
    -- an interval that does not fit nanoseconds counts as the longest that does
    let interval :=
      if to_ms duration_max ≤ s.config_.refill_interval then duration_max
      else s.config_.refill_interval * ns_per_ms
    (some (max (interval - (later - s.last_refill_)) 0), s)

def try_acquire (s : RateLimiter) (now later : ℤ) : Bool × RateLimiter :=
  ((s.take_or_wait_time now later).1.isNone, (s.take_or_wait_time now later).2)

def available_tokens (s : RateLimiter) (now : ℤ) : UInt16 :=
  UInt16.ofInt (min ((s.tokens_.toNat : ℤ) + max (s.earned now) 0) s.config_.max_tokens.toNat)

def reset (s : RateLimiter) (now : ℤ) : RateLimiter :=
  { s with tokens_ := s.config_.initial_tokens, last_refill_ := now }

/-! ## Deadlines

The parts of `acquire_for` and `acquire_until` that run without the mutex. -/

/-- The deadline `acquire_for` hands to `acquire_until`. -/
def acquire_deadline (max_wait now : ℤ) : ℤ :=
  if max_wait ≤ 0 then now
  -- `now + max_wait` is computed only where it fits
  else if to_ms (duration_max - now) ≤ max_wait then duration_max
  else now + max_wait * ns_per_ms

/-- The test with which `acquire_until` gives up, at its own reading `now`. -/
def past_deadline (deadline : Option ℤ) (wait now : ℤ) : Bool :=
  match deadline with
  | some d => d - now < wait
  | none => false

end RateLimiter

end OpenMeteo
