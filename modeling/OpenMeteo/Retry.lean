/-
The retry policy of `retry.hpp`: which outcomes are retried, how long the delay
before the next attempt is, and the loop.

The loop counts its attempts in a `std::uint8_t`, so its `++attempt` is 8-bit
addition here as well, and nothing in the definition says that it stops: it is
given fuel, and is `Proc.running` when that is spent. What the fuel has to be,
and that the counter never wraps, is proved in `RetryBounded.lean`.

Delays are computed in `double` by the source. Here they are computed from the
rationals the policy's doubles denote; a NaN or an infinity is recognised by
its bits, as `std::isfinite` does.
-/
import Mathlib.Data.Rat.Floor
import Mathlib.Algebra.Order.Ring.Rat
import OpenMeteo.Error
import OpenMeteo.Lib.Double
import OpenMeteo.Lib.Process

set_option autoImplicit false

namespace OpenMeteo

/-- `struct RetryPolicy`, with the defaults of the header; the delays are in
milliseconds. -/
structure RetryPolicy where
  initial_delay : ℤ := 500
  max_delay : ℤ := 30000
  backoff_multiplier : Double := ⟨0x4000000000000000⟩ -- 2.0
  jitter_factor : Double := ⟨0x3FB999999999999A⟩ -- 0.1
  max_attempts : UInt8 := 3
  retry_on_network_error : Bool := true
  retry_on_rate_limit : Bool := true
  retry_on_server_error : Bool := true
  deriving DecidableEq, Repr

/-! ## What is retried -/

/-- `should_retry` of a response. -/
def should_retry_response (response : HttpResponse) (policy : RetryPolicy) : Bool :=
  if response.status_code.toInt = 429 then policy.retry_on_rate_limit
  else if policy.retry_on_server_error ∧ 500 ≤ response.status_code.toInt
      ∧ response.status_code.toInt < 600 then true
  else false

/-- `should_retry` of an error. -/
def should_retry_error (error : Error) (policy : RetryPolicy) : Bool :=
  if policy.retry_on_network_error ∧ (error.code = .NetworkError ∨ error.code = .Timeout) then true
  else false

/-! ## The delay -/

/-- The loop of `calculate_retry_delay`: `n` multiplications, each capped. -/
def back_off (multiplier max_ms : ℚ) : ℕ → ℚ → ℚ
  | 0, delay_ms => delay_ms
  | n + 1, delay_ms => back_off multiplier max_ms n (min (delay_ms * multiplier) max_ms)

/-- `static_cast<std::int64_t>` of a double truncates towards zero. -/
def truncate (x : ℚ) : ℤ := if 0 ≤ x then ⌊x⌋ else ⌈x⌉

/-- `calculate_retry_delay`. `jitter` is what `jitter(rng)` yields, which is
asked for only when the spread is positive. -/
def calculate_retry_delay (attempt : UInt8) (policy : RetryPolicy) (jitter : ℚ) : ℤ :=
  let maximum := max policy.max_delay 0
  let max_ms : ℚ := maximum
  let delay_ms : ℚ := (max 0 (min policy.initial_delay maximum) : ℤ)
  let multiplier :=
    if policy.backoff_multiplier.isfinite then max policy.backoff_multiplier.toRat 0 else 1
  let delay_ms := back_off multiplier max_ms (attempt.toNat - 1) delay_ms
  let spread :=
    if policy.jitter_factor.isfinite then max 0 (min policy.jitter_factor.toRat 1) else 0
  let delay_ms := if 0 < spread then delay_ms * jitter else delay_ms
  if max_ms ≤ delay_ms then maximum else truncate delay_ms

/-! ## The loop -/

/-- What `with_retry` calls: the operation, `std::this_thread::sleep_for`, and
the random number generator. -/
structure RetryPort (σ : Type) where
  operation : Proc σ (Result HttpResponse)
  sleep_for : ℤ → Proc σ Unit
  jitter : Proc σ ℚ

/-- The error `with_retry` makes up itself. -/
def max_retry_error : Error := Error.network (text "Max retry attempts exceeded")

/-- The loop of `with_retry`, from a value of its counter on. The response and
the error path are separate, as in the source. -/
def with_retry_loop {σ : Type} (port : RetryPort σ) (policy : RetryPolicy) :
    ℕ → UInt8 → Proc σ (Result HttpResponse)
  | 0, _ => Proc.running
  | fuel + 1, attempt =>
    if attempt ≤ policy.max_attempts then do
      let result ← port.operation
      match result with
      -- `attempt < policy.max_attempts` guards both `continue` statements
      | .ok response =>
        if should_retry_response response policy ∧ attempt < policy.max_attempts then do
          let jitter ← port.jitter
          port.sleep_for (calculate_retry_delay attempt policy jitter)
          with_retry_loop port policy fuel (attempt + 1)
        else pure result
      | .error error =>
        if should_retry_error error policy ∧ attempt < policy.max_attempts then do
          let jitter ← port.jitter
          port.sleep_for (calculate_retry_delay attempt policy jitter)
          with_retry_loop port policy fuel (attempt + 1)
        else pure result
    -- behind the loop: reached only when no attempt is allowed
    else pure (.error max_retry_error)

def with_retry {σ : Type} (port : RetryPort σ) (policy : RetryPolicy) (fuel : ℕ) :
    Proc σ (Result HttpResponse) :=
  with_retry_loop port policy fuel 1

/-- `class RetryingClient`, of a transport whose `get` is `client_`. -/
structure RetryingClient (σ : Type) where
  client_ : Bytes → Proc σ (Result HttpResponse)
  policy_ : RetryPolicy := {}

/-- The port of the process a `RetryingClient` runs in, around one of its calls. -/
def RetryingClient.get {σ : Type} (client : RetryingClient σ) (sleep_for : ℤ → Proc σ Unit)
    (jitter : Proc σ ℚ) (path : Bytes) (fuel : ℕ) : Proc σ (Result HttpResponse) :=
  with_retry ⟨client.client_ path, sleep_for, jitter⟩ client.policy_ fuel

end OpenMeteo
