/-
`with_retry` is bounded retry.

`bounded_retry` says what the loop is for: try, and while the outcome is
retryable and attempts remain, sleep and try again. It counts the attempts that
remain, in natural numbers, so it ends by its own structure and there is no
counter that could wrap. `with_retry_loop_eq` is the refinement, and with it
the termination of the 8-bit loop: at `max_attempts = 255` the comparison
`attempt <= max_attempts` never fails, and what ends the loop is that both
`continue` statements are guarded by `attempt < max_attempts`.

The rules behind it are what the client's results rest on: what the parts of a
port keep, cost or mirror, the loop does, and what it returns is the outcome of
one of its attempts.
-/
import Mathlib.Tactic.Linarith
import Mathlib.Tactic.Positivity
import Mathlib.Tactic.Ring
import OpenMeteo.Retry

set_option autoImplicit false

namespace OpenMeteo

/-- Whether the policy retries an outcome. -/
def retryable (policy : RetryPolicy) : Result HttpResponse → Bool
  | .ok response => should_retry_response response policy
  | .error error => should_retry_error error policy

/-- Retry with `remaining` attempts left after this one, the `attempt`-th. -/
def bounded_retry {σ : Type} (port : RetryPort σ) (policy : RetryPolicy) :
    ℕ → ℕ → Proc σ (Result HttpResponse)
  | 0, _ => port.operation
  | remaining + 1, attempt => do
    let result ← port.operation
    if retryable policy result then do
      let jitter ← port.jitter
      port.sleep_for (calculate_retry_delay (UInt8.ofNat attempt) policy jitter)
      bounded_retry port policy remaining (attempt + 1)
    else pure result

/-! ## The refinement -/

/-- One iteration of the loop, with the two paths joined again. -/
theorem with_retry_loop_succ {σ : Type} (port : RetryPort σ) (policy : RetryPolicy) (fuel : ℕ)
    (attempt : UInt8) (h : attempt ≤ policy.max_attempts) :
    with_retry_loop port policy (fuel + 1) attempt = port.operation >>= fun result =>
      if retryable policy result ∧ attempt < policy.max_attempts then
        port.jitter >>= fun jitter =>
          port.sleep_for (calculate_retry_delay attempt policy jitter) >>= fun _ =>
            with_retry_loop port policy fuel (attempt + 1)
      else pure result := by
  rw [with_retry_loop, if_pos h]
  congr 1
  funext result
  cases result <;> rfl

/-- **The loop refines bounded retry**, by induction on the attempts that remain.
The fuel it takes is one more than these, and where the counter is incremented
it is below `max_attempts`, so the increment is exact. -/
theorem with_retry_loop_eq {σ : Type} (port : RetryPort σ) (policy : RetryPolicy) (remaining : ℕ) :
    ∀ (fuel : ℕ) (attempt : UInt8), attempt.toNat + remaining = policy.max_attempts.toNat →
      remaining < fuel →
      with_retry_loop port policy fuel attempt
        = bounded_retry port policy remaining attempt.toNat := by
  induction remaining with
  | zero =>
    intro fuel attempt hcount hfuel
    obtain ⟨fuel, rfl⟩ : ∃ n, fuel = n + 1 := ⟨fuel - 1, by omega⟩
    have hle : attempt ≤ policy.max_attempts := UInt8.le_iff_toNat_le.mpr (by omega)
    -- the last attempt: the guard fails, whatever the outcome
    have hlast : ¬ attempt < policy.max_attempts := by
      rw [UInt8.lt_iff_toNat_lt]
      omega
    rw [with_retry_loop_succ port policy fuel attempt hle]
    simp only [hlast, and_false, if_false]
    exact Proc.bind_pure port.operation
  | succ remaining ih =>
    intro fuel attempt hcount hfuel
    obtain ⟨fuel, rfl⟩ : ∃ n, fuel = n + 1 := ⟨fuel - 1, by omega⟩
    have hlt : attempt < policy.max_attempts := UInt8.lt_iff_toNat_lt.mpr (by omega)
    have hle : attempt ≤ policy.max_attempts := UInt8.le_iff_toNat_le.mpr (by omega)
    have hmax : policy.max_attempts.toNat < 256 := policy.max_attempts.toNat_lt
    -- the counter is below `max_attempts`, so it is not 255
    have hsucc : (attempt + 1).toNat = attempt.toNat + 1 := by
      rw [UInt8.toNat_add]
      exact Nat.mod_eq_of_lt (by change attempt.toNat + 1 < 256; omega)
    have hrest := ih fuel (attempt + 1) (by omega) (by omega)
    rw [with_retry_loop_succ port policy fuel attempt hle, bounded_retry, hrest, hsucc,
      UInt8.ofNat_toNat]
    simp only [hlt, and_true]

/-- `with_retry` with at least one attempt is bounded retry. -/
theorem with_retry_eq {σ : Type} (port : RetryPort σ) (policy : RetryPolicy) (fuel : ℕ)
    (hmax : 0 < policy.max_attempts.toNat) (hfuel : policy.max_attempts.toNat < fuel) :
    with_retry port policy fuel
      = bounded_retry port policy (policy.max_attempts.toNat - 1) 1 := by
  have h1 : (1 : UInt8).toNat = 1 := rfl
  exact with_retry_loop_eq port policy (policy.max_attempts.toNat - 1) fuel 1 (by omega) (by omega)

/-- `with_retry` without attempts calls nothing. -/
theorem with_retry_zero {σ : Type} (port : RetryPort σ) (policy : RetryPolicy) (fuel : ℕ)
    (hmax : policy.max_attempts.toNat = 0) :
    with_retry port policy (fuel + 1) = pure (.error max_retry_error) := by
  have h1 : (1 : UInt8).toNat = 1 := rfl
  rw [with_retry, with_retry_loop, if_neg]
  rw [UInt8.le_iff_toNat_le]
  omega

/-- A `RetryingClient` retries the `get` of its client within its own policy. -/
theorem retrying_client_get {σ : Type} (client : RetryingClient σ) (sleep_for : ℤ → Proc σ Unit)
    (jitter : Proc σ ℚ) (path : Bytes) (fuel : ℕ)
    (hfuel : client.policy_.max_attempts.toNat < fuel) :
    client.get sleep_for jitter path fuel
      = if client.policy_.max_attempts.toNat = 0 then pure (.error max_retry_error)
        else bounded_retry ⟨client.client_ path, sleep_for, jitter⟩ client.policy_
          (client.policy_.max_attempts.toNat - 1) 1 := by
  split
  · next hzero =>
    obtain ⟨fuel, rfl⟩ : ∃ n, fuel = n + 1 := ⟨fuel - 1, by omega⟩
    exact with_retry_zero _ _ fuel hzero
  · next hne => exact with_retry_eq _ _ fuel (Nat.pos_of_ne_zero hne) hfuel

/-! ## Rules of the loop

What its parts keep, return, cost or mirror, the loop does too. -/

section Rules

variable {σ : Type}

/-- Bounded retry returns when everything it calls does. -/
theorem bounded_retry_returns {port : RetryPort σ} (policy : RetryPolicy)
    (hop : port.operation.Returns) (hsleep : ∀ d, (port.sleep_for d).Returns)
    (hjitter : port.jitter.Returns) (remaining : ℕ) :
    ∀ attempt, (bounded_retry port policy remaining attempt).Returns := by
  induction remaining with
  | zero => exact fun _ => hop
  | succ remaining ih =>
    intro attempt
    refine hop.bind fun result => ?_
    split
    · exact hjitter.bind fun _ => (hsleep _).bind fun _ => ih (attempt + 1)
    · exact Proc.Returns.pure result

/-- What every call keeps is kept by all of them. -/
theorem bounded_retry_keeps {port : RetryPort σ} {I : σ → Prop} (policy : RetryPolicy)
    (hop : Proc.Keeps I port.operation) (hsleep : ∀ d, Proc.Keeps I (port.sleep_for d))
    (hjitter : Proc.Keeps I port.jitter) (remaining : ℕ) :
    ∀ attempt, Proc.Keeps I (bounded_retry port policy remaining attempt) := by
  induction remaining with
  | zero => exact fun _ => hop
  | succ remaining ih =>
    intro attempt
    refine hop.bind fun result => ?_
    split
    · exact hjitter.bind fun _ => (hsleep _).bind fun _ => ih (attempt + 1)
    · exact fun _ h => h

/-- Every attempt costs one operation, and all but the last a delay, by induction on the
attempts that remain. -/
theorem bounded_retry_spends {I : σ → Prop} {m : σ → ℤ} {c d : ℤ} {port : RetryPort σ}
    {policy : RetryPolicy} (hoperation : Proc.Spends I m c port.operation)
    (hsleep : ∀ attempt jitter,
      Proc.Spends I m d (port.sleep_for (calculate_retry_delay attempt policy jitter)))
    (hjitter : Proc.Spends I m 0 port.jitter) (hc : 0 ≤ c) (hd : 0 ≤ d) (remaining : ℕ) :
    ∀ attempt, Proc.Spends I m ((remaining + 1) * c + remaining * d)
      (bounded_retry port policy remaining attempt) := by
  induction remaining with
  | zero =>
    intro attempt
    exact hoperation.mono (by push_cast; linarith)
  | succ remaining ih =>
    intro attempt
    have hrest : 0 ≤ (remaining + 1) * c + remaining * d := by positivity
    have hmore : c + (0 + (d + ((remaining + 1) * c + remaining * d)))
        = ((remaining + 1 : ℕ) + 1) * c + (remaining + 1 : ℕ) * d := by
      push_cast
      ring
    rw [← hmore]
    refine hoperation.bind fun result => ?_
    split
    · exact hjitter.bind fun jitter => (hsleep _ jitter).bind fun _ => ih (attempt + 1)
    · exact (Proc.Spends.pure result).mono (by linarith)

/-- A port that does what another does, in a world with something added to it. -/
structure RetryPort.Mirrors {τ : Type} (port' : RetryPort (σ × τ)) (port : RetryPort σ) :
    Prop where
  operation : Proc.Mirrors port'.operation port.operation
  sleep_for : ∀ delay, Proc.Mirrors (port'.sleep_for delay) (port.sleep_for delay)
  jitter : Proc.Mirrors port'.jitter port.jitter

/-- Retrying what mirrors, mirrors, with any fuel, by induction on it. -/
theorem with_retry_loop_mirrors {τ : Type} {port' : RetryPort (σ × τ)} {port : RetryPort σ}
    (h : port'.Mirrors port) (policy : RetryPolicy) (fuel : ℕ) :
    ∀ attempt, Proc.Mirrors (with_retry_loop port' policy fuel attempt)
      (with_retry_loop port policy fuel attempt) := by
  induction fuel with
  | zero => exact fun attempt w => ⟨rfl, rfl⟩
  | succ fuel ih =>
    intro attempt
    by_cases hallowed : attempt ≤ policy.max_attempts
    · rw [with_retry_loop_succ _ _ _ _ hallowed, with_retry_loop_succ _ _ _ _ hallowed]
      refine h.operation.bind fun result => ?_
      split
      · refine h.jitter.bind fun jitter => ?_
        exact (h.sleep_for _).bind fun _ => ih (attempt + 1)
      · exact Proc.Mirrors.pure result
    · rw [with_retry_loop, with_retry_loop, if_neg hallowed, if_neg hallowed]
      exact Proc.Mirrors.pure _

theorem with_retry_mirrors {τ : Type} {port' : RetryPort (σ × τ)} {port : RetryPort σ}
    (h : port'.Mirrors port) (policy : RetryPolicy) (fuel : ℕ) :
    Proc.Mirrors (with_retry port' policy fuel) (with_retry port policy fuel) :=
  with_retry_loop_mirrors h policy fuel 1

/-! ### The attempt a result comes from -/

/-- In a run from `w`, the attempt of this number begins in this world: every attempt
before it came to something that is retried, and a delay was drawn and slept. -/
inductive RetryPort.Begins (port : RetryPort σ) (policy : RetryPolicy) (w : σ) : ℕ → σ → Prop
  | first : Begins port policy w 1 w
  | again {attempt : ℕ} {w₁ w₂ w₃ w₄ : σ} {result : Result HttpResponse} {jitter : ℚ} :
      Begins port policy w attempt w₁ → port.operation w₁ = (some result, w₂) →
      retryable policy result = true → port.jitter w₂ = (some jitter, w₃) →
      port.sleep_for (calculate_retry_delay (UInt8.ofNat attempt) policy jitter) w₃
        = (some (), w₄) →
      Begins port policy w (attempt + 1) w₄

/-- **Bounded retry ends with its last attempt**, on the outcome and in the world of its
operation, by induction on the attempts that remain. -/
theorem bounded_retry_outcome {port : RetryPort σ} {policy : RetryPolicy} {w₀ w' : σ}
    {result : Result HttpResponse} (remaining : ℕ) :
    ∀ {attempt : ℕ} {w : σ}, port.Begins policy w₀ attempt w →
      bounded_retry port policy remaining attempt w = (some result, w') →
      ∃ n ≤ attempt + remaining, ∃ w₁, port.Begins policy w₀ n w₁
        ∧ port.operation w₁ = (some result, w') := by
  induction remaining with
  | zero => exact fun {attempt w} hbegins hrun => ⟨attempt, le_refl _, w, hbegins, hrun⟩
  | succ remaining ih =>
    intro attempt w hbegins hrun
    obtain ⟨result₁, w₁, hop, hrest⟩ := Proc.bind_returned hrun
    split at hrest
    · next hretry =>
      obtain ⟨jitter, w₂, hjitter, hslept⟩ := Proc.bind_returned hrest
      obtain ⟨⟨⟩, w₃, hsleep, hagain⟩ := Proc.bind_returned hslept
      obtain ⟨n, hn, hlast⟩ := ih (hbegins.again hop hretry hjitter hsleep) hagain
      exact ⟨n, by omega, hlast⟩
    · cases hrest
      exact ⟨attempt, Nat.le_add_right _ _, w, hbegins, hop⟩

/-- Where the `n`-th call of an operation has the outcome `o n`: bounded retry returns the
first outcome that is not retried, if the attempts last, by induction on those before
it. -/
theorem bounded_retry_until {port : RetryPort σ} {policy : RetryPolicy} {I : σ → Prop}
    {count : σ → ℕ} {o : ℕ → Result HttpResponse}
    (hoperation : ∀ w, I w → ∃ w', port.operation w = (some (o (count w)), w')
      ∧ count w' = count w + 1 ∧ I w')
    (hsleep : ∀ delay w, I w → ∃ w', port.sleep_for delay w = (some (), w')
      ∧ count w' = count w ∧ I w')
    (hjitter : ∀ w, I w → ∃ draw w', port.jitter w = (some draw, w') ∧ count w' = count w ∧ I w')
    (k : ℕ) :
    ∀ (remaining attempt : ℕ) (w : σ), I w → k ≤ remaining →
      (∀ i < k, retryable policy (o (count w + i)) = true) →
      retryable policy (o (count w + k)) = false →
      ∃ w', bounded_retry port policy remaining attempt w = (some (o (count w + k)), w')
        ∧ count w' = count w + k + 1 := by
  induction k with
  | zero =>
    intro remaining attempt w hw _ _ hlast
    obtain ⟨w', hrun, hcount, -⟩ := hoperation w hw
    refine ⟨w', ?_, hcount⟩
    cases remaining with
    | zero => exact hrun
    | succ remaining =>
      rw [Nat.add_zero] at hlast
      rw [bounded_retry, Proc.bind_run hrun, hlast]
      rfl
  | succ k ih =>
    intro remaining attempt w hw hle hretried hlast
    obtain ⟨remaining, rfl⟩ : ∃ n, remaining = n + 1 := ⟨remaining - 1, by omega⟩
    obtain ⟨w₁, hrun₁, hcount₁, hw₁⟩ := hoperation w hw
    obtain ⟨draw, w₂, hrun₂, hcount₂, hw₂⟩ := hjitter w₁ hw₁
    obtain ⟨w₃, hrun₃, hcount₃, hw₃⟩ :=
      hsleep (calculate_retry_delay (UInt8.ofNat attempt) policy draw) w₂ hw₂
    -- from here on the outcomes are counted from the next call
    have hcount : count w₃ = count w + 1 := hcount₃.trans (hcount₂.trans hcount₁)
    have hshift : ∀ i, count w₃ + i = count w + (i + 1) := fun i => by omega
    have hretry : retryable policy (o (count w)) = true := hretried 0 (Nat.succ_pos k)
    obtain ⟨w', hrun, hcount'⟩ := ih remaining (attempt + 1) w₃ hw₃ (Nat.le_of_succ_le_succ hle)
      (fun i hi => by rw [hshift]; exact hretried (i + 1) (Nat.succ_lt_succ hi))
      (by rw [hshift]; exact hlast)
    refine ⟨w', ?_, by omega⟩
    rw [bounded_retry, Proc.bind_run hrun₁, if_pos hretry, Proc.bind_run hrun₂,
      Proc.bind_run hrun₃, hrun, hshift]

end Rules

/-! ## What a call does, outcome by outcome

The operation is a script of outcomes `o 1`, `o 2`, …, and the world records
what `with_retry` did. -/

inductive RetryEvent
  | called
  | slept (delay : ℤ)
  deriving DecidableEq, Repr

/-- How often the operation was called, and the calls and sleeps in order. -/
structure RetryRecord where
  calls : ℕ := 0
  trace : List RetryEvent := []
  deriving DecidableEq, Repr

/-- Outcome `o i` for the `i`-th call, and draw `j i` for the `i`-th delay. -/
def script (o : ℕ → Result HttpResponse) (j : ℕ → ℚ) : RetryPort RetryRecord where
  operation := fun w => (some (o (w.calls + 1)), ⟨w.calls + 1, w.trace ++ [.called]⟩)
  sleep_for := fun delay w => (some (), ⟨w.calls, w.trace ++ [.slept delay]⟩)
  jitter := fun w => (some (j w.calls), w)

/-- `n` is the least index up to the bound whose outcome is not retryable, or
the bound where there is none; indices below `from` are not looked at. -/
structure LastAttempt (policy : RetryPolicy) (o : ℕ → Result HttpResponse) (first bound n : ℕ) :
    Prop where
  first_le : first ≤ n
  le_bound : n ≤ bound
  before : ∀ k, first ≤ k → k < n → retryable policy (o k) = true
  last : retryable policy (o n) = true → n = bound

/-- The record of attempts `first`, …, `first + more`: between two calls, one
sleep for the delay of the call before it. -/
def attempts_trace (policy : RetryPolicy) (j : ℕ → ℚ) (first more : ℕ) : List RetryEvent :=
  .called :: (List.range more).flatMap fun i =>
    [.slept (calculate_retry_delay (UInt8.ofNat (first + i)) policy (j (first + i))), .called]

theorem attempts_trace_succ (policy : RetryPolicy) (j : ℕ → ℚ) (first more : ℕ) :
    attempts_trace policy j first (more + 1)
      = [.called, .slept (calculate_retry_delay (UInt8.ofNat first) policy (j first))]
        ++ attempts_trace policy j (first + 1) more := by
  have hshift : ∀ i, first + Nat.succ i = first + 1 + i := fun i => by omega
  simp only [attempts_trace, List.range_succ_eq_map, List.flatMap_cons, List.flatMap_map,
    List.cons_append, List.nil_append]
  rw [Nat.add_zero]
  refine congrArg (List.cons _ <| List.cons _ <| List.cons _ ·) ?_
  refine List.flatMap_congr fun i _ => ?_
  rw [hshift i]

/-- A scripted run of bounded retry, by induction on the attempts that remain. -/
theorem bounded_retry_script (policy : RetryPolicy) (o : ℕ → Result HttpResponse) (j : ℕ → ℚ)
    (remaining : ℕ) : ∀ (first : ℕ) (trace : List RetryEvent), 1 ≤ first →
      ∃ n, LastAttempt policy o first (first + remaining) n
        ∧ bounded_retry (script o j) policy remaining first ⟨first - 1, trace⟩
          = (some (o n), ⟨n, trace ++ attempts_trace policy j first (n - first)⟩) := by
  induction remaining with
  | zero =>
    intro first trace hfirst
    refine ⟨first, ⟨le_refl _, le_refl _, by omega, fun _ => rfl⟩, ?_⟩
    have hcall : first - 1 + 1 = first := by omega
    simp only [bounded_retry, script, hcall, Nat.sub_self, attempts_trace, List.range_zero,
      List.flatMap_nil]
  | succ remaining ih =>
    intro first trace hfirst
    have hcall : first - 1 + 1 = first := by omega
    have hop : (script o j).operation ⟨first - 1, trace⟩
        = (some (o first), ⟨first, trace ++ [.called]⟩) := by
      simp only [script, hcall]
    rw [bounded_retry, Proc.bind_run hop]
    -- a retryable outcome is followed by one sleep, any other is the result
    by_cases hretry : retryable policy (o first) = true
    · set delay := calculate_retry_delay (UInt8.ofNat first) policy (j first) with hdelay
      obtain ⟨n, hn, hrun⟩ := ih (first + 1) (trace ++ [.called] ++ [.slept delay]) (by omega)
      refine ⟨n, ⟨by have := hn.first_le; omega, by have := hn.le_bound; omega, ?_, ?_⟩, ?_⟩
      · intro k hk hkn
        rcases Nat.lt_or_ge first k with hlt | hge
        · exact hn.before k hlt hkn
        · rw [le_antisymm hge hk]
          exact hretry
      · intro hlast
        have := hn.last hlast
        omega
      · have hjit : (script o j).jitter ⟨first, trace ++ [.called]⟩
            = (some (j first), ⟨first, trace ++ [.called]⟩) := rfl
        have hsleep : (script o j).sleep_for delay ⟨first, trace ++ [.called]⟩
            = (some (), ⟨first, trace ++ [.called] ++ [.slept delay]⟩) := rfl
        have hmore : n - first = n - (first + 1) + 1 := by
          have := hn.first_le
          omega
        rw [Nat.add_sub_cancel] at hrun
        rw [if_pos hretry, Proc.bind_run hjit, Proc.bind_run hsleep, hrun, hmore,
          attempts_trace_succ, ← hdelay]
        simp only [List.append_assoc, List.cons_append, List.nil_append]
    · refine ⟨first, ⟨le_refl _, by omega, by omega, fun h => absurd h hretry⟩, ?_⟩
      rw [if_neg hretry]
      simp only [Proc.pure_run, Nat.sub_self, attempts_trace, List.range_zero, List.flatMap_nil]

/-- **`with_retry` is exactly bounded retry.** With attempts allowed, and fuel
for one more than these, it is the loop with an unbounded counter; run on a
script of outcomes it stops at the first that is not retryable, or at the last
allowed, returns that outcome as it is, and sleeps between the calls. Without
attempts it touches nothing and returns its own error. A `RetryingClient` under
the policy does the same with the `get` of its client. -/
theorem with_retry_exact (policy : RetryPolicy) :
    (0 < policy.max_attempts.toNat → ∀ fuel, policy.max_attempts.toNat < fuel →
      (∀ (σ : Type) (port : RetryPort σ), with_retry port policy fuel
          = bounded_retry port policy (policy.max_attempts.toNat - 1) 1)
        ∧ ∀ (o : ℕ → Result HttpResponse) (j : ℕ → ℚ),
          ∃ n, LastAttempt policy o 1 policy.max_attempts.toNat n
            ∧ with_retry (script o j) policy fuel {}
              = (some (o n), ⟨n, attempts_trace policy j 1 (n - 1)⟩))
      ∧ (policy.max_attempts.toNat = 0 → ∀ fuel (σ : Type) (port : RetryPort σ) (w : σ),
          with_retry port policy (fuel + 1) w = (some (.error max_retry_error), w))
      ∧ ∀ (σ : Type) (client : RetryingClient σ) (sleep_for : ℤ → Proc σ Unit) (jitter : Proc σ ℚ)
          (path : Bytes) (fuel : ℕ), client.policy_ = policy → policy.max_attempts.toNat < fuel →
          client.get sleep_for jitter path fuel
            = if policy.max_attempts.toNat = 0 then pure (.error max_retry_error)
              else bounded_retry ⟨client.client_ path, sleep_for, jitter⟩ policy
                (policy.max_attempts.toNat - 1) 1 := by
  refine ⟨fun hmax fuel hfuel => ⟨fun σ port => with_retry_eq port policy fuel hmax hfuel,
    fun o j => ?_⟩, fun hmax fuel σ port w => ?_, ?_⟩
  · obtain ⟨n, hn, hrun⟩ :=
      bounded_retry_script policy o j (policy.max_attempts.toNat - 1) 1 [] (le_refl 1)
    rw [show 1 + (policy.max_attempts.toNat - 1) = policy.max_attempts.toNat by omega] at hn
    rw [List.nil_append] at hrun
    exact ⟨n, hn, by rw [with_retry_eq (script o j) policy fuel hmax hfuel]; exact hrun⟩
  · rw [with_retry_zero port policy fuel hmax]
    rfl
  · rintro σ client sleep_for jitter path fuel rfl hfuel
    exact retrying_client_get client sleep_for jitter path fuel hfuel

end OpenMeteo
