/-
`acquire`, `acquire_for` and `acquire_until` as programs of one thread.

The loop of `acquire_until` has no bound in the source, so it is given fuel.
Each call of `Clock::now()` outside the mutex is a step of its own; the
readings inside `take_or_wait_time` belong to its locked section.
-/
import OpenMeteo.RateLimitBucket
import OpenMeteo.Lib.Process

set_option autoImplicit false

namespace OpenMeteo.RateLimiter

/-- What the blocking functions call: the locked section, `Clock::now()`, and
`std::this_thread::sleep_for`, in nanoseconds. -/
structure Port (σ : Type) where
  take_or_wait_time : Proc σ (Option ℤ)
  now : Proc σ ℤ
  sleep_for : ℤ → Proc σ Unit

variable {σ : Type}

def acquire_until (port : Port σ) (deadline : Option ℤ) : ℕ → Proc σ Bool
  | 0 => Proc.running
  | fuel + 1 => do
    let wait ← port.take_or_wait_time
    -- the mutex is released here
    match wait with
    | none => pure true
    | some wait =>
      match deadline with
      | some _ => do
        let now ← port.now
        if past_deadline deadline wait now then pure false
        else do
          port.sleep_for wait
          acquire_until port deadline fuel
      | none => do
        port.sleep_for wait
        acquire_until port deadline fuel

def acquire_for (port : Port σ) (max_wait : ℤ) (fuel : ℕ) : Proc σ Bool := do
  let now ← port.now
  acquire_until port (some (acquire_deadline max_wait now)) fuel

def acquire (port : Port σ) (config : Config) (fuel : ℕ) : Proc σ Bool :=
  match config.max_wait with
  | some max_wait => acquire_for port max_wait fuel
  | none => acquire_until port none fuel

/-- **The rule of the blocking functions.** An invariant that the steps of the
port keep is kept by every prefix of a call, and what a take that got its token
leaves holds when the call returns `true`. By induction on the fuel. -/
theorem acquire_until_rule {port : Port σ} {I T : σ → Prop}
    (htake : ∀ w, I w → port.take_or_wait_time.Ensures w fun r w' => I w' ∧ (r = some none → T w'))
    (hnow : Proc.Keeps I port.now) (hsleep : ∀ d, Proc.Keeps I (port.sleep_for d))
    (deadline : Option ℤ) (fuel : ℕ) : ∀ w, I w →
      (acquire_until port deadline fuel).Ensures w fun r w' => I w' ∧ (r = some true → T w') := by
  induction fuel with
  | zero => exact fun w hw => ⟨hw, fun h => by cases h⟩
  | succ fuel ih =>
    intro w hw
    have hagain : ∀ wait w', I w' →
        (port.sleep_for wait >>= fun _ => acquire_until port deadline fuel).Ensures w'
          fun r w' => I w' ∧ (r = some true → T w') := fun wait w' hw' =>
      Proc.Ensures.bind (P := fun _ w₁ => I w₁) (hsleep wait w' hw') (fun _ w₁ hw₁ => ih w₁ hw₁)
        fun w₁ hw₁ => ⟨hw₁, fun h => by cases h⟩
    refine Proc.Ensures.bind (htake w hw) ?_ fun w' hw' => ⟨hw'.1, fun h => by cases h⟩
    -- a token ends the call; without one it sleeps, or gives up at its deadline
    rintro (_ | wait) w' ⟨hw', hgot⟩
    · exact ⟨hw', fun _ => hgot rfl⟩
    · cases deadline with
      | none => exact hagain wait w' hw'
      | some d =>
        refine Proc.Ensures.bind (P := fun _ w₁ => I w₁) (hnow w' hw') (fun now w₁ hw₁ => ?_)
          fun w₁ hw₁ => ⟨hw₁, fun h => by cases h⟩
        split
        · exact ⟨hw₁, fun h => by cases h⟩
        · exact hagain wait w₁ hw₁

theorem acquire_rule {port : Port σ} {I T : σ → Prop}
    (htake : ∀ w, I w → port.take_or_wait_time.Ensures w fun r w' => I w' ∧ (r = some none → T w'))
    (hnow : Proc.Keeps I port.now) (hsleep : ∀ d, Proc.Keeps I (port.sleep_for d))
    (config : Config) (fuel : ℕ) (w : σ) (hw : I w) :
    (acquire port config fuel).Ensures w fun r w' => I w' ∧ (r = some true → T w') := by
  unfold acquire
  split
  · refine Proc.Ensures.bind (P := fun _ w₁ => I w₁) (hnow w hw) (fun now w₁ hw₁ => ?_)
      fun w₁ hw₁ => ⟨hw₁, fun h => by cases h⟩
    exact acquire_until_rule htake hnow hsleep _ fuel w₁ hw₁
  · exact acquire_until_rule htake hnow hsleep none fuel w hw

end OpenMeteo.RateLimiter
