/-
The mutex of the limiter is always released.

No locked section waits for anything: it makes at most ten accesses and readings, and
`sleep_for` comes behind it. So a thread that holds the mutex is never stuck, releases it
by its eleventh step whatever the others do, and no thread is kept from its next result
by more than one section of another one.
-/
import OpenMeteo.RateLimitLocked

set_option autoImplicit false

namespace OpenMeteo.RateLimiter

open Mutex (Critical Fine Tick gets)
open Mutex.Critical (within_pure within_clock within_fetch within_put)

/-! ## How long the sections are -/

variable {config : Config}

theorem Section.refill_within : (Section.refill config).Within 7 := by
  unfold Section.refill Section.store_tokens Section.store_last_refill
  refine within_clock.bind fun now => Critical.Within.bind (m := 5) (within_fetch _) fun tokens => ?_
  split
  · exact (within_put _).mono (by decide)
  · refine Critical.Within.bind (m := 4) (within_fetch _) fun last_refill => ?_
    dsimp only
    split
    · exact trivial
    · refine Critical.Within.bind (m := 3) (within_fetch _) fun tokens => ?_
      split
      · exact ((within_put _).bind fun _ => within_put _).mono (by decide)
      · exact (within_put _).bind fun _ => (within_fetch _).bind fun _ => within_put _

theorem Section.take_within : (Section.take_or_wait_time config).Within 10 := by
  unfold Section.take_or_wait_time Section.store_tokens
  refine Section.refill_within.bind fun _ => Critical.Within.bind (m := 2) (within_fetch _) ?_
  intro tokens
  split
  · exact (within_fetch _).bind fun _ => (within_put _).bind fun _ => within_pure _
  · exact within_clock.bind fun _ => (within_fetch _).bind fun _ => within_pure _

/-- **Every section is short.** -/
theorem Section.bounded : (locked config).Bounded 10 := by
  intro place action code hcode
  unfold locked at hcode
  dsimp only at hcode
  split at hcode
  · cases hcode
    exact (Section.take_within.bind fun _ => within_pure _).bind fun _ => within_pure _
  · cases hcode
    unfold Section.available_tokens
    refine Critical.Within.mono (n := 3) ?_ (by decide)
    exact (within_clock.bind fun _ => (within_fetch _).bind fun _ =>
      (within_fetch _).bind fun _ => within_pure _).bind fun _ => within_pure _
  · cases hcode
    unfold Section.reset Section.store_tokens Section.store_last_refill
    refine Critical.Within.mono (n := 3) ?_ (by decide)
    exact ((within_put _).bind fun _ => within_clock.bind fun _ => within_put _).bind
      fun _ => within_pure _
  · cases hcode
    refine Critical.Within.bind (m := 0) Section.take_within fun wait => ?_
    cases wait with
    | none => exact within_pure _
    | some wait => exact within_pure _
  · cases hcode

/-- Wherever a thread stands, it can do something. -/
theorem locked_moves (config : Config) (place : Thread) (time : ℤ) :
    (∃ a, ((locked config).free place a time).isSome)
      ∨ ∃ a, ((locked config).guarded place a).isSome := by
  cases place with
  | idle => exact Or.inl ⟨.acquire_for 0, rfl⟩
  | looping deadline => exact Or.inr ⟨.attempt, rfl⟩
  | waiting deadline wait =>
    refine Or.inl ⟨.settle, ?_⟩
    unfold locked
    dsimp only
    split <;> rfl

/-! ## Every interleaving -/

/-- **The mutex is always released.** Stop any run of the accesses of any number of
threads anywhere. Then every thread can have its next result, at any time and within 23
further steps of its own and of the thread in whose section the run stopped. And in
every way to go on, that thread has its result, and the mutex is released, by its
eleventh step, whatever the others do meanwhile. -/
theorem always_released (config : Config) (start : ℤ) (ticks : List (Tick ℕ Action ℤ))
    (trace : List (Tick ℕ Action ℤ × Option Outcome)) (here : Fine ℕ Thread Fields ℤ Outcome)
    (hrun : (locked_new config start).run (locked (sanitized config)) ticks = some (trace, here)) :
    (∀ (thread : ℕ) (time : ℤ), ∃ more rest final,
        here.run (locked (sanitized config)) more = some (rest, final) ∧ more.length ≤ 23
          ∧ (∀ tick ∈ more, tick.time = time
            ∧ (tick.thread = thread ∨ here.holder.map Prod.fst = some tick.thread))
          ∧ gets thread rest ≠ [])
      ∧ ∀ (thread : ℕ), here.holder.map Prod.fst = some thread → ∀ more rest final,
          here.run (locked (sanitized config)) more = some (rest, final) →
          10 < more.countP (fun tick => tick.thread = thread) → gets thread rest ≠ [] := by
  have hbegin : (locked_new config start).Left 10 := by
    intro thread left hholder
    cases hholder
  have hleft := Fine.run_left Section.bounded ticks hbegin hrun
  refine ⟨fun thread time => ?_, ?_⟩
  · exact Fine.no_thread_stuck Section.bounded hleft thread time
      (locked_moves (sanitized config) (here.places thread) time)
  · intro thread hthread more rest final hmore hcount
    obtain ⟨⟨holder, left⟩, hholder, rfl⟩ := Option.map_eq_some_iff.mp hthread
    exact Fine.released more hholder (hleft holder left hholder) hmore hcount

/-- One thread has read the clock in its section when another one begins to acquire. -/
theorem always_released_overtaken :
    ∃ here, (locked_new {} 0).run (locked (sanitized {}))
          [⟨0, .lock .try_acquire, 1⟩, ⟨0, .read, 2⟩, ⟨1, .free .acquire, 3⟩]
        = some ([(⟨0, .lock .try_acquire, 1⟩, none), (⟨0, .read, 2⟩, none),
            (⟨1, .free .acquire, 3⟩, some .started)], here)
      ∧ ∃ more rest final, here.run (locked (sanitized {})) more = some (rest, final)
        ∧ more.length ≤ 23 ∧ gets 1 rest ≠ [] := by
  refine ⟨_, rfl, ?_⟩
  obtain ⟨more, rest, final, hrun, hlength, -, hgets⟩ := (always_released {} 0
    [⟨0, .lock .try_acquire, 1⟩, ⟨0, .read, 2⟩, ⟨1, .free .acquire, 3⟩] _ _ rfl).1 1 4
  exact ⟨more, rest, final, hrun, hlength, hgets⟩

end OpenMeteo.RateLimiter
