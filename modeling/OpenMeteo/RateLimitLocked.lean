/-
The limiter, one access at a time.

`RateLimitThreads.lean` takes a whole locked section in one step. Here the same
sections are written with every access to `tokens_` and `last_refill_` and every
call of `Clock::now()` as a step of its own, under one `std::mutex`, and any
number of threads interleave these steps. `config_` is never written and is read
without the mutex.

`accesses_linearizable` says that nothing is lost by the larger steps: a run of
accesses is a run of `System`, each section taken where it first reads the
clock. That this is the right point is due to `refill`, whose reading decides
what is earned; a section that waits for a token reads the clock once more, and
that reading only decides how long it waits.
-/
import OpenMeteo.Lib.Mutex
import OpenMeteo.RateLimitThreads

set_option autoImplicit false

namespace OpenMeteo.RateLimiter

open Mutex (Critical Locked Fine Atomic Tick linear gets gives)
open Mutex.Critical (clock fetch put)

/-! ## The guarded fields -/

/-- What the mutex guards. -/
structure Fields where
  tokens_ : UInt16
  last_refill_ : ℤ
  deriving DecidableEq, Repr

def fields (s : RateLimiter) : Fields := ⟨s.tokens_, s.last_refill_⟩

/-- The limiter with these fields. -/
def Fields.limiter (m : Fields) {config : Config} (hsane : config.Sane) : RateLimiter :=
  ⟨config, hsane, m.tokens_, m.last_refill_⟩

/-! ## The sections -/

namespace Section

def store_tokens (tokens : UInt16) : Critical Fields ℤ Unit :=
  put fun m => { m with tokens_ := tokens }

def store_last_refill (t : ℤ) : Critical Fields ℤ Unit :=
  put fun m => { m with last_refill_ := t }

def refill (config : Config) : Critical Fields ℤ Unit := do
  let now ← clock
  let tokens ← fetch Fields.tokens_
  if config.max_tokens ≤ tokens then
    store_last_refill now
  else
    let last_refill ← fetch Fields.last_refill_
    let earned := (to_ms (now - last_refill)).tdiv config.refill_interval
    if earned ≤ 0 then
      pure ()
    else
      let tokens ← fetch Fields.tokens_
      let total := (tokens.toNat : ℤ) + earned
      if (config.max_tokens.toNat : ℤ) ≤ total then
        store_tokens config.max_tokens
        store_last_refill now
      else
        store_tokens (UInt16.ofInt total)
        let last_refill ← fetch Fields.last_refill_
        store_last_refill (last_refill + earned * config.refill_interval * ns_per_ms)

def take_or_wait_time (config : Config) : Critical Fields ℤ (Option ℤ) := do
  refill config
  let tokens ← fetch Fields.tokens_
  if 0 < tokens then
    let tokens ← fetch Fields.tokens_
    store_tokens (tokens - 1)
    pure none
  else
    let interval :=
      if to_ms duration_max ≤ config.refill_interval then duration_max
      else config.refill_interval * ns_per_ms
    let now ← clock
    let last_refill ← fetch Fields.last_refill_
    pure (some (max (interval - (now - last_refill)) 0))

def try_acquire (config : Config) : Critical Fields ℤ Bool := do
  let wait ← take_or_wait_time config
  pure wait.isNone

def available_tokens (config : Config) : Critical Fields ℤ UInt16 := do
  let now ← clock
  let last_refill ← fetch Fields.last_refill_
  let earned := (to_ms (now - last_refill)).tdiv config.refill_interval
  let tokens ← fetch Fields.tokens_
  pure (UInt16.ofInt (min ((tokens.toNat : ℤ) + max earned 0) config.max_tokens.toNat))

def reset (config : Config) : Critical Fields ℤ Unit := do
  store_tokens config.initial_tokens
  let now ← clock
  store_last_refill now

end Section

/-- What a thread can do at its place, with the mutex and without. -/
def locked (config : Config) : Locked Thread Action Fields ℤ Outcome where
  guarded
    | .idle, .try_acquire => some do
      let acquired ← Section.try_acquire config
      pure (if acquired then .granted else .refused, .idle)
    | .idle, .available_tokens => some do
      let count ← Section.available_tokens config
      pure (.available count, .idle)
    | .idle, .reset => some do
      Section.reset config
      pure (.done, .idle)
    | .looping deadline, .attempt => some do
      let wait ← Section.take_or_wait_time config
      match wait with
      | none => pure (.granted, .idle)
      | some wait => pure (.missed, .waiting deadline wait)
    | _, _ => none
  free
    | .idle, .acquire, now =>
      match config.max_wait with
      | some max_wait => some (.started, .looping (some (acquire_deadline max_wait now)))
      | none => some (.started, .looping none)
    | .idle, .acquire_for max_wait, now =>
      some (.started, .looping (some (acquire_deadline max_wait now)))
    | .waiting deadline wait, .settle, now =>
      if past_deadline deadline wait now then some (.refused, .idle)
      else some (.slept, .looping deadline)
    | _, _, _ => none

/-- A new limiter, which no thread has locked. -/
def locked_new (config : Config) (now : ℤ) : Fine ℕ Thread Fields ℤ Outcome :=
  ⟨(new config now).fields, none, fun _ => .idle⟩

/-! ## A section run at once -/

variable {config : Config} {m m' : Fields} {now : ℤ} {es : List ℤ}

theorem Section.refill_run (hsane : config.Sane) :
    (Section.refill config).run m (now :: es)
      = some ((), ((m.limiter hsane).refill now).fields, es) := by
  unfold Section.refill
  simp only [Critical.run_bind, Critical.run_clock, Critical.run_fetch, Option.bind_some]
  unfold RateLimiter.refill RateLimiter.earned Fields.limiter
  dsimp only
  -- full, nothing earned, saturating and partial
  split
  · rfl
  · simp only [Critical.run_bind, Critical.run_fetch, Option.bind_some]
    split
    · rfl
    · simp only [Critical.run_bind, Critical.run_fetch, Option.bind_some]
      split <;> rfl

/-- The section that takes or waits. A token taken leaves no second reading. -/
theorem Section.take_run (hsane : config.Sane) {wait : Option ℤ}
    (hrun : (Section.take_or_wait_time config).run m (now :: es) = some (wait, m', [])) :
    (m.limiter hsane).take_or_wait_time now (es.headD now) = (wait, m'.limiter hsane) := by
  unfold Section.take_or_wait_time at hrun
  rw [Critical.run_bind, Section.refill_run hsane, Option.bind_some] at hrun
  unfold RateLimiter.take_or_wait_time
  dsimp only
  have hconf : ((m.limiter hsane).refill now).config_ = config := refill_config _ _
  -- from here on the refilled limiter is all that matters
  generalize (m.limiter hsane).refill now = r at hrun hconf ⊢
  subst hconf
  simp only [Critical.run_bind, Critical.run_fetch, Option.bind_some] at hrun
  by_cases hpos : 0 < r.tokens_
  · rw [if_pos (show 0 < r.fields.tokens_ from hpos)] at hrun
    rw [if_pos hpos]
    cases hrun
    rfl
  · rw [if_neg (show ¬ 0 < r.fields.tokens_ from hpos)] at hrun
    rw [if_neg hpos]
    -- the second reading is the only one that is left
    cases es with
    | nil => cases hrun
    | cons later es =>
      cases hrun
      rfl

/-! ## A whole call -/

/-- The system of whole sections. -/
def system (hsane : config.Sane) (a : Atomic ℕ Thread Fields) : System :=
  ⟨a.memory.limiter hsane, a.places⟩

/-- A call as one step of the system. -/
def label : Mutex.Call ℕ Action ℤ → Label
  | .free thread action time => ⟨thread, action, time, time⟩
  | .guarded thread action first later => ⟨thread, action, first, later.headD first⟩

theorem goto_eq_update (sys : System) (thread : ℕ) (place : Thread) :
    sys.goto thread place = ⟨sys.limiter, Function.update sys.threads thread place⟩ := by
  unfold System.goto
  congr 1
  funext i
  rw [Function.update_apply]

theorem Section.reads : (locked config).Reads := by
  rintro place action code m hcode
  unfold locked at hcode
  dsimp only at hcode
  split at hcode <;> cases hcode <;> rfl

/-- A step without the mutex. -/
theorem free_step (hsane : config.Sane) (a : Atomic ℕ Thread Fields) {thread : ℕ} {action : Action}
    {time : ℤ} {out : Outcome} {place : Thread}
    (hfree : (locked config).free (a.places thread) action time = some (out, place)) :
    (system hsane a).step ⟨thread, action, time, time⟩
      = some (out, system hsane { a with places := Function.update a.places thread place }) := by
  have hgoto := goto_eq_update (system hsane a) thread
  have hconf : (system hsane a).limiter.config_ = config := rfl
  have hthread : (system hsane a).threads thread = a.places thread := rfl
  unfold locked at hfree
  dsimp only at hfree
  unfold System.step
  dsimp only
  rw [hthread]
  split at hfree
  · next hplace =>
    rw [hplace]
    dsimp only
    rw [hconf]
    cases hwait : config.max_wait with
    | some max_wait =>
      rw [hwait] at hfree
      cases hfree
      dsimp only
      rw [hgoto]
      rfl
    | none =>
      rw [hwait] at hfree
      cases hfree
      dsimp only
      rw [hgoto]
      rfl
  · next hplace =>
    cases hfree
    rw [hplace]
    dsimp only
    rw [hgoto]
    rfl
  · next deadline wait hplace =>
    rw [hplace]
    dsimp only
    split at hfree
    · next hlate =>
      cases hfree
      rw [if_pos hlate, hgoto]
      rfl
    · next hlate =>
      cases hfree
      rw [if_neg hlate, hgoto]
      rfl
  · cases hfree

/-- A section run at once. -/
theorem guarded_step (hsane : config.Sane) (a : Atomic ℕ Thread Fields) {thread : ℕ}
    {action : Action} {code : Critical Fields ℤ (Outcome × Thread)} {out : Outcome} {place : Thread}
    (hcode : (locked config).guarded (a.places thread) action = some code)
    (hrun : code.run a.memory (now :: es) = some ((out, place), m', [])) :
    (system hsane a).step ⟨thread, action, now, es.headD now⟩
      = some (out, system hsane ⟨m', Function.update a.places thread place⟩) := by
  have hthread : (system hsane a).threads thread = a.places thread := rfl
  have hlimiter : (system hsane a).limiter = a.memory.limiter hsane := rfl
  -- a call that is all of its section leaves its thread idle
  have hidle : a.places thread = .idle → Function.update a.places thread .idle = a.places := by
    intro hplace
    rw [← hplace, Function.update_eq_self]
  unfold locked at hcode
  dsimp only at hcode
  unfold System.step
  dsimp only
  rw [hthread]
  split at hcode
  · next hplace =>
    cases hcode
    rw [hplace]
    dsimp only [Section.try_acquire]
    rw [Critical.run_bind, Section.try_acquire, Critical.run_bind] at hrun
    cases htake : (Section.take_or_wait_time config).run a.memory (now :: es) with
    | none =>
      rw [htake] at hrun
      cases hrun
    | some result =>
      obtain ⟨wait, memory, left⟩ := result
      rw [htake] at hrun
      cases hrun
      rw [try_acquire, hlimiter, Section.take_run hsane htake, hidle hplace]
      rfl
  · next hplace =>
    cases hcode
    rw [hplace]
    cases hrun
    rw [hidle hplace]
    rfl
  · next hplace =>
    cases hcode
    rw [hplace]
    cases hrun
    rw [hidle hplace]
    rfl
  · next deadline hplace =>
    cases hcode
    rw [hplace]
    dsimp only
    rw [Critical.run_bind] at hrun
    cases htake : (Section.take_or_wait_time config).run a.memory (now :: es) with
    | none =>
      rw [htake] at hrun
      cases hrun
    | some result =>
      obtain ⟨wait, memory, left⟩ := result
      rw [htake] at hrun
      cases wait with
      | none =>
        cases hrun
        rw [hlimiter, Section.take_run hsane htake, goto_eq_update]
        rfl
      | some wait =>
        cases hrun
        rw [hlimiter, Section.take_run hsane htake]
        dsimp only
        rw [goto_eq_update]
        rfl
  · cases hcode

/-- **A whole call** is one step of the system. -/
theorem call_step (hsane : config.Sane) {a a' : Atomic ℕ Thread Fields}
    {call : Mutex.Call ℕ Action ℤ} {out : Outcome}
    (hstep : a.step (locked config) call = some (out, a')) :
    (system hsane a).step (label call) = some (out, system hsane a') := by
  cases call with
  | free thread action time =>
    obtain ⟨⟨r, place⟩, hfree, heq⟩ := Option.map_eq_some_iff.mp hstep
    cases heq
    exact free_step hsane a hfree
  | guarded thread action first later =>
    rw [Atomic.step] at hstep
    split at hstep
    · cases hstep
    · next code hcode =>
      split at hstep
      · next r place memory hrun =>
        cases hstep
        exact guarded_step hsane a hcode hrun
      · cases hstep

/-- A run of whole calls is a run of the system, by induction on the calls. -/
theorem calls_run (hsane : config.Sane) (calls : List (Mutex.Call ℕ Action ℤ)) :
    ∀ {a a' : Atomic ℕ Thread Fields} {outs : List Outcome},
      a.run (locked config) calls = some (outs, a') →
      (system hsane a).run (calls.map label) = some (outs, system hsane a') := by
  induction calls with
  | nil =>
    intro a a' outs hrun
    cases hrun
    rfl
  | cons call rest ih =>
    intro a a' outs hrun
    rw [Atomic.run] at hrun
    split at hrun
    · cases hrun
    · next out a₁ hstep =>
      split at hrun
      · cases hrun
      · next outs' final hrest =>
        cases hrun
        simp only [List.map_cons, System.run, call_step hsane hstep, ih hrest]

/-! ## Every interleaving -/

theorem label_now (call : Mutex.Call ℕ Action ℤ) : (label call).now = call.time := by
  cases call <;> rfl

/-- The calls take effect at readings that do not run backwards. -/
theorem linear_sorted {f final : Fine ℕ Thread Fields ℤ Outcome} {start : ℤ}
    {ticks : List (Tick ℕ Action ℤ)} {trace : List (Tick ℕ Action ℤ × Option Outcome)}
    (hrun : f.run (locked config) ticks = some (trace, final))
    (hclock : (start :: ticks.map Tick.time).Pairwise (· ≤ ·)) :
    (start :: (linear none trace).map fun c => (label c.1).now).Pairwise (· ≤ ·) := by
  have htimes := Mutex.linear_times_sublist trace none
  have hticks : (trace.map fun s => s.1.time) = ticks.map Tick.time := by
    rw [← Mutex.Fine.run_ticks hrun, List.map_map]
    rfl
  rw [hticks] at htimes
  simp only [label_now]
  exact hclock.sublist (htimes.cons_cons start)

/-- **The sections of the limiter are atomic.** Take any number of threads, each
access of each to the count and the stamp and each reading of the clock a step of
its own, interleaved in any way that the mutex admits, at times that do not run
backwards. Then the whole calls, each at its first reading, are a run of the
system at readings that do not run backwards; every thread gets the results it
got, in the same order; and the threads end in the same places, with the same
count and stamp whenever the mutex is free. -/
theorem accesses_linearizable (config : Config) (start : ℤ) (ticks : List (Tick ℕ Action ℤ))
    (trace : List (Tick ℕ Action ℤ × Option Outcome)) (final : Fine ℕ Thread Fields ℤ Outcome)
    (hrun : (locked_new config start).run (locked (sanitized config)) ticks = some (trace, final))
    (hclock : (start :: ticks.map Tick.time).Pairwise (· ≤ ·)) :
    ∃ sys : System,
      (System.new config start).run ((linear none trace).map fun c => label c.1)
          = some ((linear none trace).map Prod.snd, sys)
        ∧ (start :: (linear none trace).map fun c => (label c.1).now).Pairwise (· ≤ ·)
        ∧ sys.threads = final.places
        ∧ (final.holder = none → sys.limiter.fields = final.memory)
        ∧ ∀ thread, gets thread trace = gives thread (linear none trace) := by
  have hsane := sanitized_sane config
  obtain ⟨a', hcalls, hplaces, hmemory, hsame⟩ := Fine.linearizable Section.reads rfl hrun
  have hsystem := calls_run hsane _ hcalls
  rw [List.map_map] at hsystem
  refine ⟨system hsane a', hsystem, linear_sorted hrun hclock, hplaces, fun hholder => ?_, hsame⟩
  exact hmemory hholder

/-- A limiter of one token. While one thread takes it, another begins to acquire,
and finds nothing when the mutex is free. -/
theorem accesses_linearizable_two_threads :
    ∃ sys : System,
      (System.new { max_tokens := 1, initial_tokens := 1 } 0).run
          [⟨1, .acquire, 2, 2⟩, ⟨0, .try_acquire, 3, 3⟩, ⟨1, .attempt, 12, 15⟩]
        = some ([.started, .granted, .missed], sys) := by
  obtain ⟨sys, hrun, -⟩ := accesses_linearizable { max_tokens := 1, initial_tokens := 1 } 0
    [⟨0, .lock .try_acquire, 1⟩, ⟨1, .free .acquire, 2⟩, ⟨0, .read, 3⟩, ⟨0, .access, 4⟩,
      ⟨0, .access, 5⟩, ⟨0, .access, 6⟩, ⟨0, .access, 7⟩, ⟨0, .access, 8⟩, ⟨0, .unlock, 9⟩,
      ⟨1, .lock .attempt, 11⟩, ⟨1, .read, 12⟩, ⟨1, .access, 13⟩, ⟨1, .access, 14⟩, ⟨1, .access, 14⟩,
      ⟨1, .read, 15⟩, ⟨1, .access, 16⟩, ⟨1, .unlock, 17⟩] _ _ rfl (by decide)
  exact ⟨sys, hrun⟩

/-! ## Every result -/

/-- What a step gave is what the ideal bucket answers, where it asks the bucket at
all. A thread that gives up at its deadline does not. -/
def Outcome.Agrees (interval : ℤ) : Outcome → Option (TokenBucket.Answer ℤ) → Prop
  | .granted, some (.taken got) => got = true
  | .refused, some (.taken got) | .missed, some (.taken got) => got = false
  | .available count, some (.level credit) => (count.toNat : ℤ) = credit / interval
  | .done, some .done => True
  | .started, none | .refused, none | .slept, none => True
  | _, _ => False

/-- What the bucket answers to the steps of a run. -/
def ideal_answers (b : TokenBucket ℤ) :
    TokenBucket.Level ℤ → List Label → List (Option (TokenBucket.Answer ℤ))
  | _, [] => []
  | l, lab :: rest =>
    lab.ideal.map (fun op => (b.step l op.2 op.1).1) :: ideal_answers b (follow b l lab.ideal) rest

variable {sys sys' : System} {lab : Label} {out : Outcome} {l : TokenBucket.Level ℤ}

theorem System.step_agrees (h : Refines sys.limiter l) (hnow : l.since ≤ lab.now)
    (hstep : sys.step lab = some (out, sys')) :
    out.Agrees sys.limiter.config_.interval_ns
      (lab.ideal.map fun op => (sys.limiter.bucket.step l op.2 op.1).1) := by
  have htake := (h.take lab.now lab.later hnow).1
  have hpeek := (h.peek lab.now hnow).1
  unfold Label.ideal
  cases System.step_cases hstep with
  | try_acquire _ haction =>
    rw [haction]
    dsimp only [Option.map_some]
    rw [htake, try_acquire]
    cases (sys.limiter.take_or_wait_time lab.now lab.later).1 with
    | none => exact rfl
    | some wait => exact rfl
  | took deadline _ haction htook | missed deadline wait _ haction htook =>
    rw [haction]
    dsimp only [Option.map_some]
    rw [htake, htook]
    exact rfl
  | available_tokens _ haction =>
    rw [haction]
    exact hpeek
  | reset _ haction =>
    rw [haction]
    exact trivial
  -- outside the mutex
  | acquire _ haction | acquire_for _ _ haction | gave_up _ _ _ haction | slept _ _ _ haction =>
    rw [haction]
    exact trivial

/-- A run agrees step by step, by induction on its steps. -/
theorem System.run_agrees (labels : List Label) :
    ∀ {sys final : System} {outs : List Outcome} {l : TokenBucket.Level ℤ},
      Refines sys.limiter l → sys.run labels = some (outs, final) →
      (l.since :: labels.map Label.now).Pairwise (· ≤ ·) →
      List.Forall₂ (Outcome.Agrees sys.limiter.config_.interval_ns) outs
        (ideal_answers sys.limiter.bucket l labels) := by
  induction labels with
  | nil =>
    intro sys final outs l _ hrun _
    cases hrun
    exact List.Forall₂.nil
  | cons lab rest ih =>
    intro sys final outs l h hrun hclock
    obtain ⟨out, sys', outs', hstep, hrest, rfl⟩ := System.run_cons hrun
    rw [List.map_cons, List.pairwise_cons] at hclock
    have hnow := hclock.1 lab.now (List.mem_cons_self ..)
    obtain ⟨hconf, -, href⟩ := System.step_refines h hnow hstep
    have hsince := follow_since_le sys.limiter.bucket l lab hnow
    have hagree := ih href hrest
      (List.pairwise_cons.mpr
        ⟨fun t ht => le_trans hsince ((List.pairwise_cons.mp hclock.2).1 t ht),
          (List.pairwise_cons.mp hclock.2).2⟩)
    rw [hconf, bucket_congr hconf] at hagree
    exact List.Forall₂.cons (System.step_agrees h hnow hstep) hagree

/-- **Every result is the ideal bucket's.** In every interleaving of the accesses
of any number of threads, what the calls give, in the order in which they take
effect, is what one exact bucket answers to them: the same decisions, and the
whole tokens of its credit. -/
theorem accesses_ideal (config : Config) (start : ℤ) (ticks : List (Tick ℕ Action ℤ))
    (trace : List (Tick ℕ Action ℤ × Option Outcome)) (final : Fine ℕ Thread Fields ℤ Outcome)
    (hrun : (locked_new config start).run (locked (sanitized config)) ticks = some (trace, final))
    (hclock : (start :: ticks.map Tick.time).Pairwise (· ≤ ·)) :
    List.Forall₂ (Outcome.Agrees (sanitized config).interval_ns)
        ((linear none trace).map Prod.snd)
        (ideal_answers (sanitized_sane config).bucket ((sanitized_sane config).bucket.new start)
          ((linear none trace).map fun c => label c.1))
      ∧ ∀ thread, gets thread trace = gives thread (linear none trace) := by
  have hsane := sanitized_sane config
  obtain ⟨a', hcalls, -, -, hsame⟩ := Fine.linearizable Section.reads rfl hrun
  have hsystem := calls_run hsane _ hcalls
  rw [List.map_map] at hsystem
  refine ⟨System.run_agrees _ (new_refines config start) hsystem ?_, hsame⟩
  rw [List.map_map]
  exact linear_sorted hrun hclock

/-- One token, taken while another thread begins to wait for it, and then counted. -/
theorem accesses_ideal_counted :
    List.Forall₂ (Outcome.Agrees 100000000) [.started, .granted, .available 0]
      (ideal_answers (sanitized_sane { max_tokens := 1, initial_tokens := 1 }).bucket
        ((sanitized_sane { max_tokens := 1, initial_tokens := 1 }).bucket.new 0)
        [⟨1, .acquire, 2, 2⟩, ⟨0, .try_acquire, 3, 3⟩, ⟨0, .available_tokens, 11, 11⟩]) :=
  (accesses_ideal { max_tokens := 1, initial_tokens := 1 } 0
    [⟨0, .lock .try_acquire, 1⟩, ⟨1, .free .acquire, 2⟩, ⟨0, .read, 3⟩, ⟨0, .access, 4⟩,
      ⟨0, .access, 5⟩, ⟨0, .access, 6⟩, ⟨0, .access, 7⟩, ⟨0, .access, 8⟩, ⟨0, .unlock, 9⟩,
      ⟨0, .lock .available_tokens, 10⟩, ⟨0, .read, 11⟩, ⟨0, .access, 12⟩, ⟨0, .access, 13⟩,
      ⟨0, .unlock, 14⟩] _ _ rfl (by decide)).1

end OpenMeteo.RateLimiter
