/-
The threads of the system run the code of the limiter.

The system gives a thread three places and says how one step leads to the next. The
source gives it a loop. `view` is what a run shows one of its threads: the readings
of the clock outside the mutex, and what its locked sections returned. On that view
`code` runs the calls the thread began, as `rate_limit.cpp` has them, and comes to
the results the thread was given. The induction is on the steps of the run, and
`resume` is what is left of a call at the place the thread is in.
-/
import OpenMeteo.Acquire
import OpenMeteo.RateLimitThreads

set_option autoImplicit false

namespace OpenMeteo.RateLimiter

/-! ## What a thread sees -/

/-- What a thread learns in a step: the reading of `Clock::now()` outside the mutex,
or what `take_or_wait_time` returned. -/
inductive Seen
  | clock (now : ℤ)
  | took (wait : Option ℤ)
  deriving DecidableEq, Repr

/-- What a step shows its thread. A wait without a deadline reads no clock. -/
def System.seen (sys : System) (l : Label) : Option Seen :=
  match sys.threads l.thread, l.action with
  | .idle, .try_acquire | .looping _, .attempt =>
    some (.took (sys.limiter.take_or_wait_time l.now l.later).1)
  | .idle, .acquire => sys.limiter.config_.max_wait.map fun _ => .clock l.now
  | .idle, .acquire_for _ | .waiting (some _) _, .settle => some (.clock l.now)
  | _, _ => none

/-- What a run shows a thread, in order. -/
def System.view (thread : ℕ) : System → List Label → List Seen
  | _, [] => []
  | sys, l :: rest =>
    match sys.step l with
    | none => []
    | some (_, sys') =>
      (if l.thread = thread then (sys.seen l).toList else []) ++ view thread sys' rest

/-- The calls that acquire. -/
inductive Acquiring
  | try_acquire
  | acquire
  | acquire_for (max_wait : ℤ)
  deriving DecidableEq, Repr

def Label.begins (l : Label) : Option Acquiring :=
  match l.action with
  | .try_acquire => some .try_acquire
  | .acquire => some .acquire
  | .acquire_for max_wait => some (.acquire_for max_wait)
  | _ => none

/-- The acquisitions a thread begins, in order. -/
def begun (thread : ℕ) (labels : List Label) : List Acquiring :=
  labels.filterMap fun l => if l.thread = thread then l.begins else none

def Outcome.result : Outcome → Option Bool
  | .granted => some true
  | .refused => some false
  | _ => none

/-- The results of a thread's acquisitions, in order. -/
def results (thread : ℕ) (labels : List Label) (outs : List Outcome) : List Bool :=
  (labels.zip outs).filterMap fun s => if s.1.thread = thread then s.2.result else none

/-! ### Step by step -/

theorem System.view_cons (thread : ℕ) {sys sys' : System} {l : Label} {out : Outcome}
    (hstep : sys.step l = some (out, sys')) (rest : List Label) :
    sys.view thread (l :: rest)
      = (if l.thread = thread then (sys.seen l).toList else []) ++ sys'.view thread rest := by
  rw [System.view, hstep]

theorem begun_cons (thread : ℕ) (l : Label) (rest : List Label) :
    begun thread (l :: rest)
      = (if l.thread = thread then l.begins.toList else []) ++ begun thread rest := by
  rw [begun, List.filterMap_cons]
  split_ifs with hown
  · cases l.begins <;> rfl
  · rfl

theorem results_cons (thread : ℕ) (l : Label) (rest : List Label) (out : Outcome)
    (outs : List Outcome) :
    results thread (l :: rest) (out :: outs)
      = (if l.thread = thread then out.result.toList else []) ++ results thread rest outs := by
  rw [results, List.zip_cons_cons, List.filterMap_cons]
  dsimp only
  split_ifs with hown
  · cases out.result <;> rfl
  · rfl

/-! ## The code on a view -/

variable {σ : Type}

/-- The port of a thread that sees what the script in its world says. Past the end of
the script the thread is still running. -/
def scripted : Port (List Seen × σ) where
  take_or_wait_time := fun w =>
    match w.1 with
    | .took wait :: rest => (some wait, (rest, w.2))
    | _ => (none, w)
  now := fun w =>
    match w.1 with
    | .clock now :: rest => (some now, (rest, w.2))
    | _ => (none, w)
  sleep_for := fun _ => pure ()

/-- What is still to be seen, and the results so far. -/
abbrev Script : Type := List Seen × List Bool

/-- The functions of the source. -/
def Acquiring.code (port : Port σ) (config : Config) (fuel : ℕ) : Acquiring → Proc σ Bool
  | .try_acquire => do
    let wait ← port.take_or_wait_time
    pure wait.isNone
  | .acquire => RateLimiter.acquire port config fuel
  | .acquire_for max_wait => RateLimiter.acquire_for port max_wait fuel

def record (got : Bool) : Proc Script Unit := Proc.modifies fun w => (w.1, w.2 ++ [got])

/-- The calls of a thread, one after the other. -/
def code (config : Config) (fuel : ℕ) : List Acquiring → Proc Script Unit
  | [] => pure ()
  | call :: rest => do
    let got ← call.code scripted config fuel
    record got
    code config fuel rest

/-! ## The middle of a call -/

/-- What is left of a call behind its locked section. -/
def settle (port : Port σ) (deadline : Option ℤ) (wait : ℤ) (fuel : ℕ) : Proc σ Bool :=
  match deadline with
  | some _ => do
    let now ← port.now
    if past_deadline deadline wait now then pure false
    else do
      port.sleep_for wait
      acquire_until port deadline fuel
  | none => do
    port.sleep_for wait
    acquire_until port deadline fuel

/-- The code of a thread from the place it is in. -/
def resume (config : Config) (fuel fuel' : ℕ) (calls : List Acquiring) : Thread → Proc Script Unit
  | .idle => code config fuel calls
  | .looping deadline => do
    let got ← acquire_until scripted deadline fuel'
    record got
    code config fuel calls
  | .waiting deadline wait => do
    let got ← settle scripted deadline wait fuel'
    record got
    code config fuel calls

section Iteration

variable {port : Port σ} {w w' : σ}

theorem acquire_until_took (deadline : Option ℤ) (fuel : ℕ)
    (h : port.take_or_wait_time w = (some none, w')) :
    acquire_until port deadline (fuel + 1) w = (some true, w') := by
  rw [acquire_until, Proc.bind_run h]
  rfl

theorem acquire_until_missed (deadline : Option ℤ) (fuel : ℕ) {wait : ℤ}
    (h : port.take_or_wait_time w = (some (some wait), w')) :
    acquire_until port deadline (fuel + 1) w = settle port deadline wait fuel w' := by
  rw [acquire_until, Proc.bind_run h]
  cases deadline <;> rfl

end Iteration

/-- A timed call begins with its reading of the clock. -/
theorem acquire_for_read (max_wait now : ℤ) (fuel : ℕ) (seen : List Seen) (got : List Bool) :
    acquire_for scripted max_wait fuel (.clock now :: seen, got)
      = acquire_until scripted (some (acquire_deadline max_wait now)) fuel (seen, got) :=
  Proc.bind_run rfl

theorem settle_late {deadline : Option ℤ} {wait now : ℤ}
    (hlate : past_deadline deadline wait now = true) (fuel : ℕ) (seen : List Seen)
    (got : List Bool) :
    settle scripted deadline wait fuel
        ((if deadline.isSome then [.clock now] else []) ++ seen, got)
      = (some false, (seen, got)) := by
  cases deadline with
  | none => cases hlate
  | some d =>
    have hread : scripted.now (.clock now :: seen, got) = (some now, (seen, got)) := rfl
    rw [if_pos (Option.isSome_some), List.singleton_append, settle, Proc.bind_run hread,
      if_pos hlate]
    rfl

theorem settle_sleeps {deadline : Option ℤ} {wait now : ℤ}
    (hlate : ¬ past_deadline deadline wait now = true) (fuel : ℕ) (seen : List Seen)
    (got : List Bool) :
    settle scripted deadline wait fuel
        ((if deadline.isSome then [.clock now] else []) ++ seen, got)
      = acquire_until scripted deadline fuel (seen, got) := by
  cases deadline with
  | none => exact Proc.bind_run rfl
  | some d =>
    have hread : scripted.now (.clock now :: seen, got) = (some now, (seen, got)) := rfl
    rw [if_pos (Option.isSome_some), List.singleton_append, settle, Proc.bind_run hread,
      if_neg hlate]
    exact Proc.bind_run rfl

theorem code_cons {config : Config} {fuel : ℕ} {call : Acquiring} {calls : List Acquiring}
    {w w' : Script} {got : Bool} (h : call.code scripted config fuel w = (some got, w')) :
    code config fuel (call :: calls) w = code config fuel calls (w'.1, w'.2 ++ [got]) := by
  rw [code, Proc.bind_run h]
  exact Proc.bind_run rfl

/-! ## One step -/

section Step

variable {sys sys' : System} {l : Label} {out : Outcome} {config : Config}

/-- **A step of the system** is a step of the code of its thread: it sees what the
step shows, and is then where the step leads. -/
theorem resume_step (hconf : sys.limiter.config_ = config)
    (hstep : sys.step l = some (out, sys')) {fuel n : ℕ} (hfuel : n + 1 ≤ fuel)
    (calls : List Acquiring) (seen : List Seen) (got : List Bool) :
    ∃ n', n ≤ n' ∧ n' ≤ fuel ∧
      resume config fuel (n + 1) (l.begins.toList ++ calls) (sys.threads l.thread)
          ((sys.seen l).toList ++ seen, got)
        = resume config fuel n' calls (sys'.threads l.thread)
          (seen, got ++ out.result.toList) := by
  unfold Label.begins System.seen
  cases System.step_cases hstep with
  | try_acquire hplace haction =>
    refine ⟨n, le_refl n, by omega, ?_⟩
    rw [hplace, haction]
    refine (code_cons (Proc.bind_run rfl)).trans ?_
    rw [try_acquire]
    cases (sys.limiter.take_or_wait_time l.now l.later).1 with
    | none => rfl
    | some wait => rfl
  -- a call that begins has the whole fuel for its iterations
  | acquire hplace haction =>
    refine ⟨fuel, by omega, le_refl fuel, ?_⟩
    rw [goto_own, hplace, haction, hconf]
    cases hwait : config.max_wait with
    | none =>
      have hcode : (Acquiring.acquire.code scripted config fuel : Proc Script Bool)
          = acquire_until scripted none fuel := by
        rw [Acquiring.code, acquire, hwait]
      simp only [Option.toList_some, Option.map_none, Option.toList_none, List.singleton_append,
        List.nil_append, resume, code, hcode, Outcome.result, List.append_nil]
    | some max_wait =>
      have hcode : (Acquiring.acquire.code scripted config fuel : Proc Script Bool)
          = acquire_for scripted max_wait fuel := by
        rw [Acquiring.code, acquire, hwait]
      simp only [Option.toList_some, Option.map_some, List.singleton_append, resume, code, hcode,
        Outcome.result, Option.toList_none, List.append_nil]
      exact Proc.bind_congr (acquire_for_read max_wait l.now fuel seen got) _
  | acquire_for max_wait hplace haction =>
    refine ⟨fuel, by omega, le_refl fuel, ?_⟩
    rw [goto_own, hplace, haction]
    simp only [Outcome.result, Option.toList_none, List.append_nil]
    exact Proc.bind_congr (acquire_for_read max_wait l.now fuel seen got) _
  | available_tokens hplace haction | reset hplace haction =>
    refine ⟨n, le_refl n, by omega, ?_⟩
    rw [hplace, haction]
    simp only [Option.toList_none, List.nil_append, Outcome.result, List.append_nil]
    rfl
  | took deadline hplace haction htake =>
    refine ⟨n, le_refl n, by omega, ?_⟩
    rw [goto_own, hplace, haction, htake]
    have hrun : acquire_until scripted deadline (n + 1) (.took none :: seen, got)
        = (some true, (seen, got)) := acquire_until_took deadline n rfl
    exact (Proc.bind_run hrun).trans (Proc.bind_run rfl)
  -- an iteration that goes on: the one step that uses up fuel
  | missed deadline wait hplace haction htake =>
    refine ⟨n, le_refl n, by omega, ?_⟩
    rw [goto_own, hplace, haction, htake]
    simp only [Outcome.result, Option.toList_none, List.append_nil]
    exact Proc.bind_congr (acquire_until_missed deadline n rfl) _
  | gave_up deadline wait hplace haction hlate =>
    refine ⟨n, le_refl n, by omega, ?_⟩
    rw [goto_own, hplace, haction]
    have hrun := settle_late hlate (n + 1) seen got
    cases deadline with
    | none => cases hlate
    | some d => exact (Proc.bind_run hrun).trans (Proc.bind_run rfl)
  | slept deadline wait hplace haction hlate =>
    refine ⟨n + 1, Nat.le_succ n, hfuel, ?_⟩
    rw [goto_own, hplace, haction]
    have hrun := settle_sleeps hlate (n + 1) seen got
    simp only [Outcome.result, Option.toList_none, List.append_nil]
    cases deadline with
    | none => exact Proc.bind_congr hrun _
    | some d => exact Proc.bind_congr hrun _

end Step

/-! ## A whole run -/

/-- Without anything more to see, the code waits in the call it is in. -/
theorem resume_end (config : Config) (fuel n : ℕ) (place : Thread) (got : List Bool) :
    (resume config fuel (n + 1) [] place ([], got)).2 = ([], got)
      ∧ ((resume config fuel (n + 1) [] place ([], got)).1 = some () ↔ place = .idle) := by
  cases place with
  | idle => exact ⟨rfl, fun _ => rfl, fun _ => rfl⟩
  -- in a call the code stops at the next thing it would see, with nothing recorded
  | looping deadline =>
    refine ⟨rfl, fun h => ?_, fun h => ?_⟩
    · cases h
    · cases h
  | waiting deadline wait =>
    cases deadline with
    | none =>
      refine ⟨rfl, fun h => ?_, fun h => ?_⟩
      · cases h
      · cases h
    | some d =>
      refine ⟨rfl, fun h => ?_, fun h => ?_⟩
      · cases h
      · cases h

/-- The steps of a run, by induction: the fuel that is left outlasts the steps that
are. -/
theorem resume_run {config : Config} {fuel : ℕ} (thread : ℕ) (labels : List Label) :
    ∀ {sys final : System} {outs : List Outcome} {n : ℕ} (got : List Bool),
      sys.limiter.config_ = config → sys.run labels = some (outs, final) →
      labels.length < n → n ≤ fuel →
      let run := resume config fuel n (begun thread labels) (sys.threads thread)
        (sys.view thread labels, got)
      run.2 = ([], got ++ results thread labels outs)
        ∧ (run.1 = some () ↔ final.threads thread = .idle) := by
  induction labels with
  | nil =>
    intro sys final outs n got _ hrun hn _
    cases hrun
    obtain ⟨n, rfl⟩ : ∃ m, n = m + 1 := ⟨n - 1, by simp only [List.length_nil] at hn; omega⟩
    have hend := resume_end config fuel n (sys.threads thread) got
    rw [results, List.zip_nil_left, List.filterMap_nil, List.append_nil]
    exact hend
  | cons l rest ih =>
    intro sys final outs n got hconf hrun hn hfuel
    obtain ⟨out, sys', outs', hstep, hrest, rfl⟩ := System.run_cons hrun
    obtain ⟨n, rfl⟩ : ∃ m, n = m + 1 := ⟨n - 1, by omega⟩
    rw [List.length_cons] at hn
    have hconf' : sys'.limiter.config_ = config := (System.step_config hstep).trans hconf
    rw [System.view_cons thread hstep, begun_cons, results_cons]
    by_cases hown : l.thread = thread
    · -- the code sees the step, and is then where the step leads
      subst hown
      rw [if_pos rfl, if_pos rfl, if_pos rfl]
      obtain ⟨n', hn', hfuel', hsame⟩ := resume_step hconf hstep hfuel (begun l.thread rest)
        (sys'.view l.thread rest) got
      dsimp only
      rw [hsame, ← List.append_assoc]
      exact ih _ hconf' hrest (by omega) hfuel'
    · rw [if_neg hown, if_neg hown, if_neg hown, List.nil_append, List.nil_append, List.nil_append,
        ← System.step_other (Ne.symm hown) hstep]
      exact ih got hconf' hrest (by omega) hfuel

/-- **Every thread runs the code.** In every run of any number of threads, the calls
of a thread that acquire, run as the source has them on what the thread saw, come to
the results it was given, in order, and use up all that it saw. They have returned
exactly if the thread is outside the limiter. -/
theorem threads_run_code (config : Config) (start : ℤ) (labels : List Label)
    (outs : List Outcome) (final : System)
    (hrun : (System.new config start).run labels = some (outs, final)) (thread fuel : ℕ)
    (hfuel : labels.length < fuel) :
    let run := code (sanitized config) fuel (begun thread labels)
      ((System.new config start).view thread labels, [])
    run.2 = ([], results thread labels outs)
      ∧ (run.1 = some () ↔ final.threads thread = .idle) :=
  resume_run thread labels [] rfl hrun hfuel (le_refl fuel)

/-- A thread takes the only token, and another waits for the next. -/
theorem threads_run_code_waiting :
    code (sanitized { max_tokens := 1, initial_tokens := 1 }) 6 [.acquire]
        ([.took (some 99999992), .took none], [])
      = (some (), ([], [true])) := by
  obtain ⟨hworld, hreturned⟩ := threads_run_code { max_tokens := 1, initial_tokens := 1 } 0
    [⟨0, .try_acquire, 5, 5⟩, ⟨1, .acquire, 6, 6⟩, ⟨1, .attempt, 7, 8⟩, ⟨1, .settle, 9, 9⟩,
      ⟨1, .attempt, 100000005, 100000005⟩]
    [.granted, .started, .missed, .slept, .granted] _ rfl 1 6 (by decide)
  exact Prod.ext (hreturned.mpr rfl) hworld

end OpenMeteo.RateLimiter
