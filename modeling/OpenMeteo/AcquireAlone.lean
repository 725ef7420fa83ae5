/-
A blocking acquisition by one thread, with no other at the limiter.

The world of the thread is `Alone`: the limiter, and a clock that only moves
forward. Before reading number `k` the time `gap k` passes, and a sleep takes
at least as long as it was asked to, so every nondecreasing sequence of
readings is one choice of `gap`.

`acquire_until` has no bound of its own. It ends because the wait it computes is
long enough: `refill_due` says that a state without tokens has one again as soon
as an interval has passed since its stamp, and the wait of the first iteration
ends no earlier. So the second iteration always takes.
-/
import OpenMeteo.Acquire
import OpenMeteo.RateLimitFree

set_option autoImplicit false

namespace OpenMeteo.RateLimiter

/-! ## The world of one thread -/

/-- The limiter, the time, how often the clock was read and a token asked for,
and the sleeps: when each began and how long it was to be. -/
structure Alone where
  limiter : RateLimiter
  time : ℤ
  reads : ℕ := 0
  takes : ℕ := 0
  sleeps : List (ℤ × ℤ) := []

/-- What the next reading shows. -/
def Alone.reading (gap : ℕ → ℕ) (w : Alone) : ℤ := w.time + gap w.reads

/-- The clock after a reading. -/
def Alone.read (gap : ℕ → ℕ) (w : Alone) : Alone :=
  { w with time := w.reading gap, reads := w.reads + 1 }

/-- The port of `acquire_until` in this world. The locked section reads the clock
a second time where it finds no token. -/
def alone (gap : ℕ → ℕ) : Port Alone where
  take_or_wait_time := fun w =>
    let now := w.reading gap
    let later := (w.read gap).reading gap
    match w.limiter.take_or_wait_time now later with
    | (none, limiter) => (some none, { w.read gap with limiter := limiter, takes := w.takes + 1 })
    | (some wait, limiter) =>
      (some (some wait), { (w.read gap).read gap with limiter := limiter, takes := w.takes + 1 })
  now := fun w => (some (w.reading gap), w.read gap)
  sleep_for := fun d w => (some (), { w with time := w.time + d, sleeps := w.sleeps ++ [(w.time, d)] })

/-- A limiter that some run, of any number of threads, leaves no later than `t`. -/
def Reachable (s : RateLimiter) (t : ℤ) : Prop :=
  ∃ config start labels outs final, (System.new config start).run labels = some (outs, final)
    ∧ (start :: labels.map Label.now).Pairwise (· ≤ ·)
    ∧ (∀ r ∈ start :: labels.map Label.now, r ≤ t) ∧ final.limiter = s

/-- The interval the wait is computed from. -/
def Config.wait_interval (config : Config) : ℤ :=
  if to_ms duration_max ≤ config.refill_interval then duration_max
  else config.refill_interval * ns_per_ms

variable {s : RateLimiter} {t now : ℤ}

/-! ## Taking and waiting -/

theorem System.run_within (labels : List Label) :
    ∀ {sys final : System} {t last : ℤ} {outs : List Outcome}, sys.limiter.Within t →
      (t :: labels.map Label.now).Pairwise (· ≤ ·) → (∀ r ∈ t :: labels.map Label.now, r ≤ last) →
      sys.run labels = some (outs, final) → final.limiter.Within last := by
  induction labels with
  | nil =>
    rintro sys final t last outs h - hlast ⟨⟩
    exact h.mono (hlast t (List.mem_cons_self ..))
  | cons l rest ih =>
    intro sys final t last outs h hclock hlast hrun
    obtain ⟨hnow, hrest⟩ := List.pairwise_cons.mp hclock
    obtain ⟨out, sys', outs', hstep, hrun', rfl⟩ := System.run_cons hrun
    have hle : t ≤ l.now := hnow l.now (List.mem_cons_self ..)
    exact ih (System.step_within (h.mono hle) hstep).2 hrest
      (fun r hr => hlast r (List.mem_cons_of_mem _ hr)) hrun'

theorem Reachable.within (h : Reachable s t) : s.Within t := by
  obtain ⟨config, start, labels, outs, final, hrun, hclock, hlast, rfl⟩ := h
  exact System.run_within labels (new_within config start) hclock hlast hrun

/-- The interval the wait is computed from is the refill interval, rounded up
where that is the longest number of milliseconds there is. -/
theorem Config.wait_interval_eq {config : Config} (h : config.interval_ns ≤ duration_max) :
    config.wait_interval
      = config.interval_ns + if config.refill_interval = 9223372036854 then 775807 else 0 := by
  have hlongest : to_ms duration_max = 9223372036854 := rfl
  rw [Config.wait_interval, hlongest]
  simp only [Config.interval_ns, ns_per_ms, duration_max] at h ⊢
  split <;> split <;> omega

/-- A token is taken, or none is there and the wait is to the end of the interval. -/
theorem Within.take_cases (h : s.Within now) (later : ℤ) :
    (1 ≤ (s.refill now).tokens_.toNat ∧ s.take_or_wait_time now later
        = (none, { s.refill now with tokens_ := (s.refill now).tokens_ - 1 }))
      ∨ ((s.refill now).tokens_ = 0 ∧ s.take_or_wait_time now later
        = (some (max (s.config_.wait_interval - (later - (s.refill now).last_refill_)) 0),
            s.refill now)) := by
  unfold take_or_wait_time
  dsimp only
  by_cases hpos : 0 < (s.refill now).tokens_
  · rw [if_pos hpos]
    exact Or.inl ⟨UInt16.lt_iff_toNat_lt.mp hpos, rfl⟩
  · have hzero : (s.refill now).tokens_ = 0 := by
      rw [UInt16.lt_iff_toNat_lt] at hpos
      exact UInt16.toNat_inj.mp (by simpa using hpos)
    refine Or.inr ⟨hzero, ?_⟩
    rw [if_neg hpos, ← h.refill.1]
    rfl

/-! ## When a token is due -/

/-- A credit of one interval is a token. -/
theorem token_of_credit (h : s.Within now) (hcredit : s.config_.interval_ns ≤ s.credit now) :
    1 ≤ (s.refill now).tokens_.toNat := by
  have hI := s.config_sane.interval_ns_pos
  obtain ⟨-, -, -, hrem, hrefilled⟩ := refill_spec s now h.last_le h.tokens_le
  have hfull : s.config_.interval_ns ≤ s.config_.full := by
    have hmax : (1 : ℤ) ≤ s.config_.max_tokens.toNat := by exact_mod_cast s.config_sane.max_pos
    have hmul := Int.mul_le_mul_of_nonneg_right hmax (le_of_lt hI)
    rwa [one_mul] at hmul
  by_contra hnone
  have hzero : (s.refill now).tokens_.toNat = 0 := by omega
  -- without a token the credit would be a remainder
  rw [credit, hzero] at hrefilled
  push_cast at hrefilled
  omega

theorem credit_ge (s : RateLimiter) (now : ℤ) : now - s.last_refill_ ≤ s.credit now := by
  have := mul_nonneg (Int.natCast_nonneg s.tokens_.toNat) (le_of_lt s.config_sane.interval_ns_pos)
  simp only [credit]
  omega

/-- **When a token is due**: an interval after the stamp. -/
theorem refill_due (h : s.Within now) (hdue : s.last_refill_ + s.config_.interval_ns ≤ now) :
    1 ≤ (s.refill now).tokens_.toNat :=
  token_of_credit h (by have := credit_ge s now; omega)

/-- Before that an empty state stays as it is. -/
theorem refill_not_due (h : s.Within now) (hempty : s.tokens_ = 0)
    (hdue : now < s.last_refill_ + s.config_.interval_ns) : s.refill now = s := by
  have hmax := s.config_sane.max_pos
  have hlast := h.last_le
  have hnone : s.earned now ≤ 0 := by
    rw [earned_eq s now hlast, Int.ediv_eq_zero_of_lt (by omega) (by omega)]
  have hnotfull : ¬ s.config_.max_tokens ≤ s.tokens_ := by
    rw [UInt16.le_iff_toNat_le, hempty]
    have hzero : (0 : UInt16).toNat = 0 := rfl
    omega
  rw [refill, if_neg hnotfull, if_pos hnone]

/-- A state that is empty after refilling was empty, and its next token is not due. -/
theorem empty_of_refill (h : s.Within now) (hnone : (s.refill now).tokens_ = 0) :
    s.tokens_ = 0 ∧ now < s.last_refill_ + s.config_.interval_ns ∧ s.refill now = s := by
  have hno_token : ¬ 1 ≤ (s.refill now).tokens_.toNat := by
    rw [hnone]
    decide
  have hdue : now < s.last_refill_ + s.config_.interval_ns := by
    by_contra hnot
    exact hno_token (refill_due h (not_lt.mp hnot))
  have hempty : s.tokens_ = 0 := by
    by_contra hsome
    have hpos : (1 : ℤ) ≤ s.tokens_.toNat := by
      have hne : s.tokens_.toNat ≠ 0 := fun heq => hsome (UInt16.toNat_inj.mp heq)
      omega
    have hmul := Int.mul_le_mul_of_nonneg_right hpos (le_of_lt s.config_sane.interval_ns_pos)
    have hlast := h.last_le
    refine hno_token (token_of_credit h ?_)
    rw [one_mul] at hmul
    simp only [credit]
    omega
  exact ⟨hempty, hdue, refill_not_due h hempty hdue⟩

/-! ## One iteration -/

variable {w : Alone}

/-- The world after an iteration that took a token. -/
def Alone.granted (gap : ℕ → ℕ) (w : Alone) : Alone :=
  let refilled := w.limiter.refill (w.reading gap)
  { w.read gap with
    limiter := { refilled with tokens_ := refilled.tokens_ - 1 }
    takes := w.takes + 1 }

/-- The world behind the locked section of an iteration that found none. -/
def Alone.missed (gap : ℕ → ℕ) (w : Alone) : Alone :=
  { (w.read gap).read gap with takes := w.takes + 1 }

/-- The wait that locked section computes. -/
def Alone.wait (gap : ℕ → ℕ) (w : Alone) : ℤ :=
  max (w.limiter.config_.wait_interval - ((w.read gap).reading gap - w.limiter.last_refill_)) 0

def Alone.slept (d : ℤ) (w : Alone) : Alone :=
  { w with time := w.time + d, sleeps := w.sleeps ++ [(w.time, d)] }

/-- No token is there at the next reading. -/
def Alone.Empty (gap : ℕ → ℕ) (w : Alone) : Prop :=
  w.limiter.tokens_ = 0
    ∧ w.reading gap < w.limiter.last_refill_ + w.limiter.config_.interval_ns

theorem Alone.within_reading (gap : ℕ → ℕ) (h : w.limiter.Within w.time) :
    w.limiter.Within (w.reading gap) :=
  h.mono (by rw [Alone.reading]; omega)

/-- **An iteration** takes a token and returns, or finds none and computes a wait. -/
theorem iteration_cases (h : w.limiter.Within w.time) (gap : ℕ → ℕ) :
    (1 ≤ (w.limiter.refill (w.reading gap)).tokens_.toNat
        ∧ ∀ deadline fuel, acquire_until (alone gap) deadline (fuel + 1) w
          = (some true, w.granted gap))
      ∨ (w.Empty gap
        ∧ (alone gap).take_or_wait_time w = (some (some (w.wait gap)), w.missed gap)) := by
  have hwithin := Alone.within_reading gap h
  rcases hwithin.take_cases ((w.read gap).reading gap) with ⟨htoken, htake⟩ | ⟨hnone, htake⟩
  · refine Or.inl ⟨htoken, fun deadline fuel => ?_⟩
    have hport : (alone gap).take_or_wait_time w = (some none, w.granted gap) := by
      simp only [alone, htake]
      rfl
    rw [acquire_until, Proc.bind_run hport]
    rfl
  · obtain ⟨hempty, hdue, hsame⟩ := empty_of_refill hwithin hnone
    refine Or.inr ⟨⟨hempty, hdue⟩, ?_⟩
    rw [hsame] at htake
    simp only [alone, htake]
    rfl

/-- **A wait that was slept is long enough**: the next iteration takes. -/
theorem granted_after_wait (h : w.limiter.Within w.time)
    (hinterval : w.limiter.config_.interval_ns ≤ duration_max) (gap : ℕ → ℕ) (w' : Alone)
    (hlimiter : w'.limiter = w.limiter)
    (htime : (w.read gap).reading gap + w.wait gap ≤ w'.time) (deadline : Option ℤ) (fuel : ℕ) :
    1 ≤ (w'.limiter.refill (w'.reading gap)).tokens_.toNat
      ∧ acquire_until (alone gap) deadline (fuel + 1) w' = (some true, w'.granted gap) := by
  have hlater : w.time ≤ (w.read gap).reading gap := by
    simp only [Alone.reading, Alone.read]
    omega
  have hwait : w.limiter.config_.wait_interval
      - ((w.read gap).reading gap - w.limiter.last_refill_) ≤ w.wait gap := le_max_left _ _
  have hpos : 0 ≤ w.wait gap := le_max_right _ _
  have hrounded := Config.wait_interval_eq hinterval
  have hnext : w'.time ≤ w'.reading gap := by
    simp only [Alone.reading]
    omega
  have hwithin : w'.limiter.Within w'.time := by
    rw [hlimiter]
    exact h.mono (by omega)
  have hdue : w'.limiter.last_refill_ + w'.limiter.config_.interval_ns ≤ w'.reading gap := by
    rw [hlimiter]
    have hround : (0 : ℤ) ≤ if w.limiter.config_.refill_interval = 9223372036854 then 775807
        else 0 := by split <;> norm_num
    omega
  have htoken := refill_due (Alone.within_reading gap hwithin) hdue
  refine ⟨htoken, ?_⟩
  rcases iteration_cases hwithin gap with ⟨-, hrun⟩ | ⟨⟨-, hnot⟩, -⟩
  · exact hrun deadline fuel
  · omega

/-! ## The whole call -/

/-- What a call does: it takes at once, sleeps once and takes then, or finds that
the deadline lies before the end of the sleep. -/
theorem acquire_until_cases (h : w.limiter.Within w.time)
    (hinterval : w.limiter.config_.interval_ns ≤ duration_max) (deadline : Option ℤ)
    (gap : ℕ → ℕ) :
    (1 ≤ (w.limiter.refill (w.reading gap)).tokens_.toNat
        ∧ ∀ fuel, acquire_until (alone gap) deadline (fuel + 1) w = (some true, w.granted gap))
      ∨ (w.Empty gap ∧ ∃ w₁, (w₁ = w.missed gap ∧ deadline = none
            ∨ w₁ = (w.missed gap).read gap ∧ ∃ d, deadline = some d ∧ w₁.time + w.wait gap ≤ d)
          ∧ 1 ≤ (w.limiter.refill ((w₁.slept (w.wait gap)).reading gap)).tokens_.toNat
          ∧ ∀ fuel, acquire_until (alone gap) deadline (fuel + 2) w
            = (some true, (w₁.slept (w.wait gap)).granted gap))
      ∨ (w.Empty gap ∧ ∃ d, deadline = some d ∧ d < (w.missed gap).reading gap + w.wait gap
          ∧ ∀ fuel, acquire_until (alone gap) deadline (fuel + 1) w
            = (some false, (w.missed gap).read gap)) := by
  rcases iteration_cases h gap with ⟨htoken, hrun⟩ | ⟨hempty, htake⟩
  · exact Or.inl ⟨htoken, hrun deadline⟩
  · refine Or.inr ?_
    have hmissed : (w.missed gap).time = (w.read gap).reading gap := rfl
    cases deadline with
    | none =>
      have hnext := granted_after_wait h hinterval gap ((w.missed gap).slept (w.wait gap)) rfl
        (le_of_eq rfl) none
      refine Or.inl ⟨hempty, w.missed gap, Or.inl ⟨rfl, rfl⟩, (hnext 0).1, fun fuel => ?_⟩
      rw [acquire_until, Proc.bind_run htake]
      exact (Proc.bind_run rfl).trans (hnext fuel).2
    | some d =>
      have hnow : (alone gap).now (w.missed gap)
          = (some ((w.missed gap).reading gap), (w.missed gap).read gap) := rfl
      by_cases hlate : d < (w.missed gap).reading gap + w.wait gap
      · refine Or.inr ⟨hempty, d, rfl, hlate, fun fuel => ?_⟩
        have hpast : past_deadline (some d) (w.wait gap) ((w.missed gap).reading gap) = true :=
          decide_eq_true (by omega)
        rw [acquire_until, Proc.bind_run htake]
        dsimp only
        rw [Proc.bind_run hnow, if_pos hpast]
        rfl
      · have htime : (w.read gap).reading gap + w.wait gap
            ≤ (((w.missed gap).read gap).slept (w.wait gap)).time := by
          simp only [Alone.slept, Alone.read, Alone.reading, Alone.missed]
          omega
        have hnext := granted_after_wait h hinterval gap
          (((w.missed gap).read gap).slept (w.wait gap)) rfl htime (some d)
        refine Or.inl ⟨hempty, (w.missed gap).read gap,
          Or.inr ⟨rfl, d, rfl, not_lt.mp hlate⟩, (hnext 0).1, fun fuel => ?_⟩
        have hpast : ¬ past_deadline (some d) (w.wait gap) ((w.missed gap).reading gap) = true := by
          rw [past_deadline, decide_eq_true_iff]
          omega
        rw [acquire_until, Proc.bind_run htake]
        dsimp only
        rw [Proc.bind_run hnow, if_neg hpast]
        exact (Proc.bind_run rfl).trans (hnext fuel).2

/-- **The blocking acquire loop ends after at most one sleep and never plans to
oversleep.** From any reachable state, with any deadline and any readings, it
returns within two iterations; a sleep it starts ends by the deadline and is
followed by a token; without a deadline it returns `true`; and exactly one token
is gone if it does, and none if it does not. -/
theorem acquire_until_ends (s : RateLimiter) (t : ℤ) (hreach : Reachable s t)
    (hinterval : s.config_.interval_ns ≤ duration_max) (deadline : Option ℤ) (gap : ℕ → ℕ) :
    ∃ (result : Bool) (w : Alone),
      (∀ fuel, 2 ≤ fuel → acquire_until (alone gap) deadline fuel { limiter := s, time := t }
          = (some result, w))
        ∧ w.takes ≤ 2 ∧ w.sleeps.length ≤ 1
        ∧ (∀ n d, (n, d) ∈ w.sleeps → ∀ limit, deadline = some limit → n + d ≤ limit)
        ∧ (w.sleeps ≠ [] → w.takes = 2 ∧ result = true)
        ∧ (deadline = none → result = true)
        ∧ ∃ now, t ≤ now ∧ now ≤ w.time
          ∧ (result = true → 1 ≤ (s.refill now).tokens_.toNat
              ∧ w.limiter = { s.refill now with tokens_ := (s.refill now).tokens_ - 1 })
          ∧ (result = false → w.limiter = s.refill now) := by
  set w₀ : Alone := { limiter := s, time := t } with hw₀
  have hwithin : w₀.limiter.Within w₀.time := hreach.within
  have hfirst : t ≤ w₀.reading gap := by
    rw [Alone.reading, show w₀.time = t from rfl]
    omega
  have hsecond : w₀.reading gap ≤ (w₀.missed gap).time := by
    simp only [Alone.missed, Alone.read, Alone.reading]
    omega
  have hthird : (w₀.missed gap).time ≤ ((w₀.missed gap).read gap).time := by
    simp only [Alone.read, Alone.reading]
    omega
  rcases acquire_until_cases hwithin hinterval deadline gap with ⟨htoken, hrun⟩
      | ⟨-, w₁, hw₁, htoken, hrun⟩ | ⟨⟨hempty, hdue⟩, d, rfl, -, hrun⟩
  · -- a token at once
    refine ⟨true, w₀.granted gap, fun fuel hfuel => ?_, Nat.le_succ 1, Nat.zero_le 1, ?_, ?_,
      fun _ => rfl, w₀.reading gap, hfirst, le_refl _, fun _ => ⟨htoken, rfl⟩, fun h => by cases h⟩
    · obtain ⟨n, rfl⟩ : ∃ n, fuel = n + 1 := ⟨fuel - 1, by omega⟩
      exact hrun n
    · intro n d hmem
      cases hmem
    · exact fun hne => absurd rfl hne
  · -- a sleep, and then a token
    obtain ⟨hlimiter, htakes, hsleeps, htime, hend⟩ : w₁.limiter = s ∧ w₁.takes = 1 ∧ w₁.sleeps = []
        ∧ t ≤ w₁.time ∧ ∀ limit, deadline = some limit → w₁.time + w₀.wait gap ≤ limit := by
      rcases hw₁ with ⟨rfl, rfl⟩ | ⟨rfl, d, rfl, hle⟩
      · exact ⟨rfl, rfl, rfl, by omega, fun limit h => by cases h⟩
      · refine ⟨rfl, rfl, rfl, by omega, ?_⟩
        rintro limit ⟨⟩
        exact hle
    have hsleep : ((w₁.slept (w₀.wait gap)).granted gap).sleeps = [(w₁.time, w₀.wait gap)] := by
      simp only [Alone.granted, Alone.slept, Alone.read, hsleeps, List.nil_append]
    have hwait : 0 ≤ w₀.wait gap := le_max_right _ _
    refine ⟨true, (w₁.slept (w₀.wait gap)).granted gap, fun fuel hfuel => ?_, ?_, ?_, ?_,
      fun _ => ⟨?_, rfl⟩, fun _ => rfl, (w₁.slept (w₀.wait gap)).reading gap, ?_, le_refl _,
      fun _ => ⟨htoken, ?_⟩, fun h => by cases h⟩
    · obtain ⟨n, rfl⟩ : ∃ n, fuel = n + 2 := ⟨fuel - 2, by omega⟩
      exact hrun n
    · simp only [Alone.granted, Alone.slept, htakes, le_refl]
    · rw [hsleep]
      exact le_refl 1
    · intro n d hmem
      rw [hsleep, List.mem_singleton, Prod.mk.injEq] at hmem
      rw [hmem.1, hmem.2]
      exact hend
    · simp only [Alone.granted, Alone.slept, htakes]
    · simp only [Alone.reading, Alone.slept]
      omega
    · simp only [Alone.granted, Alone.slept, hlimiter]
  · -- refused, from a state that refilling leaves as it is
    refine ⟨false, (w₀.missed gap).read gap, fun fuel hfuel => ?_, Nat.le_succ 1, Nat.zero_le 1, ?_,
      ?_, fun h => (by cases h), w₀.reading gap, hfirst, le_trans hsecond hthird,
      fun h => (by cases h), fun _ => ?_⟩
    · obtain ⟨n, rfl⟩ : ∃ n, fuel = n + 1 := ⟨fuel - 1, by omega⟩
      exact hrun n
    · intro n d hmem
      cases hmem
    · exact fun hne => absurd rfl hne
    · exact (refill_not_due (Alone.within_reading gap hwithin) hempty hdue).symm

/-- A limiter that starts without tokens, waited for without a deadline. -/
theorem acquire_until_ends_empty :
    ∃ w, (∀ fuel, 2 ≤ fuel → acquire_until (alone fun _ => 1) none fuel
          { limiter := new { initial_tokens := 0 } 0, time := 0 } = (some true, w))
        ∧ w.takes ≤ 2 ∧ w.sleeps.length ≤ 1 := by
  obtain ⟨result, w, hrun, htakes, hsleeps, -, -, hresult, -⟩ :=
    acquire_until_ends (new { initial_tokens := 0 } 0) 0
      ⟨{ initial_tokens := 0 }, 0, [], [], _, rfl, by decide, by decide, rfl⟩ (by decide) none
      fun _ => 1
  rw [hresult rfl] at hrun
  exact ⟨w, hrun, htakes, hsleeps⟩

/-! ## Refusals -/

/-- **When a timed acquisition is refused only when justified.** The clock is
read as the call begins, to refill, to compute the wait, and to compare it with
the deadline. A refusal leaves no token, and the next one is due behind the
deadline, unless the deadline leaves less time behind the due time than passes
between the last two readings, or has passed at the last: there the code
refuses a token that is due in time. -/
theorem refused_only_when_due (s : RateLimiter) (t : ℤ) (hreach : Reachable s t)
    (hinterval : s.config_.interval_ns ≤ duration_max) (max_wait : ℤ) (gap : ℕ → ℕ) :
    let called : ℤ := t + gap 0
    let refilled : ℤ := called + gap 1
    let computed : ℤ := refilled + gap 2
    let compared : ℤ := computed + gap 3
    let limit : ℤ := min (called + max max_wait 0 * ns_per_ms) duration_max
    let due : ℤ := s.last_refill_ + s.config_.interval_ns
    (∀ fuel w, 2 ≤ fuel →
        acquire_for (alone gap) max_wait fuel { limiter := s, time := t } = (some false, w) →
        w.limiter.tokens_ = 0
          ∧ limit < w.limiter.last_refill_ + w.limiter.config_.interval_ns)
      ↔ ¬ (s.tokens_ = 0 ∧ refilled < due ∧ due ≤ limit
        ∧ (acquire_deadline max_wait called < compared
          ∨ acquire_deadline max_wait called - due < compared - computed
            + if s.config_.refill_interval = 9223372036854 then 775807 else 0)) := by
  intro called refilled computed compared limit due
  set w₀ : Alone := { limiter := s, time := t } with hw₀
  -- the call begins with a reading of its own
  have hcall : ∀ fuel, acquire_for (alone gap) max_wait fuel w₀
      = acquire_until (alone gap) (some (acquire_deadline max_wait called)) fuel (w₀.read gap) :=
    fun fuel => Proc.bind_run rfl
  have hbefore : w₀.limiter.Within w₀.time := hreach.within
  have hwithin : (w₀.read gap).limiter.Within (w₀.read gap).time :=
    Alone.within_reading gap hbefore
  have hwait : (w₀.read gap).wait gap
      = max (s.config_.wait_interval - (computed - s.last_refill_)) 0 := rfl
  rw [Config.wait_interval_eq hinterval] at hwait
  constructor
  · rintro hjustified ⟨hempty, hdue, hlimit, hlate⟩
    rcases acquire_until_cases hwithin hinterval (some (acquire_deadline max_wait called)) gap with
        ⟨htoken, -⟩ | ⟨-, w₁, hw₁, -⟩ | ⟨-, d, -, -, hrun⟩
    · -- before it is due there is no token
      have hsame : s.refill refilled = s :=
        refill_not_due (Alone.within_reading gap hwithin) hempty hdue
      change 1 ≤ (s.refill refilled).tokens_.toNat at htoken
      rw [hsame, hempty] at htoken
      exact absurd htoken (by decide)
    · -- the sleep would end behind the deadline
      rcases hw₁ with ⟨-, hnone⟩ | ⟨rfl, d, hd, hle⟩
      · cases hnone
      · cases hd
        change compared + (w₀.read gap).wait gap ≤ _ at hle
        omega
    · obtain ⟨-, hafter⟩ := hjustified 2 _ (le_refl 2) ((hcall 2).trans (hrun 1))
      exact absurd hlimit (not_le.mpr hafter)
  · intro hcond fuel w hfuel hrefused
    obtain ⟨n, rfl⟩ : ∃ n, fuel = n + 2 := ⟨fuel - 2, by omega⟩
    rw [hcall] at hrefused
    rcases acquire_until_cases hwithin hinterval (some (acquire_deadline max_wait called)) gap with
        ⟨-, hrun⟩ | ⟨-, w₁, -, -, hrun⟩ | ⟨⟨hempty, hdue⟩, d, hd, hlate, hrun⟩
    · rw [hrun (n + 1)] at hrefused
      cases hrefused
    · rw [hrun n] at hrefused
      cases hrefused
    · rw [hrun (n + 1)] at hrefused
      cases hrefused
      cases hd
      change acquire_deadline max_wait called < compared + (w₀.read gap).wait gap at hlate
      refine ⟨hempty, ?_⟩
      by_contra hlimit
      refine hcond ⟨hempty, hdue, not_lt.mp hlimit, ?_⟩
      omega

/-- A deadline of 50 ms at an empty limiter with an interval of 100 ms. -/
def early_refusal : Option Bool × Alone :=
  acquire_for (alone fun _ => 0) 50 2 { limiter := new { initial_tokens := 0 } 0, time := 0 }

theorem refused_only_when_due_early :
    early_refusal.1 = some false ∧ early_refusal.2.limiter.tokens_ = 0
      ∧ 50000000 < early_refusal.2.limiter.last_refill_
        + early_refusal.2.limiter.config_.interval_ns := by
  have hreach : Reachable (new { initial_tokens := 0 } 0) 0 :=
    ⟨{ initial_tokens := 0 }, 0, [], [], _, rfl, by decide, by decide, rfl⟩
  obtain ⟨hempty, hlimit⟩ := (refused_only_when_due (new { initial_tokens := 0 } 0) 0 hreach
    (by decide) 50 fun _ => 0).mpr (by decide) 2 early_refusal.2 (le_refl 2) rfl
  exact ⟨rfl, hempty, lt_of_eq_of_lt (by decide) hlimit⟩

/-- A limiter of one token, which was taken at time 0. -/
def one_taken : RateLimiter :=
  ((new { max_tokens := 1, initial_tokens := 1 } 0).take_or_wait_time 0 0).2

theorem one_taken_reachable : Reachable one_taken 0 :=
  ⟨{ max_tokens := 1, initial_tokens := 1 }, 0, [⟨0, .try_acquire, 0, 0⟩], [.granted], _, rfl,
    by decide, by decide, rfl⟩

/-- 60 ms between the computation of the wait and its comparison: a deadline of
150 ms is refused, although the next token is due at 100 ms. -/
theorem refused_before_deadline :
    ¬ ∀ (s : RateLimiter) (t : ℤ), Reachable s t → s.config_.interval_ns ≤ duration_max →
        ∀ (max_wait : ℤ) (gap : ℕ → ℕ) (fuel : ℕ) (w : Alone), 2 ≤ fuel →
          acquire_for (alone gap) max_wait fuel { limiter := s, time := t } = (some false, w) →
          w.limiter.tokens_ = 0
            ∧ min (t + gap 0 + max max_wait 0 * ns_per_ms) duration_max
              < w.limiter.last_refill_ + w.limiter.config_.interval_ns := by
  intro h
  obtain ⟨-, hlimit⟩ := h one_taken 0 one_taken_reachable (by decide) 150
    (fun k => if k = 3 then 60000000 else 0) 2 _ (le_refl 2) rfl
  exact absurd hlimit (by decide)

end OpenMeteo.RateLimiter
