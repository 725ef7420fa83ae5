/-
How long the calls of a client take.

The place here is `Alone`, the limiter and the clock of the one thread that uses the
client. Time passes before every reading of the clock and during every transfer, and a
sleep takes as long as it was asked to. An acquisition is two iterations at most, so it
returns within the wait it computes and the gaps between its readings; an attempt adds
one transfer; and a retry adds one delay between two attempts. The costs of the parts
add up along the program.
-/
import OpenMeteo.AcquireAlone
import OpenMeteo.Backoff
import OpenMeteo.ClientSession

set_option autoImplicit false

namespace OpenMeteo

open RateLimiter

/-! ## A client that one thread uses -/

/-- What the calls of a client meet: the time that passes before each reading of the
clock, and each transfer with how long it takes and its outcome. -/
structure Surroundings extends Outcomes where
  gap : ℕ → ℕ
  duration : ℕ → ℕ

/-- Time that passes. -/
def RateLimiter.Alone.passes (d : ℤ) (w : Alone) : Alone := { w with time := w.time + d }

/-- The limiter and its clock as a place. `sleep_for` takes milliseconds, and returns at
once where they are not positive. -/
def Surroundings.place (env : Surroundings) (fuel : ℕ) : Place Alone where
  acquire := do
    let config ← Proc.reads fun w => w.limiter.config_
    RateLimiter.acquire (alone env.gap) config fuel
  transfer := fun n => Alone.passes (env.duration n)
  sleep_for := fun delay => Alone.passes (max delay 0 * ns_per_ms)

/-- The services of a client in a session. -/
def Surroundings.services (env : Surroundings) (fuel : ℕ) : Services (Session Alone) :=
  (env.place fuel).services env.toOutcomes

/-! ## An acquisition -/

namespace RateLimiter

/-- What holds of the limiter and the clock throughout. -/
structure Alone.Sound (config : Config) (w : Alone) : Prop where
  config_eq : w.limiter.config_ = config
  within : w.limiter.Within w.time

variable {config : Config} {gap : ℕ → ℕ} {most : ℕ} {w : Alone}

theorem Alone.Sound.later {w' : Alone} (h : w.Sound config) (hlimiter : w'.limiter = w.limiter)
    (htime : w.time ≤ w'.time) : w'.Sound config := by
  refine ⟨hlimiter ▸ h.config_eq, ?_⟩
  rw [hlimiter]
  exact h.within.mono htime

/-- Time that passes is all it costs. -/
theorem Alone.Sound.passes (h : w.Sound config) {d : ℤ} (hd : 0 ≤ d) :
    (w.passes d).Sound config :=
  h.later rfl (by simp only [Alone.passes]; omega)

theorem Alone.Sound.granted (h : w.Sound config) (gap : ℕ → ℕ)
    (htoken : 1 ≤ (w.limiter.refill (w.reading gap)).tokens_.toNat) :
    (w.granted gap).Sound config := by
  have hnow := Alone.within_reading gap h.within
  obtain ⟨hconf, -, hwithin⟩ := hnow.take ((w.read gap).reading gap)
  rcases hnow.take_cases ((w.read gap).reading gap) with ⟨-, htake⟩ | ⟨hnone, -⟩
  · rw [htake] at hconf hwithin
    exact ⟨hconf.trans h.config_eq, hwithin⟩
  · rw [hnone] at htoken
    exact absurd htoken (by decide)

/-- **An acquisition returns in time**: within four gaps and the interval. -/
theorem acquire_until_spends (hinterval : config.interval_ns ≤ duration_max)
    (hgap : ∀ k, gap k ≤ most) (deadline : Option ℤ) {fuel : ℕ} (hfuel : 2 ≤ fuel) :
    Proc.Spends (Alone.Sound config) Alone.time (4 * most + config.wait_interval)
      (acquire_until (alone gap) deadline fuel) := by
  intro w hw
  obtain ⟨n, rfl⟩ : ∃ n, fuel = n + 2 := ⟨fuel - 2, by omega⟩
  have hbound : ∀ k, (gap k : ℤ) ≤ most := fun k => by exact_mod_cast hgap k
  have hconf := hw.config_eq
  subst hconf
  -- the wait is at most one interval, from the stamp on
  have hpositive := w.limiter.config_sane.interval_ns_pos
  have hrounded := Config.wait_interval_eq hinterval
  have hround : (0 : ℤ) ≤ if w.limiter.config_.refill_interval = 9223372036854 then 775807
      else 0 := by
    split <;> norm_num
  have hlast := hw.within.last_le
  have hlater : w.time ≤ (w.read gap).reading gap := by
    simp only [Alone.reading, Alone.read]
    omega
  have hwait_nonneg : 0 ≤ w.wait gap := le_max_right _ _
  have hwait : w.wait gap ≤ w.limiter.config_.wait_interval := by
    rw [Alone.wait]
    omega
  have hone := hbound w.reads
  have htwo := hbound (w.reads + 1)
  have hthree := hbound (w.reads + 1 + 1)
  have hfour := hbound (w.reads + 1 + 1 + 1)
  rcases acquire_until_cases hw.within hinterval deadline gap with ⟨htoken, hrun⟩
      | ⟨-, w₁, hw₁, htoken, hrun⟩ | ⟨-, d, -, -, hrun⟩
  · refine ⟨true, _, hrun (n + 1), hw.granted gap htoken, ?_⟩
    simp only [Alone.granted, Alone.read, Alone.reading]
    omega
  · have hslept : (w₁.slept (w.wait gap)).Sound w.limiter.config_ := by
      rcases hw₁ with ⟨rfl, -⟩ | ⟨rfl, -⟩
      · refine hw.later rfl ?_
        simp only [Alone.slept, Alone.missed, Alone.read, Alone.reading]
        omega
      · refine hw.later rfl ?_
        simp only [Alone.slept, Alone.missed, Alone.read, Alone.reading]
        omega
    have hlimiter : (w₁.slept (w.wait gap)).limiter = w.limiter := by
      rcases hw₁ with ⟨rfl, -⟩ | ⟨rfl, -⟩ <;> rfl
    refine ⟨true, _, hrun n, hslept.granted gap (hlimiter ▸ htoken), ?_⟩
    rcases hw₁ with ⟨rfl, -⟩ | ⟨rfl, -⟩
    · simp only [Alone.granted, Alone.slept, Alone.missed, Alone.read, Alone.reading]
      omega
    · simp only [Alone.granted, Alone.slept, Alone.missed, Alone.read, Alone.reading]
      omega
  · refine ⟨false, _, hrun (n + 1), hw.later rfl ?_, ?_⟩
    · simp only [Alone.missed, Alone.read, Alone.reading]
      omega
    · simp only [Alone.missed, Alone.read, Alone.reading]
      omega

/-- With its first reading, `acquire` takes five gaps. -/
theorem acquire_spends (hinterval : config.interval_ns ≤ duration_max)
    (hgap : ∀ k, gap k ≤ most) (settings : Config) {fuel : ℕ} (hfuel : 2 ≤ fuel) :
    Proc.Spends (Alone.Sound config) Alone.time (5 * most + config.wait_interval)
      (RateLimiter.acquire (alone gap) settings fuel) := by
  have hloop := fun deadline => acquire_until_spends hinterval hgap deadline hfuel
  unfold RateLimiter.acquire
  split
  · next max_wait _ =>
    have hread : Proc.Spends (Alone.Sound config) Alone.time most (alone gap).now := by
      intro w hw
      have hone := hgap w.reads
      refine ⟨_, _, rfl, hw.later rfl ?_, ?_⟩
      · simp only [Alone.read, Alone.reading]
        omega
      · simp only [Alone.read, Alone.reading]
        omega
    exact (hread.bind fun now => hloop (some (acquire_deadline max_wait now))).mono (by omega)
  · exact (hloop none).mono (by omega)

end RateLimiter

/-! ## A call -/

section Calls

variable {limit : RateLimiter.Config} {env : Surroundings} {gap duration fuel : ℕ}

theorem place_acquire_spends (hinterval : limit.interval_ns ≤ duration_max)
    (hgap : ∀ k, env.gap k ≤ gap) (hfuel : 2 ≤ fuel) :
    Proc.Spends (Alone.Sound limit) Alone.time (5 * gap + limit.wait_interval)
      (env.place fuel).acquire := by
  intro w hw
  obtain ⟨granted, w', hrun, hsound, hcost⟩ :=
    acquire_spends hinterval hgap w.limiter.config_ hfuel w hw
  exact ⟨granted, w', (Proc.bind_run rfl).trans hrun, hsound, hcost⟩

/-- Time that passes raises the clock by no more than its bound. -/
theorem passes_spends {w : Alone} (hw : w.Sound limit) {d most : ℤ} (hd : 0 ≤ d) (hle : d ≤ most) :
    (w.passes d).Sound limit ∧ (w.passes d).time ≤ w.time + most := by
  refine ⟨hw.passes hd, ?_⟩
  simp only [Alone.passes]
  omega

/-- A delay of the backoff. -/
theorem delay_spends (policy : RetryPolicy) (attempt : UInt8) (jitter : ℚ) (w : Alone)
    (hw : w.Sound limit) :
    (w.passes (max (calculate_retry_delay attempt policy jitter) 0 * ns_per_ms)).Sound limit
      ∧ (w.passes (max (calculate_retry_delay attempt policy jitter) 0 * ns_per_ms)).time
        ≤ w.time + policy.cap * ns_per_ms := by
  have hdelay := calculate_retry_delay_le policy attempt jitter
  have hcap := policy.cap_nonneg
  refine passes_spends hw (mul_nonneg (le_max_right _ _) (by decide)) ?_
  simp only [ns_per_ms]
  omega

/-- What a call may take: for every attempt an interval of the limiter, a transfer and
five readings of the clock, and between two attempts the longest delay. -/
def OpenMeteoClient.Config.call_time (config : OpenMeteoClient.Config)
    (limit : RateLimiter.Config) (gap duration : ℕ) : ℤ :=
  config.retry.max_attempts.toNat * (5 * gap + limit.wait_interval + duration)
    + (config.retry.max_attempts.toNat - 1 : ℕ) * (config.retry.cap * ns_per_ms)

/-- A call of `do_get` at this place. -/
theorem call_spends (config : OpenMeteoClient.Config)
    (hinterval : limit.interval_ns ≤ duration_max) (hwait : 0 ≤ limit.wait_interval)
    (hgap : ∀ k, env.gap k ≤ gap) (hduration : ∀ n, env.duration n ≤ duration)
    (hfuel : 2 ≤ fuel) (full_url : Bytes) :
    Proc.Spends (fun s : Session Alone => s.place.Sound limit) (fun s => s.place.time)
      (config.call_time limit gap duration)
      (OpenMeteoClient.do_get ⟨some config⟩ (env.services fuel) full_url) := by
  have htransfer : ∀ n (w : Alone), w.Sound limit →
      ((env.place fuel).transfer n w).Sound limit
        ∧ ((env.place fuel).transfer n w).time ≤ w.time + duration :=
    fun n w hw => passes_spends hw (Int.natCast_nonneg _) (by exact_mod_cast hduration n)
  exact do_get_spends config (place_acquire_spends hinterval hgap hfuel) htransfer
    (delay_spends config.retry) (by omega) (Int.natCast_nonneg _)
    (mul_nonneg config.retry.cap_nonneg (by decide)) env.toOutcomes full_url

end Calls

/-- **Every call of a client returns, in time.** From any state that its limiter can be
in, with any outcomes, draws and waits, the calls of a client that one thread uses all
return, where the interval of the limiter fits in nanoseconds. Each takes, for every
attempt it is allowed, at most this interval, rounded as the wait is, a transfer and
five readings of the clock, and between two attempts the longest delay. -/
theorem calls_return_in_time (config : OpenMeteoClient.Config) (s : Session Alone)
    (hreach : Reachable s.place.limiter s.place.time)
    (hinterval : s.place.limiter.config_.interval_ns ≤ duration_max) (env : Surroundings)
    (gap duration : ℕ) (hgap : ∀ k, env.gap k ≤ gap) (hduration : ∀ n, env.duration n ≤ duration)
    (glaze : Glaze) (calls : List Request) (fuel : ℕ) (hfuel : 2 ≤ fuel) :
    ∃ s', run_calls ⟨some config⟩ (env.services fuel) glaze calls s = (some (), s')
      ∧ s'.place.time - s.place.time
        ≤ calls.length * config.call_time s.place.limiter.config_ gap duration := by
  have hwait : 0 ≤ s.place.limiter.config_.wait_interval := by
    have hpositive := s.place.limiter.config_sane.interval_ns_pos
    rw [Config.wait_interval_eq hinterval]
    split
    · omega
    · omega
  obtain ⟨⟨⟩, s', hrun, -, hcost⟩ :=
    run_calls_spends (call_spends config hinterval hwait hgap hduration hfuel) glaze calls s
      ⟨rfl, hreach.within⟩
  exact ⟨s', hrun, sub_le_iff_le_add'.mpr hcost⟩

/-- A second until every transfer fails, and a limiter without tokens. -/
def unreachable : Surroundings where
  gap := fun _ => 1
  http := fun _ _ => .error (Error.network [])
  duration := fun _ => 1000000000
  jitter := fun _ => 1

def emptied : Session Alone where
  place := { limiter := RateLimiter.new { initial_tokens := 0 } 0, time := 0 }

/-- Two calls of three attempts each. -/
theorem calls_return_in_time_unreachable :
    ∃ s', run_calls ⟨some {}⟩ (unreachable.services 2)
          ⟨fun _ => .error [], fun _ => .error [], fun _ => .error []⟩
          [.elevation {}, .flood {}] emptied = (some (), s')
      ∧ s'.place.time ≤ 2 * (3 * (5 + 100000000 + 1000000000) + 2 * (30000 * 1000000)) := by
  have hreach : Reachable emptied.place.limiter emptied.place.time :=
    ⟨{ initial_tokens := 0 }, 0, [], [], _, rfl, by decide, by decide, rfl⟩
  obtain ⟨s', hrun, htime⟩ := calls_return_in_time {} emptied hreach (by decide) unreachable 1
    1000000000 (fun _ => le_refl _) (fun _ => le_refl _)
    ⟨fun _ => .error [], fun _ => .error [], fun _ => .error []⟩ [.elevation {}, .flood {}] 2
    (le_refl 2)
  refine ⟨s', hrun, ?_⟩
  rw [show emptied.place.time = 0 from rfl, sub_zero] at htime
  exact htime.trans (by decide)

end OpenMeteo
