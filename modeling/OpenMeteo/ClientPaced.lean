/-
The requests of one client keep the rate of its limiter.

`World` is the place where the client works here: the limiter, the clock, and a
log of what was done. Every reading of the clock is the next of one nondecreasing
sequence. The invariant, `Paced`, has two parts: the limiter is related to the
ideal bucket after exactly the takes of the log, and an `audit` of the log
finds every request directly behind a grant of its own. So the requests are
among the grants, and the bucket prices the grants of any span of time.
-/
import OpenMeteo.Acquire
import OpenMeteo.ClientPaid
import OpenMeteo.ClientSession

set_option autoImplicit false

namespace OpenMeteo

open RateLimiter

/-! ## The world -/

/-- What a run does not decide itself, with the readings of the clock, in order. -/
structure Env extends Outcomes where
  now : ℕ → ℤ
  now_mono : ∀ {m n : ℕ}, m ≤ n → now m ≤ now n

/-- `took` is the locked section of an acquisition, at its reading of the clock. -/
inductive Entry
  | took (now : ℤ) (granted : Bool)
  | requested
  | slept (duration : ℤ)
  deriving DecidableEq, Repr

structure World where
  limiter : RateLimiter
  readings : ℕ
  log : List Entry

/-- A new client's world: its limiter has read the clock once. -/
def World.new (env : Env) (config : RateLimiter.Config) : World where
  limiter := RateLimiter.new config (env.now 0)
  readings := 1
  log := []

namespace Env

def take_or_wait_time (env : Env) : Proc World (Option ℤ) := fun w =>
  let now := env.now w.readings
  let r := w.limiter.take_or_wait_time now (env.now (w.readings + 1))
  -- the second reading is made only when there is no token
  (some r.1,
    { w with
      limiter := r.2
      readings := w.readings + if r.1.isNone then 1 else 2
      log := w.log ++ [.took now r.1.isNone] })

def read_clock (env : Env) : Proc World ℤ := fun w =>
  (some (env.now w.readings), { w with readings := w.readings + 1 })

/-- One entry more in the log. -/
def enter (e : Entry) (w : World) : World := { w with log := w.log ++ [e] }

def port (env : Env) : RateLimiter.Port World where
  take_or_wait_time := env.take_or_wait_time
  now := env.read_clock
  sleep_for := fun duration => Proc.modifies (enter (.slept duration))

/-- The world as a place: the limiter acquires there, and the log says when a request
was made and for how long the backoff slept. -/
def place (env : Env) (fuel : ℕ) : Place World where
  acquire := do
    let config ← Proc.reads fun w => w.limiter.config_
    RateLimiter.acquire env.port config fuel
  transfer := fun _ => enter .requested
  sleep_for := fun duration => enter (.slept duration)

/-- The services of a client in this world. -/
def services (env : Env) (fuel : ℕ) : Services (Session World) :=
  (env.place fuel).services env.toOutcomes

end Env

/-! ## The audit of a log -/

/-- The time of a grant that the last entry was, the times of the grants
directly behind which a request was made, and the requests that had none. -/
structure Audit where
  pending : Option ℤ := none
  paid : List ℤ := []
  unpaid : ℕ := 0

def Audit.observe (audit : Audit) : Entry → Audit
  | .took now granted => { audit with pending := if granted then some now else none }
  | .slept _ => { audit with pending := none }
  | .requested =>
    match audit.pending with
    | some now => { audit with pending := none, paid := audit.paid ++ [now] }
    | none => { audit with unpaid := audit.unpaid + 1 }

def audit (log : List Entry) : Audit := log.foldl Audit.observe {}

theorem audit_concat (log : List Entry) (e : Entry) :
    audit (log ++ [e]) = (audit log).observe e := by
  rw [audit, List.foldl_append]
  rfl

/-- The takes of a log, as steps of a bucket. -/
def takes (log : List Entry) : List (TokenBucket.Op × ℤ) :=
  log.filterMap fun
    | .took now _ => some (.take, now)
    | _ => none

/-- The takes of a log, with what they got. -/
def stamps (log : List Entry) : List (ℤ × Bool) :=
  log.filterMap fun
    | .took now granted => some (now, granted)
    | _ => none

/-- The times of the grants of a log. -/
def grant_times (log : List Entry) : List ℤ :=
  log.filterMap fun
    | .took now true => some now
    | _ => none

theorem grant_times_concat (log : List Entry) (e : Entry) :
    grant_times (log ++ [e]) = grant_times log ++ grant_times [e] := List.filterMap_append

/-- The grants that were used, and the one that may still be, are grants of the log. -/
theorem audit_sublist (log : List Entry) :
    ((audit log).paid ++ (audit log).pending.toList).Sublist (grant_times log) := by
  induction log using List.reverseRecOn with
  | nil => exact List.Sublist.refl _
  | append_singleton log e ih =>
    have hpaid := (List.sublist_append_left (audit log).paid _).trans ih
    rw [audit_concat, grant_times_concat]
    -- only a grant adds to the right; a request moves the pending one to the left
    cases e with
    | took now granted =>
      cases granted with
      -- a grant that was pending before is forgotten
      | true => exact hpaid.append (List.Sublist.refl [now])
      | false => exact hpaid.append (List.Sublist.refl [])
    | slept d => exact hpaid.append (List.Sublist.refl [])
    | requested =>
      rw [show grant_times [Entry.requested] = [] from rfl, List.append_nil]
      simp only [Audit.observe]
      cases hpending : (audit log).pending with
      | none => simpa only [hpending] using ih
      | some now => simpa only [hpending, Option.toList, List.append_nil] using ih

/-- Every request of a log is paid or unpaid. -/
theorem audit_count (log : List Entry) :
    log.count .requested = (audit log).paid.length + (audit log).unpaid := by
  induction log using List.reverseRecOn with
  | nil => rfl
  | append_singleton log e ih =>
    rw [audit_concat, List.count_append, ih]
    cases e with
    | took now granted => simp [Audit.observe]
    | slept d => simp [Audit.observe]
    | requested =>
      simp only [Audit.observe]
      cases (audit log).pending with
      | some now =>
        simp only [List.length_append, List.length_singleton, List.count_singleton_self]
        omega
      | none =>
        simp only [List.count_singleton_self]
        omega

/-! ## The invariant -/

section Runs

variable {env : Env} {config : RateLimiter.Config} {w w' : World}

/-- The ideal bucket after the takes of a log. -/
def ideal (env : Env) (config : RateLimiter.Config) (log : List Entry) : TokenBucket.Level ℤ :=
  let bucket := (sanitized_sane config).bucket
  (bucket.run (bucket.new (env.now 0)) (takes log)).2

/-- What holds of the world at every point of a run. -/
structure Paced (env : Env) (config : RateLimiter.Config) (w : World) : Prop where
  config_eq : w.limiter.config_ = sanitized config
  refines : Refines w.limiter (ideal env config w.log)
  stamped : (sanitized_sane config).bucket.stamped ((sanitized_sane config).bucket.new (env.now 0))
    (takes w.log) = stamps w.log
  sorted : (env.now 0 :: (takes w.log).map Prod.snd).Pairwise (· ≤ ·)
  past : ∀ s ∈ takes w.log, s.2 ≤ env.now w.readings
  all_paid : (audit w.log).unpaid = 0

/-- The last step of the world was a grant. -/
def Granted (w : World) : Prop := (audit w.log).pending.isSome

theorem takes_took (log : List Entry) (now : ℤ) (granted : Bool) :
    takes (log ++ [.took now granted]) = takes log ++ [(.take, now)] := List.filterMap_append

theorem stamps_took (log : List Entry) (now : ℤ) (granted : Bool) :
    stamps (log ++ [.took now granted]) = stamps log ++ [(now, granted)] := List.filterMap_append

theorem new_paced (env : Env) (config : RateLimiter.Config) :
    Paced env config (World.new env config) where
  config_eq := rfl
  refines := new_refines config (env.now 0)
  stamped := rfl
  sorted := List.pairwise_singleton _ _
  past := fun _ hs => absurd hs List.not_mem_nil
  all_paid := rfl

/-- A step that leaves the limiter alone and logs no take. -/
theorem Paced.frame (h : Paced env config w) (hlimiter : w'.limiter = w.limiter)
    (htakes : takes w'.log = takes w.log) (hstamps : stamps w'.log = stamps w.log)
    (hreadings : w.readings ≤ w'.readings) (hpaid : (audit w'.log).unpaid = 0) :
    Paced env config w' where
  config_eq := by rw [hlimiter, h.config_eq]
  refines := by
    rw [hlimiter, ideal, htakes]
    exact h.refines
  stamped := by rw [htakes, hstamps, h.stamped]
  sorted := by
    rw [htakes]
    exact h.sorted
  past := fun s hs => le_trans (h.past s (htakes ▸ hs)) (env.now_mono hreadings)
  all_paid := hpaid

/-! ### Steps -/

/-- **A take of the limiter** is a take of the bucket, at the next reading. -/
theorem take_paced (w : World) (h : Paced env config w) :
    env.take_or_wait_time.Ensures w fun r w' =>
      Paced env config w' ∧ (r = some none → Granted w') := by
  have hsince : (ideal env config w.log).since ≤ env.now w.readings :=
    TokenBucket.run_since_le _ _ _ _ (env.now_mono (Nat.zero_le _)) h.past
  obtain ⟨hanswer, hrefines, hconfig⟩ :=
    h.refines.take (env.now w.readings) (env.now (w.readings + 1)) hsince
  have hbucket : w.limiter.bucket = (sanitized_sane config).bucket :=
    bucket_congr (s := RateLimiter.new config (env.now 0)) h.config_eq
  -- the configuration is the one the client started with, so the bucket is too
  rw [hbucket] at hanswer hrefines
  obtain ⟨hrun, hstamped⟩ := (sanitized_sane config).bucket.run_concat .take (env.now w.readings)
    (takes w.log) ((sanitized_sane config).bucket.new (env.now 0))
  refine ⟨⟨hconfig.trans h.config_eq, ?_, ?_, ?_, ?_, ?_⟩, ?_⟩
  · simp only [Env.take_or_wait_time, ideal, takes_took, hrun]
    exact hrefines
  · simp only [Env.take_or_wait_time, takes_took, stamps_took, hstamped, h.stamped]
    change _ ++ [(_, ((sanitized_sane config).bucket.step (ideal env config w.log) _ _).1.isGrant)]
      = _
    rw [hanswer]
    rfl
  · simp only [Env.take_or_wait_time, takes_took, List.map_append]
    rw [← List.cons_append]
    refine List.pairwise_append.mpr ⟨h.sorted, List.pairwise_singleton _ _, ?_⟩
    -- the new reading is not before any of the old ones
    intro t ht t' ht'
    rw [List.mem_singleton.mp ht']
    rcases List.mem_cons.mp ht with rfl | ht
    · exact env.now_mono (Nat.zero_le _)
    · obtain ⟨s, hs, rfl⟩ := List.mem_map.mp ht
      exact h.past s hs
  · simp only [Env.take_or_wait_time, takes_took]
    intro s hs
    rcases List.mem_append.mp hs with hs | hs
    · exact le_trans (h.past s hs) (env.now_mono (Nat.le_add_right _ _))
    · rw [List.mem_singleton.mp hs]
      exact env.now_mono (Nat.le_add_right _ _)
  · simp only [Env.take_or_wait_time, audit_concat]
    exact h.all_paid
  · intro hgot
    have hnone : (w.limiter.take_or_wait_time (env.now w.readings)
        (env.now (w.readings + 1))).1 = none := Option.some.inj hgot
    simp only [Granted, Env.take_or_wait_time, audit_concat, hnone]
    rfl

theorem read_clock_paced : Proc.Keeps (Paced env config) env.read_clock :=
  fun _ h => h.frame rfl rfl rfl (Nat.le_succ _) h.all_paid

theorem sleep_paced (duration : ℤ) (w : World) (h : Paced env config w) :
    Paced env config (Env.enter (.slept duration) w) := by
  refine h.frame rfl ?_ ?_ (le_refl _) ?_
  · exact List.filterMap_append.trans (List.append_nil _)
  · exact List.filterMap_append.trans (List.append_nil _)
  · simp only [Env.enter, audit_concat]
    exact h.all_paid

/-- A request directly behind a grant uses it up. -/
theorem request_paced (w : World) (h : Paced env config w) (hgranted : Granted w) :
    Paced env config (Env.enter .requested w) := by
  obtain ⟨now, hpending⟩ := Option.isSome_iff_exists.mp hgranted
  refine h.frame rfl ?_ ?_ (le_refl _) ?_
  · exact List.filterMap_append.trans (List.append_nil _)
  · exact List.filterMap_append.trans (List.append_nil _)
  · simp only [Env.enter, audit_concat, Audit.observe, hpending]
    exact h.all_paid

theorem acquire_paced (fuel : ℕ) (w : World) (h : Paced env config w) :
    (env.place fuel).acquire.Ensures w fun r w' =>
      Paced env config w' ∧ (r = some true → Granted w') :=
  @acquire_rule World env.port _ _ take_paced read_clock_paced sleep_paced w.limiter.config_ fuel w h

/-- **A run of endpoint calls keeps the invariant.** -/
theorem run_calls_paced (client : OpenMeteoClient) (fuel : ℕ) (glaze : Glaze)
    (calls : List Request) :
    Proc.Keeps (fun s : Session World => Paced env config s.place)
      (run_calls client (env.services fuel) glaze calls) :=
  run_calls_keeps (acquire_paced fuel) (fun _ => request_paced) sleep_paced env.toOutcomes client
    glaze calls

end Runs

/-! ## The rate of the requests -/

/-- Grants are counted in the stamps of a log. -/
theorem grant_times_between (s t : ℤ) (log : List Entry) :
    (grant_times log).countP (fun x => s ≤ x ∧ x ≤ t)
      = TokenBucket.grantsBetween s t (stamps log) := by
  induction log with
  | nil => rfl
  | cons e rest ih =>
    cases e with
    | took now granted =>
      have hstamps : stamps (.took now granted :: rest) = (now, granted) :: stamps rest := rfl
      rw [hstamps, TokenBucket.grantsBetween_cons, ← ih]
      cases granted with
      | true =>
        have hgrants : grant_times (.took now true :: rest) = now :: grant_times rest := rfl
        simp only [hgrants, List.countP_cons, true_and, decide_eq_true_eq]
      | false =>
        have hgrants : grant_times (.took now false :: rest) = grant_times rest := rfl
        simp only [hgrants, Bool.false_eq_true, false_and, if_false, add_zero]
    | requested => exact ih
    | slept d => exact ih

/-- No step of a client resets its limiter. -/
theorem resets_takes (log : List Entry) : TokenBucket.resets (takes log) = 0 := by
  refine List.countP_eq_zero.mpr fun s hs => ?_
  obtain ⟨e, -, he⟩ := List.mem_filterMap.mp hs
  cases e with
  | took now granted =>
    cases he
    exact Bool.false_ne_true
  | requested => cases he
  | slept d => cases he

/-- The bucket prices the grants of any span of time. -/
theorem Paced.grants_between {env : Env} {config : RateLimiter.Config} {w : World}
    (h : Paced env config w) {s t : ℤ} (hst : s ≤ t) :
    ((grant_times w.log).countP (fun x => s ≤ x ∧ x ≤ t) : ℤ)
      ≤ (sanitized config).max_tokens.toNat + (t - s) / (sanitized config).interval_ns := by
  have hI := (sanitized_sane config).interval_ns_pos
  have hacc := (sanitized_sane config).bucket.grantsBetween_account s t (le_of_lt hI) hst
    (takes w.log) ((sanitized_sane config).bucket.new (env.now 0))
    (TokenBucket.start_nonneg _) (TokenBucket.start_le_capacity _) h.sorted
  rw [h.stamped, resets_takes, Nat.cast_zero, zero_mul, add_zero] at hacc
  rw [grant_times_between]
  exact TokenBucket.whole_tokens hI hacc

/-- Every request is paid by a grant of its own. -/
theorem Paced.requests {env : Env} {config : RateLimiter.Config} {w : World}
    (h : Paced env config w) : w.log.count .requested = (audit w.log).paid.length := by
  rw [audit_count, h.all_paid, add_zero]

/-- **Every HTTP attempt is paid for.** In one call of `do_get`, against any
decisions and outcomes, the requests are those of the grants, each directly
behind its own, and a refusal is the end of it. So over a run of endpoint calls
on one client, of any length, the requests whose grants lie in a span of time
keep the rate of the limiter. -/
theorem every_attempt_paid (config : OpenMeteoClient.Config) :
    (∀ (σ : Type) (services : Services σ) (full_url : Bytes) (w : σ) (log : List ClientEvent),
      let client : OpenMeteoClient := ⟨some config⟩
      ∃ events, (client.do_get services.logged full_url (w, log)).2.2 = log ++ events
        ∧ (client.do_get services.logged full_url (w, log)).1
            = (client.do_get services full_url w).1
        ∧ PaidFor config.retry.max_attempts.toNat events (client.do_get services full_url w).1)
      ∧ ∀ (env : Env) (fuel : ℕ) (glaze : Glaze) (calls : List Request),
        let w := (run_calls ⟨some config⟩ (env.services fuel) glaze calls
          ⟨World.new env config.rate_limit, 0, 0⟩).2.place
        w.log.count .requested = (audit w.log).paid.length
          ∧ ∀ s t : ℤ, s ≤ t →
            ((audit w.log).paid.countP (fun x => s ≤ x ∧ x ≤ t) : ℤ)
              ≤ (sanitized config.rate_limit).max_tokens.toNat
                + (t - s) / (sanitized config.rate_limit).interval_ns := by
  refine ⟨fun σ services full_url w log => do_get_paid _ config rfl services full_url w log,
    fun env fuel glaze calls => ?_⟩
  have hpaced := run_calls_paced ⟨some config⟩ fuel glaze calls
    ⟨World.new env config.rate_limit, 0, 0⟩ (new_paced env config.rate_limit)
  refine ⟨hpaced.requests, fun s t hst => le_trans ?_ (hpaced.grants_between hst)⟩
  -- the requests are among the grants
  have hpaid := (List.sublist_append_left _ _).trans
    (audit_sublist (run_calls ⟨some config⟩ (env.services fuel) glaze calls
      ⟨World.new env config.rate_limit, 0, 0⟩).2.place.log)
  exact_mod_cast hpaid.countP_le

end OpenMeteo
