/-
The integer limiter refines the ideal token bucket.

The limiter keeps a 16-bit count and a time stamp, and rounds twice: the
nanoseconds since the stamp to milliseconds, and these to whole intervals. The
ideal bucket of `Lib/TokenBucket.lean` keeps one exact credit. The relation
between the two is `Refines`: the credit is the count times the interval plus
the time since the stamp, capped at a full bucket.

All of it rests on `refill_spec`, which says once what the three branches of
`refill` have in common: afterwards the stamp is less than one interval old and
the count times the interval plus that remainder *is* the advanced credit. The
remainder survives because the third branch moves the stamp by whole intervals
only; it is lost exactly where the ideal credit is capped as well.
-/
import OpenMeteo.Lib.TokenBucket
import OpenMeteo.RateLimit

set_option autoImplicit false

namespace OpenMeteo.RateLimiter

/-! ## What refilling computes -/

/-- The two truncating divisions are one division by the interval. -/
theorem earned_eq (s : RateLimiter) (now : ℤ) (h : s.last_refill_ ≤ now) :
    s.earned now = (now - s.last_refill_) / s.config_.interval_ns := by
  have hd : 0 ≤ now - s.last_refill_ := by omega
  have hms : 0 ≤ (now - s.last_refill_) / ns_per_ms := Int.ediv_nonneg hd (by decide)
  rw [earned, to_ms, Int.tdiv_eq_ediv_of_nonneg hd, Int.tdiv_eq_ediv_of_nonneg hms,
    Int.ediv_ediv_of_nonneg (by decide), Config.interval_ns, mul_comm]

/-- Whole intervals and a remainder below one interval. -/
theorem earned_bounds (s : RateLimiter) (now : ℤ) (h : s.last_refill_ ≤ now) :
    0 ≤ s.earned now
      ∧ s.earned now * s.config_.interval_ns ≤ now - s.last_refill_
      ∧ now - s.last_refill_ < s.earned now * s.config_.interval_ns + s.config_.interval_ns := by
  have hI := s.config_sane.interval_ns_pos
  rw [earned_eq s now h]
  refine ⟨Int.ediv_nonneg (by omega) (le_of_lt hI), Int.ediv_mul_le _ (ne_of_gt hI), ?_⟩
  have := Int.lt_ediv_add_one_mul_self (now - s.last_refill_) hI
  linarith

/-- The credit a limiter stands for at time `t`, before it is capped. -/
def credit (s : RateLimiter) (t : ℤ) : ℤ :=
  s.tokens_.toNat * s.config_.interval_ns + (t - s.last_refill_)

/-- The credit of a full bucket. -/
def Config.full (config : Config) : ℤ := config.max_tokens.toNat * config.interval_ns

/-- **`refill`.** The configuration stays, the count stays within its bound,
the stamp is at most `now` and less than one interval behind, and the credit
that count and stamp stand for is the old credit, capped. -/
theorem refill_spec (s : RateLimiter) (now : ℤ) (hlast : s.last_refill_ ≤ now)
    (hmax : s.tokens_.toNat ≤ s.config_.max_tokens.toNat) :
    (s.refill now).config_ = s.config_
      ∧ (s.refill now).tokens_.toNat ≤ s.config_.max_tokens.toNat
      ∧ (s.refill now).last_refill_ ≤ now
      ∧ now - (s.refill now).last_refill_ < s.config_.interval_ns
      ∧ (s.refill now).credit now = min s.config_.full (s.credit now) := by
  have hI := s.config_sane.interval_ns_pos
  obtain ⟨he0, hele, helt⟩ := earned_bounds s now hlast
  have hM : s.config_.max_tokens.toNat < 65536 := s.config_.max_tokens.toNat_lt
  unfold refill
  by_cases hfull : s.config_.max_tokens ≤ s.tokens_
  · -- full: the time since the stamp is dropped, and the credit was capped
    rw [if_pos hfull]
    rw [UInt16.le_iff_toNat_le] at hfull
    have heq : s.tokens_.toNat = s.config_.max_tokens.toNat := le_antisymm hmax hfull
    refine ⟨rfl, hmax, le_refl _, by simpa using hI, ?_⟩
    simp only [credit, Config.full, heq]
    rw [min_eq_left (by omega)]
    omega
  · rw [if_neg hfull]
    rw [UInt16.le_iff_toNat_le, not_le] at hfull
    by_cases hnone : s.earned now ≤ 0
    · -- nothing earned: less than one interval has passed, so nothing is capped
      rw [if_pos hnone]
      have hezero : s.earned now = 0 := le_antisymm hnone he0
      rw [hezero, zero_mul, zero_add] at helt
      refine ⟨rfl, hmax, hlast, helt, (min_eq_right ?_).symm⟩
      have hstep : ((s.tokens_.toNat : ℤ) + 1) * s.config_.interval_ns ≤ s.config_.full :=
        Int.mul_le_mul_of_nonneg_right (by exact_mod_cast hfull) (le_of_lt hI)
      simp only [credit]
      linarith
    · rw [if_neg hnone]
      dsimp only
      by_cases hsat : (s.config_.max_tokens.toNat : ℤ) ≤ s.tokens_.toNat + s.earned now
      · -- saturating: the earned tokens alone fill the bucket
        rw [if_pos hsat]
        refine ⟨rfl, le_refl _, le_refl _, by simpa using hI, ?_⟩
        have hstep : s.config_.full
            ≤ ((s.tokens_.toNat : ℤ) + s.earned now) * s.config_.interval_ns :=
          Int.mul_le_mul_of_nonneg_right hsat (le_of_lt hI)
        have hover : s.config_.full ≤ s.credit now := by
          simp only [credit]
          linarith
        rw [min_eq_left hover]
        simp only [credit, Config.full, sub_self, add_zero]
      · -- partial: the stamp moves by whole intervals and keeps the remainder
        rw [if_neg hsat]
        have hcast : ((UInt16.ofInt ((s.tokens_.toNat : ℤ) + s.earned now)).toNat : ℤ)
            = s.tokens_.toNat + s.earned now := u16_toNat_ofInt _ (by omega) (by omega)
        have hstep : ((s.tokens_.toNat : ℤ) + s.earned now + 1) * s.config_.interval_ns
            ≤ s.config_.full := Int.mul_le_mul_of_nonneg_right (by omega) (le_of_lt hI)
        have hmove : s.earned now * s.config_.refill_interval * ns_per_ms
            = s.earned now * s.config_.interval_ns := mul_assoc _ _ _
        refine ⟨rfl, by dsimp only; omega, ?_, ?_, ?_⟩
        · dsimp only
          rw [hmove]
          omega
        · dsimp only
          rw [hmove]
          omega
        · rw [min_eq_right (by simp only [credit]; linarith)]
          simp only [credit, hcast, hmove]
          ring

/-! ## The invariant -/

/-- What every reachable state of a limiter satisfies at the present `t`. -/
structure Within (s : RateLimiter) (t : ℤ) : Prop where
  tokens_le : s.tokens_.toNat ≤ s.config_.max_tokens.toNat
  last_le : s.last_refill_ ≤ t

theorem Within.mono {s : RateLimiter} {t now : ℤ} (h : s.Within t) (hle : t ≤ now) :
    s.Within now := ⟨h.tokens_le, le_trans h.last_le hle⟩

theorem new_within (config : Config) (now : ℤ) : (new config now).Within now :=
  ⟨(sanitized_sane config).initial_le, le_refl _⟩

theorem reset_within (s : RateLimiter) (now : ℤ) : (s.reset now).Within now :=
  ⟨s.config_sane.initial_le, le_refl _⟩

theorem Within.refill {s : RateLimiter} {now : ℤ} (h : s.Within now) :
    (s.refill now).config_ = s.config_ ∧ (s.refill now).Within now := by
  obtain ⟨hconf, htokens, hlast, -, -⟩ := refill_spec s now h.last_le h.tokens_le
  exact ⟨hconf, by rw [hconf]; exact htokens, hlast⟩

theorem refill_config (s : RateLimiter) (now : ℤ) : (s.refill now).config_ = s.config_ := by
  unfold refill
  dsimp only
  split_ifs <;> rfl

theorem take_config (s : RateLimiter) (now later : ℤ) :
    (s.take_or_wait_time now later).2.config_ = s.config_ := by
  unfold take_or_wait_time
  dsimp only
  split <;> exact refill_config s now

/-- Taking a token keeps the configuration and the stamp of the refilled state. -/
theorem Within.take {s : RateLimiter} {now : ℤ} (h : s.Within now) (later : ℤ) :
    (s.take_or_wait_time now later).2.config_ = s.config_
      ∧ (s.take_or_wait_time now later).2.last_refill_ = (s.refill now).last_refill_
      ∧ (s.take_or_wait_time now later).2.Within now := by
  obtain ⟨hconf, hrefilled⟩ := h.refill
  unfold take_or_wait_time
  dsimp only
  split
  · next hpos =>
    have hpos' : (1 : UInt16).toNat ≤ (s.refill now).tokens_.toNat :=
      UInt16.lt_iff_toNat_lt.mp hpos
    have hdec : ((s.refill now).tokens_ - 1).toNat ≤ (s.refill now).tokens_.toNat := by
      rw [UInt16.toNat_sub_of_le _ _ (UInt16.le_iff_toNat_le.mpr hpos')]
      exact Nat.sub_le _ _
    exact ⟨hconf, rfl, le_trans hdec hrefilled.tokens_le, hrefilled.last_le⟩
  · exact ⟨hconf, rfl, hrefilled⟩

/-! ## The simulation -/

/-- The ideal bucket with a sane configuration's settings: one token costs one
interval. -/
def Config.Sane.bucket {config : Config} (h : config.Sane) : TokenBucket ℤ where
  capacity := config.full
  cost := config.interval_ns
  start := config.initial_tokens.toNat * config.interval_ns
  start_nonneg := mul_nonneg (Int.natCast_nonneg _) (le_of_lt h.interval_ns_pos)
  start_le_capacity :=
    Int.mul_le_mul_of_nonneg_right (by exact_mod_cast h.initial_le) (le_of_lt h.interval_ns_pos)

/-- The bucket a limiter implements. -/
def bucket (s : RateLimiter) : TokenBucket ℤ := s.config_sane.bucket

/-- The simulation relation: the limiter's credit at the bucket's own time,
capped, is the bucket's. -/
structure Refines (s : RateLimiter) (l : TokenBucket.Level ℤ) : Prop where
  last_le : s.last_refill_ ≤ l.since
  tokens_le : s.tokens_.toNat ≤ s.config_.max_tokens.toNat
  credit_eq : l.credit = min s.config_.full (s.credit l.since)

theorem Refines.credit_nonneg {s : RateLimiter} {l : TokenBucket.Level ℤ} (h : Refines s l) :
    0 ≤ l.credit := by
  have hI := s.config_sane.interval_ns_pos
  have hlast := h.last_le
  rw [h.credit_eq]
  refine le_min (mul_nonneg (Int.natCast_nonneg _) (le_of_lt hI)) ?_
  have := mul_nonneg (Int.natCast_nonneg s.tokens_.toNat) (le_of_lt hI)
  simp only [credit]
  omega

/-- Related states advance to the same credit, `refill`'s. -/
theorem Refines.advance_eq {s : RateLimiter} {l : TokenBucket.Level ℤ} (h : Refines s l)
    (now : ℤ) (hnow : l.since ≤ now) :
    s.bucket.advance l now = min s.config_.full (s.credit now) := by
  have hl : l = ⟨min s.bucket.capacity (s.credit l.since), l.since⟩ := by
    rw [show s.bucket.capacity = s.config_.full from rfl, ← h.credit_eq]
  have hcred : s.credit l.since + (now - l.since) = s.credit now := by
    simp only [credit]
    ring
  rw [hl, TokenBucket.advance_min _ _ _ _ hnow, hcred]
  rfl

theorem new_refines (config : Config) (now : ℤ) :
    Refines (new config now) ((new config now).bucket.new now) := by
  have hsane := sanitized_sane config
  refine ⟨le_refl _, hsane.initial_le, ?_⟩
  have hle : (new config now).bucket.start ≤ (new config now).bucket.capacity :=
    (new config now).bucket.start_le_capacity
  have hcred : (new config now).credit now = (new config now).bucket.start := by
    simp only [credit, new, sub_self, add_zero]
    rfl
  change (new config now).bucket.start = min (new config now).bucket.capacity _
  rw [TokenBucket.new, hcred, min_eq_right hle]

/-- **The locked section of an acquisition** is one `take` of the bucket. -/
theorem Refines.take {s : RateLimiter} {l : TokenBucket.Level ℤ} (h : Refines s l)
    (now later : ℤ) (hnow : l.since ≤ now) :
    (s.bucket.step l now .take).1 = .taken (s.take_or_wait_time now later).1.isNone
      ∧ Refines (s.take_or_wait_time now later).2 (s.bucket.step l now .take).2
      ∧ (s.take_or_wait_time now later).2.config_ = s.config_ := by
  have hI := s.config_sane.interval_ns_pos
  obtain ⟨hconf, htok, hlast, hrem, hcred⟩ :=
    refill_spec s now (le_trans h.last_le hnow) h.tokens_le
  have hadv := h.advance_eq now hnow
  rw [← hcred] at hadv
  have hcost : s.bucket.cost = s.config_.interval_ns := rfl
  simp only [TokenBucket.step, take_or_wait_time, hadv, hcost]
  -- from here on the refilled limiter is all that matters
  rw [← hconf] at htok hI hrem hcred ⊢
  generalize s.refill now = r at *
  by_cases hpos : 0 < r.tokens_
  · have hpos' : 1 ≤ r.tokens_.toNat := UInt16.lt_iff_toNat_lt.mp hpos
    have hdec : (r.tokens_ - 1).toNat = r.tokens_.toNat - 1 :=
      UInt16.toNat_sub_of_le _ _ (UInt16.le_iff_toNat_le.mpr hpos')
    have hpay : r.config_.interval_ns ≤ r.credit now := by
      have : (1 : ℤ) * r.config_.interval_ns ≤ r.tokens_.toNat * r.config_.interval_ns :=
        Int.mul_le_mul_of_nonneg_right (by exact_mod_cast hpos') (le_of_lt hI)
      simp only [credit]
      omega
    rw [if_pos hpos, if_pos hpay]
    refine ⟨rfl, ⟨hlast, by dsimp only; omega, ?_⟩, rfl⟩
    have hdrop : r.credit now - r.config_.interval_ns
        = ({ r with tokens_ := r.tokens_ - 1 } : RateLimiter).credit now := by
      simp only [credit, hdec]
      push_cast [hpos']
      ring
    have hfull : r.credit now ≤ r.config_.full := by
      rw [hcred, hconf]
      exact min_le_left _ _
    rw [hdrop]
    exact (min_eq_right (by rw [← hdrop]; linarith)).symm
  · have hzero : r.tokens_.toNat = 0 := by
      rw [UInt16.lt_iff_toNat_lt] at hpos
      simpa using hpos
    have hpoor : ¬ r.config_.interval_ns ≤ r.credit now := by
      simp only [credit, hzero]
      push_cast
      omega
    rw [if_neg hpos, if_neg hpoor]
    refine ⟨rfl, ⟨hlast, htok, ?_⟩, rfl⟩
    rw [hcred, hconf]
    simp

/-- `available_tokens` writes nothing and shows the whole tokens of the
advanced credit. -/
theorem Refines.peek {s : RateLimiter} {l : TokenBucket.Level ℤ} (h : Refines s l) (now : ℤ)
    (hnow : l.since ≤ now) :
    ((s.available_tokens now).toNat : ℤ) = s.bucket.advance l now / s.config_.interval_ns
      ∧ Refines s (s.bucket.step l now .peek).2 := by
  have hI := s.config_sane.interval_ns_pos
  have hlast : s.last_refill_ ≤ now := le_trans h.last_le hnow
  obtain ⟨he0, -, -⟩ := earned_bounds s now hlast
  have hM : s.config_.max_tokens.toNat < 65536 := s.config_.max_tokens.toNat_lt
  refine ⟨?_, ⟨hlast, h.tokens_le, h.advance_eq now hnow⟩⟩
  have hwhole : s.credit now / s.config_.interval_ns = s.tokens_.toNat + s.earned now := by
    rw [credit, earned_eq s now hlast, add_comm, Int.add_mul_ediv_right _ _ (ne_of_gt hI)]
    ring
  have hfull : s.config_.full / s.config_.interval_ns = s.config_.max_tokens.toNat :=
    Int.mul_ediv_cancel _ (ne_of_gt hI)
  -- division by the interval goes through the cap
  have hmono : Monotone fun x : ℤ => x / s.config_.interval_ns :=
    fun _ _ hxy => Int.ediv_le_ediv hI hxy
  rw [h.advance_eq now hnow, available_tokens, max_eq_left he0,
    u16_toNat_ofInt _ (by omega) (by omega), hmono.map_min, hwhole, hfull, min_comm]

theorem reset_refines (s : RateLimiter) (l : TokenBucket.Level ℤ) (now : ℤ) :
    Refines (s.reset now) (s.bucket.step l now .reset).2 := by
  refine ⟨le_refl _, s.config_sane.initial_le, ?_⟩
  have hcred : (s.reset now).credit now = s.bucket.start := by
    simp only [credit, RateLimiter.reset, sub_self, add_zero]
    rfl
  change s.bucket.start = min s.bucket.capacity ((s.reset now).credit now)
  rw [hcred, min_eq_right s.bucket.start_le_capacity]

/-! ## Runs of one limiter -/

/-- The operations whose results a caller sees at once. -/
inductive Op
  | try_acquire
  | available_tokens
  | reset
  deriving DecidableEq, Repr

/-- One call, with its readings of the clock. -/
structure Event where
  op : Op
  now : ℤ
  later : ℤ
  deriving DecidableEq, Repr

/-- What a call returns. -/
inductive Output
  | acquired (granted : Bool)
  | available (count : UInt16)
  | done
  deriving DecidableEq, Repr

def exec (s : RateLimiter) (e : Event) : Output × RateLimiter :=
  match e.op with
  | .try_acquire => (.acquired (s.try_acquire e.now e.later).1, (s.try_acquire e.now e.later).2)
  | .available_tokens => (.available (s.available_tokens e.now), s)
  | .reset => (.done, s.reset e.now)

/-- The results of a run of calls. -/
def outputs : RateLimiter → List Event → List Output
  | _, [] => []
  | s, e :: rest => (s.exec e).1 :: outputs (s.exec e).2 rest

/-- The bucket operation a call corresponds to. -/
def Op.ideal : Op → TokenBucket.Op
  | .try_acquire => .take
  | .available_tokens => .peek
  | .reset => .reset

def Event.ideal (e : Event) : TokenBucket.Op × ℤ := (e.op.ideal, e.now)

/-- The limiter's result is the bucket's: the same decision, or the whole
tokens of the credit. -/
def Output.Agrees (interval : ℤ) : Output → TokenBucket.Answer ℤ → Prop
  | .acquired granted, .taken granted' => granted = granted'
  | .available count, .level credit => (count.toNat : ℤ) = credit / interval
  | .done, .done => True
  | _, _ => False

/-- The configuration, and with it the bucket, is never written. -/
theorem exec_config (s : RateLimiter) (e : Event) : (s.exec e).2.config_ = s.config_ := by
  unfold exec
  cases e.op with
  | try_acquire =>
    simp only [try_acquire, take_or_wait_time, refill]
    split_ifs <;> rfl
  | available_tokens => rfl
  | reset => rfl

theorem bucket_congr {s s' : RateLimiter} (h : s'.config_ = s.config_) : s'.bucket = s.bucket := by
  obtain ⟨config, sane, tokens, last⟩ := s
  obtain ⟨config', sane', tokens', last'⟩ := s'
  subst h
  rfl

/-- **One call** of a limiter agrees with one step of its bucket and leaves the
two related. -/
theorem Refines.exec {s : RateLimiter} {l : TokenBucket.Level ℤ} (h : Refines s l) (e : Event)
    (hnow : l.since ≤ e.now) :
    (s.exec e).1.Agrees s.config_.interval_ns (s.bucket.step l e.now e.op.ideal).1
      ∧ Refines (s.exec e).2 (s.bucket.step l e.now e.op.ideal).2 := by
  unfold RateLimiter.exec
  cases e.op with
  | try_acquire =>
    obtain ⟨hans, href, -⟩ := h.take e.now e.later hnow
    refine ⟨?_, href⟩
    simp only [Op.ideal, hans]
    rfl
  | available_tokens => exact h.peek e.now hnow
  | reset => exact ⟨trivial, s.reset_refines l e.now⟩

/-- The simulation over a run, by induction on the calls. -/
theorem Refines.outputs (events : List Event) :
    ∀ (s : RateLimiter) (l : TokenBucket.Level ℤ), Refines s l →
      (l.since :: events.map Event.now).Pairwise (· ≤ ·) →
      List.Forall₂ (Output.Agrees s.config_.interval_ns) (s.outputs events)
        (s.bucket.run l (events.map Event.ideal)).1 := by
  induction events with
  | nil => intro s l _ _; exact List.Forall₂.nil
  | cons e rest ih =>
    intro s l h hclock
    rw [List.map_cons, List.pairwise_cons] at hclock
    obtain ⟨hout, href⟩ := h.exec e (hclock.1 e.now (List.mem_cons_self ..))
    have hconf := s.exec_config e
    have hrest := ih _ _ href (by rw [TokenBucket.step_since]; exact hclock.2)
    rw [hconf, bucket_congr hconf] at hrest
    exact List.Forall₂.cons hout hrest

/-- **The integer limiter refines the ideal bucket.** From construction on, at
readings that do not run backwards, every result is the ideal bucket's. -/
theorem refines_ideal_bucket (config : Config) (start : ℤ) (events : List Event)
    (hclock : (start :: events.map Event.now).Pairwise (· ≤ ·)) :
    List.Forall₂ (Output.Agrees (sanitized config).interval_ns)
      ((new config start).outputs events)
      ((sanitized_sane config).bucket.run ((sanitized_sane config).bucket.new start)
        (events.map Event.ideal)).1 :=
  Refines.outputs events (new config start) _ (new_refines config start) hclock

/-- A bucket of one token: emptied, refused, shown full again after one
interval, and set back. -/
theorem refines_ideal_bucket_at_burst :
    List.Forall₂ (Output.Agrees 100000000)
      ((new { max_tokens := 1, initial_tokens := 1 } 5).outputs
        [⟨.try_acquire, 5, 5⟩, ⟨.try_acquire, 99000000, 99000001⟩, ⟨.available_tokens, 100000005, 0⟩,
          ⟨.reset, 100000006, 0⟩])
      ((sanitized_sane { max_tokens := 1, initial_tokens := 1 }).bucket.run
        ((sanitized_sane { max_tokens := 1, initial_tokens := 1 }).bucket.new 5)
        [(.take, 5), (.take, 99000000), (.peek, 100000005), (.reset, 100000006)]).1 :=
  refines_ideal_bucket { max_tokens := 1, initial_tokens := 1 } 5
    [⟨.try_acquire, 5, 5⟩, ⟨.try_acquire, 99000000, 99000001⟩, ⟨.available_tokens, 100000005, 0⟩,
      ⟨.reset, 100000006, 0⟩] (by decide)

end OpenMeteo.RateLimiter
