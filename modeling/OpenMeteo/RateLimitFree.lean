/-
Failed attempts and queries are free.

A failed attempt refills, and so moves the count and the stamp. What makes it
free is `refill_refill`: to refill on the way changes nothing of what a later
refill leaves. It holds because `refill_spec` fixes the result, the credit
splitting in one way only into whole tokens and a remainder below one interval.

Two runs that differ in inserted calls pass through different states. `Alike`
is what they keep in common: from now on both refill to the same state.
-/
import OpenMeteo.RateLimitThreads

set_option autoImplicit false

namespace OpenMeteo.RateLimiter

variable {s s' : RateLimiter} {t now later : ℤ}

/-! ## Refilling on the way -/

/-- A credit is whole tokens and a remainder in one way only. -/
theorem eq_of_credit_eq (hconf : s.config_ = s'.config_)
    (hlast : s.last_refill_ ≤ t) (hlast' : s'.last_refill_ ≤ t)
    (hrem : t - s.last_refill_ < s.config_.interval_ns)
    (hrem' : t - s'.last_refill_ < s'.config_.interval_ns)
    (hcredit : s.credit t = s'.credit t) : s = s' := by
  have hI := s.config_sane.interval_ns_pos
  obtain ⟨config, hsane, tokens, last⟩ := s
  obtain ⟨config', hsane', tokens', last'⟩ := s'
  dsimp only at hconf hlast hlast' hrem hrem' hI
  subst hconf
  simp only [credit] at hcredit
  have htokens : (tokens.toNat : ℤ) = tokens'.toNat := by
    have hdiv := congrArg (· / config.interval_ns) hcredit
    rw [add_comm, Int.add_mul_ediv_right _ _ (ne_of_gt hI), add_comm _ (t - last'),
      Int.add_mul_ediv_right _ _ (ne_of_gt hI), Int.ediv_eq_zero_of_lt (by omega) hrem,
      Int.ediv_eq_zero_of_lt (by omega) hrem'] at hdiv
    omega
  have hsame : tokens = tokens' := UInt16.toNat_inj.mp (by exact_mod_cast htokens)
  subst hsame
  have hstamp : last = last' := by omega
  rw [hstamp]

/-- **To refill on the way changes nothing.** -/
theorem refill_refill (h : s.Within t) (hle : t ≤ now) : (s.refill t).refill now = s.refill now := by
  obtain ⟨hconf₁, hrefilled⟩ := h.refill
  have hcred₁ := (refill_spec s t h.last_le h.tokens_le).2.2.2.2
  obtain ⟨hconf₂, -, hlast₂, hrem₂, hcred₂⟩ :=
    refill_spec (s.refill t) now (le_trans hrefilled.last_le hle) hrefilled.tokens_le
  obtain ⟨hconf₃, -, hlast₃, hrem₃, hcred₃⟩ :=
    refill_spec s now (le_trans h.last_le hle) h.tokens_le
  refine eq_of_credit_eq (by rw [hconf₂, hconf₁, hconf₃]) hlast₂ hlast₃
    (by rw [hconf₂]; exact hrem₂) (by rw [hconf₃]; exact hrem₃) ?_
  -- capping on the way is absorbed by the cap at the end
  have hlater : (s.refill t).credit now = (s.refill t).credit t + (now - t) := by
    simp only [credit]
    ring
  have hdirect : s.credit now = s.credit t + (now - t) := by
    simp only [credit]
    ring
  rw [hcred₂, hcred₃, hconf₁, hlater, hcred₁, hdirect]
  omega

/-- `available_tokens` shows what `refill` would leave, without leaving it. -/
theorem available_tokens_eq (h : s.Within now) :
    s.available_tokens now = (s.refill now).tokens_ := by
  have hmax := h.tokens_le
  obtain ⟨he0, -, -⟩ := earned_bounds s now h.last_le
  have hM : s.config_.max_tokens.toNat < 65536 := s.config_.max_tokens.toNat_lt
  have hcount : ((s.available_tokens now).toNat : ℤ)
      = min ((s.tokens_.toNat : ℤ) + s.earned now) s.config_.max_tokens.toNat := by
    rw [available_tokens, max_eq_left he0]
    exact u16_toNat_ofInt _ (by omega) (by omega)
  refine UInt16.toNat_inj.mp ?_
  unfold refill
  -- full, nothing earned, saturating and partial
  by_cases hfull : s.config_.max_tokens ≤ s.tokens_
  · rw [if_pos hfull]
    rw [UInt16.le_iff_toNat_le] at hfull
    dsimp only
    omega
  · rw [if_neg hfull]
    by_cases hnone : s.earned now ≤ 0
    · rw [if_pos hnone]
      omega
    · rw [if_neg hnone]
      dsimp only
      by_cases hsat : (s.config_.max_tokens.toNat : ℤ) ≤ s.tokens_.toNat + s.earned now
      · rw [if_pos hsat]
        dsimp only
        omega
      · rw [if_neg hsat]
        dsimp only
        have hcast := u16_toNat_ofInt (s.tokens_.toNat + s.earned now) (by omega) (by omega)
        omega

/-- An attempt without a token leaves the refilled state. -/
theorem take_missed (h : (s.take_or_wait_time now later).1 ≠ none) :
    (s.take_or_wait_time now later).2 = s.refill now := by
  unfold take_or_wait_time at h ⊢
  dsimp only at h ⊢
  split
  · next hpos =>
    rw [if_pos hpos] at h
    exact absurd rfl h
  · rfl

/-! ## States that behave alike -/

/-- Two states of a limiter at time `t`, of which the first may have been
refilled more often. -/
structure Alike (s s' : RateLimiter) (t : ℤ) : Prop where
  config_eq : s.config_ = s'.config_
  refill_eq : ∀ now, t ≤ now → s.refill now = s'.refill now
  within : s.Within t
  within' : s'.Within t

theorem Alike.refl (h : s.Within t) : Alike s s t := ⟨rfl, fun _ _ => rfl, h, h⟩

theorem Alike.mono (h : Alike s s' t) (hle : t ≤ now) : Alike s s' now :=
  ⟨h.config_eq, fun later hlater => h.refill_eq later (le_trans hle hlater),
    h.within.mono hle, h.within'.mono hle⟩

/-- An attempt without a token, in the first state only, leaves the two alike. -/
theorem Alike.missed (h : Alike s s' t) (hle : t ≤ now)
    (hmiss : (s.take_or_wait_time now later).1 ≠ none) :
    Alike (s.take_or_wait_time now later).2 s' now := by
  have hwithin := h.within.mono hle
  rw [take_missed hmiss]
  refine ⟨hwithin.refill.1.trans h.config_eq, fun after hafter => ?_, hwithin.refill.2,
    h.within'.mono hle⟩
  rw [refill_refill hwithin hafter]
  exact h.refill_eq after (le_trans hle hafter)

theorem Alike.take_eq (h : Alike s s' t) (hle : t ≤ now) (later : ℤ) :
    s.take_or_wait_time now later = s'.take_or_wait_time now later := by
  unfold take_or_wait_time
  rw [h.refill_eq now hle]

theorem Alike.available_eq (h : Alike s s' t) (hle : t ≤ now) :
    s.available_tokens now = s'.available_tokens now := by
  rw [available_tokens_eq (h.within.mono hle), available_tokens_eq (h.within'.mono hle),
    h.refill_eq now hle]

theorem Alike.reset_eq (h : Alike s s' t) (now : ℤ) : s.reset now = s'.reset now := by
  have hconf := h.config_eq
  obtain ⟨config, hsane, tokens, last⟩ := s
  obtain ⟨config', hsane', tokens', last'⟩ := s'
  dsimp only at hconf
  subst hconf
  rfl

/-! ## Inserted calls -/

/-- The call is over. -/
def Outcome.ends : Outcome → Bool
  | .started | .missed | .slept => false
  | _ => true

/-- A step of a run, and whether it belongs to an inserted call. -/
structure Marked where
  label : Label
  inserted : Bool
  deriving DecidableEq, Repr

/-- An inserted step begins or continues a `try_acquire` or an `acquire_for` that
gets no token, or is an `available_tokens`. -/
def Marked.Free (m : Marked) (out : Outcome) : Prop :=
  m.inserted = true →
    match m.label.action with
    | .try_acquire => out = .refused
    | .attempt => out = .missed
    | .acquire_for _ | .available_tokens | .settle => True
    | .acquire | .reset => False

/-- The threads that are inside an inserted call, after a step. -/
def Marked.inside (m : Marked) (out : Outcome) (inside : ℕ → Bool) : ℕ → Bool := fun i =>
  if m.inserted ∧ i = m.label.thread then !out.ends else inside i

/-- All the inserted steps of a run are free, and the later steps of a call
belong to what the call belongs to. -/
def InsertedFree : (ℕ → Bool) → List Marked → List Outcome → Prop
  | _, [], _ => True
  | _, _ :: _, [] => False
  | inside, m :: rest, out :: outs =>
    m.Free out
      ∧ (m.label.action = .attempt ∨ m.label.action = .settle →
          m.inserted = inside m.label.thread)
      ∧ InsertedFree (m.inside out inside) rest outs

/-- What belongs to the steps that are not inserted. -/
def common {α : Type} : List Marked → List α → List α
  | m :: rest, x :: xs => if m.inserted then common rest xs else x :: common rest xs
  | _, _ => []

/-! ## Two runs -/

/-- The run with the inserted calls, and the run without. A thread inside an
inserted call is idle in the latter, and any other is in the same place. -/
structure Shadows (inside : ℕ → Bool) (sys sys' : System) (t : ℤ) : Prop where
  limiter : Alike sys.limiter sys'.limiter t
  same : ∀ i, inside i = false → sys'.threads i = sys.threads i
  idle : ∀ i, inside i = true → sys'.threads i = .idle ∧ sys.threads i ≠ .idle

variable {inside : ℕ → Bool} {sys sys' sys₁ : System} {l : Label} {out : Outcome}

theorem Shadows.outside (h : Shadows inside sys sys' t) {i : ℕ} (hidle : sys.threads i = .idle) :
    inside i = false := by
  by_contra hinside
  exact (h.idle i (by simpa using hinside)).2 hidle

/-- A thread outside of every inserted call goes to the same place in both. -/
theorem Shadows.goto (h : Shadows inside sys sys' t) {i : ℕ} (houtside : inside i = false)
    (place : Thread) : Shadows inside (sys.goto i place) (sys'.goto i place) t := by
  refine ⟨h.limiter, fun j hj => ?_, fun j hj => ?_⟩
  · unfold System.goto
    dsimp only
    rw [h.same j hj]
  · have hne : j ≠ i := fun heq => by rw [heq, houtside] at hj; cases hj
    unfold System.goto
    dsimp only
    rw [if_neg hne, if_neg hne]
    exact h.idle j hj

/-- **A common step** gives the same in both runs. -/
theorem Shadows.common_step (h : Shadows inside sys sys' t) (hle : t ≤ l.now)
    (houtside : inside l.thread = false) (hstep : sys.step l = some (out, sys₁)) :
    ∃ sys₁', sys'.step l = some (out, sys₁') ∧ Shadows inside sys₁ sys₁' l.now := by
  have hthread := h.same _ houtside
  have hlater : Shadows inside sys sys' l.now := ⟨h.limiter.mono hle, h.same, h.idle⟩
  have htake := h.limiter.take_eq hle l.later
  have htaken : Shadows inside { sys with limiter := (sys.limiter.take_or_wait_time l.now l.later).2 }
      { sys' with limiter := (sys.limiter.take_or_wait_time l.now l.later).2 } l.now :=
    ⟨Alike.refl (hlater.limiter.within.take l.later).2.2, h.same, h.idle⟩
  unfold System.step
  cases System.step_cases hstep with
  | try_acquire hplace haction =>
    rw [hthread, hplace, haction]
    dsimp only [try_acquire]
    rw [← htake]
    exact ⟨_, rfl, htaken⟩
  | acquire hplace haction =>
    rw [hthread, hplace, haction, ← h.limiter.config_eq]
    cases sys.limiter.config_.max_wait with
    | none => exact ⟨_, rfl, hlater.goto houtside _⟩
    | some max_wait => exact ⟨_, rfl, hlater.goto houtside _⟩
  | acquire_for max_wait hplace haction =>
    rw [hthread, hplace, haction]
    exact ⟨_, rfl, hlater.goto houtside _⟩
  | available_tokens hplace haction =>
    rw [hthread, hplace, haction, h.limiter.available_eq hle]
    exact ⟨_, rfl, hlater⟩
  | reset hplace haction =>
    rw [hthread, hplace, haction, h.limiter.reset_eq l.now]
    exact ⟨_, rfl, Alike.refl (reset_within _ _), h.same, h.idle⟩
  -- the wait is the same as well, so both threads wait for it
  | took deadline hplace haction htook | missed deadline wait hplace haction htook =>
    rw [hthread, hplace, haction, ← htake]
    dsimp only
    rw [htook]
    exact ⟨_, rfl, htaken.goto houtside _⟩
  | gave_up deadline wait hplace haction hlate =>
    rw [hthread, hplace, haction]
    dsimp only
    rw [if_pos hlate]
    exact ⟨_, rfl, hlater.goto houtside _⟩
  | slept deadline wait hplace haction hlate =>
    rw [hthread, hplace, haction]
    dsimp only
    rw [if_neg hlate]
    exact ⟨_, rfl, hlater.goto houtside _⟩

/-- A thread that moves in the run with inserted calls, and idles in the other. -/
theorem Shadows.move (h : Shadows inside sys sys' t) {i : ℕ} (hidle : sys'.threads i = .idle)
    (place : Thread) (still : Bool) (hstill : still = true ↔ place ≠ .idle) :
    Shadows (fun j => if j = i then still else inside j) (sys.goto i place) sys' t := by
  refine ⟨h.limiter, fun j hj => ?_, fun j hj => ?_⟩
  · unfold System.goto
    dsimp only at hj ⊢
    by_cases heq : j = i
    · rw [if_pos heq] at hj
      rw [if_pos heq, heq, hidle]
      have hplace := mt hstill.mpr (by rw [hj]; exact Bool.false_ne_true)
      exact (not_not.mp hplace).symm
    · rw [if_neg heq] at hj
      rw [if_neg heq]
      exact h.same j hj
  · unfold System.goto
    dsimp only at hj ⊢
    by_cases heq : j = i
    · rw [if_pos heq] at hj
      rw [if_pos heq, heq]
      exact ⟨hidle, hstill.mp hj⟩
    · rw [if_neg heq] at hj
      rw [if_neg heq]
      exact h.idle j hj

/-- **An inserted step** leaves the run without it where it is. -/
theorem Shadows.inserted_step (h : Shadows inside sys sys' t) (hle : t ≤ l.now)
    (hfree : Marked.Free ⟨l, true⟩ out)
    (hcall : l.action = .attempt ∨ l.action = .settle → inside l.thread = true)
    (hstep : sys.step l = some (out, sys₁)) :
    Shadows (fun i => if i = l.thread then !out.ends else inside i) sys₁ sys' l.now := by
  have hlater : Shadows inside sys sys' l.now := ⟨h.limiter.mono hle, h.same, h.idle⟩
  have hfree' := hfree rfl
  dsimp only at hfree'
  -- a call that begins and ends here leaves its thread outside
  have hunmoved : sys.threads l.thread = .idle →
      (fun i => if i = l.thread then false else inside i) = inside := by
    intro hidle
    funext i
    by_cases hi : i = l.thread
    · rw [if_pos hi, hi, h.outside hidle]
    · rw [if_neg hi]
  have hmissed : ∀ wait, (sys.limiter.take_or_wait_time l.now l.later).1 = some wait →
      Shadows inside { sys with limiter := (sys.limiter.take_or_wait_time l.now l.later).2 } sys'
        l.now := by
    intro wait htake
    have hmiss : (sys.limiter.take_or_wait_time l.now l.later).1 ≠ none := by
      rw [htake]
      exact Option.some_ne_none wait
    exact ⟨h.limiter.missed hle hmiss, h.same, h.idle⟩
  cases System.step_cases hstep with
  | try_acquire hplace haction =>
    rw [haction] at hfree'
    dsimp only at hfree'
    rw [hfree']
    change Shadows (fun i => if i = l.thread then false else inside i) _ sys' l.now
    rw [hunmoved hplace]
    have hrefused : ¬ (sys.limiter.try_acquire l.now l.later).1 = true := by
      intro hgot
      rw [if_pos hgot] at hfree'
      cases hfree'
    -- it was refused, so there was no token
    cases htake : (sys.limiter.take_or_wait_time l.now l.later).1 with
    | none => exact absurd (by rw [try_acquire, htake]; rfl) hrefused
    | some wait => exact hmissed wait htake
  | acquire _ haction | reset _ haction =>
    rw [haction] at hfree'
    exact absurd hfree' id
  | acquire_for max_wait hplace haction =>
    exact hlater.move ((h.same _ (h.outside hplace)).trans hplace) _ true (by simp)
  | available_tokens hplace haction =>
    change Shadows (fun i => if i = l.thread then false else inside i) _ sys' l.now
    rw [hunmoved hplace]
    exact hlater
  | took deadline hplace haction htake =>
    rw [haction] at hfree'
    cases hfree'
  | missed deadline wait hplace haction htake =>
    have hidle := (h.idle _ (hcall (Or.inl haction))).1
    exact (hmissed wait htake).move hidle (.waiting deadline wait) true (by simp)
  | gave_up deadline wait hplace haction hlate =>
    exact hlater.move (h.idle _ (hcall (Or.inr haction))).1 _ false (by simp)
  | slept deadline wait hplace haction hlate =>
    exact hlater.move (h.idle _ (hcall (Or.inr haction))).1 _ true (by simp)

/-- Any step but the two of an iteration begins a call, of an idle thread. -/
theorem step_begins (hstep : sys.step l = some (out, sys₁)) (hattempt : l.action ≠ .attempt)
    (hsettle : l.action ≠ .settle) : sys.threads l.thread = .idle := by
  cases System.step_cases hstep with
  | try_acquire hplace | acquire hplace | acquire_for _ hplace | available_tokens hplace
  | reset hplace => exact hplace
  | took _ _ haction | missed _ _ _ haction => exact absurd haction hattempt
  | gave_up _ _ _ haction | slept _ _ _ haction => exact absurd haction hsettle

/-- A whole run, by induction on its steps. -/
theorem Shadows.run (marked : List Marked) :
    ∀ {inside : ℕ → Bool} {sys sys' final : System} {t : ℤ} {outs : List Outcome},
      Shadows inside sys sys' t → sys.run (marked.map Marked.label) = some (outs, final) →
      (t :: marked.map fun m => m.label.now).Pairwise (· ≤ ·) → InsertedFree inside marked outs →
      ∃ final', sys'.run (common marked (marked.map Marked.label))
        = some (common marked outs, final') := by
  induction marked with
  | nil =>
    intro inside sys sys' final t outs _ _ _ _
    exact ⟨sys', rfl⟩
  | cons m rest ih =>
    intro inside sys sys' final t outs h hrun hclock hfree
    obtain ⟨hnow, hrest⟩ := List.pairwise_cons.mp hclock
    have hle : t ≤ m.label.now := hnow _ (List.mem_cons_self ..)
    obtain ⟨out, sys₁, outs', hstep, hrun', rfl⟩ := System.run_cons hrun
    obtain ⟨hfree_m, hcall, hfree'⟩ := hfree
    rw [List.map_cons, common, common]
    by_cases hinserted : m.inserted = true
    · rw [if_pos hinserted, if_pos hinserted]
      have hmark : m = ⟨m.label, true⟩ := by rw [← hinserted]
      have hinside : m.inside out inside
          = fun i => if i = m.label.thread then !out.ends else inside i := by
        funext i
        simp only [Marked.inside, hinserted, true_and]
      rw [hinside] at hfree'
      refine ih (h.inserted_step hle (hmark ▸ hfree_m) ?_ hstep) hrun' hrest hfree'
      exact fun haction => (hcall haction).symm.trans hinserted
    · rw [if_neg hinserted, if_neg hinserted]
      have hcommon : m.inserted = false := by simpa using hinserted
      have hinside : m.inside out inside = inside := by
        funext i
        simp only [Marked.inside, hcommon, Bool.false_eq_true, false_and, if_false]
      rw [hinside] at hfree'
      -- a step of a common call, or the beginning of one by an idle thread
      have houtside : inside m.label.thread = false := by
        by_cases haction : m.label.action = .attempt ∨ m.label.action = .settle
        · exact (hcall haction).symm.trans hcommon
        · rw [not_or] at haction
          exact h.outside (step_begins hstep haction.1 haction.2)
      obtain ⟨sys₁', hstep', hshadows⟩ := h.common_step hle houtside hstep
      obtain ⟨final', hfinal⟩ := ih hshadows hrun' hrest hfree'
      refine ⟨final', ?_⟩
      rw [System.run, hstep']
      dsimp only
      rw [hfinal]

/-- **Failed attempts and queries are free.** Take any run, of any number of
threads, and in it any calls of `try_acquire` and `acquire_for` that get no
token and any calls of `available_tokens`. Without them the other steps run as
well, and all give what they gave. -/
theorem failed_attempts_free (config : Config) (start : ℤ) (marked : List Marked)
    (outs : List Outcome) (final : System)
    (hrun : (System.new config start).run (marked.map Marked.label) = some (outs, final))
    (hclock : (start :: marked.map fun m => m.label.now).Pairwise (· ≤ ·))
    (hfree : InsertedFree (fun _ => false) marked outs) :
    ∃ final', (System.new config start).run (common marked (marked.map Marked.label))
      = some (common marked outs, final') := by
  have hnew : Shadows (fun _ => false) (System.new config start) (System.new config start) start :=
    ⟨Alike.refl (new_within config start), fun _ _ => rfl, fun _ h => by cases h⟩
  exact hnew.run marked hrun hclock hfree

/-- A limiter of one token, polled while it is empty by a failing `try_acquire`,
a failing `acquire_for` and a query. -/
theorem failed_attempts_free_polled :
    ∃ final', (System.new { max_tokens := 1, initial_tokens := 1 } 0).run
        [⟨0, .try_acquire, 5, 5⟩, ⟨0, .try_acquire, 100000005, 100000005⟩]
      = some ([.granted, .granted], final') :=
  failed_attempts_free { max_tokens := 1, initial_tokens := 1 } 0
    [⟨⟨0, .try_acquire, 5, 5⟩, false⟩, ⟨⟨0, .try_acquire, 50000000, 50000001⟩, true⟩,
      ⟨⟨1, .acquire_for 10, 60000000, 60000000⟩, true⟩,
      ⟨⟨1, .attempt, 60000001, 60000002⟩, true⟩, ⟨⟨1, .settle, 60000003, 60000003⟩, true⟩,
      ⟨⟨0, .available_tokens, 100000004, 100000004⟩, true⟩,
      ⟨⟨0, .try_acquire, 100000005, 100000005⟩, false⟩]
    [.granted, .refused, .started, .missed, .refused, .available 0, .granted] _ rfl (by decide)
    (by simp [InsertedFree, Marked.Free, Marked.inside, Outcome.ends])

end OpenMeteo.RateLimiter
