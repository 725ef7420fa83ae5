/-
The rate limiter shared by any number of threads, and its rate bound.

A thread is either outside the limiter or inside `acquire_until`, where it
alternates between the locked section (`attempt`) and the comparison with its
deadline, which runs without the mutex (`settle`) and ends the call or sends
the thread to sleep. Every locked section is one atomic step, so a run is any
interleaving of such steps. A sleeping thread may attempt again at any time:
that only adds interleavings.

The bound needs nothing about who takes the tokens. `step_refines` says that
every step of the system is at most one step of the ideal bucket, so a run of
the system is a run of the bucket, and `TokenBucket.window_account` prices it.
-/
import OpenMeteo.RateLimitBucket

set_option autoImplicit false

namespace OpenMeteo.RateLimiter

/-! ## The system -/

/-- Where a thread stands between two steps. -/
inductive Thread
  | idle
  | looping (deadline : Option ℤ)
  | waiting (deadline : Option ℤ) (wait : ℤ)
  deriving DecidableEq, Repr

/-- What a thread can do next. The first five begin a call; `attempt` and
`settle` are the two halves of an iteration of `acquire_until`. -/
inductive Action
  | try_acquire
  | acquire
  | acquire_for (max_wait : ℤ)
  | available_tokens
  | reset
  | attempt
  | settle
  deriving DecidableEq, Repr

/-- A step of a run: which thread does what, at which readings. -/
structure Label where
  thread : ℕ
  action : Action
  now : ℤ
  later : ℤ
  deriving DecidableEq, Repr

/-- What a step gives the thread. `granted` and `refused` end an acquisition
with `true` and with `false`. -/
inductive Outcome
  | granted
  | refused
  | started
  | missed
  | slept
  | available (count : UInt16)
  | done
  deriving DecidableEq, Repr

structure System where
  limiter : RateLimiter
  threads : ℕ → Thread

namespace System

def new (config : Config) (now : ℤ) : System := ⟨RateLimiter.new config now, fun _ => .idle⟩

def goto (sys : System) (thread : ℕ) (place : Thread) : System :=
  { sys with threads := fun i => if i = thread then place else sys.threads i }

/-- One step, or `none` where the thread cannot take it. -/
def step (sys : System) (l : Label) : Option (Outcome × System) :=
  match sys.threads l.thread, l.action with
  -- outside the limiter: a call begins, or is all of its one locked section
  | .idle, .try_acquire =>
    let r := sys.limiter.try_acquire l.now l.later
    some (if r.1 then .granted else .refused, { sys with limiter := r.2 })
  | .idle, .acquire =>
    match sys.limiter.config_.max_wait with
    | some max_wait =>
      some (.started, sys.goto l.thread (.looping (some (acquire_deadline max_wait l.now))))
    | none => some (.started, sys.goto l.thread (.looping none))
  | .idle, .acquire_for max_wait =>
    some (.started, sys.goto l.thread (.looping (some (acquire_deadline max_wait l.now))))
  | .idle, .available_tokens => some (.available (sys.limiter.available_tokens l.now), sys)
  | .idle, .reset => some (.done, { sys with limiter := sys.limiter.reset l.now })
  -- inside `acquire_until`: the locked section, and the test behind it
  | .looping deadline, .attempt =>
    let r := sys.limiter.take_or_wait_time l.now l.later
    match r.1 with
    | none => some (.granted, { sys with limiter := r.2 }.goto l.thread .idle)
    | some wait => some (.missed, { sys with limiter := r.2 }.goto l.thread (.waiting deadline wait))
  | .waiting deadline wait, .settle =>
    if past_deadline deadline wait l.now then some (.refused, sys.goto l.thread .idle)
    else some (.slept, sys.goto l.thread (.looping deadline))
  | _, _ => none

/-- A run: the outcomes of its steps and the system after them. -/
def run : System → List Label → Option (List Outcome × System)
  | sys, [] => some ([], sys)
  | sys, l :: rest =>
    match sys.step l with
    | none => none
    | some (out, sys') =>
      match run sys' rest with
      | none => none
      | some (outs, final) => some (out :: outs, final)

end System

/-! ## Counting -/

def Outcome.isGrant : Outcome → Bool
  | .granted => true
  | _ => false

theorem Outcome.isGrant_ite (b : Bool) :
    (if b then Outcome.granted else Outcome.refused).isGrant = b := by
  cases b <;> rfl

def Action.isReset : Action → Bool
  | .reset => true
  | _ => false

/-- How many tokens the steps granted. -/
def grants (outs : List Outcome) : ℕ := outs.countP Outcome.isGrant

/-- How many of the steps are resets. -/
def resets (labels : List Label) : ℕ := labels.countP fun l => l.action.isReset

/-- The steps `i`, …, `j` of a run. -/
def window {α : Type} (i j : ℕ) (xs : List α) : List α := (xs.drop i).take (j + 1 - i)

namespace System

theorem run_cons {sys final : System} {l : Label} {rest : List Label} {outs : List Outcome}
    (h : sys.run (l :: rest) = some (outs, final)) :
    ∃ out sys' outs', sys.step l = some (out, sys') ∧ sys'.run rest = some (outs', final)
      ∧ outs = out :: outs' := by
  rw [run] at h
  split at h
  · cases h
  · next out sys' hstep =>
    split at h
    · cases h
    · next outs' final' hrest =>
      cases h
      exact ⟨out, sys', outs', hstep, hrest, rfl⟩

/-- A run is a run of its first part followed by a run of the rest. -/
theorem run_append {sys final : System} {pre post : List Label} {outs : List Outcome}
    (h : sys.run (pre ++ post) = some (outs, final)) :
    ∃ mid, sys.run pre = some (outs.take pre.length, mid)
      ∧ mid.run post = some (outs.drop pre.length, final) := by
  induction pre generalizing sys outs with
  | nil => exact ⟨sys, rfl, h⟩
  | cons l rest ih =>
    obtain ⟨out, sys', outs', hstep, hrest, rfl⟩ := run_cons h
    obtain ⟨mid, hpre, hpost⟩ := ih hrest
    refine ⟨mid, ?_, hpost⟩
    simp only [run, hstep, hpre, List.length_cons, List.take_succ_cons]

end System

theorem goto_own (sys : System) (thread : ℕ) (place : Thread) :
    (sys.goto thread place).threads thread = place := if_pos rfl

theorem goto_other (sys : System) {thread other : ℕ} (hne : other ≠ thread) (place : Thread) :
    (sys.goto thread place).threads other = sys.threads other := if_neg hne

/-! ## What a step can be -/

/-- A call that begins or is all of its one locked section, or a part of the
loop of `acquire_until`, with what it gives and where it leads. -/
inductive System.Stepped (sys : System) (l : Label) : Outcome → System → Prop
  | try_acquire (hplace : sys.threads l.thread = .idle) (haction : l.action = .try_acquire) :
      Stepped sys l (if (sys.limiter.try_acquire l.now l.later).1 then .granted else .refused)
        { sys with limiter := (sys.limiter.try_acquire l.now l.later).2 }
  | acquire (hplace : sys.threads l.thread = .idle) (haction : l.action = .acquire) :
      Stepped sys l .started (sys.goto l.thread
        (.looping (sys.limiter.config_.max_wait.map fun max_wait => acquire_deadline max_wait l.now)))
  | acquire_for (max_wait : ℤ) (hplace : sys.threads l.thread = .idle)
      (haction : l.action = .acquire_for max_wait) :
      Stepped sys l .started (sys.goto l.thread (.looping (some (acquire_deadline max_wait l.now))))
  | available_tokens (hplace : sys.threads l.thread = .idle)
      (haction : l.action = .available_tokens) :
      Stepped sys l (.available (sys.limiter.available_tokens l.now)) sys
  | reset (hplace : sys.threads l.thread = .idle) (haction : l.action = .reset) :
      Stepped sys l .done { sys with limiter := sys.limiter.reset l.now }
  | took (deadline : Option ℤ) (hplace : sys.threads l.thread = .looping deadline)
      (haction : l.action = .attempt)
      (htake : (sys.limiter.take_or_wait_time l.now l.later).1 = none) :
      Stepped sys l .granted
        ({ sys with limiter := (sys.limiter.take_or_wait_time l.now l.later).2 }.goto l.thread .idle)
  | missed (deadline : Option ℤ) (wait : ℤ) (hplace : sys.threads l.thread = .looping deadline)
      (haction : l.action = .attempt)
      (htake : (sys.limiter.take_or_wait_time l.now l.later).1 = some wait) :
      Stepped sys l .missed
        ({ sys with limiter := (sys.limiter.take_or_wait_time l.now l.later).2 }.goto l.thread
          (.waiting deadline wait))
  | gave_up (deadline : Option ℤ) (wait : ℤ) (hplace : sys.threads l.thread = .waiting deadline wait)
      (haction : l.action = .settle) (hlate : past_deadline deadline wait l.now = true) :
      Stepped sys l .refused (sys.goto l.thread .idle)
  | slept (deadline : Option ℤ) (wait : ℤ) (hplace : sys.threads l.thread = .waiting deadline wait)
      (haction : l.action = .settle) (hlate : ¬ past_deadline deadline wait l.now = true) :
      Stepped sys l .slept (sys.goto l.thread (.looping deadline))

theorem System.step_cases {sys sys' : System} {l : Label} {out : Outcome}
    (hstep : sys.step l = some (out, sys')) : sys.Stepped l out sys' := by
  unfold System.step at hstep
  split at hstep
  · next hplace haction =>
    cases hstep
    exact .try_acquire hplace haction
  · next hplace haction =>
    have hacquire := Stepped.acquire hplace haction
    split at hstep
    · next max_wait hwait =>
      cases hstep
      rwa [hwait] at hacquire
    · next hwait =>
      cases hstep
      rwa [hwait] at hacquire
  · next hplace haction =>
    cases hstep
    exact .acquire_for _ hplace haction
  · next hplace haction =>
    cases hstep
    exact .available_tokens hplace haction
  · next hplace haction =>
    cases hstep
    exact .reset hplace haction
  · next hplace haction =>
    dsimp only at hstep
    split at hstep
    · next htake =>
      cases hstep
      exact .took _ hplace haction htake
    · next wait htake =>
      cases hstep
      exact .missed _ wait hplace haction htake
  · next hplace haction =>
    split at hstep
    · next hlate =>
      cases hstep
      exact .gave_up _ _ hplace haction hlate
    · next hlate =>
      cases hstep
      exact .slept _ _ hplace haction hlate
  · cases hstep

/-- What a step does to the limiter: nothing, a locked section, or a reset. -/
theorem System.step_limiter {sys sys' : System} {l : Label} {out : Outcome}
    (hstep : sys.step l = some (out, sys')) :
    sys'.limiter = sys.limiter
      ∨ sys'.limiter = (sys.limiter.take_or_wait_time l.now l.later).2
      ∨ sys'.limiter = sys.limiter.reset l.now := by
  cases System.step_cases hstep with
  | try_acquire | took | missed => exact Or.inr (Or.inl rfl)
  | reset => exact Or.inr (Or.inr rfl)
  | _ => exact Or.inl rfl

/-- A step of another thread leaves a thread where it is. -/
theorem System.step_other {sys sys' : System} {l : Label} {out : Outcome} {thread : ℕ}
    (hne : thread ≠ l.thread) (hstep : sys.step l = some (out, sys')) :
    sys'.threads thread = sys.threads thread := by
  cases System.step_cases hstep with
  | try_acquire | available_tokens | reset => rfl
  | _ => exact goto_other _ hne _

/-- A step keeps the configuration. -/
theorem System.step_config {sys sys' : System} {l : Label} {out : Outcome}
    (hstep : sys.step l = some (out, sys')) : sys'.limiter.config_ = sys.limiter.config_ := by
  rcases System.step_limiter hstep with heq | heq | heq
  · rw [heq]
  · rw [heq]
    exact take_config _ _ _
  · rw [heq]
    rfl

/-- A step keeps the configuration and the invariant. -/
theorem System.step_within {sys sys' : System} {l : Label} {out : Outcome}
    (h : sys.limiter.Within l.now) (hstep : sys.step l = some (out, sys')) :
    sys'.limiter.config_ = sys.limiter.config_ ∧ sys'.limiter.Within l.now := by
  obtain ⟨hconf, -, htaken⟩ := h.take l.later
  rcases System.step_limiter hstep with heq | heq | heq
  · rw [heq]
    exact ⟨rfl, h⟩
  · rw [heq]
    exact ⟨hconf, htaken⟩
  · rw [heq]
    exact ⟨rfl, reset_within _ _⟩

/-! ## The simulation -/

/-- What a step does to the ideal bucket: one operation for a locked section,
nothing for a step outside the mutex. -/
def Label.ideal (l : Label) : Option (TokenBucket.Op × ℤ) :=
  match l.action with
  | .try_acquire | .attempt => some (.take, l.now)
  | .available_tokens => some (.peek, l.now)
  | .reset => some (.reset, l.now)
  | .acquire | .acquire_for _ | .settle => none

/-- The bucket after one step of the system. -/
def follow (b : TokenBucket ℤ) (l : TokenBucket.Level ℤ) :
    Option (TokenBucket.Op × ℤ) → TokenBucket.Level ℤ
  | none => l
  | some (op, t) => (b.step l t op).2

/-- Whether that step granted a token. -/
def followGrant (b : TokenBucket ℤ) (l : TokenBucket.Level ℤ) :
    Option (TokenBucket.Op × ℤ) → Bool
  | none => false
  | some (op, t) => (b.step l t op).1.isGrant

/-- **One step of the system** is at most one step of the ideal bucket: it
grants exactly when the bucket does, and leaves the two related. -/
theorem System.step_refines {sys sys' : System} {lab : Label} {out : Outcome}
    {l : TokenBucket.Level ℤ} (h : Refines sys.limiter l) (hnow : l.since ≤ lab.now)
    (hstep : sys.step lab = some (out, sys')) :
    sys'.limiter.config_ = sys.limiter.config_
      ∧ out.isGrant = followGrant sys.limiter.bucket l lab.ideal
      ∧ Refines sys'.limiter (follow sys.limiter.bucket l lab.ideal) := by
  obtain ⟨hans, href, hconf⟩ := h.take lab.now lab.later hnow
  unfold Label.ideal
  cases System.step_cases hstep with
  | try_acquire _ haction =>
    rw [haction]
    refine ⟨hconf, ?_, href⟩
    simp only [followGrant, hans]
    exact Outcome.isGrant_ite _
  | took deadline _ haction htake =>
    rw [haction]
    refine ⟨hconf, ?_, href⟩
    simp only [followGrant, hans, htake]
    rfl
  | missed deadline wait _ haction htake =>
    rw [haction]
    refine ⟨hconf, ?_, href⟩
    simp only [followGrant, hans, htake]
    rfl
  | available_tokens _ haction =>
    rw [haction]
    exact ⟨rfl, rfl, (h.peek lab.now hnow).2⟩
  | reset _ haction =>
    rw [haction]
    exact ⟨rfl, rfl, reset_refines _ _ _⟩
  -- outside the mutex
  | acquire _ haction | acquire_for _ _ haction | gave_up _ _ _ haction | slept _ _ _ haction =>
    rw [haction]
    exact ⟨rfl, rfl, h⟩

/-- Filtering the steps that touch the bucket, one label at a time. -/
theorem grants_run_cons (b : TokenBucket ℤ) (l : TokenBucket.Level ℤ) (lab : Label)
    (rest : List Label) :
    TokenBucket.grants (b.run l ((lab :: rest).filterMap Label.ideal)).1
        = (if followGrant b l lab.ideal then 1 else 0)
          + TokenBucket.grants (b.run (follow b l lab.ideal) (rest.filterMap Label.ideal)).1
      ∧ (b.run l ((lab :: rest).filterMap Label.ideal)).2
        = (b.run (follow b l lab.ideal) (rest.filterMap Label.ideal)).2 := by
  cases hid : lab.ideal with
  | none =>
    rw [List.filterMap_cons_none hid]
    simp only [followGrant, follow, Bool.false_eq_true, if_false, zero_add, and_self]
  | some p =>
    obtain ⟨op, t⟩ := p
    rw [List.filterMap_cons_some hid, TokenBucket.run_cons, TokenBucket.grants_cons]
    exact ⟨add_comm _ _, rfl⟩

/-- A followed step is dated at the step's reading, or not moved at all. -/
theorem follow_since_le (b : TokenBucket ℤ) (l : TokenBucket.Level ℤ) (lab : Label)
    (h : l.since ≤ lab.now) : (follow b l lab.ideal).since ≤ lab.now := by
  unfold Label.ideal
  cases lab.action <;> first | exact h | exact le_of_eq (TokenBucket.step_since _ _ _ _)

/-- **A run of the system** is a run of the ideal bucket, by induction on the
steps: as many grants, and related states at the end. -/
theorem System.run_refines (labels : List Label) :
    ∀ {sys final : System} {outs : List Outcome} {l : TokenBucket.Level ℤ},
      Refines sys.limiter l → sys.run labels = some (outs, final) →
      (l.since :: labels.map Label.now).Pairwise (· ≤ ·) →
      final.limiter.config_ = sys.limiter.config_
        ∧ grants outs
          = TokenBucket.grants (sys.limiter.bucket.run l (labels.filterMap Label.ideal)).1
        ∧ Refines final.limiter (sys.limiter.bucket.run l (labels.filterMap Label.ideal)).2 := by
  induction labels with
  | nil =>
    intro sys final outs l h hrun _
    cases hrun
    exact ⟨rfl, rfl, h⟩
  | cons lab rest ih =>
    intro sys final outs l h hrun hclock
    obtain ⟨out, sys', outs', hstep, hrest, rfl⟩ := System.run_cons hrun
    rw [List.map_cons, List.pairwise_cons] at hclock
    have hnow := hclock.1 lab.now (List.mem_cons_self ..)
    obtain ⟨hconf, hgrant, href⟩ := System.step_refines h hnow hstep
    have hsince := follow_since_le sys.limiter.bucket l lab hnow
    obtain ⟨hconf', hgrants', href'⟩ := ih href hrest
      (List.pairwise_cons.mpr
        ⟨fun t ht => le_trans hsince ((List.pairwise_cons.mp hclock.2).1 t ht),
          (List.pairwise_cons.mp hclock.2).2⟩)
    rw [bucket_congr hconf] at hgrants' href'
    obtain ⟨hcount, hend⟩ := grants_run_cons sys.limiter.bucket l lab rest
    refine ⟨hconf'.trans hconf, ?_, hend ▸ href'⟩
    rw [hcount, ← hgrants', ← hgrant, grants, grants, List.countP_cons, add_comm]

/-- Resets of the system are resets of the bucket. -/
theorem resets_ideal (labels : List Label) :
    TokenBucket.resets (labels.filterMap Label.ideal) = resets labels := by
  induction labels with
  | nil => rfl
  | cons lab rest ih =>
    have hrest : resets (lab :: rest) = resets rest + if lab.action.isReset then 1 else 0 := by
      simp only [resets, List.countP_cons]
    rw [hrest, ← ih]
    cases hact : lab.action <;>
      simp [Label.ideal, hact, TokenBucket.resets_cons, Action.isReset, TokenBucket.Op.isReset]

theorem Label.ideal_now {l : Label} {p : TokenBucket.Op × ℤ} (h : l.ideal = some p) :
    p.2 = l.now := by
  unfold Label.ideal at h
  cases haction : l.action with
  | try_acquire | attempt | available_tokens | reset =>
    rw [haction] at h
    exact (congrArg Prod.snd (Option.some.inj h)).symm
  | acquire | acquire_for _ | settle =>
    rw [haction] at h
    cases h

/-- The bucket's times are some of the run's readings, in order. -/
theorem ideal_times_sublist (labels : List Label) :
    ((labels.filterMap Label.ideal).map Prod.snd).Sublist (labels.map Label.now) := by
  induction labels with
  | nil => exact List.Sublist.refl _
  | cons lab rest ih =>
    rw [List.map_cons]
    cases hid : lab.ideal with
    | none =>
      rw [List.filterMap_cons_none hid]
      exact List.Sublist.cons _ ih
    | some p =>
      rw [List.filterMap_cons_some hid, List.map_cons, Label.ideal_now hid]
      exact List.Sublist.cons_cons _ ih

/-- Every time of the bucket is the reading of a step. -/
theorem ideal_time {labels : List Label} {s : TokenBucket.Op × ℤ}
    (hs : s ∈ labels.filterMap Label.ideal) : ∃ lab ∈ labels, lab.now = s.2 :=
  List.mem_map.mp ((ideal_times_sublist labels).mem (List.mem_map_of_mem hs))

/-! ## The rate bound -/

theorem mem_window {α : Type} {i j : ℕ} {xs : List α} {x : α} (hx : x ∈ window i j xs) :
    ∃ k, ∃ hk : k < xs.length, i ≤ k ∧ k ≤ j ∧ xs[k] = x := by
  obtain ⟨n, hn, rfl⟩ := List.getElem_of_mem hx
  simp only [window, List.length_take, List.length_drop] at hn
  refine ⟨i + n, by omega, by omega, by omega, ?_⟩
  simp only [window, List.getElem_take, List.getElem_drop]

/-- A window of a run is a run, from where the steps before it lead. -/
theorem System.run_window {sys final : System} {labels : List Label} {outs : List Outcome}
    (h : sys.run labels = some (outs, final)) {i j : ℕ} (hij : i ≤ j) (hj : j < labels.length) :
    ∃ mid mid', sys.run (labels.take i) = some (outs.take i, mid)
      ∧ mid.run (window i j labels) = some (window i j outs, mid') := by
  rw [← List.take_append_drop i labels] at h
  obtain ⟨mid, hpre, hpost⟩ := System.run_append h
  rw [List.length_take, min_eq_left (by omega)] at hpre hpost
  -- what follows the window is cut off the same way
  rw [← List.take_append_drop (j + 1 - i) (labels.drop i)] at hpost
  obtain ⟨mid', hwin, -⟩ := System.run_append hpost
  rw [List.length_take, List.length_drop, min_eq_left (by omega)] at hwin
  exact ⟨mid, mid', hpre, hwin⟩

/-- The readings of a run do not run backwards. -/
theorem now_le {labels : List Label} (h : (labels.map Label.now).Pairwise (· ≤ ·)) {a b : ℕ}
    (hab : a ≤ b) (hb : b < labels.length) : labels[a].now ≤ labels[b].now := by
  have hsorted : labels.Pairwise fun l l' => l.now ≤ l'.now := List.pairwise_map.mp h
  rcases Nat.lt_or_ge a b with hlt | hge
  · exact List.pairwise_iff_getElem.mp hsorted a b (by omega) hb hlt
  · cases le_antisymm hab hge
    exact le_refl _

/-- The readings of a window lie between those of its first and its last step. -/
theorem window_now {labels : List Label} (h : (labels.map Label.now).Pairwise (· ≤ ·)) {i j : ℕ}
    (hij : i ≤ j) (hj : j < labels.length) {lab : Label} (hlab : lab ∈ window i j labels) :
    labels[i].now ≤ lab.now ∧ lab.now ≤ labels[j].now := by
  obtain ⟨k, hk, hik, hkj, rfl⟩ := mem_window hlab
  exact ⟨now_le h hik hk, now_le h hkj hj⟩

/-- **Rate bound.** In every window of every interleaving the tokens granted
are at most the bucket size, one initial filling for each reset, and the whole
refill intervals between the readings of its first and last step. -/
theorem rate_bound (config : Config) (start : ℤ) (labels : List Label) (outs : List Outcome)
    (final : System) (hrun : (System.new config start).run labels = some (outs, final))
    (hclock : (start :: labels.map Label.now).Pairwise (· ≤ ·))
    (i j : ℕ) (hij : i ≤ j) (hj : j < labels.length) :
    (grants (window i j outs) : ℤ)
      ≤ (sanitized config).max_tokens.toNat
        + resets (window i j labels) * (sanitized config).initial_tokens.toNat
        + (labels[j].now - labels[i].now) / (sanitized config).interval_ns := by
  have hi : i < labels.length := lt_of_le_of_lt hij hj
  obtain ⟨hstart, hsorted⟩ := List.pairwise_cons.mp hclock
  set b := (sanitized_sane config).bucket with hb
  -- the run up to the window leaves a state that refines a level `l`
  obtain ⟨mid, mid', hpre, hwin⟩ := System.run_window hrun hij hj
  obtain ⟨hconf, -, href⟩ := System.run_refines (labels.take i) (new_refines config start) hpre
    (List.Pairwise.sublist (List.Sublist.cons_cons _ ((List.take_sublist _ _).map _)) hclock)
  have hbucket : mid.limiter.bucket = b := bucket_congr hconf
  change Refines mid.limiter (b.run (b.new start) ((labels.take i).filterMap Label.ideal)).2 at href
  set l := (b.run (b.new start) ((labels.take i).filterMap Label.ideal)).2 with hl
  have hsince : l.since ≤ labels[i].now := by
    refine b.run_since_le _ _ _ (hstart _ (List.mem_map_of_mem (List.getElem_mem hi))) ?_
    intro s hs
    obtain ⟨lab, hlab, hnow⟩ := ideal_time hs
    obtain ⟨k, hk, rfl⟩ := List.getElem_of_mem hlab
    rw [List.length_take] at hk
    rw [← hnow, List.getElem_take]
    exact now_le hsorted (by omega) hi
  -- the window itself is a run of the bucket from `l`
  have hwsorted : ((window i j labels).map Label.now).Pairwise (· ≤ ·) :=
    hsorted.sublist (((List.take_sublist _ _).trans (List.drop_sublist _ _)).map _)
  have hbegin : ∀ t ∈ (window i j labels).map Label.now, labels[i].now ≤ t := by
    intro t ht
    obtain ⟨lab, hlab, rfl⟩ := List.mem_map.mp ht
    exact (window_now hsorted hij hj hlab).1
  obtain ⟨-, hgrants, -⟩ := System.run_refines (window i j labels) href hwin
    (List.pairwise_cons.mpr ⟨fun t ht => le_trans hsince (hbegin t ht), hwsorted⟩)
  rw [hbucket] at hgrants
  have hacc := b.window_account ((window i j labels).filterMap Label.ideal) l labels[i].now
    labels[j].now href.credit_nonneg hsince (now_le hsorted hij hj)
    ((List.pairwise_cons.mpr ⟨hbegin, hwsorted⟩).sublist
      (List.Sublist.cons_cons _ (ideal_times_sublist _)))
    (by
      intro s hs
      obtain ⟨lab, hlab, hnow⟩ := ideal_time hs
      rw [← hnow]
      exact (window_now hsorted hij hj hlab).2)
  rw [← hgrants, resets_ideal] at hacc
  -- one token costs one interval, so the account can be divided by it
  refine TokenBucket.whole_tokens (sanitized_sane config).interval_ns_pos ?_
  simp only [hb, Config.Sane.bucket, Config.full] at hacc
  linarith

/-- A bucket of one token, taken by one thread and waited for by another. -/
theorem rate_bound_two_threads :
    (grants (window 1 4 [.granted, .started, .missed, .slept, .granted]) : ℤ)
      ≤ (1 : UInt16).toNat + 0 * (1 : UInt16).toNat + (100000005 - 6) / 100000000 :=
  rate_bound { max_tokens := 1, initial_tokens := 1 } 5
    [⟨0, .try_acquire, 5, 5⟩, ⟨1, .acquire, 6, 6⟩, ⟨1, .attempt, 7, 8⟩, ⟨1, .settle, 9, 9⟩,
      ⟨1, .attempt, 100000005, 100000005⟩]
    [.granted, .started, .missed, .slept, .granted] _ rfl (by decide) 1 4 (by decide) (by decide)

end OpenMeteo.RateLimiter
