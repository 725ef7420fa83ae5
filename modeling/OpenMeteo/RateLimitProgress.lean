/-
What contention can cost a thread.

`acquire_until` has no queue: a thread that sleeps its wait and comes back may
find that another took the token. `overtaken` says that this is the only way to
come back in vain. Each further miss of a call is paid by a token that another
thread got, or by a reset, so that the threads together always make progress.

The argument needs no account of tokens. A miss leaves the limiter exactly as it
was (`missed_same`), and its wait ends when a token is due there. So until
somebody else takes or resets, the next attempt of the thread is certain to get
its token.
-/
import OpenMeteo.AcquireAlone

set_option autoImplicit false

namespace OpenMeteo.RateLimiter

/-! ## Sleeping as long as told -/

/-- When the threads may attempt again after a step: a miss has to be waited for,
from the reading on that its wait was computed at. -/
def wakes_after (wakes : ℕ → ℤ) (l : Label) (out : Outcome) (sys : System) : ℕ → ℤ := fun i =>
  if i = l.thread then
    match out, sys.threads i with
    | .missed, .waiting _ wait => l.later + wait
    | .started, _ => l.now
    | _, _ => wakes i
  else wakes i

/-- No thread wakes up before its sleep is over. -/
def Rests : (ℕ → ℤ) → System → List Label → Prop
  | _, _, [] => True
  | wakes, sys, l :: rest =>
    (l.action = .attempt → wakes l.thread ≤ l.now)
      ∧ match sys.step l with
        | none => True
        | some (out, sys') => Rests (wakes_after wakes l out sys') sys' rest

instance Rests.decidable : ∀ (wakes : ℕ → ℤ) (sys : System) (labels : List Label),
    Decidable (Rests wakes sys labels)
  | _, _, [] => isTrue trivial
  | wakes, sys, l :: rest =>
    have : Decidable (match sys.step l with
        | none => True
        | some (out, sys') => Rests (wakes_after wakes l out sys') sys' rest) :=
      match sys.step l with
      | none => isTrue trivial
      | some (out, sys') => Rests.decidable (wakes_after wakes l out sys') sys' rest
    inferInstanceAs (Decidable (_ ∧ _))

/-! ## Counting -/

/-- The steps of a thread that gave `out`. -/
def count_own (thread : ℕ) (out : Outcome) (labels : List Label) (outs : List Outcome) : ℕ :=
  (labels.zip outs).countP fun p => p.1.thread = thread ∧ p.2 = out

/-- A token that was handed out, or a reset. -/
def Outcome.isSuccess : Outcome → Bool
  | .granted | .done => true
  | _ => false

/-- The tokens that other threads got, and their resets. -/
def count_others (thread : ℕ) (labels : List Label) (outs : List Outcome) : ℕ :=
  (labels.zip outs).countP fun p => p.1.thread ≠ thread ∧ p.2.isSuccess

theorem count_own_cons (thread : ℕ) (out : Outcome) (l : Label) (labels : List Label) (o : Outcome)
    (outs : List Outcome) :
    count_own thread out (l :: labels) (o :: outs)
      = count_own thread out labels outs + if l.thread = thread ∧ o = out then 1 else 0 := by
  simp only [count_own, List.zip_cons_cons, List.countP_cons, decide_eq_true_eq]

theorem count_others_cons (thread : ℕ) (l : Label) (labels : List Label) (o : Outcome)
    (outs : List Outcome) :
    count_others thread (l :: labels) (o :: outs)
      = count_others thread labels outs
        + if l.thread ≠ thread ∧ o.isSuccess = true then 1 else 0 := by
  simp only [count_others, List.zip_cons_cons, List.countP_cons, decide_eq_true_eq]

/-! ## A certain attempt -/

variable {sys sys' : System} {l : Label} {out : Outcome} {thread : ℕ} {wakes : ℕ → ℤ}

/-- A miss leaves the limiter as it was, and its wait ends no earlier than a token
is due. -/
theorem missed_same {s : RateLimiter} {now later wait : ℤ} (h : s.Within now)
    (hinterval : s.config_.interval_ns ≤ duration_max)
    (hmiss : (s.take_or_wait_time now later).1 = some wait) :
    (s.take_or_wait_time now later).2 = s ∧ now < s.last_refill_ + s.config_.interval_ns
      ∧ s.last_refill_ + s.config_.interval_ns ≤ later + wait := by
  rcases h.take_cases later with ⟨-, htake⟩ | ⟨hnone, htake⟩
  · rw [htake] at hmiss
    cases hmiss
  · obtain ⟨-, hdue, hsame⟩ := empty_of_refill h hnone
    rw [hsame] at htake
    rw [htake] at hmiss ⊢
    cases hmiss
    refine ⟨rfl, hdue, ?_⟩
    have hrounded := Config.wait_interval_eq hinterval
    have hround : (0 : ℤ) ≤ if s.config_.refill_interval = 9223372036854 then 775807 else 0 := by
      split <;> norm_num
    have hwait := le_max_left (s.config_.wait_interval - (later - s.last_refill_)) 0
    omega

/-- The next attempt of the thread, if it is in a call, finds a token. -/
def Certain (sys : System) (wakes : ℕ → ℤ) (thread : ℕ) : Prop :=
  sys.threads thread = .idle
    ∨ sys.limiter.last_refill_ + sys.limiter.config_.interval_ns ≤ wakes thread

theorem wakes_after_other (hne : thread ≠ l.thread) (out : Outcome) (sys : System) :
    wakes_after wakes l out sys thread = wakes thread := if_neg hne

/-- A step of another thread leaves an attempt certain, unless it took the token or
reset. -/
theorem Certain.other (h : Certain sys wakes thread) (hwithin : sys.limiter.Within l.now)
    (hinterval : sys.limiter.config_.interval_ns ≤ duration_max) (hne : thread ≠ l.thread)
    (hstep : sys.step l = some (out, sys')) (hquiet : out.isSuccess = false) :
    Certain sys' (wakes_after wakes l out sys') thread := by
  rw [Certain, wakes_after_other hne]
  cases System.step_cases hstep with
  | try_acquire hplace haction =>
    cases htake : (sys.limiter.take_or_wait_time l.now l.later).1 with
    | none =>
      simp only [try_acquire, htake] at hquiet
      cases hquiet
    | some wait =>
      rw [try_acquire, (missed_same hwithin hinterval htake).1]
      exact h
  | missed deadline wait hplace haction htake =>
    rw [goto_other _ hne, (missed_same hwithin hinterval htake).1]
    exact h
  | acquire | acquire_for | gave_up | slept =>
    rw [goto_other _ hne]
    exact h
  | available_tokens => exact h
  | reset | took => cases hquiet

/-- A certain attempt does not miss, and a step of the thread leaves the next one
certain, unless it begins a call. -/
theorem Certain.own (h : Certain sys wakes thread) (hwithin : sys.limiter.Within l.now)
    (hinterval : sys.limiter.config_.interval_ns ≤ duration_max) (hthread : l.thread = thread)
    (hrest : l.action = .attempt → wakes l.thread ≤ l.now)
    (hstep : sys.step l = some (out, sys')) (hbegun : out ≠ .started) :
    out ≠ .missed ∧ Certain sys' (wakes_after wakes l out sys') thread := by
  subst hthread
  cases System.step_cases hstep with
  | try_acquire hplace haction =>
    refine ⟨?_, Or.inl hplace⟩
    split <;> exact fun heq => by cases heq
  | acquire | acquire_for => exact absurd rfl hbegun
  | available_tokens hplace | reset hplace => exact ⟨fun heq => (by cases heq), Or.inl hplace⟩
  | took deadline hplace haction htake => exact ⟨fun heq => (by cases heq), Or.inl (goto_own _ _ _)⟩
  | gave_up => exact ⟨fun heq => (by cases heq), Or.inl (goto_own _ _ _)⟩
  | missed deadline wait hplace haction htake =>
    -- it wakes up when a token is due, and so finds one
    obtain ⟨-, hdue, -⟩ := missed_same hwithin hinterval htake
    have hwoken := hrest haction
    rcases h with hidle | hlate
    · rw [hplace] at hidle
      cases hidle
    · omega
  | slept deadline wait hplace haction hlate =>
    refine ⟨fun heq => (by cases heq), Or.inr ?_⟩
    rcases h with hidle | hlate
    · rw [hplace] at hidle
      cases hidle
    · have hwakes : wakes_after wakes l .slept (sys.goto l.thread (.looping deadline)) l.thread
          = wakes l.thread := if_pos rfl
      rw [hwakes]
      exact hlate

/-- After a miss the next attempt is certain. -/
theorem Certain.missed (hwithin : sys.limiter.Within l.now)
    (hinterval : sys.limiter.config_.interval_ns ≤ duration_max)
    (hstep : sys.step l = some (.missed, sys')) :
    Certain sys' (wakes_after wakes l .missed sys') l.thread := by
  refine Or.inr ?_
  generalize hout : Outcome.missed = out at hstep
  cases System.step_cases hstep with
  | missed deadline wait hplace haction htake =>
    obtain ⟨hsame, -, hwait⟩ := missed_same hwithin hinterval htake
    have hwakes : wakes_after wakes l .missed
        ({ sys with limiter := (sys.limiter.take_or_wait_time l.now l.later).2 }.goto l.thread
          (.waiting deadline wait)) l.thread = l.later + wait := by
      unfold wakes_after
      rw [if_pos rfl, goto_own]
    rw [hwakes]
    change (sys.limiter.take_or_wait_time l.now l.later).2.last_refill_
      + (sys.limiter.take_or_wait_time l.now l.later).2.config_.interval_ns ≤ _
    rw [hsame]
    exact hwait
  | try_acquire =>
    split at hout <;> cases hout
  | _ => cases hout

/-- The whole run, by induction on its steps. `spare` is a miss that nobody has to
pay for, and without it the next attempt is certain. -/
theorem misses_le (labels : List Label) (thread : ℕ) :
    ∀ (spare : ℕ) {sys final : System} {outs : List Outcome} {wakes : ℕ → ℤ} {t : ℤ},
      sys.limiter.Within t → sys.limiter.config_.interval_ns ≤ duration_max →
      sys.run labels = some (outs, final) → (t :: labels.map Label.now).Pairwise (· ≤ ·) →
      Rests wakes sys labels → (spare = 0 → Certain sys wakes thread) →
      count_own thread .missed labels outs
        ≤ spare + count_own thread .started labels outs + count_others thread labels outs := by
  induction labels with
  | nil =>
    intro spare sys final outs wakes t _ _ hrun _ _ _
    cases hrun
    exact Nat.zero_le _
  | cons l rest ih =>
    intro spare sys final outs wakes t hwithin hinterval hrun hclock hrests hspare
    obtain ⟨out, sys', outs', hstep, hrun', rfl⟩ := System.run_cons hrun
    obtain ⟨hnow, hclock'⟩ := List.pairwise_cons.mp hclock
    have hhere := hwithin.mono (hnow l.now (List.mem_cons_self ..))
    obtain ⟨hconf, hwithin'⟩ := System.step_within hhere hstep
    obtain ⟨hwake, hrests'⟩ := hrests
    rw [hstep] at hrests'
    have hinterval' : sys'.limiter.config_.interval_ns ≤ duration_max := by rwa [hconf]
    have hrest := fun spare' => ih spare' hwithin' hinterval' hrun' hclock' hrests'
    rw [count_own_cons, count_own_cons, count_others_cons]
    by_cases hown : l.thread = thread
    · have hnot_other : ¬ (l.thread ≠ thread ∧ out.isSuccess = true) := fun h => h.1 hown
      rw [if_neg hnot_other]
      by_cases hbegun : out = .started
      · -- a call begins, and its first miss is spare
        have hle := hrest (spare + 1) fun h => absurd h (Nat.succ_ne_zero spare)
        subst hbegun
        have hnot_missed : ¬ (l.thread = thread ∧ Outcome.started = .missed) :=
          fun h => (by cases h.2)
        rw [if_neg hnot_missed, if_pos ⟨hown, rfl⟩]
        omega
      · have hnot_begun : ¬ (l.thread = thread ∧ out = .started) := fun h => hbegun h.2
        rw [if_neg hnot_begun]
        by_cases hmiss : out = .missed
        · -- a miss uses the spare one up
          have hsome : spare ≠ 0 := fun h =>
            ((hspare h).own hhere hinterval hown hwake hstep hbegun).1 hmiss
          subst hmiss
          have hle := hrest (spare - 1) fun _ => hown ▸ Certain.missed hhere hinterval hstep
          rw [if_pos ⟨hown, rfl⟩]
          omega
        · have hle := hrest spare fun h =>
            ((hspare h).own hhere hinterval hown hwake hstep hbegun).2
          rw [if_neg fun h => hmiss h.2]
          omega
    · rw [if_neg fun h => hown h.1, if_neg fun h => hown h.1]
      by_cases hsuccess : out.isSuccess = true
      · -- another thread takes or resets, and with that this one may miss again
        have hle := hrest (spare + 1) fun h => absurd h (Nat.succ_ne_zero spare)
        rw [if_pos ⟨hown, hsuccess⟩]
        omega
      · have hle := hrest spare fun h =>
          (hspare h).other hhere hinterval (Ne.symm hown) hstep (by simpa using hsuccess)
        rw [if_neg fun h => hsuccess h.2]
        omega

/-- **Nobody sleeps in vain but for another's token.** Where the interval fits in
nanoseconds, in every run of any number of threads that sleep at least as long as
they are told, a thread misses at most once for each call it begins, and once more
for each token another thread gets and each reset another thread makes. -/
theorem overtaken (config : Config) (start : ℤ) (labels : List Label) (outs : List Outcome)
    (final : System) (hrun : (System.new config start).run labels = some (outs, final))
    (hclock : (start :: labels.map Label.now).Pairwise (· ≤ ·))
    (hrests : Rests (fun _ => start) (System.new config start) labels)
    (hinterval : (sanitized config).interval_ns ≤ duration_max) (thread : ℕ) :
    count_own thread .missed labels outs
      ≤ count_own thread .started labels outs + count_others thread labels outs := by
  have hle := misses_le labels thread 0 (new_within config start) hinterval hrun hclock
    hrests fun _ => Or.inl rfl
  omega

/-- Two threads wait for one token. The one that comes second misses again, and gets
the next. -/
theorem overtaken_once :
    count_own 1 .missed
        [⟨0, .acquire, 1, 1⟩, ⟨1, .acquire, 1, 1⟩, ⟨0, .attempt, 2, 2⟩, ⟨1, .attempt, 2, 2⟩,
          ⟨0, .settle, 3, 3⟩, ⟨1, .settle, 3, 3⟩, ⟨0, .attempt, 100000000, 100000000⟩,
          ⟨1, .attempt, 100000000, 100000000⟩, ⟨1, .settle, 100000000, 100000000⟩,
          ⟨1, .attempt, 200000000, 200000000⟩]
        [.started, .started, .missed, .missed, .slept, .slept, .granted, .missed, .slept, .granted]
      ≤ 1 + 1 :=
  overtaken { max_tokens := 1, initial_tokens := 0 } 0 _ _ _ rfl (by decide) (by decide)
    (by decide) 1

end OpenMeteo.RateLimiter
