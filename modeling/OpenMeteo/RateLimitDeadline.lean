/-
What a deadline promises under contention.

`acquire_until` looks at its deadline in one place only: before it sleeps, against the
end of that sleep. So a sleep ends by the deadline, and what comes behind the last one
is an attempt and a test, whoever takes the tokens meanwhile. A thread that is
scheduled in time is therefore out of its call in time, in every interleaving with any
number of others, of which nothing is asked.
-/
import OpenMeteo.RateLimitFree

set_option autoImplicit false

namespace OpenMeteo.RateLimiter

/-! ## Scheduling -/

/-- From when on a thread can take its next step: from its last one, or from the end of
the sleep that it began there. -/
def due_after (thread : ℕ) (due : ℤ) (sys : System) (l : Label) (out : Outcome) : ℤ :=
  if l.thread = thread then
    match sys.threads thread, out with
    | .waiting _ wait, .slept => l.now + wait
    | _, _ => l.now
  else due

theorem due_after_awake {sys : System} {l : Label} {out : Outcome} (due : ℤ)
    (hout : out ≠ .slept) : due_after l.thread due sys l out = l.now := by
  unfold due_after
  rw [if_pos rfl]
  split
  · exact absurd rfl hout
  · rfl

theorem due_after_asleep {sys : System} {l : Label} {deadline : Option ℤ} {wait : ℤ} (due : ℤ)
    (hplace : sys.threads l.thread = .waiting deadline wait) :
    due_after l.thread due sys l .slept = l.now + wait := by
  unfold due_after
  rw [if_pos rfl, hplace]

/-- While a thread is in a call, nothing happens more than `ε` after its next step is
due. -/
def Prompt (ε : ℕ) (thread : ℕ) : ℤ → System → List Label → Prop
  | _, _, [] => True
  | due, sys, l :: rest =>
    (sys.threads thread ≠ .idle → l.now ≤ due + ε)
      ∧ match sys.step l with
        | none => True
        | some (out, sys') => Prompt ε thread (due_after thread due sys l out) sys' rest

instance Prompt.decidable (ε thread : ℕ) : ∀ (due : ℤ) (sys : System) (labels : List Label),
    Decidable (Prompt ε thread due sys labels)
  | _, _, [] => isTrue trivial
  | due, sys, l :: rest =>
    have : Decidable (match sys.step l with
        | none => True
        | some (out, sys') => Prompt ε thread (due_after thread due sys l out) sys' rest) :=
      match sys.step l with
      | none => isTrue trivial
      | some (out, sys') =>
        Prompt.decidable ε thread (due_after thread due sys l out) sys' rest
    inferInstanceAs (Decidable (_ ∧ _))

/-! ## Calls with a deadline -/

/-- How long a call that begins here may wait. -/
def Label.patience (config : Config) (l : Label) : Option ℤ :=
  match l.action with
  | .acquire => config.max_wait
  | .acquire_for max_wait => some max_wait
  | _ => none

/-- Step `k` ends a call of the thread. -/
def Returned (thread : ℕ) (labels : List Label) (outs : List Outcome) (k : ℕ) : Prop :=
  (labels[k]?).map Label.thread = some thread ∧ (outs[k]?).map Outcome.ends = some true

/-- A place in a call with this deadline, whose next step is due in time. -/
def InTime (ε : ℕ) (deadline due : ℤ) : Thread → Prop
  | .idle => False
  | .looping d => d = some deadline ∧ due ≤ deadline
  | .waiting d _ => d = some deadline ∧ due ≤ deadline + ε

variable {sys sys' : System} {l : Label} {out : Outcome} {thread ε : ℕ} {deadline due : ℤ}

theorem InTime.not_idle {place : Thread} (h : InTime ε deadline due place) : place ≠ .idle := by
  rintro rfl
  exact h

theorem InTime.due_le {place : Thread} (h : InTime ε deadline due place) :
    due ≤ deadline + ε := by
  cases place with
  | idle => exact absurd h id
  | looping d =>
    have hdue := h.2
    omega
  | waiting d wait => exact h.2

/-- A deadline never lies before the call. -/
theorem le_acquire_deadline (max_wait : ℤ) {now : ℤ} (hnow : now ≤ duration_max) :
    now ≤ acquire_deadline max_wait now := by
  unfold acquire_deadline
  split
  · exact le_refl now
  · split
    · exact hnow
    · simp only [ns_per_ms]
      omega

/-- A call begins in time. -/
theorem begins_in_time (hstep : sys.step l = some (out, sys')) {max_wait : ℤ}
    (hcall : l.patience sys.limiter.config_ = some max_wait) (hnow : l.now ≤ duration_max) :
    InTime ε (acquire_deadline max_wait l.now) (due_after l.thread due sys l out)
      (sys'.threads l.thread) := by
  have hle := le_acquire_deadline max_wait hnow
  unfold Label.patience at hcall
  cases System.step_cases hstep with
  | acquire hplace haction =>
    rw [haction] at hcall
    change sys.limiter.config_.max_wait = some max_wait at hcall
    rw [goto_own, hcall, due_after_awake due Outcome.noConfusion]
    exact ⟨rfl, hle⟩
  | acquire_for wait hplace haction =>
    rw [haction] at hcall
    rw [goto_own, due_after_awake due Outcome.noConfusion, Option.some.inj hcall]
    exact ⟨rfl, hle⟩
  | try_acquire hplace haction | available_tokens hplace haction | reset hplace haction
  | took _ hplace haction | missed _ _ hplace haction | gave_up _ _ hplace haction
  | slept _ _ hplace haction =>
    rw [haction] at hcall
    cases hcall

/-- **One step.** A thread in time ends its call, or stays in time. -/
theorem InTime.step (h : InTime ε deadline due (sys.threads thread)) (hprompt : l.now ≤ due + ε)
    (hstep : sys.step l = some (out, sys')) :
    (l.thread = thread ∧ out.ends = true)
      ∨ InTime ε deadline (due_after thread due sys l out) (sys'.threads thread) := by
  by_cases hown : l.thread = thread
  · subst hown
    cases System.step_cases hstep with
    | took => exact Or.inl ⟨rfl, rfl⟩
    | gave_up => exact Or.inl ⟨rfl, rfl⟩
    | missed d wait hplace =>
      rw [hplace] at h
      refine Or.inr ?_
      rw [goto_own, due_after_awake due Outcome.noConfusion]
      refine ⟨h.1, ?_⟩
      have hdue := h.2
      omega
    | slept d wait hplace haction hlate =>
      rw [hplace] at h
      -- the sleep was begun because it ends by the deadline
      rw [h.1, past_deadline, decide_eq_true_iff] at hlate
      refine Or.inr ?_
      rw [goto_own, due_after_asleep due hplace]
      refine ⟨h.1, ?_⟩
      omega
    | try_acquire hplace | acquire hplace | acquire_for _ hplace | available_tokens hplace
    | reset hplace => exact absurd hplace h.not_idle
  · refine Or.inr ?_
    unfold due_after
    rw [System.step_other (Ne.symm hown) hstep, if_neg hown]
    exact h

/-! ## Runs -/

theorem Returned.cons {labels : List Label} {outs : List Outcome} {k : ℕ}
    (h : Returned thread labels outs k) (l : Label) (out : Outcome) :
    Returned thread (l :: labels) (out :: outs) (k + 1) := h

/-- From a place in a call: until the thread has returned, nothing happens later than
this, by induction on the steps. -/
theorem InTime.run (labels : List Label) :
    ∀ {sys final : System} {outs : List Outcome} {due : ℤ},
      InTime ε deadline due (sys.threads thread) → sys.run labels = some (outs, final) →
      Prompt ε thread due sys labels → ∀ (n : ℕ) (hn : n < labels.length),
        (∃ k < n, Returned thread labels outs k) ∨ labels[n].now ≤ deadline + 2 * ε := by
  induction labels with
  | nil =>
    intro sys final outs due _ _ _ n hn
    exact absurd hn (Nat.not_lt_zero n)
  | cons l rest ih =>
    intro sys final outs due h hrun hprompt n hn
    obtain ⟨out, sys', outs', hstep, hrest, rfl⟩ := System.run_cons hrun
    obtain ⟨hnow, hprompt'⟩ := hprompt
    rw [hstep] at hprompt'
    have hhere := hnow h.not_idle
    cases n with
    | zero =>
      have hdue := h.due_le
      refine Or.inr ?_
      rw [List.getElem_cons_zero]
      omega
    | succ n =>
      rw [List.getElem_cons_succ]
      rcases h.step hhere hstep with ⟨hown, hends⟩ | hin
      · refine Or.inl ⟨0, Nat.succ_pos n, ?_, ?_⟩
        · exact congrArg some hown
        · exact congrArg some hends
      · rcases ih hin hrest hprompt' n (Nat.lt_of_succ_lt_succ hn) with ⟨k, hk, hreturned⟩ | hle
        · exact Or.inl ⟨k + 1, Nat.succ_lt_succ hk, hreturned.cons l out⟩
        · exact Or.inr hle

/-- From the beginning, by induction on the steps before the call. -/
theorem call_returns (labels : List Label) :
    ∀ {sys final : System} {outs : List Outcome} {due : ℤ} {i j : ℕ} {max_wait : ℤ},
      sys.run labels = some (outs, final) → Prompt ε thread due sys labels → i < j →
      ∀ (hi : i < labels.length) (hj : j < labels.length), labels[i].thread = thread →
      labels[i].patience sys.limiter.config_ = some max_wait → labels[i].now ≤ duration_max →
      acquire_deadline max_wait labels[i].now + 2 * ε < labels[j].now →
        ∃ k, i < k ∧ k < j ∧ Returned thread labels outs k := by
  induction labels with
  | nil =>
    intro sys final outs due i j max_wait _ _ _ hi
    exact absurd hi (Nat.not_lt_zero i)
  | cons l rest ih =>
    intro sys final outs due i j max_wait hrun hprompt hij hi hj hthread hcall hnow hlate
    obtain ⟨out, sys', outs', hstep, hrest, rfl⟩ := System.run_cons hrun
    have hprompt' := hprompt.2
    rw [hstep] at hprompt'
    obtain ⟨j, rfl⟩ : ∃ n, j = n + 1 := ⟨j - 1, by omega⟩
    rw [List.getElem_cons_succ] at hlate
    cases i with
    | zero =>
      rw [List.getElem_cons_zero] at hthread hcall hnow hlate
      subst hthread
      have hbegun : InTime ε (acquire_deadline max_wait l.now) (due_after l.thread due sys l out)
          (sys'.threads l.thread) := begins_in_time hstep hcall hnow
      rcases hbegun.run rest hrest hprompt' j (Nat.lt_of_succ_lt_succ hj) with
        ⟨k, hk, hreturned⟩ | hle
      · exact ⟨k + 1, Nat.succ_pos k, Nat.succ_lt_succ hk, hreturned.cons l out⟩
      · omega
    | succ i =>
      rw [List.getElem_cons_succ] at hthread hcall hnow hlate
      rw [← System.step_config hstep] at hcall
      obtain ⟨k, hik, hkj, hreturned⟩ := ih hrest hprompt' (Nat.lt_of_succ_lt_succ hij)
        (Nat.lt_of_succ_lt_succ hi) (Nat.lt_of_succ_lt_succ hj) hthread hcall hnow hlate
      exact ⟨k + 1, Nat.succ_lt_succ hik, Nat.succ_lt_succ hkj, hreturned.cons l out⟩

/-- **A deadline holds under contention.** In every run of any number of threads, with
any other calls and resets in between: a call with a deadline, made at a reading that
the clock has, of a thread that takes its steps at most `ε` after they are due, has
returned before anything happens later than `2 * ε` behind its deadline. -/
theorem returns_by_deadline (config : Config) (start : ℤ) (labels : List Label)
    (outs : List Outcome) (final : System)
    (hrun : (System.new config start).run labels = some (outs, final)) (thread ε : ℕ)
    (hprompt : Prompt ε thread start (System.new config start) labels) (i j : ℕ) (hij : i < j)
    (hi : i < labels.length) (hj : j < labels.length) (hthread : labels[i].thread = thread) (max_wait : ℤ)
    (hcall : labels[i].patience (sanitized config) = some max_wait)
    (hnow : labels[i].now ≤ duration_max)
    (hlate : acquire_deadline max_wait labels[i].now + 2 * ε < labels[j].now) :
    ∃ k, i < k ∧ k < j ∧ Returned thread labels outs k :=
  call_returns labels hrun hprompt hij hi hj hthread hcall hnow hlate

/-- 150 ms for a token that is due after 100 ms, and goes to another thread. -/
theorem returns_by_deadline_overtaken :
    ∃ k, 0 < k ∧ k < 6 ∧ Returned 1
      [⟨1, .acquire_for 150, 1, 1⟩, ⟨1, .attempt, 2, 2⟩, ⟨1, .settle, 3, 3⟩,
        ⟨0, .try_acquire, 100000000, 100000000⟩, ⟨1, .attempt, 100000002, 100000002⟩,
        ⟨1, .settle, 100000003, 100000003⟩, ⟨0, .try_acquire, 200000000, 200000000⟩]
      [.started, .missed, .slept, .granted, .missed, .refused, .granted] k :=
  returns_by_deadline { max_tokens := 1, initial_tokens := 0 } 0 _ _ _ rfl 1 5 (by decide) 0 6
    (by decide) (by decide) (by decide) rfl 150 rfl (by decide) (by decide)

end OpenMeteo.RateLimiter
