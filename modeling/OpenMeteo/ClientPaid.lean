/-
Every HTTP attempt of `do_get` is paid for.

`Services.logged` records what `do_get` asks of its services, in order: each
decision of the limiter, each request at the moment it is made, each sleep.
`Attempts` is the shape such a record can have. It is a list of rounds, a grant
followed by its request and, when another round follows, one sleep; a refusal
is the end of it. The reason is in `retryable`: the refusal's code is
`RateLimited`, which only a response is retried for.
-/
import OpenMeteo.ClientResults

set_option autoImplicit false

namespace OpenMeteo

variable {σ : Type}

/-! ## The record -/

/-- What `do_get` asks of its services. -/
inductive ClientEvent
  | acquired (granted : Bool)
  | requested
  | slept (delay : ℤ)
  deriving DecidableEq, Repr

/-- The same services, which also record what is asked of them. -/
def Services.logged (services : Services σ) : Services (σ × List ClientEvent) where
  acquire := fun w =>
    match services.acquire w.1 with
    | (some granted, w') => (some granted, (w', w.2 ++ [.acquired granted]))
    | (none, w') => (none, (w', w.2))
  http_get := fun full_url w =>
    ((services.http_get full_url w.1).1,
      ((services.http_get full_url w.1).2, w.2 ++ [.requested]))
  sleep_for := fun delay w =>
    ((services.sleep_for delay w.1).1, ((services.sleep_for delay w.1).2, w.2 ++ [.slept delay]))
  jitter := fun w => ((services.jitter w.1).1, ((services.jitter w.1).2, w.2))

/-! ### Recording changes nothing -/

theorem logged_mirrors (services : Services σ) : services.logged.Mirrors services where
  acquire := by
    intro w
    simp only [Services.logged]
    rcases services.acquire w.1 with ⟨_ | granted, w'⟩
    · exact ⟨rfl, rfl⟩
    · exact ⟨rfl, rfl⟩
  http_get := fun _ _ => ⟨rfl, rfl⟩
  sleep_for := fun _ _ => ⟨rfl, rfl⟩
  jitter := fun _ => ⟨rfl, rfl⟩

/-! ## The shape of a record -/

/-- The records of at most `n` attempts, and the result where there is one. -/
inductive Attempts : ℕ → List ClientEvent → Option (Result HttpResponse) → Prop
  | nothing (n : ℕ) (result : Option (Result HttpResponse)) : Attempts n [] result
  | refused (n : ℕ) : Attempts (n + 1) [.acquired false] (some (.error limiter_error))
  | last (n : ℕ) (result : Option (Result HttpResponse)) :
      Attempts (n + 1) [.acquired true, .requested] result
  | again {n : ℕ} {events : List ClientEvent} {result : Option (Result HttpResponse)}
      (delay : ℤ) : Attempts n events result →
      Attempts (n + 1) (.acquired true :: .requested :: .slept delay :: events) result

/-- The limiter's refusal is never retried. -/
theorem limiter_error_not_retryable (policy : RetryPolicy) :
    retryable policy (.error limiter_error) = false := by
  simp [retryable, should_retry_error, limiter_error, Error.rate_limited]

/-- One round, without the sleep. -/
theorem attempt_events (services : Services σ) (full_url : Bytes) (w : σ)
    (log : List ClientEvent) :
    (services.logged.attempt full_url).Ensures (w, log) fun result w' =>
      (result = none ∧ w'.2 = log)
        ∨ (result = some (.error limiter_error) ∧ w'.2 = log ++ [.acquired false])
        ∨ w'.2 = log ++ [.acquired true, .requested] := by
  unfold Services.attempt
  refine Proc.Ensures.bind (P := fun granted w' =>
    w'.2 = match granted with
      | some b => log ++ [.acquired b]
      | none => log) ?_ ?_ ?_
  · simp only [Proc.Ensures, Services.logged]
    rcases services.acquire w with ⟨_ | granted, w'⟩ <;> rfl
  -- refused, and granted; an acquisition that is still waiting records nothing
  · rintro (_ | _) w' hlog
    · exact Or.inr (Or.inl ⟨rfl, hlog⟩)
    · refine Or.inr (Or.inr ?_)
      change w'.2 ++ [ClientEvent.requested] = _
      rw [hlog, List.append_assoc]
      rfl
  · exact fun w' hlog => Or.inl ⟨rfl, hlog⟩

/-- A draw is not recorded. -/
theorem logged_jitter (services : Services σ) (w : σ × List ClientEvent) :
    services.logged.jitter.Ensures w fun _ w' => w'.2 = w.2 := rfl

theorem logged_sleep (services : Services σ) (delay : ℤ) (w : σ × List ClientEvent) :
    (services.logged.sleep_for delay).Ensures w fun _ w' => w'.2 = w.2 ++ [.slept delay] := rfl

/-- **What bounded retry asks of its services**, by induction on the attempts
that remain. -/
theorem bounded_retry_events (services : Services σ) (policy : RetryPolicy) (full_url : Bytes)
    (remaining : ℕ) : ∀ (attempt : ℕ) (w : σ) (log : List ClientEvent),
      (bounded_retry (services.logged.retry_port full_url) policy remaining attempt).Ensures
        (w, log) fun result w' =>
          ∃ events, w'.2 = log ++ events ∧ Attempts (remaining + 1) events result := by
  induction remaining with
  | zero =>
    intro attempt w log
    refine (attempt_events services full_url w log).mono ?_
    rintro result w' (⟨rfl, hlog⟩ | ⟨rfl, hlog⟩ | hlog)
    · exact ⟨[], by rw [hlog, List.append_nil], .nothing _ _⟩
    · exact ⟨_, hlog, .refused _⟩
    · exact ⟨_, hlog, .last _ _⟩
  | succ remaining ih =>
    intro attempt w log
    refine Proc.Ensures.bind (attempt_events services full_url w log) ?_ ?_
    · rintro result w' (⟨hnone, -⟩ | ⟨hrefused, hlog⟩ | hlog)
      · cases hnone
      -- the refusal is not retryable, so the loop ends here
      · cases hrefused
        rw [limiter_error_not_retryable]
        exact ⟨_, hlog, .refused _⟩
      · split
        · -- the record stands still over the draw, and grows by the sleep
          refine Proc.Ensures.bind (logged_jitter services w') (fun jitter w₁ hw₁ => ?_)
            fun w₁ hw₁ => ⟨_, hw₁.trans hlog, .last _ _⟩
          set delay := calculate_retry_delay (UInt8.ofNat attempt) policy jitter
          refine Proc.Ensures.bind (logged_sleep services delay w₁) (fun _ w₂ hw₂ => ?_)
            fun w₂ hw₂ => ?_
          · refine (ih (attempt + 1) w₂.1 w₂.2).mono ?_
            rintro result w₃ ⟨events, hw₃, hevents⟩
            refine ⟨_, ?_, .again delay hevents⟩
            rw [hw₃, hw₂, hw₁, hlog]
            simp only [List.append_assoc, List.cons_append, List.nil_append]
          · refine ⟨_, ?_, .again delay (.nothing _ _)⟩
            rw [hw₂, hw₁, hlog, List.append_assoc]
            rfl
        · exact ⟨_, hlog, .last _ _⟩
    · rintro w' (⟨-, hlog⟩ | ⟨hsome, -⟩ | hlog)
      · exact ⟨[], by rw [hlog, List.append_nil], .nothing _ _⟩
      · cases hsome
      · exact ⟨_, hlog, .last _ _⟩

/-! ## What the shape says -/

/-- Requests and grants match one to one, the request directly behind its
grant; there are at most `n`; and a refusal ends the record with an error. -/
structure PaidFor (n : ℕ) (events : List ClientEvent) (result : Option (Result HttpResponse)) :
    Prop where
  as_many : events.count .requested = events.count (.acquired true)
  at_most : events.count .requested ≤ n
  grant_used : ∀ before after, events = before ++ .acquired true :: after →
    ∃ rest, after = .requested :: rest
  request_granted : ∀ before after, events = before ++ .requested :: after →
    ∃ rest, before = rest ++ [.acquired true]
  refusal_ends : ∀ before after, events = before ++ .acquired false :: after →
    after = [] ∧ result = some (.error limiter_error)

namespace PaidFor

variable {n : ℕ} {events : List ClientEvent} {result : Option (Result HttpResponse)}

/-- Where an event stands in a record that begins with another. -/
theorem later {a e : ClientEvent} {before after : List ClientEvent} (hne : a ≠ e)
    (h : a :: events = before ++ e :: after) :
    ∃ rest, before = a :: rest ∧ events = rest ++ e :: after := by
  rcases List.cons_eq_append_iff.mp h with ⟨-, hhead⟩ | hrest
  · exact absurd (List.cons.inj hhead).1.symm hne
  · exact hrest

theorem nothing (n : ℕ) (result : Option (Result HttpResponse)) : PaidFor n [] result := by
  have hnone : ∀ {before after : List ClientEvent} {e : ClientEvent}, [] ≠ before ++ e :: after :=
    fun h => List.append_ne_nil_of_right_ne_nil _ (List.cons_ne_nil _ _) h.symm
  refine ⟨rfl, Nat.zero_le _, ?_, ?_, ?_⟩
  · intro before after h
    exact absurd h hnone
  · intro before after h
    exact absurd h hnone
  · intro before after h
    exact absurd h hnone

theorem refused (n : ℕ) :
    PaidFor (n + 1) [.acquired false] (some (.error limiter_error)) := by
  refine ⟨rfl, Nat.zero_le _, ?_, ?_, ?_⟩
  · intro before after h
    obtain ⟨rest, -, htail⟩ := later (by decide) h
    simp at htail
  · intro before after h
    obtain ⟨rest, -, htail⟩ := later (by decide) h
    simp at htail
  · intro before after h
    rcases List.cons_eq_append_iff.mp h with ⟨-, hhead⟩ | ⟨rest, -, htail⟩
    · exact ⟨(List.cons.inj hhead).2, rfl⟩
    · simp at htail

/-- A sleep in front changes nothing. -/
theorem slept (delay : ℤ) (h : PaidFor n events result) :
    PaidFor n (.slept delay :: events) result := by
  refine ⟨?_, ?_, ?_, ?_, ?_⟩
  · rw [List.count_cons_of_ne (by simp), List.count_cons_of_ne (by simp)]
    exact h.as_many
  · rw [List.count_cons_of_ne (by simp)]
    exact h.at_most
  · intro before after heq
    obtain ⟨rest, -, htail⟩ := later (by simp) heq
    exact h.grant_used rest after htail
  · intro before after heq
    obtain ⟨rest, rfl, htail⟩ := later (by simp) heq
    obtain ⟨rest', rfl⟩ := h.request_granted rest after htail
    exact ⟨.slept delay :: rest', rfl⟩
  · intro before after heq
    obtain ⟨rest, -, htail⟩ := later (by simp) heq
    exact h.refusal_ends rest after htail

/-- One round more in front. -/
theorem round (h : PaidFor n events result) :
    PaidFor (n + 1) (.acquired true :: .requested :: events) result := by
  refine ⟨?_, ?_, ?_, ?_, ?_⟩
  · rw [List.count_cons_of_ne (by simp), List.count_cons_self, List.count_cons_self,
      List.count_cons_of_ne (by simp), h.as_many]
  · rw [List.count_cons_of_ne (by simp), List.count_cons_self]
    exact Nat.succ_le_succ h.at_most
  -- the grant is this round's, or one of the rest; likewise for the request
  · intro before after heq
    rcases List.cons_eq_append_iff.mp heq with ⟨-, hhead⟩ | ⟨rest, -, htail⟩
    · exact ⟨events, (List.cons.inj hhead).2⟩
    · obtain ⟨rest', -, htail'⟩ := later (by simp) htail
      exact h.grant_used rest' after htail'
  · intro before after heq
    obtain ⟨rest, rfl, htail⟩ := later (by simp) heq
    rcases List.cons_eq_append_iff.mp htail with ⟨rfl, -⟩ | ⟨rest', rfl, htail'⟩
    · exact ⟨[], rfl⟩
    · obtain ⟨rest'', rfl⟩ := h.request_granted rest' after htail'
      exact ⟨.acquired true :: .requested :: rest'', rfl⟩
  · intro before after heq
    obtain ⟨rest, -, htail⟩ := later (by simp) heq
    obtain ⟨rest', -, htail'⟩ := later (by simp) htail
    exact h.refusal_ends rest' after htail'

end PaidFor

/-- Every record of that shape is paid for. -/
theorem Attempts.paid {n : ℕ} {events : List ClientEvent} {result : Option (Result HttpResponse)}
    (h : Attempts n events result) : PaidFor n events result := by
  induction h with
  | nothing n result => exact .nothing n result
  | refused n => exact .refused n
  | last n result => exact (PaidFor.nothing n result).round
  | again delay _ ih => exact (ih.slept delay).round

/-- **Every attempt of `do_get` is paid for**, whatever the limiter decides and
whatever the requests come to. -/
theorem do_get_paid (client : OpenMeteoClient) (config : OpenMeteoClient.Config)
    (himpl : client.impl_ = some config) (services : Services σ) (full_url : Bytes) (w : σ)
    (log : List ClientEvent) :
    ∃ events, (client.do_get services.logged full_url (w, log)).2.2 = log ++ events
      ∧ (client.do_get services.logged full_url (w, log)).1
          = (client.do_get services full_url w).1
      ∧ PaidFor config.retry.max_attempts.toNat events (client.do_get services full_url w).1 := by
  -- without attempts nothing is asked for
  rcases Nat.eq_zero_or_pos config.retry.max_attempts.toNat with hzero | hpos
  · rw [do_get_zero himpl services.logged full_url hzero, do_get_zero himpl services full_url hzero]
    exact ⟨[], (List.append_nil log).symm, rfl, .nothing _ _⟩
  · obtain ⟨events, hlog, hevents⟩ := bounded_retry_events services config.retry full_url
      (config.retry.max_attempts.toNat - 1) 1 w log
    rw [Nat.sub_add_cancel hpos] at hevents
    have hsame := ((logged_mirrors services).do_get client full_url (w, log)).1
    rw [← do_get_eq himpl services.logged full_url hpos] at hlog hevents
    exact ⟨events, hlog, hsame, hsame ▸ hevents.paid⟩

end OpenMeteo
