/-
A client at work.

What a client calls acts on a world of its own: the limiter, its clock, and whatever
else is kept there. `Place` is any such world, by what an acquisition, a transfer and
a sleep do to it. A `Session` adds the count of the requests and of the draws so far,
and `Outcomes` says what each of them comes to, so one record of services serves every
place. The rules at the end lift a property of the three parts to `do_get` and to the
calls of a client one after the other: what they keep, what they spend, and which
outcome they end on.
-/
import OpenMeteo.ClientResults

set_option autoImplicit false

namespace OpenMeteo

/-! ## Places and sessions -/

/-- What a run does not decide itself. -/
structure Outcomes where
  /-- The outcome of the `n`-th request. -/
  http : ℕ → Bytes → Result HttpResponse
  /-- The random numbers of the backoff. -/
  jitter : ℕ → ℚ

/-- Where a client works: how it acquires, and what the `n`-th transfer and a sleep of
so many milliseconds do there. -/
structure Place (γ : Type) where
  acquire : Proc γ Bool
  transfer : ℕ → γ → γ
  sleep_for : ℤ → γ → γ

/-- The state of a place, and how many requests and draws there have been. -/
structure Session (γ : Type) where
  place : γ
  requests : ℕ := 0
  draws : ℕ := 0

variable {γ : Type}

/-- Something that happens at the place. -/
def Session.at_place {α : Type} (x : Proc γ α) : Proc (Session γ) α := fun s =>
  ((x s.place).1, { s with place := (x s.place).2 })

/-- The services of a client at a place. -/
def Place.services (place : Place γ) (outcomes : Outcomes) : Services (Session γ) where
  acquire := Session.at_place place.acquire
  http_get := fun full_url s =>
    (some (outcomes.http s.requests full_url),
      { s with place := place.transfer s.requests s.place, requests := s.requests + 1 })
  sleep_for := fun delay => Session.at_place (Proc.modifies (place.sleep_for delay))
  jitter := fun s => (some (outcomes.jitter s.draws), { s with draws := s.draws + 1 })

/-- Endpoint calls, one after the other. -/
def run_calls {σ : Type} (client : OpenMeteoClient) (services : Services σ) (glaze : Glaze) :
    List Request → Proc σ Unit
  | [] => pure ()
  | r :: rest => do
    let _ ← r.get client services glaze
    run_calls client services glaze rest

/-! ## What a session keeps -/

section Keeps

variable {place : Place γ} {I G : γ → Prop}

/-- An attempt keeps what an acquisition keeps and, behind a grant, a transfer. -/
theorem attempt_keeps
    (hacquire : ∀ p, I p → place.acquire.Ensures p fun r p' => I p' ∧ (r = some true → G p'))
    (htransfer : ∀ n p, I p → G p → I (place.transfer n p)) (outcomes : Outcomes)
    (full_url : Bytes) :
    Proc.Keeps (fun s : Session γ => I s.place)
      ((place.services outcomes).attempt full_url) := by
  intro s hs
  refine Proc.Ensures.bind (P := fun r (s' : Session γ) => I s'.place ∧ (r = some true → G s'.place))
    (Q := fun _ (s' : Session γ) => I s'.place) (hacquire s.place hs) ?_ ?_
  · intro granted s' hs'
    cases granted with
    -- refused: no request
    | false => exact hs'.1
    -- granted: one, directly behind the grant
    | true => exact htransfer _ _ hs'.1 (hs'.2 rfl)
  · exact fun s' hs' => hs'.1

theorem do_get_keeps
    (hacquire : ∀ p, I p → place.acquire.Ensures p fun r p' => I p' ∧ (r = some true → G p'))
    (htransfer : ∀ n p, I p → G p → I (place.transfer n p))
    (hsleep : ∀ d p, I p → I (place.sleep_for d p)) (outcomes : Outcomes)
    (client : OpenMeteoClient) (full_url : Bytes) :
    Proc.Keeps (fun s : Session γ => I s.place)
      (client.do_get (place.services outcomes) full_url) := by
  cases himpl : client.impl_ with
  | none =>
    rw [OpenMeteoClient.do_get, himpl]
    exact fun _ h => h
  | some config =>
    rcases Nat.eq_zero_or_pos config.retry.max_attempts.toNat with hzero | hpos
    · rw [do_get_zero himpl _ full_url hzero]
      exact fun _ h => h
    · rw [do_get_eq himpl _ full_url hpos]
      exact bounded_retry_keeps config.retry (attempt_keeps hacquire htransfer outcomes full_url)
        (fun d s hs => hsleep d s.place hs) (fun _ hs => hs) _ 1

/-- **A run of endpoint calls keeps an invariant of the place**, by induction on the
calls. -/
theorem run_calls_keeps
    (hacquire : ∀ p, I p → place.acquire.Ensures p fun r p' => I p' ∧ (r = some true → G p'))
    (htransfer : ∀ n p, I p → G p → I (place.transfer n p))
    (hsleep : ∀ d p, I p → I (place.sleep_for d p)) (outcomes : Outcomes)
    (client : OpenMeteoClient) (glaze : Glaze) (calls : List Request) :
    Proc.Keeps (fun s : Session γ => I s.place)
      (run_calls client (place.services outcomes) glaze calls) := by
  induction calls with
  | nil => exact fun _ h => h
  | cons r rest ih =>
    refine Proc.Keeps.bind (fun s hs => ?_) fun _ => ih
    rw [get_run]
    exact do_get_keeps hacquire htransfer hsleep outcomes client _ s hs

end Keeps

/-! ## What a session spends -/

section Spends

variable {place : Place γ} {I : γ → Prop} {m : γ → ℤ} {a t d : ℤ}

theorem at_place_spends {α : Type} {x : Proc γ α} (hx : Proc.Spends I m a x) :
    Proc.Spends (fun s : Session γ => I s.place) (fun s => m s.place) a (Session.at_place x) := by
  intro s hs
  obtain ⟨r, p', hrun, hp', hcost⟩ := hx s.place hs
  refine ⟨r, { s with place := p' }, ?_, hp', hcost⟩
  simp only [Session.at_place, hrun]

/-- An attempt: an acquisition, and a transfer. -/
theorem attempt_spends (hacquire : Proc.Spends I m a place.acquire)
    (htransfer : ∀ n p, I p → I (place.transfer n p) ∧ m (place.transfer n p) ≤ m p + t)
    (ht : 0 ≤ t) (outcomes : Outcomes) (full_url : Bytes) :
    Proc.Spends (fun s : Session γ => I s.place) (fun s => m s.place) (a + t)
      ((place.services outcomes).attempt full_url) := by
  refine (at_place_spends hacquire).bind fun granted => ?_
  cases granted with
  | false => exact (Proc.Spends.pure _).mono ht
  | true =>
    intro s hs
    obtain ⟨hp, hcost⟩ := htransfer s.requests s.place hs
    exact ⟨_, _, rfl, hp, hcost⟩

/-- A call: every attempt costs an acquisition and a transfer, and all but the last a
delay of at most the cap. -/
theorem do_get_spends (config : OpenMeteoClient.Config)
    (hacquire : Proc.Spends I m a place.acquire)
    (htransfer : ∀ n p, I p → I (place.transfer n p) ∧ m (place.transfer n p) ≤ m p + t)
    (hsleep : ∀ attempt jitter p, I p →
      I (place.sleep_for (calculate_retry_delay attempt config.retry jitter) p)
        ∧ m (place.sleep_for (calculate_retry_delay attempt config.retry jitter) p) ≤ m p + d)
    (ha : 0 ≤ a) (ht : 0 ≤ t) (hd : 0 ≤ d) (outcomes : Outcomes) (full_url : Bytes) :
    Proc.Spends (fun s : Session γ => I s.place) (fun s => m s.place)
      (config.retry.max_attempts.toNat * (a + t) + (config.retry.max_attempts.toNat - 1 : ℕ) * d)
      (OpenMeteoClient.do_get ⟨some config⟩ (place.services outcomes) full_url) := by
  rcases Nat.eq_zero_or_pos config.retry.max_attempts.toNat with hzero | hpos
  · rw [do_get_zero rfl _ _ hzero, hzero]
    exact (Proc.Spends.pure _).mono (by norm_num)
  · let port := (place.services outcomes).retry_port full_url
    have hdelay : ∀ attempt jitter, Proc.Spends (fun s : Session γ => I s.place)
        (fun s => m s.place) d
        (port.sleep_for (calculate_retry_delay attempt config.retry jitter)) := by
      intro attempt jitter s hs
      obtain ⟨hp, hcost⟩ := hsleep attempt jitter s.place hs
      exact ⟨(), _, rfl, hp, hcost⟩
    have hjitter : Proc.Spends (fun s : Session γ => I s.place) (fun s => m s.place) 0
        port.jitter := fun s hs => ⟨_, _, rfl, hs, Int.le_of_eq (Int.add_zero _).symm⟩
    have hcall := bounded_retry_spends (attempt_spends hacquire htransfer ht outcomes full_url)
      hdelay hjitter (Int.add_nonneg ha ht) hd (config.retry.max_attempts.toNat - 1) 1
    rw [do_get_eq rfl _ _ hpos]
    refine hcall.mono (le_of_eq ?_)
    rw [Nat.cast_sub hpos]
    push_cast
    ring

/-- **Any calls, one after the other**, spend as much as one call, each. -/
theorem run_calls_spends {client : OpenMeteoClient} {outcomes : Outcomes}
    (hcall : ∀ full_url, Proc.Spends (fun s : Session γ => I s.place) (fun s => m s.place) d
      (client.do_get (place.services outcomes) full_url)) (glaze : Glaze) (calls : List Request) :
    Proc.Spends (fun s : Session γ => I s.place) (fun s => m s.place) (calls.length * d)
      (run_calls client (place.services outcomes) glaze calls) := by
  induction calls with
  | nil =>
    refine (Proc.Spends.pure ()).mono (le_of_eq ?_)
    rw [List.length_nil, Nat.cast_zero, zero_mul]
  | cons r rest ih =>
    have hget : Proc.Spends (fun s : Session γ => I s.place) (fun s => m s.place) d
        (r.get client (place.services outcomes) glaze) := by
      intro s hs
      obtain ⟨result, s', hrun, hp, hcost⟩ :=
        hcall (client.resolve_url r.base_url ++ r.build_query_string) s hs
      refine ⟨r.outcome glaze result, s', ?_, hp, hcost⟩
      rw [get_run, hrun]
      rfl
    refine (hget.bind fun _ => ih).mono (le_of_eq ?_)
    rw [List.length_cons]
    push_cast
    ring

end Spends

/-! ## The outcome a call ends on -/

section Until

variable {place : Place γ} {I : γ → Prop}

/-- Where every acquisition is granted, an attempt makes the next request. -/
theorem attempt_requests
    (hacquire : ∀ p, I p → ∃ p', place.acquire p = (some true, p') ∧ I p')
    (htransfer : ∀ n p, I p → I (place.transfer n p)) (outcomes : Outcomes) (full_url : Bytes)
    {s : Session γ} (hs : I s.place) :
    ∃ s', (place.services outcomes).attempt full_url s
        = (some (outcomes.http s.requests full_url), s')
      ∧ s'.requests = s.requests + 1 ∧ I s'.place := by
  obtain ⟨p', hgrant, hp'⟩ := hacquire s.place hs
  have hgranted : (place.services outcomes).acquire s = (some true, { s with place := p' }) := by
    simp only [Place.services, Session.at_place, hgrant]
  exact ⟨_, (Proc.bind_run hgranted).trans rfl, rfl, htransfer _ _ hp'⟩

/-- With fewer failures than attempts, `do_get` returns the first outcome that is not
retried. -/
theorem do_get_until {config : OpenMeteoClient.Config}
    (hacquire : ∀ p, I p → ∃ p', place.acquire p = (some true, p') ∧ I p')
    (htransfer : ∀ n p, I p → I (place.transfer n p))
    (hsleep : ∀ d p, I p → I (place.sleep_for d p)) (outcomes : Outcomes) (full_url : Bytes)
    {s : Session γ} (hs : I s.place) {k : ℕ} (hk : k < config.retry.max_attempts.toNat)
    (hretried : ∀ i < k, retryable config.retry (outcomes.http (s.requests + i) full_url) = true)
    (hlast : retryable config.retry (outcomes.http (s.requests + k) full_url) = false) :
    ∃ s', OpenMeteoClient.do_get ⟨some config⟩ (place.services outcomes) full_url s
        = (some (outcomes.http (s.requests + k) full_url), s')
      ∧ s'.requests = s.requests + k + 1 := by
  let port := (place.services outcomes).retry_port full_url
  have hoperation : ∀ s : Session γ, I s.place → ∃ s',
      port.operation s = (some (outcomes.http s.requests full_url), s')
        ∧ s'.requests = s.requests + 1 ∧ I s'.place :=
    fun s hs => attempt_requests hacquire htransfer outcomes full_url hs
  have hdelay : ∀ (delay : ℤ) (s : Session γ), I s.place → ∃ s',
      port.sleep_for delay s = (some (), s') ∧ s'.requests = s.requests ∧ I s'.place :=
    fun delay s hs => ⟨_, rfl, rfl, hsleep delay s.place hs⟩
  have hjitter : ∀ s : Session γ, I s.place → ∃ draw s',
      port.jitter s = (some draw, s') ∧ s'.requests = s.requests ∧ I s'.place :=
    fun s hs => ⟨_, _, rfl, rfl, hs⟩
  rw [do_get_eq rfl _ _ (Nat.zero_lt_of_lt hk)]
  exact bounded_retry_until (I := fun s : Session γ => I s.place)
    (o := fun n => outcomes.http n full_url) hoperation hdelay hjitter k _ 1 s hs
    (Nat.le_sub_one_of_lt hk) hretried hlast

end Until

end OpenMeteo
