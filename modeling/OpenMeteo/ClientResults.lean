/-
How the twelve endpoints classify what a request came to.

`get_run` says that a `get_*` method is `do_get` followed by a function of its
outcome alone, `Request.outcome`; what remains is where an outcome of `do_get`
comes from, and what `outcome` makes of it. With attempts allowed an outcome is
one of the operation's, so an error in it is the limiter's refusal or the
transport's own. Two errors have another source: `with_retry` makes up one for
a policy without attempts, and a moved-from client has one of its own.
-/
import OpenMeteo.Client
import OpenMeteo.HttpBody
import OpenMeteo.RetryBounded

set_option autoImplicit false

namespace OpenMeteo

open StringView

variable {σ : Type}

/-! ## Where an outcome comes from -/

/-- `do_get` of a client with attempts is bounded retry of its lambda. -/
theorem do_get_eq {client : OpenMeteoClient} {config : OpenMeteoClient.Config}
    (himpl : client.impl_ = some config) (services : Services σ) (full_url : Bytes)
    (hmax : 0 < config.retry.max_attempts.toNat) :
    client.do_get services full_url
      = bounded_retry (services.retry_port full_url) config.retry
          (config.retry.max_attempts.toNat - 1) 1 := by
  rw [OpenMeteoClient.do_get, himpl]
  exact with_retry_eq _ _ 256 hmax config.retry.max_attempts.toNat_lt

/-- `do_get` of a client without attempts. -/
theorem do_get_zero {client : OpenMeteoClient} {config : OpenMeteoClient.Config}
    (himpl : client.impl_ = some config) (services : Services σ) (full_url : Bytes)
    (hmax : config.retry.max_attempts.toNat = 0) :
    client.do_get services full_url = pure (.error max_retry_error) := by
  rw [OpenMeteoClient.do_get, himpl]
  exact with_retry_zero _ _ 255 hmax

/-- The error sources of a run of `do_get` from one world to another: the limiter or the
transport in its last attempt, a policy without attempts, and a moved-from client. -/
inductive OwnError (client : OpenMeteoClient) (services : Services σ) (full_url : Bytes)
    (w w' : σ) : Error → Prop
  | limiter {config : OpenMeteoClient.Config} {n : ℕ} {w₁ : σ} : client.impl_ = some config →
      (services.retry_port full_url).Begins config.retry w n w₁ →
      services.acquire w₁ = (some false, w') →
      OwnError client services full_url w w' limiter_error
  | transport {config : OpenMeteoClient.Config} {error : Error} {n : ℕ} {w₁ w₂ : σ} :
      client.impl_ = some config →
      (services.retry_port full_url).Begins config.retry w n w₁ →
      services.acquire w₁ = (some true, w₂) →
      services.http_get full_url w₂ = (some (.error error), w') →
      OwnError client services full_url w w' error
  | no_attempts {config : OpenMeteoClient.Config} : client.impl_ = some config →
      config.retry.max_attempts = 0 → w' = w →
      OwnError client services full_url w w' max_retry_error
  | moved_from : client.impl_ = none → w' = w →
      OwnError client services full_url w w' uninitialized_error

/-- An error of the lambda is the limiter's or the transport's. -/
theorem attempt_error {services : Services σ} {full_url : Bytes} {error : Error} {w₁ w' : σ}
    (h : services.attempt full_url w₁ = (some (.error error), w')) :
    (services.acquire w₁ = (some false, w') ∧ error = limiter_error)
      ∨ ∃ w₂, services.acquire w₁ = (some true, w₂)
          ∧ services.http_get full_url w₂ = (some (.error error), w') := by
  obtain ⟨granted, w₂, hacquire, hrest⟩ := Proc.bind_returned h
  cases granted with
  -- a refusal makes the limiter's error, a grant leaves it to the transport
  | false =>
    cases hrest
    exact Or.inl ⟨hacquire, rfl⟩
  | true => exact Or.inr ⟨w₂, hacquire, hrest⟩

theorem do_get_error {client : OpenMeteoClient} {services : Services σ} {full_url : Bytes}
    {error : Error} {w w' : σ}
    (h : client.do_get services full_url w = (some (.error error), w')) :
    OwnError client services full_url w w' error := by
  cases himpl : client.impl_ with
  | none =>
    rw [OpenMeteoClient.do_get, himpl] at h
    cases h
    exact .moved_from himpl rfl
  | some config =>
    rcases Nat.eq_zero_or_pos config.retry.max_attempts.toNat with hzero | hpos
    · rw [do_get_zero himpl services full_url hzero] at h
      cases h
      exact .no_attempts himpl (UInt8.toNat_inj.mp hzero) rfl
    · rw [do_get_eq himpl services full_url hpos] at h
      obtain ⟨n, -, w₁, hbegins, hop⟩ := bounded_retry_outcome _ .first h
      rcases attempt_error hop with ⟨hrefused, rfl⟩ | ⟨w₂, hgranted, hfailed⟩
      · exact .limiter himpl hbegins hrefused
      · exact .transport himpl hbegins hgranted hfailed

theorem do_get_returns (client : OpenMeteoClient) {services : Services σ} (full_url : Bytes)
    (hacquire : services.acquire.Returns) (hhttp : (services.http_get full_url).Returns)
    (hsleep : ∀ d, (services.sleep_for d).Returns) (hjitter : services.jitter.Returns) :
    (client.do_get services full_url).Returns := by
  cases himpl : client.impl_ with
  | none =>
    rw [OpenMeteoClient.do_get, himpl]
    exact Proc.Returns.pure _
  | some config =>
    rcases Nat.eq_zero_or_pos config.retry.max_attempts.toNat with hzero | hpos
    · rw [do_get_zero himpl services full_url hzero]
      exact Proc.Returns.pure _
    · rw [do_get_eq himpl services full_url hpos]
      refine bounded_retry_returns _ (hacquire.bind fun granted => ?_) hsleep hjitter _ _
      cases granted
      · exact Proc.Returns.pure _
      · exact hhttp

/-! ### Services with something added -/

/-- Services that do what others do, in a world with something added to it. -/
structure Services.Mirrors {τ : Type} (services' : Services (σ × τ)) (services : Services σ) :
    Prop where
  acquire : Proc.Mirrors services'.acquire services.acquire
  http_get : ∀ full_url, Proc.Mirrors (services'.http_get full_url) (services.http_get full_url)
  sleep_for : ∀ delay, Proc.Mirrors (services'.sleep_for delay) (services.sleep_for delay)
  jitter : Proc.Mirrors services'.jitter services.jitter

theorem Services.Mirrors.attempt {τ : Type} {services' : Services (σ × τ)}
    {services : Services σ} (h : services'.Mirrors services) (full_url : Bytes) :
    Proc.Mirrors (services'.attempt full_url) (services.attempt full_url) := by
  refine h.acquire.bind fun granted => ?_
  -- a refusal returns at once, a grant makes the request
  split
  · exact Proc.Mirrors.pure _
  · exact h.http_get full_url

/-- `do_get` does the same with services that do the same. -/
theorem Services.Mirrors.do_get {τ : Type} {services' : Services (σ × τ)}
    {services : Services σ} (h : services'.Mirrors services) (client : OpenMeteoClient)
    (full_url : Bytes) :
    Proc.Mirrors (client.do_get services' full_url) (client.do_get services full_url) := by
  unfold OpenMeteoClient.do_get
  split
  · exact Proc.Mirrors.pure _
  · exact with_retry_mirrors ⟨h.attempt full_url, h.sleep_for, h.jitter⟩ _ _

/-! ## What is made of an outcome -/

/-- What a deserializer hands out. -/
def accepted {α : Type} (d : Deserialized α) : Result α :=
  match d with
  | (.error error, _) => .error error
  | (.ok (), value) => .ok value

/-- What the endpoint's deserializer makes of a body. -/
def Request.deserialize (glaze : Glaze) : (r : Request) → Bytes → Result r.Response
  | .seasonal _, body => accepted (deserialize_seasonal_response glaze body {})
  | .elevation _, body => accepted (deserialize_elevation_response glaze body {})
  | .geocoding _, body => accepted (deserialize_geocoding_response glaze body {})
  | .forecast _, body | .historical _, body | .historical_forecast _, body
  | .previous_runs _, body | .ensemble _, body | .marine _, body | .air_quality _, body
  | .climate _, body | .flood _, body => accepted (deserialize_weather_response glaze body {})

/-- What an endpoint makes of an outcome of `do_get`. -/
def Request.outcome (glaze : Glaze) (r : Request) (http_result : Result HttpResponse) :
    Result r.Response :=
  match OpenMeteoClient.body_or_error glaze http_result with
  | .error error => .error error
  | .ok body => r.deserialize glaze body

theorem get_endpoint_run {α : Type} (client : OpenMeteoClient) (services : Services σ)
    (glaze : Glaze) (base_url query : Bytes) (deserialize : Bytes → α → Deserialized α)
    (response : α) (w : σ) :
    client.get_endpoint services glaze base_url query deserialize response w
      = (((client.do_get services (client.resolve_url base_url ++ query)) w).1.map fun outcome =>
          match OpenMeteoClient.body_or_error glaze outcome with
          | .error error => .error error
          | .ok body => accepted (deserialize body response),
        ((client.do_get services (client.resolve_url base_url ++ query)) w).2) := by
  unfold OpenMeteoClient.get_endpoint
  rcases hrun : client.do_get services (client.resolve_url base_url ++ query) w with ⟨_ | result, w'⟩
  · rw [Proc.bind_running hrun]
    rfl
  · rw [Proc.bind_run hrun, Option.map_some]
    cases OpenMeteoClient.body_or_error glaze result with
    | error error => rfl
    | ok body =>
      -- what a deserializer leaves in `out` is looked at only on success
      rcases hread : deserialize body response with ⟨_ | ⟨⟩, value⟩
      · simp only [hread, accepted]
        rfl
      · simp only [hread, accepted]
        rfl

/-- **An endpoint is `do_get` and a function of its outcome.** -/
theorem get_run (client : OpenMeteoClient) (services : Services σ) (glaze : Glaze) (r : Request)
    (w : σ) :
    let run := client.do_get services (client.resolve_url r.base_url ++ r.build_query_string) w
    r.get client services glaze w = (run.1.map (r.outcome glaze), run.2) := by
  cases r with
  | _ p => exact get_endpoint_run client services glaze _ _ _ _ w

/-! ## Error codes -/

/-- The error of a generic-tree deserializer is a `ParseError`. -/
theorem fill_error {α : Type} {glaze : Glaze} {body : Bytes} {fill : Generic → α} {out : α}
    {error : Error} (h : accepted (deserialize_object glaze fill body out) = .error error) :
    error.code = .ParseError := by
  unfold deserialize_object at h
  cases hread : glaze.read_generic body with
  | error message =>
    rw [hread] at h
    cases h
    rfl
  | ok root =>
    rw [hread] at h
    by_cases hroot : root.is_object = true
    · simp only [hroot, not_true_eq_false, if_false, accepted] at h
      cases h
    · simp only [hroot, accepted] at h
      cases h
      rfl

/-- A body that a deserializer refuses is a `ParseError`. -/
theorem deserialize_error {glaze : Glaze} {r : Request} {body : Bytes} {error : Error}
    (h : r.deserialize glaze body = .error error) : error.code = .ParseError := by
  cases r with
  | elevation p =>
    simp only [Request.deserialize, deserialize_elevation_response] at h
    split at h
    · cases h
      rfl
    · cases h
  | geocoding p =>
    simp only [Request.deserialize, deserialize_geocoding_response] at h
    split at h
    · cases h
      rfl
    · cases h
  | seasonal p => exact @fill_error _ glaze body _ ({} : SeasonalResponse) error h
  | _ p => exact @fill_error _ glaze body _ ({} : WeatherResponse) error h

/-- No error of what happens before sending has the code `Ok`. -/
theorem request_error_code {config : HttpClientConfig} {curl : Curl} {path : Bytes}
    {error : Error} (h : config.request curl path = .error error) : error.code ≠ .Ok := by
  unfold HttpClientConfig.request at h
  split at h
  · next keyed_error hkeyed =>
    cases h
    unfold HttpClientConfig.keyed_url at hkeyed
    dsimp only at hkeyed
    split at hkeyed
    · cases hkeyed
    · split at hkeyed
      · cases hkeyed
        decide
      · cases hkeyed
  · split at h
    · cases h
      decide
    · split at h
      · cases h
        decide
      · split at h
        · cases h
        · cases h
          decide

theorem finish_error_code {curl : Curl} {transfer : Transfer} {sink : ResponseSink}
    {error : Error} (h : finish curl transfer sink = .error error) : error.code ≠ .Ok := by
  unfold finish at h
  split at h
  · cases h
    decide
  · split at h
    · cases h
      exact ErrorCode.noConfusion
    · split at h
      · cases h
        exact ErrorCode.noConfusion
      · split at h
        · cases h
          decide
        · cases h

/-- No error of the transport has the code `Ok`. -/
theorem http_error_code {client : HttpClient} {curl : Curl} {path : Bytes} {error : Error}
    (h : client.get curl path = .error error) : error.code ≠ .Ok := by
  unfold HttpClient.get HttpClient.perform at h
  split at h
  · cases h
    decide
  · split at h
    · cases h
      decide
    · split at h
      · next herror =>
        cases h
        exact request_error_code herror
      · exact finish_error_code h

/-! ## Errors of a status -/

/-- The body is a JSON object with this string as its "reason". -/
def HasReason (glaze : Glaze) (body reason : Bytes) : Prop :=
  ∃ obj, glaze.read_generic body = .ok (.object obj)
    ∧ obj.lookup (text "reason") = some (.string reason)

/-- What an error made from a response of status `status` says. -/
structure FromStatus (glaze : Glaze) (status : ℤ) (body : Bytes) (error : Error) : Prop where
  http_status : error.http_status = status
  not_found : status = 404 → error.code = .NotFound
  invalid_request : status = 400 → error.code = .InvalidRequest
  rate_limited : status = 429 → error.code = .RateLimited
  server_error : 500 ≤ status → status < 600 → error.code = .ServerError
  unknown : status ≠ 404 → status ≠ 400 → status ≠ 429 → ¬ (500 ≤ status ∧ status < 600) →
    error.code = .Unknown
  message_ne : error.message ≠ []
  reason : ∀ reason, reason ≠ [] → HasReason glaze body reason →
    error.detail = reason ∧ error.message = reason
  detail : error.detail ≠ [] → HasReason glaze body error.detail

theorem http_text_ne (status : ℤ) : text "HTTP " ++ Decimal.intText status ≠ [] := by
  intro h
  exact absurd (List.append_eq_nil_iff.mp h).1 (by decide)

/-- `from_response` before the last `if`: the message found in the body, and the detail. -/
theorem from_response_eq (glaze : Glaze) (status : ℤ) (body : Bytes) :
    ∃ message detail, Error.from_response glaze status body
        = ⟨code_of_status status,
            if message.isEmpty then text "HTTP " ++ Decimal.intText status else message,
            status, detail⟩
      ∧ ((HasReason glaze body message ∧ detail = message)
        ∨ (detail = [] ∧ ∀ reason, ¬ HasReason glaze body reason)) := by
  -- the last `if` sees only the message, and keeps the rest of the record
  have hlast : ∀ err : Error, err.http_status = status → err.code = code_of_status status →
      (if err.message.isEmpty then
        { err with message := text "HTTP " ++ Decimal.intText status } else err)
        = ⟨code_of_status status,
            if err.message.isEmpty then text "HTTP " ++ Decimal.intText status else err.message,
            status, err.detail⟩ := by
    rintro ⟨code, message, http_status, detail⟩ hstatus hcode
    dsimp only at hstatus hcode ⊢
    rw [hstatus, hcode]
    split
    · rfl
    · rfl
  refine ⟨_, _, hlast _ ?_ ?_, ?_⟩
  -- no branch touches the status or the code
  · split
    · split
      · rfl
      · rfl
    · rfl
  · split
    · split
      · rfl
      · rfl
    · rfl
  -- where the message comes from: the reason of an object, or anything else
  · split
    · next obj hread =>
      split
      · next reason hlookup => exact Or.inl ⟨⟨obj, hread, hlookup⟩, rfl⟩
      · next hlookup =>
        refine Or.inr ⟨rfl, ?_⟩
        rintro reason ⟨obj', hread', hlookup'⟩
        rw [hread] at hread'
        cases hread'
        exact hlookup reason hlookup'
    · next hread =>
      refine Or.inr ⟨rfl, ?_⟩
      rintro reason ⟨obj, hread', -⟩
      exact hread obj hread'

theorem from_response_spec (glaze : Glaze) (status : ℤ) (body : Bytes) :
    FromStatus glaze status body (Error.from_response glaze status body) := by
  obtain ⟨message, detail, heq, hreason⟩ := from_response_eq glaze status body
  rw [heq]
  refine ⟨rfl, ?_, ?_, ?_, ?_, ?_, ?_, ?_, ?_⟩
  · intro h
    rw [h]
    rfl
  · intro h
    rw [h]
    rfl
  · intro h
    rw [h]
    rfl
  · intro hlo hhi
    simp only [code_of_status]
    rw [if_neg (by omega), if_neg (by omega), if_neg (by omega), if_pos ⟨hlo, hhi⟩]
  · intro h404 h400 h429 h5xx
    simp only [code_of_status]
    rw [if_neg h404, if_neg h400, if_neg h429, if_neg h5xx]
  · dsimp only
    split
    · exact http_text_ne status
    · next hne => simpa using hne
  · intro reason hne hhas
    rcases hreason with ⟨⟨obj, hread, hlookup⟩, rfl⟩ | ⟨-, hno⟩
    · obtain ⟨obj', hread', hlookup'⟩ := hhas
      rw [hread] at hread'
      cases hread'
      rw [hlookup] at hlookup'
      cases hlookup'
      exact ⟨rfl, if_neg (by simpa using hne)⟩
    · exact absurd hhas (hno reason)
  · intro hne
    rcases hreason with ⟨hhas, rfl⟩ | ⟨hnil, -⟩
    · exact hhas
    · exact absurd hnil hne

theorem code_of_status_ne_ok (status : ℤ) : code_of_status status ≠ .Ok := by
  unfold code_of_status
  split_ifs
  · exact ErrorCode.noConfusion
  · exact ErrorCode.noConfusion
  · exact ErrorCode.noConfusion
  · exact ErrorCode.noConfusion
  · exact ErrorCode.noConfusion

/-! ## The endpoints -/

/-- The client's transport. -/
def OpenMeteoClient.http (client : OpenMeteoClient) : HttpClient := ⟨client.impl_.map (·.http)⟩

/-- The services of a client whose requests go through its own transport; what
libcurl does in the next request is read from the world. -/
def OpenMeteoClient.services (client : OpenMeteoClient) (acquire : Proc σ Bool)
    (curl : Proc σ Curl) (sleep_for : ℤ → Proc σ Unit) (jitter : Proc σ ℚ) : Services σ where
  acquire := acquire
  http_get := fun full_url => do
    let curl ← curl
    pure (client.http.get curl full_url)
  sleep_for := sleep_for
  jitter := jitter

theorem own_error_code {client : OpenMeteoClient} {acquire : Proc σ Bool} {curl : Proc σ Curl}
    {sleep_for : ℤ → Proc σ Unit} {jitter : Proc σ ℚ} {full_url : Bytes} {w w' : σ}
    {error : Error}
    (h : OwnError client (client.services acquire curl sleep_for jitter) full_url w w' error) :
    error.code ≠ .Ok := by
  cases h with
  | limiter _ _ _ => exact ErrorCode.noConfusion
  | transport _ _ _ hfailed =>
    obtain ⟨c, w₃, -, hget⟩ := Proc.bind_returned hfailed
    rw [Proc.pure_run, Prod.mk.injEq, Option.some.injEq] at hget
    exact http_error_code hget.1
  | no_attempts _ _ _ => exact ErrorCode.noConfusion
  | moved_from _ _ => exact ErrorCode.noConfusion

/-- What `outcome` makes of each kind of outcome. -/
theorem outcome_error {glaze : Glaze} {r : Request} {error own : Error}
    (h : r.outcome glaze (.error own) = .error error) : own = error := by
  cases h
  rfl

theorem outcome_response (glaze : Glaze) (r : Request) (response : HttpResponse) :
    r.outcome glaze (.ok response)
      = if response.status_code ≠ 200 then
          .error (Error.from_response glaze response.status_code.toInt response.body)
        else r.deserialize glaze response.body := by
  unfold Request.outcome OpenMeteoClient.body_or_error
  by_cases hstatus : response.status_code ≠ 200
  · simp only [if_pos hstatus]
  · simp only [if_neg hstatus]

/-- **Endpoint results are classified end to end.** A method returns when what it
calls returns. It returns a value exactly when the outcome it ends on is a
response of status 200 whose body the deserializer accepts; every other result
is an error whose code is not `Ok`: the limiter's or the transport's own, made in
the last attempt of this very run (or that of a policy without attempts, or of a
moved-from client), a `ParseError`, or what the status and the body say. -/
theorem endpoint_results (glaze : Glaze) (client : OpenMeteoClient) (acquire : Proc σ Bool)
    (curl : Proc σ Curl) (sleep_for : ℤ → Proc σ Unit) (jitter : Proc σ ℚ) (r : Request) (w : σ) :
    let services := client.services acquire curl sleep_for jitter
    let full_url := client.resolve_url r.base_url ++ r.build_query_string
    (acquire.Returns → curl.Returns → (∀ d, (sleep_for d).Returns) → jitter.Returns →
      ∃ result, (r.get client services glaze w).1 = some result)
    ∧ ∀ result, (r.get client services glaze w).1 = some result →
      ∃ http_result, (client.do_get services full_url w).1 = some http_result
        ∧ (∀ value, result = .ok value ↔ ∃ response, http_result = .ok response
            ∧ response.status_code = 200 ∧ r.deserialize glaze response.body = .ok value)
        ∧ ∀ error, result = .error error → error.code ≠ .Ok
          ∧ ((http_result = .error error
              ∧ OwnError client services full_url w (r.get client services glaze w).2 error)
            ∨ ∃ response, http_result = .ok response
              ∧ ((response.status_code = 200 ∧ error.code = .ParseError
                  ∧ r.deserialize glaze response.body = .error error)
                ∨ (response.status_code ≠ 200
                  ∧ FromStatus glaze response.status_code.toInt response.body error))) := by
  intro services full_url
  have hrun : r.get client services glaze w
      = ((client.do_get services full_url w).1.map (r.outcome glaze),
          (client.do_get services full_url w).2) := get_run client services glaze r w
  refine ⟨fun hacquire hcurl hsleep hjitter => ?_, fun result hresult => ?_⟩
  · have hreturns : (client.do_get services full_url).Returns := do_get_returns client full_url
      hacquire (hcurl.bind fun c => Proc.Returns.pure _) hsleep hjitter
    obtain ⟨http_result, w', hdo⟩ := hreturns w
    rw [hrun, hdo]
    exact ⟨_, rfl⟩
  · rw [hrun] at hresult
    obtain ⟨http_result, hdo, rfl⟩ := Option.map_eq_some_iff.mp hresult
    refine ⟨http_result, hdo, ?_⟩
    -- an outcome of `do_get` is an error, a 200, or another status
    cases http_result with
    | error own =>
      refine ⟨fun value => ⟨fun h => (by cases h), ?_⟩, fun error herror => ?_⟩
      · rintro ⟨response, h, -⟩
        cases h
      · obtain rfl := outcome_error herror
        have hown : OwnError client services full_url w (r.get client services glaze w).2 own := by
          rw [hrun]
          exact do_get_error (Prod.ext hdo rfl)
        exact ⟨own_error_code hown, Or.inl ⟨rfl, hown⟩⟩
    | ok response =>
      rw [outcome_response]
      by_cases hstatus : response.status_code = 200
      · rw [if_neg (not_not.mpr hstatus)]
        refine ⟨fun value => ⟨fun h => ⟨response, rfl, hstatus, h⟩, ?_⟩, fun error herror => ?_⟩
        · rintro ⟨response', h, -, hvalue⟩
          cases h
          exact hvalue
        · have hcode := deserialize_error herror
          refine ⟨by rw [hcode]; exact ErrorCode.noConfusion, Or.inr ⟨response, rfl, Or.inl ?_⟩⟩
          exact ⟨hstatus, hcode, herror⟩
      · rw [if_pos hstatus]
        refine ⟨fun value => ⟨fun h => (by cases h), ?_⟩, fun error herror => ?_⟩
        · rintro ⟨response', h, hok, -⟩
          cases h
          exact absurd hok hstatus
        · cases herror
          have hspec := from_response_spec glaze response.status_code.toInt response.body
          refine ⟨?_, Or.inr ⟨response, rfl, Or.inr ⟨hstatus, hspec⟩⟩⟩
          obtain ⟨message, detail, heq, -⟩ :=
            from_response_eq glaze response.status_code.toInt response.body
          rw [heq]
          exact code_of_status_ne_ok _

/-- With no attempts allowed the error is neither the limiter's nor the transport's. -/
theorem endpoint_without_attempts :
    ¬ ∀ (glaze : Glaze) (client : OpenMeteoClient) (acquire : Proc Unit Bool)
        (curl : Proc Unit Curl) (sleep_for : ℤ → Proc Unit Unit) (jitter : Proc Unit ℚ)
        (r : Request) (http_result : Result HttpResponse) (error : Error),
      let services := client.services acquire curl sleep_for jitter
      let full_url := client.resolve_url r.base_url ++ r.build_query_string
      (client.do_get services full_url ()).1 = some http_result →
      (r.get client services glaze ()).1 = some (.error error) →
      (http_result = .error error
        ∧ ((∃ w₁ w₂, services.acquire w₁ = (some false, w₂))
          ∨ ∃ w₁ w₂, services.http_get full_url w₁ = (some (.error error), w₂)))
      ∨ ∃ response, http_result = .ok response := by
  intro h
  let config : OpenMeteoClient.Config := { retry := { max_attempts := 0 } }
  let curl : Proc Unit Curl := pure (Curl.recorded [])
  have hresult := h ⟨fun _ => .error [], fun _ => .error [], fun _ => .error []⟩ ⟨some config⟩
    (pure true) curl (fun _ => pure ()) (pure 1) (.elevation {}) (.error max_retry_error)
    max_retry_error rfl rfl
  rcases hresult with ⟨-, ⟨w₁, w₂, hrefused⟩ | ⟨w₁, w₂, hfailed⟩⟩ | ⟨response, hresponse⟩
  · cases hrefused
  · cases hfailed
  · cases hresponse

end OpenMeteo
