/-
An answer gets through.

A call of a method is a remote procedure call: the server reads the URL, looks up what
it says, and answers with bytes. `Serves` is such a server, a function of the endpoint
and the pairs. `Transient` is what may go wrong on the way without harm: the retry policy
takes it up again. So as long as the failures are fewer than the attempts, the method
returns what the server's function says, in whatever chunks it came.
-/
import OpenMeteo.ClientLatency
import OpenMeteo.ClientWire
import OpenMeteo.ResponseTree

set_option autoImplicit false

namespace OpenMeteo

open RateLimiter

/-! ## Transfers -/

/-- The bytes a transfer hands over as the body. -/
def Transfer.body (transfer : Transfer) : Bytes := transfer.callbacks.flatMap Callback.body

/-- A libcurl that does its part. -/
structure Curl.Reliable (curl : Curl) : Prop where
  escapes : curl.Escapes
  works : curl.Works
  aborts : curl.AbortsOnShortReturn

/-- A configuration that `HttpClient::get` does not refuse. -/
structure OpenMeteoClient.Config.Clean (config : OpenMeteoClient.Config) : Prop where
  timeout : 0 ≤ config.http.timeout
  key : ¬ ∃ c ∈ config.http.api_key, c = 13 ∨ c = 10 ∨ c = 0
  agent : ¬ ∃ c ∈ config.http.user_agent, c = 13 ∨ c = 10 ∨ c = 0

/-- The transfer of a request, by this libcurl. -/
def OpenMeteoClient.Config.transfer (config : OpenMeteoClient.Config) (curl : Curl)
    (r : Request) : Transfer :=
  curl.easy_perform (config.http.options (config.wire_url r))

/-- What goes wrong and is tried again: a transfer that fails, of no more bytes than are
allowed, and a server that is busy or fails itself. -/
inductive Transient (policy : RetryPolicy) (limit : UInt64) (transfer : Transfer) : Prop
  | failed : policy.retry_on_network_error = true → transfer.result ≠ .CURLE_OK →
      (limit = 0 ∨ transfer.body.length ≤ limit.toNat) → Transient policy limit transfer
  | busy : policy.retry_on_rate_limit = true → transfer.result = .CURLE_OK →
      transfer.response_code = some 429 → Transient policy limit transfer
  | server_error (status : ℤ) : policy.retry_on_server_error = true →
      transfer.result = .CURLE_OK → transfer.response_code = some status → 500 ≤ status →
      status < 600 → Transient policy limit transfer

/-- A callback within the limit leaves no mark, and adds no more than its bytes. -/
theorem call_unmarked {sink : ResponseSink} (h : sink.Bounded) (hmark : sink.overflowed = false)
    {callback : Callback} (hfits : sink.limit = 0
      ∨ sink.response.body.length + callback.body.length ≤ sink.limit.toNat) :
    (callback.call sink).1.overflowed = false
      ∧ (callback.call sink).1.response.body.length
        ≤ sink.response.body.length + callback.body.length := by
  cases callback with
  | header chunk =>
    obtain ⟨hbody, -, hover⟩ := header_callback_frame sink chunk
    exact ⟨hover.trans hmark, (congrArg List.length hbody).le⟩
  | write chunk =>
    change (write_callback sink chunk).1.overflowed = false
      ∧ (write_callback sink chunk).1.response.body.length
        ≤ sink.response.body.length + chunk.data.length
    rcases write_callback_cases h chunk with ⟨-, hcall⟩ | ⟨-, hexceeds, -⟩ | ⟨-, -, hcall⟩
        | ⟨-, -, hcall⟩
    · rw [hcall]
      exact ⟨hmark, Nat.le_add_right ..⟩
    · -- such a chunk is not within the limit
      obtain ⟨hlimit, hover⟩ := hexceeds
      rcases hfits with hzero | hfits
      · rw [hzero] at hlimit
        exact absurd hlimit (by decide)
      · exact absurd hover (Nat.not_lt.mpr hfits)
    · rw [hcall]
      exact ⟨hmark, Nat.le_add_right ..⟩
    · rw [hcall]
      exact ⟨hmark, List.length_append.le⟩

/-- Callbacks that stay within the limit leave no mark, by induction on them. -/
theorem deliver_unmarked (callbacks : List Callback) :
    ∀ {sink : ResponseSink}, sink.Bounded → sink.overflowed = false →
      (sink.limit = 0 ∨ sink.response.body.length + (callbacks.flatMap Callback.body).length
        ≤ sink.limit.toNat) →
      (deliver sink callbacks).overflowed = false := by
  induction callbacks with
  | nil =>
    intro sink _ hmark _
    exact hmark
  | cons callback rest ih =>
    intro sink h hmark hfits
    rw [List.flatMap_cons, List.length_append] at hfits
    obtain ⟨hlimit, hbounded, -, -⟩ := call_spec h callback
    have hfirst : sink.limit = 0
        ∨ sink.response.body.length + callback.body.length ≤ sink.limit.toNat :=
      hfits.imp id fun hle => by omega
    obtain ⟨hmark', hlength⟩ := call_unmarked h hmark hfirst
    have hrest : sink.limit = 0 ∨ (callback.call sink).1.response.body.length
        + (rest.flatMap Callback.body).length ≤ sink.limit.toNat :=
      hfits.imp id fun hle => by omega
    rw [← hlimit] at hrest
    exact ih hbounded hmark' hrest

/-- A transfer that succeeds leaves no mark, and its bytes as the body. -/
theorem deliver_complete {curl : Curl} (hcurl : curl.AbortsOnShortReturn)
    (http : HttpClientConfig) (url : Bytes)
    (hok : (curl.easy_perform (http.options url)).result = .CURLE_OK) :
    let transfer := curl.easy_perform (http.options url)
    (deliver http.sink transfer.callbacks).overflowed = false
      ∧ (deliver http.sink transfer.callbacks).response.body = transfer.body := by
  intro transfer
  have hbounded : http.sink.Bounded := sink_bounded http.max_response_bytes
  have hbody : (deliver http.sink transfer.callbacks).response.body = transfer.body :=
    (deliver_spec transfer.callbacks hbounded).2.2.2 (hcurl http url hok)
  refine ⟨deliver_unmarked transfer.callbacks hbounded rfl ?_, hbody⟩
  refine or_iff_not_imp_left.mpr fun hlimit => ?_
  have hwithin : (deliver http.sink transfer.callbacks).response.body.length
      ≤ http.sink.limit.toNat :=
    (deliver_within transfer.callbacks (UInt64.pos_iff_ne_zero.mpr hlimit)).1
  rw [hbody] at hwithin
  exact (Nat.zero_add _).le.trans hwithin

/-! ## Attempts -/

section Attempts

variable {config : OpenMeteoClient.Config} {curl : Curl} {r : Request}

/-- The transport makes the transfer of the request. -/
theorem http_get_wire (hcurl : curl.Reliable) (hclean : config.Clean) (r : Request) :
    HttpClient.get ⟨some config.http⟩ curl (config.full_url r)
      = finish curl (config.transfer curl r)
          (deliver config.http.sink (config.transfer curl r).callbacks) := by
  have hsends := sends_wire_url hcurl.escapes hcurl.works hclean.timeout hclean.key hclean.agent r
  obtain ⟨-, -, hget⟩ := sent_spec hsends
  exact hget

/-- A transfer that succeeds with a status gives a response of this status, with its bytes
as the body. -/
theorem http_get_answered (hcurl : curl.Reliable) (hclean : config.Clean) {status : ℤ}
    (hok : (config.transfer curl r).result = .CURLE_OK)
    (hstatus : (config.transfer curl r).response_code = some status) :
    ∃ response, HttpClient.get ⟨some config.http⟩ curl (config.full_url r) = .ok response
      ∧ response.status_code = Int16.ofInt status
      ∧ response.body = (config.transfer curl r).body := by
  obtain ⟨hmark, hbody⟩ := deliver_complete hcurl.aborts config.http (config.wire_url r) hok
  have hget := http_get_wire hcurl hclean r
  have htimeout : ¬ (config.transfer curl r).result = .CURLE_OPERATION_TIMEDOUT := by
    rw [hok]
    exact CURLcode.noConfusion
  rw [finish, if_neg (by rw [OpenMeteoClient.Config.transfer, hmark]; decide), if_neg htimeout,
    if_neg (not_not.mpr hok), hstatus] at hget
  exact ⟨_, hget, rfl, hbody⟩

/-- **What is transient is tried again.** -/
theorem transient_retryable (hcurl : curl.Reliable) (hclean : config.Clean)
    (h : Transient config.retry config.http.max_response_bytes (config.transfer curl r)) :
    retryable config.retry (HttpClient.get ⟨some config.http⟩ curl (config.full_url r)) = true := by
  cases h with
  | failed hpolicy hfailed hfits =>
    -- a mark would come before the code of the transfer, and is never retried
    have hmark : (deliver config.http.sink (config.transfer curl r).callbacks).overflowed
        = false := by
      refine deliver_unmarked _ (sink_bounded config.http.max_response_bytes) rfl
        (hfits.imp id fun hle => ?_)
      exact (Nat.zero_add _).le.trans hle
    rw [http_get_wire hcurl hclean r, finish, if_neg (by rw [hmark]; decide)]
    by_cases htimeout : (config.transfer curl r).result = .CURLE_OPERATION_TIMEDOUT
    · rw [if_pos htimeout]
      exact if_pos ⟨hpolicy, Or.inr rfl⟩
    · rw [if_neg htimeout, if_pos hfailed]
      exact if_pos ⟨hpolicy, Or.inl rfl⟩
  | busy hpolicy hok hstatus =>
    obtain ⟨response, hget, hcode, -⟩ := http_get_answered hcurl hclean hok hstatus
    rw [hget]
    change should_retry_response response config.retry = true
    rw [should_retry_response, hcode, if_pos (by decide), hpolicy]
  | server_error status hpolicy hok hstatus hlow hhigh =>
    obtain ⟨response, hget, hcode, -⟩ := http_get_answered hcurl hclean hok hstatus
    have hvalue : (Int16.ofInt status).toInt = status :=
      Int16.toInt_ofInt_of_le (by omega) (by omega)
    rw [hget]
    change should_retry_response response config.retry = true
    rw [should_retry_response, hcode, hvalue, if_neg (by omega), if_pos ⟨hpolicy, hlow, hhigh⟩]

end Attempts

/-! ## Calls -/

/-- What a server is asked: an endpoint, and the pairs of a query. -/
abbrev Query := Bytes × List (Bytes × Value)

/-- What a request asks. -/
def OpenMeteoClient.Config.query (config : OpenMeteoClient.Config) (r : Request) : Query :=
  (r.host config.use_customer_endpoints, config.wire_pairs r)

/-- Behind this libcurl, a server answers what a URL says with these bytes. -/
def Curl.Serves (curl : Curl) (http : HttpClientConfig) (server : Query → Bytes) : Prop :=
  ∀ url query, decode_url url = some query →
    (curl.easy_perform (http.options url)).result = .CURLE_OK
      ∧ (curl.easy_perform (http.options url)).response_code = some 200
      ∧ (curl.easy_perform (http.options url)).body = server query

/-- The surroundings in which the client's own transport makes the `n`-th transfer with
`curls n`. -/
def Surroundings.wired (env : Surroundings) (config : OpenMeteoClient.Config)
    (curls : ℕ → Curl) : Surroundings :=
  { env with http := fun n full_url => HttpClient.get ⟨some config.http⟩ (curls n) full_url }

/-- The response of a weather endpoint, of all that a tree may say. -/
def Request.weather (response : SeasonalResponse) : (r : Request) → Option r.Response
  | .seasonal _ => some response
  | .elevation _ | .geocoding _ => none
  | .forecast _ | .historical _ | .historical_forecast _ | .previous_runs _ | .ensemble _
  | .marine _ | .air_quality _ | .climate _ | .flood _ => some response.toWeatherResponse

/-- A weather endpoint reads a tree as the response that it says. -/
theorem deserialize_weather_tree {glaze : Glaze} {body : Bytes} {response : SeasonalResponse}
    (h : response.WellFormed) (hbody : glaze.read_generic body = .ok response.tree) (r : Request)
    {told : r.Response} (htold : r.weather response = some told) :
    r.deserialize glaze body = .ok told := by
  obtain ⟨hseasonal, hweather, -⟩ := deserialize_tree h glaze body hbody
  cases r with
  | elevation _ | geocoding _ => cases htold
  | seasonal _ =>
    cases htold
    exact congrArg accepted (hseasonal {})
  | forecast _ | historical _ | historical_forecast _ | previous_runs _ | ensemble _ | marine _
  | air_quality _ | climate _ | flood _ =>
    cases htold
    exact congrArg accepted (hweather {})

/-- Without a longest wait, the limiter grants. -/
theorem acquire_grants {limit : RateLimiter.Config} {w : Alone} (h : w.Sound limit)
    (hinterval : limit.interval_ns ≤ duration_max) (hwait : limit.max_wait = none)
    (gap : ℕ → ℕ) {fuel : ℕ} (hfuel : 2 ≤ fuel) :
    ∃ w', RateLimiter.acquire (alone gap) limit fuel w = (some true, w') ∧ w'.Sound limit := by
  obtain ⟨n, rfl⟩ : ∃ n, fuel = n + 2 := ⟨fuel - 2, by omega⟩
  have hconf := h.config_eq
  subst hconf
  have hlater : w.time ≤ (w.missed gap).time := by
    simp only [Alone.missed, Alone.read, Alone.reading]
    omega
  have hpositive : 0 ≤ w.wait gap := le_max_right _ _
  unfold RateLimiter.acquire
  rw [hwait]
  rcases acquire_until_cases h.within hinterval none gap with ⟨htoken, hrun⟩
      | ⟨-, w₁, ⟨rfl, -⟩ | ⟨-, d, hd, -⟩, htoken, hrun⟩ | ⟨-, d, hd, -⟩
  · exact ⟨_, hrun (n + 1), h.granted gap htoken⟩
  · have hslept : ((w.missed gap).slept (w.wait gap)).Sound w.limiter.config_ :=
      h.later rfl (hlater.trans (le_add_of_nonneg_right hpositive))
    exact ⟨_, hrun n, hslept.granted gap htoken⟩
  · cases hd
  · cases hd

theorem place_acquire_grants {limit : RateLimiter.Config} {w : Alone} (hw : w.Sound limit)
    (hinterval : limit.interval_ns ≤ duration_max) (hwait : limit.max_wait = none)
    (env : Surroundings) {fuel : ℕ} (hfuel : 2 ≤ fuel) :
    ∃ w', (env.place fuel).acquire w = (some true, w') ∧ w'.Sound limit := by
  obtain ⟨w', hgrant, hsound⟩ := acquire_grants hw hinterval hwait env.gap hfuel
  rw [← hw.config_eq] at hgrant
  exact ⟨w', (Proc.bind_run rfl).trans hgrant, hsound⟩

/-- **An answer gets through.** A client of a clean configuration, whose limiter knows no
longest wait and has an interval that fits in nanoseconds, calls a method, in any state
of the limiter, with any waits and draws, over a libcurl that does its part. The first
`k` transfers go wrong in ways that the policy retries, for less than the attempts
allowed; the next one reaches a server, which answers what the URL says. Then the
method makes `k + 1` requests, and returns what the endpoint reads from exactly the
bytes that the server has for the endpoint and the fields of the request; from a
weather endpoint this is the response, where the bytes are a tree of one. -/
theorem answer_gets_through (config : OpenMeteoClient.Config) (hclean : config.Clean)
    (s : Session Alone) (hreach : Reachable s.place.limiter s.place.time)
    (hinterval : s.place.limiter.config_.interval_ns ≤ duration_max)
    (hwait : s.place.limiter.config_.max_wait = none) (env : Surroundings) (curls : ℕ → Curl)
    (hcurls : ∀ n, (curls n).Reliable) (server : Query → Bytes) (glaze : Glaze) (r : Request)
    (fuel : ℕ) (hfuel : 2 ≤ fuel) (k : ℕ) (hk : k < config.retry.max_attempts.toNat)
    (hfailed : ∀ i < k, Transient config.retry config.http.max_response_bytes
      (config.transfer (curls (s.requests + i)) r))
    (hserves : (curls (s.requests + k)).Serves config.http server) :
    let run := r.get ⟨some config⟩ ((env.wired config curls).services fuel) glaze s
    run.1 = some (r.deserialize glaze (server (config.query r)))
      ∧ run.2.requests = s.requests + k + 1
      ∧ ∀ (response : SeasonalResponse) (told : r.Response), response.WellFormed →
          glaze.read_generic (server (config.query r)) = .ok response.tree →
          r.weather response = some told → run.1 = some (.ok told) := by
  intro run
  -- the answer, as the transport hands it on
  obtain ⟨hok, hstatus, hbody⟩ := hserves _ _ (decode_wire_url config r)
  obtain ⟨response, hget, hcode, hresponse⟩ :=
    http_get_answered (hcurls (s.requests + k)) hclean hok hstatus
  have hlast : retryable config.retry (HttpClient.get ⟨some config.http⟩ (curls (s.requests + k))
      (config.full_url r)) = false := by
    rw [hget]
    change should_retry_response response config.retry = false
    rw [should_retry_response, hcode, if_neg (by decide), if_neg]
    rintro ⟨-, hlow, -⟩
    exact absurd hlow (by decide)
  have hsound : s.place.Sound s.place.limiter.config_ := ⟨rfl, hreach.within⟩
  obtain ⟨s', hdo_get, hcount⟩ := do_get_until
    (fun w hw => place_acquire_grants hw hinterval hwait env hfuel)
    (fun n w hw => hw.passes (Int.natCast_nonneg (env.duration n)))
    (fun d w hw => hw.passes (mul_nonneg (le_max_right d 0) (by decide : (0 : ℤ) ≤ ns_per_ms)))
    (env.wired config curls).toOutcomes (config.full_url r) hsound hk
    (fun i hi => transient_retryable (hcurls (s.requests + i)) hclean (hfailed i hi)) hlast
  have hcall : run = (some (r.deserialize glaze (server (config.query r))), s') := by
    have houtcome : r.outcome glaze (HttpClient.get ⟨some config.http⟩ (curls (s.requests + k))
        (config.full_url r)) = r.deserialize glaze (server (config.query r)) := by
      rw [hget, outcome_response, hcode, if_neg (by decide), hresponse]
      exact congrArg (r.deserialize glaze) hbody
    rw [← houtcome]
    refine (get_run ⟨some config⟩ ((env.wired config curls).services fuel) glaze r s).trans ?_
    exact congrArg (fun run => (run.1.map (r.outcome glaze), run.2)) hdo_get
  rw [hcall]
  refine ⟨rfl, hcount, fun response told hwell htree htold => ?_⟩
  rw [deserialize_weather_tree hwell htree r htold]

/-! ### Greenwich, at the second attempt -/

def greenwich : SeasonalResponse := { timezone := text "GMT" }

/-- The text of the tree, in two pieces. -/
def greenwich_texts : List Bytes :=
  [text "\x7b\"latitude\":0,\"longitude\":0,\"elevation\":0,\"generationtime_ms\":0,",
    text "\"utc_offset_seconds\":0,\"timezone\":\"GMT\",\"timezone_abbreviation\":\"\"\x7d"]

def greenwich_chunks : List Callback :=
  [.write (Chunk.of (greenwich_texts.getD 0 []) (by decide)),
    .write (Chunk.of (greenwich_texts.getD 1 []) (by decide))]

def greenwich_glaze : Glaze where
  read_generic := fun body =>
    if body = greenwich_texts.flatten then .ok greenwich.tree else .error []
  read_elevation := fun _ => .error []
  read_geocoding := fun _ => .error []

/-- The first transfer times out, the others are answered. -/
def late_curls : ℕ → Curl
  | 0 => { Curl.recorded [] with easy_perform := fun _ => ⟨[], .CURLE_OPERATION_TIMEDOUT, none⟩ }
  | _ + 1 => Curl.recorded greenwich_chunks

theorem late_curls_reliable (n : ℕ) : (late_curls n).Reliable := by
  cases n with
  | zero =>
    refine ⟨fun key escaped h => (Option.some.inj h).symm,
      ⟨rfl, fun _ => Option.some_ne_none _, rfl, fun _ => rfl⟩, fun config url h => ?_⟩
    exact absurd h CURLcode.noConfusion
  | succ n =>
    exact ⟨fun key escaped h => (Option.some.inj h).symm,
      ⟨rfl, fun _ => Option.some_ne_none _, rfl, fun _ => rfl⟩, recorded_aborts greenwich_chunks⟩

/-- A limiter without tokens, a transfer that times out, and then the answer. -/
theorem answer_gets_through_late :
    (Request.get ⟨some {}⟩ ((unreachable.wired {} late_curls).services 2) greenwich_glaze
      (.flood {}) emptied).1 = some (.ok greenwich.toWeatherResponse) := by
  have hreach : Reachable emptied.place.limiter emptied.place.time :=
    ⟨{ initial_tokens := 0 }, 0, [], [], _, rfl, by decide, by decide, rfl⟩
  have hwell : greenwich.WellFormed := by
    refine ⟨⟨by decide, by decide⟩, fun e he ts hts => ?_⟩
    simp only [SeasonalResponse.blocks, greenwich, List.mem_cons, List.not_mem_nil,
      or_false] at he
    rcases he with rfl | rfl | rfl | rfl | rfl | rfl <;> cases hts
  have hclean : OpenMeteoClient.Config.Clean {} :=
    ⟨by decide, by decide +kernel, by decide +kernel⟩
  have hread : greenwich_glaze.read_generic greenwich_texts.flatten = .ok greenwich.tree := by
    simp only [greenwich_glaze, if_true]
  exact (answer_gets_through {} hclean emptied hreach (by decide) rfl unreachable late_curls
    late_curls_reliable (fun _ => greenwich_texts.flatten) greenwich_glaze
    (.flood {}) 2 (le_refl 2) 1 (by decide)
    (fun i hi => by
      rw [Nat.lt_one_iff.mp hi]
      exact .failed rfl CURLcode.noConfusion (Or.inr (Nat.zero_le _)))
    (fun url query _ => ⟨rfl, rfl, rfl⟩)).2.2 greenwich _ hwell hread rfl

end OpenMeteo
