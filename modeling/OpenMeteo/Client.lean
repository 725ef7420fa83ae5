/-
`OpenMeteoClient` of `src/api/client.cpp`, and `Error::from_response`.

What a client calls (its limiter, its transport, `sleep_for` and the random
numbers of the backoff) is a record of programs over any world, so the same
`do_get` runs against arbitrary decisions and outcomes as well as against a
limiter with a clock. The retry loop is given 256 units of fuel, one more than
the attempts a policy can allow: `with_retry_eq` shows that they suffice.

The twelve `get_*` methods share everything but their base URL, their
parameters and their deserializer, and are `get_endpoint` applied to these.
-/
import OpenMeteo.Http
import OpenMeteo.Models
import OpenMeteo.RateLimit
import OpenMeteo.RequestFields
import OpenMeteo.Retry

set_option autoImplicit false

namespace OpenMeteo

open StringView

/-! ## Errors of responses -/

/-- The code a status determines. -/
def code_of_status (status : ℤ) : ErrorCode :=
  if status = 404 then .NotFound
  else if status = 400 then .InvalidRequest
  else if status = 429 then .RateLimited
  else if 500 ≤ status ∧ status < 600 then .ServerError
  else .Unknown

/-- What is made of a response that is not a success. -/
def Error.from_response (glaze : Glaze) (status : ℤ) (body : Bytes) : Error :=
  let err : Error := { code := code_of_status status, message := [], http_status := status }
  let err :=
    match glaze.read_generic body with
    | .ok (.object obj) =>
      -- of a JSON object only a "reason" that is a string is used
      match obj.lookup (text "reason") with
      | some (.string reason) => { err with message := reason, detail := reason }
      | _ => err
    -- the branch for "not valid JSON" is also that of JSON that is no object
    | _ => { err with message := substr body 0 256 }
  -- an empty reason and an empty body leave no message
  if err.message.isEmpty then
    { err with message := text "HTTP " ++ Decimal.intText status }
  else err

/-! ## Base URLs

One for each endpoint, as `client.hpp` has them. Forecast, marine and elevation share a
host; no two are the same. -/

namespace url

def kForecast : Bytes := text "https://api.open-meteo.com/v1/forecast"

def kHistorical : Bytes := text "https://archive-api.open-meteo.com/v1/archive"

def kHistoricalForecast : Bytes := text "https://historical-forecast-api.open-meteo.com/v1/forecast"

def kPreviousRuns : Bytes := text "https://previous-runs-api.open-meteo.com/v1/forecast"

def kEnsemble : Bytes := text "https://ensemble-api.open-meteo.com/v1/ensemble"

def kMarine : Bytes := text "https://api.open-meteo.com/v1/marine"

def kAirQuality : Bytes := text "https://air-quality-api.open-meteo.com/v1/air-quality"

def kClimate : Bytes := text "https://climate-api.open-meteo.com/v1/climate"

def kSeasonal : Bytes := text "https://seasonal-api.open-meteo.com/v1/seasonal"

def kFlood : Bytes := text "https://flood-api.open-meteo.com/v1/flood"

def kElevation : Bytes := text "https://api.open-meteo.com/v1/elevation"

def kGeocoding : Bytes := text "https://geocoding-api.open-meteo.com/v1/search"

end url

/-! ## The client -/

namespace OpenMeteoClient

/-- `OpenMeteoClient::Config`. -/
structure Config where
  http : HttpClientConfig := {}
  rate_limit : RateLimiter.Config := {}
  retry : RetryPolicy := {}
  use_customer_endpoints : Bool := false
  deriving DecidableEq, Repr

end OpenMeteoClient

/-- `class OpenMeteoClient`. A moved-from client has no `impl_`. -/
structure OpenMeteoClient where
  impl_ : Option OpenMeteoClient.Config

/-- What `do_get` calls. -/
structure Services (σ : Type) where
  /-- `rate_limiter.acquire()` -/
  acquire : Proc σ Bool
  /-- `http.get(full_url)` -/
  http_get : Bytes → Proc σ (Result HttpResponse)
  /-- `std::this_thread::sleep_for`, in milliseconds -/
  sleep_for : ℤ → Proc σ Unit
  /-- `jitter(rng)` -/
  jitter : Proc σ ℚ

/-- The refusal `do_get` makes of a limiter that waited too long. -/
def limiter_error : Error := Error.rate_limited (text "Rate-limit wait exceeded")

/-- The error of a client that was moved from. -/
def uninitialized_error : Error := Error.network (text "Client not initialized")

/-- The lambda `do_get` hands to `with_retry`. -/
def Services.attempt {σ : Type} (services : Services σ) (full_url : Bytes) :
    Proc σ (Result HttpResponse) := do
  let granted ← services.acquire
  -- its code, `RateLimited`, is one that `should_retry` does not retry
  if ¬ granted then pure (.error limiter_error)
  else services.http_get full_url

/-- What `with_retry` sees of the services: the lambda is its operation. -/
def Services.retry_port {σ : Type} (services : Services σ) (full_url : Bytes) : RetryPort σ where
  operation := services.attempt full_url
  sleep_for := services.sleep_for
  jitter := services.jitter

namespace OpenMeteoClient

variable {σ : Type}

/-- The base URL, with `customer-` in front of its host if that is configured. -/
def resolve_url (client : OpenMeteoClient) (base_url : Bytes) : Bytes :=
  match client.impl_ with
  | some config =>
    if config.use_customer_endpoints then
      let https_prefix := text "https://"
      if starts_with base_url https_prefix then
        StringView.insert base_url https_prefix.length (text "customer-")
      else base_url
    else base_url
  | none => base_url

/-- One call: the lambda, retried under the client's policy. -/
def do_get (client : OpenMeteoClient) (services : Services σ) (full_url : Bytes) :
    Proc σ (Result HttpResponse) :=
  match client.impl_ with
  | none => pure (.error uninitialized_error)
  | some config => with_retry (services.retry_port full_url) config.retry 256

/-- The body of a success. Only 200 is one: any other status, also of the 2xx, makes an
error of its own. -/
def body_or_error (glaze : Glaze) (http_result : Result HttpResponse) : Result Bytes :=
  match http_result with
  | .error error => .error error
  | .ok response =>
    if response.status_code ≠ 200 then
      .error (Error.from_response glaze response.status_code.toInt response.body)
    else .ok response.body

/-- The body every `get_*` method shares. -/
def get_endpoint {α : Type} (client : OpenMeteoClient) (services : Services σ) (glaze : Glaze)
    (base_url query : Bytes) (deserialize : Bytes → α → Deserialized α) (response : α) :
    Proc σ (Result α) := do
  let full_url := client.resolve_url base_url ++ query
  let http_result ← client.do_get services full_url
  match body_or_error glaze http_result with
  | .error error => pure (.error error)
  | .ok body =>
    -- the response the deserializer is given is a new one, so nothing of it survives
    match deserialize body response with
    | (.error error, _) => pure (.error error)
    | (.ok (), response) => pure (.ok response)

/-! ### The twelve methods

Nine of them read a weather response; the seasonal forecast, elevations and places have
responses of their own. -/

section Endpoints

variable (client : OpenMeteoClient) (services : Services σ) (glaze : Glaze)

/-- `get_forecast`, and likewise below: base URL, parameters, deserializer. -/
def get_forecast (params : ForecastParams) : Proc σ (Result WeatherResponse) :=
  client.get_endpoint services glaze url.kForecast
    params.build_query_string (deserialize_weather_response glaze) {}

def get_historical (params : HistoricalParams) : Proc σ (Result WeatherResponse) :=
  client.get_endpoint services glaze url.kHistorical
    params.build_query_string (deserialize_weather_response glaze) {}

def get_historical_forecast (params : HistoricalForecastParams) :
    Proc σ (Result WeatherResponse) :=
  client.get_endpoint services glaze url.kHistoricalForecast
    params.build_query_string (deserialize_weather_response glaze) {}

def get_previous_runs (params : PreviousRunsParams) : Proc σ (Result WeatherResponse) :=
  client.get_endpoint services glaze url.kPreviousRuns
    params.build_query_string (deserialize_weather_response glaze) {}

def get_ensemble (params : EnsembleParams) : Proc σ (Result WeatherResponse) :=
  client.get_endpoint services glaze url.kEnsemble
    params.build_query_string (deserialize_weather_response glaze) {}

def get_marine (params : MarineParams) : Proc σ (Result WeatherResponse) :=
  client.get_endpoint services glaze url.kMarine
    params.build_query_string (deserialize_weather_response glaze) {}

def get_air_quality (params : AirQualityParams) : Proc σ (Result WeatherResponse) :=
  client.get_endpoint services glaze url.kAirQuality
    params.build_query_string (deserialize_weather_response glaze) {}

def get_climate (params : ClimateParams) : Proc σ (Result WeatherResponse) :=
  client.get_endpoint services glaze url.kClimate
    params.build_query_string (deserialize_weather_response glaze) {}

def get_seasonal (params : SeasonalParams) : Proc σ (Result SeasonalResponse) :=
  client.get_endpoint services glaze url.kSeasonal
    params.build_query_string (deserialize_seasonal_response glaze) {}

def get_flood (params : FloodParams) : Proc σ (Result WeatherResponse) :=
  client.get_endpoint services glaze url.kFlood
    params.build_query_string (deserialize_weather_response glaze) {}

def get_elevation (params : ElevationParams) : Proc σ (Result ElevationResponse) :=
  client.get_endpoint services glaze url.kElevation
    params.build_query_string (deserialize_elevation_response glaze) {}

def get_geocoding (params : GeocodingParams) : Proc σ (Result GeocodingResponse) :=
  client.get_endpoint services glaze url.kGeocoding
    params.build_query_string (deserialize_geocoding_response glaze) {}

end Endpoints

end OpenMeteoClient

/-! ## Any request -/

namespace Request

/-- What the endpoint of a request returns. -/
def Response : Request → Type
  | .seasonal _ => SeasonalResponse
  | .elevation _ => ElevationResponse
  | .geocoding _ => GeocodingResponse
  | _ => WeatherResponse

/-- The base URL of the endpoint of a request. -/
def base_url : Request → Bytes
  | .forecast _ => url.kForecast
  | .historical _ => url.kHistorical
  | .historical_forecast _ => url.kHistoricalForecast
  | .previous_runs _ => url.kPreviousRuns
  | .ensemble _ => url.kEnsemble
  | .marine _ => url.kMarine
  | .air_quality _ => url.kAirQuality
  | .climate _ => url.kClimate
  | .seasonal _ => url.kSeasonal
  | .flood _ => url.kFlood
  | .elevation _ => url.kElevation
  | .geocoding _ => url.kGeocoding

/-- The method of the client a request goes through. -/
def get {σ : Type} (client : OpenMeteoClient) (services : Services σ) (glaze : Glaze) :
    (r : Request) → Proc σ (Result r.Response)
  | .forecast p => client.get_forecast services glaze p
  | .historical p => client.get_historical services glaze p
  | .historical_forecast p => client.get_historical_forecast services glaze p
  | .previous_runs p => client.get_previous_runs services glaze p
  | .ensemble p => client.get_ensemble services glaze p
  | .marine p => client.get_marine services glaze p
  | .air_quality p => client.get_air_quality services glaze p
  | .climate p => client.get_climate services glaze p
  | .seasonal p => client.get_seasonal services glaze p
  | .flood p => client.get_flood services glaze p
  | .elevation p => client.get_elevation services glaze p
  | .geocoding p => client.get_geocoding services glaze p

end Request

end OpenMeteo
