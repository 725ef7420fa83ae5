/-
The request parameters of `params.hpp` and the query strings
`src/models/params.cpp` builds from them.

A query string is threaded through the appends, as the source threads a
`std::string&`. The overloads of `append_param` have their own names here. An
`if (field) append(..., *field)` of the source is one use of `when_set`.
-/
import OpenMeteo.Error
import OpenMeteo.Lib.Decimal

set_option autoImplicit false

namespace OpenMeteo

/-! ## Query string builder helpers -/

/-- `constexpr char hex[]` of `encode`. -/
def hex : Bytes := text "0123456789ABCDEF"

/-- Percent-encoding, byte by byte: what is unreserved stays, anything else is a `%`
and two hex digits. -/
def encode (value : Bytes) : Bytes :=
  value.foldl (fun out c =>
    -- letters, digits, and `-`, `_`, `.`, `~`
    if (97 ≤ c ∧ c ≤ 122) ∨ (65 ≤ c ∧ c ≤ 90) ∨ (48 ≤ c ∧ c ≤ 57)
        ∨ c = 45 ∨ c = 95 ∨ c = 46 ∨ c = 126 then
      out ++ [c]
    else
      -- the high half of the byte first
      out ++ text "%" ++ [hex.getD (c >>> 4).toNat 0] ++ [hex.getD (c &&& 15).toNat 0]) []

/-- A parameter follows a `?` if it is the first, and a `&` if it is not. -/
def ensure_separator (query : Bytes) : Bytes :=
  if query.isEmpty then query ++ text "?" else query ++ text "&"

/-- `append_param` of a string. -/
def append_param (query key value : Bytes) : Bytes :=
  let query := ensure_separator query
  let query := query ++ encode key
  let query := query ++ text "="
  query ++ encode value

/-- The loop of `append_list_param`, from index `i` on. -/
def append_elements (query : Bytes) (i : ℕ) : List Bytes → Bytes
  | [] => query
  | value :: rest =>
    -- no comma in front of the first element
    let query := if 0 < i then query ++ text "," else query
    append_elements (query ++ encode value) (i + 1) rest

/-- A list without values leaves no trace, not even a separator; in any other the
commas between the elements are the only ones, since `encode` leaves none. -/
def append_list_param (query key : Bytes) (values : List Bytes) : Bytes :=
  if values.isEmpty then query
  else
    let query := ensure_separator query
    let query := query ++ encode key
    let query := query ++ text "="
    append_elements query 0 values

/-- `append_param` of a double. `{:g}` without a precision has six significant digits,
so the text need not be the shortest one that reads back. -/
def append_param_double (query key : Bytes) (value : Double) : Bytes :=
  append_param query key (Decimal.formatG value)

/-- `append_param` of an int. -/
def append_param_int (query key : Bytes) (value : ℤ) : Bytes :=
  append_param query key (Decimal.intText value)

/-- `append_param` of a bool. -/
def append_param_bool (query key : Bytes) (value : Bool) : Bytes :=
  append_param query key (if value then text "true" else text "false")

/-- `if (field) append(query, key, *field)`. -/
def when_set {α : Type} (append : Bytes → Bytes → α → Bytes) (query key : Bytes)
    (field : Option α) : Bytes :=
  match field with
  | some value => append query key value
  | none => query

/-- The thirteen optional fields that forecast, historical forecast and ensemble
requests have in common. Neighbouring arguments have the same types, so only their
order ties them to their keys. -/
def append_common_weather_params (query : Bytes) (hourly daily current : Option (List Bytes))
    (forecast_days past_days : Option ℤ) (models : Option (List Bytes))
    (temperature_unit wind_speed_unit precipitation_unit timezone cell_selection start_date
      end_date : Option Bytes) : Bytes :=
  let query := when_set append_list_param query (text "hourly") hourly
  let query := when_set append_list_param query (text "daily") daily
  let query := when_set append_list_param query (text "current") current
  let query := when_set append_param_int query (text "forecast_days") forecast_days
  let query := when_set append_param_int query (text "past_days") past_days
  let query := when_set append_list_param query (text "models") models
  let query := when_set append_param query (text "temperature_unit") temperature_unit
  let query := when_set append_param query (text "wind_speed_unit") wind_speed_unit
  let query := when_set append_param query (text "precipitation_unit") precipitation_unit
  let query := when_set append_param query (text "timezone") timezone
  let query := when_set append_param query (text "cell_selection") cell_selection
  let query := when_set append_param query (text "start_date") start_date
  when_set append_param query (text "end_date") end_date

/-! ## Forecast -/

/-- Parameters of the forecast. A list names variables; a field without a value is not
sent. -/
structure ForecastParams where
  latitude : Double := Double.zero
  longitude : Double := Double.zero
  hourly : Option (List Bytes) := none
  daily : Option (List Bytes) := none
  current : Option (List Bytes) := none
  forecast_days : Option ℤ := none
  past_days : Option ℤ := none
  models : Option (List Bytes) := none
  temperature_unit : Option Bytes := none
  wind_speed_unit : Option Bytes := none
  precipitation_unit : Option Bytes := none
  timezone : Option Bytes := none
  cell_selection : Option Bytes := none
  start_date : Option Bytes := none
  end_date : Option Bytes := none
  deriving DecidableEq, Repr

def ForecastParams.build_query_string (p : ForecastParams) : Bytes :=
  let query : Bytes := []
  let query := append_param_double query (text "latitude") p.latitude
  let query := append_param_double query (text "longitude") p.longitude
  append_common_weather_params query p.hourly p.daily p.current p.forecast_days p.past_days p.models
    p.temperature_unit p.wind_speed_unit p.precipitation_unit p.timezone p.cell_selection p.start_date
    p.end_date

/-! ## Historical -/

/-- Parameters of the weather archive. The two dates are required: they are plain
strings, and sent even when they are empty. -/
structure HistoricalParams where
  latitude : Double := Double.zero
  longitude : Double := Double.zero
  start_date : Bytes := []
  end_date : Bytes := []
  hourly : Option (List Bytes) := none
  daily : Option (List Bytes) := none
  models : Option (List Bytes) := none
  temperature_unit : Option Bytes := none
  wind_speed_unit : Option Bytes := none
  precipitation_unit : Option Bytes := none
  timezone : Option Bytes := none
  cell_selection : Option Bytes := none
  deriving DecidableEq, Repr

def HistoricalParams.build_query_string (p : HistoricalParams) : Bytes :=
  let query : Bytes := []
  let query := append_param_double query (text "latitude") p.latitude
  let query := append_param_double query (text "longitude") p.longitude
  let query := append_param query (text "start_date") p.start_date
  let query := append_param query (text "end_date") p.end_date
  let query := when_set append_list_param query (text "hourly") p.hourly
  let query := when_set append_list_param query (text "daily") p.daily
  let query := when_set append_list_param query (text "models") p.models
  let query := when_set append_param query (text "temperature_unit") p.temperature_unit
  let query := when_set append_param query (text "wind_speed_unit") p.wind_speed_unit
  let query := when_set append_param query (text "precipitation_unit") p.precipitation_unit
  let query := when_set append_param query (text "timezone") p.timezone
  when_set append_param query (text "cell_selection") p.cell_selection

/-! ## Historical Forecast -/

/-- Parameters of the archive of past forecasts, with the fields of a forecast. -/
structure HistoricalForecastParams where
  latitude : Double := Double.zero
  longitude : Double := Double.zero
  hourly : Option (List Bytes) := none
  daily : Option (List Bytes) := none
  current : Option (List Bytes) := none
  forecast_days : Option ℤ := none
  past_days : Option ℤ := none
  models : Option (List Bytes) := none
  temperature_unit : Option Bytes := none
  wind_speed_unit : Option Bytes := none
  precipitation_unit : Option Bytes := none
  timezone : Option Bytes := none
  cell_selection : Option Bytes := none
  start_date : Option Bytes := none
  end_date : Option Bytes := none
  deriving DecidableEq, Repr

def HistoricalForecastParams.build_query_string (p : HistoricalForecastParams) : Bytes :=
  let query : Bytes := []
  let query := append_param_double query (text "latitude") p.latitude
  let query := append_param_double query (text "longitude") p.longitude
  append_common_weather_params query p.hourly p.daily p.current p.forecast_days p.past_days p.models
    p.temperature_unit p.wind_speed_unit p.precipitation_unit p.timezone p.cell_selection p.start_date
    p.end_date

/-! ## Previous Runs -/

/-- Parameters of the previous runs of the models. One model can be named in two ways,
by `model_name` or as the only element of `models`. -/
structure PreviousRunsParams where
  latitude : Double := Double.zero
  longitude : Double := Double.zero
  hourly : Option (List Bytes) := none
  daily : Option (List Bytes) := none
  current : Option (List Bytes) := none
  forecast_days : Option ℤ := none
  past_days : Option ℤ := none
  models : Option (List Bytes) := none
  temperature_unit : Option Bytes := none
  wind_speed_unit : Option Bytes := none
  precipitation_unit : Option Bytes := none
  timezone : Option Bytes := none
  cell_selection : Option Bytes := none
  start_date : Option Bytes := none
  end_date : Option Bytes := none
  model_name : Option Bytes := none
  previous_day : Option ℤ := none
  deriving DecidableEq, Repr

/-- The fields of a forecast, appended here one by one, since the choice of the model
stands between them. -/
def PreviousRunsParams.build_query_string (p : PreviousRunsParams) : Bytes :=
  let query : Bytes := []
  let query := append_param_double query (text "latitude") p.latitude
  let query := append_param_double query (text "longitude") p.longitude
  let query := when_set append_list_param query (text "hourly") p.hourly
  let query := when_set append_list_param query (text "daily") p.daily
  let query := when_set append_list_param query (text "current") p.current
  let query := when_set append_param_int query (text "forecast_days") p.forecast_days
  let query := when_set append_param_int query (text "past_days") p.past_days
  -- a name of its own wins, and `models` is not looked at
  let query :=
    match p.model_name with
    | some model_name => append_param query (text "model_name") model_name
    | none =>
      match p.models with
      | some [model] => append_param query (text "model_name") model
      -- two or more, or none, which `append_list_param` skips
      | some models => append_list_param query (text "models") models
      | none => query
  let query := when_set append_param query (text "temperature_unit") p.temperature_unit
  let query := when_set append_param query (text "wind_speed_unit") p.wind_speed_unit
  let query := when_set append_param query (text "precipitation_unit") p.precipitation_unit
  let query := when_set append_param query (text "timezone") p.timezone
  let query := when_set append_param query (text "cell_selection") p.cell_selection
  let query := when_set append_param query (text "start_date") p.start_date
  let query := when_set append_param query (text "end_date") p.end_date
  when_set append_param_int query (text "previous_day") p.previous_day

/-! ## Ensemble -/

/-- Parameters of the ensemble models, with the fields of a forecast. -/
structure EnsembleParams where
  latitude : Double := Double.zero
  longitude : Double := Double.zero
  hourly : Option (List Bytes) := none
  daily : Option (List Bytes) := none
  current : Option (List Bytes) := none
  forecast_days : Option ℤ := none
  past_days : Option ℤ := none
  models : Option (List Bytes) := none
  temperature_unit : Option Bytes := none
  wind_speed_unit : Option Bytes := none
  precipitation_unit : Option Bytes := none
  timezone : Option Bytes := none
  cell_selection : Option Bytes := none
  start_date : Option Bytes := none
  end_date : Option Bytes := none
  deriving DecidableEq, Repr

def EnsembleParams.build_query_string (p : EnsembleParams) : Bytes :=
  let query : Bytes := []
  let query := append_param_double query (text "latitude") p.latitude
  let query := append_param_double query (text "longitude") p.longitude
  append_common_weather_params query p.hourly p.daily p.current p.forecast_days p.past_days p.models
    p.temperature_unit p.wind_speed_unit p.precipitation_unit p.timezone p.cell_selection p.start_date
    p.end_date

/-! ## Marine -/

/-- Parameters of the marine forecast, whose only unit is that of lengths. -/
structure MarineParams where
  latitude : Double := Double.zero
  longitude : Double := Double.zero
  hourly : Option (List Bytes) := none
  daily : Option (List Bytes) := none
  current : Option (List Bytes) := none
  start_date : Option Bytes := none
  end_date : Option Bytes := none
  timezone : Option Bytes := none
  forecast_days : Option ℤ := none
  past_days : Option ℤ := none
  cell_selection : Option Bytes := none
  length_unit : Option Bytes := none
  deriving DecidableEq, Repr

def MarineParams.build_query_string (p : MarineParams) : Bytes :=
  let query : Bytes := []
  let query := append_param_double query (text "latitude") p.latitude
  let query := append_param_double query (text "longitude") p.longitude
  let query := when_set append_list_param query (text "hourly") p.hourly
  let query := when_set append_list_param query (text "daily") p.daily
  let query := when_set append_list_param query (text "current") p.current
  let query := when_set append_param query (text "start_date") p.start_date
  let query := when_set append_param query (text "end_date") p.end_date
  let query := when_set append_param query (text "timezone") p.timezone
  let query := when_set append_param_int query (text "forecast_days") p.forecast_days
  let query := when_set append_param_int query (text "past_days") p.past_days
  let query := when_set append_param query (text "cell_selection") p.cell_selection
  when_set append_param query (text "length_unit") p.length_unit

/-! ## Air Quality -/

/-- Parameters of the air-quality forecast, which has no daily variables. -/
structure AirQualityParams where
  latitude : Double := Double.zero
  longitude : Double := Double.zero
  hourly : Option (List Bytes) := none
  current : Option (List Bytes) := none
  start_date : Option Bytes := none
  end_date : Option Bytes := none
  timezone : Option Bytes := none
  forecast_days : Option ℤ := none
  past_days : Option ℤ := none
  cell_selection : Option Bytes := none
  deriving DecidableEq, Repr

def AirQualityParams.build_query_string (p : AirQualityParams) : Bytes :=
  let query : Bytes := []
  let query := append_param_double query (text "latitude") p.latitude
  let query := append_param_double query (text "longitude") p.longitude
  let query := when_set append_list_param query (text "hourly") p.hourly
  let query := when_set append_list_param query (text "current") p.current
  let query := when_set append_param query (text "start_date") p.start_date
  let query := when_set append_param query (text "end_date") p.end_date
  let query := when_set append_param query (text "timezone") p.timezone
  let query := when_set append_param_int query (text "forecast_days") p.forecast_days
  let query := when_set append_param_int query (text "past_days") p.past_days
  when_set append_param query (text "cell_selection") p.cell_selection

/-! ## Climate -/

/-- Parameters of the climate projections: daily variables only, and no timezone. -/
structure ClimateParams where
  latitude : Double := Double.zero
  longitude : Double := Double.zero
  daily : Option (List Bytes) := none
  start_date : Option Bytes := none
  end_date : Option Bytes := none
  models : Option (List Bytes) := none
  temperature_unit : Option Bytes := none
  wind_speed_unit : Option Bytes := none
  precipitation_unit : Option Bytes := none
  deriving DecidableEq, Repr

def ClimateParams.build_query_string (p : ClimateParams) : Bytes :=
  let query : Bytes := []
  let query := append_param_double query (text "latitude") p.latitude
  let query := append_param_double query (text "longitude") p.longitude
  let query := when_set append_list_param query (text "daily") p.daily
  let query := when_set append_param query (text "start_date") p.start_date
  let query := when_set append_param query (text "end_date") p.end_date
  let query := when_set append_list_param query (text "models") p.models
  let query := when_set append_param query (text "temperature_unit") p.temperature_unit
  let query := when_set append_param query (text "wind_speed_unit") p.wind_speed_unit
  when_set append_param query (text "precipitation_unit") p.precipitation_unit

/-! ## Seasonal -/

/-- Parameters of the seasonal forecast, which has weekly and monthly variables and no
hourly ones. -/
structure SeasonalParams where
  latitude : Double := Double.zero
  longitude : Double := Double.zero
  six_hourly : Option (List Bytes) := none
  daily : Option (List Bytes) := none
  weekly : Option (List Bytes) := none
  monthly : Option (List Bytes) := none
  models : Option (List Bytes) := none
  temperature_unit : Option Bytes := none
  wind_speed_unit : Option Bytes := none
  precipitation_unit : Option Bytes := none
  timezone : Option Bytes := none
  deriving DecidableEq, Repr

def SeasonalParams.build_query_string (p : SeasonalParams) : Bytes :=
  let query : Bytes := []
  let query := append_param_double query (text "latitude") p.latitude
  let query := append_param_double query (text "longitude") p.longitude
  let query := when_set append_list_param query (text "six_hourly") p.six_hourly
  let query := when_set append_list_param query (text "daily") p.daily
  let query := when_set append_list_param query (text "weekly") p.weekly
  let query := when_set append_list_param query (text "monthly") p.monthly
  let query := when_set append_list_param query (text "models") p.models
  let query := when_set append_param query (text "temperature_unit") p.temperature_unit
  let query := when_set append_param query (text "wind_speed_unit") p.wind_speed_unit
  let query := when_set append_param query (text "precipitation_unit") p.precipitation_unit
  when_set append_param query (text "timezone") p.timezone

/-! ## Flood -/

/-- Parameters of the river-discharge forecast, with the only flag of any request. -/
structure FloodParams where
  latitude : Double := Double.zero
  longitude : Double := Double.zero
  daily : Option (List Bytes) := none
  start_date : Option Bytes := none
  end_date : Option Bytes := none
  ensemble : Option Bool := none
  forecast_days : Option ℤ := none
  past_days : Option ℤ := none
  deriving DecidableEq, Repr

def FloodParams.build_query_string (p : FloodParams) : Bytes :=
  let query : Bytes := []
  let query := append_param_double query (text "latitude") p.latitude
  let query := append_param_double query (text "longitude") p.longitude
  let query := when_set append_list_param query (text "daily") p.daily
  let query := when_set append_param query (text "start_date") p.start_date
  let query := when_set append_param query (text "end_date") p.end_date
  let query := when_set append_param_bool query (text "ensemble") p.ensemble
  let query := when_set append_param_int query (text "forecast_days") p.forecast_days
  when_set append_param_int query (text "past_days") p.past_days

/-! ## Elevation -/

/-- Parameters of the elevation service: one place. -/
structure ElevationParams where
  latitude : Double := Double.zero
  longitude : Double := Double.zero
  deriving DecidableEq, Repr

def ElevationParams.build_query_string (p : ElevationParams) : Bytes :=
  let query : Bytes := []
  let query := append_param_double query (text "latitude") p.latitude
  append_param_double query (text "longitude") p.longitude

/-! ## Geocoding -/

/-- Parameters of the search for places, the one request without coordinates. -/
structure GeocodingParams where
  name : Bytes := []
  count : Option ℤ := none
  language : Option Bytes := none
  format : Option Bytes := none
  deriving DecidableEq, Repr

def GeocodingParams.build_query_string (p : GeocodingParams) : Bytes :=
  let query : Bytes := []
  let query := append_param query (text "name") p.name
  let query := when_set append_param_int query (text "count") p.count
  let query := when_set append_param query (text "language") p.language
  when_set append_param query (text "format") p.format

end OpenMeteo
