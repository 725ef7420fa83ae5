/-
Every request field reaches the wire under its own name, exactly once.

The tables below say, struct by struct, which field goes out under which name
and with which value; they follow the declarations of `params.hpp` field by
field. `build_query_string` is compared with them as a whole: decoding the query
string of any request gives the pairs of its table.
-/
import OpenMeteo.QueryCodec

set_option autoImplicit false

namespace OpenMeteo

open UrlText

/-! ## Fields and their values -/

/-- What the value of a parameter means. -/
inductive Value
  | text (value : Bytes)
  | list (values : List Bytes)
  | int (value : ℤ)
  | bool (value : Bool)
  deriving DecidableEq, Repr

/-- A field of a request: its name, and its value as the struct holds it. -/
inductive Field
  | double (name : Bytes) (value : Double)
  | required (name : Bytes) (value : Bytes)
  | text (name : Bytes) (value : Option Bytes)
  | list (name : Bytes) (value : Option (List Bytes))
  | int (name : Bytes) (value : Option ℤ)
  | bool (name : Bytes) (value : Option Bool)

def Field.name : Field → Bytes
  | .double name _ | .required name _ | .text name _ | .list name _ | .int name _
  | .bool name _ => name

/-- The value to be sent: none for an unset field and for an empty list, and the
printed text for a double. -/
def Field.value : Field → Option Value
  | .double _ value => some (.text (Decimal.formatG value))
  | .required _ value => some (.text value)
  | .text _ value => value.map .text
  | .list _ (some (first :: rest)) => some (.list (first :: rest))
  | .list _ _ => none
  | .int _ value => value.map .int
  | .bool _ value => value.map .bool

/-- The pair a field puts into the query. -/
def Field.pair (f : Field) : Option (Bytes × Value) := f.value.map fun v => (f.name, v)

/-! ## The tables -/

def ForecastParams.fields (p : ForecastParams) : List Field :=
  [.double (text "latitude") p.latitude,
    .double (text "longitude") p.longitude,
    .list (text "hourly") p.hourly,
    .list (text "daily") p.daily,
    .list (text "current") p.current,
    .int (text "forecast_days") p.forecast_days,
    .int (text "past_days") p.past_days,
    .list (text "models") p.models,
    .text (text "temperature_unit") p.temperature_unit,
    .text (text "wind_speed_unit") p.wind_speed_unit,
    .text (text "precipitation_unit") p.precipitation_unit,
    .text (text "timezone") p.timezone,
    .text (text "cell_selection") p.cell_selection,
    .text (text "start_date") p.start_date,
    .text (text "end_date") p.end_date]

def HistoricalParams.fields (p : HistoricalParams) : List Field :=
  [.double (text "latitude") p.latitude,
    .double (text "longitude") p.longitude,
    .required (text "start_date") p.start_date,
    .required (text "end_date") p.end_date,
    .list (text "hourly") p.hourly,
    .list (text "daily") p.daily,
    .list (text "models") p.models,
    .text (text "temperature_unit") p.temperature_unit,
    .text (text "wind_speed_unit") p.wind_speed_unit,
    .text (text "precipitation_unit") p.precipitation_unit,
    .text (text "timezone") p.timezone,
    .text (text "cell_selection") p.cell_selection]

def HistoricalForecastParams.fields (p : HistoricalForecastParams) : List Field :=
  [.double (text "latitude") p.latitude,
    .double (text "longitude") p.longitude,
    .list (text "hourly") p.hourly,
    .list (text "daily") p.daily,
    .list (text "current") p.current,
    .int (text "forecast_days") p.forecast_days,
    .int (text "past_days") p.past_days,
    .list (text "models") p.models,
    .text (text "temperature_unit") p.temperature_unit,
    .text (text "wind_speed_unit") p.wind_speed_unit,
    .text (text "precipitation_unit") p.precipitation_unit,
    .text (text "timezone") p.timezone,
    .text (text "cell_selection") p.cell_selection,
    .text (text "start_date") p.start_date,
    .text (text "end_date") p.end_date]

/-- The `model_name` a previous-runs request sends: its own, or its only model. -/
def PreviousRunsParams.sent_model_name (p : PreviousRunsParams) : Option Bytes :=
  match p.model_name, p.models with
  | some model_name, _ => some model_name
  | none, some [model] => some model
  | none, _ => none

/-- The `models` a previous-runs request sends: two or more, without a `model_name`. -/
def PreviousRunsParams.sent_models (p : PreviousRunsParams) : Option (List Bytes) :=
  match p.model_name, p.models with
  | none, some (first :: second :: rest) => some (first :: second :: rest)
  | _, _ => none

/-- Of `model_name` and `models` at most one is sent. -/
def PreviousRunsParams.fields (p : PreviousRunsParams) : List Field :=
  [.double (text "latitude") p.latitude,
    .double (text "longitude") p.longitude,
    .list (text "hourly") p.hourly,
    .list (text "daily") p.daily,
    .list (text "current") p.current,
    .int (text "forecast_days") p.forecast_days,
    .int (text "past_days") p.past_days,
    .text (text "model_name") p.sent_model_name,
    .list (text "models") p.sent_models,
    .text (text "temperature_unit") p.temperature_unit,
    .text (text "wind_speed_unit") p.wind_speed_unit,
    .text (text "precipitation_unit") p.precipitation_unit,
    .text (text "timezone") p.timezone,
    .text (text "cell_selection") p.cell_selection,
    .text (text "start_date") p.start_date,
    .text (text "end_date") p.end_date,
    .int (text "previous_day") p.previous_day]

def EnsembleParams.fields (p : EnsembleParams) : List Field :=
  [.double (text "latitude") p.latitude,
    .double (text "longitude") p.longitude,
    .list (text "hourly") p.hourly,
    .list (text "daily") p.daily,
    .list (text "current") p.current,
    .int (text "forecast_days") p.forecast_days,
    .int (text "past_days") p.past_days,
    .list (text "models") p.models,
    .text (text "temperature_unit") p.temperature_unit,
    .text (text "wind_speed_unit") p.wind_speed_unit,
    .text (text "precipitation_unit") p.precipitation_unit,
    .text (text "timezone") p.timezone,
    .text (text "cell_selection") p.cell_selection,
    .text (text "start_date") p.start_date,
    .text (text "end_date") p.end_date]

def MarineParams.fields (p : MarineParams) : List Field :=
  [.double (text "latitude") p.latitude,
    .double (text "longitude") p.longitude,
    .list (text "hourly") p.hourly,
    .list (text "daily") p.daily,
    .list (text "current") p.current,
    .text (text "start_date") p.start_date,
    .text (text "end_date") p.end_date,
    .text (text "timezone") p.timezone,
    .int (text "forecast_days") p.forecast_days,
    .int (text "past_days") p.past_days,
    .text (text "cell_selection") p.cell_selection,
    .text (text "length_unit") p.length_unit]

def AirQualityParams.fields (p : AirQualityParams) : List Field :=
  [.double (text "latitude") p.latitude,
    .double (text "longitude") p.longitude,
    .list (text "hourly") p.hourly,
    .list (text "current") p.current,
    .text (text "start_date") p.start_date,
    .text (text "end_date") p.end_date,
    .text (text "timezone") p.timezone,
    .int (text "forecast_days") p.forecast_days,
    .int (text "past_days") p.past_days,
    .text (text "cell_selection") p.cell_selection]

def ClimateParams.fields (p : ClimateParams) : List Field :=
  [.double (text "latitude") p.latitude,
    .double (text "longitude") p.longitude,
    .list (text "daily") p.daily,
    .text (text "start_date") p.start_date,
    .text (text "end_date") p.end_date,
    .list (text "models") p.models,
    .text (text "temperature_unit") p.temperature_unit,
    .text (text "wind_speed_unit") p.wind_speed_unit,
    .text (text "precipitation_unit") p.precipitation_unit]

def SeasonalParams.fields (p : SeasonalParams) : List Field :=
  [.double (text "latitude") p.latitude,
    .double (text "longitude") p.longitude,
    .list (text "six_hourly") p.six_hourly,
    .list (text "daily") p.daily,
    .list (text "weekly") p.weekly,
    .list (text "monthly") p.monthly,
    .list (text "models") p.models,
    .text (text "temperature_unit") p.temperature_unit,
    .text (text "wind_speed_unit") p.wind_speed_unit,
    .text (text "precipitation_unit") p.precipitation_unit,
    .text (text "timezone") p.timezone]

def FloodParams.fields (p : FloodParams) : List Field :=
  [.double (text "latitude") p.latitude,
    .double (text "longitude") p.longitude,
    .list (text "daily") p.daily,
    .text (text "start_date") p.start_date,
    .text (text "end_date") p.end_date,
    .bool (text "ensemble") p.ensemble,
    .int (text "forecast_days") p.forecast_days,
    .int (text "past_days") p.past_days]

def ElevationParams.fields (p : ElevationParams) : List Field :=
  [.double (text "latitude") p.latitude,
    .double (text "longitude") p.longitude]

def GeocodingParams.fields (p : GeocodingParams) : List Field :=
  [.required (text "name") p.name,
    .int (text "count") p.count,
    .text (text "language") p.language,
    .text (text "format") p.format]

/-- A request to one of the twelve endpoints. -/
inductive Request
  | forecast (p : ForecastParams)
  | historical (p : HistoricalParams)
  | historical_forecast (p : HistoricalForecastParams)
  | previous_runs (p : PreviousRunsParams)
  | ensemble (p : EnsembleParams)
  | marine (p : MarineParams)
  | air_quality (p : AirQualityParams)
  | climate (p : ClimateParams)
  | seasonal (p : SeasonalParams)
  | flood (p : FloodParams)
  | elevation (p : ElevationParams)
  | geocoding (p : GeocodingParams)

/-- The member function of the request's own struct. -/
def Request.build_query_string : Request → Bytes
  | .forecast p => p.build_query_string
  | .historical p => p.build_query_string
  | .historical_forecast p => p.build_query_string
  | .previous_runs p => p.build_query_string
  | .ensemble p => p.build_query_string
  | .marine p => p.build_query_string
  | .air_quality p => p.build_query_string
  | .climate p => p.build_query_string
  | .seasonal p => p.build_query_string
  | .flood p => p.build_query_string
  | .elevation p => p.build_query_string
  | .geocoding p => p.build_query_string

/-- The table of the request's own struct. -/
def Request.fields : Request → List Field
  | .forecast p => p.fields
  | .historical p => p.fields
  | .historical_forecast p => p.fields
  | .previous_runs p => p.fields
  | .ensemble p => p.fields
  | .marine p => p.fields
  | .air_quality p => p.fields
  | .climate p => p.fields
  | .seasonal p => p.fields
  | .flood p => p.fields
  | .elevation p => p.fields
  | .geocoding p => p.fields

/-! ## Decoding by key -/

/-- The four ways a value is written. -/
inductive ValueKind
  | text
  | list
  | int
  | bool
  deriving DecidableEq, Repr

/-- How the value under a key is to be read. -/
def value_kind (key : Bytes) : ValueKind :=
  if key ∈ [text "hourly", text "daily", text "current", text "models", text "six_hourly",
      text "weekly", text "monthly"] then .list
  else if key ∈ [text "forecast_days", text "past_days", text "previous_day", text "count"] then
    .int
  else if key = text "ensemble" then .bool
  else .text

/-- The two words `append_param` of a bool writes. -/
def read_bool (value : Bytes) : Option Bool :=
  if value = text "true" then some true
  else if value = text "false" then some false
  else none

/-- A value text, read as its kind; a list is split before its elements are decoded. -/
def read_value : ValueKind → Bytes → Option Value
  | .text, value => (percentDecode value).map .text
  | .list, value => (decode_list value).map .list
  | .int, value => ((percentDecode value).bind Decimal.readInt).map .int
  | .bool, value => ((percentDecode value).bind read_bool).map .bool

/-- The pairs of a query string, keys and values decoded. -/
def decode_query (query : Bytes) : Option (List (Bytes × Value)) :=
  (split_query query).bind fun parts =>
    parts.mapM fun part => (read_value (value_kind part.1) part.2).map fun v => (part.1, v)

/-! ## A query string is the appends of its table -/

/-- The append the serialisers use for a field of this type. -/
def Field.append (query : Bytes) : Field → Bytes
  | .double name value => append_param_double query name value
  | .required name value => append_param query name value
  | .text name value => when_set append_param query name value
  | .list name value => when_set append_list_param query name value
  | .int name value => when_set append_param_int query name value
  | .bool name value => when_set append_param_bool query name value

/-- The choice between `model_name` and `models`, as two appends. -/
theorem append_models (p : PreviousRunsParams) (query : Bytes) :
    (match p.model_name with
      | some model_name => append_param query (text "model_name") model_name
      | none =>
        match p.models with
        | some [model] => append_param query (text "model_name") model
        | some models => append_list_param query (text "models") models
        | none => query)
      = when_set append_list_param
          (when_set append_param query (text "model_name") p.sent_model_name)
          (text "models") p.sent_models := by
  unfold PreviousRunsParams.sent_model_name PreviousRunsParams.sent_models
  rcases p.model_name with _ | model_name
  · rcases p.models with _ | _ | ⟨first, _ | ⟨second, rest⟩⟩
    -- without a name of its own and without models nothing is appended
    · rfl
    -- an empty list is handed to `append_list_param`, which skips it
    · rfl
    -- the only model goes out as the name
    · rfl
    · rfl
  -- a name of its own is sent whatever the models are
  · rfl

/-- **A serialiser appends its table**, field by field and in order. -/
theorem build_query_string_eq (r : Request) :
    r.build_query_string = r.fields.foldl Field.append [] := by
  cases r with
  | previous_runs p =>
    -- the seven fields before the choice and the eight after it are appended as they stand
    exact congrArg (fun query => (p.fields.drop 9).foldl Field.append query) (append_models p _)
  | _ p => rfl

/-! ## One field -/

/-- The call that sends a value under a key. -/
def Value.call (key : Bytes) : Value → Call
  | .text value => .param key value
  | .list values => .list key values
  | .int value => .param key (Decimal.intText value)
  | .bool value => .param key (if value then OpenMeteo.text "true" else OpenMeteo.text "false")

def Value.kind : Value → ValueKind
  | .text _ => .text
  | .list _ => .list
  | .int _ => .int
  | .bool _ => .bool

def Field.kind : Field → ValueKind
  | .double _ _ | .required _ _ | .text _ _ => .text
  | .list _ _ => .list
  | .int _ _ => .int
  | .bool _ _ => .bool

/-- A field that is not sent leaves the query alone, any other makes one call. -/
theorem Field.append_eq (query : Bytes) (f : Field) :
    f.append query = match f.value with
      | some v => (v.call f.name).apply query
      | none => query := by
  cases f with
  | double name value | required name value => rfl
  | list name value =>
    rcases value with _ | _ | ⟨first, rest⟩
    · rfl
    -- set, but empty: `append_list_param` leaves the query as it was
    · rfl
    · rfl
  | text name value | int name value | bool name value =>
    cases value with
    | none => rfl
    | some value => rfl

/-- The value of a field has the field's kind, and is no empty list. -/
theorem Field.value_sound {f : Field} {v : Value} (h : f.value = some v) :
    v.kind = f.kind ∧ (v.call f.name).contributes = true := by
  cases f with
  | double name value | required name value =>
    cases h
    exact ⟨rfl, rfl⟩
  | list name value =>
    -- of the three shapes of a list only the non-empty one has a value
    rcases value with _ | _ | ⟨first, rest⟩
    · cases h
    · cases h
    · cases h
      exact ⟨rfl, rfl⟩
  | text name value | int name value | bool name value =>
    cases value with
    | none => cases h
    | some value =>
      cases h
      exact ⟨rfl, rfl⟩

theorem Value.call_key (key : Bytes) (v : Value) : (v.call key).key = key := by
  cases v with
  | text _ | list _ | int _ | bool _ => rfl

/-- A value read as what it is comes back. -/
theorem read_value_call (key : Bytes) (v : Value) (h : (v.call key).contributes = true) :
    read_value v.kind (v.call key).value_text = some v := by
  cases v with
  | text value =>
    simp only [Value.kind, Value.call, Call.value_text, read_value, percentDecode_percentEncode,
      Option.map_some]
  | list values =>
    have hne : values ≠ [] := Call.list_contributes.mp h
    simp only [Value.kind, Value.call, Call.value_text, read_value, decode_list_value_text hne,
      Option.map_some]
  | int value =>
    simp only [Value.kind, Value.call, Call.value_text, read_value, percentDecode_percentEncode,
      Option.bind_some, Decimal.readInt_intText, Option.map_some]
  | bool value =>
    have hread : read_bool (if value then text "true" else text "false") = some value := by
      cases value with
      | false => decide
      | true => decide
    simp only [Value.kind, Value.call, Call.value_text, read_value, percentDecode_percentEncode,
      Option.bind_some, hread, Option.map_some]

/-! ## All fields -/

/-- The request with nothing filled in: names and kinds are the endpoint's alone. -/
def Request.blank : Request → Request
  | .forecast _ => .forecast {}
  | .historical _ => .historical {}
  | .historical_forecast _ => .historical_forecast {}
  | .previous_runs _ => .previous_runs {}
  | .ensemble _ => .ensemble {}
  | .marine _ => .marine {}
  | .air_quality _ => .air_quality {}
  | .climate _ => .climate {}
  | .seasonal _ => .seasonal {}
  | .flood _ => .flood {}
  | .elevation _ => .elevation {}
  | .geocoding _ => .geocoding {}

/-- The values have no part in the names and the kinds. -/
theorem fields_blank (r : Request) :
    r.fields.map (fun f => (f.name, f.kind)) = r.blank.fields.map fun f => (f.name, f.kind) := by
  cases r with
  | _ p => rfl

/-- No table has a name twice, and every name is read as its field's kind. -/
theorem fields_names (r : Request) :
    (r.fields.map Field.name).Nodup ∧ ∀ f ∈ r.fields, value_kind f.name = f.kind := by
  have hblank : ((r.blank.fields.map fun f => (f.name, f.kind)).map Prod.fst).Nodup
      ∧ ∀ e ∈ r.blank.fields.map fun f => (f.name, f.kind), value_kind e.1 = e.2 := by
    -- each table is a closed list once the values are gone
    cases r with
    | _ p =>
      simp only [Request.blank]
      decide
  rw [← fields_blank, List.map_map] at hblank
  exact ⟨hblank.1, fun f hf => hblank.2 _ (List.mem_map_of_mem hf)⟩

/-- The calls that send a list of pairs. -/
def pair_calls (pairs : List (Bytes × Value)) : List Call := pairs.map fun p => p.2.call p.1

/-- Appending fields makes the calls of their pairs. -/
theorem foldl_append_eq (fs : List Field) :
    ∀ query, fs.foldl Field.append query
      = (pair_calls (fs.filterMap Field.pair)).foldl Call.apply query := by
  induction fs with
  | nil => exact fun query => rfl
  | cons f rest ih =>
    intro query
    rw [List.foldl_cons, ih, Field.append_eq, List.filterMap_cons, Field.pair]
    cases f.value with
    | none => rfl
    | some v => rfl

/-- The keys that are sent are among the names. -/
theorem pairs_keys_sublist (fs : List Field) :
    ((fs.filterMap Field.pair).map Prod.fst).Sublist (fs.map Field.name) := by
  induction fs with
  | nil => exact .slnil
  | cons f rest ih =>
    rw [List.filterMap_cons, List.map_cons, Field.pair]
    cases f.value with
    | none => exact ih.cons _
    | some v => exact ih.cons_cons _

/-- The query string of a request decodes to the pairs of its fields. -/
theorem decode_build_query_string (r : Request) :
    decode_query r.build_query_string = some (r.fields.filterMap Field.pair) := by
  have hkinds := (fields_names r).2
  have hpair : ∀ p ∈ r.fields.filterMap Field.pair,
      value_kind p.1 = p.2.kind ∧ (p.2.call p.1).contributes = true := by
    intro p hp
    obtain ⟨f, hf, hfp⟩ := List.mem_filterMap.mp hp
    obtain ⟨v, hv, rfl⟩ := Option.map_eq_some_iff.mp hfp
    obtain ⟨hkind, hcontr⟩ := Field.value_sound hv
    exact ⟨(hkinds f hf).trans hkind.symm, hcontr⟩
  -- none of the calls is skipped, so the query holds all of them
  have hall : (pair_calls (r.fields.filterMap Field.pair)).filter Call.contributes
      = pair_calls (r.fields.filterMap Field.pair) := by
    refine List.filter_eq_self.mpr fun c hc => ?_
    obtain ⟨p, hp, rfl⟩ := List.mem_map.mp hc
    exact (hpair p hp).2
  have hbuild : r.build_query_string = render (pair_calls (r.fields.filterMap Field.pair)) := by
    rw [build_query_string_eq, foldl_append_eq]
    exact (build_eq _).trans (congrArg render hall)
  rw [decode_query, hbuild, split_query_render, Option.bind_some, pair_calls, List.map_map]
  -- each part is read as its own kind
  refine (mapM_map_some _ fun p hp => ?_).trans (congrArg some (List.map_id _))
  obtain ⟨hkind, hcontr⟩ := hpair p hp
  simp only [Function.comp_apply, Value.call_key, hkind, read_value_call p.1 p.2 hcontr,
    Option.map_some, id]

/-- **Every request field reaches the wire under its own name, exactly once.**
Decoding the query string of a request gives, with pairwise distinct keys,
exactly the pairs of the fields that are set. -/
theorem fields_on_the_wire (r : Request) :
    decode_query r.build_query_string = some (r.fields.filterMap Field.pair)
      ∧ ((r.fields.filterMap Field.pair).map Prod.fst).Nodup := by
  -- distinct keys: those that are sent are some of the names
  have hnodup := (fields_names r).1.sublist (pairs_keys_sublist r.fields)
  exact ⟨decode_build_query_string r, hnodup⟩

end OpenMeteo
