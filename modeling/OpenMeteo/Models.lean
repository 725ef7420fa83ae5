/-
The response models and their deserializers, of `src/models/*.cpp`.

Glaze is a record of functions from bytes to a JSON tree or to a fresh struct,
or to the text `glz::format_error` makes of the failure. Every deserializer
takes the previous content of `out` and returns what it leaves there.
-/
import OpenMeteo.Error
import OpenMeteo.Lib.AssocMap
import OpenMeteo.Lib.Double

set_option autoImplicit false

namespace OpenMeteo

/-! ## JSON trees -/

/-- `glz::generic`. Numbers are doubles, and an object lists its members in the
order in which it is walked. -/
inductive Generic
  | null
  | bool (value : Bool)
  | number (value : Double)
  | string (value : Bytes)
  | array (elements : List Generic)
  | object (members : List (Bytes × Generic))

def Generic.is_object : Generic → Bool
  | .object _ => true
  | _ => false

def Generic.is_string : Generic → Bool
  | .string _ => true
  | _ => false

/-! ## Response models -/

/-- `std::unordered_map<std::string, T>`. -/
abbrev UnorderedMap (α : Type) := AssocMap Bytes α

structure Location where
  latitude : Double := Double.zero
  longitude : Double := Double.zero
  elevation : Double := Double.zero
  generationtime_ms : Double := Double.zero
  utc_offset_seconds : ℤ := 0
  timezone : Bytes := []
  timezone_abbreviation : Bytes := []
  deriving DecidableEq

structure TimeseriesData where
  time : List Bytes := []
  values : UnorderedMap (List Double) := AssocMap.empty
  string_values : UnorderedMap (List Bytes) := AssocMap.empty
  deriving DecidableEq

structure WeatherResponse extends Location where
  hourly : Option TimeseriesData := none
  daily : Option TimeseriesData := none
  current : Option TimeseriesData := none
  hourly_units : Option (UnorderedMap Bytes) := none
  daily_units : Option (UnorderedMap Bytes) := none
  current_units : Option (UnorderedMap Bytes) := none
  deriving DecidableEq

structure SeasonalResponse extends WeatherResponse where
  six_hourly : Option TimeseriesData := none
  weekly : Option TimeseriesData := none
  monthly : Option TimeseriesData := none
  six_hourly_units : Option (UnorderedMap Bytes) := none
  weekly_units : Option (UnorderedMap Bytes) := none
  monthly_units : Option (UnorderedMap Bytes) := none
  deriving DecidableEq

structure ElevationResponse where
  elevation : List Double := []
  deriving DecidableEq

structure GeocodingResult where
  id : ℤ := 0
  name : Bytes := []
  latitude : Double := Double.zero
  longitude : Double := Double.zero
  elevation : Double := Double.zero
  timezone : Bytes := []
  country : Bytes := []
  country_code : Bytes := []
  admin1 : Option Bytes := none
  admin2 : Option Bytes := none
  admin3 : Option Bytes := none
  population : Option ℤ := none
  postcodes : Option (List Bytes) := none
  deriving DecidableEq

structure GeocodingResponse where
  results : List GeocodingResult := []
  generationtime_ms : Double := Double.zero
  deriving DecidableEq

/-- `glz::read<kJsonReadOptions>` at the three types it is used at. -/
structure Glaze where
  read_generic : Bytes → Except Bytes Generic
  read_elevation : Bytes → Except Bytes ElevationResponse
  read_geocoding : Bytes → Except Bytes GeocodingResponse

/-! ## Timeseries -/

/-- The element of a string series: anything but a string becomes empty. -/
def string_or_empty : Generic → Bytes
  | .string value => value
  | _ => []

/-- The element of a numeric series: anything but a number becomes NaN. -/
def number_or_nan : Generic → Double
  | .number value => value
  | _ => Double.quiet_NaN

/-- The first non-null element decides. -/
def is_string_array : List Generic → Bool
  | [] => false
  -- leading nulls do not decide
  | .null :: rest => is_string_array rest
  | elem :: _ => elem.is_string

/-- A member of a block whose "time" is a string. -/
def add_scalar (ts : TimeseriesData) (key : Bytes) (value : Generic) : TimeseriesData :=
  if key = text "time" then ts
  else
    match value with
    | .number x => { ts with values := ts.values.set key [x] }
    -- a null says nothing of the kind and goes to the numbers
    | .null => { ts with values := ts.values.set key [Double.quiet_NaN] }
    | .string s => { ts with string_values := ts.string_values.set key [s] }
    | _ => ts

/-- A member of any other block. The series is appended to what the map holds. -/
def add_array (ts : TimeseriesData) (key : Bytes) (val : Generic) : TimeseriesData :=
  if key = text "time" then ts
  else
    match val with
    | .array [] => { ts with values := ts.values.set key [] }
    | .array arr =>
      if is_string_array arr then
        let str_vec := (ts.string_values.find? key).getD []
        { ts with string_values := ts.string_values.set key (str_vec ++ arr.map string_or_empty) }
      else
        let num_vec := (ts.values.find? key).getD []
        { ts with values := ts.values.set key (num_vec ++ arr.map number_or_nan) }
    | _ => ts

def populate_timeseries_from_generic (node : Generic) (ts : TimeseriesData) : TimeseriesData :=
  match node with
  | .object obj =>
    match obj.lookup (text "time") with
    | some (.string current_time) =>
      let ts := { ts with time := ts.time ++ [current_time] }
      obj.foldl (fun ts member => add_scalar ts member.1 member.2) ts
    | some (.array time_arr) =>
      let ts := { ts with time := ts.time ++ time_arr.map string_or_empty }
      obj.foldl (fun ts member => add_array ts member.1 member.2) ts
    | _ => obj.foldl (fun ts member => add_array ts member.1 member.2) ts
  | _ => ts

def extract_timeseries (root : Generic) (key : Bytes) : Option TimeseriesData :=
  match root with
  | .object obj =>
    match obj.lookup key with
    | some (.object block) => some (populate_timeseries_from_generic (.object block) {})
    | _ => none
  | _ => none

def extract_units_map (root : Generic) (key : Bytes) : Option (UnorderedMap Bytes) :=
  match root with
  | .object obj =>
    match obj.lookup key with
    | some (.object block) =>
      some (block.foldl (fun units member =>
        match member.2 with
        | .string value => units.set member.1 value
        | _ => units) AssocMap.empty)
    | _ => none
  | _ => none

/-! ## Location -/

/-- `static_cast<int>` of a finite double. -/
def int_of_double (x : Double) : ℤ := if 0 ≤ x.toRat then ⌊x.toRat⌋ else ⌈x.toRat⌉

/-- `std::numeric_limits<int>`. -/
def int_min : ℤ := -2147483648

def int_max : ℤ := 2147483647

def populate_location_from_generic (root : Generic) (loc : Location) : Location :=
  match root with
  | .object obj =>
    let loc :=
      match obj.lookup (text "latitude") with
      | some (.number x) => { loc with latitude := x }
      | _ => loc
    let loc :=
      match obj.lookup (text "longitude") with
      | some (.number x) => { loc with longitude := x }
      | _ => loc
    let loc :=
      match obj.lookup (text "elevation") with
      | some (.number x) => { loc with elevation := x }
      | _ => loc
    let loc :=
      match obj.lookup (text "generationtime_ms") with
      | some (.number x) => { loc with generationtime_ms := x }
      | _ => loc
    let loc :=
      match obj.lookup (text "utc_offset_seconds") with
      | some (.number x) =>
        -- the range is tested before the cast, which is undefined outside of it
        if x.isfinite ∧ int_min ≤ x.toRat ∧ x.toRat ≤ int_max then
          { loc with utc_offset_seconds := int_of_double x }
        else loc
      | _ => loc
    let loc :=
      match obj.lookup (text "timezone") with
      | some (.string s) => { loc with timezone := s }
      | _ => loc
    match obj.lookup (text "timezone_abbreviation") with
    | some (.string s) => { loc with timezone_abbreviation := s }
    | _ => loc
  | _ => loc

/-! ## Deserializers -/

/-- `Result<void>` of a deserializer, and what it leaves in `out`. -/
abbrev Deserialized (α : Type) := Result Unit × α

def deserialize_location (glaze : Glaze) (body : Bytes) (out : Location) :
    Deserialized Location :=
  match glaze.read_generic body with
  | .error message => (.error (Error.parse message), out)
  | .ok root =>
    if ¬ root.is_object then (.error (Error.parse (text "Expected a JSON object")), out)
    else
      -- cleared only behind the last check
      let out : Location := {}
      (.ok (), populate_location_from_generic root out)

def deserialize_weather_response (glaze : Glaze) (body : Bytes) (out : WeatherResponse) :
    Deserialized WeatherResponse :=
  match glaze.read_generic body with
  | .error message => (.error (Error.parse message), out)
  | .ok root =>
    if ¬ root.is_object then (.error (Error.parse (text "Expected a JSON object")), out)
    else
      let out : WeatherResponse := {}
      let out := { out with toLocation := populate_location_from_generic root out.toLocation }
      let out := { out with hourly := extract_timeseries root (text "hourly") }
      let out := { out with daily := extract_timeseries root (text "daily") }
      let out := { out with current := extract_timeseries root (text "current") }
      let out := { out with hourly_units := extract_units_map root (text "hourly_units") }
      let out := { out with daily_units := extract_units_map root (text "daily_units") }
      let out := { out with current_units := extract_units_map root (text "current_units") }
      (.ok (), out)

def deserialize_seasonal_response (glaze : Glaze) (body : Bytes) (out : SeasonalResponse) :
    Deserialized SeasonalResponse :=
  match glaze.read_generic body with
  | .error message => (.error (Error.parse message), out)
  | .ok root =>
    if ¬ root.is_object then (.error (Error.parse (text "Expected a JSON object")), out)
    else
      let out : SeasonalResponse := {}
      let out := { out with toLocation := populate_location_from_generic root out.toLocation }
      let out := { out with hourly := extract_timeseries root (text "hourly") }
      let out := { out with daily := extract_timeseries root (text "daily") }
      let out := { out with current := extract_timeseries root (text "current") }
      let out := { out with hourly_units := extract_units_map root (text "hourly_units") }
      let out := { out with daily_units := extract_units_map root (text "daily_units") }
      let out := { out with current_units := extract_units_map root (text "current_units") }
      let out := { out with six_hourly := extract_timeseries root (text "six_hourly") }
      let out := { out with weekly := extract_timeseries root (text "weekly") }
      let out := { out with monthly := extract_timeseries root (text "monthly") }
      let out := { out with six_hourly_units := extract_units_map root (text "six_hourly_units") }
      let out := { out with weekly_units := extract_units_map root (text "weekly_units") }
      let out := { out with monthly_units := extract_units_map root (text "monthly_units") }
      (.ok (), out)

def deserialize_elevation_response (glaze : Glaze) (body : Bytes) (out : ElevationResponse) :
    Deserialized ElevationResponse :=
  match glaze.read_elevation body with
  | .error message => (.error (Error.parse message), out)
  | .ok parsed => (.ok (), parsed)

def deserialize_geocoding_response (glaze : Glaze) (body : Bytes) (out : GeocodingResponse) :
    Deserialized GeocodingResponse :=
  match glaze.read_geocoding body with
  | .error message => (.error (Error.parse message), out)
  | .ok parsed => (.ok (), parsed)

/-! ## All or nothing -/

/-- A deserializer fails and leaves `out` alone, or succeeds and leaves there
what the body alone determines. -/
def AllOrNothing {α : Type} (deserialize : Bytes → α → Deserialized α) : Prop :=
  ∀ body, (∃ error, ∀ out, deserialize body out = (.error error, out))
    ∨ ∃ value, ∀ out, deserialize body out = (.ok (), value)

/-- The shape of the generic-tree deserializers: parse, check, and fill a cleared `out`. -/
def deserialize_object {α : Type} (glaze : Glaze) (fill : Generic → α) (body : Bytes) (out : α) :
    Deserialized α :=
  match glaze.read_generic body with
  | .error message => (.error (Error.parse message), out)
  | .ok root =>
    if ¬ root.is_object then (.error (Error.parse (text "Expected a JSON object")), out)
    else (.ok (), fill root)

theorem deserialize_object_allOrNothing {α : Type} (glaze : Glaze) (fill : Generic → α) :
    AllOrNothing (deserialize_object glaze fill) := by
  intro body
  unfold deserialize_object
  cases glaze.read_generic body with
  | error message => exact Or.inl ⟨_, fun _ => rfl⟩
  | ok root =>
    -- the check on the root is the last point at which `out` is still untouched
    by_cases hroot : root.is_object = true
    · exact Or.inr ⟨fill root, fun _ => if_neg (not_not.mpr hroot)⟩
    · exact Or.inl ⟨_, fun _ => if_pos hroot⟩

theorem elevation_allOrNothing (glaze : Glaze) :
    AllOrNothing (deserialize_elevation_response glaze) := by
  intro body
  unfold deserialize_elevation_response
  cases glaze.read_elevation body with
  | error message => exact Or.inl ⟨_, fun _ => rfl⟩
  | ok parsed => exact Or.inr ⟨_, fun _ => rfl⟩

theorem geocoding_allOrNothing (glaze : Glaze) :
    AllOrNothing (deserialize_geocoding_response glaze) := by
  intro body
  unfold deserialize_geocoding_response
  cases glaze.read_geocoding body with
  | error message => exact Or.inl ⟨_, fun _ => rfl⟩
  | ok parsed => exact Or.inr ⟨_, fun _ => rfl⟩

/-! ## The shared part -/

/-- A body whose JSON root is an object. -/
def Glaze.ObjectRoot (glaze : Glaze) (body : Bytes) : Prop :=
  ∃ members, glaze.read_generic body = .ok (.object members)

/-- A generic-tree deserializer succeeds exactly on the bodies with an object at the root. -/
theorem objectRoot_iff {α : Type} {glaze : Glaze} {fill : Generic → α} (body : Bytes) (out : α) :
    (deserialize_object glaze fill body out).1 = .ok () ↔ glaze.ObjectRoot body := by
  unfold Glaze.ObjectRoot deserialize_object
  cases glaze.read_generic body with
  | error message => simp
  | ok root => cases root <;> simp [Generic.is_object]

/-- **Deserialisation is all or nothing**, independent of the reused output, and
the three parsers of generic trees agree on the bodies they accept and on every
field they share. -/
theorem deserialize_all_or_nothing (glaze : Glaze) :
    (AllOrNothing (deserialize_location glaze)
      ∧ AllOrNothing (deserialize_weather_response glaze)
      ∧ AllOrNothing (deserialize_seasonal_response glaze)
      ∧ AllOrNothing (deserialize_elevation_response glaze)
      ∧ AllOrNothing (deserialize_geocoding_response glaze))
    ∧ ∀ (body : Bytes) (location : Location) (weather : WeatherResponse)
        (seasonal : SeasonalResponse),
      ((deserialize_location glaze body location).1 = .ok () ↔ glaze.ObjectRoot body)
      ∧ ((deserialize_weather_response glaze body weather).1 = .ok () ↔ glaze.ObjectRoot body)
      ∧ ((deserialize_seasonal_response glaze body seasonal).1 = .ok () ↔ glaze.ObjectRoot body)
      ∧ (glaze.ObjectRoot body →
        (deserialize_weather_response glaze body weather).2.toLocation
            = (deserialize_location glaze body location).2
        ∧ (deserialize_seasonal_response glaze body seasonal).2.toWeatherResponse
            = (deserialize_weather_response glaze body weather).2) := by
  refine ⟨⟨deserialize_object_allOrNothing glaze _, deserialize_object_allOrNothing glaze _,
    deserialize_object_allOrNothing glaze _, elevation_allOrNothing glaze,
    geocoding_allOrNothing glaze⟩,
    fun body location weather seasonal =>
      ⟨objectRoot_iff body location, objectRoot_iff body weather, objectRoot_iff body seasonal, ?_⟩⟩
  rintro ⟨members, hread⟩
  simp only [deserialize_location, deserialize_weather_response, deserialize_seasonal_response,
    hread, Generic.is_object, not_true_eq_false, if_false, and_self]

end OpenMeteo
