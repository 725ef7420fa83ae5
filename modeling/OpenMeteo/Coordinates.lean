/-
Coordinates on the wire.

`append_param` of a double formats with `{:g}`, whose comment calls it the
shortest round-trippable representation. It is six significant digits. A
coordinate therefore survives exactly when some decimal of at most six digits
rounds to it, and only among such coordinates do different ones give different
query strings. The others move once: what is read back is such a coordinate.
-/
import OpenMeteo.RequestFields
import OpenMeteo.Lib.DecimalText

set_option autoImplicit false

namespace OpenMeteo

open UrlText

/-! ## What survives -/

/-- The value text of a parameter, percent-decoded, read as a decimal number and
rounded to the nearest double, is `x`. -/
def ReadsBackAs (value : Bytes) (x : Double) : Prop :=
  ∃ r : ℚ, (percentDecode value).bind Decimal.readDecimal = some r ∧ Double.RoundsTo r x

/-- Wherever `append_param` writes `x`, the text behind the `=` reads back as `x`. -/
def SurvivesSerialisation (x : Double) : Prop :=
  ∀ query key : Bytes, ∃ value : Bytes,
    append_param_double query key x = append_param query key [] ++ value ∧ ReadsBackAs value x

/-- Zero, or the double nearest to a decimal number of at most six significant digits. -/
def NearestToSixDigits (x : Double) : Prop :=
  ∃ d : ℚ, Decimal.IsSixDigit d ∧ Double.RoundsTo d x

/-- The value text of a double, behind everything `append_param` writes before it. -/
theorem append_param_double_eq (query key : Bytes) (x : Double) :
    append_param_double query key x
      = append_param query key [] ++ percentEncode (Decimal.formatG x) := by
  rw [append_param_double, append_param, append_param, encode_eq (Decimal.formatG x), encode_eq [],
    percentEncode_nil, List.append_nil]

/-- -73.9857, the double nearest to it. -/
example : append_param_double (text "?latitude=40.7128") (text "longitude") ⟨0xC0527F15B573EAB3⟩
    = text "?latitude=40.7128&longitude=-73.9857" := by decide +kernel

/-- 1234567, in exponent form. -/
example : append_param_double [] (text "latitude") ⟨0x4132D68700000000⟩
    = text "?latitude=1.23457e%2B06" := by decide +kernel

theorem reads_back_iff (x : Double) :
    ReadsBackAs (percentEncode (Decimal.formatG x)) x
      ↔ x.isfinite = true ∧ Double.RoundsTo (Decimal.atSixDigits x.toRat) x := by
  rw [ReadsBackAs, percentDecode_percentEncode, Option.bind_some]
  by_cases hfinite : x.isfinite = true
  · rw [Decimal.readDecimal_formatG hfinite]
    constructor
    · rintro ⟨r, hread, hround⟩
      cases hread
      exact ⟨hfinite, hround⟩
    · rintro ⟨-, hround⟩
      exact ⟨_, rfl, hround⟩
  · rw [Decimal.readDecimal_formatG_not_finite (Bool.eq_false_of_not_eq_true hfinite)]
    constructor
    · rintro ⟨r, hread, -⟩
      exact absurd hread (Option.some_ne_none r).symm
    · exact fun h => absurd h.1 hfinite

/-- **A coordinate survives when six digits are enough for it.** -/
theorem survives_iff (x : Double) : SurvivesSerialisation x ↔ NearestToSixDigits x := by
  constructor
  · intro h
    obtain ⟨value, heq, hread⟩ := h [] []
    rw [append_param_double_eq] at heq
    rw [← List.append_cancel_left heq, reads_back_iff] at hread
    exact ⟨_, Decimal.isSixDigit_atSixDigits _, hread.2⟩
  · rintro ⟨d, hd, hround⟩ query key
    refine ⟨_, append_param_double_eq query key x, (reads_back_iff x).mpr ⟨hround.finite, ?_⟩⟩
    exact Decimal.roundsTo_atSixDigits hd hround

/-- Of two coordinates with one text at most one value survives. -/
theorem value_of_text {x y : Double} (hx : NearestToSixDigits x) (hy : NearestToSixDigits y)
    (h : Decimal.formatG x = Decimal.formatG y) : x.toRat = y.toRat := by
  obtain ⟨d, hd, hxround⟩ := hx
  obtain ⟨d', hd', hyround⟩ := hy
  have hread := Decimal.readDecimal_formatG hxround.finite
  rw [h, Decimal.readDecimal_formatG hyround.finite, Option.some.injEq] at hread
  have hxsix := Decimal.roundsTo_atSixDigits hd hxround
  have hysix := Decimal.roundsTo_atSixDigits hd' hyround
  rw [hread] at hysix
  exact hxsix.unique hysix

theorem values_of_texts {xs ys : List Double} (hxs : ∀ x ∈ xs, NearestToSixDigits x)
    (hys : ∀ y ∈ ys, NearestToSixDigits y)
    (h : xs.map Decimal.formatG = ys.map Decimal.formatG) :
    xs.map Double.toRat = ys.map Double.toRat := by
  induction xs generalizing ys with
  | nil => rw [List.map_eq_nil_iff.mp h.symm]
  | cons x xs ih =>
    obtain ⟨y, ys, rfl, htext, hrest⟩ := List.map_eq_cons_iff.mp h.symm
    rw [List.forall_mem_cons] at hxs hys
    rw [List.map_cons, List.map_cons, value_of_text hxs.1 hys.1 htext.symm,
      ih hxs.2 hys.2 hrest.symm]

/-! ## Two requests -/

def Field.coordinate : Field → Option Double
  | .double _ value => some value
  | _ => none

/-- The latitude and the longitude of a request; a geocoding request has neither. -/
def Request.coordinates (r : Request) : List Double := r.fields.filterMap Field.coordinate

/-- What every request sends first: its coordinates, or a name. -/
theorem Request.coordinates_first (r : Request) :
    (∃ latitude longitude rest, r.coordinates = [latitude, longitude]
      ∧ r.fields.filterMap Field.pair
        = (text "latitude", .text (Decimal.formatG latitude))
          :: (text "longitude", .text (Decimal.formatG longitude)) :: rest)
    ∨ ∃ name rest, r.coordinates = []
      ∧ r.fields.filterMap Field.pair = (text "name", .text name) :: rest := by
  cases r with
  | geocoding p => exact Or.inr ⟨p.name, _, rfl, rfl⟩
  | _ p => exact Or.inl ⟨p.latitude, p.longitude, _, rfl, rfl⟩

/-- A query string determines the texts of the coordinates. -/
theorem coordinate_texts {r s : Request} (h : r.build_query_string = s.build_query_string) :
    r.coordinates.map Decimal.formatG = s.coordinates.map Decimal.formatG := by
  have hpairs : r.fields.filterMap Field.pair = s.fields.filterMap Field.pair := by
    have hdecode := decode_build_query_string r
    rw [h, decode_build_query_string s] at hdecode
    exact (Option.some.inj hdecode).symm
  have hkeys : text "latitude" ≠ text "name" := by decide
  rcases r.coordinates_first with ⟨lat, lon, rest, hr, hrpairs⟩ | ⟨name, rest, hr, hrpairs⟩
  · rcases s.coordinates_first with ⟨lat', lon', rest', hs, hspairs⟩ | ⟨name', rest', hs, hspairs⟩
    · rw [hrpairs, hspairs] at hpairs
      simp only [List.cons.injEq, Prod.mk.injEq, true_and, Value.text.injEq] at hpairs
      rw [hr, hs]
      simp only [List.map_cons, List.map_nil, hpairs.1, hpairs.2.1]
    -- a request with coordinates and one without differ in the first key
    · rw [hrpairs, hspairs] at hpairs
      simp only [List.cons.injEq, Prod.mk.injEq] at hpairs
      exact absurd hpairs.1.1 hkeys
  · rcases s.coordinates_first with ⟨lat', lon', rest', hs, hspairs⟩ | ⟨name', rest', hs, hspairs⟩
    · rw [hrpairs, hspairs] at hpairs
      simp only [List.cons.injEq, Prod.mk.injEq] at hpairs
      exact absurd hpairs.1.1.symm hkeys
    · rw [hr, hs]

/-- **When coordinates survive serialisation.** A coordinate reads back from the
query string exactly when it is zero or nearest to a decimal of at most six
significant digits. Two requests with only such coordinates, and no others, have
coordinates that survive and never share a query string unless they agree on
them. -/
theorem coordinates_survive (x : Double) (r s : Request) :
    (SurvivesSerialisation x ↔ NearestToSixDigits x)
      ∧ ((∀ y ∈ r.coordinates ++ s.coordinates, SurvivesSerialisation y)
          ∧ (r.build_query_string = s.build_query_string →
            r.coordinates.map Double.toRat = s.coordinates.map Double.toRat)
        ↔ ∀ y ∈ r.coordinates ++ s.coordinates, NearestToSixDigits y) := by
  refine ⟨survives_iff x, ?_⟩
  constructor
  · exact fun h y hy => (survives_iff y).mp (h.1 y hy)
  · intro h
    refine ⟨fun y hy => (survives_iff y).mpr (h y hy), fun heq => ?_⟩
    rw [List.forall_mem_append] at h
    exact values_of_texts h.1 h.2 (coordinate_texts heq)

/-- A latitude just north of 10. -/
def shifted_latitude : Double := ⟨0x4024000020000000⟩

/-- Its text is that of 10, so it comes back as 10, and a request for it is a
request for 10. -/
theorem latitude_moves :
    shifted_latitude.isfinite = true ∧ shifted_latitude.toRat = 10 + 1 / 2 ^ 20
      ∧ ¬ SurvivesSerialisation shifted_latitude
      ∧ ElevationParams.build_query_string { latitude := shifted_latitude }
        = ElevationParams.build_query_string { latitude := ⟨0x4024000000000000⟩ }
      ∧ (⟨0x4024000000000000⟩ : Double).toRat = 10 := by
  have hvalue : shifted_latitude.toRat = 10 + 1 / 2 ^ 20 := by decide +kernel
  have hten : (⟨0x4024000000000000⟩ : Double).toRat = 10 := by decide +kernel
  refine ⟨by decide, hvalue, fun h => ?_, by decide +kernel, hten⟩
  obtain ⟨value, heq, r, hread, hround⟩ := h [] []
  rw [append_param_double_eq] at heq
  have hr : r = 10 := by
    rw [← List.append_cancel_left heq, percentDecode_percentEncode,
      show Decimal.formatG shifted_latitude = text "10" by decide +kernel,
      show (some (text "10")).bind Decimal.readDecimal = some 10 by decide +kernel,
      Option.some.injEq] at hread
    exact hread.symm
  have hnearest := hround.nearest ⟨0x4024000000000000⟩ (by decide)
  rw [hr, hvalue, hten] at hnearest
  norm_num at hnearest

/-! ## How far a coordinate moves -/

/-- The number that a query string has under a key. -/
def read_coordinate (query key : Bytes) : Option ℚ :=
  (decode_query query).bind fun pairs =>
    match pairs.lookup key with
    | some (.text value) => Decimal.readDecimal value
    | _ => none

/-- The texts of a request's coordinates, found by their keys. -/
theorem lookup_coordinates {r : Request} {latitude longitude : Double}
    (hr : r.coordinates = [latitude, longitude]) :
    ∃ pairs, decode_query r.build_query_string = some pairs
      ∧ pairs.lookup (text "latitude") = some (.text (Decimal.formatG latitude))
      ∧ pairs.lookup (text "longitude") = some (.text (Decimal.formatG longitude)) := by
  have hkeys : (text "longitude" == text "latitude") = false := by decide
  rcases r.coordinates_first with ⟨lat, lon, rest, hcoordinates, hpairs⟩
      | ⟨name, rest, hcoordinates, -⟩
  · rw [hr, List.cons.injEq, List.cons.injEq] at hcoordinates
    obtain ⟨rfl, rfl, -⟩ := hcoordinates
    refine ⟨_, decode_build_query_string r, ?_, ?_⟩
    · rw [hpairs, List.lookup_cons_self]
    · rw [hpairs, List.lookup_cons, hkeys, List.lookup_cons_self]
  · rw [hcoordinates] at hr
    cases hr

theorem read_coordinate_eq {r : Request} {latitude longitude : Double}
    (hr : r.coordinates = [latitude, longitude]) :
    read_coordinate r.build_query_string (text "latitude")
        = Decimal.readDecimal (Decimal.formatG latitude)
      ∧ read_coordinate r.build_query_string (text "longitude")
        = Decimal.readDecimal (Decimal.formatG longitude) := by
  obtain ⟨pairs, hdecode, hlatitude, hlongitude⟩ := lookup_coordinates hr
  rw [read_coordinate, read_coordinate, hdecode, Option.bind_some, Option.bind_some, hlatitude,
    hlongitude]
  exact ⟨rfl, rfl⟩

/-- No coordinate leaves the range that its bounds span. -/
theorem atSixDigits_range {q bound : ℚ} (hbound : Decimal.IsSixDigit bound) (hq : |q| ≤ bound) :
    |Decimal.atSixDigits q| ≤ bound := by
  obtain ⟨hlow, hhigh⟩ := abs_le.mp hq
  have hbelow := Decimal.atSixDigits_mono hlow
  have habove := Decimal.atSixDigits_mono hhigh
  rw [Decimal.atSixDigits_eq_self hbound.neg] at hbelow
  rw [Decimal.atSixDigits_eq_self hbound] at habove
  exact abs_le.mpr ⟨hbelow, habove⟩

/-! ## Sent again -/

/-- The double that a query string has under a key. -/
def read_double (query key : Bytes) : Option Double :=
  (decode_query query).bind fun pairs =>
    match pairs.lookup key with
    | some (.text value) => Decimal.readDouble value
    | _ => none

/-- The request with other coordinates; a geocoding request has none. -/
def Request.with_coordinates (latitude longitude : Double) : Request → Request
  | .forecast p => .forecast { p with latitude := latitude, longitude := longitude }
  | .historical p => .historical { p with latitude := latitude, longitude := longitude }
  | .historical_forecast p =>
    .historical_forecast { p with latitude := latitude, longitude := longitude }
  | .previous_runs p => .previous_runs { p with latitude := latitude, longitude := longitude }
  | .ensemble p => .ensemble { p with latitude := latitude, longitude := longitude }
  | .marine p => .marine { p with latitude := latitude, longitude := longitude }
  | .air_quality p => .air_quality { p with latitude := latitude, longitude := longitude }
  | .climate p => .climate { p with latitude := latitude, longitude := longitude }
  | .seasonal p => .seasonal { p with latitude := latitude, longitude := longitude }
  | .flood p => .flood { p with latitude := latitude, longitude := longitude }
  | .elevation p => .elevation { p with latitude := latitude, longitude := longitude }
  | .geocoding p => .geocoding p

/-- A query string has the texts of the coordinates, and nothing else of them. -/
theorem with_coordinates_text {r : Request} {latitude longitude lat lon : Double}
    (hr : r.coordinates = [latitude, longitude])
    (hlat : Decimal.formatG lat = Decimal.formatG latitude)
    (hlon : Decimal.formatG lon = Decimal.formatG longitude) :
    (r.with_coordinates lat lon).build_query_string = r.build_query_string
      ∧ (r.with_coordinates lat lon).coordinates = [lat, lon] := by
  cases r with
  | geocoding p => cases (show ([] : List Double) = [latitude, longitude] from hr)
  | _ p =>
    have hcoordinates : [p.latitude, p.longitude] = [latitude, longitude] := hr
    rw [List.cons.injEq, List.cons.injEq] at hcoordinates
    obtain ⟨rfl, rfl, -⟩ := hcoordinates
    refine ⟨?_, rfl⟩
    simp only [Request.with_coordinates, Request.build_query_string,
      ForecastParams.build_query_string, HistoricalParams.build_query_string,
      HistoricalForecastParams.build_query_string, PreviousRunsParams.build_query_string,
      EnsembleParams.build_query_string, MarineParams.build_query_string,
      AirQualityParams.build_query_string, ClimateParams.build_query_string,
      SeasonalParams.build_query_string, FloodParams.build_query_string,
      ElevationParams.build_query_string, append_param_double, hlat, hlon]

/-- What a query string has for the coordinates, read as doubles: nearest to their six
digits, and written as they were. -/
theorem read_doubles {r : Request} {latitude longitude : Double}
    (hr : r.coordinates = [latitude, longitude])
    (hfinite : ∀ x ∈ [latitude, longitude], x.isfinite = true)
    (hsize : ∀ x ∈ [latitude, longitude], x.toRat = 0 ∨ 1 / 2 ^ 1021 ≤ |x.toRat|) :
    ∃ lat lon, read_double r.build_query_string (text "latitude") = some lat
      ∧ read_double r.build_query_string (text "longitude") = some lon
      ∧ Double.RoundsTo (Decimal.atSixDigits latitude.toRat) lat
      ∧ Double.RoundsTo (Decimal.atSixDigits longitude.toRat) lon
      ∧ Decimal.formatG lat = Decimal.formatG latitude
      ∧ Decimal.formatG lon = Decimal.formatG longitude := by
  have hlast : longitude ∈ [latitude, longitude] := List.mem_cons_of_mem _ List.mem_cons_self
  obtain ⟨lat, hlat, hlatround, hlattext⟩ :=
    Decimal.readDouble_formatG (hfinite latitude List.mem_cons_self)
      (hsize latitude List.mem_cons_self)
  obtain ⟨lon, hlon, hlonround, hlontext⟩ :=
    Decimal.readDouble_formatG (hfinite longitude hlast) (hsize longitude hlast)
  obtain ⟨pairs, hdecode, hlatitude, hlongitude⟩ := lookup_coordinates hr
  refine ⟨lat, lon, ?_, ?_, hlatround, hlonround, hlattext, hlontext⟩
  · rw [read_double, hdecode, Option.bind_some, hlatitude]
    exact hlat
  · rw [read_double, hdecode, Option.bind_some, hlongitude]
    exact hlon

/-- Among the subnormal numbers a text need not settle: this double is read as its
neighbour, which is written differently. -/
example : Decimal.formatG ⟨202403⟩ = text "1e-318"
    ∧ Decimal.readDouble (text "1e-318") = some ⟨202402⟩
    ∧ Decimal.formatG ⟨202402⟩ = text "9.99999e-319" := by decide +kernel

/-- **How far a coordinate moves.** What a request with finite coordinates says is each of
them rounded to six significant digits. Read as doubles and sent again, the coordinates
say the same, if they are zero or not next to the subnormal numbers. The rounded number
is a decimal of six digits, and no other such decimal is nearer: it is off by at most half
a unit of the sixth digit, which below 100 degrees is 0.00005 and below 1000 degrees
0.0005, and it never crosses another coordinate or leaves the range. -/
theorem coordinates_rounded :
    (∀ (r : Request) (latitude longitude : Double), r.coordinates = [latitude, longitude] →
      latitude.isfinite = true → longitude.isfinite = true →
        read_coordinate r.build_query_string (text "latitude")
            = some (Decimal.atSixDigits latitude.toRat)
          ∧ read_coordinate r.build_query_string (text "longitude")
            = some (Decimal.atSixDigits longitude.toRat)
          ∧ ((∀ x ∈ [latitude, longitude], x.toRat = 0 ∨ 1 / 2 ^ 1021 ≤ |x.toRat|) →
            ∃ lat lon, read_double r.build_query_string (text "latitude") = some lat
              ∧ read_double r.build_query_string (text "longitude") = some lon
              ∧ Double.RoundsTo (Decimal.atSixDigits latitude.toRat) lat
              ∧ Double.RoundsTo (Decimal.atSixDigits longitude.toRat) lon
              ∧ (r.with_coordinates lat lon).coordinates = [lat, lon]
              ∧ read_coordinate (r.with_coordinates lat lon).build_query_string (text "latitude")
                  = some (Decimal.atSixDigits latitude.toRat)
              ∧ read_coordinate (r.with_coordinates lat lon).build_query_string (text "longitude")
                  = some (Decimal.atSixDigits longitude.toRat)))
      ∧ (∀ q, Decimal.IsSixDigit (Decimal.atSixDigits q)
          ∧ ∀ d, Decimal.IsSixDigit d → |Decimal.atSixDigits q - q| ≤ |d - q|)
      ∧ (∀ q (k : ℤ), |q| < 10 ^ k → |Decimal.atSixDigits q - q| ≤ 10 ^ (k - 6) / 2)
      ∧ (∀ q, |q| < 100 → |Decimal.atSixDigits q - q| ≤ 5 / 100000)
      ∧ (∀ q, |q| < 1000 → |Decimal.atSixDigits q - q| ≤ 5 / 10000)
      ∧ Monotone Decimal.atSixDigits
      ∧ (∀ q, |q| ≤ 90 → |Decimal.atSixDigits q| ≤ 90)
      ∧ ∀ q, |q| ≤ 180 → |Decimal.atSixDigits q| ≤ 180 := by
  have herror : ∀ q (k : ℤ), |q| < 10 ^ k → |Decimal.atSixDigits q - q| ≤ 10 ^ (k - 6) / 2 :=
    fun q k hk => Decimal.atSixDigits_error hk
  refine ⟨fun r latitude longitude hr hlat hlon => ?_, fun q => ?_, herror, fun q hq => ?_,
    fun q hq => ?_, Decimal.atSixDigits_mono, fun q hq => ?_, fun q hq => ?_⟩
  · obtain ⟨hlatitude, hlongitude⟩ := read_coordinate_eq hr
    rw [Decimal.readDecimal_formatG hlat] at hlatitude
    rw [Decimal.readDecimal_formatG hlon] at hlongitude
    refine ⟨hlatitude, hlongitude, fun hsize => ?_⟩
    have hfinite : ∀ x ∈ [latitude, longitude], x.isfinite = true := by
      simp only [List.mem_cons, List.not_mem_nil, or_false]
      rintro x (rfl | rfl)
      · exact hlat
      · exact hlon
    obtain ⟨lat, lon, hreadlat, hreadlon, hlatround, hlonround, hlattext, hlontext⟩ :=
      read_doubles hr hfinite hsize
    -- the second query string is the first one
    obtain ⟨hquery, hcoordinates⟩ := with_coordinates_text hr hlattext hlontext
    refine ⟨lat, lon, hreadlat, hreadlon, hlatround, hlonround, hcoordinates, ?_, ?_⟩
    · rw [hquery]
      exact hlatitude
    · rw [hquery]
      exact hlongitude
  · exact ⟨Decimal.isSixDigit_atSixDigits q, fun d hd => Decimal.atSixDigits_nearest q hd⟩
  · refine (herror q 2 (by norm_num; exact hq)).trans ?_
    norm_num
  · refine (herror q 3 (by norm_num; exact hq)).trans ?_
    norm_num
  · exact atSixDigits_range ⟨90, 0, by norm_num, by norm_num⟩ hq
  · exact atSixDigits_range ⟨180, 0, by norm_num, by norm_num⟩ hq

/-- **Coordinates settle**: they move the first time they are sent, and never again.
What a query string has for a latitude and a longitude, read as doubles, makes the
same query string, and survives, for coordinates that are zero or not next to the
subnormal numbers. -/
theorem coordinates_settle (r : Request) {latitude longitude : Double}
    (hr : r.coordinates = [latitude, longitude])
    (hfinite : ∀ x ∈ [latitude, longitude], x.isfinite = true)
    (hsize : ∀ x ∈ [latitude, longitude], x.toRat = 0 ∨ 1 / 2 ^ 1021 ≤ |x.toRat|) :
    ∃ lat lon, read_double r.build_query_string (text "latitude") = some lat
      ∧ read_double r.build_query_string (text "longitude") = some lon
      ∧ (r.with_coordinates lat lon).build_query_string = r.build_query_string
      ∧ (r.with_coordinates lat lon).coordinates = [lat, lon]
      ∧ SurvivesSerialisation lat ∧ SurvivesSerialisation lon := by
  obtain ⟨lat, lon, hlat, hlon, hlatround, hlonround, hlattext, hlontext⟩ :=
    read_doubles hr hfinite hsize
  obtain ⟨hquery, hcoordinates⟩ := with_coordinates_text hr hlattext hlontext
  have hsurvives : ∀ {x y : Double}, Double.RoundsTo (Decimal.atSixDigits x.toRat) y →
      SurvivesSerialisation y :=
    fun hround => (survives_iff _).mpr ⟨_, Decimal.isSixDigit_atSixDigits _, hround⟩
  exact ⟨lat, lon, hlat, hlon, hquery, hcoordinates, hsurvives hlatround, hsurvives hlonround⟩

/-- A latitude just north of 10, at a longitude of minus zero, is read as 10. -/
theorem coordinates_settle_north :
    read_double (Request.elevation ⟨⟨0x4024000020000000⟩, ⟨0x8000000000000000⟩⟩).build_query_string
        (text "latitude") = some ⟨0x4024000000000000⟩
      ∧ ∃ lat lon,
        ((Request.elevation ⟨⟨0x4024000020000000⟩, ⟨0x8000000000000000⟩⟩).with_coordinates
            lat lon).build_query_string = text "?latitude=10&longitude=-0"
          ∧ SurvivesSerialisation lat ∧ SurvivesSerialisation lon := by
  refine ⟨by decide +kernel, ?_⟩
  obtain ⟨lat, lon, -, -, hquery, -, hlat, hlon⟩ := coordinates_settle
    (.elevation ⟨⟨0x4024000020000000⟩, ⟨0x8000000000000000⟩⟩) rfl (by decide +kernel)
    (by decide +kernel)
  exact ⟨lat, lon, hquery.trans (by decide +kernel), hlat, hlon⟩

end OpenMeteo
