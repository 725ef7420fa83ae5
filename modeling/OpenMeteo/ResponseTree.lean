/-
Responses and the JSON trees that say them.

The deserializers of weather responses accept every object and look at what they know
of it. `tree` is the plainest object that says what a response says: the members that
are there, numbers as numbers and NaN as null, and a block as its arrays. Reading it
gives the response back, if the response is well formed; and every response that is
read, from whatever object, is well formed. So one reading loses what a body has
beyond its response, and no second one loses any more. What is lost is what nobody
looks at: the order of the members, and the members without a known key.
-/
import OpenMeteo.Lib.DoubleNearest
import OpenMeteo.Timeseries

set_option autoImplicit false

namespace OpenMeteo

/-! ## Well-formed responses -/

/-- What the two maps of a block may hold for a variable. -/
structure SeriesSound (key : Bytes) (series : Option (List Double) × Option (List Bytes)) :
    Prop where
  no_time : key = text "time" → series = (none, none)
  apart : series.1 = none ∨ series.2 = none
  not_empty : series.2 ≠ some []

/-- A block whose two maps hold what a reading can leave in them. -/
def TimeseriesData.WellFormed (ts : TimeseriesData) : Prop :=
  ∀ key, SeriesSound key (ts.series key)

/-- Only the offset is restricted: it is a C++ `int`, the other numbers are doubles. -/
def Location.WellFormed (loc : Location) : Prop :=
  int_min ≤ loc.utc_offset_seconds ∧ loc.utc_offset_seconds ≤ int_max

/-- The blocks of a response, with their keys. -/
def SeasonalResponse.blocks (r : SeasonalResponse) : List (Bytes × Option TimeseriesData) :=
  [(text "hourly", r.hourly), (text "daily", r.daily), (text "current", r.current),
    (text "six_hourly", r.six_hourly), (text "weekly", r.weekly), (text "monthly", r.monthly)]

/-- The units of a response, with their keys. -/
def SeasonalResponse.units (r : SeasonalResponse) : List (Bytes × Option (UnorderedMap Bytes)) :=
  [(text "hourly_units", r.hourly_units), (text "daily_units", r.daily_units),
    (text "current_units", r.current_units), (text "six_hourly_units", r.six_hourly_units),
    (text "weekly_units", r.weekly_units), (text "monthly_units", r.monthly_units)]

/-- The units are not restricted: any map of strings can be read. -/
structure SeasonalResponse.WellFormed (r : SeasonalResponse) : Prop where
  location : r.toLocation.WellFormed
  blocks : ∀ e ∈ r.blocks, ∀ ts, e.2 = some ts → ts.WellFormed

/-! ## Trees -/

/-- JSON has no NaN. -/
def number_tree (x : Double) : Generic := if x = Double.quiet_NaN then .null else .number x

/-- A series of numbers, empty ones included. -/
def numbers_tree (series : List Double) : Generic := .array (series.map number_tree)

/-- A series of texts. An empty one would be read as a series of numbers. -/
def strings_tree (series : List Bytes) : Generic := .array (series.map .string)

/-- The times first, then the numeric and the textual variables. -/
def TimeseriesData.members (ts : TimeseriesData) : List (Bytes × Generic) :=
  (text "time", strings_tree ts.time)
    :: (ts.values.entries.map fun e => (e.1, numbers_tree e.2))
      ++ ts.string_values.entries.map fun e => (e.1, strings_tree e.2)

def TimeseriesData.tree (ts : TimeseriesData) : Generic := .object ts.members

/-- A block of units, a text for each variable. -/
def units_tree (units : UnorderedMap Bytes) : Generic :=
  .object (units.entries.map fun e => (e.1, .string e.2))

/-- The seven members of a location, always written. -/
def Location.members (loc : Location) : List (Bytes × Generic) :=
  [(text "latitude", .number loc.latitude), (text "longitude", .number loc.longitude),
    (text "elevation", .number loc.elevation),
    (text "generationtime_ms", .number loc.generationtime_ms),
    (text "utc_offset_seconds", .number (Double.ofInt loc.utc_offset_seconds)),
    (text "timezone", .string loc.timezone),
    (text "timezone_abbreviation", .string loc.timezone_abbreviation)]

/-- The members of a response, those included that are not there. -/
def SeasonalResponse.slots (r : SeasonalResponse) : List (Bytes × Option Generic) :=
  (r.toLocation.members.map fun e => (e.1, some e.2))
    ++ (r.blocks.map fun e => (e.1, e.2.map TimeseriesData.tree))
    ++ r.units.map fun e => (e.1, e.2.map units_tree)

/-- The object of a response: the slots that are filled. -/
def SeasonalResponse.tree (r : SeasonalResponse) : Generic := .object (AssocMap.present r.slots)

/-! ## Reading a block -/

/-- A null is read as a NaN, so a NaN comes back too. -/
theorem number_or_nan_tree (x : Double) : number_or_nan (number_tree x) = x := by
  unfold number_tree
  by_cases hx : x = Double.quiet_NaN
  · rw [if_pos hx, hx]
    rfl
  · rw [if_neg hx]
    rfl

/-- An array of numbers and nulls has no string to be taken for a series of texts, by
induction on the array. -/
theorem numbers_tree_not_strings (series : List Double) :
    is_string_array (series.map number_tree) = false := by
  induction series with
  | nil => rfl
  | cons x rest ih =>
    rw [List.map_cons, number_tree]
    split
    · exact ih
    · rfl

/-- A series of numbers is stored as it was written, where its key is new. -/
theorem add_array_numbers {ts : TimeseriesData} {key : Bytes} (hkey : key ≠ text "time")
    (hfresh : ts.values.find? key = none) (series : List Double) :
    add_array ts key (numbers_tree series) = { ts with values := ts.values.set key series } := by
  unfold add_array numbers_tree
  rw [if_neg hkey]
  cases series with
  | nil => rfl
  | cons x rest =>
    have hback : ((x :: rest).map number_tree).map number_or_nan = x :: rest := by
      rw [List.map_map]
      exact (List.map_congr_left fun x _ => number_or_nan_tree x).trans (List.map_id _)
    have hkind := numbers_tree_not_strings (x :: rest)
    rw [List.map_cons] at hback hkind ⊢
    simp only [hkind, hfresh, hback, Option.getD_none, List.nil_append, Bool.false_eq_true,
      if_false]

/-- Likewise a series of texts, if it has any: one string decides the kind. -/
theorem add_array_strings {ts : TimeseriesData} {key : Bytes} (hkey : key ≠ text "time")
    (hfresh : ts.string_values.find? key = none) {series : List Bytes} (hne : series ≠ []) :
    add_array ts key (strings_tree series)
      = { ts with string_values := ts.string_values.set key series } := by
  unfold add_array strings_tree
  rw [if_neg hkey]
  cases series with
  | nil => exact absurd rfl hne
  | cons s rest =>
    have hback : ((s :: rest).map Generic.string).map string_or_empty = s :: rest := by
      rw [List.map_map]
      exact List.map_id _
    have hkind : is_string_array ((s :: rest).map Generic.string) = true := rfl
    rw [List.map_cons] at hback hkind ⊢
    simp only [hkind, hfresh, hback, Option.getD_none, List.nil_append, if_true]

/-- The keys of the two maps of a well-formed block. -/
theorem TimeseriesData.WellFormed.key_ne {ts : TimeseriesData} (h : ts.WellFormed) {key : Bytes}
    (hkey : ts.values.find? key ≠ none ∨ ts.string_values.find? key ≠ none) :
    key ≠ text "time" := by
  intro htime
  obtain ⟨hvalues, hstrings⟩ := Prod.mk.inj ((h key).no_time htime)
  rcases hkey with hkey | hkey
  · exact hkey hvalues
  · exact hkey hstrings

/-- **A block is read back.** -/
theorem populate_tree {ts : TimeseriesData} (h : ts.WellFormed) :
    populate_timeseries_from_generic ts.tree {} = ts := by
  have htime : ts.members.lookup (text "time") = some (strings_tree ts.time) :=
    List.lookup_cons_self
  have htimes : (ts.time.map Generic.string).map string_or_empty = ts.time := by
    rw [List.map_map]
    exact List.map_id _
  have hskip : ∀ val, add_array { time := ts.time } (text "time") val = { time := ts.time } :=
    fun val => if_pos rfl
  have hnumbers := AssocMap.foldl_fill TimeseriesData.values
    (fun s m => { s with values := m }) (fun _ _ => rfl) (fun _ _ _ => rfl) ts.values.entries
    (fun s e he hfresh => add_array_numbers (h.key_ne (Or.inl (by
      rw [AssocMap.find?_of_mem he]
      exact Option.some_ne_none _))) hfresh e.2)
    { time := ts.time } AssocMap.empty ts.values rfl rfl
  have hstrings := AssocMap.foldl_fill TimeseriesData.string_values
    (fun s m => { s with string_values := m }) (fun _ _ => rfl) (fun _ _ _ => rfl)
    ts.string_values.entries
    (fun s e he hfresh => add_array_strings (h.key_ne (Or.inr (by
      rw [AssocMap.find?_of_mem he]
      exact Option.some_ne_none _))) hfresh (by
      rintro hempty
      have hfind := AssocMap.find?_of_mem he
      rw [hempty] at hfind
      exact (h e.1).not_empty hfind))
    { time := ts.time, values := ts.values } AssocMap.empty ts.string_values rfl rfl
  -- the times, then all numeric series, then all textual ones
  rw [TimeseriesData.tree, populate_timeseries_from_generic, htime, strings_tree]
  dsimp only
  rw [htimes, List.nil_append, TimeseriesData.members, List.cons_append, List.foldl_cons, hskip,
    List.foldl_append, hnumbers, hstrings]

/-- A member of a block of units. -/
def add_unit (units : UnorderedMap Bytes) (key : Bytes) (val : Generic) : UnorderedMap Bytes :=
  match val with
  | .string value => units.set key value
  | _ => units

/-- A block of units is read back. -/
theorem read_units_tree (units : UnorderedMap Bytes) :
    (units.entries.map fun e => (e.1, Generic.string e.2)).foldl
      (fun units member => add_unit units member.1 member.2) AssocMap.empty = units :=
  AssocMap.foldl_fill id (fun _ m => m) (fun _ _ => rfl) (fun _ _ _ => rfl) units.entries
    (fun _ _ _ _ => rfl) AssocMap.empty AssocMap.empty units rfl rfl

/-! ## Reading a response -/

/-- The keys of the slots are the same nineteen for every response. -/
theorem slots_nodup (r : SeasonalResponse) : (r.slots.map Prod.fst).Nodup := by
  have hkeys : r.slots.map Prod.fst
      = (({} : SeasonalResponse).slots).map Prod.fst := rfl
  rw [hkeys]
  decide

/-- A slot is found by its key, and an empty one is not. -/
theorem lookup_slot {r : SeasonalResponse} {key : Bytes} {o : Option Generic}
    (hslot : (key, o) ∈ r.slots) : (AssocMap.present r.slots).lookup key = o := by
  have hfind := AssocMap.find?_of_mem (m := ⟨r.slots, slots_nodup r⟩) hslot
  rw [AssocMap.find?_eq_lookup] at hfind
  rw [AssocMap.lookup_present (slots_nodup r), hfind, Option.join_some]

/-- A block of a response is read back from its slot. -/
theorem extract_block {r : SeasonalResponse} (h : r.WellFormed) {key : Bytes}
    {block : Option TimeseriesData} (he : (key, block) ∈ r.blocks) :
    extract_timeseries r.tree key = block := by
  have hslot : (key, block.map TimeseriesData.tree) ∈ r.slots :=
    List.mem_append_left _ (List.mem_append_right _ (List.mem_map.mpr ⟨(key, block), he, rfl⟩))
  unfold extract_timeseries SeasonalResponse.tree
  dsimp only
  rw [lookup_slot hslot]
  cases block with
  | none => rfl
  | some ts => exact congrArg some (populate_tree (h.blocks _ he ts rfl))

/-- And so are its units, well formed or not. -/
theorem extract_units {r : SeasonalResponse} {key : Bytes} {units : Option (UnorderedMap Bytes)}
    (he : (key, units) ∈ r.units) : extract_units_map r.tree key = units := by
  have hslot : (key, units.map units_tree) ∈ r.slots :=
    List.mem_append_right _ (List.mem_map.mpr ⟨(key, units), he, rfl⟩)
  unfold extract_units_map SeasonalResponse.tree
  dsimp only
  rw [lookup_slot hslot]
  cases units with
  | none => rfl
  | some units => exact congrArg some (read_units_tree units)

/-- An `int` comes back from the double it is written as. -/
theorem int_of_double_ofInt {n : ℤ} (hmin : int_min ≤ n) (hmax : n ≤ int_max) :
    (Double.ofInt n).isfinite = true ∧ (Double.ofInt n).toRat = n
      ∧ int_of_double (Double.ofInt n) = n := by
  unfold int_min at hmin
  unfold int_max at hmax
  obtain ⟨hfinite, hvalue⟩ := Double.ofInt_spec (n := n) (by omega)
  refine ⟨hfinite, hvalue, ?_⟩
  rw [int_of_double, hvalue, Int.floor_intCast, Int.ceil_intCast, ite_self]

/-- **A location is read back**, member by member. -/
theorem populate_location_tree {r : SeasonalResponse} (h : r.toLocation.WellFormed) :
    populate_location_from_generic r.tree {} = r.toLocation := by
  obtain ⟨hfinite, hvalue, hint⟩ := int_of_double_ofInt h.1 h.2
  have hrange : (Double.ofInt r.utc_offset_seconds).isfinite = true
      ∧ (int_min : ℚ) ≤ (Double.ofInt r.utc_offset_seconds).toRat
      ∧ (Double.ofInt r.utc_offset_seconds).toRat ≤ (int_max : ℚ) := by
    rw [hvalue]
    exact ⟨hfinite, by exact_mod_cast h.1, by exact_mod_cast h.2⟩
  have hmember : ∀ {key : Bytes} {value : Generic}, (key, value) ∈ r.toLocation.members →
      (AssocMap.present r.slots).lookup key = some value := fun hmem =>
    lookup_slot (List.mem_append_left _ (List.mem_append_left _ (List.mem_map.mpr ⟨_, hmem, rfl⟩)))
  have hlatitude : (AssocMap.present r.slots).lookup (text "latitude")
      = some (.number r.latitude) := hmember (by simp [Location.members])
  have hlongitude : (AssocMap.present r.slots).lookup (text "longitude")
      = some (.number r.longitude) := hmember (by simp [Location.members])
  have helevation : (AssocMap.present r.slots).lookup (text "elevation")
      = some (.number r.elevation) := hmember (by simp [Location.members])
  have htook : (AssocMap.present r.slots).lookup (text "generationtime_ms")
      = some (.number r.generationtime_ms) := hmember (by simp [Location.members])
  have hoffset : (AssocMap.present r.slots).lookup (text "utc_offset_seconds")
      = some (.number (Double.ofInt r.utc_offset_seconds)) := hmember (by simp [Location.members])
  have hzone : (AssocMap.present r.slots).lookup (text "timezone")
      = some (.string r.timezone) := hmember (by simp [Location.members])
  have habbreviation : (AssocMap.present r.slots).lookup (text "timezone_abbreviation")
      = some (.string r.timezone_abbreviation) := hmember (by simp [Location.members])
  unfold populate_location_from_generic SeasonalResponse.tree
  -- one member after the other
  dsimp -zeta only
  extract_lets l1 l2 l3 l4 l5 l6
  have h1 : l1 = { latitude := r.latitude } := by simp only [l1, hlatitude]
  have h2 : l2 = { l1 with longitude := r.longitude } := by simp only [l2, hlongitude]
  have h3 : l3 = { l2 with elevation := r.elevation } := by simp only [l3, helevation]
  have h4 : l4 = { l3 with generationtime_ms := r.generationtime_ms } := by simp only [l4, htook]
  have h5 : l5 = { l4 with utc_offset_seconds := r.utc_offset_seconds } := by
    simp only [l5, hoffset, if_pos hrange, hint]
  have h6 : l6 = { l5 with timezone := r.timezone } := by simp only [l6, hzone]
  simp only [habbreviation, h6, h5, h4, h3, h2, h1]

/-- What the deserializers make of an object. -/
def SeasonalResponse.ReadFrom (r : SeasonalResponse) (root : Generic) : Prop :=
  ∀ (glaze : Glaze) (body : Bytes), glaze.read_generic body = .ok root →
    (∀ out, deserialize_seasonal_response glaze body out = (.ok (), r))
      ∧ (∀ out, deserialize_weather_response glaze body out = (.ok (), r.toWeatherResponse))
      ∧ ∀ out, deserialize_location glaze body out = (.ok (), r.toLocation)

/-- All that is read of a tree. -/
def read_response (root : Generic) : SeasonalResponse where
  toLocation := populate_location_from_generic root {}
  hourly := extract_timeseries root (text "hourly")
  daily := extract_timeseries root (text "daily")
  current := extract_timeseries root (text "current")
  hourly_units := extract_units_map root (text "hourly_units")
  daily_units := extract_units_map root (text "daily_units")
  current_units := extract_units_map root (text "current_units")
  six_hourly := extract_timeseries root (text "six_hourly")
  weekly := extract_timeseries root (text "weekly")
  monthly := extract_timeseries root (text "monthly")
  six_hourly_units := extract_units_map root (text "six_hourly_units")
  weekly_units := extract_units_map root (text "weekly_units")
  monthly_units := extract_units_map root (text "monthly_units")

/-- Each block is read from its key. -/
theorem read_blocks (root : Generic) :
    (read_response root).blocks = (({} : SeasonalResponse).blocks.map Prod.fst).map
      fun key => (key, extract_timeseries root key) := rfl

/-- And each map of units from its own. -/
theorem read_units (root : Generic) :
    (read_response root).units = (({} : SeasonalResponse).units.map Prod.fst).map
      fun key => (key, extract_units_map root key) := rfl

/-- The three deserializers read the same of an object. -/
theorem readFrom_read_response {root : Generic} (hobject : root.is_object = true) :
    (read_response root).ReadFrom root := by
  intro glaze body hbody
  refine ⟨fun out => ?_, fun out => ?_, fun out => ?_⟩
  · unfold deserialize_seasonal_response
    rw [hbody]
    exact if_neg (not_not.mpr hobject)
  · unfold deserialize_weather_response
    rw [hbody]
    exact if_neg (not_not.mpr hobject)
  · unfold deserialize_location
    rw [hbody]
    exact if_neg (not_not.mpr hobject)

/-- Nothing else is read from a tree. -/
theorem eq_of_readFrom {r : SeasonalResponse} {root : Generic} (h : r.ReadFrom root) :
    r = read_response root := by
  let glaze : Glaze := ⟨fun _ => .ok root, fun _ => .error [], fun _ => .error []⟩
  have hbody : glaze.read_generic [] = .ok root := rfl
  have hread := (h glaze [] hbody).1 {}
  by_cases hobject : root.is_object = true
  · rw [(readFrom_read_response hobject glaze [] hbody).1 {}] at hread
    exact (Prod.mk.inj hread).2.symm
  · unfold deserialize_seasonal_response at hread
    rw [hbody] at hread
    dsimp only at hread
    rw [if_pos hobject] at hread
    cases (Prod.mk.inj hread).1

/-- **A response is read back.** -/
theorem read_response_tree {r : SeasonalResponse} (h : r.WellFormed) : read_response r.tree = r := by
  have hblock : ∀ {key : Bytes} {block : Option TimeseriesData}, (key, block) ∈ r.blocks →
      extract_timeseries r.tree key = block := extract_block h
  have hunits : ∀ {key : Bytes} {units : Option (UnorderedMap Bytes)}, (key, units) ∈ r.units →
      extract_units_map r.tree key = units := extract_units
  unfold read_response
  rw [populate_location_tree h.location, hblock (List.mem_of_getElem? (i := 0) rfl),
    hblock (List.mem_of_getElem? (i := 1) rfl), hblock (List.mem_of_getElem? (i := 2) rfl),
    hblock (List.mem_of_getElem? (i := 3) rfl), hblock (List.mem_of_getElem? (i := 4) rfl),
    hblock (List.mem_of_getElem? (i := 5) rfl), hunits (List.mem_of_getElem? (i := 0) rfl),
    hunits (List.mem_of_getElem? (i := 1) rfl), hunits (List.mem_of_getElem? (i := 2) rfl),
    hunits (List.mem_of_getElem? (i := 3) rfl), hunits (List.mem_of_getElem? (i := 4) rfl),
    hunits (List.mem_of_getElem? (i := 5) rfl)]

/-- Likewise through each of the three deserializers. -/
theorem deserialize_tree {r : SeasonalResponse} (h : r.WellFormed) : r.ReadFrom r.tree := by
  have hread := readFrom_read_response (show r.tree.is_object = true from rfl)
  rwa [read_response_tree h] at hread

/-! ## What can be read -/

/-- The keys of an object are distinct. Of a response only its blocks are walked. -/
def Generic.DistinctBlocks : Generic → Prop
  | .object members => ∀ key block, members.lookup key = some (.object block) →
    (block.map Prod.fst).Nodup
  | _ => True

theorem SeriesSound.nothing (key : Bytes) : SeriesSound key (none, none) :=
  ⟨fun _ => rfl, Or.inl rfl, Option.some_ne_none [] ∘ Eq.symm⟩

theorem SeriesSound.numbers {key : Bytes} (hkey : key ≠ text "time") (series : List Double) :
    SeriesSound key (some series, none) :=
  ⟨fun h => absurd h hkey, Or.inr rfl, Option.some_ne_none [] ∘ Eq.symm⟩

theorem SeriesSound.strings {key : Bytes} (hkey : key ≠ text "time") {series : List Bytes}
    (hne : series ≠ []) : SeriesSound key (none, some series) :=
  ⟨fun h => absurd h hkey, Or.inl rfl, hne ∘ Option.some.inj⟩

/-- What an array adds for its key is sound. -/
theorem added_series_sound (key : Bytes) (val : Generic) :
    SeriesSound key (added_series key val) := by
  unfold added_series
  split
  · next arr =>
    by_cases hkey : key = text "time"
    · rw [if_pos hkey]
      exact SeriesSound.nothing key
    · rw [if_neg hkey]
      by_cases hstring : is_string_array arr = true
      · rw [if_pos hstring]
        -- an empty array is no string array
        refine SeriesSound.strings hkey fun hempty => ?_
        rw [List.map_eq_nil_iff.mp hempty] at hstring
        cases hstring
      · rw [if_neg hstring]
        exact SeriesSound.numbers hkey _
  · exact SeriesSound.nothing key

/-- What a scalar adds for a key of its own is sound. -/
theorem add_scalar_sound {ts : TimeseriesData} {key : Bytes} (hfresh : ts.series key = (none, none))
    (val : Generic) : SeriesSound key ((add_scalar ts key val).series key) := by
  obtain ⟨hvalues, hstrings⟩ := Prod.mk.inj hfresh
  have hnothing : SeriesSound key (ts.series key) := by
    rw [hfresh]
    exact SeriesSound.nothing key
  unfold add_scalar
  by_cases hkey : key = text "time"
  · rw [if_pos hkey]
    exact hnothing
  · rw [if_neg hkey]
    split
    · simp only [TimeseriesData.series, AssocMap.find?_set_self, hstrings]
      exact SeriesSound.numbers hkey _
    · simp only [TimeseriesData.series, AssocMap.find?_set_self, hstrings]
      exact SeriesSound.numbers hkey _
    · simp only [TimeseriesData.series, AssocMap.find?_set_self, hvalues]
      exact SeriesSound.strings hkey (List.cons_ne_nil _ _)
    · exact hnothing

/-- **What is read of a block is well formed.** -/
theorem populate_wellFormed {block : List (Bytes × Generic)} (hnodup : (block.map Prod.fst).Nodup) :
    (populate_timeseries_from_generic (.object block) {}).WellFormed := by
  have harrays : ∀ times : List Bytes, TimeseriesData.WellFormed
      (block.foldl (fun ts member => add_array ts member.1 member.2) { time := times }) := by
    intro times key
    rw [foldl_add_array_series ⟨block, hnodup⟩ times key]
    split
    · exact added_series_sound key _
    · exact SeriesSound.nothing key
  unfold populate_timeseries_from_generic
  dsimp only
  split
  -- a single text as the time: the members are scalars, each walked once
  · intro key
    rw [add_scalar_local.foldl_view block hnodup]
    split
    · exact add_scalar_sound rfl _
    · exact SeriesSound.nothing key
  · exact harrays _
  · exact harrays _

/-- Every block that is read is well formed. -/
theorem extract_wellFormed {root : Generic} (hroot : root.DistinctBlocks) {key : Bytes}
    {ts : TimeseriesData} (h : extract_timeseries root key = some ts) : ts.WellFormed := by
  unfold extract_timeseries at h
  split at h
  · next members =>
    split at h
    · next block hblock =>
      rw [← Option.some.inj h]
      exact populate_wellFormed (hroot key block hblock)
    · cases h
  · cases h

/-- A double within the range of `int` is truncated to an `int`. -/
theorem int_of_double_range {x : Double} (hmin : (int_min : ℚ) ≤ x.toRat)
    (hmax : x.toRat ≤ (int_max : ℚ)) : int_min ≤ int_of_double x ∧ int_of_double x ≤ int_max := by
  unfold int_of_double
  split
  · exact ⟨Int.le_floor.mpr hmin, by exact_mod_cast (Int.floor_le _).trans hmax⟩
  · exact ⟨by exact_mod_cast hmin.trans (Int.le_ceil _), Int.ceil_le.mpr hmax⟩

/-- **What is read of a location is well formed.** -/
theorem populate_location_wellFormed (root : Generic) :
    (populate_location_from_generic root {}).WellFormed := by
  have hnew : Location.WellFormed {} := by
    unfold Location.WellFormed
    decide
  unfold populate_location_from_generic
  split
  · -- only one of the members is the offset
    extract_lets l1 l2 l3 l4 l5 l6
    have h1 : l1.WellFormed := by
      simp only [l1]
      split
      · exact hnew
      · exact hnew
    have h2 : l2.WellFormed := by
      simp only [l2]
      split
      · exact h1
      · exact h1
    have h3 : l3.WellFormed := by
      simp only [l3]
      split
      · exact h2
      · exact h2
    have h4 : l4.WellFormed := by
      simp only [l4]
      split
      · exact h3
      · exact h3
    have h5 : l5.WellFormed := by
      simp only [l5]
      split
      · split
        · next hrange => exact int_of_double_range hrange.2.1 hrange.2.2
        · exact h4
      · exact h4
    have h6 : l6.WellFormed := by
      simp only [l6]
      split
      · exact h5
      · exact h5
    split
    · exact h6
    · exact h6
  · exact hnew

/-- The members of a well-formed block have keys of their own. -/
theorem members_nodup {ts : TimeseriesData} (h : ts.WellFormed) :
    (ts.members.map Prod.fst).Nodup := by
  have hvalues : ∀ e ∈ ts.values.entries, ts.values.find? e.1 ≠ none := by
    intro e he
    rw [AssocMap.find?_of_mem he]
    exact Option.some_ne_none _
  have hstrings : ∀ e ∈ ts.string_values.entries, ts.string_values.find? e.1 ≠ none := by
    intro e he
    rw [AssocMap.find?_of_mem he]
    exact Option.some_ne_none _
  have hkeys : ts.members.map Prod.fst = text "time" :: (ts.values.entries.map Prod.fst
      ++ ts.string_values.entries.map Prod.fst) := by
    simp only [TimeseriesData.members, List.cons_append, List.map_cons, List.map_append,
      List.map_map, Function.comp_def]
  rw [hkeys]
  refine List.nodup_cons.mpr ⟨fun hmem => ?_, ?_⟩
  · rcases List.mem_append.mp hmem with hmem | hmem
    · obtain ⟨e, he, heq⟩ := List.mem_map.mp hmem
      exact h.key_ne (Or.inl (hvalues e he)) heq
    · obtain ⟨e, he, heq⟩ := List.mem_map.mp hmem
      exact h.key_ne (Or.inr (hstrings e he)) heq
  · refine List.nodup_append.mpr ⟨ts.values.nodup, ts.string_values.nodup, ?_⟩
    intro key hkey key' hkey' heq
    obtain ⟨e, he, rfl⟩ := List.mem_map.mp hkey
    obtain ⟨e', he', rfl⟩ := List.mem_map.mp hkey'
    rcases (h e.1).apart with hnone | hnone
    · exact hvalues e he hnone
    · rw [heq] at hnone
      exact hstrings e' he' hnone

/-- The blocks of a written tree have distinct keys. -/
theorem tree_distinct {r : SeasonalResponse} (h : r.WellFormed) : r.tree.DistinctBlocks := by
  intro key block hfind
  rw [AssocMap.lookup_present (slots_nodup r), Option.join_eq_some_iff] at hfind
  obtain ⟨before, behind, hslots, -⟩ := List.lookup_eq_some_iff.mp hfind
  have hslot : (key, some (Generic.object block)) ∈ r.slots := by
    rw [hslots]
    exact List.mem_append_right _ (List.mem_cons_self ..)
  rcases List.mem_append.mp hslot with hslot | hslot
  · rcases List.mem_append.mp hslot with hslot | hslot
    · -- the members of a location are no objects
      obtain ⟨e, he, heq⟩ := List.mem_map.mp hslot
      have hscalar : ∀ e ∈ r.toLocation.members, ∀ block, e.2 ≠ .object block := by
        simp [Location.members]
      exact absurd (Option.some.inj (Prod.mk.inj heq).2) (hscalar e he block)
    · obtain ⟨e, he, heq⟩ := List.mem_map.mp hslot
      obtain ⟨ts, hts, htree⟩ := Option.map_eq_some_iff.mp (Prod.mk.inj heq).2
      cases htree
      exact members_nodup (h.blocks e he ts hts)
  · obtain ⟨e, he, heq⟩ := List.mem_map.mp hslot
    obtain ⟨units, hunits, htree⟩ := Option.map_eq_some_iff.mp (Prod.mk.inj heq).2
    cases htree
    rw [List.map_map]
    exact units.nodup

/-- What is read of an object with distinct keys is well formed. -/
theorem readFrom_wellFormed {r : SeasonalResponse} {root : Generic} (hroot : root.DistinctBlocks)
    (h : r.ReadFrom root) : r.WellFormed := by
  have hr := eq_of_readFrom h
  have hblocks : ∀ e ∈ r.blocks, extract_timeseries root e.1 = e.2 := by
    rw [hr, read_blocks]
    exact List.forall_mem_map.mpr fun key _ => rfl
  refine ⟨?_, fun e he ts hts => extract_wellFormed hroot ((hblocks e he).trans hts)⟩
  rw [hr]
  exact populate_location_wellFormed root

/-- **The responses that can be read are the well-formed ones**, and each is read from
its own tree. -/
theorem readable_iff_wellFormed (r : SeasonalResponse) :
    ((∃ root : Generic, root.DistinctBlocks ∧ r.ReadFrom root) ↔ r.WellFormed)
      ∧ (r.WellFormed → r.tree.DistinctBlocks ∧ r.ReadFrom r.tree) := by
  have htree : r.WellFormed → r.tree.DistinctBlocks ∧ r.ReadFrom r.tree :=
    fun h => ⟨tree_distinct h, deserialize_tree h⟩
  refine ⟨⟨?_, fun h => ⟨r.tree, htree h⟩⟩, htree⟩
  rintro ⟨root, hroot, hread⟩
  exact readFrom_wellFormed hroot hread

/-! ## What does not matter -/

/-- Two members say the same: the same value, or objects with the same members. -/
def Generic.Alike : Option Generic → Option Generic → Prop
  | some (.object block), some (.object block') => ∀ key, block.lookup key = block'.lookup key
  | member, member' => member = member'

/-- The same times and the same series, wherever the maps hold them. -/
structure TimeseriesData.Same (ts ts' : TimeseriesData) : Prop where
  time : ts.time = ts'.time
  series : ∀ key, ts.series key = ts'.series key

/-- The same location, and at each key the same block and the same units. -/
structure SeasonalResponse.Same (r r' : SeasonalResponse) : Prop where
  location : r.toLocation = r'.toLocation
  blocks : List.Forall₂ (fun e e' => e.1 = e'.1 ∧ Option.Rel TimeseriesData.Same e.2 e'.2)
    r.blocks r'.blocks
  units : List.Forall₂ (fun e e' => e.1 = e'.1
    ∧ Option.Rel (fun units units' => ∀ key, units.find? key = units'.find? key) e.2 e'.2)
    r.units r'.units

/-- The loop over scalar members leaves the times alone, -/
theorem add_scalar_time (ts : TimeseriesData) (key : Bytes) (value : Generic) :
    (add_scalar ts key value).time = ts.time := by
  unfold add_scalar
  split
  · rfl
  · split
    · rfl
    · rfl
    · rfl
    · rfl

/-- however many there are. -/
theorem foldl_add_scalar_time (members : List (Bytes × Generic)) (ts : TimeseriesData) :
    (members.foldl (fun ts member => add_scalar ts member.1 member.2) ts).time = ts.time := by
  induction members generalizing ts with
  | nil => rfl
  | cons member rest ih => rw [List.foldl_cons, ih, add_scalar_time]

/-- **The order of the members of a block does not matter.** -/
theorem populate_same (block block' : AssocMap Bytes Generic)
    (h : ∀ key, block.find? key = block'.find? key) :
    (populate_timeseries_from_generic (.object block.entries) {}).Same
      (populate_timeseries_from_generic (.object block'.entries) {}) := by
  have harrays : ∀ times : List Bytes, TimeseriesData.Same
      (block.entries.foldl (fun ts member => add_array ts member.1 member.2) { time := times })
      (block'.entries.foldl (fun ts member => add_array ts member.1 member.2) { time := times }) := by
    intro times
    refine ⟨?_, fun key => ?_⟩
    · rw [foldl_add_array_time, foldl_add_array_time]
    · rw [foldl_add_array_series, foldl_add_array_series, h]
  have htime := h (text "time")
  rw [AssocMap.find?_eq_lookup, AssocMap.find?_eq_lookup] at htime
  unfold populate_timeseries_from_generic
  dsimp only
  rw [htime]
  split
  · refine ⟨?_, fun key => ?_⟩
    · rw [foldl_add_scalar_time, foldl_add_scalar_time]
    · rw [add_scalar_local.foldl_view _ block.nodup, add_scalar_local.foldl_view _ block'.nodup,
        ← AssocMap.find?, ← AssocMap.find?, h]
  · exact harrays _
  · exact harrays _

/-- A unit changes no key but its own. -/
theorem add_unit_local : AssocMap.Local AssocMap.find? add_unit := by
  refine ⟨fun units units' key value heq => ?_, fun units key value other hne => ?_⟩
  · unfold add_unit
    split
    · rw [AssocMap.find?_set_self, AssocMap.find?_set_self]
    · exact heq
  · unfold add_unit
    split
    · exact AssocMap.find?_set_ne _ _ hne
    · rfl

theorem rel_refl {α : Type} {rel : α → α → Prop} (hrefl : ∀ a, rel a a) (o : Option α) :
    Option.Rel rel o o := by
  cases o with
  | none => exact .none
  | some a => exact .some (hrefl a)

/-- What says the same is read the same, as a block and as units. -/
theorem extract_same {members members' : List (Bytes × Generic)}
    (hblocks : (Generic.object members).DistinctBlocks)
    (hblocks' : (Generic.object members').DistinctBlocks) {key : Bytes}
    (h : Generic.Alike (members.lookup key) (members'.lookup key)) :
    Option.Rel TimeseriesData.Same (extract_timeseries (.object members) key)
        (extract_timeseries (.object members') key)
      ∧ Option.Rel (fun units units' => ∀ key, units.find? key = units'.find? key)
        (extract_units_map (.object members) key) (extract_units_map (.object members') key) := by
  unfold Generic.Alike at h
  unfold extract_timeseries extract_units_map
  dsimp only
  split at h
  -- two objects with the same members
  · next block block' hblock hblock' =>
    rw [hblock, hblock']
    dsimp only
    have hnodup := hblocks key block hblock
    have hnodup' := hblocks' key block' hblock'
    have hsame : ∀ key, AssocMap.find? ⟨block, hnodup⟩ key = AssocMap.find? ⟨block', hnodup'⟩ key := by
      intro key
      rw [AssocMap.find?_eq_lookup, AssocMap.find?_eq_lookup]
      exact h key
    refine ⟨.some (populate_same ⟨block, hnodup⟩ ⟨block', hnodup'⟩ hsame), .some fun key => ?_⟩
    have hwalk := add_unit_local.foldl_view block hnodup AssocMap.empty key
    have hwalk' := add_unit_local.foldl_view block' hnodup' AssocMap.empty key
    have hlookup := hsame key
    unfold AssocMap.find? at hlookup
    dsimp only at hlookup
    rw [hlookup] at hwalk
    exact hwalk.trans hwalk'.symm
  -- the same member, or none
  · rw [h]
    exact ⟨rel_refl (fun ts => ⟨rfl, fun key => rfl⟩) _, rel_refl (fun units key => rfl) _⟩

/-- **The layout of a body does not matter.** Take two objects that have the same members
for a location, and at the keys of blocks and units members that say the same, in any
order, whatever else either of them has and wherever. Both are read, by all three
deserializers, and as the same response. -/
theorem layout_irrelevant (members members' : List (Bytes × Generic))
    (hblocks : (Generic.object members).DistinctBlocks)
    (hblocks' : (Generic.object members').DistinctBlocks)
    (hlocation : ∀ e ∈ ({} : Location).members, members.lookup e.1 = members'.lookup e.1)
    (hsame : ∀ key ∈ ({} : SeasonalResponse).blocks.map Prod.fst
      ++ ({} : SeasonalResponse).units.map Prod.fst,
      Generic.Alike (members.lookup key) (members'.lookup key)) :
    ∃ r r' : SeasonalResponse, r.ReadFrom (.object members) ∧ r'.ReadFrom (.object members')
      ∧ r.Same r' := by
  -- the location from equal members, then each block and each map of units from its key
  refine ⟨_, _, readFrom_read_response rfl, readFrom_read_response rfl, ?_, ?_, ?_⟩
  · simp only [Location.members, List.forall_mem_cons] at hlocation
    obtain ⟨h1, h2, h3, h4, h5, h6, h7, -⟩ := hlocation
    simp only [read_response, populate_location_from_generic, h1, h2, h3, h4, h5, h6, h7]
  · rw [read_blocks, read_blocks, List.forall₂_map_left_iff, List.forall₂_map_right_iff,
      List.forall₂_same]
    exact fun key hkey =>
      ⟨rfl, (extract_same hblocks hblocks' (hsame key (List.mem_append_left _ hkey))).1⟩
  · rw [read_units, read_units, List.forall₂_map_left_iff, List.forall₂_map_right_iff,
      List.forall₂_same]
    exact fun key hkey =>
      ⟨rfl, (extract_same hblocks hblocks' (hsame key (List.mem_append_right _ hkey))).2⟩

/-- A block, in two orders. -/
def snow_block : List (Bytes × Generic) :=
  [(text "time", .array [.string (text "0:00")]), (text "snow", .array [.null])]

/-- A body with that block, and one member of a location. -/
def snow_body : List (Bytes × Generic) :=
  [(text "elevation", .number Double.zero), (text "hourly", .object snow_block)]

/-- The block in the other order, and a member that nobody knows. -/
def shuffled_body : List (Bytes × Generic) :=
  [(text "model", .string (text "x")), (text "hourly", .object snow_block.reverse),
    (text "elevation", .number Double.zero)]

/-- Reversed, moved, and beside an unknown member, the block is read the same. -/
theorem layout_irrelevant_shuffled :
    ∃ r r' : SeasonalResponse, r.ReadFrom (.object snow_body) ∧ r'.ReadFrom (.object shuffled_body)
      ∧ r.Same r' := by
  have hmember : ∀ {members : List (Bytes × Generic)} {key : Bytes} {value : Generic},
      members.lookup key = some value → (key, value) ∈ members := by
    intro members key value hfind
    obtain ⟨before, behind, hmembers, -⟩ := List.lookup_eq_some_iff.mp hfind
    rw [hmembers]
    exact List.mem_append_right _ (List.mem_cons_self ..)
  have hblock : ∀ key, snow_block.lookup key = snow_block.reverse.lookup key := by
    intro key
    by_cases htime : key = text "time"
    · rw [htime]
      rfl
    · by_cases hsnow : key = text "snow"
      · rw [hsnow]
        rfl
      · simp [snow_block, List.lookup_cons, beq_eq_false_iff_ne.mpr htime,
          beq_eq_false_iff_ne.mpr hsnow]
  -- at all other keys both bodies have nothing
  have hother : ∀ {key : Bytes}, key ∉ [text "model", text "hourly", text "elevation"] →
      snow_body.lookup key = none ∧ shuffled_body.lookup key = none := by
    intro key hkey
    simp only [List.mem_cons, List.not_mem_nil, or_false, not_or] at hkey
    obtain ⟨hmodel, hhourly, helevation⟩ := hkey
    simp only [snow_body, shuffled_body, List.lookup_cons, List.lookup_nil,
      beq_eq_false_iff_ne.mpr hmodel, beq_eq_false_iff_ne.mpr hhourly,
      beq_eq_false_iff_ne.mpr helevation, and_self]
  have hlocation : ∀ {key : Bytes}, key ∉ [text "model", text "hourly", text "elevation"] →
      snow_body.lookup key = shuffled_body.lookup key := fun hkey =>
    (hother hkey).1.trans (hother hkey).2.symm
  have halike : ∀ {key : Bytes}, key ∉ [text "model", text "hourly", text "elevation"] →
      Generic.Alike (snow_body.lookup key) (shuffled_body.lookup key) := by
    intro key hkey
    rw [(hother hkey).1, (hother hkey).2]
    rfl
  refine layout_irrelevant snow_body shuffled_body ?_ ?_ ?_ ?_
  · intro key block hfind
    have hmem := hmember hfind
    simp only [snow_body, List.mem_cons, List.not_mem_nil, Prod.mk.injEq, reduceCtorEq, and_false,
      Generic.object.injEq, false_or, or_false] at hmem
    rw [hmem.2]
    decide
  · intro key block hfind
    have hmem := hmember hfind
    simp only [shuffled_body, List.mem_cons, List.not_mem_nil, Prod.mk.injEq, reduceCtorEq,
      and_false, Generic.object.injEq, false_or, or_false] at hmem
    rw [hmem.2]
    decide
  · simp only [Location.members, List.forall_mem_cons]
    exact ⟨hlocation (by decide), hlocation (by decide), rfl, hlocation (by decide),
      hlocation (by decide), hlocation (by decide), hlocation (by decide),
      fun e he => absurd he List.not_mem_nil⟩
  · simp only [SeasonalResponse.blocks, SeasonalResponse.units, List.map_cons, List.map_nil,
      List.cons_append, List.nil_append, List.forall_mem_cons]
    exact ⟨hblock, halike (by decide), halike (by decide), halike (by decide), halike (by decide),
      halike (by decide), halike (by decide), halike (by decide), halike (by decide),
      halike (by decide), halike (by decide), halike (by decide),
      fun key hkey => absurd hkey List.not_mem_nil⟩

end OpenMeteo
