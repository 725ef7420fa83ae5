/-
What `populate_timeseries_from_generic` makes of a block.

Both of its loops walk the members of an object and write at one variable in
each step, so `AssocMap.Local` applies and `Local.foldl_view` says what they
leave at a variable: what the step for that variable leaves there. Everything
about whole blocks follows from two facts about single steps, one for each
loop.
-/
import OpenMeteo.Models

set_option autoImplicit false

namespace OpenMeteo

/-! ## Series -/

/-- What the two maps hold for a variable. -/
def TimeseriesData.series (ts : TimeseriesData) (key : Bytes) :
    Option (List Double) × Option (List Bytes) :=
  (ts.values.find? key, ts.string_values.find? key)

/-- A series that stays aligned with its array: as long, and its entry `i` is
determined by element `i` alone. -/
structure Aligned {α : Type} (entry : Generic → α) (arr : List Generic) (series : List α) :
    Prop where
  length_eq : series.length = arr.length
  entry_eq : ∀ (i : ℕ) (elem : Generic), arr[i]? = some elem → series[i]? = some (entry elem)

theorem Aligned.map {α : Type} (entry : Generic → α) (arr : List Generic) :
    Aligned entry arr (arr.map entry) := by
  refine ⟨List.length_map .., fun i elem helem => ?_⟩
  rw [List.getElem?_map, helem]
  rfl

/-- The first element that is not null is a string. -/
def FirstNonNullString (arr : List Generic) : Prop :=
  ∃ nulls value rest, arr = List.replicate nulls .null ++ .string value :: rest

theorem is_string_array_iff (arr : List Generic) :
    is_string_array arr = true ↔ FirstNonNullString arr := by
  unfold FirstNonNullString
  induction arr with
  | nil => simp [is_string_array]
  | cons elem rest ih =>
    cases elem with
    | null =>
      rw [is_string_array, ih]
      constructor
      · rintro ⟨nulls, value, behind, rfl⟩
        exact ⟨nulls + 1, value, behind, rfl⟩
      · rintro ⟨_ | nulls, value, behind, heq⟩
        · cases heq
        · rw [List.replicate_succ, List.cons_append, List.cons.injEq] at heq
          exact ⟨nulls, value, behind, heq.2⟩
    | string value => exact ⟨fun _ => ⟨0, value, rest, rfl⟩, fun _ => rfl⟩
    | _ =>
      -- neither null nor a string, so it decides against
      refine ⟨fun hstring => (by cases hstring), ?_⟩
      rintro ⟨_ | nulls, value, behind, heq⟩ <;> cases heq

/-- Nulls and numbers do not make a string series. -/
theorem not_firstNonNullString {arr : List Generic}
    (harr : ∀ elem ∈ arr, elem = .null ∨ ∃ x, elem = .number x) : ¬ FirstNonNullString arr := by
  rintro ⟨nulls, value, rest, rfl⟩
  rcases harr (.string value) (by simp) with heq | ⟨x, heq⟩ <;> cases heq

/-- Nulls and strings do, as soon as there is a string. -/
theorem firstNonNullString {arr : List Generic} (hsome : ∃ value, .string value ∈ arr)
    (harr : ∀ elem ∈ arr, elem = .null ∨ ∃ value, elem = .string value) :
    FirstNonNullString arr := by
  rw [← is_string_array_iff]
  induction arr with
  | nil =>
    obtain ⟨value, hvalue⟩ := hsome
    cases hvalue
  | cons elem rest ih =>
    rcases harr elem (List.mem_cons_self ..) with rfl | ⟨value, rfl⟩
    · rw [is_string_array]
      refine ih ?_ fun elem helem => harr elem (List.mem_cons_of_mem _ helem)
      obtain ⟨value, hvalue⟩ := hsome
      rcases List.mem_cons.mp hvalue with heq | hrest
      · cases heq
      · exact ⟨value, hrest⟩
    · rfl

/-! ## One member -/

theorem add_array_local : AssocMap.Local TimeseriesData.series add_array := by
  refine ⟨fun ts ts' key val heq => ?_, fun ts key val other hne => ?_⟩
  · obtain ⟨hvalues, hstrings⟩ := Prod.mk.inj heq
    unfold add_array
    split
    · exact heq
    · split
      · simp only [TimeseriesData.series, AssocMap.find?_set_self, hstrings]
      · dsimp only
        split
        · simp only [TimeseriesData.series, AssocMap.find?_set_self, hvalues, hstrings]
        · simp only [TimeseriesData.series, AssocMap.find?_set_self, hvalues, hstrings]
      · exact heq
  · unfold add_array
    split
    · rfl
    · split
      · simp only [TimeseriesData.series, AssocMap.find?_set_ne _ _ hne]
      · dsimp only
        split <;> simp only [TimeseriesData.series, AssocMap.find?_set_ne _ _ hne]
      · rfl

/-- The series a member of a block adds to the two maps. -/
def added_series (key : Bytes) : Generic → Option (List Double) × Option (List Bytes)
  | .array arr =>
    if key = text "time" then (none, none)
    else if is_string_array arr then (none, some (arr.map string_or_empty))
    else (some (arr.map number_or_nan), none)
  | _ => (none, none)

/-- **One member.** At a variable that is not there yet an array puts exactly one
series, its element-wise image, and anything else puts none. -/
theorem add_array_series {ts : TimeseriesData} {key : Bytes} (hfresh : ts.series key = (none, none))
    (val : Generic) : (add_array ts key val).series key = added_series key val := by
  obtain ⟨hvalues, hstrings⟩ := Prod.mk.inj hfresh
  unfold add_array
  by_cases hkey : key = text "time"
  · rw [if_pos hkey, hfresh]
    cases val with
    | array arr => rw [added_series, if_pos hkey]
    | _ => rfl
  · rw [if_neg hkey]
    cases val with
    | array arr =>
      rw [added_series, if_neg hkey]
      cases arr with
      | nil => simp only [TimeseriesData.series, AssocMap.find?_set_self, hstrings]; rfl
      | cons elem rest =>
        dsimp only
        split <;> simp only [TimeseriesData.series, AssocMap.find?_set_self, hvalues, hstrings,
          Option.getD_none, List.nil_append]
    | _ => exact hfresh

theorem add_array_time (ts : TimeseriesData) (key : Bytes) (val : Generic) :
    (add_array ts key val).time = ts.time := by
  unfold add_array
  split
  · rfl
  · split
    · rfl
    · dsimp only
      split <;> rfl
    · rfl

/-! ## Whole blocks -/

/-- What became of every member of a block. -/
structure Block (block : AssocMap Bytes Generic) (ts : TimeseriesData) : Prop where
  time : ∀ arr, block.find? (text "time") = some (.array arr) →
    Aligned string_or_empty arr ts.time
  no_time : (∀ arr, block.find? (text "time") ≠ some (.array arr)) → ts.time = []
  strings : ∀ key arr, key ≠ text "time" → block.find? key = some (.array arr) →
    FirstNonNullString arr →
      ts.values.find? key = none
        ∧ ∃ series, ts.string_values.find? key = some series ∧ Aligned string_or_empty arr series
  numbers : ∀ key arr, key ≠ text "time" → block.find? key = some (.array arr) →
    ¬ FirstNonNullString arr →
      ts.string_values.find? key = none
        ∧ ∃ series, ts.values.find? key = some series ∧ Aligned number_or_nan arr series
  nothing_else : ∀ key, (key = text "time" ∨ ∀ arr, block.find? key ≠ some (.array arr)) →
    ts.values.find? key = none ∧ ts.string_values.find? key = none

theorem foldl_add_array_time (members : List (Bytes × Generic)) (ts : TimeseriesData) :
    (members.foldl (fun ts member => add_array ts member.1 member.2) ts).time = ts.time := by
  induction members generalizing ts with
  | nil => rfl
  | cons member rest ih => rw [List.foldl_cons, ih, add_array_time]

/-- The loop over the arrays, from a block that holds nothing yet but its times. -/
theorem foldl_add_array_series (block : AssocMap Bytes Generic) (times : List Bytes)
    (key : Bytes) :
    (block.entries.foldl (fun ts member => add_array ts member.1 member.2)
        { time := times }).series key
      = match block.find? key with
        | some val => added_series key val
        | none => (none, none) := by
  rw [add_array_local.foldl_view block.entries block.nodup, ← AssocMap.find?]
  cases block.find? key with
  | none => rfl
  | some val => exact add_array_series rfl val

/-- The times of a block whose "time" is no string. -/
def block_times : Option Generic → List Bytes
  | some (.array time_arr) => time_arr.map string_or_empty
  | _ => []

theorem populate_block (block : AssocMap Bytes Generic)
    (htime : ∀ value, block.find? (text "time") ≠ some (.string value)) :
    Block block (populate_timeseries_from_generic (.object block.entries) {}) := by
  -- the loop starts from the times, and does not touch them
  obtain ⟨times, hpopulate, htimes⟩ : ∃ times,
      populate_timeseries_from_generic (.object block.entries) {}
          = block.entries.foldl (fun ts member => add_array ts member.1 member.2) { time := times }
        ∧ times = block_times (block.find? (text "time")) := by
    rw [populate_timeseries_from_generic, ← AssocMap.find?_eq_lookup]
    cases hfind : block.find? (text "time") with
    | none => exact ⟨_, rfl, rfl⟩
    | some val =>
      cases val with
      | string value => exact absurd hfind (htime value)
      | _ => exact ⟨_, rfl, rfl⟩
  have hseries := foldl_add_array_series block times
  rw [← hpopulate] at hseries
  have htime_eq := foldl_add_array_time block.entries { time := times }
  rw [← hpopulate] at htime_eq
  refine ⟨fun arr harr => ?_, fun hnone => ?_, fun key arr hkey harr hstring => ?_,
    fun key arr hkey harr hstring => ?_, fun key hkey => ?_⟩
  · rw [htime_eq, htimes, harr]
    exact Aligned.map string_or_empty arr
  · rw [htime_eq, htimes]
    unfold block_times
    split
    · next arr harr => exact absurd harr (hnone arr)
    · rfl
  · have hkey_series := hseries key
    rw [harr] at hkey_series
    dsimp only at hkey_series
    rw [added_series, if_neg hkey, if_pos ((is_string_array_iff arr).mpr hstring)] at hkey_series
    obtain ⟨hvalues, hstrings⟩ := Prod.mk.inj hkey_series
    exact ⟨hvalues, _, hstrings, Aligned.map string_or_empty arr⟩
  · have hkey_series := hseries key
    rw [harr] at hkey_series
    dsimp only at hkey_series
    rw [added_series, if_neg hkey,
      if_neg (fun h => hstring ((is_string_array_iff arr).mp h))] at hkey_series
    obtain ⟨hvalues, hstrings⟩ := Prod.mk.inj hkey_series
    exact ⟨hstrings, _, hvalues, Aligned.map number_or_nan arr⟩
  · refine Prod.mk.inj ((hseries key).trans ?_)
    cases hfind : block.find? key with
    | none => rfl
    | some val =>
      cases val with
      | array arr =>
        rcases hkey with htime_key | hnone
        · exact if_pos htime_key
        · exact absurd hfind (hnone arr)
      | _ => rfl

/-! ## Series and time -/

/-- **Series stay aligned with time, and no variable is lost or duplicated.**
Every array of a block is one series, element by element; nothing but the
arrays is there; so arrays as long as "time" stay as long, and the two maps
have no variable in common. -/
theorem series_aligned (block : AssocMap Bytes Generic)
    (htime : ∀ value, block.find? (text "time") ≠ some (.string value)) :
    let ts := populate_timeseries_from_generic (.object block.entries) {}
    Block block ts
      ∧ (∀ key arr, key ≠ text "time" → block.find? key = some (.array arr) →
          (∀ elem ∈ arr, elem = .null ∨ ∃ x, elem = .number x) →
          ∃ series, ts.values.find? key = some series ∧ series.length = arr.length
            ∧ ∀ (i : ℕ) x, arr[i]? = some (.number x) → series[i]? = some x)
      ∧ (∀ key arr, key ≠ text "time" → block.find? key = some (.array arr) →
          (∀ elem ∈ arr, elem = .null ∨ ∃ value, elem = .string value) →
          (∃ value, .string value ∈ arr) →
          ∃ series, ts.string_values.find? key = some series ∧ series.length = arr.length
            ∧ ∀ (i : ℕ) value, arr[i]? = some (.string value) → series[i]? = some value)
      ∧ (∀ key arr times, key ≠ text "time" → block.find? key = some (.array arr) →
          block.find? (text "time") = some (.array times) → arr.length = times.length →
          (∀ series, ts.values.find? key = some series → series.length = ts.time.length)
            ∧ ∀ series, ts.string_values.find? key = some series → series.length = ts.time.length)
      ∧ (∀ key, ts.values.find? key = none ∨ ts.string_values.find? key = none)
      ∧ ∀ root key, root.lookup key = some (.object block.entries) →
          extract_timeseries (.object root) key = some ts := by
  intro ts
  have hblock : Block block ts := populate_block block htime
  refine ⟨hblock, fun key arr hkey harr hkinds => ?_, fun key arr hkey harr hkinds hsome => ?_,
    fun key arr times hkey harr htimes hlength => ?_, fun key => ?_, fun root key hroot => ?_⟩
  · obtain ⟨-, series, hfind, haligned⟩ :=
      hblock.numbers key arr hkey harr (not_firstNonNullString hkinds)
    exact ⟨series, hfind, haligned.length_eq, fun i x hx => haligned.entry_eq i _ hx⟩
  · obtain ⟨-, series, hfind, haligned⟩ :=
      hblock.strings key arr hkey harr (firstNonNullString hsome hkinds)
    exact ⟨series, hfind, haligned.length_eq, fun i value hvalue => haligned.entry_eq i _ hvalue⟩
  · have hend : ts.time.length = arr.length := (hblock.time times htimes).length_eq.trans hlength.symm
    by_cases hstring : FirstNonNullString arr
    · obtain ⟨hnone, series, hfind, haligned⟩ := hblock.strings key arr hkey harr hstring
      rw [hnone, hfind, hend]
      refine ⟨fun series' h => (by cases h), ?_⟩
      rintro series' ⟨⟩
      exact haligned.length_eq
    · obtain ⟨hnone, series, hfind, haligned⟩ := hblock.numbers key arr hkey harr hstring
      rw [hnone, hfind, hend]
      refine ⟨?_, fun series' h => (by cases h)⟩
      rintro series' ⟨⟩
      exact haligned.length_eq
  · -- a variable of both maps would have to be a string series and not be one
    by_cases hother : key = text "time" ∨ ∀ arr, block.find? key ≠ some (.array arr)
    · exact Or.inl (hblock.nothing_else key hother).1
    · push Not at hother
      obtain ⟨hkey, arr, harr⟩ := hother
      by_cases hstring : FirstNonNullString arr
      · exact Or.inl (hblock.strings key arr hkey harr hstring).1
      · exact Or.inr (hblock.numbers key arr hkey harr hstring).1
  · rw [extract_timeseries, hroot]

/-- A block with leading nulls, an empty array and members that are no arrays. -/
theorem series_aligned_mixed :
    let block : AssocMap Bytes Generic :=
      ⟨[(text "time", .array [.string (text "t0"), .null]), (text "a", .array [.null, .string [1]]),
        (text "b", .array []), (text "c", .null)], by decide⟩
    (populate_timeseries_from_generic (.object block.entries) {}).values.find? (text "a") = none
      ∨ (populate_timeseries_from_generic (.object block.entries) {}).string_values.find? (text "a")
        = none :=
  (series_aligned _ (fun value h => by cases h)).2.2.2.2.1 (text "a")

/-! ## The scalar path -/

/-- The values that current conditions have. -/
def Generic.Scalar (value : Generic) : Prop :=
  (∃ x, value = .number x) ∨ value = .null ∨ ∃ s, value = .string s

/-- **One scalar.** A member of a block of scalars is added as its one-element
array is, at a variable that is not there yet. -/
theorem add_scalar_eq_add_array {ts : TimeseriesData} {key : Bytes} {value : Generic}
    (hvalue : key ≠ text "time" → value.Scalar) (hfresh : ts.series key = (none, none)) :
    add_scalar ts key value = add_array ts key (.array [value]) := by
  obtain ⟨hvalues, hstrings⟩ := Prod.mk.inj hfresh
  unfold add_scalar add_array
  by_cases hkey : key = text "time"
  · rw [if_pos hkey, if_pos hkey]
  · rw [if_neg hkey, if_neg hkey]
    -- a null is sniffed as a number in both loops
    rcases hvalue hkey with ⟨x, rfl⟩ | rfl | ⟨s, rfl⟩
    · simp only [is_string_array, Generic.is_string, hvalues]
      rfl
    · simp only [is_string_array, hvalues]
      rfl
    · simp only [is_string_array, Generic.is_string, hstrings]
      rfl

theorem add_scalar_local : AssocMap.Local TimeseriesData.series add_scalar := by
  refine ⟨fun ts ts' key val heq => ?_, fun ts key val other hne => ?_⟩
  · obtain ⟨hvalues, hstrings⟩ := Prod.mk.inj heq
    unfold add_scalar
    split
    · exact heq
    · cases val with
      | number _ | null | string _ =>
        simp only [TimeseriesData.series, AssocMap.find?_set_self, hvalues, hstrings]
      | bool _ | array _ | object _ => exact heq
  · unfold add_scalar
    split
    · rfl
    · split <;> simp only [TimeseriesData.series, AssocMap.find?_set_ne _ _ hne]

/-- **The scalar path agrees with the array path.** Wrapping every member of a
block of current conditions in a one-element array changes nothing. -/
theorem scalar_path_agrees (block : AssocMap Bytes Generic)
    (htime : ∃ value, block.find? (text "time") = some (.string value))
    (hscalar : ∀ member ∈ block.entries, member.1 ≠ text "time" → member.2.Scalar) :
    populate_timeseries_from_generic (.object block.entries) {}
      = populate_timeseries_from_generic
          (.object (block.entries.map fun member => (member.1, .array [member.2]))) {} := by
  obtain ⟨value, hvalue⟩ := htime
  rw [AssocMap.find?_eq_lookup] at hvalue
  have hwrapped : (block.entries.map fun member => (member.1, Generic.array [member.2])).lookup
      (text "time") = some (.array [.string value]) := by
    have hmap := AssocMap.lookup_map_value (fun v => Generic.array [v]) (text "time") block.entries
    rw [hmap, hvalue]
    rfl
  rw [populate_timeseries_from_generic, populate_timeseries_from_generic, hvalue, hwrapped]
  dsimp only
  rw [List.foldl_map]
  refine add_scalar_local.foldl_congr (fun ts key value => add_array ts key (.array [value]))
    (none, none) block.entries block.nodup ?_ _ ?_
  · exact fun ts member hmember hfresh => add_scalar_eq_add_array (hscalar member hmember) hfresh
  · exact fun member _ => rfl

/-- One number, one null and one string. -/
theorem scalar_path_agrees_mixed :
    populate_timeseries_from_generic
        (.object [(text "time", .string [1]), (text "a", .number Double.zero), (text "b", .null),
          (text "c", .string [2])]) {}
      = populate_timeseries_from_generic
          (.object [(text "time", .array [.string [1]]), (text "a", .array [.number Double.zero]),
            (text "b", .array [.null]), (text "c", .array [.string [2]])]) {} :=
  scalar_path_agrees ⟨[(text "time", .string [1]), (text "a", .number Double.zero),
    (text "b", .null), (text "c", .string [2])], by decide⟩ ⟨[1], rfl⟩ (by
      simp only [List.forall_mem_cons]
      exact ⟨fun h => absurd rfl h, fun _ => Or.inl ⟨_, rfl⟩, fun _ => Or.inr (Or.inl rfl),
        fun _ => Or.inr (Or.inr ⟨_, rfl⟩), fun member h => by cases h⟩)

end OpenMeteo
