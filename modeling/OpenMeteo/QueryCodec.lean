/-
Reading a query string back.

The appends of `params.cpp` keep a query string in one shape: nothing, or `?`
and the parts of the calls so far with `&` between them (`render`). A part is
the encoded key, `=` and the encoded value, or the encoded elements with `,`
between them. `apply_render` says that one more call keeps the shape, which is
where skipping an empty list before the first parameter matters. As encoded
text contains none of the separators, splitting undoes every join.
-/
import OpenMeteo.Params
import OpenMeteo.Lib.UrlText

set_option autoImplicit false

namespace OpenMeteo

open UrlText

/-! ## `encode` is percent coding -/

theorem hex_eq : ∀ n < 16, hex.getD n 0 = hexDigit n := by decide

theorem encode_eq (value : Bytes) : encode value = percentEncode value := by
  -- the loop appends to what it has, so the induction is over any start
  suffices h : ∀ out : Bytes, value.foldl _ out = out ++ percentEncode value from h []
  induction value with
  | nil => exact fun out => (List.append_nil out).symm
  | cons c rest ih =>
    intro out
    obtain ⟨hhi, hlo⟩ := nibbles_lt c
    have hshift : (c >>> 4).toNat = c.toNat / 16 := by
      rw [UInt8.toNat_shiftRight, Nat.shiftRight_eq_div_pow]
      rfl
    have hmask : (c &&& 15).toNat = c.toNat % 16 := by
      rw [UInt8.toNat_and]
      exact Nat.and_two_pow_sub_one_eq_mod c.toNat 4
    rw [List.foldl_cons, ih, percentEncode_cons, percentByte, hshift, hmask, hex_eq _ hhi,
      hex_eq _ hlo]
    simp only [unreserved, decide_eq_true_eq]
    split
    · rw [List.append_assoc]
    · rw [List.append_assoc, List.append_assoc, List.append_assoc]
      rfl

/-! ## Calls -/

/-- One call of `append_param` or `append_list_param`. -/
inductive Call
  | param (key value : Bytes)
  | list (key : Bytes) (values : List Bytes)
  deriving DecidableEq, Repr

/-- What a call does to the query. -/
def Call.apply (query : Bytes) : Call → Bytes
  | .param key value => append_param query key value
  | .list key values => append_list_param query key values

/-- The query after the calls, from an empty one. -/
def build (calls : List Call) : Bytes := calls.foldl Call.apply []

/-- Whether a call adds a parameter: an empty list adds none. -/
def Call.contributes : Call → Bool
  | .param _ _ => true
  | .list _ values => !values.isEmpty

theorem Call.list_contributes {key : Bytes} {values : List Bytes} :
    (Call.list key values).contributes = true ↔ values ≠ [] := by
  rw [Call.contributes, Bool.not_eq_true', List.isEmpty_eq_false_iff]

def Call.key : Call → Bytes
  | .param key _ => key
  | .list key _ => key

/-- The text a call puts behind `=`. -/
def Call.value_text : Call → Bytes
  | .param _ value => percentEncode value
  | .list _ values => [44].intercalate (values.map percentEncode)

/-- The part of the query a call adds. -/
def Call.part (call : Call) : Bytes := percentEncode call.key ++ 61 :: call.value_text

/-- The query that holds the parts of these calls. -/
def render : List Call → Bytes
  | [] => []
  | calls => 63 :: [38].intercalate (calls.map Call.part)

/-! ## The calls keep the query in shape -/

theorem append_elements_eq (i : ℕ) (values : List Bytes) (hvalues : values ≠ []) :
    ∀ query, append_elements query i values
      = query ++ (if 0 < i then [44] else []) ++ [44].intercalate (values.map encode) := by
  induction values generalizing i with
  | nil => exact absurd rfl hvalues
  | cons value rest ih =>
    intro query
    have hsep : (if 0 < i then query ++ text "," else query)
        = query ++ (if 0 < i then [44] else []) := by
      split
      · rfl
      · exact (List.append_nil query).symm
    -- `intercalate` puts a comma behind `value` unless it is the last
    by_cases hrest : rest = []
    · subst hrest
      simp only [append_elements, hsep, List.map_cons, List.map_nil, List.intercalate_singleton]
    · rw [append_elements, ih (i + 1) hrest, if_pos (Nat.succ_pos i), List.map_cons,
        List.intercalate_cons_of_ne_nil (by simpa using hrest)]
      simp only [hsep, List.append_assoc]

/-- A call that contributes appends a separator and its part. -/
theorem apply_of_contributes (query : Bytes) (call : Call) (h : call.contributes = true) :
    call.apply query = ensure_separator query ++ call.part := by
  cases call with
  | param key value =>
    simp only [Call.apply, append_param, encode_eq, Call.part, Call.key, Call.value_text]
    rw [List.append_assoc, List.append_assoc]
    rfl
  | list key values =>
    have hne : values ≠ [] := Call.list_contributes.mp h
    have hempty : values.isEmpty = false := List.isEmpty_eq_false_iff.mpr hne
    simp only [Call.apply, append_list_param, hempty, Bool.false_eq_true, if_false,
      append_elements_eq 0 values hne, Call.part, Call.key, Call.value_text]
    rw [funext encode_eq, if_neg (Nat.lt_irrefl 0), List.append_nil, List.append_assoc,
      List.append_assoc]
    rfl

/-- A call on an empty list does nothing. -/
theorem apply_of_not_contributes (query : Bytes) (call : Call) (h : call.contributes = false) :
    call.apply query = query := by
  cases call with
  | param key value => exact absurd h.symm Bool.false_ne_true
  | list key values =>
    have hempty : values.isEmpty = true := by simpa [Call.contributes] using h
    rw [Call.apply, append_list_param, if_pos hempty]

/-- **One more call keeps the shape**, and adds its part if it contributes. -/
theorem apply_render (calls : List Call) (call : Call) :
    call.apply (render calls)
      = render (calls ++ if call.contributes then [call] else []) := by
  by_cases h : call.contributes = true
  · rw [if_pos h, apply_of_contributes _ _ h]
    -- the separator is `?` exactly when nothing has contributed yet
    cases calls with
    | nil => simp [render, ensure_separator, text]
    | cons first rest =>
      have hmap : (first :: rest).map Call.part ≠ [] := by simp
      rw [List.cons_append, render, render]
      rw [← List.cons_append, List.map_append, List.map_singleton, intercalate_concat 38 hmap]
      simp [ensure_separator, text]
      all_goals simp
  · rw [if_neg h, List.append_nil, apply_of_not_contributes _ _ (by simpa using h)]

/-- What any sequence of calls builds. -/
theorem build_eq (calls : List Call) : build calls = render (calls.filter Call.contributes) := by
  -- from any query in shape; the empty one is `render []`
  suffices h : ∀ before, calls.foldl Call.apply (render before)
      = render (before ++ calls.filter Call.contributes) from h []
  induction calls with
  | nil => simp
  | cons call rest ih =>
    intro before
    rw [List.foldl_cons, apply_render, ih, List.append_assoc, List.filter_cons]
    split <;> rfl

/-! ## Decoding -/

/-- A part at its first `=`: the decoded key, and the text of the value. -/
def split_part (part : Bytes) : Option (Bytes × Bytes) :=
  match splitFirst 61 part with
  | (key, some value) => (percentDecode key).map fun k => (k, value)
  | (_, none) => none

/-- A query without its `?`, split at `&`. -/
def split_query : Bytes → Option (List (Bytes × Bytes))
  | [] => some []
  | c :: rest => if c = 63 then (rest.splitOn 38).mapM split_part else none

/-- A value text split at `,`. -/
def decode_list (value : Bytes) : Option (List Bytes) := (value.splitOn 44).mapM percentDecode

/-- Which append wrote a part: the query itself does not say. -/
inductive Kind
  | param
  | list
  deriving DecidableEq, Repr

def Call.kind : Call → Kind
  | .param _ _ => .param
  | .list _ _ => .list

def decode_part : Kind → Bytes × Bytes → Option Call
  | .param, (key, value) => (percentDecode value).map (.param key)
  | .list, (key, value) => (decode_list value).map (.list key)

/-- The parts of a query, each read as its kind says. -/
def decode_parts : List Kind → List (Bytes × Bytes) → Option (List Call)
  | [], [] => some []
  | kind :: kinds, part :: parts =>
    match decode_part kind part, decode_parts kinds parts with
    | some call, some calls => some (call :: calls)
    | _, _ => none
  | _, _ => none

def decode_as (kinds : List Kind) (query : Bytes) : Option (List Call) :=
  (split_query query).bind (decode_parts kinds)

/-! ### Encoded text has no separators -/

theorem separator_not_mem {c : UInt8} (hc : c ∈ [38, 61, 44]) (bs : Bytes) :
    c ∉ percentEncode bs := by
  have h : unreserved c = false ∧ c ≠ 37 := by
    simp only [List.mem_cons, List.not_mem_nil, or_false] at hc
    rcases hc with rfl | rfl | rfl <;> decide
  exact not_mem_percentEncode h.1 h.2 bs

theorem ampersand_not_mem_intercalate (pieces : List Bytes)
    (h : ∀ p ∈ pieces, (38 : UInt8) ∉ p) : (38 : UInt8) ∉ [(44 : UInt8)].intercalate pieces := by
  induction pieces with
  | nil => exact List.not_mem_nil
  | cons p rest ih =>
    have hp := h p (List.mem_cons_self ..)
    have hrest := ih fun q hq => h q (List.mem_cons_of_mem _ hq)
    cases rest with
    | nil => simpa using hp
    | cons q rest =>
      rw [List.intercalate_cons_cons, List.mem_append, List.mem_append]
      rintro ((hmem | hmem) | hmem)
      · exact hp hmem
      · exact absurd hmem (by decide)
      · exact hrest hmem

theorem ampersand_not_mem_part (call : Call) : (38 : UInt8) ∉ call.part := by
  have henc : ∀ bs : Bytes, (38 : UInt8) ∉ percentEncode bs := separator_not_mem (by decide)
  rw [Call.part, List.mem_append, List.mem_cons]
  -- the key, the `=`, and the value text, where a list has commas of its own
  rintro (hmem | hmem | hmem)
  · exact henc _ hmem
  · exact absurd hmem (by decide)
  · cases call with
    | param key value => exact henc _ hmem
    | list key values =>
      refine ampersand_not_mem_intercalate _ (fun p hp => ?_) hmem
      obtain ⟨v, -, rfl⟩ := List.mem_map.mp hp
      exact henc v

/-! ### Every split is undone -/

/-- Reading back, piece by piece, what was written piece by piece. -/
theorem mapM_map_some {α β γ : Type} {write : α → β} {read : β → Option γ} {back : α → γ}
    (xs : List α) (h : ∀ a ∈ xs, read (write a) = some (back a)) :
    (xs.map write).mapM read = some (xs.map back) := by
  induction xs with
  | nil => rfl
  | cons a rest ih =>
    have ha := h a (List.mem_cons_self ..)
    have hrest := ih fun b hb => h b (List.mem_cons_of_mem _ hb)
    rw [List.map_cons, List.mapM_cons, ha, hrest]
    rfl

theorem split_part_part (call : Call) :
    split_part call.part = some (call.key, call.value_text) := by
  rw [split_part, Call.part, splitFirst_append (separator_not_mem (by decide) _)]
  simp only [percentDecode_percentEncode, Option.map_some]

/-- The parts of a rendered query are those of its calls. -/
theorem split_query_render (calls : List Call) :
    split_query (render calls) = some (calls.map fun c => (c.key, c.value_text)) := by
  cases calls with
  | nil => rfl
  | cons first rest =>
    rw [render, split_query, if_pos rfl, List.splitOn_intercalate 38 _ (by simp),
      mapM_map_some _ fun c _ => split_part_part c]
    · intro p hp
      obtain ⟨c, -, rfl⟩ := List.mem_map.mp hp
      exact ampersand_not_mem_part c
    · simp

theorem decode_list_value_text {values : List Bytes} (h : values ≠ []) :
    decode_list ([44].intercalate (values.map percentEncode)) = some values := by
  rw [decode_list, List.splitOn_intercalate 44 _ (by simpa using h),
    mapM_map_some _ fun v _ => percentDecode_percentEncode v, List.map_id']
  intro p hp
  obtain ⟨v, -, rfl⟩ := List.mem_map.mp hp
  exact separator_not_mem (by decide) v

theorem decode_part_value_text (call : Call) (h : call.contributes = true) :
    decode_part call.kind (call.key, call.value_text) = some call := by
  cases call with
  | param key value =>
    simp only [Call.kind, Call.key, Call.value_text, decode_part, percentDecode_percentEncode,
      Option.map_some]
  | list key values =>
    have hne : values ≠ [] := Call.list_contributes.mp h
    simp only [Call.kind, Call.key, Call.value_text, decode_part, decode_list_value_text hne,
      Option.map_some]

theorem decode_parts_of_contributes (calls : List Call)
    (h : ∀ call ∈ calls, call.contributes = true) :
    decode_parts (calls.map Call.kind) (calls.map fun c => (c.key, c.value_text))
      = some calls := by
  induction calls with
  | nil => rfl
  | cons call rest ih =>
    have hcall := decode_part_value_text call (h call (List.mem_cons_self ..))
    have hrest := ih fun c hc => h c (List.mem_cons_of_mem _ hc)
    simp only [List.map_cons, decode_parts, hcall, hrest]

/-! ### The grammar of a query -/

theorem part_wellCoded (call : Call) : WellCoded [38, 61, 44] call.part := by
  refine (wellCoded_percentEncode _ _).append (.sep (by decide) ?_)
  cases call with
  | param key value => exact wellCoded_percentEncode _ _
  | list key values =>
    refine wellCoded_intercalate (by decide) _ fun p hp => ?_
    obtain ⟨v, -, rfl⟩ := List.mem_map.mp hp
    exact wellCoded_percentEncode _ _

theorem render_wellCoded (calls : List Call) :
    render calls = [] ∨ ∃ rest, render calls = 63 :: rest ∧ WellCoded [38, 61, 44] rest := by
  cases calls with
  | nil => exact Or.inl rfl
  | cons first rest =>
    refine Or.inr ⟨_, rfl, wellCoded_intercalate (by decide) _ fun p hp => ?_⟩
    obtain ⟨c, -, rfl⟩ := List.mem_map.mp hp
    exact part_wellCoded c

/-! ## No loss, no injection -/

/-- **The query builder is loss-free and injection-free.** Whatever is appended,
in any order, the string reads back as exactly the calls that contribute, and
it is empty or `?` followed by unreserved bytes, `%` escapes and the separators
`&`, `=` and `,`. -/
theorem query_roundtrip (calls : List Call) :
    decode_as ((calls.filter Call.contributes).map Call.kind) (build calls)
        = some (calls.filter Call.contributes)
      ∧ (build calls = [] ∨ ∃ rest, build calls = 63 :: rest ∧ WellCoded [38, 61, 44] rest) := by
  rw [build_eq]
  refine ⟨?_, render_wellCoded _⟩
  rw [decode_as, split_query_render, Option.bind_some]
  exact decode_parts_of_contributes _ fun call hcall => (List.mem_filter.mp hcall).2

end OpenMeteo
