/-
`std::string_view`, as a list.

Positions are natural numbers and `npos` is `none`. The searches are the first
or last position whose element passes a test, and `find_text` is the first
position at which a whole text starts.
-/
import Mathlib.Data.List.TakeWhile

set_option autoImplicit false

namespace StringView

/-! ## Pieces -/

variable {α : Type}

/-- `s.insert(pos, text)`. -/
def insert (s : List α) (pos : ℕ) (text : List α) : List α := s.take pos ++ text ++ s.drop pos

def substr (s : List α) (pos count : ℕ) : List α := (s.drop pos).take count

theorem insert_append (before text after : List α) :
    insert (before ++ after) before.length text = before ++ text ++ after := by
  rw [insert, List.take_left, List.drop_left]

variable [DecidableEq α]

/-! ## Searches -/

def find (s : List α) (c : α) : Option ℕ := s.findIdx? (· = c)

def find_first_of (s set : List α) : Option ℕ := s.findIdx? (· ∈ set)

def find_first_not_of (s set : List α) : Option ℕ := s.findIdx? (· ∉ set)

def find_last_not_of (s set : List α) : Option ℕ :=
  (find_first_not_of s.reverse set).map fun i => s.length - 1 - i

def starts_with (s text : List α) : Bool := text.isPrefixOf s

/-- The first position at which `text` starts. -/
def find_text (s text : List α) : Option ℕ :=
  match s with
  | [] => if text.isEmpty then some 0 else none
  | c :: rest => if starts_with (c :: rest) text then some 0 else (find_text rest text).map (· + 1)

/-- What a reader of a terminated string sees: everything before the first terminator. -/
def until_terminator (nul : α) (s : List α) : List α := s.takeWhile (· ≠ nul)

/-! ## What the searches find -/

theorem find_eq_none {s : List α} {c : α} : find s c = none ↔ c ∉ s := by
  rw [find, List.findIdx?_eq_none_iff]
  constructor
  · intro h hc
    exact absurd (h c hc) (by simp)
  · intro h x hx
    have hne : x ≠ c := fun hxc => h (hxc ▸ hx)
    simpa using hne

theorem find_append {c : α} {before : List α} (h : c ∉ before) (after : List α) :
    find (before ++ c :: after) c = some before.length := by
  induction before with
  | nil => simp [find, List.findIdx?_cons]
  | cons x rest ih =>
    rw [List.mem_cons, not_or] at h
    have hx : ¬ x = c := Ne.symm h.1
    have hrest := ih h.2
    rw [find] at hrest
    simp [find, List.findIdx?_cons, hx, hrest]

/-- A text is found where it starts. -/
theorem find_text_eq_some {text : List α} :
    ∀ {s : List α} {i : ℕ}, find_text s text = some i → ∃ after, s = s.take i ++ text ++ after := by
  intro s
  induction s with
  | nil =>
    intro i h
    rw [find_text] at h
    split at h
    · next hempty =>
      rw [List.isEmpty_iff] at hempty
      exact ⟨[], by rw [hempty, List.take_nil]; rfl⟩
    · cases h
  | cons c rest ih =>
    intro i h
    rw [find_text] at h
    split at h
    · next hstarts =>
      cases h
      obtain ⟨after, hafter⟩ := List.isPrefixOf_iff_prefix.mp hstarts
      exact ⟨after, by rw [List.take_zero, List.nil_append, hafter]⟩
    · obtain ⟨j, hj, rfl⟩ := Option.map_eq_some_iff.mp h
      obtain ⟨after, hafter⟩ := ih hj
      refine ⟨after, ?_⟩
      rw [List.take_succ_cons, List.cons_append, List.cons_append, ← hafter]

/-- It is found behind elements that are not its first one. -/
theorem find_text_append {c : α} {before : List α} (h : c ∉ before) (text after : List α) :
    find_text (before ++ c :: text ++ after) (c :: text) = some before.length := by
  induction before with
  | nil =>
    rw [List.nil_append, List.cons_append, find_text, if_pos, List.length_nil]
    exact List.isPrefixOf_iff_prefix.mpr (List.prefix_append (c :: text) after)
  | cons d rest ih =>
    rw [List.mem_cons, not_or] at h
    rw [List.cons_append, List.cons_append, find_text, if_neg, ih h.2]
    · rfl
    · rw [starts_with, List.isPrefixOf_iff_prefix, List.cons_prefix_cons]
      exact fun hprefix => h.1 hprefix.1

theorem find_first_of_eq_none {s set : List α} : find_first_of s set = none ↔ ∀ c ∈ s, c ∉ set := by
  simp [find_first_of, List.findIdx?_eq_none_iff]

theorem until_terminator_of_not_mem {nul : α} {s : List α} (h : nul ∉ s) :
    until_terminator nul s = s := by
  rw [until_terminator, List.takeWhile_eq_self_iff]
  intro x hx
  have hne : x ≠ nul := fun hxn => h (hxn ▸ hx)
  simpa using hne

/-! ## Trimming -/

/-- Without the leading and the trailing elements of `set`. -/
def trim (s set : List α) : List α :=
  ((s.dropWhile (· ∈ set)).reverse.dropWhile (· ∈ set)).reverse

omit [DecidableEq α] in
theorem dropWhile_eq_drop (p : α → Bool) (s : List α) :
    s.dropWhile p = s.drop (s.takeWhile p).length := by
  induction s with
  | nil => rfl
  | cons c rest ih =>
    rw [List.dropWhile_cons, List.takeWhile_cons]
    split
    · exact ih
    · rfl

omit [DecidableEq α] in
/-- A run of elements that pass a test ends before one that does not. -/
theorem takeWhile_length_lt {p : α → Bool} {s : List α} (h : ∃ c ∈ s, p c = false) :
    (s.takeWhile p).length < s.length := by
  induction s with
  | nil =>
    obtain ⟨c, hc, -⟩ := h
    cases hc
  | cons c rest ih =>
    rw [List.takeWhile_cons]
    by_cases hp : p c = true
    · have hrest : ∃ d ∈ rest, p d = false := by
        obtain ⟨d, hd, hfails⟩ := h
        rcases List.mem_cons.mp hd with rfl | hmem
        · rw [hp] at hfails
          cases hfails
        · exact ⟨d, hmem, hfails⟩
      rw [if_pos hp, List.length_cons, List.length_cons]
      exact Nat.succ_lt_succ (ih hrest)
    · rw [if_neg hp]
      exact Nat.succ_pos _

/-- The first element outside a set is where the elements inside it end. -/
theorem find_first_not_of_eq_some {s set : List α} (h : ∃ c ∈ s, c ∉ set) :
    find_first_not_of s set = some (s.takeWhile (· ∈ set)).length := by
  induction s with
  | nil =>
    obtain ⟨c, hc, -⟩ := h
    cases hc
  | cons c rest ih =>
    rw [find_first_not_of, List.findIdx?_cons, List.takeWhile_cons]
    by_cases hset : c ∈ set
    · have hrest : ∃ d ∈ rest, d ∉ set := by
        obtain ⟨d, hd, hdset⟩ := h
        rcases List.mem_cons.mp hd with rfl | hmem
        · exact absurd hset hdset
        · exact ⟨d, hmem, hdset⟩
      rw [← find_first_not_of, ih hrest]
      simp [hset]
    · simp [hset]

theorem find_first_not_of_eq_none {s set : List α} :
    find_first_not_of s set = none ↔ ∀ c ∈ s, c ∈ set := by
  simp [find_first_not_of, List.findIdx?_eq_none_iff]

/-- **What two searches and a `substr` cut out** is the trimmed text. -/
theorem substr_eq_trim (s set : List α) :
    (match find_first_not_of s set, find_last_not_of s set with
      | some start, some stop => substr s start (stop - start + 1)
      | _, _ => []) = trim s set := by
  by_cases hblank : ∀ c ∈ s, c ∈ set
  · have hdrop : s.dropWhile (· ∈ set) = [] := by
      rw [List.dropWhile_eq_nil_iff]
      simpa using hblank
    rw [find_first_not_of_eq_none.mpr hblank, trim, hdrop]
    rfl
  · have hsome : ∃ c ∈ s, c ∉ set := by simpa using hblank
    have hreverse : ∃ c ∈ s.reverse, c ∉ set := by simpa using hsome
    -- what is left in front of the trailing elements ends in one outside the set
    have hmid : ∃ c ∈ (s.dropWhile (· ∈ set)).reverse, decide (c ∈ set) = false := by
      obtain ⟨c, hc, hset⟩ := hsome
      rw [← List.takeWhile_append_dropWhile (p := (· ∈ set)) (l := s), List.mem_append] at hc
      rcases hc with hfront | hback
      · exact absurd (by simpa using List.mem_takeWhile_imp hfront) hset
      · exact ⟨c, List.mem_reverse.mpr hback, by simpa using hset⟩
    have hshort := takeWhile_length_lt hmid
    have htail : s.reverse.takeWhile (· ∈ set)
        = (s.dropWhile (· ∈ set)).reverse.takeWhile (· ∈ set) := by
      rw [← List.takeWhile_append_dropWhile (p := (· ∈ set)) (l := s), List.reverse_append,
        List.takeWhile_append, if_neg (Nat.ne_of_lt (by simpa using hshort))]
      simp
    rw [find_last_not_of, find_first_not_of_eq_some hsome, find_first_not_of_eq_some hreverse, htail]
    dsimp only [Option.map_some]
    rw [trim, dropWhile_eq_drop _ (s.dropWhile (· ∈ set)).reverse, List.drop_reverse,
      List.reverse_reverse, substr, ← dropWhile_eq_drop]
    rw [List.length_reverse] at hshort
    have hlength : (s.takeWhile (· ∈ set)).length + (s.dropWhile (· ∈ set)).length = s.length := by
      rw [← List.length_append, List.takeWhile_append_dropWhile]
    congr 1
    omega

end StringView
