/-
Percent coding of bytes, and text put together with separators.

`percentEncode` writes every byte that is not unreserved as `%` and two upper
case hex digits, so an encoded text contains no separator whatever was encoded.
That is the one fact splitting needs: `splitOn` undoes `intercalate` and
`splitFirst` undoes an append at the first separator as soon as the pieces do
not contain it. `WellCoded` is the grammar of what results.
-/
import Mathlib.Data.List.Basic
import Mathlib.Tactic.NormNum

set_option autoImplicit false

namespace UrlText

/-! ## Percent coding -/

/-- The bytes that stand for themselves: letters, digits, `-`, `_`, `.`, `~`. -/
def unreserved (c : UInt8) : Bool :=
  (97 ≤ c ∧ c ≤ 122) ∨ (65 ≤ c ∧ c ≤ 90) ∨ (48 ≤ c ∧ c ≤ 57)
    ∨ c = 45 ∨ c = 95 ∨ c = 46 ∨ c = 126

/-- The upper case hex digit of a number below 16. -/
def hexDigit (n : ℕ) : UInt8 := if n < 10 then UInt8.ofNat (48 + n) else UInt8.ofNat (55 + n)

def isUpperHex (c : UInt8) : Bool := (48 ≤ c ∧ c ≤ 57) ∨ (65 ≤ c ∧ c ≤ 70)

def hexValue (c : UInt8) : Option ℕ :=
  if 48 ≤ c ∧ c ≤ 57 then some (c.toNat - 48)
  else if 65 ≤ c ∧ c ≤ 70 then some (c.toNat - 55)
  else if 97 ≤ c ∧ c ≤ 102 then some (c.toNat - 87)
  else none

def percentByte (c : UInt8) : List UInt8 :=
  if unreserved c then [c] else [37, hexDigit (c.toNat / 16), hexDigit (c.toNat % 16)]

def percentEncode (bs : List UInt8) : List UInt8 := bs.flatMap percentByte

/-- Undo percent coding; `none` where a `%` is not followed by two hex digits. -/
def percentDecode : List UInt8 → Option (List UInt8)
  | [] => some []
  | c :: rest =>
    if c = 37 then
      match rest with
      | h :: l :: rest' =>
        match hexValue h, hexValue l, percentDecode rest' with
        | some hi, some lo, some bs => some (UInt8.ofNat (16 * hi + lo) :: bs)
        | _, _, _ => none
      | _ => none
    else (percentDecode rest).map (c :: ·)

theorem isUpperHex_hexDigit : ∀ n, n < 16 → isUpperHex (hexDigit n) = true := by decide

theorem hexValue_hexDigit : ∀ n, n < 16 → hexValue (hexDigit n) = some n := by decide

theorem unreserved_ne_percent {c : UInt8} (h : unreserved c = true) : c ≠ 37 := by
  intro hc
  rw [hc] at h
  exact absurd h (by decide)

theorem nibbles_lt (c : UInt8) : c.toNat / 16 < 16 ∧ c.toNat % 16 < 16 := by
  have := c.toNat_lt
  omega

@[simp] theorem percentEncode_nil : percentEncode [] = [] := rfl

@[simp] theorem percentEncode_cons (c : UInt8) (bs : List UInt8) :
    percentEncode (c :: bs) = percentByte c ++ percentEncode bs := rfl

theorem percentDecode_cons_ne {c : UInt8} (hc : c ≠ 37) (rest : List UInt8) :
    percentDecode (c :: rest) = (percentDecode rest).map (c :: ·) := by
  conv_lhs => unfold percentDecode
  rw [if_neg hc]

/-- One encoded byte in front of anything reads back as that byte. -/
theorem percentDecode_percentByte (c : UInt8) (rest : List UInt8) :
    percentDecode (percentByte c ++ rest) = (percentDecode rest).map (c :: ·) := by
  unfold percentByte
  by_cases hc : unreserved c = true
  -- an unreserved byte stands for itself, and is no `%`
  · rw [if_pos hc, List.singleton_append, percentDecode_cons_ne (unreserved_ne_percent hc)]
  · obtain ⟨hhi, hlo⟩ := nibbles_lt c
    have hback : UInt8.ofNat (16 * (c.toNat / 16) + c.toNat % 16) = c := by
      rw [Nat.div_add_mod, UInt8.ofNat_toNat]
    rw [if_neg hc, List.cons_append, List.cons_append, List.cons_append, List.nil_append,
      percentDecode, if_pos rfl]
    simp only [hexValue_hexDigit _ hhi, hexValue_hexDigit _ hlo]
    cases percentDecode rest with
    | none => rfl
    | some bs => simp only [hback, Option.map_some]

/-- **Percent coding is undone.** -/
theorem percentDecode_percentEncode (bs : List UInt8) :
    percentDecode (percentEncode bs) = some bs := by
  induction bs with
  | nil => rfl
  | cons c bs ih => rw [percentEncode_cons, percentDecode_percentByte, ih, Option.map_some]

/-- Every byte of an encoded text is unreserved or a `%`. -/
theorem mem_percentEncode {bs : List UInt8} {c : UInt8} (h : c ∈ percentEncode bs) :
    unreserved c = true ∨ c = 37 := by
  obtain ⟨b, -, hb⟩ := List.mem_flatMap.mp h
  unfold percentByte at hb
  have hdigit : ∀ n, n < 16 → unreserved (hexDigit n) = true := by decide
  obtain ⟨hhi, hlo⟩ := nibbles_lt b
  split at hb
  · next hu =>
    rw [List.mem_singleton.mp hb]
    exact Or.inl hu
  · simp only [List.mem_cons, List.not_mem_nil, or_false] at hb
    -- the `%`, and its two digits, which are unreserved
    rcases hb with h | h | h
    · exact Or.inr h
    · rw [h]
      exact Or.inl (hdigit _ hhi)
    · rw [h]
      exact Or.inl (hdigit _ hlo)

/-- A byte that is neither unreserved nor `%` does not occur in encoded text. -/
theorem not_mem_percentEncode {c : UInt8} (hu : unreserved c = false) (hp : c ≠ 37)
    (bs : List UInt8) : c ∉ percentEncode bs := by
  intro h
  rcases mem_percentEncode h with h | h
  · rw [hu] at h
    exact Bool.false_ne_true h
  · exact hp h

/-! ## The grammar of coded text -/

/-- Text of unreserved bytes, separators, and `%` with two upper case hex
digits. -/
inductive WellCoded (seps : List UInt8) : List UInt8 → Prop
  | nil : WellCoded seps []
  | plain {c : UInt8} {rest : List UInt8} : unreserved c = true → WellCoded seps rest →
      WellCoded seps (c :: rest)
  | sep {c : UInt8} {rest : List UInt8} : c ∈ seps → WellCoded seps rest →
      WellCoded seps (c :: rest)
  | escape {h l : UInt8} {rest : List UInt8} : isUpperHex h = true → isUpperHex l = true →
      WellCoded seps rest → WellCoded seps (37 :: h :: l :: rest)

theorem WellCoded.append {seps xs ys : List UInt8} (hx : WellCoded seps xs)
    (hy : WellCoded seps ys) : WellCoded seps (xs ++ ys) := by
  induction hx with
  | nil => exact hy
  | plain hc _ ih => exact .plain hc ih
  | sep hc _ ih => exact .sep hc ih
  | escape hh hl _ ih => exact .escape hh hl ih

theorem wellCoded_percentEncode (seps bs : List UInt8) : WellCoded seps (percentEncode bs) := by
  induction bs with
  | nil => exact .nil
  | cons c bs ih =>
    rw [percentEncode_cons]
    refine WellCoded.append ?_ ih
    obtain ⟨hhi, hlo⟩ := nibbles_lt c
    unfold percentByte
    split
    · next hu => exact .plain hu .nil
    · exact .escape (isUpperHex_hexDigit _ hhi) (isUpperHex_hexDigit _ hlo) .nil

/-- Coded text has no other byte. -/
theorem WellCoded.not_mem {seps bs : List UInt8} {c : UInt8} (h : WellCoded seps bs)
    (hu : unreserved c = false) (hp : c ≠ 37) (hs : c ∉ seps) : c ∉ bs := by
  -- a hex digit is unreserved
  have hdigit : ∀ d, isUpperHex d = true → unreserved d = true := by
    intro d hd
    simp only [isUpperHex, unreserved, decide_eq_true_eq] at hd ⊢
    rcases hd with hd | ⟨hlo, hhi⟩
    · exact Or.inr (Or.inr (Or.inl hd))
    · exact Or.inr (Or.inl ⟨hlo, UInt8.le_trans hhi (by decide : (70 : UInt8) ≤ 90)⟩)
  have hne : ∀ d, unreserved d = true → c ≠ d := by
    rintro d hd rfl
    rw [hu] at hd
    exact Bool.false_ne_true hd
  induction h with
  | nil => exact List.not_mem_nil
  | plain hd _ ih => exact List.not_mem_cons_of_ne_of_not_mem (hne _ hd) ih
  | sep hd _ ih => exact List.not_mem_cons_of_ne_of_not_mem (fun h => hs (h ▸ hd)) ih
  | escape hh hl _ ih =>
    refine List.not_mem_cons_of_ne_of_not_mem hp ?_
    refine List.not_mem_cons_of_ne_of_not_mem (hne _ (hdigit _ hh)) ?_
    exact List.not_mem_cons_of_ne_of_not_mem (hne _ (hdigit _ hl)) ih

/-- Well coded pieces put together with one of the separators. -/
theorem wellCoded_intercalate {seps : List UInt8} {c : UInt8} (hc : c ∈ seps)
    (pieces : List (List UInt8)) (h : ∀ p ∈ pieces, WellCoded seps p) :
    WellCoded seps ([c].intercalate pieces) := by
  induction pieces with
  | nil => exact .nil
  | cons p rest ih =>
    have hp := h p (List.mem_cons_self ..)
    have hrest := ih fun q hq => h q (List.mem_cons_of_mem _ hq)
    cases rest with
    | nil => simpa using hp
    | cons q rest =>
      rw [List.intercalate_cons_cons]
      exact (hp.append (.sep hc .nil)).append hrest

/-! ## Joining one piece more -/

theorem intercalate_concat {α : Type} (c : α) {xs : List (List α)} (hxs : xs ≠ [])
    (x : List α) : [c].intercalate (xs ++ [x]) = [c].intercalate xs ++ c :: x := by
  induction xs with
  | nil => exact absurd rfl hxs
  | cons y rest ih =>
    by_cases hrest : rest = []
    · subst hrest
      simp
    · rw [List.cons_append, List.intercalate_cons_of_ne_nil (by simp), ih hrest,
        List.intercalate_cons_of_ne_nil hrest, List.append_assoc, List.append_assoc,
        List.append_assoc]

/-! ## Splitting at the first separator -/

variable {α : Type} [DecidableEq α]

/-- What is before the first `c`, and what is after it if there is one. -/
def splitFirst (c : α) : List α → List α × Option (List α)
  | [] => ([], none)
  | x :: rest =>
    if x = c then ([], some rest) else (x :: (splitFirst c rest).1, (splitFirst c rest).2)

theorem splitFirst_of_not_mem {c : α} {xs : List α} (h : c ∉ xs) :
    splitFirst c xs = (xs, none) := by
  induction xs with
  | nil => rfl
  | cons x rest ih =>
    rw [List.mem_cons, not_or] at h
    rw [splitFirst, if_neg (Ne.symm h.1), ih h.2]

theorem splitFirst_append {c : α} {xs : List α} (h : c ∉ xs) (ys : List α) :
    splitFirst c (xs ++ c :: ys) = (xs, some ys) := by
  induction xs with
  | nil => rw [List.nil_append, splitFirst, if_pos rfl]
  | cons x rest ih =>
    rw [List.mem_cons, not_or] at h
    rw [List.cons_append, splitFirst, if_neg (Ne.symm h.1), ih h.2]

/-- Every text is its own first part, free of the separator, with the rest. -/
theorem splitFirst_spec (c : α) (xs : List α) :
    (c ∉ xs ∧ splitFirst c xs = (xs, none))
      ∨ ∃ pre post, c ∉ pre ∧ xs = pre ++ c :: post ∧ splitFirst c xs = (pre, some post) := by
  by_cases h : c ∈ xs
  · obtain ⟨pre, post, rfl, hpre⟩ := List.eq_append_cons_of_mem h
    exact Or.inr ⟨pre, post, hpre, rfl, splitFirst_append hpre post⟩
  · exact Or.inl ⟨h, splitFirst_of_not_mem h⟩

/-! ## The parts of a URL -/

/-- What is before the query, the query, and the fragment. -/
structure UrlParts where
  before : List UInt8
  query : Option (List UInt8)
  fragment : Option (List UInt8)
  deriving DecidableEq, Repr

/-- A URL at its first `#`, and what is before that at its first `?`. -/
def urlParts (url : List UInt8) : UrlParts where
  before := (splitFirst 63 (splitFirst 35 url).1).1
  query := (splitFirst 63 (splitFirst 35 url).1).2
  fragment := (splitFirst 35 url).2

/-- The parts of the query, none without a query. -/
def UrlParts.parameters (parts : UrlParts) : List (List UInt8) :=
  match parts.query with
  | none => []
  | some query => query.splitOn 38

theorem splitOn_append_last {c : α} {last : List α} (h : c ∉ last) (xs : List α) :
    (xs ++ c :: last).splitOn c = xs.splitOn c ++ [last] := by
  rw [List.splitOn_eq_splitOnP, List.splitOnP_append_cons _ _ (by simp),
    ← List.splitOn_eq_splitOnP, ← List.splitOn_eq_splitOnP, List.splitOn_eq_singleton h]

end UrlText
