/-
Decimal text for integers, and `printf("%g")` for doubles.

Integers are written without leading zeros and read back exactly. `formatG` is
the C standard's `%g` at its default precision: the value is rounded to six
significant digits, half to even; the exponent of the rounded value decides
between the fixed and the exponent form; and trailing zeros of the fraction are
dropped. All of it is computed from the exact rational a double denotes.
-/
import Mathlib.Data.Nat.Digits.Lemmas
import Mathlib.Algebra.Order.Ring.Rat
import OpenMeteo.Lib.Double

set_option autoImplicit false

namespace Decimal

/-! ## Integers -/

def digit (n : ℕ) : UInt8 := UInt8.ofNat (48 + n)

def natText (n : ℕ) : List UInt8 :=
  if n = 0 then [48] else ((Nat.digits 10 n).map digit).reverse

def intText (n : ℤ) : List UInt8 := if n < 0 then 45 :: natText n.natAbs else natText n.natAbs

/-- Append one digit to a number read so far. -/
def readDigit (acc : ℕ) (c : UInt8) : Option ℕ :=
  if 48 ≤ c ∧ c ≤ 57 then some (10 * acc + (c.toNat - 48)) else none

def readNat : List UInt8 → Option ℕ
  | [] => none
  | c :: rest => (c :: rest).foldlM readDigit 0

def readInt : List UInt8 → Option ℤ
  | [] => none
  | c :: rest =>
    if c = 45 then (readNat rest).map fun n : ℕ => -(n : ℤ) else (readNat (c :: rest)).map Int.ofNat

theorem readDigit_digit (acc : ℕ) : ∀ n, n < 10 → readDigit acc (digit n) = some (10 * acc + n) := by
  have hdig : ∀ n, n < 10 → 48 ≤ digit n ∧ digit n ≤ 57 ∧ (digit n).toNat - 48 = n := by decide
  intro n hn
  obtain ⟨hlo, hhi, hval⟩ := hdig n hn
  rw [readDigit, if_pos ⟨hlo, hhi⟩, hval]

/-- Reading most significant digits first, by induction on the digits, least
significant first. -/
theorem foldlM_readDigit (ds : List ℕ) (h : ∀ d ∈ ds, d < 10) :
    ((ds.map digit).reverse).foldlM readDigit 0 = some (Nat.ofDigits 10 ds) := by
  induction ds with
  | nil => rfl
  | cons d ds ih =>
    rw [List.map_cons, List.reverse_cons, List.foldlM_append,
      ih fun e he => h e (List.mem_cons_of_mem _ he), Nat.ofDigits_cons]
    simp only [Option.bind_eq_bind, Option.bind_some, List.foldlM_cons, List.foldlM_nil,
      readDigit_digit _ d (h d (List.mem_cons_self ..)), Option.pure_def]
    rw [add_comm]

theorem natText_ne_nil (n : ℕ) : natText n ≠ [] := by
  unfold natText
  split
  · exact List.cons_ne_nil _ _
  · next hn =>
    intro h
    rw [List.reverse_eq_nil_iff, List.map_eq_nil_iff, Nat.digits_eq_nil_iff_eq_zero] at h
    exact hn h

theorem readNat_natText (n : ℕ) : readNat (natText n) = some n := by
  have hfold : (natText n).foldlM readDigit 0 = some n := by
    unfold natText
    split
    · next hn =>
      rw [hn]
      rfl
    · rw [foldlM_readDigit _ fun d hd => Nat.digits_lt_base (by norm_num) hd, Nat.ofDigits_digits]
  -- `readNat` refuses the empty text, which no number is written as
  cases hc : natText n with
  | nil => exact absurd hc (natText_ne_nil n)
  | cons c rest =>
    rw [readNat, ← hc]
    exact hfold

/-- Digits of a number are digits, so no sign. -/
theorem natText_head (n : ℕ) (c : UInt8) (rest : List UInt8) (h : natText n = c :: rest) :
    c ≠ 45 := by
  intro hc
  have hread := readNat_natText n
  rw [h, hc, readNat, List.foldlM_cons] at hread
  exact absurd hread (by simp [readDigit])

/-- **Integers read back.** -/
theorem readInt_intText (n : ℤ) : readInt (intText n) = some n := by
  unfold intText
  split
  · next hneg =>
    rw [readInt, if_pos rfl, readNat_natText, Option.map_some]
    congr 1
    omega
  · next hpos =>
    cases hc : natText n.natAbs with
    | nil => exact absurd hc (natText_ne_nil _)
    | cons c rest =>
      rw [readInt, if_neg (natText_head _ _ _ hc), ← hc, readNat_natText, Option.map_some]
      congr 1
      exact Int.natAbs_of_nonneg (by omega)

/-! ## `%g` -/

/-- Round to the nearest integer, ties to even. -/
def roundHalfEven (q : ℚ) : ℤ :=
  let below := ⌊q⌋
  if q - below < 1 / 2 then below
  else if 1 / 2 < q - below then below + 1
  else if below % 2 = 0 then below
  else below + 1

/-- The six significant digits of a positive number, as an integer from 100000
to 999999, and its decimal exponent. Rounding up to 1000000 moves the
exponent. -/
def sixDigits (m : ℚ) : ℤ × ℤ :=
  let e := Int.log 10 m
  let n := roundHalfEven (m / 10 ^ (e - 5))
  if n = 1000000 then (100000, e + 1) else (n, e)

def dropTrailingZeros (ds : List UInt8) : List UInt8 :=
  (ds.reverse.dropWhile (· = 48)).reverse

/-- The fraction with its point, or nothing. -/
def fraction (ds : List UInt8) : List UInt8 :=
  match dropTrailingZeros ds with
  | [] => []
  | fs => 46 :: fs

/-- The fixed form of digits `ds` at exponent `e`. -/
def fixedForm (ds : List UInt8) (e : ℤ) : List UInt8 :=
  if 0 ≤ e then ds.take (e.toNat + 1) ++ fraction (ds.drop (e.toNat + 1))
  else 48 :: fraction (List.replicate (-e - 1).toNat 48 ++ ds)

/-- The exponent form, with at least two digits of exponent. -/
def exponentForm (ds : List UInt8) (e : ℤ) : List UInt8 :=
  ds.take 1 ++ fraction (ds.drop 1) ++ [101, if e < 0 then 45 else 43]
    ++ (if e.natAbs < 10 then 48 :: natText e.natAbs else natText e.natAbs)

def formatG (x : Double) : List UInt8 :=
  let sign : List UInt8 := if x.negative then [45] else []
  if x.isnan then sign ++ [110, 97, 110]
  else if ¬ x.isfinite then sign ++ [105, 110, 102]
  else if x.units = 0 then sign ++ [48]
  else
    let ds := natText (sixDigits x.magnitude).1.toNat
    let e := (sixDigits x.magnitude).2
    sign ++ if -4 ≤ e ∧ e < 6 then fixedForm ds e else exponentForm ds e

end Decimal
