/-
Reading decimal text, and what `%g` leaves of a number.

`readDecimal` takes a sign, digits, a point with digits, and an exponent.
Trailing zeros of a fraction carry no value, so the fixed and the exponent form
read back as the same six digits. Those six digits are nearest to the number
among all decimals of at most six digits, and are the only such decimal within
half a unit in the last place of a normal double; a subnormal double is met by
the nearest of them whenever it is met at all. So text that is read as a double
and written again is the same text, unless the double is subnormal.
-/
import Mathlib.Data.Int.Log
import Mathlib.Data.List.TakeWhile
import Mathlib.Tactic.Linarith
import Mathlib.Tactic.FieldSimp
import OpenMeteo.Lib.Decimal
import OpenMeteo.Lib.DoubleArith
import OpenMeteo.Lib.UrlText

set_option autoImplicit false

namespace Decimal

open UrlText

/-! ## Reading -/

/-- Digits, with a point among them or none. -/
def readMantissa (cs : List UInt8) : Option ℚ :=
  match splitFirst 46 cs with
  | (whole, none) => (readNat whole).map fun n : ℕ => (n : ℚ)
  | (whole, some fs) => (readNat (whole ++ fs)).map fun n : ℕ => (n : ℚ) / 10 ^ fs.length

/-- An integer that may have a `+`. -/
def readExponent : List UInt8 → Option ℤ
  | [] => none
  | c :: rest => if c = 43 then (readNat rest).map Int.ofNat else readInt (c :: rest)

/-- A mantissa, with an exponent behind `e` or none. -/
def readUnsigned (cs : List UInt8) : Option ℚ :=
  match splitFirst 101 cs with
  | (mantissa, none) => readMantissa mantissa
  | (mantissa, some es) =>
    (readMantissa mantissa).bind fun m => (readExponent es).map fun e => m * 10 ^ e

def readDecimal : List UInt8 → Option ℚ
  | [] => none
  | c :: rest => if c = 45 then (readUnsigned rest).map fun v => -v else readUnsigned (c :: rest)

/-! ## Digits and zeros -/

theorem foldlM_zeros (n k : ℕ) :
    (List.replicate k (48 : UInt8)).foldlM readDigit n = some (n * 10 ^ k) := by
  induction k generalizing n with
  | zero => rw [List.replicate_zero, List.foldlM_nil, pow_zero, Nat.mul_one]; rfl
  | succ k ih =>
    have hzero : readDigit n 48 = some (10 * n) := rfl
    rw [List.replicate_succ, List.foldlM_cons, hzero, Option.bind_eq_bind, Option.bind_some, ih,
      pow_succ']
    congr 1
    ring

/-- Zeros behind digits multiply what the digits say. -/
theorem foldlM_of_append_zeros {cs : List UInt8} {k n : ℕ}
    (h : (cs ++ List.replicate k 48).foldlM readDigit 0 = some n) :
    ∃ n', cs.foldlM readDigit 0 = some n' ∧ n = n' * 10 ^ k := by
  rw [List.foldlM_append, Option.bind_eq_bind, Option.bind_eq_some_iff] at h
  obtain ⟨n', hread, hzeros⟩ := h
  rw [foldlM_zeros] at hzeros
  exact ⟨n', hread, (Option.some.inj hzeros).symm⟩

theorem digits_of_foldlM {cs : List UInt8} {acc n : ℕ} (h : cs.foldlM readDigit acc = some n) :
    ∀ c ∈ cs, 48 ≤ c ∧ c ≤ 57 := by
  induction cs generalizing acc with
  | nil => exact fun c hc => absurd hc List.not_mem_nil
  | cons d rest ih =>
    rw [List.foldlM_cons, Option.bind_eq_bind, Option.bind_eq_some_iff] at h
    obtain ⟨acc', hdigit, hrest⟩ := h
    intro c hc
    rcases List.mem_cons.mp hc with rfl | hc
    · by_contra hno
      rw [readDigit, if_neg hno] at hdigit
      exact absurd hdigit (Option.some_ne_none _).symm
    · exact ih hrest c hc

theorem readNat_of_foldlM {cs : List UInt8} {n : ℕ} (hne : cs ≠ [])
    (h : cs.foldlM readDigit 0 = some n) : readNat cs = some n := by
  cases cs with
  | nil => exact absurd rfl hne
  | cons c rest => exact h

theorem foldlM_natText (n : ℕ) : (natText n).foldlM readDigit 0 = some n := by
  have hread := readNat_natText n
  cases hc : natText n with
  | nil => exact absurd hc (natText_ne_nil n)
  | cons c rest =>
    rw [hc] at hread
    exact hread

theorem dropTrailingZeros_spec (ds : List UInt8) :
    ∃ k, ds = dropTrailingZeros ds ++ List.replicate k 48 := by
  refine ⟨(ds.reverse.takeWhile (· = 48)).length, ?_⟩
  have hzeros : ds.reverse.takeWhile (· = 48)
      = List.replicate (ds.reverse.takeWhile (· = 48)).length 48 :=
    List.eq_replicate_of_mem fun c hc => by simpa using List.mem_takeWhile_imp hc
  calc ds = (ds.reverse.takeWhile (· = 48) ++ ds.reverse.dropWhile (· = 48)).reverse := by
        rw [List.takeWhile_append_dropWhile, List.reverse_reverse]
    _ = dropTrailingZeros ds ++ (ds.reverse.takeWhile (· = 48)).reverse := List.reverse_append
    _ = dropTrailingZeros ds
          ++ List.replicate (ds.reverse.takeWhile (· = 48)).length 48 := by
        conv_lhs => rw [hzeros, List.reverse_replicate]

/-- A fraction has the digits it is made of, and its point. -/
theorem mem_fraction {ds : List UInt8} {c : UInt8} (h : c ∈ fraction ds) : c = 46 ∨ c ∈ ds := by
  obtain ⟨k, hk⟩ := dropTrailingZeros_spec ds
  unfold fraction at h
  split at h
  · exact absurd h List.not_mem_nil
  · rcases List.mem_cons.mp h with h | h
    · exact Or.inl h
    · rw [hk]
      exact Or.inr (List.mem_append_left _ h)

/-- **Dropping the zeros of a fraction keeps its value.** -/
theorem readMantissa_fraction {whole fs : List UInt8} {n : ℕ} (hwhole : whole ≠ [])
    (h : (whole ++ fs).foldlM readDigit 0 = some n) :
    readMantissa (whole ++ fraction fs) = some ((n : ℚ) / 10 ^ fs.length) := by
  have hdot : (46 : UInt8) ∉ whole := fun hmem =>
    absurd (digits_of_foldlM h 46 (List.mem_append_left _ hmem)) (by decide)
  obtain ⟨k, hk⟩ := dropTrailingZeros_spec fs
  have hlen : fs.length = (dropTrailingZeros fs).length + k := by
    conv_lhs => rw [hk]
    rw [List.length_append, List.length_replicate]
  rw [hk, ← List.append_assoc] at h
  obtain ⟨n', hread, rfl⟩ := foldlM_of_append_zeros h
  have hpow : (10 : ℚ) ^ k ≠ 0 := by positivity
  have hvalue : ((n' * 10 ^ k : ℕ) : ℚ) / 10 ^ fs.length
      = n' / 10 ^ (dropTrailingZeros fs).length := by
    rw [hlen, pow_add, Nat.cast_mul, Nat.cast_pow, Nat.cast_ofNat, mul_div_mul_right _ _ hpow]
  rw [hvalue]
  cases hds : dropTrailingZeros fs with
  | nil =>
    rw [hds, List.append_nil] at hread
    simp only [fraction, hds, List.append_nil, readMantissa, splitFirst_of_not_mem hdot,
      readNat_of_foldlM hwhole hread, Option.map_some, List.length_nil, pow_zero, div_one]
  | cons d rest =>
    rw [hds] at hread
    have hne : whole ++ d :: rest ≠ [] := List.append_ne_nil_of_left_ne_nil hwhole _
    simp only [fraction, hds, readMantissa, splitFirst_append hdot, readNat_of_foldlM hne hread,
      Option.map_some]

/-! ## The two forms -/

theorem natText_length {n : ℕ} (hlow : 100000 ≤ n) (hhigh : n < 1000000) :
    (natText n).length = 6 := by
  have hlog : Nat.log 10 n = 5 := (Nat.log_eq_iff (by omega)).mpr ⟨by omega, by omega⟩
  rw [natText, if_neg (by omega), List.length_reverse, List.length_map,
    Nat.length_digits 10 n (by norm_num) (by omega), hlog]

theorem div_pow_eq (q : ℚ) {k : ℕ} (e : ℤ) (h : (k : ℤ) = 5 - e) :
    q / 10 ^ k = q * 10 ^ (e - 5) := by
  have hexp : e - 5 = -(k : ℤ) := by omega
  rw [hexp, zpow_neg, zpow_natCast, div_eq_mul_inv]

theorem readMantissa_fixedForm {ds : List UInt8} {n : ℕ} {e : ℤ} (hlen : ds.length = 6)
    (h : ds.foldlM readDigit 0 = some n) (he : e < 6) :
    readMantissa (fixedForm ds e) = some ((n : ℚ) * 10 ^ (e - 5)) := by
  unfold fixedForm
  by_cases hneg : 0 ≤ e
  · have hwhole : ds.take (e.toNat + 1) ≠ [] := by
      intro hnil
      have := congrArg List.length hnil
      rw [List.length_take, hlen, List.length_nil] at this
      omega
    have hread : (ds.take (e.toNat + 1) ++ ds.drop (e.toNat + 1)).foldlM readDigit 0 = some n := by
      rw [List.take_append_drop, h]
    rw [if_pos hneg, readMantissa_fraction hwhole hread,
      div_pow_eq _ e (by rw [List.length_drop, hlen]; omega)]
  -- zeros in front of the digits say nothing
  · have hread : ([48] ++ (List.replicate (-e - 1).toNat 48 ++ ds)).foldlM readDigit 0 = some n := by
      have hone : ([48] : List UInt8) = List.replicate 1 48 := rfl
      rw [List.foldlM_append, hone, foldlM_zeros, Option.bind_eq_bind, Option.bind_some,
        List.foldlM_append, foldlM_zeros, Option.bind_eq_bind, Option.bind_some, Nat.zero_mul,
        Nat.zero_mul, h]
    rw [if_neg hneg, ← List.singleton_append,
      readMantissa_fraction (List.cons_ne_nil _ _) hread,
      div_pow_eq _ e (by rw [List.length_append, List.length_replicate, hlen]; omega)]

theorem not_mem_fixedForm {ds : List UInt8} {n : ℕ} (h : ds.foldlM readDigit 0 = some n) (e : ℤ) :
    (101 : UInt8) ∉ fixedForm ds e := by
  have hds : (101 : UInt8) ∉ ds := fun hmem => absurd (digits_of_foldlM h 101 hmem) (by decide)
  have hfraction : ∀ fs : List UInt8, (101 : UInt8) ∉ fs → (101 : UInt8) ∉ fraction fs :=
    fun fs hfs hmem => (mem_fraction hmem).elim (absurd · (by decide)) hfs
  unfold fixedForm
  split
  · rw [List.mem_append, not_or]
    exact ⟨fun hmem => hds (List.mem_of_mem_take hmem),
      hfraction _ fun hmem => hds (List.mem_of_mem_drop hmem)⟩
  · rw [List.mem_cons, not_or]
    refine ⟨by decide, hfraction _ ?_⟩
    rw [List.mem_append, not_or, List.mem_replicate]
    exact ⟨fun hmem => absurd hmem.2 (by decide), hds⟩

theorem readUnsigned_fixedForm {ds : List UInt8} {n : ℕ} {e : ℤ} (hlen : ds.length = 6)
    (h : ds.foldlM readDigit 0 = some n) (he : e < 6) :
    readUnsigned (fixedForm ds e) = some ((n : ℚ) * 10 ^ (e - 5)) := by
  rw [readUnsigned, splitFirst_of_not_mem (not_mem_fixedForm h e)]
  exact readMantissa_fixedForm hlen h he

/-- The exponent as `%g` writes it, sign and at least two digits. -/
theorem readExponent_exponentForm (e : ℤ) :
    readExponent ((if e < 0 then 45 else 43)
      :: if e.natAbs < 10 then 48 :: natText e.natAbs else natText e.natAbs) = some e := by
  have hdigits : readNat (if e.natAbs < 10 then 48 :: natText e.natAbs else natText e.natAbs)
      = some e.natAbs := by
    split
    · exact foldlM_natText e.natAbs
    · exact readNat_natText e.natAbs
  by_cases hneg : e < 0
  · rw [if_pos hneg, readExponent, if_neg (by decide), readInt, if_pos rfl, hdigits,
      Option.map_some]
    congr 1
    omega
  · rw [if_neg hneg, readExponent, if_pos rfl, hdigits, Option.map_some]
    congr 1
    exact Int.natAbs_of_nonneg (by omega)

theorem readUnsigned_exponentForm {ds : List UInt8} {n : ℕ} (hlen : ds.length = 6)
    (h : ds.foldlM readDigit 0 = some n) (e : ℤ) :
    readUnsigned (exponentForm ds e) = some ((n : ℚ) * 10 ^ (e - 5)) := by
  -- the mantissa is the fixed form at exponent 0
  have hmantissa : ds.take 1 ++ fraction (ds.drop 1) = fixedForm ds 0 := rfl
  have hvalue : (n : ℚ) * 10 ^ ((0 : ℤ) - 5) * 10 ^ e = n * 10 ^ (e - 5) := by
    rw [mul_assoc, ← zpow_add₀ (by norm_num)]
    congr 2
    ring
  rw [exponentForm, hmantissa, List.append_assoc, List.cons_append, List.singleton_append,
    readUnsigned, splitFirst_append (not_mem_fixedForm h 0)]
  simp only [readMantissa_fixedForm hlen h (by norm_num : (0 : ℤ) < 6),
    readExponent_exponentForm e, Option.bind_some, Option.map_some, hvalue]

/-! ## Six significant digits -/

/-- A positive number at six significant digits. -/
def sixDigitValue (m : ℚ) : ℚ := (sixDigits m).1 * 10 ^ ((sixDigits m).2 - 5)

/-- A number at six significant digits. -/
def atSixDigits (q : ℚ) : ℚ := if q < 0 then -sixDigitValue (-q) else sixDigitValue q

theorem abs_roundHalfEven_sub_le (q : ℚ) : |roundHalfEven q - q| ≤ 1 / 2 := by
  have hfloor := Int.floor_le q
  have hceil := Int.lt_floor_add_one q
  simp only [roundHalfEven]
  rw [abs_le]
  split_ifs with hlow hhigh heven
  · constructor
    · linarith
    · linarith
  · push_cast
    constructor
    · linarith
    · linarith
  -- a tie: either neighbour is half a step away
  · constructor
    · linarith
    · linarith
  · push_cast
    constructor
    · linarith
    · linarith

/-- The grid the digits are on: the number is between `10 ^ 5` and `10 ^ 6` of
its steps. -/
theorem grid_bounds {m : ℚ} (hm : 0 < m) :
    0 < (10 : ℚ) ^ (Int.log 10 m - 5) ∧ 100000 * (10 : ℚ) ^ (Int.log 10 m - 5) ≤ m
      ∧ m < 1000000 * (10 : ℚ) ^ (Int.log 10 m - 5) := by
  have hlow := Int.zpow_log_le_self (b := 10) (by norm_num) hm
  have hhigh := Int.lt_zpow_succ_log_self (b := 10) (by norm_num) m
  have hsplit : (10 : ℚ) ^ Int.log 10 m = 100000 * 10 ^ (Int.log 10 m - 5) := by
    rw [zpow_sub₀ (by norm_num)]
    norm_num
    ring
  rw [zpow_add_one₀ (by norm_num)] at hhigh
  push_cast at hlow hhigh
  refine ⟨zpow_pos (by norm_num) _, ?_, ?_⟩ <;> linarith

theorem sixDigits_spec {m : ℚ} (hm : 0 < m) :
    100000 ≤ (sixDigits m).1 ∧ (sixDigits m).1 < 1000000
      ∧ sixDigitValue m
        = roundHalfEven (m / 10 ^ (Int.log 10 m - 5)) * 10 ^ (Int.log 10 m - 5) := by
  obtain ⟨hpos, hlow, hhigh⟩ := grid_bounds hm
  rw [← le_div_iff₀ hpos] at hlow
  rw [← div_lt_iff₀ hpos] at hhigh
  obtain ⟨hnlow, hnhigh⟩ := abs_le.mp (abs_roundHalfEven_sub_le (m / 10 ^ (Int.log 10 m - 5)))
  have hge : 100000 ≤ roundHalfEven (m / 10 ^ (Int.log 10 m - 5)) := by
    have : (99999 : ℚ) < roundHalfEven (m / 10 ^ (Int.log 10 m - 5)) := by linarith
    have : (99999 : ℤ) < roundHalfEven (m / 10 ^ (Int.log 10 m - 5)) := by exact_mod_cast this
    omega
  have hle : roundHalfEven (m / 10 ^ (Int.log 10 m - 5)) ≤ 1000000 := by
    have : (roundHalfEven (m / 10 ^ (Int.log 10 m - 5)) : ℚ) < 1000001 := by linarith
    have : roundHalfEven (m / 10 ^ (Int.log 10 m - 5)) < (1000001 : ℤ) := by exact_mod_cast this
    omega
  simp only [sixDigitValue, sixDigits]
  -- rounding up to the next power of ten moves the exponent
  by_cases hcarry : roundHalfEven (m / 10 ^ (Int.log 10 m - 5)) = 1000000
  · rw [if_pos hcarry, hcarry]
    refine ⟨le_refl _, by norm_num, ?_⟩
    have hexp : Int.log 10 m + 1 - 5 = Int.log 10 m - 5 + 1 := by ring
    simp only [hexp, zpow_add_one₀ (by norm_num : (10 : ℚ) ≠ 0)]
    push_cast
    ring
  · rw [if_neg hcarry]
    exact ⟨hge, by omega, rfl⟩

theorem atSixDigits_zero : atSixDigits 0 = 0 := by
  have hround : roundHalfEven 0 = 0 := by norm_num [roundHalfEven]
  have hsix : sixDigits 0 = (0, Int.log 10 (0 : ℚ)) := by
    rw [sixDigits, zero_div, hround, if_neg (by norm_num)]
  rw [atSixDigits, if_neg (lt_irrefl 0), sixDigitValue, hsix, Int.cast_zero, zero_mul]

/-! ## `%g` read back -/

/-- A mantissa has no sign of its own. -/
theorem readUnsigned_minus (rest : List UInt8) : readUnsigned (45 :: rest) = none := by
  have hread : ∀ cs : List UInt8, readNat (45 :: cs) = none := by
    intro cs
    rw [readNat, List.foldlM_cons, show readDigit 0 45 = none from rfl]
    rfl
  have hmantissa : ∀ cs : List UInt8, readMantissa (45 :: cs) = none := by
    intro cs
    rw [readMantissa, splitFirst, if_neg (by decide)]
    cases (splitFirst 46 cs).2 with
    | none => simp only [hread, Option.map_none]
    | some fs => simp only [List.cons_append, hread, Option.map_none]
  rw [readUnsigned, splitFirst, if_neg (by decide)]
  cases (splitFirst 101 rest).2 with
  | none => simp only [hmantissa]
  | some es => simp only [hmantissa, Option.bind_none]

theorem readDecimal_sign (negative : Bool) {body : List UInt8} {v : ℚ}
    (h : readUnsigned body = some v) :
    readDecimal ((if negative then [45] else []) ++ body)
      = some (if negative then -v else v) := by
  cases negative with
  | true =>
    simp only [if_true, List.cons_append, List.nil_append, readDecimal, h, Option.map_some]
  | false =>
    cases body with
    | nil => exact absurd h (Option.some_ne_none v).symm
    | cons c rest =>
      have hc : c ≠ 45 := by
        rintro rfl
        rw [readUnsigned_minus] at h
        exact absurd h (Option.some_ne_none _).symm
      simp only [Bool.false_eq_true, if_false, List.nil_append, readDecimal, if_neg hc, h]

theorem readUnsigned_digits {m : ℚ} (hm : 0 < m) :
    readUnsigned
        (if -4 ≤ (sixDigits m).2 ∧ (sixDigits m).2 < 6 then
          fixedForm (natText (sixDigits m).1.toNat) (sixDigits m).2
        else exponentForm (natText (sixDigits m).1.toNat) (sixDigits m).2)
      = some (sixDigitValue m) := by
  obtain ⟨hlow, hhigh, -⟩ := sixDigits_spec hm
  have hlen : (natText (sixDigits m).1.toNat).length = 6 :=
    natText_length (by omega) (by omega)
  have hcast : (((sixDigits m).1.toNat : ℕ) : ℚ) = (sixDigits m).1 := by
    exact_mod_cast Int.toNat_of_nonneg (by omega : 0 ≤ (sixDigits m).1)
  split
  · next he => rw [readUnsigned_fixedForm hlen (foldlM_natText _) he.2, hcast, sixDigitValue]
  · rw [readUnsigned_exponentForm hlen (foldlM_natText _), hcast, sixDigitValue]

/-- **`%g` reads back as six significant digits.** -/
theorem readDecimal_formatG {x : Double} (h : x.isfinite = true) :
    readDecimal (formatG x) = some (atSixDigits x.toRat) := by
  have hnan : x.isnan = false := by
    rw [Double.isfinite, decide_eq_true_eq] at h
    rw [Double.isnan, decide_eq_false_iff_not]
    exact fun hboth => h hboth.1
  simp only [formatG, hnan, h, Bool.false_eq_true, if_false, not_true_eq_false]
  by_cases hzero : x.units = 0
  · have hrat : x.toRat = 0 := by
      rw [Double.toRat, Double.magnitude, hzero, Nat.cast_zero, zero_div, neg_zero, ite_self]
    rw [if_pos hzero, readDecimal_sign x.negative (show readUnsigned [48] = some 0 by decide), hrat,
      atSixDigits_zero, neg_zero, ite_self]
  · have hpos : 0 < x.magnitude :=
      div_pos (Nat.cast_pos.mpr (Nat.pos_of_ne_zero hzero)) (by positivity)
    rw [if_neg hzero, readDecimal_sign x.negative (readUnsigned_digits hpos), Double.toRat,
      atSixDigits]
    split
    · rw [if_pos (neg_neg_of_pos hpos), neg_neg]
    · rw [if_neg (not_lt.mpr hpos.le)]

theorem readDecimal_formatG_not_finite {x : Double} (h : x.isfinite = false) :
    readDecimal (formatG x) = none := by
  simp only [formatG, h]
  cases x.isnan <;> cases x.negative <;> rfl

/-! ## Nearest among decimals of six digits -/

/-- A decimal of at most six significant digits. -/
def IsSixDigit (d : ℚ) : Prop := ∃ k f : ℤ, |k| < 1000000 ∧ d = k * 10 ^ f

theorem IsSixDigit.neg {d : ℚ} (h : IsSixDigit d) : IsSixDigit (-d) := by
  obtain ⟨k, f, hk, rfl⟩ := h
  exact ⟨-k, f, by rwa [abs_neg], by rw [Int.cast_neg, neg_mul]⟩

/-- On a grid of powers of ten, or below its first million steps by a tenth of
one at least. -/
theorem IsSixDigit.on_grid {d : ℚ} (h : IsSixDigit d) (e : ℤ) :
    (∃ j : ℤ, d = j * 10 ^ e) ∨ d * 10 ≤ 999999 * 10 ^ e := by
  obtain ⟨k, f, hk, rfl⟩ := h
  by_cases hcoarse : e ≤ f
  · refine Or.inl ⟨k * 10 ^ (f - e).toNat, ?_⟩
    have hexp : f = (f - e).toNat + e := by omega
    conv_lhs => rw [hexp, zpow_add₀ (by norm_num), zpow_natCast]
    push_cast
    ring
  · have hfine : (10 : ℚ) ^ f * 10 ≤ 10 ^ e := by
      rw [← zpow_add_one₀ (by norm_num)]
      exact zpow_le_zpow_right₀ (by norm_num) (by omega)
    have hle : (k : ℚ) ≤ 999999 := by
      have := (abs_lt.mp hk).2
      exact_mod_cast (by omega : k ≤ 999999)
    refine Or.inr ?_
    calc (k : ℚ) * 10 ^ f * 10 ≤ 999999 * 10 ^ f * 10 := by
          have hpos : (0 : ℚ) < 10 ^ f := zpow_pos (by norm_num) _
          nlinarith
      _ = 999999 * (10 ^ f * 10) := by ring
      _ ≤ 999999 * 10 ^ e := by linarith

/-- An integer is no nearer to a number than what the number is rounded to. -/
theorem roundHalfEven_nearest (q : ℚ) (j : ℤ) : |(roundHalfEven q : ℚ) - q| ≤ |(j : ℚ) - q| := by
  have hhalf := abs_roundHalfEven_sub_le q
  by_cases hj : j = roundHalfEven q
  · rw [hj]
  · have hstep : (1 : ℚ) ≤ |(j : ℚ) - roundHalfEven q| := by
      exact_mod_cast Int.one_le_abs (sub_ne_zero.mpr hj)
    have htri := abs_sub_le (j : ℚ) q (roundHalfEven q)
    rw [abs_sub_comm q] at htri
    linarith

/-- **Six digits are the nearest six digits.** -/
theorem sixDigitValue_nearest {m d : ℚ} (hm : 0 < m) (hd : IsSixDigit d) :
    |sixDigitValue m - m| ≤ |d - m| := by
  obtain ⟨hpos, hlow, -⟩ := grid_bounds hm
  obtain ⟨-, -, hvalue⟩ := sixDigits_spec hm
  -- in steps of the grid the value is an integer
  have hgrid : ∀ j : ℤ, |sixDigitValue m - m| ≤ |j * 10 ^ (Int.log 10 m - 5) - m| := by
    intro j
    have hscale : ∀ i : ℤ, |i * (10 : ℚ) ^ (Int.log 10 m - 5) - m|
        = |(i : ℚ) - m / 10 ^ (Int.log 10 m - 5)| * 10 ^ (Int.log 10 m - 5) := by
      intro i
      rw [← abs_of_pos hpos, ← abs_mul, abs_of_pos hpos, sub_mul, div_mul_cancel₀ _ hpos.ne']
    rw [hvalue, hscale, hscale]
    exact mul_le_mul_of_nonneg_right (roundHalfEven_nearest _ j) hpos.le
  rcases hd.on_grid (Int.log 10 m - 5) with ⟨j, rfl⟩ | hbelow
  · exact hgrid j
  -- a finer decimal is below the power of ten under the number, which is on the grid
  · have hpower := hgrid 100000
    rw [Int.cast_ofNat, abs_of_nonpos (sub_nonpos.mpr hlow)] at hpower
    rw [abs_of_nonpos (by linarith : d - m ≤ 0)]
    linarith

/-- **Near a number there is one decimal of six digits.** -/
theorem eq_sixDigitValue {m d : ℚ} (hm : 0 < m) (hd : IsSixDigit d)
    (h : |d - m| * 2 ^ 53 ≤ m) : d = sixDigitValue m := by
  obtain ⟨hpos, hlow, hhigh⟩ := grid_bounds hm
  obtain ⟨-, -, hvalue⟩ := sixDigits_spec hm
  have hnear := sixDigitValue_nearest hm hd
  rcases hd.on_grid (Int.log 10 m - 5) with ⟨j, hj⟩ | hbelow
  · rw [hvalue] at hnear ⊢
    rw [hj] at h hnear ⊢
    -- both are on the grid, less than a step apart
    have hclose : |(j : ℚ) * 10 ^ (Int.log 10 m - 5)
        - roundHalfEven (m / 10 ^ (Int.log 10 m - 5)) * 10 ^ (Int.log 10 m - 5)|
          < 10 ^ (Int.log 10 m - 5) := by
      have htri := abs_sub_le ((j : ℚ) * 10 ^ (Int.log 10 m - 5)) m
        (roundHalfEven (m / 10 ^ (Int.log 10 m - 5)) * 10 ^ (Int.log 10 m - 5))
      rw [abs_sub_comm m] at htri
      linarith
    rw [← sub_mul, abs_mul, abs_of_pos hpos, mul_lt_iff_lt_one_left hpos] at hclose
    have hsame : j = roundHalfEven (m / 10 ^ (Int.log 10 m - 5)) := by
      have : |j - roundHalfEven (m / 10 ^ (Int.log 10 m - 5))| < 1 := by exact_mod_cast hclose
      exact sub_eq_zero.mp (Int.abs_lt_one_iff.mp this)
    rw [hsame]
  -- a finer decimal is too far below
  · rw [abs_of_nonpos (by linarith : d - m ≤ 0)] at h
    linarith

theorem isSixDigit_atSixDigits (q : ℚ) : IsSixDigit (atSixDigits q) := by
  have hvalue : ∀ m : ℚ, 0 < m → IsSixDigit (sixDigitValue m) := by
    intro m hm
    obtain ⟨hlow, hhigh, -⟩ := sixDigits_spec hm
    exact ⟨_, _, abs_lt.mpr ⟨by omega, hhigh⟩, rfl⟩
  rcases lt_trichotomy q 0 with hneg | rfl | hpos
  · rw [atSixDigits, if_pos hneg]
    exact (hvalue _ (neg_pos.mpr hneg)).neg
  · rw [atSixDigits_zero]
    exact ⟨0, 0, by norm_num, by rw [Int.cast_zero, zero_mul]⟩
  · rw [atSixDigits, if_neg (not_lt.mpr hpos.le)]
    exact hvalue q hpos

theorem atSixDigits_nearest (q : ℚ) {d : ℚ} (hd : IsSixDigit d) :
    |atSixDigits q - q| ≤ |d - q| := by
  rcases lt_trichotomy q 0 with hneg | rfl | hpos
  · have hnear := sixDigitValue_nearest (neg_pos.mpr hneg) hd.neg
    rw [atSixDigits, if_pos hneg, ← abs_neg, ← abs_neg (d - q), neg_sub', neg_sub', neg_neg]
    exact hnear
  · rw [atSixDigits_zero, sub_zero, abs_zero]
    exact abs_nonneg _
  · rw [atSixDigits, if_neg (not_lt.mpr hpos.le)]
    exact sixDigitValue_nearest hpos hd

theorem eq_atSixDigits {q d : ℚ} (hq : q ≠ 0) (hd : IsSixDigit d)
    (h : |d - q| * 2 ^ 53 ≤ |q|) : d = atSixDigits q := by
  rcases lt_or_gt_of_ne hq with hneg | hpos
  · rw [abs_of_neg hneg, ← abs_neg, neg_sub'] at h
    rw [atSixDigits, if_pos hneg, ← eq_sixDigitValue (neg_pos.mpr hneg) hd.neg h, neg_neg]
  · rw [abs_of_pos hpos] at h
    rw [atSixDigits, if_neg (not_lt.mpr hpos.le), ← eq_sixDigitValue hpos hd h]

/-- **A double that a decimal of six digits rounds to is what its own six digits
round to.** -/
theorem roundsTo_atSixDigits {x : Double} {d : ℚ} (hd : IsSixDigit d)
    (h : Double.RoundsTo d x) : Double.RoundsTo (atSixDigits x.toRat) x := by
  by_cases hnormal : 2 ^ 52 ≤ x.payload
  -- what a normal double is off by is too little for two such decimals
  · rw [← eq_atSixDigits (Double.toRat_ne_zero hnormal) hd (h.close hnormal)]
    exact h
  · exact h.of_nearer (not_le.mp hnormal) (atSixDigits_nearest x.toRat hd)

/-! ## Rounding to six digits -/

/-- Six digits stay. -/
theorem atSixDigits_eq_self {d : ℚ} (hd : IsSixDigit d) : atSixDigits d = d := by
  have hnear := atSixDigits_nearest d hd
  rw [sub_self, abs_zero] at hnear
  exact sub_eq_zero.mp (abs_nonpos_iff.mp hnear)

/-- **Rounding keeps the order.** -/
theorem atSixDigits_mono : Monotone atSixDigits := by
  intro q q' hle
  by_contra hlt
  rw [not_le] at hlt
  have hnear := atSixDigits_nearest q (isSixDigit_atSixDigits q')
  have hnear' := atSixDigits_nearest q' (isSixDigit_atSixDigits q)
  -- each is nearest to its own number, so both numbers are in the middle
  have hmiddle : atSixDigits q + atSixDigits q' ≤ 2 * q := by
    by_contra hbelow
    rw [not_le] at hbelow
    have hdist := hnear.trans_lt (abs_lt.mpr ⟨?_, ?_⟩ : |atSixDigits q' - q| < atSixDigits q - q)
    · exact absurd hdist (not_lt.mpr (le_abs_self _))
    · linarith
    · linarith
  have hmiddle' : 2 * q' ≤ atSixDigits q + atSixDigits q' := by
    by_contra habove
    rw [not_le] at habove
    have hdist := hnear'.trans_lt (abs_lt.mpr ⟨?_, ?_⟩ : |atSixDigits q - q'| < q' - atSixDigits q')
    · rw [abs_sub_comm] at hdist
      exact absurd hdist (not_lt.mpr (le_abs_self _))
    · linarith
    · linarith
  have hsame : q = q' := by linarith
  rw [hsame] at hlt
  exact lt_irrefl _ hlt

theorem sixDigitValue_error {m : ℚ} (hm : 0 < m) :
    |sixDigitValue m - m| ≤ 10 ^ (Int.log 10 m - 5) / 2 := by
  obtain ⟨hpos, -, -⟩ := grid_bounds hm
  obtain ⟨-, -, hvalue⟩ := sixDigits_spec hm
  have hscale : roundHalfEven (m / 10 ^ (Int.log 10 m - 5)) * (10 : ℚ) ^ (Int.log 10 m - 5) - m
      = (roundHalfEven (m / 10 ^ (Int.log 10 m - 5)) - m / 10 ^ (Int.log 10 m - 5))
        * 10 ^ (Int.log 10 m - 5) := by
    rw [sub_mul, div_mul_cancel₀ _ hpos.ne']
  have hhalf := mul_le_mul_of_nonneg_right
    (abs_roundHalfEven_sub_le (m / 10 ^ (Int.log 10 m - 5))) hpos.le
  rw [hvalue, hscale, abs_mul, abs_of_pos hpos]
  linarith

/-- **Rounding moves by half a unit of the sixth digit.** -/
theorem atSixDigits_error {q : ℚ} {k : ℤ} (h : |q| < 10 ^ k) :
    |atSixDigits q - q| ≤ 10 ^ (k - 6) / 2 := by
  have hvalue : ∀ m : ℚ, 0 < m → m < 10 ^ k → |sixDigitValue m - m| ≤ 10 ^ (k - 6) / 2 := by
    intro m hm hlt
    have hlog : Int.log 10 m < k := (Int.lt_zpow_iff_log_lt (b := 10) (by norm_num) hm).mp hlt
    have hgrid : (10 : ℚ) ^ (Int.log 10 m - 5) ≤ 10 ^ (k - 6) :=
      zpow_le_zpow_right₀ (by norm_num) (by omega)
    have herror := sixDigitValue_error hm
    linarith
  rcases lt_trichotomy q 0 with hneg | rfl | hpos
  · rw [abs_of_neg hneg] at h
    have herror := hvalue (-q) (neg_pos.mpr hneg) h
    rw [← abs_neg, neg_sub'] at herror
    rw [atSixDigits, if_pos hneg]
    rwa [neg_neg] at herror
  · have hgrid : (0 : ℚ) < 10 ^ (k - 6) := zpow_pos (by norm_num) _
    rw [atSixDigits_zero, sub_zero, abs_zero]
    linarith
  · rw [abs_of_pos hpos] at h
    rw [atSixDigits, if_neg (not_lt.mpr hpos.le)]
    exact hvalue q hpos h

/-! ## Read as a double, and written again -/

/-- Text as the double nearest to its number, with the sign it is written with. -/
def readDouble (value : List UInt8) : Option Double :=
  (readDecimal value).map fun r => Double.round (value.head? == some 45) |r|

/-- Six digits and their exponent are read off the value. -/
theorem sixDigits_injective {m m' : ℚ} (hm : 0 < m) (hm' : 0 < m')
    (h : sixDigitValue m = sixDigitValue m') : sixDigits m = sixDigits m' := by
  have hexponent : ∀ p q : ℚ, 0 < p → 0 < q → sixDigitValue p = sixDigitValue q →
      (sixDigits q).2 ≤ (sixDigits p).2 := by
    intro p q hp hq heq
    obtain ⟨-, hphigh, -⟩ := sixDigits_spec hp
    obtain ⟨hqlow, -, -⟩ := sixDigits_spec hq
    by_contra hlt
    rw [not_le] at hlt
    -- a greater exponent makes a greater value
    have hstep : (10 : ℚ) ^ ((sixDigits p).2 - 5) * 10 ≤ 10 ^ ((sixDigits q).2 - 5) := by
      rw [← zpow_add_one₀ (by norm_num)]
      exact zpow_le_zpow_right₀ (by norm_num) (by omega)
    have hpos : (0 : ℚ) < 10 ^ ((sixDigits p).2 - 5) := zpow_pos (by norm_num) _
    have hpcast : ((sixDigits p).1 : ℚ) < 1000000 := by exact_mod_cast hphigh
    have hqcast : (100000 : ℚ) ≤ (sixDigits q).1 := by exact_mod_cast hqlow
    have hp' : sixDigitValue p < 1000000 * 10 ^ ((sixDigits p).2 - 5) :=
      mul_lt_mul_of_pos_right hpcast hpos
    have hq' : 100000 * 10 ^ ((sixDigits q).2 - 5) ≤ sixDigitValue q :=
      mul_le_mul_of_nonneg_right hqcast (zpow_pos (by norm_num) _).le
    linarith
  have he : (sixDigits m).2 = (sixDigits m').2 :=
    le_antisymm (hexponent m' m hm' hm h.symm) (hexponent m m' hm hm' h)
  rw [sixDigitValue, sixDigitValue, he] at h
  have hn := mul_right_cancel₀ (zpow_ne_zero _ (by norm_num)) h
  exact Prod.ext (by exact_mod_cast hn) he

theorem half_le_sixDigitValue {m : ℚ} (hm : 0 < m) : m / 2 ≤ sixDigitValue m := by
  obtain ⟨-, hlow, -⟩ := grid_bounds hm
  have herror := (abs_le.mp (sixDigitValue_error hm)).1
  linarith

theorem sixDigitValue_zero : sixDigitValue 0 = 0 := by
  have hzero := atSixDigits_zero
  rwa [atSixDigits, if_neg (lt_irrefl 0)] at hzero

theorem atSixDigits_toRat (x : Double) :
    atSixDigits x.toRat
      = if x.negative then -sixDigitValue x.magnitude else sixDigitValue x.magnitude := by
  rcases x.magnitude_nonneg.lt_or_eq with hpos | hzero
  · rw [Double.toRat, atSixDigits]
    split
    · rw [if_pos (neg_neg_of_pos hpos), neg_neg]
    · rw [if_neg (not_lt.mpr hpos.le)]
  · rw [Double.toRat, ← hzero, neg_zero, ite_self, atSixDigits_zero, sixDigitValue_zero, neg_zero,
      ite_self]

/-- The text of a finite double begins with its sign. -/
theorem formatG_head {x : Double} (h : x.isfinite = true) :
    ((formatG x).head? == some 45) = x.negative := by
  have hnan : x.isnan = false := (Double.isNumber_of_isfinite h).not_nan
  simp only [formatG, hnan, h, Bool.false_eq_true, if_false, not_true_eq_false]
  cases x.negative with
  | true => split <;> rfl
  | false =>
    by_cases hzero : x.units = 0
    · rw [if_pos hzero]
      rfl
    · have hread := readUnsigned_digits (Double.magnitude_pos hzero)
      rw [if_neg hzero, if_neg Bool.false_ne_true, List.nil_append]
      generalize (if -4 ≤ (sixDigits x.magnitude).2 ∧ (sixDigits x.magnitude).2 < 6 then
          fixedForm (natText (sixDigits x.magnitude).1.toNat) (sixDigits x.magnitude).2
        else exponentForm (natText (sixDigits x.magnitude).1.toNat) (sixDigits x.magnitude).2)
        = body at hread
      cases body with
      | nil => rfl
      | cons c rest =>
        rw [List.head?_cons, beq_eq_false_iff_ne]
        rintro ⟨rfl⟩
        rw [readUnsigned_minus] at hread
        exact Option.some_ne_none _ hread.symm

/-- The text of a finite double is its sign and its six digits. -/
theorem formatG_congr {x y : Double} (hx : x.isfinite = true) (hy : y.isfinite = true)
    (hsign : y.negative = x.negative) (hzero : y.units = 0 ↔ x.units = 0)
    (hsix : sixDigitValue y.magnitude = sixDigitValue x.magnitude) : formatG y = formatG x := by
  have hxnan : x.isnan = false := (Double.isNumber_of_isfinite hx).not_nan
  have hynan : y.isnan = false := (Double.isNumber_of_isfinite hy).not_nan
  simp only [formatG, hxnan, hynan, hx, hy, hsign, Bool.false_eq_true, if_false,
    not_true_eq_false]
  by_cases h : x.units = 0
  · rw [if_pos h, if_pos (hzero.mpr h)]
  · have hy : y.units ≠ 0 := mt hzero.mp h
    rw [if_neg h, if_neg hy,
      sixDigits_injective (Double.magnitude_pos hy) (Double.magnitude_pos h) hsix]

/-- The six digits of no finite double are too large to be read. -/
theorem sixDigitValue_lt {x : Double} (h : x.isfinite = true) :
    sixDigitValue x.magnitude < 2 ^ 1024 - 2 ^ 970 := by
  have hlargest : sixDigits (Double.magnitude ⟨0x7FEFFFFFFFFFFFFF⟩) = (179769, 308) := by
    decide +kernel
  have hplace : Double.payload ⟨0x7FEFFFFFFFFFFFFF⟩ = 2047 * 2 ^ 52 - 1 := by decide
  have hle : x.magnitude ≤ Double.magnitude ⟨0x7FEFFFFFFFFFFFFF⟩ := by
    rw [Double.isfinite_iff] at h
    rw [Double.magnitude, Double.magnitude, Double.units_eq, Double.units_eq, hplace]
    exact div_le_div_of_nonneg_right
      (Nat.cast_le.mpr (Double.unitsAt_strictMono.monotone (by omega))) (by positivity)
  have hnonneg := x.magnitude_nonneg
  have hmono := atSixDigits_mono hle
  have hvalue : sixDigitValue (Double.magnitude ⟨0x7FEFFFFFFFFFFFFF⟩) < 2 ^ 1024 - 2 ^ 970 := by
    rw [sixDigitValue, hlargest]
    decide +kernel
  rw [atSixDigits, if_neg (not_lt.mpr hnonneg), atSixDigits,
    if_neg (not_lt.mpr (hnonneg.trans hle))] at hmono
  exact hmono.trans_lt hvalue

theorem units_eq_zero_iff (x : Double) : x.units = 0 ↔ x.toRat = 0 := by
  rw [← abs_eq_zero, ← Double.magnitude_eq, Double.magnitude, div_eq_zero_iff,
    or_iff_left (by positivity), Nat.cast_eq_zero]

theorem sixDigitValue_nonneg {m : ℚ} (h : 0 ≤ m) : 0 ≤ sixDigitValue m := by
  rcases h.lt_or_eq with hpos | hzero
  · linarith [half_le_sixDigitValue hpos]
  · rw [← hzero, sixDigitValue_zero]

/-- What is twice the least normal number has six digits that round to a normal one. -/
theorem round_sixDigitValue_normal (negative : Bool) {m : ℚ} (h : 1 / 2 ^ 1021 ≤ m) :
    2 ^ 52 ≤ (Double.round negative (sixDigitValue m)).payload := by
  have hpos : 0 < m := lt_of_lt_of_le (by positivity) h
  have hunits : (2 ^ 52 : ℕ) * (1 / 2 ^ 1074 : ℚ) * 2 = 1 / 2 ^ 1021 := by
    rw [Nat.cast_pow, Nat.cast_ofNat, mul_one_div, div_mul_eq_mul_div, ← pow_succ,
      div_eq_div_iff (by positivity) (by positivity), one_mul, ← pow_add]
  have hleast : (Double.unitsAt (2 ^ 52) : ℚ) ≤ sixDigitValue m * 2 ^ 1074 := by
    have hplace := (Double.unitsAt_place (e := 0) (f := 2 ^ 52) (by norm_num) (Or.inl rfl)).1
    rw [zero_mul, zero_add, pow_zero, mul_one] at hplace
    have hhalf : (2 ^ 52 : ℕ) * (1 / 2 ^ 1074 : ℚ) ≤ m / 2 := by
      rw [le_div_iff₀ two_pos, hunits]
      exact h
    rw [hplace, ← div_le_iff₀ (by positivity), div_eq_mul_one_div]
    exact hhalf.trans (half_le_sixDigitValue hpos)
  have hnearest := Double.nearestPlace_mono (Nat.cast_nonneg _) hleast
  rw [Double.nearestPlace_unitsAt] at hnearest
  rw [(Double.round_bits _ _).2]
  exact le_min hnearest (by rw [Double.infinityPlace]; norm_num)

/-- **Text is read as a double that is written the same way**, of every finite
double that is zero or twice the least normal number at least. -/
theorem readDouble_formatG {x : Double} (h : x.isfinite = true)
    (hsize : x.toRat = 0 ∨ 1 / 2 ^ 1021 ≤ |x.toRat|) :
    ∃ y, readDouble (formatG x) = some y ∧ Double.RoundsTo (atSixDigits x.toRat) y
      ∧ formatG y = formatG x := by
  have hsix := sixDigitValue_nonneg x.magnitude_nonneg
  have hround := Double.roundsTo_round x.negative hsix (sixDigitValue_lt h)
  rw [← atSixDigits_toRat] at hround
  have habs : |atSixDigits x.toRat| = sixDigitValue x.magnitude := by
    rw [atSixDigits_toRat, Double.abs_signed _ hsix]
  have hsign := (Double.round_bits x.negative (sixDigitValue x.magnitude)).1
  refine ⟨Double.round x.negative (sixDigitValue x.magnitude), ?_, hround, ?_⟩
  · rw [readDouble, readDecimal_formatG h, formatG_head h, Option.map_some, habs]
  rcases hsize with hzero | hlarge
  · -- zero is read as a zero
    rw [hzero, atSixDigits_zero] at hround
    have hread := hround.nearest Double.zero (by decide)
    rw [Double.isNumber_zero.value, sub_zero, abs_zero, zero_sub, abs_neg, abs_nonpos_iff] at hread
    refine formatG_congr h hround.finite hsign ?_ ?_
    · rw [units_eq_zero_iff, units_eq_zero_iff, hread, hzero]
    · rw [Double.magnitude_eq, hread, Double.magnitude_eq, hzero]
  · rw [← Double.magnitude_eq] at hlarge
    have hnormal := round_sixDigitValue_normal x.negative hlarge
    have hne := Double.toRat_ne_zero hnormal
    have heq := eq_atSixDigits hne (isSixDigit_atSixDigits _) (hround.close hnormal)
    rw [atSixDigits_toRat, atSixDigits_toRat, hsign] at heq
    refine formatG_congr h hround.finite hsign ?_ ?_
    · rw [units_eq_zero_iff, units_eq_zero_iff]
      refine iff_of_false hne fun hzero => ?_
      rw [Double.magnitude_eq, hzero, abs_zero] at hlarge
      exact absurd hlarge (not_le.mpr (by positivity))
    · cases hneg : x.negative with
      | true =>
        rw [hneg, if_pos rfl, if_pos rfl, neg_inj] at heq
        exact heq.symm
      | false =>
        rw [hneg, if_neg Bool.false_ne_true, if_neg Bool.false_ne_true] at heq
        exact heq.symm

end Decimal
