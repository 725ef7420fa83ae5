/-
What a token bucket hands out while there is demand.

The account of `TokenBucket.lean` is an inequality, because a full bucket loses
the time that passes. Here it becomes an equation. Where each take comes no
later than one cost after the one before, a bucket of two costs is never full
(`takes_account`), so nothing is lost, and the grants are the time that passed,
up to one.

The second part compares two buckets. The one that is at least as generous, and
is asked at least as often, is never behind (`Ahead.run`): what it has granted
more makes up for what it has less.
-/
import OpenMeteo.Lib.TokenBucket
import Mathlib.Data.List.Chain

set_option autoImplicit false

namespace TokenBucket

variable {α : Type*}

def Op.isTake : Op → Bool
  | .take => true
  | _ => false

/-- The times of the takes. -/
def takes (steps : List (Op × α)) : List α := (steps.filter fun s => s.1.isTake).map Prod.snd

/-- A take at each of these times. -/
def asks (ts : List α) : List (Op × α) := ts.map fun t => (.take, t)

theorem takes_cons_take (t : α) (steps : List (Op × α)) :
    takes ((.take, t) :: steps) = t :: takes steps := rfl

theorem takes_cons_peek (t : α) (steps : List (Op × α)) :
    takes ((.peek, t) :: steps) = takes steps := rfl

theorem asks_cons (t : α) (ts : List α) : asks (t :: ts) = (.take, t) :: asks ts := rfl

theorem takes_sublist (steps : List (Op × α)) : (takes steps).Sublist (steps.map Prod.snd) :=
  List.filter_sublist.map _

variable [CommRing α] [LinearOrder α] [IsStrictOrderedRing α]

/-! ## Nothing is lost -/

/-- To look at the bucket changes no grant. -/
theorem grants_takes (b : TokenBucket α) (steps : List (Op × α)) (hresets : resets steps = 0) :
    ∀ l : Level α, (l.since :: steps.map Prod.snd).Pairwise (· ≤ ·) →
      grants (b.run l steps).1 = grants (b.run l (asks (takes steps))).1 := by
  induction steps with
  | nil => exact fun l _ => rfl
  | cons s rest ih =>
    obtain ⟨op, t⟩ := s
    intro l hsorted
    obtain ⟨-, hrest⟩ := List.pairwise_cons.mp hsorted
    rw [resets_cons] at hresets
    have hstep := ih (by omega) (b.step l t op).2 (by rw [step_since]; exact hrest)
    rw [run_cons, grants_cons, hstep]
    cases op with
    | take =>
      rw [takes_cons_take, asks_cons, run_cons, grants_cons]
    | peek =>
      rw [takes_cons_peek]
      have hlater : ∀ u ∈ asks (takes rest), t ≤ u.2 := by
        intro u hu
        obtain ⟨t', ht', rfl⟩ := List.mem_map.mp hu
        exact (List.pairwise_cons.mp hrest).1 t' ((takes_sublist rest).mem ht')
      change grants (b.run ⟨b.advance l t, t⟩ (asks (takes rest))).1 + 0 = _
      rw [b.run_advance l t _ hlater, add_zero]
    | reset => cases hresets

/-- **Under demand nothing is lost.** With takes at most one cost apart, a bucket of
two costs is never full, so its credit is exactly what it had, and the time that
passed, less what it granted. By induction on the takes: each leaves less than one
cost. -/
theorem takes_account (b : TokenBucket α) (hcap : 2 * b.cost ≤ b.capacity) (ts : List α) :
    ∀ l : Level α, l.credit < b.cost → (l.since :: ts).IsChain (fun s t => t - s ≤ b.cost) →
      (b.run l (asks ts)).2.credit < b.cost
        ∧ (b.run l (asks ts)).2.credit + grants (b.run l (asks ts)).1 * b.cost
          = l.credit + ((l.since :: ts).getLast (List.cons_ne_nil _ _) - l.since) := by
  induction ts with
  | nil =>
    intro l hl _
    refine ⟨hl, ?_⟩
    change l.credit + ((0 : ℕ) : α) * b.cost = l.credit + (l.since - l.since)
    rw [Nat.cast_zero, zero_mul, sub_self]
  | cons t rest ih =>
    intro l hl hdemand
    obtain ⟨hgap, hrest⟩ := List.isChain_cons_cons.mp hdemand
    have hfits : b.advance l t = l.credit + (t - l.since) := min_eq_right (by linarith)
    have hlast : (l.since :: t :: rest).getLast (List.cons_ne_nil _ _)
        = (t :: rest).getLast (List.cons_ne_nil _ _) := List.getLast_cons (List.cons_ne_nil _ _)
    rw [hlast, asks_cons, run_cons, grants_cons]
    by_cases hpay : b.cost ≤ b.advance l t
    · have hstep : b.step l t .take = (.taken true, ⟨b.advance l t - b.cost, t⟩) := if_pos hpay
      obtain ⟨hlow, hacc⟩ := ih ⟨b.advance l t - b.cost, t⟩ (by dsimp only; linarith) hrest
      rw [hstep]
      refine ⟨hlow, ?_⟩
      simp only [Answer.isGrant, if_true]
      push_cast
      linarith
    · have hstep : b.step l t .take = (.taken false, ⟨b.advance l t, t⟩) := if_neg hpay
      obtain ⟨hlow, hacc⟩ := ih ⟨b.advance l t, t⟩ (not_le.mp hpay) hrest
      rw [hstep]
      refine ⟨hlow, ?_⟩
      simp only [Answer.isGrant, Bool.false_eq_true, if_false, add_zero]
      linarith

/-- **The sustained rate.** From a level below one cost on, with takes at most one
cost apart and no reset, the grants are the time up to the last take, up to less
than one cost. -/
theorem demand_account (b : TokenBucket α) (hcap : 2 * b.cost ≤ b.capacity)
    (steps : List (Op × α)) (hresets : resets steps = 0) (l : Level α) (hl : 0 ≤ l.credit)
    (hlow : l.credit < b.cost) (hsorted : (l.since :: steps.map Prod.snd).Pairwise (· ≤ ·))
    (hdemand : (l.since :: takes steps).IsChain fun s t => t - s ≤ b.cost) :
    |grants (b.run l steps).1 * b.cost
        - ((l.since :: takes steps).getLast (List.cons_ne_nil _ _) - l.since)| < b.cost := by
  obtain ⟨hend, hacc⟩ := b.takes_account hcap (takes steps) l hlow hdemand
  have htimes : (asks (takes steps)).map Prod.snd = takes steps := by
    rw [asks, List.map_map]
    exact List.map_id _
  have hsorted' : (l.since :: (asks (takes steps)).map Prod.snd).Pairwise (· ≤ ·) := by
    rw [htimes]
    exact hsorted.sublist ((takes_sublist steps).cons_cons _)
  have hnonneg := (b.run_account _ l hl hsorted').1
  rw [b.grants_takes steps hresets l hsorted, abs_lt]
  constructor <;> linarith

omit [IsStrictOrderedRing α] in
/-- A take that was refused found less than one cost. -/
theorem step_refused {b : TokenBucket α} {l : Level α} {t : α}
    (h : (b.step l t .take).1.isGrant = false) :
    b.step l t .take = (.taken false, ⟨b.advance l t, t⟩) ∧ b.advance l t < b.cost := by
  by_cases hpay : b.cost ≤ b.advance l t
  · have hgrant : b.step l t .take = (.taken true, ⟨b.advance l t - b.cost, t⟩) := if_pos hpay
    rw [hgrant] at h
    cases h
  · exact ⟨if_neg hpay, not_le.mp hpay⟩

/-! ## What is there can be taken -/

/-- Enough for `n` tokens, until one of them is taken. -/
structure Covers (b : TokenBucket α) (n : ℕ) (l : Level α) : Prop where
  credit : n * b.cost ≤ l.credit
  capacity : n * b.cost ≤ b.capacity

section Covers

variable {b : TokenBucket α} {n : ℕ} {l : Level α} {t : α}

theorem Covers.advance (h : b.Covers n l) (ht : l.since ≤ t) : n * b.cost ≤ b.advance l t := by
  have hcredit := h.credit
  exact le_min h.capacity (by linarith)

theorem Covers.peek (h : b.Covers n l) (ht : l.since ≤ t) :
    b.Covers n (b.step l t .peek).2 := ⟨h.advance ht, h.capacity⟩

/-- One of the tokens is taken. -/
theorem Covers.take (h : b.Covers (n + 1) l) (hcost : 0 ≤ b.cost) (ht : l.since ≤ t) :
    (b.step l t .take).1.isGrant = true ∧ b.Covers n (b.step l t .take).2 := by
  have hcredit := h.advance ht
  have hcapacity := h.capacity
  have hrest : 0 ≤ (n : α) * b.cost := mul_nonneg (Nat.cast_nonneg n) hcost
  push_cast at hcredit hcapacity
  have hpay : b.cost ≤ b.advance l t := by linarith
  have hstep : b.step l t .take = (.taken true, ⟨b.advance l t - b.cost, t⟩) := if_pos hpay
  rw [hstep]
  refine ⟨rfl, ?_, by linarith⟩
  dsimp only
  linarith

/-- **Covered takes are granted**: all of them, or as many as are covered. -/
theorem Covers.run (hcost : 0 ≤ b.cost) (steps : List (Op × α)) (hresets : resets steps = 0) :
    ∀ {n : ℕ} {l : Level α}, b.Covers n l → (l.since :: steps.map Prod.snd).Pairwise (· ≤ ·) →
      min (takes steps).length n ≤ grants (b.run l steps).1 := by
  induction steps with
  | nil => exact fun _ _ => Nat.min_le_left 0 _
  | cons s rest ih =>
    obtain ⟨op, t⟩ := s
    intro n l h hsorted
    obtain ⟨hnow, hrest⟩ := List.pairwise_cons.mp hsorted
    have ht : l.since ≤ t := hnow t (List.mem_cons_self ..)
    rw [resets_cons] at hresets
    have hlater : ((b.step l t op).2.since :: rest.map Prod.snd).Pairwise (· ≤ ·) := by
      rwa [step_since]
    rw [run_cons, grants_cons]
    cases op with
    | take =>
      rw [takes_cons_take, List.length_cons]
      cases n with
      | zero =>
        rw [Nat.min_zero]
        exact Nat.zero_le _
      | succ n =>
        obtain ⟨hgrant, hcovers⟩ := h.take hcost ht
        have hmore := ih (by omega) hcovers hlater
        rw [if_pos hgrant]
        omega
    | peek =>
      rw [takes_cons_peek]
      exact (ih (by omega) (h.peek ht) hlater).trans (Nat.le_add_right _ _)
    | reset => cases hresets

end Covers

/-! ## The more generous bucket -/

/-- `a` holds as many tokens as `b`, starts with as many, and earns one no later. -/
structure Generous (a b : TokenBucket α) : Prop where
  cost_pos : 0 < a.cost
  cost_le : a.cost ≤ b.cost
  capacity_le : b.capacity * a.cost ≤ a.capacity * b.cost
  start_le : b.start * a.cost ≤ a.start * b.cost

/-- `a`, which has granted `g` more, is not behind: its `g` tokens and what it has
are at least what `b` has at this time. -/
structure Ahead (a b : TokenBucket α) (g : ℕ) (la lb : Level α) : Prop where
  since_le : lb.since ≤ la.since
  credit_le : b.advance lb la.since * a.cost ≤ g * (a.cost * b.cost) + la.credit * b.cost

variable {a b : TokenBucket α} {g : ℕ} {la lb : Level α} {t : α}

/-- Time passes for both. -/
theorem Ahead.advance (h : Ahead a b g la lb) (hgen : Generous a b) (ht : la.since ≤ t) :
    b.advance lb t * a.cost ≤ g * (a.cost * b.cost) + a.advance la t * b.cost := by
  have ha := hgen.cost_pos
  have hb : 0 < b.cost := lt_of_lt_of_le ha hgen.cost_le
  have hmore : (0 : α) ≤ g * (a.cost * b.cost) :=
    mul_nonneg (Nat.cast_nonneg g) (le_of_lt (mul_pos ha hb))
  rcases le_total a.capacity (la.credit + (t - la.since)) with hfull | hpart
  · -- a full bucket holds more tokens than the other can
    have hadv : a.advance la t = a.capacity := min_eq_left hfull
    have hle := mul_le_mul_of_nonneg_right (b.advance_le_capacity lb t) (le_of_lt ha)
    have hcap := hgen.capacity_le
    rw [hadv]
    linarith
  · -- and the time that passes is worth no less in it
    have hadv : a.advance la t = la.credit + (t - la.since) := min_eq_right hpart
    have hlater : b.advance lb t ≤ b.advance lb la.since + (t - la.since) := by
      rw [← b.advance_advance lb la.since t ht]
      exact b.advance_le _ _
    have hle := mul_le_mul_of_nonneg_right hlater (le_of_lt ha)
    have htime := mul_le_mul_of_nonneg_left hgen.cost_le (sub_nonneg.mpr ht)
    have hcredit := h.credit_le
    rw [hadv]
    linarith

/-- Whether a step grants, as a number. -/
def granted (answer : Answer α) : ℕ := if answer.isGrant then 1 else 0

/-- **Both are asked.** Only where `a` is ahead can `b` grant alone. -/
theorem Ahead.both (h : Ahead a b g la lb) (hgen : Generous a b) (ht : la.since ≤ t) (op : Op) :
    ∃ g', g' + granted (b.step lb t op).1 = g + granted (a.step la t op).1
      ∧ Ahead a b g' (a.step la t op).2 (b.step lb t op).2 := by
  have ha := hgen.cost_pos
  have hb : 0 < b.cost := lt_of_lt_of_le ha hgen.cost_le
  have hab := mul_pos ha hb
  have hcredit := h.advance hgen ht
  have hsame : ∀ c : α, b.advance ⟨c, t⟩ t ≤ c := fun c => by
    have := b.advance_le ⟨c, t⟩ t
    simpa using this
  cases op with
  | take =>
    have hle : ∀ c : α, b.advance ⟨c, t⟩ t * a.cost ≤ c * a.cost := fun c =>
      mul_le_mul_of_nonneg_right (hsame c) (le_of_lt ha)
    by_cases hpay : a.cost ≤ a.advance la t
    · have hgrant : a.step la t .take = (.taken true, ⟨a.advance la t - a.cost, t⟩) := if_pos hpay
      by_cases hpay' : b.cost ≤ b.advance lb t
      · have hgrant' : b.step lb t .take = (.taken true, ⟨b.advance lb t - b.cost, t⟩) :=
          if_pos hpay'
        rw [hgrant, hgrant']
        refine ⟨g, rfl, le_refl t, ?_⟩
        have := hle (b.advance lb t - b.cost)
        dsimp only
        linarith
      · have hrefuse' : b.step lb t .take = (.taken false, ⟨b.advance lb t, t⟩) := if_neg hpay'
        rw [hgrant, hrefuse']
        refine ⟨g + 1, rfl, le_refl t, ?_⟩
        have := hle (b.advance lb t)
        dsimp only
        push_cast
        linarith
    · have hrefuse : a.step la t .take = (.taken false, ⟨a.advance la t, t⟩) := if_neg hpay
      by_cases hpay' : b.cost ≤ b.advance lb t
      · have hgrant' : b.step lb t .take = (.taken true, ⟨b.advance lb t - b.cost, t⟩) :=
          if_pos hpay'
        -- a bucket that is level with the other has a token when it has
        have hahead : g ≠ 0 := by
          rintro rfl
          have hpoor := mul_lt_mul_of_pos_right (not_le.mp hpay) hb
          have hrich := mul_le_mul_of_nonneg_right hpay' (le_of_lt ha)
          push_cast at hcredit
          linarith
        obtain ⟨n, rfl⟩ := Nat.exists_eq_succ_of_ne_zero hahead
        rw [hrefuse, hgrant']
        refine ⟨n, rfl, le_refl t, ?_⟩
        have := hle (b.advance lb t - b.cost)
        push_cast at hcredit
        dsimp only
        linarith
      · have hrefuse' : b.step lb t .take = (.taken false, ⟨b.advance lb t, t⟩) := if_neg hpay'
        rw [hrefuse, hrefuse']
        exact ⟨g, rfl, le_refl t, le_trans (hle (b.advance lb t)) hcredit⟩
  | peek =>
    refine ⟨g, rfl, le_refl t, ?_⟩
    have hle := mul_le_mul_of_nonneg_right (hsame (b.advance lb t)) (le_of_lt ha)
    exact le_trans hle hcredit
  | reset =>
    refine ⟨g, rfl, le_refl t, ?_⟩
    have hle := mul_le_mul_of_nonneg_right (hsame b.start) (le_of_lt ha)
    have hmore : (0 : α) ≤ g * (a.cost * b.cost) := mul_nonneg (Nat.cast_nonneg g) (le_of_lt hab)
    have hstart := hgen.start_le
    change b.advance ⟨b.start, t⟩ t * a.cost ≤ g * (a.cost * b.cost) + a.start * b.cost
    linarith

/-- **Only `a` is asked.** What it grants alone puts it further ahead. -/
theorem Ahead.alone (h : Ahead a b g la lb) (hgen : Generous a b) (ht : la.since ≤ t) {op : Op}
    (hop : op.isReset = false) :
    Ahead a b (g + granted (a.step la t op).1) (a.step la t op).2 lb := by
  have hcredit := h.advance hgen ht
  refine ⟨by rw [step_since]; exact le_trans h.since_le ht, ?_⟩
  rw [step_since]
  cases op with
  | take =>
    by_cases hpay : a.cost ≤ a.advance la t
    · have hgrant : a.step la t .take = (.taken true, ⟨a.advance la t - a.cost, t⟩) := if_pos hpay
      rw [hgrant]
      simp only [granted, Answer.isGrant, if_true]
      push_cast
      linarith
    · have hrefuse : a.step la t .take = (.taken false, ⟨a.advance la t, t⟩) := if_neg hpay
      rw [hrefuse]
      exact hcredit
  | peek => exact hcredit
  | reset => cases hop

/-- The steps that both buckets take, of a list of which `b` leaves some out. -/
def kept {β : Type*} (marked : List (β × Bool)) : List β :=
  (marked.filter Prod.snd).map Prod.fst

/-- **The more generous bucket is never behind**, also where it alone is asked. By
induction on the steps. -/
theorem Ahead.run (hgen : Generous a b) (marked : List ((Op × α) × Bool))
    (hresets : ∀ s ∈ marked, s.2 = false → s.1.1.isReset = false) :
    ∀ {g : ℕ} {la lb : Level α}, Ahead a b g la lb →
      (la.since :: marked.map fun s => s.1.2).Pairwise (· ≤ ·) →
      grants (b.run lb (kept marked)).1 ≤ g + grants (a.run la (marked.map Prod.fst)).1 := by
  induction marked with
  | nil => exact fun _ _ => Nat.zero_le _
  | cons s rest ih =>
    obtain ⟨⟨op, t⟩, asked⟩ := s
    intro g la lb h hsorted
    obtain ⟨hle, hrest⟩ := List.pairwise_cons.mp hsorted
    have ht : la.since ≤ t := hle t (List.mem_cons_self ..)
    have hlater : ((a.step la t op).2.since :: rest.map fun s => s.1.2).Pairwise (· ≤ ·) := by
      rw [step_since]
      exact hrest
    have hgrants : ∀ (c : TokenBucket α) (l : Level α) (steps : List (Op × α)),
        grants (c.run l ((op, t) :: steps)).1
          = grants (c.run (c.step l t op).2 steps).1 + granted (c.step l t op).1 := by
      intro c l steps
      rw [run_cons, grants_cons, granted]
    have hresets' := fun s hs => hresets s (List.mem_cons_of_mem _ hs)
    cases asked with
    | true =>
      obtain ⟨g', hsum, hahead⟩ := h.both hgen ht op
      have hle := ih hresets' hahead hlater
      change grants (b.run lb ((op, t) :: kept rest)).1
        ≤ g + grants (a.run la ((op, t) :: rest.map Prod.fst)).1
      rw [hgrants, hgrants]
      omega
    | false =>
      have hop : op.isReset = false := hresets _ (List.mem_cons_self ..) rfl
      have hle := ih hresets' (h.alone hgen ht hop) hlater
      change grants (b.run lb (kept rest)).1
        ≤ g + grants (a.run la ((op, t) :: rest.map Prod.fst)).1
      rw [hgrants]
      omega

/-- Two new buckets. -/
theorem Ahead.new (hgen : Generous a b) (t : α) : Ahead a b 0 (a.new t) (b.new t) := by
  refine ⟨le_refl t, ?_⟩
  have hsame : b.advance (b.new t) t ≤ b.start := by
    have := b.advance_le (b.new t) t
    simpa [TokenBucket.new] using this
  have hle := mul_le_mul_of_nonneg_right hsame (le_of_lt hgen.cost_pos)
  have hstart := hgen.start_le
  rw [Nat.cast_zero, zero_mul, zero_add]
  exact le_trans hle hstart

end TokenBucket
