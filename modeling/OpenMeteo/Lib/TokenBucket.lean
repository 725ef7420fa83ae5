/-
The ideal token bucket, over any linearly ordered ring of credit.

A bucket is filled by the passing of time and emptied by successful takes. The
only number it keeps is its credit, so nothing is rounded: one unit of time is
one unit of credit, a take costs `cost`, and the credit never exceeds
`capacity`. The rate bound of this file is the reason for having the model at
all: over any window of any run, what was granted is paid for by one full
bucket, the resets of the window, and the time that passed in it.

Nothing here refers to a particular limiter. An implementation that keeps
integer tokens and a time stamp is related to this model by a simulation, and
inherits the bound.
-/
import Mathlib.Algebra.Order.Ring.Defs
import Mathlib.Algebra.Order.Group.MinMax
import Mathlib.Tactic.Ring
import Mathlib.Tactic.Linarith

set_option autoImplicit false

/-- The three settings of a bucket, with the relations between them that keep
every reachable credit between `0` and `capacity`. -/
structure TokenBucket (α : Type*) [CommRing α] [LinearOrder α] where
  capacity : α
  cost : α
  start : α
  start_nonneg : 0 ≤ start
  start_le_capacity : start ≤ capacity

namespace TokenBucket

variable {α : Type*}

/-! ## The machine -/

/-- The state of a bucket: its credit right after the last step, and the time
of that step. -/
structure Level (α : Type*) where
  credit : α
  since : α

/-- What can be done with a bucket at a point in time. -/
inductive Op
  | take
  | peek
  | reset

/-- What a step answers. A take says whether it was granted, a peek shows the
credit. -/
inductive Answer (α : Type*)
  | taken (granted : Bool)
  | level (credit : α)
  | done

/-- An answer that hands out a token. -/
def Answer.isGrant : Answer α → Bool
  | .taken granted => granted
  | _ => false

/-- A step that sets the bucket back. -/
def Op.isReset : Op → Bool
  | .reset => true
  | _ => false

/-- How many tokens a list of answers handed out. -/
def grants (as : List (Answer α)) : ℕ := as.countP Answer.isGrant

/-- How many of the steps are resets. -/
def resets (steps : List (Op × α)) : ℕ := steps.countP fun s => s.1.isReset

@[simp] theorem grants_nil : grants ([] : List (Answer α)) = 0 := rfl

theorem grants_cons (a : Answer α) (as : List (Answer α)) :
    grants (a :: as) = grants as + if a.isGrant then 1 else 0 := by
  simp only [grants, List.countP_cons]

@[simp] theorem resets_nil : resets ([] : List (Op × α)) = 0 := rfl

theorem resets_cons (op : Op) (t : α) (steps : List (Op × α)) :
    resets ((op, t) :: steps) = resets steps + if op.isReset then 1 else 0 := by
  simp only [resets, List.countP_cons]

variable [CommRing α] [LinearOrder α]

/-- A new bucket at time `t`. -/
def new (b : TokenBucket α) (t : α) : Level α := ⟨b.start, t⟩

/-- The credit at time `t`: what there was plus the time that passed, capped. -/
def advance (b : TokenBucket α) (l : Level α) (t : α) : α :=
  min b.capacity (l.credit + (t - l.since))

/-- One step at time `t`. Every step first credits the time since the last. -/
def step (b : TokenBucket α) (l : Level α) (t : α) : Op → Answer α × Level α
  | .take =>
    if b.cost ≤ b.advance l t then (.taken true, ⟨b.advance l t - b.cost, t⟩)
    else (.taken false, ⟨b.advance l t, t⟩)
  | .peek => (.level (b.advance l t), ⟨b.advance l t, t⟩)
  | .reset => (.done, ⟨b.start, t⟩)

/-- A run of steps, each with its time: the answers and the final level. -/
def run (b : TokenBucket α) : Level α → List (Op × α) → List (Answer α) × Level α
  | l, [] => ([], l)
  | l, (op, t) :: rest =>
    ((b.step l t op).1 :: (b.run (b.step l t op).2 rest).1, (b.run (b.step l t op).2 rest).2)

@[simp] theorem run_nil (b : TokenBucket α) (l : Level α) : b.run l [] = ([], l) := rfl

@[simp] theorem run_cons (b : TokenBucket α) (l : Level α) (op : Op) (t : α)
    (rest : List (Op × α)) :
    b.run l ((op, t) :: rest)
      = ((b.step l t op).1 :: (b.run (b.step l t op).2 rest).1,
          (b.run (b.step l t op).2 rest).2) := rfl

/-- The times of the steps of a run, each with whether it granted. -/
def stamped (b : TokenBucket α) (l : Level α) (steps : List (Op × α)) : List (α × Bool) :=
  (steps.map Prod.snd).zip ((b.run l steps).1.map Answer.isGrant)

theorem stamped_cons (b : TokenBucket α) (l : Level α) (op : Op) (t : α)
    (rest : List (Op × α)) :
    b.stamped l ((op, t) :: rest)
      = (t, (b.step l t op).1.isGrant) :: b.stamped (b.step l t op).2 rest := rfl

/-- A run is continued where it stopped. -/
theorem run_concat (b : TokenBucket α) (op : Op) (t : α) (steps : List (Op × α)) :
    ∀ l : Level α,
      (b.run l (steps ++ [(op, t)])).2 = (b.step (b.run l steps).2 t op).2
        ∧ b.stamped l (steps ++ [(op, t)])
          = b.stamped l steps ++ [(t, (b.step (b.run l steps).2 t op).1.isGrant)] := by
  induction steps with
  | nil => exact fun l => ⟨rfl, rfl⟩
  | cons s rest ih =>
    obtain ⟨op', t'⟩ := s
    intro l
    obtain ⟨hrun, hstamped⟩ := ih (b.step l t' op').2
    refine ⟨hrun, ?_⟩
    rw [List.cons_append, stamped_cons, hstamped, stamped_cons, List.cons_append]
    rfl

/-- Every step is dated at its own time. -/
@[simp] theorem step_since (b : TokenBucket α) (l : Level α) (t : α) (op : Op) :
    (b.step l t op).2.since = t := by
  cases op with
  | take => simp only [step]; split <;> rfl
  | peek => rfl
  | reset => rfl

/-- A run ends no later than its last step. -/
theorem run_since_le (b : TokenBucket α) (steps : List (Op × α)) (t₁ : α) :
    ∀ l : Level α, l.since ≤ t₁ → (∀ s ∈ steps, s.2 ≤ t₁) → (b.run l steps).2.since ≤ t₁ := by
  induction steps with
  | nil => intro l hl _; exact hl
  | cons s rest ih =>
    obtain ⟨op, t⟩ := s
    intro l _ hend
    rw [run_cons]
    exact ih _ (by rw [step_since]; exact hend (op, t) (List.mem_cons_self ..))
      (fun s hs => hend s (List.mem_cons_of_mem _ hs))

theorem advance_le_capacity (b : TokenBucket α) (l : Level α) (t : α) :
    b.advance l t ≤ b.capacity := min_le_left _ _

theorem advance_le (b : TokenBucket α) (l : Level α) (t : α) :
    b.advance l t ≤ l.credit + (t - l.since) := min_le_right _ _

/-! ## Crediting time in instalments -/

variable [IsStrictOrderedRing α]

theorem advance_nonneg (b : TokenBucket α) (l : Level α) (t : α) (hl : 0 ≤ l.credit)
    (ht : l.since ≤ t) : 0 ≤ b.advance l t :=
  le_min (le_trans b.start_nonneg b.start_le_capacity) (by linarith)

/-- Capping a credit before more time is credited changes nothing, as long as
that time does not run backwards. -/
theorem advance_min (b : TokenBucket α) (x s t : α) (hst : s ≤ t) :
    b.advance ⟨min b.capacity x, s⟩ t = min b.capacity (x + (t - s)) := by
  simp only [advance]
  rcases le_total b.capacity x with h | h
  · rw [min_eq_left h, min_eq_left (by linarith), min_eq_left (by linarith)]
  · rw [min_eq_right h]

/-- Crediting the time in two instalments is crediting it at once. -/
theorem advance_advance (b : TokenBucket α) (l : Level α) (s t : α) (hst : s ≤ t) :
    b.advance ⟨b.advance l s, s⟩ t = b.advance l t := by
  have hsum : l.credit + (s - l.since) + (t - s) = l.credit + (t - l.since) := by ring
  have h := b.advance_min (l.credit + (s - l.since)) s t hst
  rwa [hsum] at h

/-- A step does not see whether the time up to an earlier point was credited
before it. -/
theorem step_advance (b : TokenBucket α) (l : Level α) (s t : α) (hst : s ≤ t) (op : Op) :
    b.step ⟨b.advance l s, s⟩ t op = b.step l t op := by
  cases op <;> simp only [step, b.advance_advance l s t hst]

/-- Neither do the answers of a run. -/
theorem run_advance (b : TokenBucket α) (l : Level α) (s : α) (steps : List (Op × α))
    (hs : ∀ u ∈ steps, s ≤ u.2) :
    (b.run ⟨b.advance l s, s⟩ steps).1 = (b.run l steps).1 := by
  cases steps with
  | nil => rfl
  | cons u rest =>
    obtain ⟨op, t⟩ := u
    rw [run_cons, run_cons, b.step_advance l s t (hs (op, t) (List.mem_cons_self ..)) op]

/-! ## Credit is conserved -/

theorem step_nonneg (b : TokenBucket α) (l : Level α) (t : α) (op : Op) (hl : 0 ≤ l.credit)
    (ht : l.since ≤ t) : 0 ≤ (b.step l t op).2.credit := by
  have hadv := b.advance_nonneg l t hl ht
  cases op with
  | take =>
    simp only [step]
    split
    · next h => exact sub_nonneg.mpr h
    · exact hadv
  | peek => exact hadv
  | reset => exact b.start_nonneg

/-- **One step's account.** What is left plus what was paid is at most what
there was, the time that passed, and one start for a reset. -/
theorem step_account (b : TokenBucket α) (l : Level α) (t : α) (op : Op) (hl : 0 ≤ l.credit)
    (ht : l.since ≤ t) :
    (b.step l t op).2.credit + (if (b.step l t op).1.isGrant then b.cost else 0)
      ≤ l.credit + (t - l.since) + (if op.isReset then b.start else 0) := by
  have hadv := b.advance_le l t
  cases op with
  | take =>
    simp only [step]
    split
    · simp only [Answer.isGrant, Op.isReset, if_true, Bool.false_eq_true, if_false]
      linarith
    · simp only [Answer.isGrant, Op.isReset, Bool.false_eq_true, if_false]
      linarith
  | peek =>
    simp only [step, Answer.isGrant, Op.isReset, Bool.false_eq_true, if_false]
    linarith
  | reset =>
    simp only [step, Answer.isGrant, Op.isReset, Bool.false_eq_true, if_false, if_true]
    linarith

/-- **A run's account**, by induction on the steps: `step_account` summed up.
The times must not run backwards, from the level's own on. -/
theorem run_account (b : TokenBucket α) (steps : List (Op × α)) :
    ∀ l : Level α, 0 ≤ l.credit → (l.since :: steps.map Prod.snd).Pairwise (· ≤ ·) →
      0 ≤ (b.run l steps).2.credit ∧
      (b.run l steps).2.credit + grants (b.run l steps).1 * b.cost
        ≤ l.credit + ((b.run l steps).2.since - l.since) + resets steps * b.start := by
  induction steps with
  | nil =>
    intro l hl _
    simp only [run_nil, grants_nil, resets_nil, Nat.cast_zero, zero_mul, add_zero, sub_self]
    exact ⟨hl, le_refl _⟩
  | cons s rest ih =>
    obtain ⟨op, t⟩ := s
    intro l hl hmono
    rw [List.map_cons, List.pairwise_cons] at hmono
    have ht : l.since ≤ t := hmono.1 t (List.mem_cons_self ..)
    have hnonneg := b.step_nonneg l t op hl ht
    have hstep := b.step_account l t op hl ht
    obtain ⟨hfin, hrest⟩ := ih (b.step l t op).2 hnonneg (by rw [step_since]; exact hmono.2)
    rw [step_since] at hrest
    refine ⟨hfin, ?_⟩
    rw [run_cons, grants_cons, resets_cons]
    push_cast
    simp only [ite_mul, zero_mul, one_mul, add_mul] at hstep hrest ⊢
    linarith

/-- **The rate bound.** In a window from `t₀` to `t₁` the grants, at `cost`
each, are paid by one full bucket, the length of the window, and one start for
each reset. The window is entered with the time up to `t₀` credited, which the
answers do not show (`run_advance`) and which leaves at most a full bucket. -/
theorem window_account (b : TokenBucket α) (steps : List (Op × α)) (l : Level α) (t₀ t₁ : α)
    (hl : 0 ≤ l.credit) (hsince : l.since ≤ t₀) (hwin : t₀ ≤ t₁)
    (hmono : (t₀ :: steps.map Prod.snd).Pairwise (· ≤ ·)) (hend : ∀ s ∈ steps, s.2 ≤ t₁) :
    grants (b.run l steps).1 * b.cost ≤ b.capacity + (t₁ - t₀) + resets steps * b.start := by
  have hbegin : ∀ u ∈ steps, t₀ ≤ u.2 := fun u hu =>
    (List.pairwise_cons.mp hmono).1 u.2 (List.mem_map_of_mem hu)
  obtain ⟨hfin, hacc⟩ := b.run_account steps ⟨b.advance l t₀, t₀⟩
    (b.advance_nonneg l t₀ hl hsince) hmono
  have hlast := b.run_since_le steps t₁ ⟨b.advance l t₀, t₀⟩ hwin hend
  have hfull := b.advance_le_capacity l t₀
  rw [b.run_advance l t₀ steps hbegin] at hacc
  dsimp only at hacc
  linarith

/-! ## Counting grants by their time -/

/-- How many of the stamps are grants from `t₀` to `t₁`. -/
def grantsBetween (t₀ t₁ : α) (stamps : List (α × Bool)) : ℕ :=
  stamps.countP fun p => p.2 ∧ t₀ ≤ p.1 ∧ p.1 ≤ t₁

omit [CommRing α] [IsStrictOrderedRing α] in
theorem grantsBetween_cons (t₀ t₁ t : α) (granted : Bool) (stamps : List (α × Bool)) :
    grantsBetween t₀ t₁ ((t, granted) :: stamps)
      = grantsBetween t₀ t₁ stamps + if granted ∧ t₀ ≤ t ∧ t ≤ t₁ then 1 else 0 := by
  simp only [grantsBetween, List.countP_cons, decide_eq_true_eq]

omit [CommRing α] [IsStrictOrderedRing α] in
theorem grantsBetween_eq_zero {t₀ t₁ : α} {stamps : List (α × Bool)}
    (h : ∀ p ∈ stamps, t₁ < p.1) : grantsBetween t₀ t₁ stamps = 0 := by
  refine List.countP_eq_zero.mpr fun p hp => ?_
  simp only [decide_eq_true_eq, not_and, not_le]
  exact fun _ _ => h p hp

/-- A step leaves at most a full bucket. -/
theorem step_le_capacity (b : TokenBucket α) (l : Level α) (t : α) (op : Op) (hcost : 0 ≤ b.cost) :
    (b.step l t op).2.credit ≤ b.capacity := by
  have hadv := b.advance_le_capacity l t
  cases op with
  | take =>
    simp only [step]
    split
    · dsimp only
      linarith
    · exact hadv
  | peek => exact hadv
  | reset => exact b.start_le_capacity

omit [IsStrictOrderedRing α] in
/-- The stamps of a run whose steps are all later than a point in time. -/
theorem stamped_later (b : TokenBucket α) (l : Level α) {steps : List (Op × α)} {t₁ : α}
    (h : ∀ s ∈ steps, t₁ < s.2) : ∀ p ∈ b.stamped l steps, t₁ < p.1 := by
  intro p hp
  obtain ⟨s, hs, hsp⟩ := List.mem_map.mp (List.of_mem_zip hp).1
  rw [← hsp]
  exact h s hs

/-- Counted by time, the grants up to `t₁` are still paid by what there was and
the time that passed: a step behind `t₁` is not counted, and one before it has
its account. -/
theorem run_between (b : TokenBucket α) (t₀ t₁ : α) (hcost : 0 ≤ b.cost) (steps : List (Op × α)) :
    ∀ l : Level α, 0 ≤ l.credit → l.since ≤ t₁ →
      (l.since :: steps.map Prod.snd).Pairwise (· ≤ ·) →
      grantsBetween t₀ t₁ (b.stamped l steps) * b.cost
        ≤ l.credit + (t₁ - l.since) + resets steps * b.start := by
  induction steps with
  | nil =>
    intro l hl hsince _
    have hnone : grantsBetween t₀ t₁ (b.stamped l []) = 0 := rfl
    rw [hnone, resets_nil]
    push_cast
    linarith
  | cons s rest ih =>
    obtain ⟨op, t⟩ := s
    intro l hl hsince hmono
    rw [List.map_cons, List.pairwise_cons] at hmono
    have ht : l.since ≤ t := hmono.1 t (List.mem_cons_self ..)
    rcases le_or_gt t t₁ with hle | hgt
    · have hstep := b.step_account l t op hl ht
      have hrest := ih (b.step l t op).2 (b.step_nonneg l t op hl ht)
        (by rw [step_since]; exact hle) (by rw [step_since]; exact hmono.2)
      have hcount : (if (b.step l t op).1.isGrant = true ∧ t₀ ≤ t ∧ t ≤ t₁ then b.cost else 0)
          ≤ if (b.step l t op).1.isGrant then b.cost else 0 := by
        by_cases hgrant : (b.step l t op).1.isGrant = true
        · rw [if_pos hgrant]
          split
          · exact le_refl _
          · exact hcost
        · rw [if_neg hgrant, if_neg (fun hall => hgrant hall.1)]
      rw [step_since] at hrest
      -- a grant before `t₀` is paid for but not counted
      rw [stamped_cons, grantsBetween_cons, resets_cons]
      push_cast
      simp only [ite_mul, zero_mul, one_mul, add_mul] at hstep hrest ⊢
      linarith
    · -- this step and all behind it are later than the window
      have hlater : ∀ s ∈ (op, t) :: rest, t₁ < s.2 := by
        intro s hs
        rcases List.mem_cons.mp hs with rfl | hs
        · exact hgt
        · exact lt_of_lt_of_le hgt
            ((List.pairwise_cons.mp hmono.2).1 s.2 (List.mem_map_of_mem hs))
      rw [grantsBetween_eq_zero (b.stamped_later l hlater), Nat.cast_zero, zero_mul]
      have hresets : 0 ≤ (resets ((op, t) :: rest) : α) * b.start :=
        mul_nonneg (Nat.cast_nonneg _) b.start_nonneg
      linarith

/-- **The rate bound, by time.** The grants from `t₀` to `t₁` in a whole run are
paid by one full bucket, the length of the window, and the resets of the run. -/
theorem grantsBetween_account (b : TokenBucket α) (t₀ t₁ : α) (hcost : 0 ≤ b.cost)
    (hwin : t₀ ≤ t₁) (steps : List (Op × α)) :
    ∀ l : Level α, 0 ≤ l.credit → l.credit ≤ b.capacity →
      (l.since :: steps.map Prod.snd).Pairwise (· ≤ ·) →
      grantsBetween t₀ t₁ (b.stamped l steps) * b.cost
        ≤ b.capacity + (t₁ - t₀) + resets steps * b.start := by
  -- from a level inside the window on, `run_between` is the account
  have hfrom : ∀ (steps : List (Op × α)) (l : Level α), 0 ≤ l.credit → l.credit ≤ b.capacity →
      t₀ ≤ l.since → (l.since :: steps.map Prod.snd).Pairwise (· ≤ ·) →
      grantsBetween t₀ t₁ (b.stamped l steps) * b.cost
        ≤ b.capacity + (t₁ - t₀) + resets steps * b.start := by
    intro steps l hl hfull hbegin hmono
    rcases le_or_gt l.since t₁ with hle | hgt
    · have := b.run_between t₀ t₁ hcost steps l hl hle hmono
      linarith
    · have hlater : ∀ s ∈ steps, t₁ < s.2 := fun s hs =>
        lt_of_lt_of_le hgt ((List.pairwise_cons.mp hmono).1 s.2 (List.mem_map_of_mem hs))
      rw [grantsBetween_eq_zero (b.stamped_later l hlater), Nat.cast_zero, zero_mul]
      have hresets : 0 ≤ (resets steps : α) * b.start :=
        mul_nonneg (Nat.cast_nonneg _) b.start_nonneg
      linarith
  induction steps with
  | nil =>
    intro l hl hfull hmono
    have hnone : grantsBetween t₀ t₁ (b.stamped l []) = 0 := rfl
    rw [hnone, resets_nil]
    push_cast
    linarith
  | cons s rest ih =>
    obtain ⟨op, t⟩ := s
    intro l hl hfull hmono
    have hmono' := hmono
    rw [List.map_cons, List.pairwise_cons] at hmono'
    have ht : l.since ≤ t := hmono'.1 t (List.mem_cons_self ..)
    rcases le_or_gt t₀ l.since with hbegin | hbefore
    · exact hfrom _ l hl hfull hbegin hmono
    · rcases le_or_gt t₀ t with hin | hout
      · -- the window opens between `l` and this step: credit the time up to it
        have hstamped : b.stamped ⟨b.advance l t₀, t₀⟩ ((op, t) :: rest)
            = b.stamped l ((op, t) :: rest) := by
          rw [stamped_cons, stamped_cons, b.step_advance l t₀ t hin]
        rw [← hstamped]
        refine hfrom _ ⟨b.advance l t₀, t₀⟩ (b.advance_nonneg l t₀ hl (le_of_lt hbefore))
          (b.advance_le_capacity l t₀) (le_refl _) ?_
        rw [List.map_cons]
        refine List.pairwise_cons.mpr ⟨fun u hu => ?_, hmono'.2⟩
        rcases List.mem_cons.mp hu with rfl | hu
        · exact hin
        · exact le_trans hin ((List.pairwise_cons.mp hmono'.2).1 u hu)
      -- this step is before the window too
      · have hrest := ih (b.step l t op).2 (b.step_nonneg l t op hl ht)
          (b.step_le_capacity l t op hcost) (by rw [step_since]; exact hmono'.2)
        have hresets : (resets rest : α) * b.start ≤ resets ((op, t) :: rest) * b.start := by
          refine mul_le_mul_of_nonneg_right ?_ b.start_nonneg
          rw [resets_cons]
          push_cast
          have : (0 : α) ≤ if op.isReset = true then 1 else 0 := by
            split
            · exact zero_le_one
            · exact le_refl 0
          linarith
        rw [stamped_cons, grantsBetween_cons, if_neg (by
          rintro ⟨-, h, -⟩
          exact absurd h (not_le.mpr hout)), add_zero]
        linarith

/-- Where credit is an integer, an account of it counts whole costs. -/
theorem whole_tokens {n m d cost : ℤ} (hcost : 0 < cost) (h : n * cost ≤ m * cost + d) :
    n ≤ m + d / cost := by
  have hdiv : n - m ≤ d / cost := by
    rw [Int.le_ediv_iff_mul_le hcost, sub_mul]
    linarith
  linarith

end TokenBucket
