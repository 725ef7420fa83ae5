/-
Programs over a world that may still be running.

A `Proc σ α` is a state transformer whose result is optional: `none` says that
the program had not returned when its fuel was spent. The world is kept in both
cases, so what a program did before that point can still be reasoned about, and
a statement about every fuel is a statement about every prefix of a run that
never ends.

`Ensures x w Q` says that running `x` in `w` ends in `Q`, where `Q` sees the
optional result. The rules follow the shape of a program: one for `pure`, one
for a bind, one for weakening. `Spends` is the same for programs that return, with
a bound on what they cost.
-/
import Mathlib.Data.Int.Basic

set_option autoImplicit false

def Proc (σ α : Type) : Type := σ → Option α × σ

namespace Proc

variable {σ α β : Type}

/-- Run `f` on the result of `x`, if `x` returned. -/
def andThen (x : Proc σ α) (f : α → Proc σ β) : Proc σ β := fun w =>
  match x w with
  | (some a, w') => f a w'
  | (none, w') => (none, w')

instance : Monad (Proc σ) where
  pure a := fun w => (some a, w)
  bind := andThen

/-- A program whose fuel is spent. -/
def running : Proc σ α := fun w => (none, w)

/-- Read something from the world. -/
def reads (f : σ → α) : Proc σ α := fun w => (some (f w), w)

/-- Change the world. -/
def modifies (f : σ → σ) : Proc σ Unit := fun w => (some (), f w)

@[simp] theorem pure_run (a : α) (w : σ) : (pure a : Proc σ α) w = (some a, w) := rfl

@[simp] theorem modifies_run (f : σ → σ) (w : σ) : modifies f w = (some (), f w) := rfl

/-- A bind after a program that returned. -/
theorem bind_run {x : Proc σ α} {f : α → Proc σ β} {w w' : σ} {a : α}
    (h : x w = (some a, w')) : (x >>= f) w = f a w' := by
  change andThen x f w = f a w'
  rw [andThen, h]

/-- A bind after a program that did not. -/
theorem bind_running {x : Proc σ α} {f : α → Proc σ β} {w w' : σ}
    (h : x w = (none, w')) : (x >>= f) w = (none, w') := by
  change andThen x f w = (none, w')
  rw [andThen, h]

/-- A bind that returned: both programs did. -/
theorem bind_returned {x : Proc σ α} {f : α → Proc σ β} {w w' : σ} {b : β}
    (h : (x >>= f) w = (some b, w')) : ∃ a w₁, x w = (some a, w₁) ∧ f a w₁ = (some b, w') := by
  rcases hxw : x w with ⟨_ | a, w₁⟩
  · rw [bind_running hxw] at h
    cases h
  · rw [bind_run hxw] at h
    exact ⟨a, w₁, rfl, h⟩

/-- Programs that run alike, here and there, do so in front of any other. -/
theorem bind_congr {x y : Proc σ α} {w w' : σ} (h : x w = y w') (f : α → Proc σ β) :
    (x >>= f) w = (y >>= f) w' := by
  change andThen x f w = andThen y f w'
  rw [andThen, andThen, h]

theorem bind_pure (x : Proc σ α) : (x >>= pure) = x := by
  funext w
  rcases hxw : x w with ⟨_ | a, w'⟩
  · rw [bind_running hxw]
  · rw [bind_run hxw]
    rfl

/-! ## Rules -/

/-- Running `x` in `w` ends in `Q`, whether it returned or is still running. -/
def Ensures (x : Proc σ α) (w : σ) (Q : Option α → σ → Prop) : Prop := Q (x w).1 (x w).2

/-- The rule of composition: where `x` returned, the continuation has to end in
`Q`; where it is still running, so is the whole program. -/
theorem Ensures.bind {x : Proc σ α} {f : α → Proc σ β} {w : σ} {P : Option α → σ → Prop}
    {Q : Option β → σ → Prop} (hx : Ensures x w P) (hret : ∀ a w', P (some a) w' → Ensures (f a) w' Q)
    (hrun : ∀ w', P none w' → Q none w') : Ensures (x >>= f) w Q := by
  unfold Ensures at hx ⊢
  rcases hxw : x w with ⟨_ | a, w'⟩
  · rw [hxw] at hx
    rw [bind_running hxw]
    exact hrun w' hx
  · rw [hxw] at hx
    rw [bind_run hxw]
    exact hret a w' hx

theorem Ensures.mono {x : Proc σ α} {w : σ} {P Q : Option α → σ → Prop} (hx : Ensures x w P)
    (h : ∀ r w', P r w' → Q r w') : Ensures x w Q := h _ _ hx

/-- `x` always returns. -/
def Returns (x : Proc σ α) : Prop := ∀ w, ∃ a w', x w = (some a, w')

theorem Returns.pure (a : α) : Returns (pure a : Proc σ α) := fun w => ⟨a, w, rfl⟩

theorem Returns.bind {x : Proc σ α} {f : α → Proc σ β} (hx : Returns x)
    (hf : ∀ a, Returns (f a)) : Returns (x >>= f) := by
  intro w
  obtain ⟨a, w', hxw⟩ := hx w
  rw [bind_run hxw]
  exact hf a w'

/-- `x'` does what `x` does, in a world with something added to it. -/
def Mirrors {τ : Type} (x' : Proc (σ × τ) α) (x : Proc σ α) : Prop :=
  ∀ w, (x' w).1 = (x w.1).1 ∧ (x' w).2.1 = (x w.1).2

theorem Mirrors.pure {τ : Type} (a : α) :
    Mirrors (pure a : Proc (σ × τ) α) (pure a : Proc σ α) := fun _ => ⟨rfl, rfl⟩

theorem Mirrors.bind {τ : Type} {x' : Proc (σ × τ) α} {x : Proc σ α} {f' : α → Proc (σ × τ) β}
    {f : α → Proc σ β} (hx : Mirrors x' x) (hf : ∀ a, Mirrors (f' a) (f a)) :
    Mirrors (x' >>= f') (x >>= f) := by
  intro w
  obtain ⟨hresult, hworld⟩ := hx w
  -- both stop here, or both go on with the same result
  rcases hrun' : x' w with ⟨_ | a, w'⟩ <;> rw [hrun'] at hresult hworld
  · have hrun : x w.1 = (none, w'.1) := Prod.ext hresult.symm hworld.symm
    rw [bind_running hrun', bind_running hrun]
    exact ⟨rfl, rfl⟩
  · have hrun : x w.1 = (some a, w'.1) := Prod.ext hresult.symm hworld.symm
    rw [bind_run hrun', bind_run hrun]
    exact hf a w'

/-- `x` keeps an invariant of the world, returned or not. -/
def Keeps (I : σ → Prop) (x : Proc σ α) : Prop := ∀ w, I w → I (x w).2

theorem Keeps.bind {I : σ → Prop} {x : Proc σ α} {f : α → Proc σ β} (hx : Keeps I x)
    (hf : ∀ a, Keeps I (f a)) : Keeps I (x >>= f) := by
  intro w hw
  have h := hx w hw
  rcases hxw : x w with ⟨_ | a, w'⟩
  · rw [bind_running hxw]
    rwa [hxw] at h
  · rw [bind_run hxw]
    rw [hxw] at h
    exact hf a w' h

/-! ## Costs -/

/-- `x` returns, keeps an invariant of the world, and raises a measure of it by at
most `c`. -/
def Spends (I : σ → Prop) (m : σ → ℤ) (c : ℤ) (x : Proc σ α) : Prop :=
  ∀ w, I w → ∃ a w', x w = (some a, w') ∧ I w' ∧ m w' ≤ m w + c

section Costs

variable {I : σ → Prop} {m : σ → ℤ} {c d : ℤ}

theorem Spends.pure (a : α) : Spends I m 0 (pure a : Proc σ α) :=
  fun w hw => ⟨a, w, rfl, hw, Int.le_of_eq (Int.add_zero _).symm⟩

/-- Costs add up along a bind. -/
theorem Spends.bind {x : Proc σ α} {f : α → Proc σ β} (hx : Spends I m c x)
    (hf : ∀ a, Spends I m d (f a)) : Spends I m (c + d) (x >>= f) := by
  intro w hw
  obtain ⟨a, w₁, hxw, hw₁, hc⟩ := hx w hw
  obtain ⟨b, w₂, hfw, hw₂, hd⟩ := hf a w₁ hw₁
  refine ⟨b, w₂, (bind_run hxw).trans hfw, hw₂, ?_⟩
  omega

theorem Spends.mono {x : Proc σ α} (hx : Spends I m c x) (hcd : c ≤ d) : Spends I m d x := by
  intro w hw
  obtain ⟨a, w', hxw, hw', hc⟩ := hx w hw
  exact ⟨a, w', hxw, hw', by omega⟩

end Costs

end Proc
