/-
Finite maps as lists of entries with distinct keys.

The distinctness is a field, so a map with two entries for a key cannot be
built. `set` keeps the place of a key that is present and puts a new one last;
two maps that were filled in the same order are equal as soon as they agree key
by key.

A loop over the entries of a map whose step looks at one key of its state and
leaves the others alone does at each key what that one step does: `Local` names
the condition, and `Local.foldl_view` is the rule.
-/
import Mathlib.Data.List.Basic
import Mathlib.Data.List.Nodup

set_option autoImplicit false

structure AssocMap (κ α : Type) where
  entries : List (κ × α)
  nodup : (entries.map Prod.fst).Nodup
  deriving DecidableEq

namespace AssocMap

variable {κ α : Type} [DecidableEq κ]

def empty : AssocMap κ α := ⟨[], List.nodup_nil⟩

def find? (m : AssocMap κ α) (key : κ) : Option α := m.entries.lookup key

/-- Replace the entry of a key, or add one at the end. -/
def setEntries (key : κ) (value : α) : List (κ × α) → List (κ × α)
  | [] => [(key, value)]
  | (k, v) :: rest => if k = key then (k, value) :: rest else (k, v) :: setEntries key value rest

theorem mem_keys_setEntries {key k : κ} {value : α} {entries : List (κ × α)} :
    k ∈ (setEntries key value entries).map Prod.fst ↔ k = key ∨ k ∈ entries.map Prod.fst := by
  induction entries with
  | nil => simp [setEntries]
  | cons e rest ih =>
    obtain ⟨k', v⟩ := e
    unfold setEntries
    split
    · next hk =>
      subst hk
      simp
    · rw [List.map_cons, List.mem_cons, ih, List.map_cons, List.mem_cons]
      exact or_left_comm

theorem nodup_setEntries (key : κ) (value : α) {entries : List (κ × α)}
    (h : (entries.map Prod.fst).Nodup) : ((setEntries key value entries).map Prod.fst).Nodup := by
  induction entries with
  | nil => simp [setEntries]
  | cons e rest ih =>
    obtain ⟨k', v⟩ := e
    obtain ⟨hnot, hrest⟩ := List.nodup_cons.mp h
    unfold setEntries
    split
    · exact List.nodup_cons.mpr ⟨hnot, hrest⟩
    · next hk =>
      refine List.nodup_cons.mpr ⟨?_, ih hrest⟩
      rw [mem_keys_setEntries, not_or]
      exact ⟨hk, hnot⟩

def set (m : AssocMap κ α) (key : κ) (value : α) : AssocMap κ α :=
  ⟨setEntries key value m.entries, nodup_setEntries key value m.nodup⟩

/-! ## Lookup -/

/-- Any lawful test of equality of keys finds the same entry. -/
theorem find?_eq_lookup [inst : BEq κ] [LawfulBEq κ] (m : AssocMap κ α) (key : κ) :
    m.find? key = m.entries.lookup key := by
  rw [find?, lawful_beq_subsingleton inst instBEqOfDecidableEq]

theorem lookup_cons_ite (key k : κ) (value : α) (rest : List (κ × α)) :
    ((k, value) :: rest).lookup key = if key = k then some value else rest.lookup key := by
  rw [List.lookup_cons]
  by_cases hkey : key = k
  · rw [if_pos hkey, beq_iff_eq.mpr hkey]
  · rw [if_neg hkey, beq_eq_false_iff_ne.mpr hkey]

theorem lookup_setEntries (key k : κ) (value : α) (entries : List (κ × α)) :
    (setEntries key value entries).lookup k = if k = key then some value else entries.lookup k := by
  induction entries with
  | nil => rw [setEntries, lookup_cons_ite]
  | cons e rest ih =>
    obtain ⟨k', v⟩ := e
    unfold setEntries
    split
    · next hk' =>
      subst hk'
      rw [lookup_cons_ite, lookup_cons_ite]
      split <;> rfl
    · next hk' =>
      rw [lookup_cons_ite, lookup_cons_ite, ih]
      by_cases hk : k = k'
      · have hne : k ≠ key := fun heq => hk' (hk ▸ heq)
        rw [if_pos hk, if_neg hne, if_pos hk]
      · rw [if_neg hk, if_neg hk]

@[simp] theorem find?_set_self (m : AssocMap κ α) (key : κ) (value : α) :
    (m.set key value).find? key = some value := by
  rw [find?, set, lookup_setEntries, if_pos rfl]

theorem find?_set_ne (m : AssocMap κ α) {key k : κ} (value : α) (hne : k ≠ key) :
    (m.set key value).find? k = m.find? k := by
  rw [find?, set, lookup_setEntries, if_neg hne, find?]

theorem lookup_of_not_mem {key : κ} {entries : List (κ × α)}
    (hkey : key ∉ entries.map Prod.fst) : entries.lookup key = none := by
  rw [List.lookup_eq_none_iff]
  intro e he
  rw [bne_iff_ne]
  rintro rfl
  exact hkey (List.mem_map_of_mem he)

theorem find?_of_mem {m : AssocMap κ α} {e : κ × α} (he : e ∈ m.entries) :
    m.find? e.1 = some e.2 := by
  obtain ⟨entries, hnodup⟩ := m
  induction entries with
  | nil => cases he
  | cons e' rest ih =>
    obtain ⟨hnot, hrest⟩ := List.nodup_cons.mp hnodup
    rw [find?, lookup_cons_ite]
    rcases List.mem_cons.mp he with rfl | hmem
    · exact if_pos rfl
    · have hne : e.1 ≠ e'.1 := fun heq => hnot (heq ▸ List.mem_map_of_mem hmem)
      rw [if_neg hne]
      exact ih hrest hmem

omit [DecidableEq κ] in
theorem lookup_map_value [BEq κ] {β : Type} (f : α → β) (key : κ) (entries : List (κ × α)) :
    (entries.map fun e => (e.1, f e.2)).lookup key = (entries.lookup key).map f := by
  induction entries with
  | nil => rfl
  | cons e rest ih =>
    rw [List.map_cons, List.lookup_cons, List.lookup_cons, ih]
    cases key == e.1 <;> rfl

/-! ## Walking the entries -/

section Walk

variable {σ β : Type} {view : σ → κ → β} {step : σ → κ → α → σ}

/-- A step reads and writes a state at its own key only, as far as `view` shows. -/
structure Local (view : σ → κ → β) (step : σ → κ → α → σ) : Prop where
  own : ∀ s s' key value, view s key = view s' key →
    view (step s key value) key = view (step s' key value) key
  frame : ∀ s key value other, other ≠ key → view (step s key value) other = view s other

/-- **The rule of the walk.** Over distinct keys, a loop leaves at each key what
the step for that key leaves there. -/
theorem Local.foldl_view (h : Local view step) (entries : List (κ × α))
    (hnodup : (entries.map Prod.fst).Nodup) (s : σ) (key : κ) :
    view (entries.foldl (fun s e => step s e.1 e.2) s) key
      = match entries.lookup key with
        | some value => view (step s key value) key
        | none => view s key := by
  induction entries generalizing s with
  | nil => rfl
  | cons e rest ih =>
    obtain ⟨k, value⟩ := e
    obtain ⟨hnot, hrest⟩ := List.nodup_cons.mp hnodup
    rw [List.foldl_cons, ih hrest, lookup_cons_ite]
    by_cases hk : key = k
    · -- the rest does not come back to this key
      subst hk
      rw [lookup_of_not_mem hnot, if_pos rfl]
    · rw [if_neg hk]
      cases rest.lookup key with
      | none => exact h.frame s k value key hk
      | some v => exact h.own _ _ key v (h.frame s k value key hk)

omit [DecidableEq κ] in
/-- Two loops agree when their steps do on every state that shows nothing yet at
the step's key. -/
theorem Local.foldl_congr (h : Local view step) (step' : σ → κ → α → σ) (fresh : β) (entries : List (κ × α))
    (hnodup : (entries.map Prod.fst).Nodup)
    (hstep : ∀ s, ∀ e ∈ entries, view s e.1 = fresh → step s e.1 e.2 = step' s e.1 e.2) (s : σ)
    (hs : ∀ e ∈ entries, view s e.1 = fresh) :
    entries.foldl (fun s e => step s e.1 e.2) s = entries.foldl (fun s e => step' s e.1 e.2) s := by
  induction entries generalizing s with
  | nil => rfl
  | cons e rest ih =>
    obtain ⟨hnot, hrest⟩ := List.nodup_cons.mp hnodup
    have hhead := hstep s e (List.mem_cons_self ..) (hs e (List.mem_cons_self ..))
    rw [List.foldl_cons, List.foldl_cons, ← hhead]
    refine ih hrest (fun s' e' he' => hstep s' e' (List.mem_cons_of_mem _ he')) _ fun e' he' => ?_
    have hne : e'.1 ≠ e.1 := fun heq => hnot (heq ▸ List.mem_map_of_mem he')
    rw [h.frame s e.1 e.2 e'.1 hne]
    exact hs e' (List.mem_cons_of_mem _ he')

end Walk

/-! ## Filling a map -/

theorem setEntries_fresh {key : κ} {entries : List (κ × α)} (hkey : key ∉ entries.map Prod.fst)
    (value : α) : setEntries key value entries = entries ++ [(key, value)] := by
  induction entries with
  | nil => rfl
  | cons e rest ih =>
    rw [List.map_cons, List.mem_cons, not_or] at hkey
    rw [setEntries, if_neg (Ne.symm hkey.1), ih hkey.2, List.cons_append]

/-- **The rule of filling.** A loop that sets, in a map its state holds, each entry
whose key is not there yet leaves the entries it walks, behind those that were
there, and the rest of the state as it was. -/
theorem foldl_fill {σ β : Type} (get : σ → AssocMap κ β) (put : σ → AssocMap κ β → σ)
    {step : σ → κ → α → σ} {encode : β → α} (hget : ∀ s m, get (put s m) = m)
    (hput : ∀ s m m', put (put s m) m' = put s m') (entries : List (κ × β))
    (hstep : ∀ s, ∀ e ∈ entries, (get s).find? e.1 = none →
      step s e.1 (encode e.2) = put s ((get s).set e.1 e.2)) (s : σ) (before m : AssocMap κ β)
    (hbefore : put s before = s) (hm : m.entries = before.entries ++ entries) :
    (entries.map fun e => (e.1, encode e.2)).foldl (fun s e => step s e.1 e.2) s = put s m := by
  induction entries generalizing s before with
  | nil =>
    obtain ⟨entries, hnodup⟩ := before
    obtain ⟨entries', hnodup'⟩ := m
    rw [List.append_nil] at hm
    subst hm
    exact hbefore.symm
  | cons e rest ih =>
    have hheld : get s = before := by rw [← hbefore, hget]
    -- the keys are distinct, so this one is not there yet
    have hfresh : e.1 ∉ before.entries.map Prod.fst := by
      have hnodup := m.nodup
      rw [hm, List.map_append, List.nodup_append] at hnodup
      exact fun hmem => hnodup.2.2 _ hmem _ (List.mem_cons_self ..) rfl
    rw [List.map_cons, List.foldl_cons,
      hstep s e (List.mem_cons_self ..) (by rw [hheld]; exact lookup_of_not_mem hfresh), hheld,
      ih (fun s' e' he' => hstep s' e' (List.mem_cons_of_mem _ he')) _ (before.set e.1 e.2)
        (hput ..) ?_, hput]
    have hset : (before.set e.1 e.2).entries = before.entries ++ [e] := setEntries_fresh hfresh e.2
    rw [hm, hset, List.append_assoc, List.singleton_append]

/-! ## Optional members -/

/-- The members that are there. -/
def present (slots : List (κ × Option α)) : List (κ × α) :=
  slots.filterMap fun slot => slot.2.map fun value => (slot.1, value)

theorem lookup_present [inst : BEq κ] [LawfulBEq κ] {slots : List (κ × Option α)}
    (hnodup : (slots.map Prod.fst).Nodup) (key : κ) :
    (present slots).lookup key = (slots.lookup key).join := by
  rw [lawful_beq_subsingleton inst instBEqOfDecidableEq]
  induction slots with
  | nil => rfl
  | cons slot rest ih =>
    obtain ⟨k, value⟩ := slot
    obtain ⟨hnot, hrest⟩ := List.nodup_cons.mp hnodup
    rw [lookup_cons_ite]
    cases value with
    | none =>
      have hskip : present ((k, none) :: rest) = present rest := rfl
      rw [hskip, ih hrest]
      by_cases hk : key = k
      · rw [if_pos hk, hk, lookup_of_not_mem hnot]
        rfl
      · rw [if_neg hk]
    | some value =>
      have hkeep : present ((k, some value) :: rest) = (k, value) :: present rest := rfl
      rw [hkeep, lookup_cons_ite, ih hrest]
      split <;> rfl

end AssocMap
