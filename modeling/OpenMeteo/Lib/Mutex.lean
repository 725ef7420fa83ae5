/-
Code under one mutex is atomic.

Threads share a memory. An action of a thread either runs without the mutex and
without the memory, or it is a `Critical` section: the mutex is locked, the code
makes one access to the memory or one reading of the clock at a time, and the
mutex is released. Between any two of these steps any other thread may do
whatever does not need the mutex, and may try to lock it.

`Fine` is the machine that takes these small steps, `Atomic` the one that takes
a whole section at once. `linear` orders the calls of a fine-grained run by
their first readings of the clock. The readings that are still to come, and the
result, belong to the call as well, so `linear` looks ahead in the trace, and
the simulation is stated between a state and the rest of its trace.

A section waits for nothing. `Within` counts what it may still do, and from a bound on
that follows when the mutex is released, and that no thread is stuck.
-/
import Mathlib.Logic.Function.Basic
import Mathlib.Data.List.Basic
import Mathlib.Data.List.Pairwise

set_option autoImplicit false

namespace Mutex

/-! ## Code that holds the mutex -/

/-- A section over the memory `M`, with readings in `E`, one access at a time. -/
inductive Critical (M E R : Type) where
  | ret (r : R)
  | load (next : M → Critical M E R)
  | store (write : M → M) (next : Critical M E R)
  | read (next : E → Critical M E R)

namespace Critical

variable {M E R S : Type}

def andThen : Critical M E R → (R → Critical M E S) → Critical M E S
  | ret r, f => f r
  | load next, f => load fun m => (next m).andThen f
  | store write next, f => store write (next.andThen f)
  | read next, f => read fun e => (next e).andThen f

instance : Monad (Critical M E) where
  pure := ret
  bind := andThen

/-- The next reading. -/
def clock : Critical M E E := read ret

def fetch {V : Type} (field : M → V) : Critical M E V := load fun m => ret (field m)

def put (write : M → M) : Critical M E Unit := store write (ret ())

/-- The code run from its beginning to its end: the result, the memory it leaves,
and the readings it did not need. -/
def run : Critical M E R → M → List E → Option (R × M × List E)
  | ret r, m, es => some (r, m, es)
  | load next, m, es => (next m).run m es
  | store write next, m, es => next.run (write m) es
  | read _, _, [] => none
  | read next, m, e :: es => (next e).run m es

@[simp] theorem run_pure (r : R) (m : M) (es : List E) :
    (pure r : Critical M E R).run m es = some (r, m, es) := rfl

@[simp] theorem run_clock (m : M) (e : E) (es : List E) :
    (clock : Critical M E E).run m (e :: es) = some (e, m, es) := rfl

@[simp] theorem run_clock_nil (m : M) : (clock : Critical M E E).run m [] = none := rfl

@[simp] theorem run_fetch {V : Type} (field : M → V) (m : M) (es : List E) :
    (fetch field : Critical M E V).run m es = some (field m, m, es) := rfl

@[simp] theorem run_put (write : M → M) (m : M) (es : List E) :
    (put write : Critical M E Unit).run m es = some ((), write m, es) := rfl

/-- A bind runs the one part and then the other, with the readings that are left. -/
@[simp] theorem run_bind (x : Critical M E R) (f : R → Critical M E S) :
    ∀ (m : M) (es : List E),
      (x >>= f).run m es = (x.run m es).bind fun (r, m', es') => (f r).run m' es' := by
  change ∀ m es, (x.andThen f).run m es = _
  induction x with
  | ret r => exact fun m es => rfl
  | load next ih => exact fun m es => ih m m es
  | store write next ih => exact fun m es => ih (write m) es
  | read next ih =>
    intro m es
    cases es with
    | nil => rfl
    | cons e es => exact ih e m es

end Critical

/-! ## The two machines -/

/-- What threads can do: `P` are their places, `A` the actions, `R` the results.
An action at a place is a section or runs without the mutex. -/
structure Locked (P A M E R : Type) where
  guarded : P → A → Option (Critical M E (R × P))
  free : P → A → E → Option (R × P)

/-- A small step of a thread. -/
inductive Move (A : Type) where
  | free (action : A)
  | lock (action : A)
  | access
  | read
  | unlock
  deriving DecidableEq, Repr

/-- Which thread moves, and when. -/
structure Tick (T A E : Type) where
  thread : T
  move : Move A
  time : E
  deriving DecidableEq, Repr

/-- The memory, the thread that holds the mutex with what is left of its section,
and the places of the threads. -/
structure Fine (T P M E R : Type) where
  memory : M
  holder : Option (T × Critical M E (R × P))
  places : T → P

/-- The same between two sections. -/
structure Atomic (T P M : Type) where
  memory : M
  places : T → P

/-- A whole call, with its readings. -/
inductive Call (T A E : Type) where
  | free (thread : T) (action : A) (time : E)
  | guarded (thread : T) (action : A) (first : E) (later : List E)
  deriving DecidableEq, Repr

variable {T P A M E R : Type} [DecidableEq T]

/-- One small step, or `none` where the thread cannot take it. Only the step that
ends a call has a result. -/
def Fine.step (k : Locked P A M E R) (f : Fine T P M E R) (tick : Tick T A E) :
    Option (Option R × Fine T P M E R) :=
  match tick.move, f.holder with
  | .free a, holder =>
    -- a thread inside a section does nothing else
    if holder.map Prod.fst = some tick.thread then none
    else (k.free (f.places tick.thread) a tick.time).map fun (r, p) =>
      (some r, { f with places := Function.update f.places tick.thread p })
  | .lock a, none =>
    (k.guarded (f.places tick.thread) a).map fun code =>
      (none, { f with holder := some (tick.thread, code) })
  | .access, some (t, .load next) =>
    if t = tick.thread then some (none, { f with holder := some (t, next f.memory) }) else none
  | .access, some (t, .store write next) =>
    if t = tick.thread then
      some (none, { f with memory := write f.memory, holder := some (t, next) })
    else none
  | .read, some (t, .read next) =>
    if t = tick.thread then some (none, { f with holder := some (t, next tick.time) }) else none
  | .unlock, some (t, .ret (r, p)) =>
    if t = tick.thread then
      some (some r, { f with holder := none, places := Function.update f.places t p })
    else none
  | _, _ => none

/-- A run, with what each of its steps gave. -/
def Fine.run (k : Locked P A M E R) :
    Fine T P M E R → List (Tick T A E) → Option (List (Tick T A E × Option R) × Fine T P M E R)
  | f, [] => some ([], f)
  | f, tick :: rest =>
    match f.step k tick with
    | none => none
    | some (out, f') =>
      match Fine.run k f' rest with
      | none => none
      | some (trace, final) => some ((tick, out) :: trace, final)

/-- A whole call at once. -/
def Atomic.step (k : Locked P A M E R) (a : Atomic T P M) :
    Call T A E → Option (R × Atomic T P M)
  | .free t action e =>
    (k.free (a.places t) action e).map fun (r, p) =>
      (r, { a with places := Function.update a.places t p })
  | .guarded t action first later =>
    match k.guarded (a.places t) action with
    | none => none
    | some code =>
      match code.run a.memory (first :: later) with
      | some ((r, p), m, []) => some (r, ⟨m, Function.update a.places t p⟩)
      | _ => none

def Atomic.run (k : Locked P A M E R) :
    Atomic T P M → List (Call T A E) → Option (List R × Atomic T P M)
  | a, [] => some ([], a)
  | a, call :: rest =>
    match a.step k call with
    | none => none
    | some (r, a') =>
      match Atomic.run k a' rest with
      | none => none
      | some (rs, final) => some (r :: rs, final)

/-! ## The order of the calls -/

/-- The readings until the mutex is released. -/
def readings : List (Tick T A E × Option R) → List E
  | [] => []
  | (tick, _) :: rest =>
    match tick.move with
    | .unlock => []
    | .read => tick.time :: readings rest
    | _ => readings rest

/-- What the section that holds the mutex will give, if it ends in this trace. -/
def answer : List (Tick T A E × Option R) → Option R
  | [] => none
  | (tick, out) :: rest =>
    match tick.move with
    | .unlock => out
    | _ => answer rest

/-- The calls of a trace with their results, in the order in which they take
effect: a section at its first reading. `pending` is the section that has not
read yet. A section that the trace does not finish is left out. -/
def linear : Option (T × A) → List (Tick T A E × Option R) → List (Call T A E × R)
  | _, [] => []
  | pending, (tick, out) :: rest =>
    match tick.move, pending, out with
    | .free a, _, some r => (.free tick.thread a tick.time, r) :: linear pending rest
    | .lock a, _, _ => linear (some (tick.thread, a)) rest
    | .read, some (t, a), _ =>
      match answer rest with
      | some r => (.guarded t a tick.time (readings rest), r) :: linear none rest
      | none => linear none rest
    | _, _, _ => linear pending rest

def Call.thread : Call T A E → T
  | .free t _ _ => t
  | .guarded t _ _ _ => t

/-- When a call takes effect. -/
def Call.time : Call T A E → E
  | .free _ _ e => e
  | .guarded _ _ first _ => first

/-- The results a thread gets in a trace. -/
def gets (t : T) (trace : List (Tick T A E × Option R)) : List R :=
  trace.flatMap fun (tick, out) => if tick.thread = t then out.toList else []

/-- The results of the calls of a thread. -/
def gives (t : T) (calls : List (Call T A E × R)) : List R :=
  calls.flatMap fun (call, r) => if call.thread = t then [r] else []

omit [DecidableEq T] in
/-- The calls take effect in the order of the trace, each at the time of one of
its steps. -/
theorem linear_times_sublist (trace : List (Tick T A E × Option R)) :
    ∀ pending, ((linear pending trace).map fun c => c.1.time).Sublist
      (trace.map fun s => s.1.time) := by
  induction trace with
  | nil => exact fun pending => List.Sublist.refl _
  | cons s rest ih =>
    obtain ⟨tick, out⟩ := s
    intro pending
    unfold linear
    split
    · exact (ih _).cons_cons _
    · exact (ih _).cons _
    · split
      · exact (ih none).cons_cons _
      · exact (ih none).cons _
    · exact (ih _).cons _

/-! ## What a small step can be -/

inductive Fine.Stepped (k : Locked P A M E R) (f : Fine T P M E R) (tick : Tick T A E) :
    Option R → Fine T P M E R → Prop
  | free (a : A) (r : R) (p : P) (hmove : tick.move = .free a)
      (houtside : f.holder.map Prod.fst ≠ some tick.thread)
      (hfree : k.free (f.places tick.thread) a tick.time = some (r, p)) :
      Stepped k f tick (some r) { f with places := Function.update f.places tick.thread p }
  | lock (a : A) (code : Critical M E (R × P)) (hmove : tick.move = .lock a)
      (hholder : f.holder = none) (hcode : k.guarded (f.places tick.thread) a = some code) :
      Stepped k f tick none { f with holder := some (tick.thread, code) }
  | load (next : M → Critical M E (R × P)) (hmove : tick.move = .access)
      (hholder : f.holder = some (tick.thread, .load next)) :
      Stepped k f tick none { f with holder := some (tick.thread, next f.memory) }
  | store (write : M → M) (next : Critical M E (R × P)) (hmove : tick.move = .access)
      (hholder : f.holder = some (tick.thread, .store write next)) :
      Stepped k f tick none
        { f with memory := write f.memory, holder := some (tick.thread, next) }
  | read (next : E → Critical M E (R × P)) (hmove : tick.move = .read)
      (hholder : f.holder = some (tick.thread, .read next)) :
      Stepped k f tick none { f with holder := some (tick.thread, next tick.time) }
  | unlock (r : R) (p : P) (hmove : tick.move = .unlock)
      (hholder : f.holder = some (tick.thread, .ret (r, p))) :
      Stepped k f tick (some r)
        { f with holder := none, places := Function.update f.places tick.thread p }

variable {k : Locked P A M E R} {f f' final : Fine T P M E R} {tick : Tick T A E}
  {out : Option R} {ticks : List (Tick T A E)} {trace rest : List (Tick T A E × Option R)}
  {pending : Option (T × A)}

theorem Fine.step_cases (hstep : f.step k tick = some (out, f')) :
    Fine.Stepped k f tick out f' := by
  unfold Fine.step at hstep
  split at hstep
  · next holder a hmove =>
    split at hstep
    · cases hstep
    · next houtside =>
      obtain ⟨⟨r, p⟩, hfree, heq⟩ := Option.map_eq_some_iff.mp hstep
      cases heq
      exact .free a r p hmove houtside hfree
  · next a hmove hholder =>
    obtain ⟨code, hcode, heq⟩ := Option.map_eq_some_iff.mp hstep
    cases heq
    exact .lock a code hmove hholder hcode
  · next t next hmove hholder =>
    split at hstep
    · next hthread =>
      cases hstep
      cases hthread
      exact .load next hmove hholder
    · cases hstep
  · next t write next hmove hholder =>
    split at hstep
    · next hthread =>
      cases hstep
      cases hthread
      exact .store write next hmove hholder
    · cases hstep
  · next t next hmove hholder =>
    split at hstep
    · next hthread =>
      cases hstep
      cases hthread
      exact .read next hmove hholder
    · cases hstep
  · next t r p hmove hholder =>
    split at hstep
    · next hthread =>
      cases hstep
      cases hthread
      exact .unlock r p hmove hholder
    · cases hstep
  · cases hstep

theorem Fine.run_cons {t : Tick T A E} (hrun : f.run k (t :: ticks) = some (trace, final)) :
    ∃ out f' rest, f.step k t = some (out, f') ∧ f'.run k ticks = some (rest, final)
      ∧ trace = (t, out) :: rest := by
  rw [Fine.run] at hrun
  split at hrun
  · cases hrun
  · next out f' hstep =>
    split at hrun
    · cases hrun
    · next rest final' hrest =>
      cases hrun
      exact ⟨out, f', rest, hstep, hrest, rfl⟩

/-- A trace names the steps of its run. -/
theorem Fine.run_ticks (hrun : f.run k ticks = some (trace, final)) :
    trace.map Prod.fst = ticks := by
  induction ticks generalizing f trace with
  | nil =>
    cases hrun
    rfl
  | cons t ticks ih =>
    obtain ⟨out, f', rest, -, hrest, rfl⟩ := Fine.run_cons hrun
    rw [List.map_cons, ih hrest]

/-! ## The simulation -/

/-- A section that the rest of a run finishes, finishes as it does alone: no other
thread touches the memory. By induction on the rest. -/
theorem Fine.finishes (ticks : List (Tick T A E)) :
    ∀ {f : Fine T P M E R} {trace : List (Tick T A E × Option R)} {t : T}
      {left : Critical M E (R × P)} {r : R}, f.run k ticks = some (trace, final) →
      f.holder = some (t, left) → answer trace = some r →
      ∃ p m, left.run f.memory (readings trace) = some ((r, p), m, []) := by
  induction ticks with
  | nil =>
    intro f trace t left r hrun _ hanswer
    cases hrun
    cases hanswer
  | cons tick ticks ih =>
    intro f trace t left r hrun hholder hanswer
    obtain ⟨out, f', rest, hstep, hrest, rfl⟩ := Fine.run_cons hrun
    cases Fine.step_cases hstep with
    | free a r' p hmove houtside hfree =>
      simp only [answer, hmove] at hanswer
      simp only [readings, hmove]
      obtain ⟨p', m, hdone⟩ := ih hrest hholder hanswer
      exact ⟨p', m, hdone⟩
    | lock a code hmove hnone =>
      rw [hnone] at hholder
      cases hholder
    | load next hmove hhere =>
      cases hhere.symm.trans hholder
      simp only [answer, hmove] at hanswer
      simp only [readings, hmove]
      obtain ⟨p', m, hdone⟩ := ih hrest rfl hanswer
      exact ⟨p', m, hdone⟩
    | store write next hmove hhere =>
      cases hhere.symm.trans hholder
      simp only [answer, hmove] at hanswer
      simp only [readings, hmove]
      obtain ⟨p', m, hdone⟩ := ih hrest rfl hanswer
      exact ⟨p', m, hdone⟩
    | read next hmove hhere =>
      cases hhere.symm.trans hholder
      simp only [answer, hmove] at hanswer
      simp only [readings, hmove]
      obtain ⟨p', m, hdone⟩ := ih hrest rfl hanswer
      exact ⟨p', m, hdone⟩
    | unlock r' p hmove hhere =>
      cases hhere.symm.trans hholder
      simp only [answer, hmove, Option.some.injEq] at hanswer
      cases hanswer
      simp only [readings, hmove]
      exact ⟨p, f.memory, rfl⟩

/-- Where the machine that takes whole calls stands, while this one is at `f` with
`trace` before it. `owed` is the result of a call that has taken effect and not
ended. -/
inductive Follows (k : Locked P A M E R) (f : Fine T P M E R)
    (trace : List (Tick T A E × Option R)) :
    Option (T × A) → Option (T × R) → Atomic T P M → Prop
  | outside (hholder : f.holder = none) : Follows k f trace none none ⟨f.memory, f.places⟩
  /-- The section has not read the clock. -/
  | entered (t : T) (a : A) (code left : Critical M E (R × P)) (memory : M)
      (hholder : f.holder = some (t, left)) (hcode : k.guarded (f.places t) a = some code)
      (hrun : ∀ es, code.run memory es = left.run f.memory es) :
      Follows k f trace (some (t, a)) none ⟨memory, f.places⟩
  /-- It has, and `trace` finishes it. -/
  | done (t : T) (left : Critical M E (R × P)) (r : R) (p : P) (m : M)
      (hholder : f.holder = some (t, left)) (hanswer : answer trace = some r)
      (hrun : left.run f.memory (readings trace) = some ((r, p), m, [])) :
      Follows k f trace none (some (t, r)) ⟨m, Function.update f.places t p⟩
  /-- It has, and `trace` does not. -/
  | unfinished (t : T) (left : Critical M E (R × P)) (memory : M)
      (hholder : f.holder = some (t, left)) (hanswer : answer trace = none) :
      Follows k f trace none none ⟨memory, f.places⟩

/-- The part of what is owed that is owed to `t`. -/
def owedTo (t : T) : Option (T × R) → List R
  | some (u, r) => if u = t then [r] else []
  | none => []

/-- Every section reads the clock. -/
def Locked.Reads (k : Locked P A M E R) : Prop :=
  ∀ p a code m, k.guarded p a = some code → code.run m [] = none

/-- A small step is a whole call, or nothing. -/
inductive Follows.Next (k : Locked P A M E R) (step : Tick T A E × Option R)
    (rest : List (Tick T A E × Option R)) (pending : Option (T × A)) (owed : Option (T × R))
    (a : Atomic T P M) (pending' : Option (T × A)) (owed' : Option (T × R)) : Atomic T P M → Prop
  | stays (hlinear : linear pending (step :: rest) = linear pending' rest)
      (howed : ∀ t, gets t [step] ++ owedTo t owed' = owedTo t owed) :
      Next k step rest pending owed a pending' owed' a
  | call (call : Call T A E) (r : R) (a' : Atomic T P M)
      (hlinear : linear pending (step :: rest) = (call, r) :: linear pending' rest)
      (hstep : a.step k call = some (r, a'))
      (howed : ∀ t, gets t [step] ++ owedTo t owed' = owedTo t owed ++ gives t [(call, r)]) :
      Next k step rest pending owed a pending' owed' a'

theorem gets_none (t : T) (tick : Tick T A E) : gets t [(tick, (none : Option R))] = [] := by
  simp [gets]

theorem gets_some (t : T) (tick : Tick T A E) (r : R) :
    gets t [(tick, some r)] = if tick.thread = t then [r] else [] := by
  simp [gets]

theorem gives_one (t : T) (call : Call T A E) (r : R) :
    gives t [(call, r)] = if call.thread = t then [r] else [] := by
  simp [gives]

variable {a : Atomic T P M} {owed : Option (T × R)}

/-- **A step without the mutex** is a call of its own, also while another thread
is in its section. -/
theorem Follows.free {action : A} {r : R} {p : P}
    (h : Follows k f ((tick, some r) :: rest) pending owed a)
    (hmove : tick.move = .free action) (houtside : f.holder.map Prod.fst ≠ some tick.thread)
    (hfree : k.free (f.places tick.thread) action tick.time = some (r, p)) :
    ∃ a', Follows k { f with places := Function.update f.places tick.thread p } rest pending owed a'
      ∧ Follows.Next k (tick, some r) rest pending owed a pending owed a' := by
  have hlinear : linear pending ((tick, some r) :: rest)
      = (.free tick.thread action tick.time, r) :: linear pending rest := by
    simp only [linear, hmove]
  have hreadings : readings ((tick, some r) :: rest) = readings rest := by
    simp only [readings, hmove]
  have hanswer_eq : answer ((tick, some r) :: rest) = answer rest := by
    simp only [answer, hmove]
  have hnothing : owedTo tick.thread owed = [] := by
    cases h with
    | done t left r' p' m hholder =>
      rw [hholder] at houtside
      exact if_neg fun heq => houtside (by rw [heq]; rfl)
    | outside | entered | unfinished => rfl
  have howed : ∀ t, gets t [(tick, some r)] ++ owedTo t owed
      = owedTo t owed ++ gives t [((.free tick.thread action tick.time : Call T A E), r)] := by
    intro t
    rw [gets_some, gives_one]
    change (if tick.thread = t then [r] else []) ++ _ = _ ++ if tick.thread = t then [r] else []
    by_cases ht : tick.thread = t
    · rw [← ht, hnothing, List.append_nil, List.nil_append]
    · rw [if_neg ht, List.append_nil, List.nil_append]
  -- the thread stands in the same place in both machines
  have hnext : a.places tick.thread = f.places tick.thread →
      Follows.Next k (tick, some r) rest pending owed a pending owed
        { a with places := Function.update a.places tick.thread p } := by
    intro hplace
    refine .call (.free tick.thread action tick.time) r _ hlinear ?_ howed
    rw [Atomic.step, hplace, hfree]
    rfl
  cases h with
  | outside hholder => exact ⟨_, .outside hholder, hnext rfl⟩
  | entered t a₀ code left memory hholder hcode hrun =>
    refine ⟨_, .entered t a₀ code left memory hholder ?_ hrun, hnext rfl⟩
    have hne : t ≠ tick.thread := fun heq => houtside (by rw [hholder, heq]; rfl)
    dsimp only
    rw [Function.update_of_ne hne]
    exact hcode
  | done t left r' p' m hholder hanswer hrun =>
    have hne : t ≠ tick.thread := fun heq => houtside (by rw [hholder, heq]; rfl)
    refine ⟨_, .done t left r' p' m hholder (hanswer_eq ▸ hanswer) (hreadings ▸ hrun), ?_⟩
    have hplace := hnext (Function.update_of_ne hne.symm _ _)
    dsimp only at hplace ⊢
    rwa [Function.update_comm hne] at hplace
  | unfinished t left memory hholder hanswer =>
    exact ⟨_, .unfinished t left memory hholder (hanswer_eq ▸ hanswer), hnext rfl⟩

/-- An access to the memory is nothing: it is a part of its section. -/
theorem Follows.access {left left' : Critical M E (R × P)} {memory : M}
    (h : Follows k f ((tick, none) :: rest) pending owed a) (hmove : tick.move = .access)
    (hholder : f.holder = some (tick.thread, left))
    (hleft : ∀ es, left.run f.memory es = left'.run memory es) :
    Follows k { f with memory := memory, holder := some (tick.thread, left') } rest pending owed a
      ∧ Follows.Next k (tick, none) rest pending owed a pending owed a := by
  have hlinear : linear pending ((tick, (none : Option R)) :: rest) = linear pending rest := by
    simp only [linear, hmove]
  have hreadings : readings ((tick, (none : Option R)) :: rest) = readings rest := by
    simp only [readings, hmove]
  have hanswer_eq : answer ((tick, (none : Option R)) :: rest) = answer rest := by
    simp only [answer, hmove]
  refine ⟨?_, .stays hlinear fun t => by rw [gets_none, List.nil_append]⟩
  cases h with
  | outside hnone =>
    rw [hnone] at hholder
    cases hholder
  | entered t action code left₀ memory₀ hhere hcode hrun =>
    cases hhere.symm.trans hholder
    exact .entered _ action code left' memory₀ rfl hcode fun es => (hrun es).trans (hleft es)
  | done t left₀ r p m hhere hanswer hrun =>
    cases hhere.symm.trans hholder
    rw [hreadings, hleft] at hrun
    exact .done _ left' r p m rfl (hanswer_eq ▸ hanswer) hrun
  | unfinished t left₀ memory₀ hhere hanswer =>
    cases hhere.symm.trans hholder
    exact .unfinished _ left' memory₀ rfl (hanswer_eq ▸ hanswer)

/-- **A reading.** The first of a section is where its call takes effect: what the
rest of the trace finishes, the section run at once gives. -/
theorem Follows.read {next : E → Critical M E (R × P)}
    (h : Follows k f ((tick, none) :: rest) pending owed a) (hmove : tick.move = .read)
    (hholder : f.holder = some (tick.thread, .read next))
    (hrest : Fine.run k { f with holder := some (tick.thread, next tick.time) } ticks
      = some (rest, final)) :
    ∃ pending' owed' a',
      Follows k { f with holder := some (tick.thread, next tick.time) } rest pending' owed' a'
        ∧ Follows.Next k (tick, none) rest pending owed a pending' owed' a' := by
  have hreadings : readings ((tick, (none : Option R)) :: rest) = tick.time :: readings rest := by
    simp only [readings, hmove]
  have hanswer_eq : answer ((tick, (none : Option R)) :: rest) = answer rest := by
    simp only [answer, hmove]
  have hagain : linear none ((tick, (none : Option R)) :: rest)
      = linear (none : Option (T × A)) rest := by
    simp only [linear, hmove]
  cases h with
  | outside hnone =>
    rw [hnone] at hholder
    cases hholder
  | entered t action code left memory hhere hcode hrun =>
    cases hhere.symm.trans hholder
    cases hanswer : answer rest with
    | none =>
      refine ⟨_, _, _, .unfinished _ _ memory rfl hanswer, .stays ?_ fun t => ?_⟩
      · simp only [linear, hmove, hanswer]
      · rw [gets_none, List.nil_append]
    | some r =>
      obtain ⟨p, m, hdone⟩ := Fine.finishes ticks hrest rfl hanswer
      refine ⟨_, _, _, .done _ _ r p m rfl hanswer hdone,
        .call (.guarded tick.thread action tick.time (readings rest)) r _ ?_ ?_ fun t => ?_⟩
      · simp only [linear, hmove, hanswer]
      · have hwhole : code.run memory (tick.time :: readings rest) = some ((r, p), m, []) :=
          (hrun _).trans hdone
        simp only [Atomic.step, hcode, hwhole]
      · rw [gets_none, gives_one]
        rfl
  | done t left r p m hhere hanswer hrun =>
    cases hhere.symm.trans hholder
    rw [hreadings] at hrun
    exact ⟨_, _, _, .done _ _ r p m rfl (hanswer_eq ▸ hanswer) hrun,
      .stays hagain fun t => by rw [gets_none, List.nil_append]⟩
  | unfinished t left memory hhere hanswer =>
    cases hhere.symm.trans hholder
    exact ⟨_, _, _, .unfinished _ _ memory rfl (hanswer_eq ▸ hanswer),
      .stays hagain fun t => by rw [gets_none, List.nil_append]⟩

/-- **A release** gives what was owed, and the two machines meet. -/
theorem Follows.unlock {r : R} {p : P} (hreads : k.Reads)
    (h : Follows k f ((tick, some r) :: rest) pending owed a) (hmove : tick.move = .unlock)
    (hholder : f.holder = some (tick.thread, .ret (r, p))) :
    Follows k { f with holder := none, places := Function.update f.places tick.thread p } rest
        none none a
      ∧ Follows.Next k (tick, some r) rest pending owed a none none a := by
  cases h with
  | outside hnone =>
    rw [hnone] at hholder
    cases hholder
  | entered t action code left memory hhere hcode hrun =>
    -- a section that has not read cannot end
    cases hhere.symm.trans hholder
    have hstuck := hreads _ _ _ memory hcode
    rw [hrun] at hstuck
    cases hstuck
  | done t left r' p' m hhere hanswer hrun =>
    cases hhere.symm.trans hholder
    simp only [answer, hmove, Option.some.injEq] at hanswer
    simp only [readings, hmove] at hrun
    cases hrun
    refine ⟨.outside rfl, .stays (by simp only [linear, hmove]) fun t => ?_⟩
    rw [gets_some]
    exact List.append_nil _
  | unfinished t left memory hhere hanswer =>
    simp only [answer, hmove, reduceCtorEq] at hanswer

/-- **A small step** keeps the two machines together. -/
theorem Follows.step (hreads : k.Reads) (h : Follows k f ((tick, out) :: rest) pending owed a)
    (hstep : f.step k tick = some (out, f')) (hrest : f'.run k ticks = some (rest, final)) :
    ∃ pending' owed' a', Follows k f' rest pending' owed' a'
      ∧ Follows.Next k (tick, out) rest pending owed a pending' owed' a' := by
  cases Fine.step_cases hstep with
  | free action r p hmove houtside hfree => exact ⟨_, _, h.free hmove houtside hfree⟩
  | lock action code hmove hnone hcode =>
    cases h with
    | outside =>
      refine ⟨_, _, _, .entered tick.thread action code code f.memory rfl hcode fun _ => rfl,
        .stays ?_ fun t => ?_⟩
      · simp only [linear, hmove]
      · rw [gets_none, List.nil_append]
    | entered t action' code' left memory hholder | done t left r p m hholder
    | unfinished t left memory hholder =>
      rw [hnone] at hholder
      cases hholder
  | load next hmove hholder => exact ⟨_, _, _, h.access hmove hholder fun _ => rfl⟩
  | store write next hmove hholder => exact ⟨_, _, _, h.access hmove hholder fun _ => rfl⟩
  | read next hmove hholder => exact h.read hmove hholder hrest
  | unlock r p hmove hholder => exact ⟨_, _, _, h.unlock hreads hmove hholder⟩

theorem gets_cons (t : T) (step : Tick T A E × Option R) (rest : List (Tick T A E × Option R)) :
    gets t (step :: rest) = gets t [step] ++ gets t rest := by
  simp [gets]

theorem gives_cons (t : T) (call : Call T A E × R) (rest : List (Call T A E × R)) :
    gives t (call :: rest) = gives t [call] ++ gives t rest := by
  simp [gives]

/-- The simulation over a run, by induction on its steps. -/
theorem Follows.run (hreads : k.Reads) (ticks : List (Tick T A E)) :
    ∀ {f final : Fine T P M E R} {trace : List (Tick T A E × Option R)} {pending : Option (T × A)}
      {owed : Option (T × R)} {a : Atomic T P M}, f.run k ticks = some (trace, final) →
      Follows k f trace pending owed a →
      ∃ a', a.run k ((linear pending trace).map Prod.fst)
          = some ((linear pending trace).map Prod.snd, a')
        ∧ a'.places = final.places ∧ (final.holder = none → a'.memory = final.memory)
        ∧ ∀ t, gets t trace = owedTo t owed ++ gives t (linear pending trace) := by
  induction ticks with
  | nil =>
    intro f final trace pending owed a hrun h
    cases hrun
    refine ⟨a, rfl, ?_⟩
    cases h with
    | outside => exact ⟨rfl, fun _ => rfl, fun _ => rfl⟩
    | entered t action code left memory hholder | unfinished t left memory hholder =>
      refine ⟨rfl, fun hnone => ?_, fun _ => rfl⟩
      rw [hnone] at hholder
      cases hholder
    | done t left r p m hholder hanswer => cases hanswer
  | cons tick ticks ih =>
    intro f final trace pending owed a hrun h
    obtain ⟨out, f', rest, hstep, hrest, rfl⟩ := Fine.run_cons hrun
    obtain ⟨pending', owed', a', hfollows, hnext⟩ := h.step hreads hstep hrest
    obtain ⟨final', hfinal, hplaces, hmemory, hsame⟩ := ih hrest hfollows
    cases hnext with
    | stays hlinear howed =>
      rw [hlinear]
      refine ⟨final', hfinal, hplaces, hmemory, fun t => ?_⟩
      rw [gets_cons, hsame, ← List.append_assoc, howed]
    | call call r _ hlinear hcall howed =>
      rw [hlinear]
      refine ⟨final', ?_, hplaces, hmemory, fun t => ?_⟩
      · simp only [List.map_cons, Atomic.run, hcall, hfinal]
      · rw [gets_cons, hsame, ← List.append_assoc, howed, gives_cons t _ (linear pending' rest),
          List.append_assoc]

/-- **Code under one mutex is atomic.** Every run of small steps from a state in
which the mutex is free gives every thread the results, in their order, that the
whole calls give, each taken at its first reading, and leaves the threads where
these do, and the memory as well whenever the mutex is free. -/
theorem Fine.linearizable (hreads : k.Reads) {f : Fine T P M E R} (hholder : f.holder = none)
    (hrun : f.run k ticks = some (trace, final)) :
    ∃ a', Atomic.run k ⟨f.memory, f.places⟩ ((linear none trace).map Prod.fst)
        = some ((linear none trace).map Prod.snd, a')
      ∧ a'.places = final.places ∧ (final.holder = none → a'.memory = final.memory)
      ∧ ∀ t, gets t trace = gives t (linear none trace) :=
  Follows.run hreads ticks hrun (.outside hholder)

/-! ## Sections that end -/

namespace Critical

variable {S : Type} {n m : ℕ}

/-- Whatever it sees, the code makes at most so many accesses and readings. -/
def Within : Critical M E R → ℕ → Prop
  | ret _, _ => True
  | load next, n => 0 < n ∧ ∀ m, (next m).Within (n - 1)
  | store _ next, n => 0 < n ∧ next.Within (n - 1)
  | read next, n => 0 < n ∧ ∀ e, (next e).Within (n - 1)

theorem within_pure (r : R) : (pure r : Critical M E R).Within 0 := trivial

theorem within_clock : (clock : Critical M E E).Within 1 := ⟨Nat.one_pos, fun _ => trivial⟩

theorem within_fetch {V : Type} (field : M → V) : (fetch field : Critical M E V).Within 1 :=
  ⟨Nat.one_pos, fun _ => trivial⟩

theorem within_put (write : M → M) : (put write : Critical M E Unit).Within 1 :=
  ⟨Nat.one_pos, trivial⟩

theorem Within.mono {x : Critical M E R} : ∀ {n m : ℕ}, x.Within n → n ≤ m → x.Within m := by
  induction x with
  | ret r =>
    intro n m _ _
    exact trivial
  | load next ih | read next ih =>
    intro n m h hle
    exact ⟨Nat.lt_of_lt_of_le h.1 hle, fun e => ih e (h.2 e) (Nat.sub_le_sub_right hle 1)⟩
  | store write next ih =>
    intro n m h hle
    exact ⟨Nat.lt_of_lt_of_le h.1 hle, ih h.2 (Nat.sub_le_sub_right hle 1)⟩

/-- One part after the other. -/
theorem Within.bind {x : Critical M E R} {f : R → Critical M E S} :
    ∀ {n : ℕ}, x.Within n → (∀ r, (f r).Within m) → (x >>= f).Within (n + m) := by
  change ∀ {n : ℕ}, x.Within n → (∀ r, (f r).Within m) → (x.andThen f).Within (n + m)
  induction x with
  | ret r =>
    intro n _ hf
    exact (hf r).mono (Nat.le_add_left m n)
  | load next ih | read next ih =>
    intro n h hf
    refine ⟨Nat.lt_of_lt_of_le h.1 (Nat.le_add_right n m), fun e => ?_⟩
    rw [Nat.sub_add_comm h.1]
    exact ih e (h.2 e) hf
  | store write next ih =>
    intro n h hf
    refine ⟨Nat.lt_of_lt_of_le h.1 (Nat.le_add_right n m), ?_⟩
    rw [Nat.sub_add_comm h.1]
    exact ih h.2 hf

end Critical

/-- No section makes more than so many accesses and readings. -/
def Locked.Bounded (k : Locked P A M E R) (n : ℕ) : Prop :=
  ∀ p a code, k.guarded p a = some code → code.Within n

/-- What is left of the section that is being run. -/
def Fine.Left (f : Fine T P M E R) (n : ℕ) : Prop :=
  ∀ t left, f.holder = some (t, left) → left.Within n

/-- Nobody is left with more than a whole section, by induction on the run. -/
theorem Fine.run_left {n : ℕ} (hbounded : k.Bounded n) (ticks : List (Tick T A E)) :
    ∀ {f : Fine T P M E R} {trace : List (Tick T A E × Option R)},
      f.Left n → f.run k ticks = some (trace, final) → final.Left n := by
  induction ticks with
  | nil =>
    intro f trace hleft hrun
    cases hrun
    exact hleft
  | cons tick ticks ih =>
    intro f trace hleft hrun
    obtain ⟨out, f', rest, hstep, hrest, rfl⟩ := Fine.run_cons hrun
    refine ih ?_ hrest
    intro t left hholder
    cases Fine.step_cases hstep with
    | free => exact hleft t left hholder
    | lock a code _ _ hcode =>
      cases hholder
      exact hbounded _ _ _ hcode
    | load next _ hhere | read next _ hhere =>
      cases hholder
      exact ((hleft _ _ hhere).2 _).mono (Nat.sub_le n 1)
    | store write next _ hhere =>
      cases hholder
      exact (hleft _ _ hhere).2.mono (Nat.sub_le n 1)
    | unlock => cases hholder

/-- **A section ends**: as soon as the thread has made the steps that are left of it,
whatever the others do in between. By induction on the run. -/
theorem Fine.released (ticks : List (Tick T A E)) :
    ∀ {f : Fine T P M E R} {trace : List (Tick T A E × Option R)} {t : T}
      {left : Critical M E (R × P)} {n : ℕ}, f.holder = some (t, left) → left.Within n →
      f.run k ticks = some (trace, final) → n < ticks.countP (fun tick => tick.thread = t) →
      gets t trace ≠ [] := by
  induction ticks with
  | nil =>
    intro f trace t left n _ _ _ hcount
    exact absurd hcount (Nat.not_lt_zero n)
  | cons tick ticks ih =>
    intro f trace t left n hholder hwithin hrun hcount
    obtain ⟨out, f', rest, hstep, hrest, rfl⟩ := Fine.run_cons hrun
    rw [gets_cons]
    have hlater : gets t rest ≠ [] → gets t [(tick, out)] ++ gets t rest ≠ [] :=
      fun hne => List.append_ne_nil_of_right_ne_nil _ hne
    rw [List.countP_cons] at hcount
    cases Fine.step_cases hstep with
    | free a r p _ houtside =>
      -- another thread
      have hother : ¬ tick.thread = t := fun heq => houtside (by rw [hholder, heq]; rfl)
      rw [if_neg (by simpa using hother), Nat.add_zero] at hcount
      refine hlater (ih ?_ hwithin hrest hcount)
      exact hholder
    | lock a code _ hnone =>
      rw [hnone] at hholder
      cases hholder
    | load next _ hhere | read next _ hhere =>
      cases hhere.symm.trans hholder
      have hpos := hwithin.1
      rw [if_pos (by simp)] at hcount
      exact hlater (ih rfl (hwithin.2 _) hrest (by omega))
    | store write next _ hhere =>
      cases hhere.symm.trans hholder
      have hpos := hwithin.1
      rw [if_pos (by simp)] at hcount
      exact hlater (ih rfl hwithin.2 hrest (by omega))
    | unlock r p _ hhere =>
      cases hhere.symm.trans hholder
      rw [gets_some, if_pos rfl]
      exact List.cons_ne_nil _ _

/-- One step in front of a run. -/
theorem Fine.run_of_step (hstep : f.step k tick = some (out, f'))
    (hrun : f'.run k ticks = some (trace, final)) :
    f.run k (tick :: ticks) = some ((tick, out) :: trace, final) := by
  simp only [Fine.run, hstep, hrun]

/-- The thread alone can take the machine from here, at this time, to where the mutex is
free and it has a result, in at most so many steps. -/
def Fine.Finishes (k : Locked P A M E R) (f : Fine T P M E R) (t : T) (time : E) (n : ℕ) : Prop :=
  ∃ ticks trace final, f.run k ticks = some (trace, final) ∧ ticks.length ≤ n
    ∧ (∀ tick ∈ ticks, tick.thread = t ∧ tick.time = time) ∧ final.holder = none
    ∧ gets t trace ≠ [] ∧ ∀ u, u ≠ t → final.places u = f.places u

theorem Fine.Finishes.cons {t : T} {time : E} {n : ℕ} {move : Move A}
    (hstep : f.step k ⟨t, move, time⟩ = some (out, f')) (hsame : f'.places = f.places)
    (h : f'.Finishes k t time n) : f.Finishes k t time (n + 1) := by
  obtain ⟨ticks, trace, final, hrun, hlength, hticks, hfree, hgets, hplaces⟩ := h
  refine ⟨_, _, final, Fine.run_of_step hstep hrun, Nat.succ_le_succ hlength,
    List.forall_mem_cons.mpr ⟨⟨rfl, rfl⟩, hticks⟩, hfree, ?_, hsame ▸ hplaces⟩
  rw [gets_cons]
  exact List.append_ne_nil_of_right_ne_nil _ hgets

/-- **A section can end**: nothing that its thread does is in its way. By induction on
what is left. -/
theorem Fine.finishes_section (k : Locked P A M E R) (time : E) {t : T}
    (left : Critical M E (R × P)) :
    ∀ {f : Fine T P M E R} {n : ℕ}, f.holder = some (t, left) → left.Within n →
      f.Finishes k t time (n + 1) := by
  induction left with
  | ret result =>
    obtain ⟨r, p⟩ := result
    intro f n hholder _
    have hstep : f.step k ⟨t, .unlock, time⟩
        = some (some r, { f with holder := none, places := Function.update f.places t p }) := by
      simp only [Fine.step, hholder, if_true]
    refine ⟨[⟨t, .unlock, time⟩], _, _, Fine.run_of_step hstep rfl, Nat.le_add_left 1 n,
      List.forall_mem_singleton.mpr ⟨rfl, rfl⟩, rfl, ?_,
      fun u hu => Function.update_of_ne hu p f.places⟩
    rw [gets_some, if_pos rfl]
    exact List.cons_ne_nil _ _
  | load next ih =>
    intro f n hholder hwithin
    have hstep : f.step k ⟨t, .access, time⟩
        = some (none, { f with holder := some (t, next f.memory) }) := by
      simp only [Fine.step, hholder, if_true]
    have hrest := ih f.memory (f := { f with holder := some (t, next f.memory) }) rfl
      (hwithin.2 f.memory)
    rw [Nat.sub_add_cancel hwithin.1] at hrest
    exact hrest.cons hstep rfl
  | store write next ih =>
    intro f n hholder hwithin
    have hstep : f.step k ⟨t, .access, time⟩
        = some (none, { f with memory := write f.memory, holder := some (t, next) }) := by
      simp only [Fine.step, hholder, if_true]
    have hrest := ih (f := { f with memory := write f.memory, holder := some (t, next) }) rfl
      hwithin.2
    rw [Nat.sub_add_cancel hwithin.1] at hrest
    exact hrest.cons hstep rfl
  | read next ih =>
    intro f n hholder hwithin
    have hstep : f.step k ⟨t, .read, time⟩
        = some (none, { f with holder := some (t, next time) }) := by
      simp only [Fine.step, hholder, if_true]
    have hrest := ih time (f := { f with holder := some (t, next time) }) rfl (hwithin.2 time)
    rw [Nat.sub_add_cancel hwithin.1] at hrest
    exact hrest.cons hstep rfl

theorem Fine.run_append (ticks : List (Tick T A E)) :
    ∀ {f f' final : Fine T P M E R} {more : List (Tick T A E)}
      {trace rest : List (Tick T A E × Option R)}, f.run k ticks = some (trace, f') →
      f'.run k more = some (rest, final) →
      f.run k (ticks ++ more) = some (trace ++ rest, final) := by
  induction ticks with
  | nil =>
    intro f f' final more trace rest hrun hmore
    cases hrun
    exact hmore
  | cons tick ticks ih =>
    intro f f' final more trace rest hrun hmore
    obtain ⟨out, f₁, trace', hstep, hrun', rfl⟩ := Fine.run_cons hrun
    exact Fine.run_of_step hstep (ih hrun' hmore)

/-- **No thread is stuck.** From every state in which no more than `n` steps are left of
a section, a thread gets a result within `2 * n + 3` steps, if it can do something where
it stands: its own, and those that are left to the thread that holds the mutex. -/
theorem Fine.no_thread_stuck {n : ℕ} (hbounded : k.Bounded n) (hleft : f.Left n) (t : T)
    (time : E) (hmove : (∃ a, (k.free (f.places t) a time).isSome)
      ∨ ∃ a, (k.guarded (f.places t) a).isSome) :
    ∃ ticks trace final, f.run k ticks = some (trace, final) ∧ ticks.length ≤ 2 * n + 3
      ∧ (∀ tick ∈ ticks, tick.time = time
        ∧ (tick.thread = t ∨ f.holder.map Prod.fst = some tick.thread))
      ∧ gets t trace ≠ [] := by
  -- without the mutex, or with a mutex that is free
  have hnext : ∀ f : Fine T P M E R, f.holder = none →
      (∃ a, (k.free (f.places t) a time).isSome) ∨ (∃ a, (k.guarded (f.places t) a).isSome) →
      ∃ ticks trace final, f.run k ticks = some (trace, final) ∧ ticks.length ≤ n + 2
        ∧ (∀ tick ∈ ticks, tick.thread = t ∧ tick.time = time) ∧ gets t trace ≠ [] := by
    intro f hnone hmove
    rcases hmove with ⟨a, hfree⟩ | ⟨a, hguarded⟩
    · obtain ⟨⟨r, p⟩, hfree⟩ := Option.isSome_iff_exists.mp hfree
      have hstep : f.step k ⟨t, .free a, time⟩
          = some (some r, { f with places := Function.update f.places t p }) := by
        simp [Fine.step, hnone, hfree]
      refine ⟨[⟨t, .free a, time⟩], _, _, Fine.run_of_step hstep rfl, Nat.le_add_left 1 (n + 1),
        List.forall_mem_singleton.mpr ⟨rfl, rfl⟩, ?_⟩
      rw [gets_some, if_pos rfl]
      exact List.cons_ne_nil _ _
    · obtain ⟨code, hcode⟩ := Option.isSome_iff_exists.mp hguarded
      have hstep : f.step k ⟨t, .lock a, time⟩ = some (none, { f with holder := some (t, code) }) := by
        simp only [Fine.step, hnone, hcode, Option.map_some]
      have hsection := Fine.finishes_section k time (f := { f with holder := some (t, code) }) code
        rfl (hbounded _ _ _ hcode)
      obtain ⟨ticks, trace, final, hrun, hlength, hticks, -, hgets, -⟩ := hsection.cons hstep rfl
      exact ⟨ticks, trace, final, hrun, hlength, hticks, hgets⟩
  have hown : ∀ {ticks : List (Tick T A E)} {holder : Option T},
      (∀ tick ∈ ticks, tick.thread = t ∧ tick.time = time) →
      ∀ tick ∈ ticks, tick.time = time ∧ (tick.thread = t ∨ holder = some tick.thread) :=
    fun hticks tick htick => ⟨(hticks tick htick).2, Or.inl (hticks tick htick).1⟩
  cases hholder : f.holder with
  | none =>
    obtain ⟨ticks, trace, final, hrun, hlength, hticks, hgets⟩ := hnext f hholder hmove
    exact ⟨ticks, trace, final, hrun, by omega, hown hticks, hgets⟩
  | some holding =>
    obtain ⟨u, left⟩ := holding
    obtain ⟨ticks, trace, f', hrun, hlength, hticks, hfree, hgets, hplaces⟩ :=
      Fine.finishes_section k time left hholder (hleft u left hholder)
    by_cases hu : u = t
    · subst hu
      exact ⟨ticks, trace, f', hrun, by omega, hown hticks, hgets⟩
    · rw [← hplaces t (Ne.symm hu)] at hmove
      obtain ⟨more, rest, final, hmore, hlength', hticks', hgets'⟩ := hnext f' hfree hmove
      refine ⟨ticks ++ more, trace ++ rest, final, Fine.run_append ticks hrun hmore, ?_, ?_, ?_⟩
      · rw [List.length_append]
        omega
      · rw [List.forall_mem_append]
        refine ⟨fun tick htick => ⟨(hticks tick htick).2, Or.inr ?_⟩, hown hticks'⟩
        rw [Option.map_some, (hticks tick htick).1]
      · unfold gets
        rw [List.flatMap_append]
        exact List.append_ne_nil_of_right_ne_nil _ hgets'

end Mutex
