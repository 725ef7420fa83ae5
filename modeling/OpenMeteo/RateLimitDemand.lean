/-
What the limiter hands out while threads keep asking.

`RateLimitThreads.lean` bounds the tokens of a window from above. This is the
bound from below: as long as attempts come at most one refill interval apart, no
token is lost, whichever threads make them and in whichever order, and the
limiter sustains exactly its rate.

A count of the tokens is kept: no interleaving takes them from those who ask next.

The last result compares configurations. More tokens, a fuller start and a
shorter interval never cost a token, and neither does an attempt more.
-/
import OpenMeteo.Lib.TokenBucketDemand
import OpenMeteo.RateLimitThreads

set_option autoImplicit false

namespace OpenMeteo.RateLimiter

/-! ## Attempts -/

/-- A locked section that takes a token where there is one. -/
def Label.isAttempt (l : Label) : Bool :=
  match l.action with
  | .try_acquire | .attempt => true
  | _ => false

/-- The readings of the attempts. -/
def attempts (labels : List Label) : List ℤ := (labels.filter Label.isAttempt).map Label.now

theorem Label.ideal_attempt {l : Label} (h : l.isAttempt = true) :
    l.ideal = some (.take, l.now) := by
  unfold Label.isAttempt at h
  unfold Label.ideal
  cases haction : l.action with
  | try_acquire => rfl
  | attempt => rfl
  | acquire | acquire_for _ | available_tokens | reset | settle =>
    rw [haction] at h
    cases h

theorem Label.ideal_other {l : Label} (h : l.isAttempt = false) :
    l.ideal.elim true (fun op => !op.1.isTake) = true := by
  unfold Label.isAttempt at h
  unfold Label.ideal
  cases haction : l.action with
  | try_acquire | attempt =>
    rw [haction] at h
    cases h
  | acquire | acquire_for _ | available_tokens | reset | settle => rfl

/-- The attempts are the takes of the bucket. -/
theorem takes_ideal (labels : List Label) :
    TokenBucket.takes (labels.filterMap Label.ideal) = attempts labels := by
  induction labels with
  | nil => rfl
  | cons l rest ih =>
    by_cases hattempt : l.isAttempt = true
    · rw [List.filterMap_cons_some (Label.ideal_attempt hattempt), TokenBucket.takes_cons_take, ih,
        attempts, attempts, List.filter_cons_of_pos hattempt, List.map_cons]
    · have hother := Label.ideal_other (by simpa using hattempt)
      rw [attempts, List.filter_cons_of_neg hattempt, ← attempts, ← ih]
      cases hideal : l.ideal with
      | none => rw [List.filterMap_cons_none hideal]
      | some op =>
        rw [hideal] at hother
        rw [List.filterMap_cons_some hideal, TokenBucket.takes, List.filter_cons_of_neg (by
          simpa using hother)]
        rfl

/-! ## Windows -/

variable {config : Config} {start : ℤ} {labels : List Label} {outs : List Outcome} {final : System}

/-- Every window of a run begins at a level of the bucket. -/
theorem window_refines (hrun : (System.new config start).run labels = some (outs, final))
    (hclock : (start :: labels.map Label.now).Pairwise (· ≤ ·)) {i j : ℕ} (hij : i ≤ j)
    (hj : j < labels.length) :
    ∃ (mid mid' : System) (l : TokenBucket.Level ℤ),
      mid.run (window i j labels) = some (window i j outs, mid')
      ∧ Refines mid.limiter l ∧ 0 ≤ l.credit
      ∧ (l.since :: (window i j labels).map Label.now).Pairwise (· ≤ ·)
      ∧ mid.limiter.bucket = (sanitized_sane config).bucket := by
  obtain ⟨hstart, hsorted⟩ := List.pairwise_cons.mp hclock
  obtain ⟨mid, mid', hpre, hwin⟩ := System.run_window hrun hij hj
  obtain ⟨hconf, -, href⟩ := System.run_refines (labels.take i) (new_refines config start) hpre
    (List.Pairwise.sublist (List.Sublist.cons_cons _ ((List.take_sublist _ _).map _)) hclock)
  have hwsorted : ((window i j labels).map Label.now).Pairwise (· ≤ ·) :=
    hsorted.sublist (((List.take_sublist _ _).trans (List.drop_sublist _ _)).map _)
  refine ⟨mid, mid', _, hwin, href, href.credit_nonneg, List.pairwise_cons.mpr ⟨?_, hwsorted⟩,
    bucket_congr hconf⟩
  intro t ht
  obtain ⟨lab, hlab, rfl⟩ := List.mem_map.mp ht
  obtain ⟨k, hk, hik, -, rfl⟩ := mem_window hlab
  -- the bucket's time is that of a step before the window
  refine TokenBucket.run_since_le _ _ _ _ (hstart _ (List.mem_map_of_mem (List.getElem_mem hk))) ?_
  intro s hs
  obtain ⟨lab', hlab', hnow⟩ := ideal_time hs
  obtain ⟨m, hm, rfl⟩ := List.getElem_of_mem hlab'
  rw [List.length_take] at hm
  rw [← hnow, List.getElem_take]
  exact now_le hsorted (by omega) hk

theorem window_cons {α : Type} {i j : ℕ} {xs : List α} (hij : i ≤ j) (hi : i < xs.length) :
    window i j xs = xs[i] :: window (i + 1) j xs := by
  rw [window, window, List.drop_eq_getElem_cons hi, show j + 1 - i = j + 1 - (i + 1) + 1 by omega,
    List.take_succ_cons]

theorem window_concat {α : Type} {i j : ℕ} {xs : List α} (hij : i ≤ j) (hj : j < xs.length) :
    window i j xs = (xs.drop i).take (j - i) ++ [xs[j]] := by
  have hlt : j - i < (xs.drop i).length := by
    rw [List.length_drop]
    omega
  have hlast : xs[j] = (xs.drop i)[j - i] := by
    rw [List.getElem_drop]
    congr 1
    omega
  rw [hlast, List.take_append_getElem, window]
  congr 1
  omega

/-- The last attempt of a window that ends with one. -/
theorem attempts_getLast {i j : ℕ} (hij : i ≤ j) (hj : j < labels.length)
    (hlast : labels[j].isAttempt = true) (hne : attempts (window i j labels) ≠ []) :
    (attempts (window i j labels)).getLast hne = labels[j].now := by
  have hend : attempts (window i j labels)
      = attempts ((labels.drop i).take (j - i)) ++ [labels[j].now] := by
    rw [window_concat hij hj, attempts, List.filter_append, List.map_append,
      List.filter_cons_of_pos hlast]
    rfl
  simp only [hend, List.getLast_append_singleton]

/-! ## The sustained rate -/

theorem System.run_length {sys final : System} {labels : List Label} {outs : List Outcome}
    (hrun : sys.run labels = some (outs, final)) : outs.length = labels.length := by
  induction labels generalizing sys outs with
  | nil =>
    cases hrun
    rfl
  | cons l rest ih =>
    obtain ⟨out, sys', outs', -, hrest, rfl⟩ := System.run_cons hrun
    rw [List.length_cons, List.length_cons, ih hrest]

/-- **No token is lost under demand.** In every interleaving, from an attempt that
got no token to any later attempt, with attempts at most one interval apart in
between, no reset, and a bucket of at least two tokens: the tokens granted are the
refill intervals that passed, up to less than one. -/
theorem throughput (config : Config) (start : ℤ) (labels : List Label) (outs : List Outcome)
    (final : System) (hrun : (System.new config start).run labels = some (outs, final))
    (hclock : (start :: labels.map Label.now).Pairwise (· ≤ ·))
    (hmax : 2 ≤ (sanitized config).max_tokens.toNat) (i j : ℕ) (hij : i < j)
    (hj : j < labels.length) (hfirst : labels[i].isAttempt = true)
    (hrefused : (outs[i]?).map Outcome.isGrant = some false) (hlast : labels[j].isAttempt = true)
    (hresets : resets (window i j labels) = 0)
    (hdemand : (attempts (window i j labels)).IsChain
      fun s t => t - s ≤ (sanitized config).interval_ns) :
    |(grants (window i j outs) : ℤ) * (sanitized config).interval_ns
        - (labels[j].now - labels[i].now)| < (sanitized config).interval_ns := by
  have hi : i < labels.length := by omega
  have hi' : i < outs.length := by rwa [System.run_length hrun]
  obtain ⟨mid, mid', l, hwin, href, hcredit, hsorted, hbucket⟩ :=
    window_refines hrun hclock (le_of_lt hij) hj
  obtain ⟨-, hgrants, -⟩ := System.run_refines _ href hwin hsorted
  have hcons := window_cons (le_of_lt hij) hi
  have hideal := Label.ideal_attempt hfirst
  rw [hcons] at hwin hsorted hresets hgrants
  rw [hbucket] at hgrants
  obtain ⟨out, mid₁, outs', hstep, -, houts⟩ := System.run_cons hwin
  obtain ⟨hnow, hsorted'⟩ := List.pairwise_cons.mp hsorted
  have hlate : l.since ≤ labels[i].now := hnow _ (List.mem_cons_self ..)
  -- the first attempt leaves less than one token
  have hfail : ((sanitized_sane config).bucket.step l labels[i].now .take).1.isGrant = false := by
    have hgrant := (System.step_refines href hlate hstep).2.1
    rw [hideal, hbucket] at hgrant
    rw [window_cons (le_of_lt hij) hi', List.cons.injEq] at houts
    rw [List.getElem?_eq_getElem hi', Option.map_some, houts.1, Option.some.injEq] at hrefused
    exact hgrant.symm.trans hrefused
  obtain ⟨hlevel, hlow⟩ := TokenBucket.step_refused hfail
  rw [List.filterMap_cons_some hideal, TokenBucket.run_cons, TokenBucket.grants_cons,
    hlevel] at hgrants
  simp only [TokenBucket.Answer.isGrant, Bool.false_eq_true, if_false, add_zero] at hgrants
  -- from there on the bucket is asked once an interval
  have hattempts : attempts (window i j labels)
      = labels[i].now :: attempts (window (i + 1) j labels) := by
    rw [hcons, attempts, List.filter_cons_of_pos hfirst, List.map_cons]
    rfl
  have hend := attempts_getLast (le_of_lt hij) hj hlast
    (by rw [hattempts]; exact List.cons_ne_nil _ _)
  simp only [hattempts] at hend
  have hrate := (sanitized_sane config).bucket.demand_account ?_
    ((window (i + 1) j labels).filterMap Label.ideal) ?_
    ⟨(sanitized_sane config).bucket.advance l labels[i].now, labels[i].now⟩ ?_ hlow ?_ ?_
  · simp only [takes_ideal, hend] at hrate
    rw [hgrants]
    exact hrate
  · have hI := (sanitized_sane config).interval_ns_pos
    exact Int.mul_le_mul_of_nonneg_right (by exact_mod_cast hmax) (le_of_lt hI)
  · rw [resets_ideal]
    simp only [resets, List.countP_cons] at hresets ⊢
    omega
  · exact TokenBucket.advance_nonneg _ l _ hcredit hlate
  · exact hsorted'.sublist ((ideal_times_sublist _).cons_cons _)
  · rw [takes_ideal, ← hattempts]
    exact hdemand

/-- A bucket of two tokens, asked every 100 ms by two threads. -/
theorem throughput_polled :
    |(grants (window 2 5 [.granted, .granted, .refused, .granted, .refused, .granted]) : ℤ)
          * 100000000 - (260000000 - 2)| < 100000000 :=
  throughput { max_tokens := 2, initial_tokens := 2 } 0
    [⟨0, .try_acquire, 1, 1⟩, ⟨1, .try_acquire, 1, 1⟩, ⟨0, .try_acquire, 2, 2⟩,
      ⟨1, .try_acquire, 100000001, 100000001⟩, ⟨0, .try_acquire, 190000000, 190000000⟩,
      ⟨1, .try_acquire, 260000000, 260000000⟩]
    [.granted, .granted, .refused, .granted, .refused, .granted] _ rfl (by decide) (by decide) 2 5
    (by decide) (by decide) (by decide) (by decide) (by decide) (by decide) (by decide)

/-! ## A count is kept -/

/-- A step that counted, and the level it counted. -/
theorem counted {sys sys' : System} {lab : Label} {count : UInt16} {l : TokenBucket.Level ℤ}
    (h : Refines sys.limiter l) (hnow : l.since ≤ lab.now)
    (hstep : sys.step lab = some (.available count, sys')) :
    lab.ideal = some (.peek, lab.now) ∧ sys'.limiter.bucket = sys.limiter.bucket
      ∧ (count.toNat : ℤ)
        = sys.limiter.bucket.advance l lab.now / sys.limiter.config_.interval_ns := by
  have hpeek := (h.peek lab.now hnow).1
  generalize hout : Outcome.available count = out at hstep
  cases System.step_cases hstep with
  | available_tokens _ haction =>
    cases hout
    refine ⟨?_, rfl, hpeek⟩
    rw [Label.ideal, haction]
  | try_acquire => split at hout <;> cases hout
  | _ => cases hout

/-- **A count is kept.** In every interleaving, after `available_tokens` has counted
`count` tokens and until somebody resets: of the attempts that follow, all are granted
or at least `count` of them, whichever threads make them; and no more than `count` and
what the intervals that begin meanwhile earn. -/
theorem count_kept (config : Config) (start : ℤ) (labels : List Label) (outs : List Outcome)
    (final : System) (hrun : (System.new config start).run labels = some (outs, final))
    (hclock : (start :: labels.map Label.now).Pairwise (· ≤ ·)) (i j : ℕ) (hij : i < j)
    (hj : j < labels.length) (count : UInt16) (hcount : outs[i]? = some (.available count))
    (hresets : resets (window (i + 1) j labels) = 0) :
    min (attempts (window (i + 1) j labels)).length count.toNat
        ≤ grants (window (i + 1) j outs)
      ∧ (grants (window (i + 1) j outs) : ℤ)
        ≤ count.toNat + (labels[j].now - labels[i].now + (sanitized config).interval_ns - 1)
          / (sanitized config).interval_ns := by
  have hI := (sanitized_sane config).interval_ns_pos
  have hi : i < labels.length := by omega
  have hi' : i < outs.length := by rwa [System.run_length hrun]
  obtain ⟨mid, mid', l, hwin, href, hcredit, hsorted, hbucket⟩ :=
    window_refines hrun hclock (le_of_lt hij) hj
  have hcons := window_cons (le_of_lt hij) hi
  rw [hcons] at hwin hsorted
  obtain ⟨out, mid₁, outs', hstep, hrest, houts⟩ := System.run_cons hwin
  rw [window_cons (le_of_lt hij) hi', List.cons.injEq] at houts
  obtain ⟨hnow, hsorted'⟩ := List.pairwise_cons.mp hsorted
  have hlate : l.since ≤ labels[i].now := hnow _ (List.mem_cons_self ..)
  rw [List.getElem?_eq_getElem hi', Option.some.injEq, houts.1] at hcount
  subst hcount
  obtain ⟨hideal, hbucket₁, hcounted⟩ := counted href hlate hstep
  have hinterval : mid.limiter.config_.interval_ns = (sanitized config).interval_ns :=
    congrArg TokenBucket.cost hbucket
  have href₁ := (System.step_refines href hlate hstep).2.2
  rw [hideal, hbucket] at href₁
  rw [hbucket, hinterval] at hcounted
  -- the level behind the count
  set b := (sanitized_sane config).bucket with hb
  set c := b.advance l labels[i].now with hc
  have hcost : b.cost = (sanitized config).interval_ns := rfl
  obtain ⟨-, hgrants, -⟩ := System.run_refines (l := ⟨c, labels[i].now⟩) _ href₁ hrest hsorted'
  rw [hbucket₁, hbucket] at hgrants
  have hsteps : (labels[i].now :: ((window (i + 1) j labels).filterMap Label.ideal).map
      Prod.snd).Pairwise (· ≤ ·) :=
    hsorted'.sublist ((ideal_times_sublist _).cons_cons _)
  have hnone : TokenBucket.resets ((window (i + 1) j labels).filterMap Label.ideal) = 0 := by
    rw [resets_ideal, hresets]
  have hlow : (count.toNat : ℤ) * b.cost ≤ c := by
    rw [hcounted, hcost]
    exact Int.ediv_mul_le _ (ne_of_gt hI)
  have hhigh : c < ((count.toNat : ℤ) + 1) * b.cost := by
    rw [hcounted, hcost]
    exact Int.lt_ediv_add_one_mul_self _ hI
  rw [houts.2, hgrants]
  constructor
  · have hcovers : b.Covers count.toNat ⟨c, labels[i].now⟩ :=
      ⟨hlow, hlow.trans (b.advance_le_capacity l _)⟩
    have hall := hcovers.run (le_of_lt hI) _ hnone hsteps
    rwa [takes_ideal] at hall
  · obtain ⟨hend, hacc⟩ := b.run_account _ ⟨c, labels[i].now⟩
      (b.advance_nonneg l _ hcredit hlate) hsteps
    have hsince := b.run_since_le ((window (i + 1) j labels).filterMap Label.ideal) labels[j].now
      ⟨c, labels[i].now⟩ (now_le (List.pairwise_cons.mp hclock).2 (le_of_lt hij) hj) ?_
    · rw [hnone, Nat.cast_zero, zero_mul, add_zero] at hacc
      rw [← sub_le_iff_le_add', Int.le_ediv_iff_mul_le hI, sub_mul]
      dsimp only at hacc
      rw [add_mul, one_mul] at hhigh
      rw [hcost] at hacc hhigh
      omega
    · intro s hs
      obtain ⟨lab, hlab, htime⟩ := ideal_time hs
      rw [← htime]
      exact (window_now (List.pairwise_cons.mp hclock).2 hij hj hlab).2

/-- Three tokens are counted, and two threads take four times. -/
theorem count_kept_polled :
    min 4 3 ≤ grants (window 1 4 [.available 3, .granted, .granted, .granted, .refused]) :=
  (count_kept { max_tokens := 3, initial_tokens := 3 } 0
    [⟨0, .available_tokens, 1, 1⟩, ⟨0, .try_acquire, 2, 2⟩, ⟨1, .try_acquire, 3, 3⟩,
      ⟨0, .try_acquire, 4, 4⟩, ⟨1, .try_acquire, 5, 5⟩]
    [.available 3, .granted, .granted, .granted, .refused] _ rfl (by decide) 0 4 (by decide)
    (by decide) 3 rfl (by decide)).1

/-! ## Comparing configurations -/

/-- How many tokens the calls got. -/
def acquired (outs : List Output) : ℕ := outs.countP fun
  | .acquired granted => granted
  | _ => false

theorem acquired_agrees {interval : ℤ} {outs : List Output} {as : List (TokenBucket.Answer ℤ)}
    (h : List.Forall₂ (Output.Agrees interval) outs as) :
    acquired outs = TokenBucket.grants as := by
  induction h with
  | nil => rfl
  | @cons out answer outs as hout _ ih =>
    rw [TokenBucket.grants_cons, ← ih, acquired, acquired, List.countP_cons]
    congr 1
    cases out with
    | acquired granted =>
      cases answer with
      | taken granted' =>
        rw [show granted = granted' from hout]
        rfl
      | level _ | done => exact absurd hout id
    | available count =>
      cases answer with
      | level _ => rfl
      | taken _ | done => exact absurd hout id
    | done =>
      cases answer with
      | done => rfl
      | taken _ | level _ => exact absurd hout id

/-- The tokens of a run of calls are those the ideal bucket grants. -/
theorem acquired_outputs (config : Config) (start : ℤ) (events : List Event)
    (hclock : (start :: events.map Event.now).Pairwise (· ≤ ·)) :
    acquired ((new config start).outputs events)
      = TokenBucket.grants ((sanitized_sane config).bucket.run
          ((sanitized_sane config).bucket.new start) (events.map Event.ideal)).1 :=
  acquired_agrees (Refines.outputs events (new config start) _ (new_refines config start) hclock)

theorem generous_bucket {config config' : Config} (hsane : config.Sane) (hsane' : config'.Sane)
    (hmax : config'.max_tokens ≤ config.max_tokens)
    (hinitial : config'.initial_tokens ≤ config.initial_tokens)
    (hinterval : config.refill_interval ≤ config'.refill_interval) :
    TokenBucket.Generous hsane.bucket hsane'.bucket := by
  have hI := hsane.interval_ns_pos
  have hI' := hsane'.interval_ns_pos
  have hab := mul_pos hI hI'
  have htokens : ∀ m m' : UInt16, m' ≤ m →
      (m'.toNat : ℤ) * config'.interval_ns * config.interval_ns
        ≤ m.toNat * config.interval_ns * config'.interval_ns := by
    intro m m' hle
    have hnat : (m'.toNat : ℤ) ≤ m.toNat := by exact_mod_cast UInt16.le_iff_toNat_le.mp hle
    have hmul := Int.mul_le_mul_of_nonneg_right hnat (le_of_lt hab)
    linarith
  refine ⟨hI, ?_, htokens _ _ hmax, htokens _ _ hinitial⟩
  exact Int.mul_le_mul_of_nonneg_right hinterval (by decide)

/-- **A more generous limiter never gives fewer tokens**, and neither does one that
is asked more often. Take any calls at readings that do not run backwards, and a
configuration with at least as many tokens, at least as many of them at the start,
and an interval no longer. The limiter with that configuration, at all the calls,
gives at least as many tokens as the other, at all the calls but any that are no
`reset`. -/
theorem generous_acquired (config config' : Config) (start : ℤ) (marked : List (Event × Bool))
    (hmax : (sanitized config').max_tokens ≤ (sanitized config).max_tokens)
    (hinitial : (sanitized config').initial_tokens ≤ (sanitized config).initial_tokens)
    (hinterval : (sanitized config).refill_interval ≤ (sanitized config').refill_interval)
    (hclock : (start :: marked.map fun m => m.1.now).Pairwise (· ≤ ·))
    (hresets : ∀ m ∈ marked, m.2 = false → m.1.op ≠ .reset) :
    acquired ((new config' start).outputs (TokenBucket.kept marked))
      ≤ acquired ((new config start).outputs (marked.map Prod.fst)) := by
  have hgen := generous_bucket (sanitized_sane config) (sanitized_sane config') hmax hinitial
    hinterval
  -- the steps of the two buckets
  set steps := marked.map fun m => (m.1.ideal, m.2) with hsteps
  have hkept : TokenBucket.kept steps = (TokenBucket.kept marked).map Event.ideal := by
    rw [hsteps, TokenBucket.kept, TokenBucket.kept, List.filter_map, List.map_map, List.map_map]
    rfl
  have hall : steps.map Prod.fst = (marked.map Prod.fst).map Event.ideal := by
    rw [hsteps, List.map_map, List.map_map]
    rfl
  have htimes : (marked.map Prod.fst).map Event.now = marked.map fun m => m.1.now := List.map_map
  have hfewer : ((TokenBucket.kept marked).map Event.now).Sublist
      (marked.map fun m => m.1.now) := by
    rw [← htimes]
    exact (List.filter_sublist.map _).map _
  have hahead := TokenBucket.Ahead.run hgen steps ?_ (TokenBucket.Ahead.new hgen start) ?_
  · rw [hkept, hall, zero_add] at hahead
    rw [acquired_outputs config' start _ (hclock.sublist (hfewer.cons_cons _)),
      acquired_outputs config start _ (by rw [htimes]; exact hclock)]
    exact hahead
  · intro s hs hskipped
    obtain ⟨m, hm, rfl⟩ := List.mem_map.mp hs
    have hop := hresets m hm hskipped
    change m.1.op.ideal.isReset = false
    cases hcase : m.1.op with
    | reset => exact absurd hcase hop
    | try_acquire | available_tokens => rfl
  · rw [hsteps, List.map_map]
    exact hclock

/-- The default limiter against one of a single token and twice the interval, which is
asked less often. -/
theorem generous_acquired_default :
    acquired ((new { max_tokens := 1, initial_tokens := 1, refill_interval := 200 } 0).outputs
        [⟨.try_acquire, 1, 1⟩, ⟨.try_acquire, 200000001, 200000001⟩])
      ≤ acquired ((new {} 0).outputs
        [⟨.try_acquire, 1, 1⟩, ⟨.try_acquire, 2, 2⟩, ⟨.try_acquire, 200000001, 200000001⟩]) :=
  generous_acquired {} { max_tokens := 1, initial_tokens := 1, refill_interval := 200 } 0
    [(⟨.try_acquire, 1, 1⟩, true), (⟨.try_acquire, 2, 2⟩, false),
      (⟨.try_acquire, 200000001, 200000001⟩, true)]
    (by decide) (by decide) (by decide) (by decide) (by decide)

end OpenMeteo.RateLimiter
