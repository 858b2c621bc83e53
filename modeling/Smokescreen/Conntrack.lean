import Smokescreen.Go.Time
import Mathlib.Data.List.Perm.Basic

/-! `conntrack.Tracker.MaybeIdleIn`. The tracker's `sync.Map` is the list of its keys.
One call of `Range` visits every key once, in an order Go leaves open, and the callback
reads the clock at each visit; a run of `Range` is that list of visits. -/

namespace Smokescreen.Conntrack
open Go

/-- An `*InstrumentedConn` as `MaybeIdleIn` reads it: the Unix nanoseconds stored in
`LastActivity`. -/
structure InstrumentedConn where
  lastActivity : Int
  lastActivity_range : InInt64 lastActivity
  deriving DecidableEq

structure Tracker where
  conns : List InstrumentedConn
  idleThreshold : Int
  idleThreshold_range : InInt64 idleThreshold

/-- One pass of `tr.Range`: each tracked connection once, with the `time.Now()` read
when it is visited. -/
structure RangeRun (tr : Tracker) where
  visits : List (InstrumentedConn × Time)
  perm : (visits.map Prod.fst).Perm tr.conns

/-- The callback's `idleIn` for one connection. -/
def idleIn (tr : Tracker) (c : InstrumentedConn) (now : Time) : Int :=
  let lastActivity := unix 0 c.lastActivity
  let idleAt := lastActivity.add tr.idleThreshold
  idleAt.sub now

def maybeIdleIn (tr : Tracker) (run : RangeRun tr) : Int :=
  run.visits.foldl (fun longest v =>
    let idleIn := idleIn tr v.1 v.2
    if idleIn > longest then idleIn else longest) 0

/-- The time left before one connection goes idle, in exact arithmetic, then clamped to
the `Duration` range. -/
def remaining (t : Int) (c : InstrumentedConn) (now : Time) : Int :=
  saturate (c.lastActivity + t - now.unixNanos)

/-- `max(0, max over the visits of remaining)`. -/
def longestRemaining (t : Int) (visits : List (InstrumentedConn × Time)) : Int :=
  visits.foldr (fun v acc => max (remaining t v.1 v.2) acc) 0

theorem idleIn_eq_remaining (tr : Tracker) (c : InstrumentedConn) (now : Time) :
    idleIn tr c now = remaining tr.idleThreshold c now := by
  have hl := c.lastActivity_range
  have ht := tr.idleThreshold_range
  have hu := unix_zero_unixNanos hl
  have hs := unix_zero_sec hl
  simp only [Time.unixNanos, unixToInternal_eq] at hu
  have hsum : InInt64 (((unix 0 c.lastActivity).nanos + tr.idleThreshold) / 1000000000) := by
    unfold InInt64 at *; omega
  have hadd : ((unix 0 c.lastActivity).add tr.idleThreshold).nanos =
      c.lastActivity + tr.idleThreshold + 62135596800 * 1000000000 := by
    rcases (unix 0 c.lastActivity).add_cases ht with ⟨-, h⟩ | ⟨h, -⟩
    · omega
    · exact absurd hsum h
  have hsec := ((unix 0 c.lastActivity).add tr.idleThreshold).nanos_div
  unfold idleIn remaining
  rw [Time.sub_eq_saturate _ _ (by unfold InInt64 at *; omega), hadd]
  simp only [Time.unixNanos, unixToInternal_eq]
  congr 1; ring

theorem step_eq_max (tr : Tracker) (longest : Int) (v : InstrumentedConn × Time) :
    (let idleIn := idleIn tr v.1 v.2
     if idleIn > longest then idleIn else longest) =
      max (remaining tr.idleThreshold v.1 v.2) longest := by
  simp only [idleIn_eq_remaining]; split_ifs <;> omega

theorem maybeIdleIn_eq (tr : Tracker) (run : RangeRun tr) :
    maybeIdleIn tr run = longestRemaining tr.idleThreshold run.visits := by
  unfold maybeIdleIn longestRemaining
  simp only [step_eq_max]
  rw [List.foldl_eq_foldr' (by intros; omega)]
  rfl

theorem longestRemaining_perm (t : Int) {vs ws : List (InstrumentedConn × Time)}
    (h : vs.Perm ws) : longestRemaining t vs = longestRemaining t ws := by
  have : LeftCommutative fun (v : InstrumentedConn × Time) acc =>
      max (remaining t v.1 v.2) acc := ⟨fun _ _ _ => max_left_comm _ _ _⟩
  exact h.foldr_eq 0

theorem longestRemaining_nonneg (t : Int) (vs : List (InstrumentedConn × Time)) :
    0 ≤ longestRemaining t vs := by
  induction vs with
  | nil => exact le_rfl
  | cons v vs ih => exact le_trans ih (le_max_right _ _)

theorem remaining_le_longestRemaining (t : Int) {vs : List (InstrumentedConn × Time)}
    {v : InstrumentedConn × Time} (hv : v ∈ vs) :
    remaining t v.1 v.2 ≤ longestRemaining t vs := by
  induction vs with
  | nil => cases hv
  | cons w vs ih =>
    rcases List.mem_cons.1 hv with rfl | hv
    · exact le_max_left _ _
    · exact le_trans (ih hv) (le_max_right _ _)

theorem longestRemaining_attained (t : Int) (vs : List (InstrumentedConn × Time)) :
    longestRemaining t vs = 0 ∨ ∃ v ∈ vs, longestRemaining t vs = remaining t v.1 v.2 := by
  induction vs with
  | nil => exact .inl rfl
  | cons w vs ih =>
    rcases max_choice (remaining t w.1 w.2) (longestRemaining t vs) with h | h
    · exact .inr ⟨w, List.mem_cons_self _ _, h⟩
    · rcases ih with h' | ⟨v, hv, h'⟩
      · exact .inl (h.trans h')
      · exact .inr ⟨v, List.mem_cons_of_mem _ hv, h.trans h'⟩

theorem saturate_nonpos_iff (x : Int) : saturate x ≤ 0 ↔ x ≤ 0 := by
  simp only [saturate, minDuration, maxDuration]; omega

theorem min_le_saturate (x : Int) : min x maxDuration ≤ saturate x := by
  simp only [saturate, minDuration, maxDuration]; omega

theorem longestRemaining_eq_zero_iff (t : Int) (vs : List (InstrumentedConn × Time)) :
    longestRemaining t vs = 0 ↔ ∀ v ∈ vs, v.1.lastActivity + t ≤ v.2.unixNanos := by
  constructor
  · intro h v hv
    have := remaining_le_longestRemaining t hv
    rw [h, remaining, saturate_nonpos_iff] at this
    omega
  · intro h
    have hall : ∀ v ∈ vs, remaining t v.1 v.2 ≤ 0 := fun v hv =>
      (saturate_nonpos_iff _).2 (by have := h v hv; omega)
    have := longestRemaining_nonneg t vs
    rcases longestRemaining_attained t vs with h0 | ⟨v, hv, hr⟩
    · exact h0
    · have := hall v hv; omega

/-- `MaybeIdleIn` is `max(0, max_i sat(l_i + t - now_i))` whatever order `Range` takes:
never negative, zero exactly when every connection is past its idle time, and never
wrapped below the time left of a busy connection. -/
theorem maybeIdleIn_spec (tr : Tracker) (run : RangeRun tr) :
    maybeIdleIn tr run = longestRemaining tr.idleThreshold run.visits ∧
    (∀ run' : RangeRun tr, run'.visits.Perm run.visits →
      maybeIdleIn tr run' = maybeIdleIn tr run) ∧
    0 ≤ maybeIdleIn tr run ∧
    (maybeIdleIn tr run = 0 ↔
      ∀ v ∈ run.visits, v.1.lastActivity + tr.idleThreshold ≤ v.2.unixNanos) ∧
    ∀ v ∈ run.visits,
      min (v.1.lastActivity + tr.idleThreshold - v.2.unixNanos) maxDuration ≤
        maybeIdleIn tr run := by
  rw [maybeIdleIn_eq]
  refine ⟨rfl, fun run' h => ?_, longestRemaining_nonneg _ _,
    longestRemaining_eq_zero_iff _ _, fun v hv => ?_⟩
  · rw [maybeIdleIn_eq, longestRemaining_perm _ h]
  · exact le_trans (min_le_saturate _) (remaining_le_longestRemaining _ hv)

/-- `MaybeIdleIn` never asks to wait longer than `IdleThreshold` plus the most any recorded
activity lies after the clock read at its visit (clamped to a `Duration`): with a wall
clock that never goes back, at most `IdleThreshold`. -/
theorem maybeIdleIn_le_idleThreshold (tr : Tracker) (run : RangeRun tr) (d : Int)
    (h : ∀ v ∈ run.visits, v.1.lastActivity ≤ v.2.unixNanos + d) :
    maybeIdleIn tr run ≤ max 0 (saturate (tr.idleThreshold + d)) := by
  rw [maybeIdleIn_eq]
  rcases longestRemaining_attained tr.idleThreshold run.visits with h0 | ⟨v, hv, hr⟩
  · rw [h0]; exact le_max_left _ _
  · have := h v hv
    rw [hr, remaining]
    simp only [saturate, minDuration, maxDuration]
    omega

/-- One connection last active at the epoch, visited 5 ns later, with a 10 ns threshold. -/
def oneConnTracker : Tracker := ⟨[⟨0, by decide⟩], 10, by decide⟩

def oneConnRun : RangeRun oneConnTracker := ⟨[(⟨0, by decide⟩, unix 0 5)], List.Perm.refl _⟩

theorem maybeIdleIn_le_idleThreshold_one :
    (∀ v ∈ oneConnRun.visits, v.1.lastActivity ≤ v.2.unixNanos + 0) ∧
      maybeIdleIn oneConnTracker oneConnRun ≤
        max 0 (saturate (oneConnTracker.idleThreshold + 0)) :=
  ⟨by decide, maybeIdleIn_le_idleThreshold _ _ 0 (by decide)⟩

end Smokescreen.Conntrack
