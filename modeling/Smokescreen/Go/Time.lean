import Mathlib.Tactic.Ring

/-! Go's `time.Time` and `time.Duration` as far as `Tracker.MaybeIdleIn` uses them:
`time.Unix`, `Time.Add`, `Time.Sub`, `Equal` and `Before`. A `Time` carries no monotonic
reading: `MaybeIdleIn` subtracts the clock from a time built by `time.Unix`, and `Sub`
compares monotonic readings only when both sides have one. Durations are int64
nanosecond counts, kept as `Int` with Go's wrapping written out. -/

namespace Smokescreen.Go

/-- The range of Go's `int64`, hence of `time.Duration`. -/
def InInt64 (x : Int) : Prop := -9223372036854775808 ≤ x ∧ x ≤ 9223372036854775807

instance : DecidablePred InInt64 := fun _ => inferInstanceAs (Decidable (_ ∧ _))

/-- Two's-complement wrap of an exact result onto `int64`. -/
def wrap (x : Int) : Int :=
  (x + 9223372036854775808) % 18446744073709551616 - 9223372036854775808

theorem wrap_inInt64 (x : Int) : InInt64 (wrap x) := by
  unfold InInt64 wrap; omega

theorem wrap_of_inInt64 {x : Int} (h : InInt64 x) : wrap x = x := by
  unfold InInt64 at h; unfold wrap; omega

def minDuration : Int := -9223372036854775808
def maxDuration : Int := 9223372036854775807

/-- An exact difference clamped onto the `Duration` range. -/
def saturate (x : Int) : Int := max minDuration (min x maxDuration)

theorem saturate_of_inInt64 {x : Int} (h : InInt64 x) : saturate x = x := by
  unfold InInt64 at h; simp only [saturate, minDuration, maxDuration]; omega

def unixToInternal : Int := (1969 * 365 + 1969 / 4 - 1969 / 100 + 1969 / 400) * 86400

theorem unixToInternal_eq : unixToInternal = 62135596800 := rfl

/-- `(*Time).addSec`: add to the seconds, saturating where the int64 sum overflows. -/
def addSec (ext d : Int) : Int :=
  let sum := wrap (ext + d)
  if (sum > ext ↔ d > 0) then sum
  else if d > 0 then 9223372036854775807 else -9223372036854775807

theorem addSec_inInt64 (ext d : Int) : InInt64 (addSec ext d) := by
  unfold addSec
  dsimp only
  split_ifs
  · exact wrap_inInt64 _
  all_goals (unfold InInt64; omega)

theorem addSec_cases {ext d : Int} (he : InInt64 ext) (hd : InInt64 d) :
    (InInt64 (ext + d) ∧ addSec ext d = ext + d) ∨
      (¬ InInt64 (ext + d) ∧
        (addSec ext d = 9223372036854775807 ∨ addSec ext d = -9223372036854775807)) := by
  unfold InInt64 at *
  unfold addSec wrap
  dsimp only
  split_ifs <;> omega

theorem tmod_bounds (d : Int) :
    -1000000000 < d.tmod 1000000000 ∧ d.tmod 1000000000 < 1000000000 := by
  rcases le_or_lt 0 d with h | h
  · rw [Int.tmod_eq_emod h (show (0 : Int) ≤ 1000000000 by decide)]; omega
  · have hn : d.tmod 1000000000 = -((-d).tmod 1000000000) := by
      rw [Int.tmod_def, Int.tmod_def, Int.neg_tdiv]; ring
    rw [hn, Int.tmod_eq_emod (by omega) (show (0 : Int) ≤ 1000000000 by decide)]; omega

def carry (dsec nsec : Int) : Int × Int :=
  if nsec ≥ 1000000000 then (dsec + 1, nsec - 1000000000)
  else if nsec < 0 then (dsec - 1, nsec + 1000000000)
  else (dsec, nsec)

theorem carry_spec (dsec nsec : Int) (h : -1000000000 < nsec ∧ nsec < 2000000000) :
    (carry dsec nsec).1 * 1000000000 + (carry dsec nsec).2 = dsec * 1000000000 + nsec ∧
      0 ≤ (carry dsec nsec).2 ∧ (carry dsec nsec).2 < 1000000000 := by
  unfold carry; split_ifs <;> dsimp only <;> omega

/-- A `time.Time` read through `t.sec()` (seconds since January 1 of year 1) and
`t.nsec()`. -/
structure Time where
  sec : Int
  nsec : Int
  sec_range : InInt64 sec
  nsec_range : 0 ≤ nsec ∧ nsec < 1000000000
  deriving DecidableEq

namespace Time

def nanos (t : Time) : Int := t.sec * 1000000000 + t.nsec

def unixNanos (t : Time) : Int := t.nanos - unixToInternal * 1000000000

theorem nanos_div (t : Time) : t.nanos / 1000000000 = t.sec := by
  have := t.nsec_range; unfold nanos; omega

def equal (t u : Time) : Bool := t.sec == u.sec && t.nsec == u.nsec

def before (t u : Time) : Bool := t.sec < u.sec || (t.sec == u.sec && t.nsec < u.nsec)

theorem equal_iff (t u : Time) : t.equal u = true ↔ t.nanos = u.nanos := by
  have := t.nsec_range; have := u.nsec_range
  simp only [equal, nanos, Bool.and_eq_true, beq_iff_eq]
  omega

theorem before_iff (t u : Time) : t.before u = true ↔ t.nanos < u.nanos := by
  have := t.nsec_range; have := u.nsec_range
  simp only [before, nanos, Bool.or_eq_true, decide_eq_true_eq, Bool.and_eq_true, beq_iff_eq]
  omega

/-- `Time.Add`. -/
def add (t : Time) (d : Int) : Time :=
  let p := carry (d.tdiv 1000000000) (t.nsec + d.tmod 1000000000)
  { sec := addSec t.sec p.1
    nsec := p.2
    sec_range := addSec_inInt64 _ _
    nsec_range := (carry_spec _ _ (by have := tmod_bounds d; have := t.nsec_range; omega)).2 }

theorem add_cases (t : Time) {d : Int} (hd : InInt64 d) :
    (InInt64 ((t.nanos + d) / 1000000000) ∧ (t.add d).nanos = t.nanos + d) ∨
      (¬ InInt64 ((t.nanos + d) / 1000000000) ∧
        ((t.add d).sec = 9223372036854775807 ∨ (t.add d).sec = -9223372036854775807)) := by
  have hq := Int.tdiv_add_tmod d 1000000000
  have hm := tmod_bounds d
  have hn := t.nsec_range
  have hc := carry_spec (d.tdiv 1000000000) (t.nsec + d.tmod 1000000000) (by omega)
  have he := t.sec_range
  have hs : InInt64 (carry (d.tdiv 1000000000) (t.nsec + d.tmod 1000000000)).1 := by
    unfold InInt64 at *; omega
  have hsum : (t.nanos + d) / 1000000000 =
      t.sec + (carry (d.tdiv 1000000000) (t.nsec + d.tmod 1000000000)).1 := by
    unfold nanos; omega
  simp only [add, nanos, hsum] at *
  rcases addSec_cases he hs with ⟨h1, h2⟩ | ⟨h1, h2⟩
  · exact .inl ⟨h1, by rw [h2]; omega⟩
  · exact .inr ⟨h1, h2⟩

/-- `Time.Sub`: the int64 difference, kept when adding it back gives `t`, and
`minDuration` or `maxDuration` otherwise. -/
def sub (t u : Time) : Int :=
  let d := wrap (wrap (wrap (t.sec - u.sec) * 1000000000) + (t.nsec - u.nsec))
  if (u.add d).equal t then d
  else if t.before u then minDuration
  else maxDuration

theorem sub_diff (t u : Time) :
    wrap (wrap (wrap (t.sec - u.sec) * 1000000000) + (t.nsec - u.nsec)) =
      wrap (t.nanos - u.nanos) := by
  unfold wrap nanos; omega

/-- `Sub` is the exact difference clamped onto the Duration range, for any `t` whose
seconds are not the saturated values `±(2^63 - 1)`. -/
theorem sub_eq_saturate (t u : Time)
    (ht : -9223372036854775807 < t.sec ∧ t.sec < 9223372036854775807) :
    t.sub u = saturate (t.nanos - u.nanos) := by
  simp only [sub, sub_diff]
  by_cases hD : InInt64 (t.nanos - u.nanos)
  · have hadd := u.add_cases hD
    have hin : InInt64 ((u.nanos + (t.nanos - u.nanos)) / 1000000000) := by
      rw [show u.nanos + (t.nanos - u.nanos) = t.nanos by omega, nanos_div]; exact t.sec_range
    have hback : (u.add (t.nanos - u.nanos)).nanos = t.nanos := by
      rcases hadd with ⟨-, h⟩ | ⟨h, -⟩
      · omega
      · exact absurd hin h
    rw [wrap_of_inInt64 hD, if_pos ((equal_iff _ _).2 hback), saturate_of_inInt64 hD]
  · have hw := wrap_inInt64 (t.nanos - u.nanos)
    have hne : (u.add (wrap (t.nanos - u.nanos))).equal t = false := by
      have hc := u.add_cases hw
      generalize u.add (wrap (t.nanos - u.nanos)) = v at hc ⊢
      rw [Bool.eq_false_iff, ne_eq, equal_iff]
      have := t.nsec_range; have := v.nsec_range
      unfold InInt64 wrap nanos at *; omega
    rw [if_neg (by simp [hne])]
    unfold InInt64 at hD
    split_ifs with hb <;> rw [before_iff] at hb <;>
      simp only [saturate, minDuration, maxDuration] <;> omega

end Time

def unixNorm (sec nsec : Int) : Int × Int :=
  if nsec < 0 ∨ nsec ≥ 1000000000 then
    let n := nsec.tdiv 1000000000
    let r := nsec - n * 1000000000
    if r < 0 then (wrap (wrap (sec + n) - 1), r + 1000000000) else (wrap (sec + n), r)
  else (sec, nsec)

theorem unixNorm_nsec (sec nsec : Int) :
    0 ≤ (unixNorm sec nsec).2 ∧ (unixNorm sec nsec).2 < 1000000000 := by
  have hr : nsec - nsec.tdiv 1000000000 * 1000000000 = nsec.tmod 1000000000 := by
    rw [Int.tmod_def]; ring
  have := tmod_bounds nsec
  unfold unixNorm; dsimp only; split_ifs <;> omega

/-- `time.Unix(sec, nsec)`. -/
def unix (sec nsec : Int) : Time where
  sec := wrap ((unixNorm sec nsec).1 + unixToInternal)
  nsec := (unixNorm sec nsec).2
  sec_range := wrap_inInt64 _
  nsec_range := unixNorm_nsec sec nsec

theorem unix_zero_unixNanos {l : Int} (h : InInt64 l) : (unix 0 l).unixNanos = l := by
  have hq := Int.tdiv_add_tmod l 1000000000
  have hm := tmod_bounds l
  have hr : l - l.tdiv 1000000000 * 1000000000 = l.tmod 1000000000 := by
    rw [Int.tmod_def]; ring
  unfold InInt64 at h
  simp only [unix, Time.unixNanos, Time.nanos, unixNorm, unixToInternal_eq]
  split_ifs <;> simp only [zero_add] <;> unfold wrap <;> omega

theorem unix_zero_sec {l : Int} (h : InInt64 l) :
    (unix 0 l).sec * 1000000000 ≤ l + 62135596800 * 1000000000 ∧
      l + 62135596800 * 1000000000 < (unix 0 l).sec * 1000000000 + 1000000000 := by
  have hu := unix_zero_unixNanos h
  have hn := (unix 0 l).nsec_range
  simp only [Time.unixNanos, Time.nanos, unixToInternal_eq] at hu
  omega

end Smokescreen.Go
