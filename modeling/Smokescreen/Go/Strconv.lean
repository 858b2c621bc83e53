import Mathlib.Data.Nat.Digits

/-! `strconv.ParseUint` and `strconv.ParseInt` for an explicit base in `2..36` (the
base-0 prefix rules are not reached from this repository). A Go string is a Lean string
whose characters stand for its bytes. Both functions return Go's pair of a value and an
error: on a range error the value is the clamped bound, which callers may still read. -/

namespace Smokescreen.Go

inductive NumErr
  | errSyntax
  | errRange
  deriving DecidableEq, Repr

/-- `*strconv.NumError`. -/
structure NumError where
  func : String
  num : String
  err : NumErr
  deriving DecidableEq, Repr

def syntaxError (fn s : String) : NumError := ⟨fn, s, .errSyntax⟩

def rangeError (fn s : String) : NumError := ⟨fn, s, .errRange⟩

/-- The digit a byte stands for in the switch of `ParseUint`: `0`-`9`, then letters
through `lower`. -/
def digitVal (c : Char) : Option Nat :=
  let lower := c.toNat ||| 32
  if '0'.toNat ≤ c.toNat ∧ c.toNat ≤ '9'.toNat then some (c.toNat - '0'.toNat)
  else if 'a'.toNat ≤ lower ∧ lower ≤ 'z'.toNat then some (lower - 'a'.toNat + 10)
  else none

/-- The loop of `ParseUint` over the bytes, from the accumulated `n`. -/
def parseUintLoop (s0 : String) (base maxVal cutoff : Nat) : Nat → List Char → Nat × Option NumError
  | n, [] => (n, none)
  | n, c :: cs =>
    match digitVal c with
    | none => (0, some (syntaxError "ParseUint" s0))
    | some d =>
      if d ≥ base then (0, some (syntaxError "ParseUint" s0))
      else if n ≥ cutoff then (maxVal, some (rangeError "ParseUint" s0))
      else
        let n := n * base
        let n1 := (n + d) % 2 ^ 64
        if n1 < n ∨ n1 > maxVal then (maxVal, some (rangeError "ParseUint" s0))
        else parseUintLoop s0 base maxVal cutoff n1 cs

def parseUint (s : String) (base bitSize : Nat) : Nat × Option NumError :=
  if s = "" then (0, some (syntaxError "ParseUint" s))
  else
    let bitSize := if bitSize = 0 then 64 else bitSize
    let cutoff := (2 ^ 64 - 1) / base + 1
    let maxVal := 2 ^ bitSize - 1
    parseUintLoop s base maxVal cutoff 0 s.toList

/-- The leading sign `ParseInt` picks off: whether it is `-`, and the rest. -/
def splitSign (s : String) : Bool × String :=
  match s.toList with
  | '+' :: cs => (false, ⟨cs⟩)
  | '-' :: cs => (true, ⟨cs⟩)
  | _ => (false, s)

/-- The range check of `ParseInt` on the unsigned magnitude. -/
def signedRange (s0 : String) (bitSize : Nat) (neg : Bool) (un : Nat) : Int × Option NumError :=
  let bitSize := if bitSize = 0 then 64 else bitSize
  let cutoff := 2 ^ (bitSize - 1)
  if !neg && un ≥ cutoff then ((cutoff : Int) - 1, some (rangeError "ParseInt" s0))
  else if neg && un > cutoff then (-(cutoff : Int), some (rangeError "ParseInt" s0))
  else (if neg then -(un : Int) else un, none)

def parseInt (s : String) (base bitSize : Nat) : Int × Option NumError :=
  if s = "" then (0, some (syntaxError "ParseInt" s))
  else
    let s0 := s
    let (neg, s) := splitSign s
    match parseUint s base bitSize with
    | (un, some e) =>
      if e.err ≠ .errRange then (0, some { e with func := "ParseInt", num := s0 })
      else signedRange s0 bitSize neg un
    | (un, none) => signedRange s0 bitSize neg un

/-! ## What `ParseUint` and `ParseInt` accept -/

theorem foldl_digits_eq_ofDigits (b : Nat) (ds : List Nat) :
    ds.foldl (fun n d => n * b + d) 0 = Nat.ofDigits b ds.reverse := by
  rw [Nat.ofDigits_eq_foldr, List.foldr_reverse]
  simp only [Nat.cast_id, Nat.add_comm, Nat.mul_comm]

theorem le_foldl_digits {base : Nat} (hb : 0 < base) (n : Nat) (ds : List Nat) :
    n ≤ ds.foldl (fun n d => n * base + d) n := by
  induction ds generalizing n with
  | nil => exact le_refl n
  | cons d ds ih =>
    have : n ≤ n * base := Nat.le_mul_of_pos_right n hb
    exact le_trans (by omega) (ih (n * base + d))

theorem map_digitVal_cons {c : Char} {cs : List Char} {d : Nat} {ds : List Nat}
    (h : (c :: cs).map digitVal = (d :: ds).map some) :
    digitVal c = some d ∧ cs.map digitVal = ds.map some := by
  simpa using h

section Loop

variable {s0 : String} {base maxVal : Nat}

theorem parseUintLoop_digits (hb : 0 < base ∧ base ≤ 36) (hmax : maxVal < 2 ^ 64)
    {cs : List Char} {ds : List Nat} (hds : cs.map digitVal = ds.map some)
    (hlt : ∀ d ∈ ds, d < base) (n : Nat) (hn : n ≤ maxVal) :
    parseUintLoop s0 base maxVal ((2 ^ 64 - 1) / base + 1) n cs =
      if ds.foldl (fun n d => n * base + d) n ≤ maxVal then
        (ds.foldl (fun n d => n * base + d) n, none)
      else (maxVal, some (rangeError "ParseUint" s0)) := by
  induction cs generalizing ds n with
  | nil =>
    obtain rfl : ds = [] := List.map_eq_nil_iff.1 hds.symm
    simp [parseUintLoop, hn]
  | cons c cs ih =>
    obtain _ | ⟨d, ds⟩ := ds
    · cases hds
    obtain ⟨hc, hcs⟩ := map_digitVal_cons hds
    have hd := hlt d (List.mem_cons_self _ _)
    have hfold := le_foldl_digits hb.1 (n * base + d) ds
    simp only [parseUintLoop, hc, ge_iff_le, Nat.not_le.2 hd, if_false, List.foldl_cons]
    by_cases hcut : (2 ^ 64 - 1) / base + 1 ≤ n
    · have h1 := Nat.lt_div_mul_add (a := 2 ^ 64 - 1) hb.1
      have h2 := Nat.mul_le_mul_right base hcut
      rw [Nat.add_mul, Nat.one_mul] at h2
      rw [if_pos hcut, if_neg (by omega)]
    have hm : n * base ≤ 2 ^ 64 - 1 :=
      (Nat.le_div_iff_mul_le hb.1).1 (Nat.lt_succ_iff.1 (Nat.not_le.1 hcut))
    rw [if_neg hcut]
    by_cases hfit : n * base + d ≤ maxVal
    · rw [Nat.mod_eq_of_lt (by omega), if_neg (by omega),
        ih hcs (fun e he => hlt e (List.mem_cons_of_mem _ he)) _ hfit]
    · rw [if_pos (by omega), if_neg (by omega)]

theorem parseUintLoop_valid {cutoff : Nat} :
    ∀ {n : Nat} {cs : List Char} {v : Nat},
      parseUintLoop s0 base maxVal cutoff n cs = (v, none) →
        ∃ ds : List Nat, cs.map digitVal = ds.map some ∧ ∀ d ∈ ds, d < base
  | _, [], _, _ => ⟨[], rfl, by simp⟩
  | n, c :: cs, v, h => by
    rcases hc : digitVal c with _ | d <;> simp only [parseUintLoop, hc] at h
    · cases h
    · split_ifs at h with h1 h2 h3
      · cases h
      · cases h
      · cases h
      · obtain ⟨ds, hds, hlt⟩ := parseUintLoop_valid h
        exact ⟨d :: ds, by simp [hc, hds], List.forall_mem_cons.2 ⟨Nat.lt_of_not_le h1, hlt⟩⟩

theorem parseUintLoop_range {cutoff : Nat} :
    ∀ {n : Nat} {cs : List Char} {v : Nat} {e : NumError},
      parseUintLoop s0 base maxVal cutoff n cs = (v, some e) → e.err = .errRange → v = maxVal
  | _, [], _, _, h, _ => by cases h
  | n, c :: cs, v, e, h, he => by
    rcases hc : digitVal c with _ | d <;> simp only [parseUintLoop, hc] at h
    · cases h; cases he
    · split_ifs at h
      · cases h; cases he
      · cases h; rfl
      · cases h; rfl
      · exact parseUintLoop_range h he

end Loop

theorem parseUint_digits {s : String} {base bitSize : Nat} {ds : List Nat}
    (hb : 2 ≤ base ∧ base ≤ 36) (hbs : 0 < bitSize ∧ bitSize ≤ 64) (hs : s ≠ "")
    (hds : s.toList.map digitVal = ds.map some) (hlt : ∀ d ∈ ds, d < base) :
    parseUint s base bitSize =
      if Nat.ofDigits base ds.reverse < 2 ^ bitSize then (Nat.ofDigits base ds.reverse, none)
      else (2 ^ bitSize - 1, some (rangeError "ParseUint" s)) := by
  have hpow : 0 < 2 ^ bitSize := Nat.two_pow_pos bitSize
  have hmax : 2 ^ bitSize - 1 < 2 ^ 64 :=
    lt_of_lt_of_le (Nat.sub_lt hpow one_pos) (Nat.pow_le_pow_right two_pos hbs.2)
  simp only [parseUint, hs, if_false, Nat.pos_iff_ne_zero.1 hbs.1,
    parseUintLoop_digits ⟨by omega, hb.2⟩ hmax hds hlt 0 (Nat.zero_le _), foldl_digits_eq_ofDigits]
  congr 1
  exact propext (by omega)

theorem digits_of_parseUint_eq {s : String} {base bitSize v : Nat} (hb : 2 ≤ base ∧ base ≤ 36)
    (hbs : 0 < bitSize ∧ bitSize ≤ 64) (h : parseUint s base bitSize = (v, none)) :
    s ≠ "" ∧ ∃ ds : List Nat, s.toList.map digitVal = ds.map some ∧ (∀ d ∈ ds, d < base) ∧
      v = Nat.ofDigits base ds.reverse ∧ v < 2 ^ bitSize := by
  have hs : s ≠ "" := by rintro rfl; cases h
  have hloop := h
  simp only [parseUint, hs, if_false] at hloop
  obtain ⟨ds, hds, hlt⟩ := parseUintLoop_valid hloop
  rw [parseUint_digits hb hbs hs hds hlt] at h
  split_ifs at h with hfit
  · cases h; exact ⟨hs, ds, hds, hlt, rfl, hfit⟩
  · cases h

/-- What `ParseUint` accepts is exactly a non-empty string of digits below `base` whose
value fits in `bitSize` bits, and the value returned is that number. -/
theorem parseUint_ok (s : String) (base bitSize v : Nat) (hb : 2 ≤ base ∧ base ≤ 36)
    (hbs : 0 < bitSize ∧ bitSize ≤ 64) :
    parseUint s base bitSize = (v, none) ↔
      s ≠ "" ∧ ∃ ds : List Nat, s.toList.map digitVal = ds.map some ∧ (∀ d ∈ ds, d < base) ∧
        v = Nat.ofDigits base ds.reverse ∧ v < 2 ^ bitSize := by
  refine ⟨digits_of_parseUint_eq hb hbs, ?_⟩
  rintro ⟨hs, ds, hds, hlt, rfl, hfit⟩
  rw [parseUint_digits hb hbs hs hds hlt, if_pos hfit]

theorem parseUint_ok_377 :
    parseUint "377" 8 9 = (255, none) ↔
      "377" ≠ "" ∧ ∃ ds : List Nat, "377".toList.map digitVal = ds.map some ∧
        (∀ d ∈ ds, d < 8) ∧ 255 = Nat.ofDigits 8 ds.reverse ∧ 255 < 2 ^ 9 :=
  parseUint_ok "377" 8 9 255 (by decide) (by decide)

theorem signedRange_eq_none_iff {s0 : String} {bitSize : Nat} {neg : Bool} {un : Nat}
    {v : Int} (hbs : 0 < bitSize) :
    signedRange s0 bitSize neg un = (v, none) ↔
      if neg then v = -un ∧ un ≤ 2 ^ (bitSize - 1) else v = un ∧ un < 2 ^ (bitSize - 1) := by
  cases neg <;>
    simp only [signedRange, Nat.pos_iff_ne_zero.1 hbs, if_false, Bool.not_false, Bool.not_true,
      Bool.true_and, Bool.false_and, Bool.false_eq_true, decide_eq_true_eq, if_true] <;>
    split_ifs <;> simp [eq_comm] <;> omega

theorem signedRange_ok {s0 : String} {bitSize : Nat} {neg : Bool} {un : Nat} {v : Int}
    (hbs : 0 < bitSize) (h : signedRange s0 bitSize neg un = (v, none)) :
    -2 ^ (bitSize - 1) ≤ v ∧ v < 2 ^ (bitSize - 1) := by
  have hp : (0 : Int) < 2 ^ (bitSize - 1) := by positivity
  have hc : ((2 ^ (bitSize - 1) : Nat) : Int) = 2 ^ (bitSize - 1) := by push_cast; rfl
  rw [signedRange_eq_none_iff hbs] at h
  split_ifs at h <;> omega

/-- Every value `ParseInt` returns without an error fits in `bitSize` signed bits. -/
theorem parseInt_range {s : String} {base bitSize : Nat} {v : Int} (hbs : 0 < bitSize)
    (h : parseInt s base bitSize = (v, none)) :
    -2 ^ (bitSize - 1) ≤ v ∧ v < 2 ^ (bitSize - 1) := by
  unfold parseInt at h
  split_ifs at h
  · cases h
  · dsimp only at h
    split at h
    · split_ifs at h
      · cases h
      · exact signedRange_ok hbs h
    · exact signedRange_ok hbs h

theorem signedRange_error {s0 : String} {bitSize : Nat} {neg : Bool} {un : Nat} {err : NumError}
    (h : (signedRange s0 bitSize neg un).2 = some err) : err = rangeError "ParseInt" s0 := by
  simp only [signedRange] at h
  split_ifs at h <;> exact (Option.some.inj h).symm

/-- Every error `ParseInt` returns names `ParseInt` and the string it was given, sign
included. -/
theorem parseInt_error {s : String} {base bitSize : Nat} {err : NumError}
    (h : (parseInt s base bitSize).2 = some err) : err.func = "ParseInt" ∧ err.num = s := by
  unfold parseInt at h
  split_ifs at h
  · cases h; exact ⟨rfl, rfl⟩
  dsimp only at h
  split at h
  · split_ifs at h
    · cases h; exact ⟨rfl, rfl⟩
    · rw [signedRange_error h]; exact ⟨rfl, rfl⟩
  · rw [signedRange_error h]; exact ⟨rfl, rfl⟩

theorem ne_empty_iff_digits_ne_nil {s : String} {ds : List Nat}
    (hds : s.toList.map digitVal = ds.map some) : s ≠ "" ↔ ds ≠ [] := by
  rw [ne_eq, ne_eq, not_iff_not, ← List.map_eq_nil_iff (f := some), ← hds, List.map_eq_nil_iff]
  exact ⟨fun h => h ▸ rfl, fun h => String.ext h⟩

theorem parseUint_range {s : String} {base bitSize un : Nat} {e : NumError}
    (hbs : 0 < bitSize) (h : parseUint s base bitSize = (un, some e)) (he : e.err = .errRange) :
    un = 2 ^ bitSize - 1 := by
  unfold parseUint at h
  split_ifs at h with h0 h1
  · cases h; cases he
  · omega
  · exact parseUintLoop_range h he

theorem half_lt_maxVal {bitSize : Nat} (hbs : 2 ≤ bitSize) :
    2 ^ (bitSize - 1) < 2 ^ bitSize - 1 := by
  have h1 : 2 ^ bitSize = 2 * 2 ^ (bitSize - 1) := by rw [← pow_succ']; congr 1; omega
  have h2 : 2 ^ 1 ≤ 2 ^ (bitSize - 1) := Nat.pow_le_pow_right two_pos (by omega)
  omega

theorem map_digitVal_ne_of_none {c : Char} {cs : List Char} {ds : List Nat}
    (hc : digitVal c = none) : (c :: cs).map digitVal ≠ ds.map some := by
  rcases ds with _ | ⟨d, ds⟩ <;> simp [hc]

theorem splitSign_of_digits {s : String} {ds : List Nat}
    (hds : s.toList.map digitVal = ds.map some) : splitSign s = (false, s) := by
  unfold splitSign
  split <;> first
    | rfl
    | next h => exact absurd (h ▸ hds) (map_digitVal_ne_of_none (by decide))

theorem parseInt_digits {s : String} {base bitSize : Nat} {ds : List Nat}
    (hb : 2 ≤ base ∧ base ≤ 36) (hbs : 2 ≤ bitSize ∧ bitSize ≤ 64) (hs : s ≠ "")
    (hds : s.toList.map digitVal = ds.map some) (hlt : ∀ d ∈ ds, d < base) :
    parseInt s base bitSize =
      if Nat.ofDigits base ds.reverse < 2 ^ (bitSize - 1) then
        (((Nat.ofDigits base ds.reverse : Nat) : Int), none)
      else (2 ^ (bitSize - 1) - 1, some (rangeError "ParseInt" s)) := by
  have hpow := half_lt_maxVal hbs.1
  have hbs0 : bitSize ≠ 0 := by omega
  simp only [parseInt, hs, if_false, splitSign_of_digits hds,
    parseUint_digits hb ⟨by omega, hbs.2⟩ hs hds hlt]
  have hc : ((2 ^ (bitSize - 1) : Nat) : Int) = 2 ^ (bitSize - 1) := by push_cast; rfl
  by_cases hfit : Nat.ofDigits base ds.reverse < 2 ^ bitSize
  · simp only [hfit, if_true, signedRange, hbs0, if_false, Bool.not_false, Bool.true_and,
      Bool.false_and, Bool.false_eq_true, decide_eq_true_eq, ge_iff_le, hc]
    split_ifs <;> first | rfl | omega
  · simp only [hfit, if_false, rangeError, signedRange, hbs0, ne_eq, not_true_eq_false,
      Bool.not_false, Bool.true_and, decide_eq_true_eq, ge_iff_le, hc]
    rw [if_pos hpow.le, if_neg (by omega)]

/-- What `ParseInt` accepts is exactly an optional sign, then a non-empty string of digits
below `base` whose value fits in `bitSize` signed bits (up to `2 ^ (bitSize - 1)` after a
minus sign), and the value returned is the signed number. -/
theorem parseInt_ok (s : String) (base bitSize : Nat) (v : Int) (hb : 2 ≤ base ∧ base ≤ 36)
    (hbs : 2 ≤ bitSize ∧ bitSize ≤ 64) :
    parseInt s base bitSize = (v, none) ↔
      s ≠ "" ∧ ∃ ds : List Nat, (splitSign s).2.toList.map digitVal = ds.map some ∧ ds ≠ [] ∧
        (∀ d ∈ ds, d < base) ∧
        if (splitSign s).1 then
          v = -((Nat.ofDigits base ds.reverse : Nat) : Int) ∧
            Nat.ofDigits base ds.reverse ≤ 2 ^ (bitSize - 1)
        else
          v = ((Nat.ofDigits base ds.reverse : Nat) : Int) ∧
            Nat.ofDigits base ds.reverse < 2 ^ (bitSize - 1) := by
  have hpow := half_lt_maxVal hbs.1
  have hbs0 : 0 < bitSize := by omega
  by_cases hs : s = ""
  · subst hs; simp [parseInt]
  rcases hsp : splitSign s with ⟨neg, rest⟩
  simp only [parseInt, hs, if_false, hsp, ne_eq, not_false_eq_true, true_and]
  constructor
  · intro h
    split at h
    · rename_i un e hu
      split_ifs at h with he
      · obtain rfl := parseUint_range hbs0 hu he
        rw [signedRange_eq_none_iff hbs0] at h
        split_ifs at h <;> omega
      · cases h
    · rename_i un hu
      obtain ⟨hrest, ds, hds, hlt, rfl, -⟩ :=
        digits_of_parseUint_eq hb ⟨hbs0, hbs.2⟩ hu
      exact ⟨ds, hds, (ne_empty_iff_digits_ne_nil hds).1 hrest, hlt,
        (signedRange_eq_none_iff hbs0).1 h⟩
  · rintro ⟨ds, hds, hne, hlt, hv⟩
    have hfit : Nat.ofDigits base ds.reverse < 2 ^ bitSize := by split_ifs at hv <;> omega
    simp only [parseUint_digits hb ⟨hbs0, hbs.2⟩ ((ne_empty_iff_digits_ne_nil hds).2 hne) hds hlt,
      if_pos hfit]
    exact (signedRange_eq_none_iff hbs0).2 hv

/-- `-400` is the most negative mode the signed 9-bit parse accepts. -/
theorem parseInt_ok_neg_400 :
    parseInt "-400" 8 9 = (-256, none) ↔
      "-400" ≠ "" ∧ ∃ ds : List Nat, (splitSign "-400").2.toList.map digitVal = ds.map some ∧
        ds ≠ [] ∧ (∀ d ∈ ds, d < 8) ∧
        if (splitSign "-400").1 then
          -256 = -((Nat.ofDigits 8 ds.reverse : Nat) : Int) ∧
            Nat.ofDigits 8 ds.reverse ≤ 2 ^ (9 - 1)
        else
          -256 = ((Nat.ofDigits 8 ds.reverse : Nat) : Int) ∧
            Nat.ofDigits 8 ds.reverse < 2 ^ (9 - 1) :=
  parseInt_ok "-400" 8 9 (-256) (by decide) (by decide)

end Smokescreen.Go
