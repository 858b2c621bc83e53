import Mathlib.Data.List.Nodup
import Smokescreen.Go.Ascii

/-! `net/http.Header` over `net/textproto`: a `map[string][]string` whose `Add`, `Set`
and `Del` first put the key in canonical MIME form. A map is the list of its
entries in the order one `range` over it visits them, so a statement over every list is
a statement over every iteration order; keys are distinct, as in any Go map. -/

namespace Smokescreen.Go

/-- textproto's `isTokenTable`: the bytes `validHeaderFieldByte` accepts. -/
def isTokenChar (c : Char) : Bool :=
  c.isAlphanum || ['!', '#', '$', '%', '&', Char.ofNat 39, '*', '+', '-', '.', '^', '_',
    Char.ofNat 96, '|', '~'].contains c

/-- The case change the loop of `canonicalMIMEHeaderKey` makes to one byte: `c -= toLower`
on a lower-case letter where `upper` holds, `c += toLower` on an upper-case one elsewhere. -/
def fixCase (upper : Bool) (c : Char) : Char :=
  if upper && c.isLower then c.toUpper else if !upper && c.isUpper then c.toLower else c

/-- The loop of `canonicalMIMEHeaderKey`: upper-case the first letter and every letter
after a hyphen, lower-case the rest. -/
def canonicalize : Bool → List Char → List Char
  | _, [] => []
  | upper, c :: cs => fixCase upper c :: canonicalize (fixCase upper c == '-') cs

/-- `textproto.CanonicalMIMEHeaderKey`: a key holding a byte outside the token set is
returned unchanged. -/
def canonicalMIMEHeaderKey (s : String) : String :=
  if s.toList.all isTokenChar then ⟨canonicalize true s.toList⟩ else s

example : canonicalMIMEHeaderKey "proxy-connection" = "Proxy-Connection" := by decide

/-! ## Case changes on one byte -/

theorem lower_ascii : ∀ n : Fin 26,
    (Char.ofNat (97 + n)).toUpper.isUpper ∧ (Char.ofNat (97 + n)).toUpper.isLower = false := by
  decide

theorem upper_ascii : ∀ u : Bool, ∀ n : Fin 26,
    (Char.ofNat (65 + n)).toLower.isLower ∧ (Char.ofNat (65 + n)).toLower.isUpper = false ∧
    fixCase u (Char.ofNat (65 + n)).toLower = fixCase u (Char.ofNat (65 + n)) := by
  decide

theorem toUpper_of_isLower {c : Char} (h : c.isLower) :
    c.toUpper.isUpper ∧ c.toUpper.isLower = false := by
  have hr := (isLower_iff c).1 h
  have h := lower_ascii ⟨c.toNat - 97, by omega⟩
  rwa [Fin.val_mk, Nat.add_sub_cancel' hr.1, Char.ofNat_toNat] at h

theorem toLower_of_isUpper (u : Bool) {c : Char} (h : c.isUpper) :
    c.toLower.isLower ∧ c.toLower.isUpper = false ∧ fixCase u c.toLower = fixCase u c := by
  have hr := (isUpper_iff c).1 h
  have h := upper_ascii u ⟨c.toNat - 65, by omega⟩
  rwa [Fin.val_mk, Nat.add_sub_cancel' hr.1, Char.ofNat_toNat] at h

theorem toLower_of_not_isUpper {c : Char} (h : ¬c.isUpper) : c.toLower = c := by
  simp only [Char.toLower]
  exact if_neg ((isUpper_iff c).not.1 h)

theorem isTokenChar_of_letter {c : Char} (h : c.isUpper ∨ c.isLower) : isTokenChar c := by
  simp [isTokenChar, Char.isAlphanum, Char.isAlpha, h]

/-! ## Canonical keys are fixed points -/

theorem fixCase_token {u : Bool} {c : Char} (hc : isTokenChar c) :
    fixCase u (fixCase u c) = fixCase u c ∧ isTokenChar (fixCase u c) := by
  cases u
  · by_cases h : c.isUpper
    · have h' := toLower_of_isUpper false h
      simp [fixCase, h, h'.2.1, isTokenChar_of_letter (.inr h'.1)]
    · simp [fixCase, h, hc]
  · by_cases h : c.isLower
    · have h' := toUpper_of_isLower h
      simp [fixCase, h, h'.2, isTokenChar_of_letter (.inl h'.1)]
    · simp [fixCase, h, hc]

theorem canonicalize_token (u : Bool) (cs : List Char) (h : cs.all isTokenChar) :
    canonicalize u (canonicalize u cs) = canonicalize u cs ∧
      (canonicalize u cs).all isTokenChar := by
  induction cs generalizing u with
  | nil => exact ⟨rfl, rfl⟩
  | cons c cs ih =>
    simp only [List.all_cons, Bool.and_eq_true] at h
    obtain ⟨h1, h2⟩ := fixCase_token (u := u) h.1
    obtain ⟨ih1, ih2⟩ := ih (fixCase u c == '-') h.2
    simp only [canonicalize, h1, ih1, List.all_cons, h2, ih2, Bool.and_self, and_self]

theorem canonicalMIMEHeaderKey_idem (s : String) :
    canonicalMIMEHeaderKey (canonicalMIMEHeaderKey s) = canonicalMIMEHeaderKey s := by
  by_cases h : s.toList.all isTokenChar
  · obtain ⟨h1, h2⟩ := canonicalize_token true s.toList h
    have hs : canonicalMIMEHeaderKey s = ⟨canonicalize true s.toList⟩ := if_pos h
    rw [hs]
    exact (if_pos h2).trans (congrArg String.mk h1)
  · have hs : canonicalMIMEHeaderKey s = s := if_neg h
    rw [hs, hs]

/-! ## Keys are case-insensitive -/

theorem fixCase_toLower (u : Bool) (c : Char) : fixCase u c.toLower = fixCase u c := by
  by_cases hc : c.isUpper
  · exact (toLower_of_isUpper u hc).2.2
  · rw [toLower_of_not_isUpper hc]

theorem isTokenChar_of_toLower_eq {c d : Char} (hc : isTokenChar c) (h : c.toLower = d.toLower) :
    isTokenChar d := by
  by_cases hd : d.isUpper
  · exact isTokenChar_of_letter (.inl hd)
  rw [toLower_of_not_isUpper hd] at h
  by_cases hu : c.isUpper
  · exact h ▸ isTokenChar_of_letter (.inr (toLower_of_isUpper true hu).1)
  · rwa [← h, toLower_of_not_isUpper hu]

theorem canonicalize_toLower (u : Bool) {cs ds : List Char}
    (h : cs.map Char.toLower = ds.map Char.toLower) : canonicalize u cs = canonicalize u ds := by
  induction cs generalizing u ds with
  | nil => cases ds with
    | nil => rfl
    | cons _ _ => cases h
  | cons c cs ih =>
    cases ds with
    | nil => cases h
    | cons d ds =>
      simp only [List.map_cons, List.cons.injEq] at h
      have hfix : fixCase u c = fixCase u d := calc
        fixCase u c = fixCase u c.toLower := (fixCase_toLower u c).symm
        _ = fixCase u d.toLower := by rw [h.1]
        _ = fixCase u d := fixCase_toLower u d
      simp only [canonicalize, hfix, ih _ h.2]

/-- Header keys are case-insensitive: two keys that differ only in the case of their
letters, one of them made of token bytes, have the same canonical form. -/
theorem canonicalMIMEHeaderKey_eq_of_toLower {s t : String} (hs : s.toList.all isTokenChar)
    (h : s.toList.map Char.toLower = t.toList.map Char.toLower) :
    canonicalMIMEHeaderKey s = canonicalMIMEHeaderKey t := by
  have ht : t.toList.all isTokenChar := List.all_eq_true.2 fun d hd => by
    obtain ⟨c, hc, he⟩ := List.mem_map.1 (h ▸ List.mem_map_of_mem Char.toLower hd)
    exact isTokenChar_of_toLower_eq (List.all_eq_true.1 hs c hc) he
  simp only [canonicalMIMEHeaderKey, hs, ht, if_true, canonicalize_toLower true h]

theorem canonicalMIMEHeaderKey_eq_of_toLower_content_type :
    "content-TYPE".toList.all isTokenChar ∧
      "content-TYPE".toList.map Char.toLower = "CONTENT-type".toList.map Char.toLower ∧
      canonicalMIMEHeaderKey "content-TYPE" = canonicalMIMEHeaderKey "CONTENT-type" :=
  ⟨by decide, by decide, canonicalMIMEHeaderKey_eq_of_toLower (by decide) (by decide)⟩

/-- `h[key]`, with the `ok` of a map read. -/
def lookupEntry : List (String × List String) → String → Option (List String)
  | [], _ => none
  | e :: rest, key => if e.1 = key then some e.2 else lookupEntry rest key

/-- `h[key] = append(h[key], value)`. -/
def appendEntry : List (String × List String) → String → String → List (String × List String)
  | [], key, value => [(key, [value])]
  | e :: rest, key, value =>
    if e.1 = key then (e.1, e.2 ++ [value]) :: rest else e :: appendEntry rest key value

/-- `h[key] = values`. -/
def setEntry : List (String × List String) → String → List String → List (String × List String)
  | [], key, values => [(key, values)]
  | e :: rest, key, values =>
    if e.1 = key then (e.1, values) :: rest else e :: setEntry rest key values

theorem lookupEntry_eq_none {l : List (String × List String)} {key : String}
    (h : key ∉ l.map Prod.fst) : lookupEntry l key = none := by
  induction l with
  | nil => rfl
  | cons e rest ih =>
    simp only [List.map_cons, List.mem_cons, not_or] at h
    simp only [lookupEntry, if_neg (Ne.symm h.1), ih h.2]

theorem keys_appendEntry (l : List (String × List String)) (key value : String) :
    (appendEntry l key value).map Prod.fst =
      if key ∈ l.map Prod.fst then l.map Prod.fst else l.map Prod.fst ++ [key] := by
  induction l with
  | nil => rfl
  | cons e rest ih =>
    by_cases he : e.1 = key
    · simp [appendEntry, he]
    · simp only [appendEntry, if_neg he, List.map_cons, ih, List.mem_cons, Ne.symm he,
        false_or]
      split_ifs <;> rfl

theorem keys_setEntry (l : List (String × List String)) (key : String) (values : List String) :
    (setEntry l key values).map Prod.fst =
      if key ∈ l.map Prod.fst then l.map Prod.fst else l.map Prod.fst ++ [key] := by
  induction l with
  | nil => rfl
  | cons e rest ih =>
    by_cases he : e.1 = key
    · simp [setEntry, he]
    · simp only [setEntry, if_neg he, List.map_cons, ih, List.mem_cons, Ne.symm he, false_or]
      split_ifs <;> rfl

theorem nodup_of_keys_eq {l l' : List (String × List String)} {key : String}
    (hk : l'.map Prod.fst =
      if key ∈ l.map Prod.fst then l.map Prod.fst else l.map Prod.fst ++ [key])
    (h : (l.map Prod.fst).Nodup) : (l'.map Prod.fst).Nodup := by
  rw [hk]
  split_ifs with hm
  · exact h
  · exact h.append (List.nodup_singleton _) (fun x hx hy => hm (by simp_all))

theorem lookupEntry_appendEntry (l : List (String × List String)) (key value x : String) :
    lookupEntry (appendEntry l key value) x =
      if x = key then some ((lookupEntry l x).getD [] ++ [value]) else lookupEntry l x := by
  induction l with
  | nil =>
    by_cases hx : x = key
    · subst hx; simp [appendEntry, lookupEntry]
    · simp [appendEntry, lookupEntry, hx, Ne.symm hx]
  | cons e rest ih =>
    by_cases he : e.1 = key <;> by_cases hx : e.1 = x <;>
      simp_all [appendEntry, lookupEntry, eq_comm]

theorem lookupEntry_setEntry (l : List (String × List String)) (key x : String)
    (values : List String) :
    lookupEntry (setEntry l key values) x = if x = key then some values else lookupEntry l x := by
  induction l with
  | nil =>
    by_cases hx : x = key
    · subst hx; simp [setEntry, lookupEntry]
    · simp [setEntry, lookupEntry, hx, Ne.symm hx]
  | cons e rest ih =>
    by_cases he : e.1 = key <;> by_cases hx : e.1 = x <;> simp_all [setEntry, lookupEntry, eq_comm]

theorem lookupEntry_filter (l : List (String × List String)) (key x : String) :
    lookupEntry (l.filter fun e => e.1 != key) x = if x = key then none else lookupEntry l x := by
  induction l with
  | nil => simp [lookupEntry]
  | cons e rest ih =>
    obtain ⟨k, vs⟩ := e
    by_cases hk : k = key
    · subst hk
      by_cases hx : x = k
      · subst hx; simpa [List.filter_cons] using ih
      · simp [List.filter_cons, lookupEntry, hx, Ne.symm hx, ih]
    · by_cases hx : k = x
      · subst hx; simp [List.filter_cons, lookupEntry, hk, Ne.symm hk]
      · simp [List.filter_cons, lookupEntry, hk, hx, ih]

/-- An `http.Header`: entries in iteration order, with distinct keys. -/
structure Header where
  entries : List (String × List String)
  nodup : (entries.map Prod.fst).Nodup
  deriving DecidableEq

namespace Header

def empty : Header := ⟨[], List.nodup_nil⟩

def keys (h : Header) : List String := h.entries.map Prod.fst

def get? (h : Header) (key : String) : Option (List String) := lookupEntry h.entries key

/-- `delete(h, key)`. -/
def erase (h : Header) (key : String) : Header :=
  ⟨h.entries.filter (fun e => e.1 != key), (h.nodup.sublist ((List.filter_sublist _).map _))⟩

/-- `Header.Del`. -/
def del (h : Header) (key : String) : Header := h.erase (canonicalMIMEHeaderKey key)

/-- `Header.Add`. -/
def add (h : Header) (key value : String) : Header :=
  ⟨appendEntry h.entries (canonicalMIMEHeaderKey key) value,
    nodup_of_keys_eq (keys_appendEntry _ _ _) h.nodup⟩

/-- `Header.Set`. -/
def set (h : Header) (key value : String) : Header :=
  ⟨setEntry h.entries (canonicalMIMEHeaderKey key) [value],
    nodup_of_keys_eq (keys_setEntry _ _ _) h.nodup⟩

@[simp] theorem get?_empty (x : String) : empty.get? x = none := rfl

@[simp] theorem get?_del (h : Header) (key x : String) :
    (h.del key).get? x = if x = canonicalMIMEHeaderKey key then none else h.get? x :=
  lookupEntry_filter _ _ _

@[simp] theorem get?_add (h : Header) (key value x : String) :
    (h.add key value).get? x =
      if x = canonicalMIMEHeaderKey key then some ((h.get? x).getD [] ++ [value])
      else h.get? x :=
  lookupEntry_appendEntry _ _ _ _

@[simp] theorem get?_set (h : Header) (key value x : String) :
    (h.set key value).get? x = if x = canonicalMIMEHeaderKey key then some [value] else h.get? x :=
  lookupEntry_setEntry _ _ _ _

theorem get?_eq_none {h : Header} {x : String} (hx : x ∉ h.keys) : h.get? x = none :=
  lookupEntry_eq_none hx

/-- Every key is a fixed point of `CanonicalMIMEHeaderKey`, as every key `Add`, `Set` and
`net/http`'s reader store is. -/
def Canonical (h : Header) : Prop := ∀ k ∈ h.keys, canonicalMIMEHeaderKey k = k

theorem canonical_empty : empty.Canonical := nofun

theorem canonical_of_keys_eq {h h' : Header} {key : String}
    (hk : h'.keys = if key ∈ h.keys then h.keys else h.keys ++ [key])
    (hc : h.Canonical) (hkey : canonicalMIMEHeaderKey key = key) : h'.Canonical := by
  intro k hm
  rw [hk] at hm
  split_ifs at hm
  · exact hc k hm
  · rcases List.mem_append.1 hm with hm | hm
    · exact hc k hm
    · rw [List.mem_singleton.1 hm, hkey]

theorem Canonical.add {h : Header} (hc : h.Canonical) (key value : String) :
    (h.add key value).Canonical :=
  canonical_of_keys_eq (keys_appendEntry _ _ _) hc (canonicalMIMEHeaderKey_idem key)

theorem Canonical.set {h : Header} (hc : h.Canonical) (key value : String) :
    (h.set key value).Canonical :=
  canonical_of_keys_eq (keys_setEntry _ _ _) hc (canonicalMIMEHeaderKey_idem key)

theorem Canonical.del {h : Header} (hc : h.Canonical) (key : String) : (h.del key).Canonical :=
  fun k hm => hc k (((List.filter_sublist _).map _).subset hm)

end Header

/-- One call on an `http.Header`. -/
inductive HeaderOp
  | add (key value : String)
  | set (key value : String)
  | del (key : String)

def HeaderOp.apply (h : Header) : HeaderOp → Header
  | .add key value => h.add key value
  | .set key value => h.set key value
  | .del key => h.del key

def Header.run (h : Header) (ops : List HeaderOp) : Header := ops.foldl HeaderOp.apply h

/-- Canonical keys are an invariant of every sequence of `Add`, `Set` and `Del` calls: a
header built from an empty one, or from one `net/http` read, has the canonical keys that
`copyHeaders` needs of both its arguments. -/
theorem Header.Canonical.run {h : Header} (hc : h.Canonical) (ops : List HeaderOp) :
    (h.run ops).Canonical := by
  induction ops generalizing h with
  | nil => exact hc
  | cons op ops ih =>
    apply ih
    cases op with
    | add key value => exact hc.add key value
    | set key value => exact hc.set key value
    | del key => exact hc.del key

theorem Header.canonical_run_sample :
    (Header.empty.run
      [.add "content-type" "text/plain", .set "x-hop" "1", .del "X-Hop"]).Canonical :=
  Header.Canonical.run Header.canonical_empty _

/-- `copyHeaders`: delete every key of `dst`, then `Add` every value of `src`. -/
def copyHeaders (dst src : Header) : Header :=
  let cleared := dst.keys.foldl (fun h k => h.del k) dst
  src.entries.foldl (fun h e => e.2.foldl (fun h v => h.add e.1 v) h) cleared

theorem get?_foldl_del (ks : List String) (h : Header) (x : String) :
    (ks.foldl (fun h k => h.del k) h).get? x =
      if x ∈ ks.map canonicalMIMEHeaderKey then none else h.get? x := by
  induction ks generalizing h with
  | nil => simp
  | cons k ks ih =>
    rw [List.foldl_cons, ih, Header.get?_del]
    by_cases hx : x = canonicalMIMEHeaderKey k <;> simp [hx]

theorem get?_foldl_add (vs : List String) (h : Header) (k x : String) :
    (vs.foldl (fun h v => h.add k v) h).get? x =
      if x = canonicalMIMEHeaderKey k ∧ vs ≠ [] then some ((h.get? x).getD [] ++ vs)
      else h.get? x := by
  induction vs generalizing h with
  | nil => simp
  | cons v vs ih =>
    rw [List.foldl_cons, ih, Header.get?_add]
    by_cases hx : x = canonicalMIMEHeaderKey k <;> by_cases hv : vs = [] <;> simp [hx, hv]

theorem get?_foldl_entries (es : List (String × List String)) (hnd : (es.map Prod.fst).Nodup)
    (hc : ∀ k ∈ es.map Prod.fst, canonicalMIMEHeaderKey k = k) (h : Header) (x : String) :
    (es.foldl (fun h e => e.2.foldl (fun h v => h.add e.1 v) h) h).get? x =
      if (lookupEntry es x).getD [] = [] then h.get? x
      else some ((h.get? x).getD [] ++ (lookupEntry es x).getD []) := by
  induction es generalizing h with
  | nil => simp [lookupEntry]
  | cons e rest ih =>
    obtain ⟨k, vs⟩ := e
    simp only [List.map_cons, List.nodup_cons, List.mem_cons, forall_eq_or_imp] at hnd hc
    rw [List.foldl_cons, ih hnd.2 hc.2, get?_foldl_add, hc.1]
    by_cases hx : k = x
    · subst hx
      by_cases hv : vs = [] <;> simp [lookupEntry, lookupEntry_eq_none hnd.1, hv]
    · simp [lookupEntry, hx, Ne.symm hx]

theorem get?_copyHeaders {dst src : Header} (hdst : dst.Canonical) (hsrc : src.Canonical)
    (k : String) :
    (copyHeaders dst src).get? k = if (src.get? k).getD [] = [] then none else src.get? k := by
  have hclear : ∀ x, (dst.keys.foldl (fun h k => h.del k) dst).get? x = none := by
    intro x
    rw [get?_foldl_del]
    by_cases hx : x ∈ dst.keys
    · rw [if_pos (List.mem_map.2 ⟨x, hx, hdst x hx⟩)]
    · rw [if_neg (fun hm => ?_), Header.get?_eq_none hx]
      obtain ⟨y, hy, rfl⟩ := List.mem_map.1 hm
      exact hx (by rw [hdst y hy]; exact hy)
  simp only [copyHeaders]
  rw [get?_foldl_entries _ src.nodup hsrc, hclear]
  change (if (src.get? k).getD [] = [] then none else some ([] ++ (src.get? k).getD [])) = _
  cases src.get? k <;> simp

/-- `copyHeaders` over canonical keys leaves `dst` holding exactly the keys of `src` with
a non-empty value list, each with `src`'s values in `src`'s order. -/
theorem copyHeaders_lookup (dst src : Header)
    (hdst : ∀ k ∈ dst.keys, canonicalMIMEHeaderKey k = k)
    (hsrc : ∀ k ∈ src.keys, canonicalMIMEHeaderKey k = k) (k : String) (vs : List String) :
    (copyHeaders dst src).get? k = some vs ↔ src.get? k = some vs ∧ vs ≠ [] := by
  rw [get?_copyHeaders hdst hsrc]
  cases src.get? k with
  | none => simp
  | some ws =>
    simp only [Option.getD_some]
    split_ifs with hw
    · simp [hw, eq_comm]
    · exact ⟨fun h => ⟨h, Option.some.inj h ▸ hw⟩, And.left⟩

theorem copyHeaders_lookup_sample :
    (copyHeaders ⟨[("X-Old", ["a"]), ("Content-Type", ["b"])], by decide⟩
        ⟨[("Content-Type", ["text/plain", "x"]), ("X-Empty", [])], by decide⟩).get?
        "Content-Type" = some ["text/plain", "x"] ↔
      (⟨[("Content-Type", ["text/plain", "x"]), ("X-Empty", [])], by decide⟩ : Header).get?
        "Content-Type" = some ["text/plain", "x"] ∧ ["text/plain", "x"] ≠ [] :=
  copyHeaders_lookup _ _ (by decide) (by decide) _ _

end Smokescreen.Go
