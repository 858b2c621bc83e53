import Mathlib.Data.List.Basic
import Smokescreen.Go.Ascii

/-! `net/url`'s `Parse` and `ParseRequestURI`, with the helpers they call: `getScheme`,
`parseAuthority`, `parseHost`, `unescape`, `escape` and `setPath`. Strings are scanned as
lists of characters standing for bytes; an escape `%XX` decodes to the character with
code `XX`. Error texts are those of Go, with `strconv.Quote` written as plain quotes. -/

namespace Smokescreen.Go

instance decEqExcept {ε α : Type} [DecidableEq ε] [DecidableEq α] : DecidableEq (Except ε α)
  | .ok a, .ok b => if h : a = b then isTrue (h ▸ rfl) else isFalse fun e => h (Except.ok.inj e)
  | .error a, .error b =>
    if h : a = b then isTrue (h ▸ rfl) else isFalse fun e => h (Except.error.inj e)
  | .ok _, .error _ => isFalse nofun
  | .error _, .ok _ => isFalse nofun

structure Userinfo where
  username : String
  password : Option String
  deriving DecidableEq, Repr

/-- A `url.URL`. `Opaque` is `opaquePart` here. -/
structure Url where
  scheme : String := ""
  opaquePart : String := ""
  user : Option Userinfo := none
  host : String := ""
  path : String := ""
  rawPath : String := ""
  forceQuery : Bool := false
  rawQuery : String := ""
  fragment : String := ""
  rawFragment : String := ""
  deriving DecidableEq, Repr

/-- `URL.IsAbs`. -/
def Url.isAbs (u : Url) : Bool := u.scheme != ""

inductive Encoding
  | encodePath
  | encodePathSegment
  | encodeHost
  | encodeZone
  | encodeUserPassword
  | encodeQueryComponent
  | encodeFragment
  deriving DecidableEq, Repr

open Encoding

def isHexDigit (c : Char) : Bool :=
  ('0' ≤ c && c ≤ '9') || ('a' ≤ c && c ≤ 'f') || ('A' ≤ c && c ≤ 'F')

def unhex (c : Char) : Nat :=
  if '0' ≤ c ∧ c ≤ '9' then c.toNat - '0'.toNat
  else if 'a' ≤ c ∧ c ≤ 'f' then c.toNat - 'a'.toNat + 10
  else if 'A' ≤ c ∧ c ≤ 'F' then c.toNat - 'A'.toNat + 10
  else 0

/-- `shouldEscape`. -/
def shouldEscape (c : Char) (mode : Encoding) : Bool :=
  if c.isAlphanum then false
  else if (mode = encodeHost ∨ mode = encodeZone) ∧
      c ∈ ['!', '$', '&', Char.ofNat 39, '(', ')', '*', '+', ',', ';', '=', ':', '[', ']',
        '<', '>', '"'] then false
  else if c ∈ ['-', '_', '.', '~'] then false
  else if c ∈ ['$', '&', '+', ',', '/', ':', ';', '=', '?', '@'] then
    match mode with
    | encodePath => c == '?'
    | encodePathSegment => c == '/' || c == ';' || c == ',' || c == '?'
    | encodeUserPassword => c == '@' || c == '/' || c == '?' || c == ':'
    | encodeQueryComponent => true
    | encodeFragment => false
    | _ => true
  else if mode = encodeFragment ∧ c ∈ ['!', '(', ')', '*'] then false
  else true

def escapeError (s : List Char) : String := "invalid URL escape \"" ++ String.mk s ++ "\""

def invalidHostError (s : List Char) : String :=
  "invalid character \"" ++ String.mk s ++ "\" in host name"

/-- `unescape`: its checking pass and its decoding pass in one scan, which fails at the
same first bad byte. -/
def unescape (mode : Encoding) : List Char → Except String (List Char)
  | [] => .ok []
  | '%' :: a :: b :: rest =>
    if !(isHexDigit a && isHexDigit b) then .error (escapeError ['%', a, b])
    else
      let v := unhex a * 16 + unhex b
      if mode = encodeHost ∧ unhex a < 8 ∧ ['%', a, b] ≠ ['%', '2', '5'] then
        .error (escapeError ['%', a, b])
      else if mode = encodeZone ∧ ['%', a, b] ≠ ['%', '2', '5'] ∧ v ≠ 32 ∧
          shouldEscape (Char.ofNat v) encodeHost then
        .error (escapeError ['%', a, b])
      else (Char.ofNat v :: ·) <$> unescape mode rest
  | '%' :: rest => .error (escapeError ('%' :: rest))
  | '+' :: rest => ((if mode = encodeQueryComponent then ' ' else '+') :: ·) <$> unescape mode rest
  | c :: rest =>
    if (mode = encodeHost ∨ mode = encodeZone) ∧ c.toNat < 128 ∧ shouldEscape c mode then
      .error (invalidHostError [c])
    else (c :: ·) <$> unescape mode rest

def upperhex (n : Nat) : Char := "0123456789ABCDEF".toList.getD n '0'

/-- `escape`, for the modes other than `encodeQueryComponent`. -/
def escape (mode : Encoding) : List Char → List Char
  | [] => []
  | c :: rest =>
    if shouldEscape c mode then
      '%' :: upperhex (c.toNat / 16) :: upperhex (c.toNat % 16) :: escape mode rest
    else c :: escape mode rest

/-- `getScheme`: the scheme before the first `:`, if the bytes before it can form one. -/
def getSchemeLoop (raw : List Char) : Bool → List Char → List Char →
    Except String (List Char × List Char)
  | _, _, [] => .ok ([], raw)
  | first, acc, c :: cs =>
    if c.isAlpha then getSchemeLoop raw false (acc ++ [c]) cs
    else if c.isDigit ∨ c = '+' ∨ c = '-' ∨ c = '.' then
      if first then .ok ([], raw) else getSchemeLoop raw false (acc ++ [c]) cs
    else if c = ':' then
      if first then .error "missing protocol scheme" else .ok (acc, cs)
    else .ok ([], raw)

def getScheme (raw : List Char) : Except String (List Char × List Char) :=
  getSchemeLoop raw true [] raw

/-- `validOptionalPort`. -/
def validOptionalPort : List Char → Bool
  | [] => true
  | ':' :: ds => ds.all Char.isDigit
  | _ => false

def cutLast (c : Char) (s : List Char) : Option (List Char × List Char) :=
  match (s.reverse.indexOf? c) with
  | some i => some (s.take (s.length - 1 - i), s.drop (s.length - i))
  | none => none

def cutFirst (c : Char) (s : List Char) : Option (List Char × List Char) :=
  match s.indexOf? c with
  | some i => some (s.take i, s.drop (i + 1))
  | none => none

/-- `parseHost`. -/
def parseHost (host : List Char) : Except String (List Char) :=
  if host.head? = some '[' then
    match cutLast ']' host with
    | none => .error "missing ']' in host"
    | some (inside, colonPort) =>
      if !validOptionalPort colonPort then
        .error ("invalid port \"" ++ String.mk colonPort ++ "\" after host")
      else
        let zoneAt := (inside.tails.findIdx? fun t => t.take 3 = ['%', '2', '5'])
        match zoneAt with
        | some z => do
          let h1 ← unescape encodeHost (inside.take z)
          let h2 ← unescape encodeZone (inside.drop z)
          let h3 ← unescape encodeHost (']' :: colonPort)
          pure (h1 ++ h2 ++ h3)
        | none => unescape encodeHost host
  else
    match cutLast ':' host with
    | some (_, port) =>
      if !validOptionalPort (':' :: port) then
        .error ("invalid port \"" ++ String.mk (':' :: port) ++ "\" after host")
      else unescape encodeHost host
    | none => unescape encodeHost host

/-- `validUserinfo`. -/
def validUserinfo (s : List Char) : Bool :=
  s.all fun r => r.isAlphanum ||
    r ∈ ['-', '.', '_', ':', '~', '!', '$', '&', Char.ofNat 39, '(', ')', '*', '+', ',', ';',
      '=', '%', '@']

/-- `parseAuthority`. -/
def parseAuthority (authority : List Char) : Except String (Option Userinfo × List Char) :=
  match cutLast '@' authority with
  | none => do
    let host ← parseHost authority
    pure (none, host)
  | some (userinfo, hostPart) => do
    let host ← parseHost hostPart
    if !validUserinfo userinfo then throw "net/url: invalid userinfo"
    match cutFirst ':' userinfo with
    | none =>
      let u ← unescape encodeUserPassword userinfo
      pure (some ⟨String.mk u, none⟩, host)
    | some (name, pass) =>
      let u ← unescape encodeUserPassword name
      let p ← unescape encodeUserPassword pass
      pure (some ⟨String.mk u, some (String.mk p)⟩, host)

/-- `URL.setPath`: `Path` is the unescaped text, `RawPath` the text as given unless the
default escaping gives it back. -/
def setPath (u : Url) (p : List Char) : Except String Url := do
  let path ← unescape encodePath p
  pure { u with path := String.mk path,
                rawPath := if p = escape encodePath path then "" else String.mk p }

/-- `URL.setFragment`. -/
def setFragment (u : Url) (f : List Char) : Except String Url := do
  let frag ← unescape encodeFragment f
  pure { u with fragment := String.mk frag,
                rawFragment := if f = escape encodeFragment frag then "" else String.mk f }

/-- `parse(rawURL, viaRequest)`. -/
def parse (raw : List Char) (viaRequest : Bool) : Except String Url := do
  if raw.any fun c => c.toNat < 32 ∨ c.toNat = 127 then
    throw "net/url: invalid control character in URL"
  if raw = [] ∧ viaRequest then throw "empty url"
  if raw = ['*'] then return { path := "*" }
  let (scheme, rest) ← getScheme raw
  let scheme := scheme.map Char.toLower
  let (rest, forceQuery, rawQuery) :=
    if rest.getLast? = some '?' ∧ rest.count '?' = 1 then (rest.dropLast, true, [])
    else match cutFirst '?' rest with
      | some (before, after) => (before, false, after)
      | none => (rest, false, [])
  let u : Url := { scheme := String.mk scheme, forceQuery, rawQuery := String.mk rawQuery }
  if rest.head? ≠ some '/' then
    if scheme ≠ [] then return { u with opaquePart := String.mk rest }
    if viaRequest then throw "invalid URI for request"
    let colon := rest.indexOf ':'
    let slash := rest.indexOf '/'
    if colon < rest.length ∧ (slash = rest.length ∨ colon < slash) then
      throw "first path segment in URL cannot contain colon"
  if (scheme ≠ [] ∨ !viaRequest ∧ rest.take 3 ≠ ['/', '/', '/']) ∧ rest.take 2 = ['/', '/'] then
    let afterSlashes := rest.drop 2
    let i := afterSlashes.indexOf '/'
    let (authority, rest) := (afterSlashes.take i, afterSlashes.drop i)
    let (user, host) ← parseAuthority authority
    setPath { u with user, host := String.mk host } rest
  else setPath u rest

/-- `url.Parse`: cut off the fragment, parse the rest. -/
def urlParse (raw : String) : Except String Url :=
  let (u, frag) := match cutFirst '#' raw.toList with
    | some (u, frag) => (u, frag)
    | none => (raw.toList, [])
  match parse u false with
  | .error e => .error ("parse \"" ++ String.mk u ++ "\": " ++ e)
  | .ok url =>
    if frag = [] then .ok url
    else match setFragment url frag with
      | .error e => .error ("parse \"" ++ raw ++ "\": " ++ e)
      | .ok url => .ok url

/-- `url.ParseRequestURI`, as `net/http` reads a request target. -/
def parseRequestURI (raw : String) : Except String Url :=
  match parse raw.toList true with
  | .error e => .error ("parse \"" ++ raw ++ "\": " ++ e)
  | .ok url => .ok url

example : urlParse "http://h/search?q=1" =
    .ok { scheme := "http", host := "h", path := "/search", rawQuery := "q=1" } := by decide

/-! ## Plain URLs parse back as they were printed -/

/-- A host byte that needs no escape: a letter, a digit or one of `-._~`. -/
def isHostChar (c : Char) : Bool := c.isAlphanum || c ∈ ['-', '.', '_', '~']

/-- A path byte `net/url` reads and prints as it is: a host byte or one of `$&+,/:;=@`. -/
def isPathChar (c : Char) : Bool :=
  isHostChar c || c ∈ ['$', '&', '+', ',', '/', ':', ';', '=', '@']

theorem hostChar_spec {c : Char} (h : isHostChar c) :
    shouldEscape c encodeHost = false ∧ shouldEscape c encodePath = false ∧
      c ∉ ['%', '?', '#', '/', '@', ':', '['] ∧ ¬(c.toNat < 32 ∨ c.toNat = 127) := by
  rcases Bool.or_eq_true _ _ ▸ h with ha | hm
  · have hr := isAlphanum_range ha
    have hn : ∀ d ∈ ['%', '?', '#', '/', '@', ':', '['], d.isAlphanum = false := by decide
    exact ⟨if_pos ha, if_pos ha, fun hm => absurd (hn c hm) (by simp [ha]), by omega⟩
  · have hl : ∀ d ∈ ['-', '.', '_', '~'], shouldEscape d encodeHost = false ∧
        shouldEscape d encodePath = false ∧ d ∉ ['%', '?', '#', '/', '@', ':', '['] ∧
          ¬(d.toNat < 32 ∨ d.toNat = 127) := by decide
    exact hl c (of_decide_eq_true hm)

theorem pathChar_spec {c : Char} (h : isPathChar c) :
    shouldEscape c encodePath = false ∧ c ∉ ['%', '?', '#'] ∧
      ¬(c.toNat < 32 ∨ c.toNat = 127) := by
  rcases Bool.or_eq_true _ _ ▸ h with hh | hm
  · obtain ⟨-, h1, h2, h3⟩ := hostChar_spec hh
    exact ⟨h1, fun hm => h2 (by simp_all), h3⟩
  · have hl : ∀ d ∈ ['$', '&', '+', ',', '/', ':', ';', '=', '@'],
        shouldEscape d encodePath = false ∧ d ∉ ['%', '?', '#'] ∧
          ¬(d.toNat < 32 ∨ d.toNat = 127) := by decide
    exact hl c (of_decide_eq_true hm)

theorem unescape_eq_self {mode : Encoding} :
    ∀ {s : List Char}, (∀ c ∈ s, c ≠ '%' ∧ shouldEscape c mode = false) →
      unescape mode s = .ok s
  | [], _ => rfl
  | c :: s, h => by
    have hc := h c (List.mem_cons_self _ _)
    have ih := unescape_eq_self fun d hd => h d (List.mem_cons_of_mem _ hd)
    by_cases hp : c = '+'
    · subst hp
      have hq : mode ≠ encodeQueryComponent := by
        rintro rfl
        exact absurd hc.2 (by decide)
      rw [unescape.eq_4, ih, if_neg hq]
      rfl
    · rw [unescape.eq_5 mode c s (fun _ _ _ h => absurd h hc.1) hc.1 hp, ih,
        if_neg (by simp [hc.2])]
      rfl

theorem escape_eq_self {mode : Encoding} {s : List Char}
    (h : ∀ c ∈ s, shouldEscape c mode = false) : escape mode s = s := by
  induction s with
  | nil => rfl
  | cons c s ih =>
    simp only [List.forall_mem_cons] at h
    simp only [escape, h.1, ih h.2, Bool.false_eq_true, if_false]

theorem cutFirst_eq_none {c : Char} {s : List Char} (h : c ∉ s) : cutFirst c s = none := by
  have : s.indexOf? c = none := List.indexOf?_eq_none_iff.2 fun x hx he => h (eq_of_beq he ▸ hx)
  simp [cutFirst, this]

theorem cutLast_eq_none {c : Char} {s : List Char} (h : c ∉ s) : cutLast c s = none := by
  have : s.reverse.indexOf? c = none :=
    List.indexOf?_eq_none_iff.2 fun x hx he => h (List.mem_reverse.1 (eq_of_beq he ▸ hx))
  simp [cutLast, this]

theorem ok_bind {ε α β : Type} (a : α) (f : α → Except ε β) :
    (Except.ok a >>= f) = f a := rfl

theorem getScheme_http (rest : List Char) :
    getScheme (['h', 't', 't', 'p', ':', '/', '/'] ++ rest) =
      .ok (['h', 't', 't', 'p'], '/' :: '/' :: rest) := rfl

theorem parseHost_plain {host : List Char} (hh : ∀ c ∈ host, isHostChar c) :
    parseHost host = .ok host := by
  have hs := fun c hc => hostChar_spec (hh c hc)
  have hbr : host.head? ≠ some '[' := fun he =>
    (hs _ (List.mem_of_mem_head? he)).2.2.1 (by simp)
  have hcol : ':' ∉ host := fun hm => (hs _ hm).2.2.1 (by simp)
  have hun : unescape encodeHost host = .ok host :=
    unescape_eq_self fun c hc => ⟨fun he => (hs c hc).2.2.1 (by simp [he]), (hs c hc).1⟩
  simp only [parseHost, hbr, if_false, cutLast_eq_none hcol, hun]

theorem setPath_plain (u : Url) {path : List Char} (hp : ∀ c ∈ path, isPathChar c) :
    setPath u path = .ok { u with path := String.mk path, rawPath := "" } := by
  have hs := fun c hc => pathChar_spec (hp c hc)
  have hun : unescape encodePath path = .ok path :=
    unescape_eq_self fun c hc => ⟨fun he => (hs c hc).2.1 (by simp [he]), (hs c hc).1⟩
  simp only [setPath, hun, ok_bind, escape_eq_self fun c hc => (hs c hc).1, if_true]
  rfl

/-! ## A host with a port, a path with escapes and a query -/

theorem indexOf?_append_cons {c : Char} {l r : List Char} (h : c ∉ l) :
    (l ++ c :: r).indexOf? c = some l.length := by
  induction l with
  | nil => simp [List.indexOf?_cons]
  | cons x l ih =>
    simp only [List.mem_cons, not_or] at h
    simp [List.indexOf?_cons, beq_iff_eq, Ne.symm h.1, ih h.2]

theorem cutFirst_append {c : Char} {l r : List Char} (h : c ∉ l) :
    cutFirst c (l ++ c :: r) = some (l, r) := by
  simp [cutFirst, indexOf?_append_cons h]

theorem cutLast_append {c : Char} {l r : List Char} (h : c ∉ r) :
    cutLast c (l ++ c :: r) = some (l, r) := by
  have hi : (l ++ c :: r).reverse.indexOf? c = some r.length := by
    rw [List.reverse_append, List.reverse_cons, List.append_assoc, List.singleton_append,
      indexOf?_append_cons (by simpa using h), List.length_reverse]
  have h1 : l.length + (r.length + 1) - 1 - r.length = l.length := by omega
  have h2 : l.length + (r.length + 1) - r.length = l.length + 1 := by omega
  simp only [cutLast, hi, List.length_append, List.length_cons, h1, h2, List.take_left,
    List.drop_append, List.drop_one, List.tail_cons]

theorem cutFirst_cons (c x : Char) (s : List Char) :
    cutFirst c (x :: s) =
      if x = c then some ([], s) else (cutFirst c s).map fun p => (x :: p.1, p.2) := by
  unfold cutFirst
  by_cases hx : x = c
  · simp [List.indexOf?_cons, hx]
  · simp only [List.indexOf?_cons, beq_iff_eq, hx, if_false]
    cases s.indexOf? c <;> simp

theorem cutFirst_eq_none_iff {c : Char} {s : List Char} : cutFirst c s = none ↔ c ∉ s := by
  refine ⟨fun h => ?_, cutFirst_eq_none⟩
  induction s with
  | nil => exact List.not_mem_nil _
  | cons x s ih =>
    rw [cutFirst_cons] at h
    split_ifs at h with hx
    rw [Option.map_eq_none'] at h
    simpa [Ne.symm hx] using ih h

theorem cutFirst_eq_some {c : Char} {s a b : List Char} (h : cutFirst c s = some (a, b)) :
    s = a ++ c :: b ∧ c ∉ a := by
  induction s generalizing a with
  | nil => cases h
  | cons x s ih =>
    rw [cutFirst_cons] at h
    split_ifs at h with hx
    · cases h; exact ⟨by rw [hx]; rfl, List.not_mem_nil _⟩
    · obtain ⟨⟨a', b'⟩, hs, he⟩ := Option.map_eq_some'.1 h
      cases he
      obtain ⟨rfl, ha⟩ := ih hs
      exact ⟨rfl, by simp [Ne.symm hx, ha]⟩

theorem head?_of_append_cons {a b : List Char} {c x : Char} (hc : c ≠ x)
    (h : (a ++ c :: b).head? = some x) : a.head? = some x := by
  cases a with
  | nil => exact absurd (Option.some.inj h) hc
  | cons _ _ => exact h

theorem cutFirst_append_of_not_mem {c : Char} {l : List Char} (h : c ∉ l) (s : List Char) :
    cutFirst c (l ++ s) = (cutFirst c s).map fun p => (l ++ p.1, p.2) := by
  induction l with
  | nil => simp only [List.nil_append]; cases cutFirst c s <;> rfl
  | cons x l ih =>
    have hx : x ≠ c := fun he => h (he ▸ List.mem_cons_self _ _)
    rw [List.cons_append, cutFirst_cons, if_neg hx, ih fun hm => h (List.mem_cons_of_mem _ hm)]
    cases cutFirst c s <;> rfl

theorem cutFirst_getD_append {c : Char} {l : List Char} (h : c ∉ l) (s : List Char) :
    (cutFirst c (l ++ s)).getD (l ++ s, []) =
      (l ++ ((cutFirst c s).getD (s, [])).1, ((cutFirst c s).getD (s, [])).2) := by
  rw [cutFirst_append_of_not_mem h]
  rcases cutFirst c s with _ | ⟨a, f⟩ <;> rfl

/-- A `Host` that `url.Parse` gives back unchanged: host bytes, then an optional `:port`. -/
def IsHostPort (host : List Char) : Prop :=
  ∃ name port, host = name ++ port ∧ (∀ c ∈ name, isHostChar c) ∧ validOptionalPort port

theorem validOptionalPort_mem {port : List Char} (hp : validOptionalPort port) {c : Char}
    (hc : c ∈ port) : c = ':' ∨ c.isDigit := by
  cases port with
  | nil => cases hc
  | cons x ds =>
    by_cases hx : x = ':'
    · subst hx
      rcases List.mem_cons.1 hc with rfl | hc
      · exact .inl rfl
      · exact .inr (List.all_eq_true.1 hp c hc)
    · simp [validOptionalPort, hx] at hp

theorem IsHostPort.mem {host : List Char} (hh : IsHostPort host) {c : Char} (hc : c ∈ host) :
    c ∉ ['%', '?', '#', '/', '@', '['] ∧ ¬(c.toNat < 32 ∨ c.toNat = 127) := by
  obtain ⟨name, port, rfl, hn, hp⟩ := hh
  rcases List.mem_append.1 hc with hc | hc
  · have hs := hostChar_spec (hn c hc)
    have hsub : ['%', '?', '#', '/', '@', '['] ⊆ ['%', '?', '#', '/', '@', ':', '['] := by decide
    exact ⟨fun hm => hs.2.2.1 (hsub hm), hs.2.2.2⟩
  · rcases validOptionalPort_mem hp hc with rfl | hd
    · decide
    · have hl : ∀ d ∈ ['%', '?', '#', '/', '@', '['], d.isDigit = false := by decide
      have := (isDigit_iff c).1 hd
      exact ⟨fun hm => absurd hd (by simp [hl c hm]), by omega⟩

theorem parseHost_hostPort {host : List Char} (hh : IsHostPort host) :
    parseHost host = .ok host := by
  obtain ⟨name, port, rfl, hn, hp⟩ := hh
  rcases port with _ | ⟨c, ds⟩
  · rw [List.append_nil]; exact parseHost_plain hn
  by_cases hc : c = ':'
  swap
  · simp [validOptionalPort, hc] at hp
  subst hc
  have hd : ∀ d ∈ ds, d.isDigit := List.all_eq_true.1 hp
  have hcol : ':' ∉ ds := fun hm => absurd (hd _ hm) (by decide)
  have hbr : (name ++ ':' :: ds).head? ≠ some '[' := by
    cases name with
    | nil => simp
    | cons x _ =>
      simpa using fun he => (hostChar_spec (hn x (by simp))).2.2.1 (by simp [he])
  have hun : unescape encodeHost (name ++ ':' :: ds) = .ok (name ++ ':' :: ds) := by
    refine unescape_eq_self fun x hx => ?_
    rcases List.mem_append.1 hx with hx | hx | ⟨_, hx⟩
    · have hs := hostChar_spec (hn x hx)
      exact ⟨fun he => hs.2.2.1 (by simp [he]), hs.1⟩
    · exact ⟨by decide, by decide⟩
    · have hdig := hd x hx
      exact ⟨fun he => absurd (he ▸ hdig) (by decide), if_pos (by simp [Char.isAlphanum, hdig])⟩
  simp only [parseHost, hbr, if_false, cutLast_append hcol, hp, Bool.not_true,
    Bool.false_eq_true, hun]

theorem parseAuthority_hostPort {host : List Char} (hh : IsHostPort host) :
    parseAuthority host = .ok (none, host) := by
  have hat : '@' ∉ host := fun hm => (hh.mem hm).1 (by simp)
  simp only [parseAuthority, cutLast_eq_none hat, parseHost_hostPort hh]
  rfl

theorem IsHostPort.indexOf_slash {host : List Char} (hh : IsHostPort host) (p : List Char) :
    (host ++ '/' :: p).indexOf '/' = host.length := by
  rw [List.indexOf_append_of_not_mem (fun hm => (hh.mem hm).1 (by simp)),
    List.indexOf_cons_self, Nat.add_zero]

theorem IsHostPort.query_not_mem {host p : List Char} (hh : IsHostPort host)
    (hq : '?' ∉ '/' :: p) : '?' ∉ '/' :: '/' :: (host ++ '/' :: p) := by
  simp only [List.mem_cons, List.mem_append, not_or]
  exact ⟨by decide, by decide, fun hm => (hh.mem hm).1 (by simp), by decide,
    fun hm => hq (List.mem_cons_of_mem _ hm)⟩

theorem IsHostPort.http_any_ctl {host rest : List Char} (hh : IsHostPort host)
    (hctl : ∀ c ∈ rest, ¬(c.toNat < 32 ∨ c.toNat = 127)) :
    (['h', 't', 't', 'p', ':', '/', '/'] ++ (host ++ rest)).any
      (fun c => decide (c.toNat < 32 ∨ c.toNat = 127)) = false := by
  simp only [List.any_eq_false, List.mem_append, decide_eq_true_eq]
  rintro c (hc | hc | hc)
  · revert c; decide
  · exact (hh.mem hc).2
  · exact hctl c hc

theorem parse_http {host path : List Char} (hh : IsHostPort host) (hq : '?' ∉ path)
    (hctl : ∀ c ∈ path, ¬(c.toNat < 32 ∨ c.toNat = 127)) (hslash : path.head? = some '/') :
    parse (['h', 't', 't', 'p', ':', '/', '/'] ++ (host ++ path)) false =
      setPath { scheme := "http", host := String.mk host } path := by
  obtain ⟨p, rfl⟩ := List.head?_eq_some_iff.1 hslash
  have hq' := hh.query_not_mem hq
  have hstar : ['h', 't', 't', 'p', ':', '/', '/'] ++ (host ++ '/' :: p) ≠ ['*'] := nofun
  have hcond : ¬(('/' :: '/' :: (host ++ '/' :: p)).getLast? = some '?' ∧
      List.count '?' ('/' :: '/' :: (host ++ '/' :: p)) = 1) := by
    rw [List.count_eq_zero_of_not_mem hq']; omega
  have hlow : List.map Char.toLower ['h', 't', 't', 'p'] = ['h', 't', 't', 'p'] := rfl
  simp only [parse, hh.http_any_ctl hctl, Bool.false_eq_true, if_false, pure_bind, hstar,
    and_false, getScheme_http, ok_bind, hcond, cutFirst_eq_none hq', List.head?_cons, ne_eq,
    not_true_eq_false, hlow, List.cons_ne_nil, not_false_eq_true, true_or, List.take_succ_cons,
    List.take_zero, and_true, if_true, List.drop_succ_cons, List.drop_zero, hh.indexOf_slash p,
    List.take_left, List.drop_left, parseAuthority_hostPort hh]

theorem query_cond {l q : List Char} (hl : '?' ∉ l) :
    ((l ++ '?' :: q).getLast? = some '?' ∧ List.count '?' (l ++ '?' :: q) = 1) ↔ q = [] := by
  rw [List.count_append, List.count_eq_zero_of_not_mem hl, List.count_cons_self,
    Nat.zero_add, Nat.add_left_eq_self, List.count_eq_zero]
  constructor
  · rintro ⟨hl, hn⟩
    by_contra hne
    obtain ⟨x, xs, rfl⟩ := List.exists_cons_of_ne_nil hne
    rw [List.getLast?_append_of_ne_nil _ (List.cons_ne_nil _ _), List.getLast?_cons_cons,
      List.getLast?_eq_getLast _ (List.cons_ne_nil _ _)] at hl
    exact hn (Option.some.inj hl ▸ List.getLast_mem _)
  · rintro rfl
    exact ⟨List.getLast?_concat _, List.not_mem_nil _⟩

theorem query_triple (l q : List Char) :
    (if q = [] then ((l ++ '?' :: q).dropLast, true, []) else (l, false, q)) =
      (l, q.isEmpty, q) := by
  rcases q with _ | ⟨x, xs⟩
  · rw [if_pos rfl, List.dropLast_concat]; rfl
  · rw [if_neg (List.cons_ne_nil _ _)]; rfl

theorem parse_http_query {host path query : List Char} (hh : IsHostPort host) (hq : '?' ∉ path)
    (hctl : ∀ c ∈ path ++ query, ¬(c.toNat < 32 ∨ c.toNat = 127))
    (hslash : path.head? = some '/') :
    parse (['h', 't', 't', 'p', ':', '/', '/'] ++ (host ++ path ++ '?' :: query)) false =
      setPath
        { scheme := "http", host := String.mk host, forceQuery := query.isEmpty,
          rawQuery := String.mk query } path := by
  obtain ⟨p, rfl⟩ := List.head?_eq_some_iff.1 hslash
  have hpre := hh.query_not_mem hq
  have hc : (['h', 't', 't', 'p', ':', '/', '/'] ++ (host ++ '/' :: p ++ '?' :: query)).any
      (fun c => decide (c.toNat < 32 ∨ c.toNat = 127)) = false := by
    rw [List.append_assoc]
    refine hh.http_any_ctl fun c hc => ?_
    rcases List.mem_append.1 hc with hc | hc
    · exact hctl c (List.mem_append_left _ hc)
    rcases List.mem_cons.1 hc with rfl | hc
    · decide
    · exact hctl c (List.mem_append_right _ hc)
  have hstar : ['h', 't', 't', 'p', ':', '/', '/'] ++ (host ++ '/' :: p ++ '?' :: query) ≠ ['*'] :=
    nofun
  have hlow : List.map Char.toLower ['h', 't', 't', 'p'] = ['h', 't', 't', 'p'] := rfl
  have hrest : '/' :: '/' :: (host ++ '/' :: p ++ '?' :: query) =
      ('/' :: '/' :: (host ++ '/' :: p)) ++ '?' :: query := by simp
  simp only [parse, hc, Bool.false_eq_true, if_false, pure_bind, hstar, and_false,
    getScheme_http, ok_bind, hrest, query_cond hpre, cutFirst_append hpre, query_triple,
    List.head?_cons, ne_eq, not_true_eq_false, hlow, List.cons_ne_nil, not_false_eq_true, true_or,
    List.take_succ_cons, List.take_zero, and_true, if_true, List.drop_succ_cons, List.drop_zero,
    hh.indexOf_slash p, List.take_left, List.drop_left, parseAuthority_hostPort hh]

theorem parse_http_split {host a : List Char} (hh : IsHostPort host)
    (hslash : a.head? = some '/') :
    parse (['h', 't', 't', 'p', ':', '/', '/'] ++ (host ++ a)) false =
      if ∃ c ∈ a, c.toNat < 32 ∨ c.toNat = 127 then
        .error "net/url: invalid control character in URL"
      else
        let qs := ((cutFirst '?' a).map fun bq => (bq.1, bq.2.isEmpty, bq.2)).getD (a, false, [])
        setPath
          { scheme := "http", host := String.mk host, forceQuery := qs.2.1,
            rawQuery := String.mk qs.2.2 } qs.1 := by
  split_ifs with hc
  · have hany : (['h', 't', 't', 'p', ':', '/', '/'] ++ (host ++ a)).any
        (fun c => decide (c.toNat < 32 ∨ c.toNat = 127)) = true := by
      obtain ⟨c, hm, h⟩ := hc
      exact List.any_eq_true.2 ⟨c, by simp [hm], by simpa using h⟩
    simp only [parse, hany, if_true]
    rfl
  have hc' : ∀ c ∈ a, ¬(c.toNat < 32 ∨ c.toNat = 127) := fun c hm h => hc ⟨c, hm, h⟩
  rcases hq : cutFirst '?' a with _ | ⟨b, q⟩
  · exact parse_http hh (cutFirst_eq_none_iff.1 hq) hc' hslash
  · obtain ⟨rfl, hb⟩ := cutFirst_eq_some hq
    rw [← List.append_assoc host]
    exact parse_http_query hh hb (fun c hm => hc' c (List.mem_append.2
      ((List.mem_append.1 hm).imp id (List.mem_cons_of_mem _))))
      (head?_of_append_cons (by decide) hslash)

theorem parse_plain {host path : List Char} (hh : ∀ c ∈ host, isHostChar c)
    (hp : ∀ c ∈ path, isPathChar c) (hslash : path.head? = some '/') :
    parse (['h', 't', 't', 'p', ':', '/', '/'] ++ (host ++ path)) false =
      .ok { scheme := "http", host := String.mk host, path := String.mk path } := by
  have hsp := fun c hc => pathChar_spec (hp c hc)
  rw [parse_http ⟨host, [], (List.append_nil _).symm, hh, rfl⟩ (fun hm => (hsp _ hm).2.1 (by simp))
    (fun c hc => (hsp c hc).2.2) hslash, setPath_plain _ hp]

theorem urlParse_plain {host path : String} (hhost : host.toList.all isHostChar)
    (hpath : path.toList.all isPathChar) (hslash : path.toList.head? = some '/') :
    urlParse ("http://" ++ host ++ path) =
      .ok { scheme := "http", host := host, path := path } := by
  have hh := List.all_eq_true.1 hhost
  have hp := List.all_eq_true.1 hpath
  have hraw : ("http://" ++ host ++ path).toList =
      ['h', 't', 't', 'p', ':', '/', '/'] ++ (host.toList ++ path.toList) := rfl
  have hfrag : '#' ∉ ['h', 't', 't', 'p', ':', '/', '/'] ++ (host.toList ++ path.toList) := by
    simp only [List.mem_append, not_or]
    exact ⟨by decide, fun hm => (hostChar_spec (hh _ hm)).2.2.1 (by simp),
      fun hm => (pathChar_spec (hp _ hm)).2.1 (by simp)⟩
  simp only [urlParse, hraw, cutFirst_eq_none hfrag, parse_plain hh hp hslash, if_true]
  rfl

theorem urlParse_toOption (raw : String) :
    (urlParse raw).toOption =
      let cut := (cutFirst '#' raw.toList).getD (raw.toList, [])
      (parse cut.1 false >>= fun url =>
        if cut.2 = [] then pure url else setFragment url cut.2).toOption := by
  unfold urlParse
  rcases cutFirst '#' raw.toList with _ | ⟨u, frag⟩ <;> dsimp only [Option.getD] <;>
    rcases parse _ false with e | url <;> try rfl
  all_goals
    dsimp only [bind, Except.bind, pure, Except.pure]
    split_ifs
    · rfl
    · rcases setFragment url _ with _ | _ <;> rfl

/-- What `url.Parse` reads from `http://`, a host with an optional port and a path: the
path is cut at its first `#`, the part before it at its first `?`; a control byte before the
`#` is an error, the path part is unescaped as the path and the part after the `#` as the
fragment. -/
theorem urlParse_http {host p : List Char} (hh : IsHostPort host) (hslash : p.head? = some '/') :
    (urlParse ("http://" ++ String.mk host ++ String.mk p)).toOption =
      let cut := (cutFirst '#' p).getD (p, [])
      let qs := ((cutFirst '?' cut.1).map fun bq => (bq.1, bq.2.isEmpty, bq.2)).getD
        (cut.1, false, [])
      if ∃ c ∈ cut.1, c.toNat < 32 ∨ c.toNat = 127 then none
      else
        (setPath
            { scheme := "http", host := String.mk host, forceQuery := qs.2.1,
              rawQuery := String.mk qs.2.2 } qs.1 >>= fun url =>
          if cut.2 = [] then pure url else setFragment url cut.2).toOption := by
  have hpre : '#' ∉ ['h', 't', 't', 'p', ':', '/', '/'] ++ host := by
    simp only [List.mem_append, not_or]
    exact ⟨by decide, fun hm => (hh.mem hm).1 (by simp)⟩
  have ha : ((cutFirst '#' p).getD (p, [])).1.head? = some '/' := by
    rcases hc : cutFirst '#' p with _ | ⟨a, f⟩
    · exact hslash
    · obtain ⟨rfl, -⟩ := cutFirst_eq_some hc
      exact head?_of_append_cons (by decide) hslash
  have hraw : ("http://" ++ String.mk host ++ String.mk p).toList =
      (['h', 't', 't', 'p', ':', '/', '/'] ++ host) ++ p := rfl
  rw [urlParse_toOption]
  dsimp only
  rw [hraw, cutFirst_getD_append hpre, List.append_assoc, parse_http_split hh ha]
  split_ifs <;> rfl

theorem getScheme_slash (rest : List Char) :
    getScheme ('/' :: rest) = .ok ([], '/' :: rest) := by
  simp [getScheme, getSchemeLoop]

theorem getScheme_of_head {raw : List Char} (h : raw.head? = some '/') :
    getScheme raw = .ok ([], raw) := by
  obtain ⟨rest, rfl⟩ := List.head?_eq_some_iff.1 h
  exact getScheme_slash rest

/-- `parse` of an origin-form request target `path?query`, as `net/http` reads it: the
path and the raw query, nothing else. -/
theorem parse_origin_form {path query : List Char} (hp : ∀ c ∈ path, isPathChar c)
    (hslash : path.head? = some '/') (hq : ∀ c ∈ query, isPathChar c) (hne : query ≠ []) :
    parse (path ++ '?' :: query) true =
      .ok { path := String.mk path, rawQuery := String.mk query } := by
  have hsp := fun c hc => pathChar_spec (hp c hc)
  have hsq := fun c hc => pathChar_spec (hq c hc)
  obtain ⟨p, rfl⟩ := List.head?_eq_some_iff.1 hslash
  have hqp : '?' ∉ '/' :: p := fun hm => (hsp _ hm).2.1 (by simp)
  have hqq : '?' ∉ query := fun hm => (hsq _ hm).2.1 (by simp)
  have hctl : ('/' :: (p ++ '?' :: query)).any
      (fun c => decide (c.toNat < 32 ∨ c.toNat = 127)) = false := by
    simp only [List.any_eq_false, List.mem_append, List.mem_cons, decide_eq_true_eq]
    rintro c (hc | hc | hc | hc)
    · subst hc; decide
    · exact (hsp c (List.mem_cons_of_mem _ hc)).2.2
    · subst hc; decide
    · exact (hsq c hc).2.2
  have hlast : ('/' :: (p ++ '?' :: query)).getLast? ≠ some '?' := by
    obtain ⟨q, qs, rfl⟩ := List.exists_cons_of_ne_nil hne
    intro h
    rw [← List.cons_append, List.getLast?_append, List.getLast?_cons_cons,
      List.getLast?_eq_getLast _ (List.cons_ne_nil _ _)] at h
    exact hqq (Option.some.inj h ▸ List.getLast_mem _)
  have hcut : cutFirst '?' ('/' :: (p ++ '?' :: query)) = some ('/' :: p, query) :=
    cutFirst_append hqp
  have hstar : '/' :: (p ++ '?' :: query) ≠ ['*'] := by simp
  simp only [parse, List.cons_append, hctl, Bool.false_eq_true, if_false, pure_bind,
    List.cons_ne_nil, false_and, getScheme_slash, ok_bind, hlast, hcut, hstar,
    List.head?_cons, ne_eq, not_true_eq_false, List.map_nil, Bool.not_true, false_or,
    setPath_plain _ hp]

theorem parseRequestURI_origin_form {path query : String} (hpath : path.toList.all isPathChar)
    (hslash : path.toList.head? = some '/') (hquery : query.toList.all isPathChar)
    (hne : query ≠ "") :
    parseRequestURI (path ++ "?" ++ query) = .ok { path := path, rawQuery := query } := by
  have hraw : (path ++ "?" ++ query).toList = path.toList ++ '?' :: query.toList := by
    simp [String.toList, String.append]
  have hq : query.toList ≠ [] := fun h => hne (String.ext h)
  simp only [parseRequestURI, hraw, parse_origin_form (List.all_eq_true.1 hpath) hslash
    (List.all_eq_true.1 hquery) hq]
  rfl

theorem parseRequestURI_path {t : List Char} (hslash : t.head? = some '/') (hq : '?' ∉ t)
    (hctl : ∀ c ∈ t, ¬(c.toNat < 32 ∨ c.toNat = 127)) :
    parseRequestURI (String.mk t) =
      (setPath {} t).mapError fun e => "parse \"" ++ String.mk t ++ "\": " ++ e := by
  obtain ⟨p, rfl⟩ := List.head?_eq_some_iff.1 hslash
  have hc : ('/' :: p).any (fun c => decide (c.toNat < 32 ∨ c.toNat = 127)) = false := by
    simpa only [List.any_eq_false, decide_eq_true_eq] using hctl
  have hlast : ¬(('/' :: p).getLast? = some '?' ∧ List.count '?' ('/' :: p) = 1) := by
    rw [List.count_eq_zero_of_not_mem hq]; omega
  have hstar : '/' :: p ≠ ['*'] := by simp
  simp only [parseRequestURI, parse, String.toList, hc, Bool.false_eq_true, if_false, pure_bind,
    List.cons_ne_nil, false_and, getScheme_slash, ok_bind, hlast, cutFirst_eq_none hq, hstar,
    List.head?_cons, ne_eq, not_true_eq_false, List.map_nil, Bool.not_true, false_or]
  split <;> rename_i h <;> rw [h] <;> rfl

theorem parseRequestURI_query {tp q : List Char} (hslash : tp.head? = some '/') (htp : '?' ∉ tp)
    (hctl : ∀ c ∈ tp ++ '?' :: q, ¬(c.toNat < 32 ∨ c.toNat = 127)) :
    parseRequestURI (String.mk (tp ++ '?' :: q)) =
      (setPath { forceQuery := q.isEmpty, rawQuery := String.mk q } tp).mapError
        fun e => "parse \"" ++ String.mk (tp ++ '?' :: q) ++ "\": " ++ e := by
  have hc : (tp ++ '?' :: q).any (fun c => decide (c.toNat < 32 ∨ c.toNat = 127)) = false := by
    simpa only [List.any_eq_false, decide_eq_true_eq] using hctl
  have hhead : (tp ++ '?' :: q).head? = some '/' := by
    obtain ⟨p, rfl⟩ := List.head?_eq_some_iff.1 hslash; rfl
  have hstar : tp ++ '?' :: q ≠ ['*'] := fun h => by rw [h] at hhead; cases hhead
  simp only [parseRequestURI, parse, String.toList, hc, Bool.false_eq_true, if_false, pure_bind,
    List.append_eq_nil, List.cons_ne_nil, and_false, false_and, hstar, getScheme_of_head hhead,
    ok_bind, query_cond htp, cutFirst_append htp, query_triple, hslash, ne_eq, not_true_eq_false,
    List.map_nil, Bool.not_true, false_or]
  split <;> rename_i h <;> rw [h] <;> rfl

end Smokescreen.Go
