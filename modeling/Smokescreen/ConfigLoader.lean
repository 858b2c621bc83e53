import Smokescreen.Go.Strconv

/-! `Config.UnmarshalYAML` from `config_loader.go`. `NewConfig` and the setters it calls
(`SetDenyRanges`, `SetupStatsd`, `SetupTls`, ...) are defined outside this repository's
files: they are parameters, each acting on the part of the `Config` this file never
names and each free to fail. `c.Log.Fatal` logs and exits the process, so it ends the
load as an outcome of its own. -/

namespace Smokescreen.ConfigLoader
open Go

structure YamlConfigTls where
  certFile : String
  keyFile : String
  clientCAFiles : List String
  crlFiles : List String

/-- `yamlConfig`, as the YAML decoder fills it; `none` is a nil pointer. -/
structure YamlConfig where
  ip : String
  port : Option Nat
  denyRanges : List String
  allowRanges : List String
  resolvers : List String
  connectTimeout : Int
  exitTimeout : Option Int
  statsdAddress : String
  egressAclFile : String
  supportProxyProtocol : Bool
  denyMessageExtra : String
  allowMissingRole : Bool
  statsSocketDir : String
  statsSocketFileMode : String
  tls : Option YamlConfigTls

/-- A `Config`: the fields `UnmarshalYAML` assigns, and `rest` for those only the
setters touch. -/
@[ext]
structure Config (σ : Type) where
  ip : String
  port : Nat
  connectTimeout : Int
  exitTimeout : Int
  supportProxyProtocol : Bool
  statsSocketDir : String
  statsSocketFileMode : Nat
  allowMissingRole : Bool
  additionalErrorMessageOnDeny : String
  rest : σ

/-- `NewConfig` and the setters, from outside the repository's files. -/
structure Methods (σ : Type) where
  newConfig : Config σ
  setDenyRanges : σ → List String → Except String σ
  setAllowRanges : σ → List String → Except String σ
  setResolverAddresses : σ → List String → Except String σ
  setupStatsd : σ → String → Except String σ
  setupEgressAcl : σ → String → Except String σ
  setupTls : σ → String → String → List String → Except String σ
  setupCrls : σ → List String → σ

inductive LoadError
  | returned (msg : String)
  | fatal (err : NumError)
  deriving DecidableEq, Repr

variable {σ : Type}

/-- A setter's error, returned by `UnmarshalYAML` as it is. -/
def Config.update (c : Config σ) (r : Except String σ) : Except LoadError (Config σ) :=
  match r with
  | .ok s => .ok { c with rest := s }
  | .error e => .error (.returned e)

/-- `os.FileMode(filemode)`: the int64 truncated to a uint32. -/
def fileMode (v : Int) : Nat := (v % 2 ^ 32).toNat

/-- The `stats_socket_file_mode` step: parse in base 8 with bit size 9, or `Fatal`. -/
def setStatsSocketFileMode (c : Config σ) (s : String) : Except LoadError (Config σ) :=
  if s ≠ "" then
    match parseInt s 8 9 with
    | (_, some err) => .error (.fatal err)
    | (filemode, none) => .ok { c with statsSocketFileMode := fileMode filemode }
  else .ok c

def setTls (m : Methods σ) (c : Config σ) : Option YamlConfigTls → Except LoadError (Config σ)
  | none => .ok c
  | some tls =>
    if tls.certFile = "" then .error (.returned "'tls' section requires 'cert_file'")
    else
      let keyFile := if tls.keyFile = "" then tls.certFile else tls.keyFile
      match m.setupTls c.rest tls.certFile keyFile tls.clientCAFiles with
      | .ok s => .ok { c with rest := m.setupCrls s tls.crlFiles }
      | .error e => .error (.returned e)

/-- Lines 46-95 of `UnmarshalYAML`: `NewConfig`, then the fields and setters before
`stats_socket_file_mode`. -/
def setFields (m : Methods σ) (yc : YamlConfig) : Except LoadError (Config σ) := do
  let c := { m.newConfig with ip := yc.ip }
  let c := match yc.port with
    | some p => { c with port := p }
    | none => c
  let c ← c.update (m.setDenyRanges c.rest yc.denyRanges)
  let c ← c.update (m.setAllowRanges c.rest yc.allowRanges)
  let c ← c.update (m.setResolverAddresses c.rest yc.resolvers)
  let c := { c with connectTimeout := yc.connectTimeout }
  let c := match yc.exitTimeout with
    | some t => { c with exitTimeout := t }
    | none => c
  let c ← c.update (m.setupStatsd c.rest yc.statsdAddress)
  let c ← (if yc.egressAclFile ≠ "" then c.update (m.setupEgressAcl c.rest yc.egressAclFile)
    else pure c)
  let c := { c with supportProxyProtocol := yc.supportProxyProtocol }
  pure (if yc.statsSocketDir ≠ "" then { c with statsSocketDir := yc.statsSocketDir } else c)

def unmarshalYAML (m : Methods σ) (unmarshal : Except String YamlConfig) :
    Except LoadError (Config σ) := do
  let yc ← unmarshal.mapError .returned
  let c ← setFields m yc
  let c ← setStatsSocketFileMode c yc.statsSocketFileMode
  let c ← setTls m c yc.tls
  pure { c with
    allowMissingRole := yc.allowMissingRole
    additionalErrorMessageOnDeny := yc.denyMessageExtra }

/-- The setters `UnmarshalYAML` calls on the part of the `Config` they own, in its order:
those of lines 46-95, then the `tls` section's once it has a `cert_file`. -/
def fieldSetters (m : Methods σ) (yc : YamlConfig) : Except String σ := do
  let s ← m.setDenyRanges m.newConfig.rest yc.denyRanges
  let s ← m.setAllowRanges s yc.allowRanges
  let s ← m.setResolverAddresses s yc.resolvers
  let s ← m.setupStatsd s yc.statsdAddress
  if yc.egressAclFile ≠ "" then m.setupEgressAcl s yc.egressAclFile else pure s

def tlsSetters (m : Methods σ) (s : σ) : Option YamlConfigTls → Except String σ
  | none => pure s
  | some tls => do
    let s ← m.setupTls s tls.certFile (if tls.keyFile = "" then tls.certFile else tls.keyFile)
      tls.clientCAFiles
    pure (m.setupCrls s tls.crlFiles)

def setterChain (m : Methods σ) (yc : YamlConfig) : Except String σ :=
  fieldSetters m yc >>= fun s => tlsSetters m s yc.tls

theorem bind_eq_ok {ε α β : Type} {x : Except ε α} {f : α → Except ε β} {b : β} :
    x >>= f = .ok b ↔ ∃ a, x = .ok a ∧ f a = .ok b := by
  cases x <;> simp [bind, Except.bind]

theorem bind_ne_ok {ε α β : Type} {x : Except ε α} {f : α → Except ε β}
    (h : ∀ a c, f a ≠ .ok c) (c : β) : x >>= f ≠ .ok c := by
  cases x with
  | error e => intro h'; cases h'
  | ok a => exact h a c

theorem setStatsSocketFileMode_600 (c : Config σ) :
    setStatsSocketFileMode c "600" = .error (.fatal (rangeError "ParseInt" "600")) := by
  have h : parseInt "600" 8 9 = (255, some (rangeError "ParseInt" "600")) := by decide
  simp [setStatsSocketFileMode, h]

theorem setStatsSocketFileMode_neg_one (c : Config σ) :
    setStatsSocketFileMode c "-1" = .ok { c with statsSocketFileMode := 4294967295 } := by
  have h : parseInt "-1" 8 9 = (-1, none) := by decide
  simp [setStatsSocketFileMode, h, fileMode]

/-- The permission mode `600` is never accepted, whatever the rest of the document: the
signed 9-bit parse reads it as out of range and `Fatal` ends the load. -/
theorem unmarshalYAML_rejects_mode_600 (m : Methods σ) (yc : YamlConfig) (c : Config σ) :
    unmarshalYAML m (.ok { yc with statsSocketFileMode := "600" }) ≠ .ok c := by
  show setFields m _ >>= (fun c => setStatsSocketFileMode c "600" >>= _) ≠ _
  refine bind_ne_ok (fun c' _ => ?_) c
  rw [setStatsSocketFileMode_600]
  nofun

/-! ## What a successful load holds -/

theorem update_eq {c c' : Config σ} {r : Except String σ} (h : c.update r = .ok c') :
    ∃ s, r = .ok s ∧ c' = { c with rest := s } := by
  unfold Config.update at h
  split at h <;> cases h
  exact ⟨_, rfl, rfl⟩

theorem setFields_eq {m : Methods σ} {yc : YamlConfig} {c : Config σ}
    (h : setFields m yc = .ok c) :
    ∃ s, fieldSetters m yc = .ok s ∧ c = { m.newConfig with
      ip := yc.ip
      port := yc.port.getD m.newConfig.port
      connectTimeout := yc.connectTimeout
      exitTimeout := yc.exitTimeout.getD m.newConfig.exitTimeout
      supportProxyProtocol := yc.supportProxyProtocol
      statsSocketDir :=
        if yc.statsSocketDir ≠ "" then yc.statsSocketDir else m.newConfig.statsSocketDir
      rest := s } := by
  unfold setFields at h
  obtain ⟨c1, h1, h⟩ := bind_eq_ok.1 h
  obtain ⟨c2, h2, h⟩ := bind_eq_ok.1 h
  obtain ⟨c3, h3, h⟩ := bind_eq_ok.1 h
  obtain ⟨c4, h4, h⟩ := bind_eq_ok.1 h
  obtain ⟨c5, h5, h⟩ := bind_eq_ok.1 h
  obtain ⟨s1, hs1, hr1⟩ := update_eq h1
  obtain ⟨s2, hs2, hr2⟩ := update_eq h2
  obtain ⟨s3, hs3, hr3⟩ := update_eq h3
  obtain ⟨s4, hs4, hr4⟩ := update_eq h4
  obtain ⟨s5, hs5, hr5⟩ : ∃ s5, (if yc.egressAclFile ≠ "" then m.setupEgressAcl c4.rest
      yc.egressAclFile else pure c4.rest) = .ok s5 ∧ c5 = { c4 with rest := s5 } := by
    split_ifs at h5 ⊢
    · exact update_eq h5
    · exact ⟨_, rfl, (Except.ok.inj h5).symm⟩
  have hs1' : m.setDenyRanges m.newConfig.rest yc.denyRanges = .ok s1 := by
    cases hp : yc.port <;> simpa [hp] using hs1
  have hs4' : m.setupStatsd s3 yc.statsdAddress = .ok s4 := by
    cases he : yc.exitTimeout <;> simpa [he, hr3] using hs4
  rw [hr1] at hs2
  rw [hr2] at hs3
  rw [hr4] at hs5
  cases Except.ok.inj h
  refine ⟨s5, ?_, ?_⟩
  · simp only [fieldSetters, hs1', hs2, hs3, hs4', hs5, bind, Except.bind]
  · split_ifs <;> ext <;> simp only [hr1, hr2, hr3, hr4, hr5] <;> cases yc.port <;>
      cases yc.exitTimeout <;> rfl

theorem setStatsSocketFileMode_eq {c c' : Config σ} {s : String}
    (h : setStatsSocketFileMode c s = .ok c') :
    c' = { c with statsSocketFileMode :=
      if s = "" then c.statsSocketFileMode else fileMode (parseInt s 8 9).1 } := by
  unfold setStatsSocketFileMode at h
  split_ifs at h with hs
  · split at h
    · cases h
    · rename_i v _ he
      cases h
      simp [hs, he]
  · cases h
    simp [not_not.1 hs]

theorem setTls_eq {m : Methods σ} {c c' : Config σ} {t : Option YamlConfigTls}
    (h : setTls m c t = .ok c') :
    ∃ s, tlsSetters m c.rest t = .ok s ∧ c' = { c with rest := s } := by
  unfold setTls at h
  split at h
  · cases h; exact ⟨c.rest, rfl, rfl⟩
  · rename_i tls
    by_cases hc : tls.certFile = ""
    · rw [if_pos hc] at h; cases h
    rw [if_neg hc] at h
    rcases hs : m.setupTls c.rest tls.certFile (if tls.keyFile = "" then tls.certFile else
      tls.keyFile) tls.clientCAFiles with e | s <;> simp only [hs] at h <;> cases h
    exact ⟨_, by rw [tlsSetters, hs]; rfl, rfl⟩

/-- A document that loads gives `NewConfig` with exactly the fields `UnmarshalYAML`
assigns replaced, and the rest as the setters' chain leaves it: a port or exit timeout the
document leaves out keeps `NewConfig`'s value (the nil pointer is "unset", not zero), as
does an empty socket directory or file mode. -/
theorem unmarshalYAML_fields (m : Methods σ) (yc : YamlConfig) (c : Config σ)
    (h : unmarshalYAML m (.ok yc) = .ok c) :
    ∃ s, setterChain m yc = .ok s ∧ c = { m.newConfig with
      ip := yc.ip
      port := yc.port.getD m.newConfig.port
      connectTimeout := yc.connectTimeout
      exitTimeout := yc.exitTimeout.getD m.newConfig.exitTimeout
      supportProxyProtocol := yc.supportProxyProtocol
      statsSocketDir :=
        if yc.statsSocketDir ≠ "" then yc.statsSocketDir else m.newConfig.statsSocketDir
      statsSocketFileMode :=
        if yc.statsSocketFileMode = "" then m.newConfig.statsSocketFileMode
        else fileMode (parseInt yc.statsSocketFileMode 8 9).1
      allowMissingRole := yc.allowMissingRole
      additionalErrorMessageOnDeny := yc.denyMessageExtra
      rest := s } := by
  obtain ⟨c1, h1, h⟩ := bind_eq_ok.1 (show setFields m yc >>= _ = _ from h)
  obtain ⟨c2, h2, h⟩ := bind_eq_ok.1 h
  obtain ⟨c3, h3, h⟩ := bind_eq_ok.1 h
  obtain ⟨s1, hs1, hr1⟩ := setFields_eq h1
  have hr2 := setStatsSocketFileMode_eq h2
  obtain ⟨s3, hs3, hr3⟩ := setTls_eq h3
  rw [hr2, hr1] at hs3
  cases Except.ok.inj h
  refine ⟨s3, by simp only [setterChain, hs1, hs3, bind, Except.bind], ?_⟩
  ext <;> simp only [hr1, hr2, hr3]

/-- `NewConfig` with port 4750 and exit timeout 60, and setters that accept anything. -/
def acceptingMethods : Methods Unit :=
  ⟨⟨"", 4750, 10, 60, false, "", 0, false, "", ()⟩, fun s _ => .ok s, fun s _ => .ok s,
    fun s _ => .ok s, fun s _ => .ok s, fun s _ => .ok s, fun s _ _ _ => .ok s, fun s _ => s⟩

example :
    ∃ c, unmarshalYAML acceptingMethods (.ok ⟨"127.0.0.1", none, [], [], [], 5, none, "", "",
      true, "", false, "", "", none⟩) = .ok c ∧ c.port = 4750 ∧ c.exitTimeout = 60 :=
  ⟨_, rfl, rfl, rfl⟩

/-- A mode written as octal digits is stored as the number they denote exactly when that
number is at most `0o377`: from `0o400` (owner read) up, the signed 9-bit parse reports a
range error and the load is fatal. -/
theorem setStatsSocketFileMode_octal (c : Config σ) {s : String} {ds : List Nat}
    (hds : s.toList.map digitVal = ds.map some) (hne : ds ≠ []) (h8 : ∀ d ∈ ds, d < 8) :
    setStatsSocketFileMode c s =
      if Nat.ofDigits 8 ds.reverse ≤ 0o377 then
        .ok { c with statsSocketFileMode := Nat.ofDigits 8 ds.reverse }
      else .error (.fatal (rangeError "ParseInt" s)) := by
  have hs : s ≠ "" := by
    rintro rfl
    exact hne (List.map_eq_nil_iff.1 hds.symm)
  simp only [setStatsSocketFileMode, ne_eq, hs, not_false_eq_true, if_true,
    parseInt_digits (show 2 ≤ 8 ∧ 8 ≤ 36 by decide) (show 2 ≤ 9 ∧ 9 ≤ 64 by decide) hs hds h8]
  by_cases hv : Nat.ofDigits 8 ds.reverse ≤ 0o377
  · have hmode :
        fileMode ((Nat.ofDigits 8 ds.reverse : Nat) : Int) = Nat.ofDigits 8 ds.reverse := by
      unfold fileMode; omega
    rw [if_pos (by omega), if_pos hv]
    simp only [hmode]
  · rw [if_neg (by omega), if_neg hv]

/-- The usual socket mode `644` is refused. -/
theorem setStatsSocketFileMode_octal_644 :
    setStatsSocketFileMode acceptingMethods.newConfig "644" =
      if Nat.ofDigits 8 [6, 4, 4].reverse ≤ 0o377 then
        .ok { acceptingMethods.newConfig with statsSocketFileMode := Nat.ofDigits 8 [6, 4, 4].reverse }
      else .error (.fatal (rangeError "ParseInt" "644")) :=
  setStatsSocketFileMode_octal _ (by decide) (by simp) (by decide)

/-- Every mode a non-empty `stats_socket_file_mode` can store is at most `0o377` or one of
the 256 largest 32-bit values (a negative number wrapped by `os.FileMode`), and nothing
else in the `Config` changes. -/
theorem setStatsSocketFileMode_stored_mode (c c' : Config σ) (s : String) (hs : s ≠ "")
    (h : setStatsSocketFileMode c s = .ok c') :
    c' = { c with statsSocketFileMode := c'.statsSocketFileMode } ∧
      (c'.statsSocketFileMode ≤ 0o377 ∨
        0xFFFFFF00 ≤ c'.statsSocketFileMode ∧ c'.statsSocketFileMode < 2 ^ 32) := by
  unfold setStatsSocketFileMode at h
  rw [if_pos hs] at h
  split at h
  · cases h
  · rename_i v he
    cases h
    have := parseInt_range (by decide) he
    exact ⟨rfl, by dsimp only; unfold fileMode; omega⟩

/-- Mode `-1` is stored as `0xFFFFFFFF`. -/
theorem setStatsSocketFileMode_stored_mode_neg_one :
    ∃ c', setStatsSocketFileMode acceptingMethods.newConfig "-1" = .ok c' ∧
      c' = { acceptingMethods.newConfig with statsSocketFileMode := c'.statsSocketFileMode } ∧
      (c'.statsSocketFileMode ≤ 0o377 ∨
        0xFFFFFF00 ≤ c'.statsSocketFileMode ∧ c'.statsSocketFileMode < 2 ^ 32) :=
  ⟨_, setStatsSocketFileMode_neg_one _,
    setStatsSocketFileMode_stored_mode _ _ "-1" (by decide) (setStatsSocketFileMode_neg_one _)⟩

/-! ## Where a failed load's error comes from -/

/-- Where an error of `UnmarshalYAML` on a decoded document `yc` comes from: a setter's
own error, returned as it is, from the setter given that field of `yc`; the `tls` section
with no `cert_file`; or the `Fatal` of a `stats_socket_file_mode` that `ParseInt` rejects. -/
inductive ErrorFrom (m : Methods σ) (yc : YamlConfig) : LoadError → Prop
  | setDenyRanges {s : σ} {msg : String} :
      m.setDenyRanges s yc.denyRanges = .error msg → ErrorFrom m yc (.returned msg)
  | setAllowRanges {s : σ} {msg : String} :
      m.setAllowRanges s yc.allowRanges = .error msg → ErrorFrom m yc (.returned msg)
  | setResolverAddresses {s : σ} {msg : String} :
      m.setResolverAddresses s yc.resolvers = .error msg → ErrorFrom m yc (.returned msg)
  | setupStatsd {s : σ} {msg : String} :
      m.setupStatsd s yc.statsdAddress = .error msg → ErrorFrom m yc (.returned msg)
  | setupEgressAcl {s : σ} {msg : String} : yc.egressAclFile ≠ "" →
      m.setupEgressAcl s yc.egressAclFile = .error msg → ErrorFrom m yc (.returned msg)
  | statsSocketFileMode {err : NumError} : yc.statsSocketFileMode ≠ "" →
      (parseInt yc.statsSocketFileMode 8 9).2 = some err → err.func = "ParseInt" →
      err.num = yc.statsSocketFileMode → ErrorFrom m yc (.fatal err)
  | missingCertFile {tls : YamlConfigTls} : yc.tls = some tls → tls.certFile = "" →
      ErrorFrom m yc (.returned "'tls' section requires 'cert_file'")
  | setupTls {tls : YamlConfigTls} {s : σ} {msg : String} : yc.tls = some tls →
      tls.certFile ≠ "" →
      m.setupTls s tls.certFile (if tls.keyFile = "" then tls.certFile else tls.keyFile)
        tls.clientCAFiles = .error msg → ErrorFrom m yc (.returned msg)

theorem bind_eq_error {ε α β : Type} {x : Except ε α} {f : α → Except ε β} {e : ε} :
    x >>= f = .error e ↔ x = .error e ∨ ∃ a, x = .ok a ∧ f a = .error e := by
  cases x <;> simp [bind, Except.bind]

theorem update_error {c : Config σ} {r : Except String σ} {e : LoadError}
    (h : c.update r = .error e) : ∃ msg, r = .error msg ∧ e = .returned msg := by
  unfold Config.update at h
  split at h <;> cases h
  exact ⟨_, rfl, rfl⟩

theorem setFields_error {m : Methods σ} {yc : YamlConfig} {e : LoadError}
    (h : setFields m yc = .error e) : ErrorFrom m yc e := by
  unfold setFields at h
  rcases bind_eq_error.1 h with h | ⟨_, -, h⟩
  · obtain ⟨msg, hm, rfl⟩ := update_error h; exact .setDenyRanges hm
  rcases bind_eq_error.1 h with h | ⟨_, -, h⟩
  · obtain ⟨msg, hm, rfl⟩ := update_error h; exact .setAllowRanges hm
  rcases bind_eq_error.1 h with h | ⟨_, -, h⟩
  · obtain ⟨msg, hm, rfl⟩ := update_error h; exact .setResolverAddresses hm
  rcases bind_eq_error.1 h with h | ⟨_, -, h⟩
  · obtain ⟨msg, hm, rfl⟩ := update_error h; exact .setupStatsd hm
  rcases bind_eq_error.1 h with h | ⟨_, -, h⟩
  · split_ifs at h with he
    · obtain ⟨msg, hm, rfl⟩ := update_error h; exact .setupEgressAcl he hm
    · cases h
  · cases h

theorem setStatsSocketFileMode_error {m : Methods σ} {yc : YamlConfig} {c : Config σ}
    {e : LoadError} (h : setStatsSocketFileMode c yc.statsSocketFileMode = .error e) :
    ErrorFrom m yc e := by
  unfold setStatsSocketFileMode at h
  split_ifs at h with hs
  split at h
  · rename_i err he
    cases h
    have hp : (parseInt yc.statsSocketFileMode 8 9).2 = some err := by rw [he]
    exact .statsSocketFileMode hs hp (parseInt_error hp).1 (parseInt_error hp).2
  · cases h

theorem setTls_error {m : Methods σ} {yc : YamlConfig} {c : Config σ} {e : LoadError}
    (h : setTls m c yc.tls = .error e) : ErrorFrom m yc e := by
  rcases ht : yc.tls with _ | tls
  · rw [ht] at h; cases h
  simp only [ht, setTls] at h
  by_cases hc : tls.certFile = ""
  · rw [if_pos hc] at h
    cases h
    exact .missingCertFile ht hc
  rw [if_neg hc] at h
  rcases hs : m.setupTls c.rest tls.certFile
    (if tls.keyFile = "" then tls.certFile else tls.keyFile) tls.clientCAFiles with msg | _
  · rw [hs] at h
    cases h
    exact .setupTls ht hc hs
  · rw [hs] at h
    cases h

/-- A load that fails either returns the YAML decoder's error or an error with a source
in the document: `UnmarshalYAML` makes up no error of its own beyond the missing
`cert_file`, passes each setter's error on unchanged, and a mode that does not parse ends
the process with the `ParseInt` error on the mode's own text. -/
theorem unmarshalYAML_error (m : Methods σ) (u : Except String YamlConfig) (e : LoadError)
    (h : unmarshalYAML m u = .error e) :
    (∃ msg, u = .error msg ∧ e = .returned msg) ∨ ∃ yc, u = .ok yc ∧ ErrorFrom m yc e := by
  rcases u with msg | yc
  · cases h; exact .inl ⟨msg, rfl, rfl⟩
  refine .inr ⟨yc, rfl, ?_⟩
  rcases bind_eq_error.1 (show setFields m yc >>= _ = _ from h) with h | ⟨_, -, h⟩
  · exact setFields_error h
  rcases bind_eq_error.1 h with h | ⟨_, -, h⟩
  · exact setStatsSocketFileMode_error h
  rcases bind_eq_error.1 h with h | ⟨_, -, h⟩
  · exact setTls_error h
  · cases h

example :
    unmarshalYAML acceptingMethods (.ok ⟨"", none, [], [], [], 0, none, "", "", false, "", false,
      "", "", some ⟨"", "key.pem", [], []⟩⟩) =
      .error (.returned "'tls' section requires 'cert_file'") :=
  rfl

end Smokescreen.ConfigLoader
