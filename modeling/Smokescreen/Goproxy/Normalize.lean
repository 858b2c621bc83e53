import Smokescreen.Goproxy.ServeHttp

/-! The normalisation at the head of `ServeHTTP` (lines 249-262) on the request `net/http`
hands it. `r.URL.Path` is the path part of the request target, before any `?`, with its
escapes already decoded; for a relative target the proxy prints that path after `http://`
and `Host` and parses it again with `url.Parse`, so the client's path is read as a URL a
second time. -/

namespace Smokescreen.Goproxy
open Go Encoding
variable {U : Type}

theorem unescape_head_slash {t p : List Char} (h : unescape encodePath t = .ok p)
    (hslash : t.head? = some '/') : p.head? = some '/' := by
  obtain ⟨t, rfl⟩ := List.head?_eq_some_iff.1 hslash
  rw [unescape.eq_5 encodePath '/' t (fun _ _ _ h => by cases h) (by decide) (by decide),
    if_neg (by decide)] at h
  cases e : unescape encodePath t with
  | error _ => rw [e] at h; cases h
  | ok q => rw [e] at h; cases h; rfl

theorem setPath_of_unescape {t p : List Char} (h : unescape encodePath t = .ok p) (u : Url) :
    setPath u t = .ok { u with
      path := String.mk p
      rawPath := if t = escape encodePath p then "" else String.mk t } := by
  show unescape encodePath t >>= _ = _
  rw [h]
  rfl

theorem normalize_eq_of_urlParse {r : Request} {u : Url} {X : Except String Url}
    (hu : r.url = some u) (habs : u.isAbs = false) (hne : r.host ≠ "")
    (h : (urlParse ("http://" ++ r.host ++ u.path)).toOption = X.toOption) :
    normalize r =
      (X.mapError fun _ => "r.URL.Path on a nil URL").map
        fun url => { r with url := some url } := by
  simp only [normalize, hu, habs, Bool.false_eq_true, if_false, hne]
  rcases e : urlParse ("http://" ++ r.host ++ u.path) with _ | url <;> rw [e] at h <;>
    cases X <;> cases h <;> rfl

theorem parseRequestURI_decoded {tp rest p1 : List Char} (hslash : tp.head? = some '/')
    (htp : '?' ∉ tp) (hrest : rest = [] ∨ rest.head? = some '?')
    (htc : ∀ c ∈ tp ++ rest, ¬(c.toNat < 32 ∨ c.toNat = 127))
    (h1 : unescape encodePath tp = .ok p1) :
    ∃ u, parseRequestURI (String.mk (tp ++ rest)) = .ok u ∧ u.scheme = "" ∧
      u.path = String.mk p1 := by
  rcases hrest with rfl | hq
  · rw [List.append_nil] at htc ⊢
    exact ⟨_, by rw [parseRequestURI_path hslash htp htc, setPath_of_unescape h1]; rfl, rfl, rfl⟩
  · obtain ⟨q, rfl⟩ := List.head?_eq_some_iff.1 hq
    exact ⟨_, by rw [parseRequestURI_query hslash htp htc, setPath_of_unescape h1]; rfl, rfl, rfl⟩

/-- A relative target is decoded twice: `net/http` unescapes its path part into
`r.URL.Path`, and the proxy prints that path after `http://` and `Host` and parses it
again. The decoded path is cut at its first `#` (a client's `%23`), the part after it
becoming the fragment; the part before it is cut at its first `?` (a `%3F`), the part after
that becoming the query; what is left is unescaped a second time. A control byte before the
`#` (a `%0A`, say), or an escape that does not decode the second time, is the nil-URL
panic. -/
theorem normalize_reparses_decoded_path {tp rest p1 : List Char} {host : String}
    (hh : IsHostPort host.toList) (hne : host ≠ "") (hslash : tp.head? = some '/')
    (htp : '?' ∉ tp) (hrest : rest = [] ∨ rest.head? = some '?')
    (htc : ∀ c ∈ tp ++ rest, ¬(c.toNat < 32 ∨ c.toNat = 127))
    (h1 : unescape encodePath tp = .ok p1) (method : String) (header : Header) :
    ∃ u, parseRequestURI (String.mk (tp ++ rest)) = .ok u ∧ u.path = String.mk p1 ∧
      let cut := (cutFirst '#' p1).getD (p1, [])
      let qs := ((cutFirst '?' cut.1).map fun bq => (bq.1, bq.2.isEmpty, bq.2)).getD
        (cut.1, false, [])
      normalize ⟨method, some u, host, header, String.mk (tp ++ rest)⟩ =
        if ∃ c ∈ cut.1, c.toNat < 32 ∨ c.toNat = 127 then .error "r.URL.Path on a nil URL"
        else
          ((setPath
              { scheme := "http", host := host, forceQuery := qs.2.1,
                rawQuery := String.mk qs.2.2 } qs.1 >>= fun url =>
            if cut.2 = [] then pure url else setFragment url cut.2).mapError
              fun _ => "r.URL.Path on a nil URL").map
            fun url => ⟨method, some url, host, header, String.mk (tp ++ rest)⟩ := by
  obtain ⟨u, hu, hs, hp⟩ := parseRequestURI_decoded hslash htp hrest htc h1
  refine ⟨u, hu, hp, ?_⟩
  have habs : u.isAbs = false := by simp [Url.isAbs, hs]
  have h : (urlParse ("http://" ++ host ++ u.path)).toOption =
      (urlParse ("http://" ++ String.mk host.toList ++ String.mk p1)).toOption := by
    rw [hp]
    rfl
  rw [urlParse_http hh (unescape_head_slash h1 hslash)] at h
  dsimp only at h ⊢
  by_cases hc : ∃ c ∈ ((cutFirst '#' p1).getD (p1, [])).1, c.toNat < 32 ∨ c.toNat = 127
  · rw [if_pos hc] at h ⊢
    exact normalize_eq_of_urlParse (X := .error "") rfl habs hne h
  · rw [if_neg hc] at h ⊢
    exact normalize_eq_of_urlParse rfl habs hne h

/-- The client asks for `/a%23b%3Fc`: the proxy forwards a request for `/a` with fragment
`b?c` and no query. -/
theorem normalize_reparses_decoded_path_escaped_hash :
    ∃ u, parseRequestURI "/a%23b%3Fc" = .ok u ∧ u.path = "/a#b?c" ∧
      normalize ⟨"GET", some u, "example.com", .empty, "/a%23b%3Fc"⟩ =
        .ok ⟨"GET",
          some { scheme := "http", host := "example.com", path := "/a", fragment := "b?c" },
          "example.com", .empty, "/a%23b%3Fc"⟩ := by
  obtain ⟨u, h1, h2, h3⟩ := @normalize_reparses_decoded_path "/a%23b%3Fc".toList []
    "/a#b?c".toList "example.com" ⟨"example.com".toList, [], rfl, by decide, rfl⟩ (by decide)
    rfl (by decide) (.inl rfl) (by decide) (by decide) "GET" .empty
  exact ⟨u, h1, h2, h3.trans (by decide)⟩

theorem urlParse_error_of_control {l p : List Char} (hl : '#' ∉ l)
    (hctl : ∃ c ∈ ((cutFirst '#' p).getD (p, [])).1, c.toNat < 32 ∨ c.toNat = 127) :
    (urlParse (String.mk (l ++ p))).toOption = none := by
  have hany : (l ++ ((cutFirst '#' p).getD (p, [])).1).any
      (fun c => decide (c.toNat < 32 ∨ c.toNat = 127)) = true := by
    obtain ⟨c, hm, h⟩ := hctl
    exact List.any_eq_true.2 ⟨c, List.mem_append_right _ hm, by simpa using h⟩
  rw [urlParse_toOption]
  simp only [String.toList, cutFirst_getD_append hl, parse, hany, if_true]
  rfl

/-- A control byte the client escapes in the path part of a relative target (`%0A`, say)
passes `net/http`, which checks only the raw bytes, and then makes the handler panic,
whatever query follows: the decoded path is parsed again after `http://` and `Host`, and
`url.Parse` rejects a control byte before its first `#`. No response is written and nothing
is forwarded. -/
theorem serveHTTP_panics_on_escaped_control (proxy : ProxyHttpServer U) (w : ResponseWriter)
    {tp rest p1 : List Char} {host : String} (hne : host ≠ "") (hh : '#' ∉ host.toList)
    (hslash : tp.head? = some '/') (htp : '?' ∉ tp) (hrest : rest = [] ∨ rest.head? = some '?')
    (htc : ∀ c ∈ tp ++ rest, ¬(c.toNat < 32 ∨ c.toNat = 127))
    (h1 : unescape encodePath tp = .ok p1)
    (hctl : ∃ c ∈ ((cutFirst '#' p1).getD (p1, [])).1, c.toNat < 32 ∨ c.toNat = 127)
    (method : String) (header : Header) (hm : method ≠ "CONNECT") :
    ∃ u, parseRequestURI (String.mk (tp ++ rest)) = .ok u ∧ u.path = String.mk p1 ∧
      ∃ what, (serveHTTP proxy w
          ⟨method, some u, host, header, String.mk (tp ++ rest)⟩).result = .panic what ∧
        (serveHTTP proxy w
          ⟨method, some u, host, header, String.mk (tp ++ rest)⟩).roundTrips = [] := by
  obtain ⟨u, hu, hs, hp⟩ := parseRequestURI_decoded hslash htp hrest htc h1
  have hl : '#' ∉ ['h', 't', 't', 'p', ':', '/', '/'] ++ host.toList := by
    simp only [List.mem_append, not_or]
    exact ⟨by decide, hh⟩
  have he : (urlParse ("http://" ++ host ++ u.path)).toOption = (Except.error "").toOption := by
    rw [hp]
    exact urlParse_error_of_control hl hctl
  have hn := normalize_eq_of_urlParse (r := ⟨method, some u, host, header, String.mk (tp ++ rest)⟩)
    rfl (by simp [Url.isAbs, hs]) hne he
  refine ⟨u, hu, hp, "r.URL.Path on a nil URL", ?_⟩
  simp [serveHTTP, hm, hn, Except.mapError, Except.map]

/-- `GET /a%0A?x=1` with a `Host`: an escaped newline in the path, and a query. -/
theorem serveHTTP_panics_on_escaped_newline :
    ∃ u, parseRequestURI "/a%0A?x=1" = .ok u ∧ u.path = "/a\n" ∧
      ∃ what, (serveHTTP directProxy .init
          ⟨"GET", some u, "example.com", .empty, "/a%0A?x=1"⟩).result = .panic what ∧
        (serveHTTP directProxy .init
          ⟨"GET", some u, "example.com", .empty, "/a%0A?x=1"⟩).roundTrips = [] :=
  @serveHTTP_panics_on_escaped_control Unit directProxy .init "/a%0A".toList "?x=1".toList
    "/a\n".toList "example.com" (by decide) (by decide) rfl (by decide) (.inr rfl) (by decide)
    (by decide) ⟨'\n', by decide, by decide⟩ "GET" .empty (by decide)

end Smokescreen.Goproxy
