import Smokescreen.Goproxy.Filter
import Smokescreen.Go.Time

/-! `ProxyHttpServer.ServeHTTP` for a request that is not `CONNECT`, with `removeProxyHeaders`,
`http.Error` and the `net/http` response writer they write to. `handleHttps`, which serves
`CONNECT`, is outside the repository's files: of it only what it leaves in the session
counter is given. A run records what the handler's calls put on the connection and every
request handed to `Tr.DetailedRoundTrip`. A nil dereference, or a status code
`WriteHeader` refuses, is a panic: `net/http` recovers it and drops the connection, with
nothing more written. A handler that returns with no final status line sent (which happens
only after an informational code and an empty body) is followed by the `200` that
`net/http` sends when it finishes the request. Requests served one after another share only
the session counter. -/

namespace Smokescreen.Goproxy
open Go

inductive WriterEvent
  | interim (statusCode : Nat) (header : Header)
  | writeHeader (statusCode : Nat) (header : Header)
  | write (data : String)
  deriving DecidableEq

/-- The `*response` behind an `http.ResponseWriter`: the header map `Header()` returns,
whether the final status line went out and with which code, and what went out. -/
structure ResponseWriter where
  header : Header
  wroteHeader : Bool
  status : Nat
  events : List WriterEvent
  deriving DecidableEq

/-- The writer `net/http` hands a handler. -/
def ResponseWriter.init : ResponseWriter := ⟨.empty, false, 0, []⟩

def bodyAllowedForStatus (status : Nat) : Bool :=
  if 100 ≤ status ∧ status ≤ 199 then false
  else if status = 204 then false
  else if status = 304 then false
  else true

def ResponseWriter.writeStatus (w : ResponseWriter) (code : Nat) : ResponseWriter :=
  { w with wroteHeader := true, status := code, events := w.events ++ [.writeHeader code w.header] }

/-- `response.WriteHeader`: a call after the final status line is ignored before any
check; otherwise `checkWriteHeaderCode` panics on a code that is not three digits, and an
informational code other than `101` sends a status line of its own, with the header less
`Content-Length` and `Transfer-Encoding`, and leaves the final one to come. -/
def ResponseWriter.writeHeader (w : ResponseWriter) (code : Nat) :
    Except String ResponseWriter :=
  if w.wroteHeader then .ok w
  else if code < 100 ∨ code > 999 then .error ("invalid WriteHeader code " ++ toString code)
  else if code ≥ 100 ∧ code ≤ 199 ∧ code ≠ 101 then
    .ok { w with
      events :=
        w.events ++ [.interim code ((w.header.del "Content-Length").del "Transfer-Encoding")] }
  else .ok (w.writeStatus code)

/-- `response.Write` of a non-empty chunk: `WriteHeader(StatusOK)` first when no final
status went out, and no bytes sent for a status that allows no body. -/
def ResponseWriter.write (w : ResponseWriter) (data : String) : ResponseWriter :=
  let w := if w.wroteHeader then w else w.writeStatus 200
  if bodyAllowedForStatus w.status then { w with events := w.events ++ [.write data] } else w

/-- `io.Copy(w, body)`: it calls `Write` only when the body has bytes. -/
def ResponseWriter.ioCopy (w : ResponseWriter) (content : String) : ResponseWriter :=
  if content = "" then w else w.write content

namespace ResponseWriter

@[simp] theorem writeStatus_header (w : ResponseWriter) (code : Nat) :
    (w.writeStatus code).header = w.header := rfl

@[simp] theorem writeStatus_wroteHeader (w : ResponseWriter) (code : Nat) :
    (w.writeStatus code).wroteHeader = true := rfl

@[simp] theorem writeStatus_status (w : ResponseWriter) (code : Nat) :
    (w.writeStatus code).status = code := rfl

@[simp] theorem writeStatus_events (w : ResponseWriter) (code : Nat) :
    (w.writeStatus code).events = w.events ++ [.writeHeader code w.header] := rfl

@[simp] theorem ioCopy_header (w : ResponseWriter) (content : String) :
    (w.ioCopy content).header = w.header := by
  simp only [ioCopy, write]
  split_ifs <;> rfl

theorem ioCopy_writeStatus_events (w : ResponseWriter) (code : Nat) (content : String) :
    ((w.writeStatus code).ioCopy content).events = w.events ++ .writeHeader code w.header ::
      if content ≠ "" ∧ bodyAllowedForStatus code then [.write content] else [] := by
  unfold ioCopy write
  by_cases hc : content = "" <;> by_cases hb : bodyAllowedForStatus code <;> simp [hc, hb]

end ResponseWriter

/-- A code `WriteHeader` sends as the one final status line: three digits, and not
informational unless it is `101`. -/
def FinalStatus (code : Nat) : Prop := code = 101 ∨ 200 ≤ code ∧ code ≤ 999

instance : DecidablePred FinalStatus := fun _ => inferInstanceAs (Decidable (_ ∨ _))

theorem writeHeader_final {w : ResponseWriter} (hw : w.wroteHeader = false) (h : Header)
    {code : Nat} (hf : FinalStatus code) :
    ({ w with header := h } : ResponseWriter).writeHeader code =
      .ok (({ w with header := h } : ResponseWriter).writeStatus code) := by
  have h1 : ¬(code < 100 ∨ code > 999) := by rcases hf with rfl | hf <;> omega
  have h2 : ¬(code ≥ 100 ∧ code ≤ 199 ∧ code ≠ 101) := by rcases hf with rfl | hf <;> omega
  simp only [ResponseWriter.writeHeader, h1, h2, hw, if_false, Bool.false_eq_true]

/-- `http.Error`. -/
def httpError (w : ResponseWriter) (error : String) (code : Nat) : Except String ResponseWriter :=
  let h := (((w.header.del "Content-Length").set "Content-Type" "text/plain; charset=utf-8").set
    "X-Content-Type-Options" "nosniff")
  (({ w with header := h } : ResponseWriter).writeHeader code).map fun w => w.write (error ++ "\n")

theorem httpError_500 {w : ResponseWriter} (hw : w.wroteHeader = false) (msg : String) :
    ∃ w', httpError w msg 500 = .ok w' ∧
      w'.header = ((w.header.del "Content-Length").set "Content-Type"
        "text/plain; charset=utf-8").set "X-Content-Type-Options" "nosniff" ∧
      w'.events = w.events ++ [.writeHeader 500 w'.header, .write (msg ++ "\n")] := by
  refine ⟨_, by rw [httpError, writeHeader_final hw _ (.inr ⟨by decide, by decide⟩)]; rfl, rfl, ?_⟩
  simp [ResponseWriter.write, bodyAllowedForStatus]

/-- The part of `ProxyHttpServer` that `ServeHTTP` uses; `tr` is
`Tr.DetailedRoundTrip`, returning the response and the error, and `handleHttps` the session
counter that `handleHttps` leaves (goproxy's adds one to it). -/
structure ProxyHttpServer (U : Type) where
  sess : Int
  reqHandlers : List (ReqHandler U)
  respHandlers : List (RespHandler U)
  tr : Request → Option U → Option Response × Option GoError
  handleHttps : Int → Int

inductive Result
  | connect
  | panic (what : String)
  | served (w : ResponseWriter)
  deriving DecidableEq

def Result.ofWrites : Except String ResponseWriter → Result
  | .error what => .panic what
  | .ok w => .served w

/-- One call of `ServeHTTP`: its result, the session counter after it, and the requests
handed to the transport. -/
structure Run where
  result : Result
  sess : Int
  roundTrips : List Request

variable {U : Type}

def okResponse : Response := ⟨200, .empty, some ⟨0, "ok"⟩⟩

/-- A proxy with no handlers whose transport answers `200 OK`, and goproxy's `handleHttps`. -/
def directProxy : ProxyHttpServer Unit :=
  ⟨0, [], [], fun _ _ => (some okResponse, none), fun s => wrap (s + 1)⟩

/-- Lines 249-262: make a relative target absolute from `Host`; `.error` is the panic. -/
def normalize (r : Request) : Except String Request :=
  match r.url with
  | none => .error "r.URL.Path on a nil URL"
  | some u =>
    if u.isAbs then .ok r
    else if r.host = "" then .error "err.Error() on a nil error"
    else match urlParse ("http://" ++ r.host ++ u.path) with
      | .error _ => .error "r.URL.Path on a nil URL"
      | .ok url => .ok { r with url := some url }

def removeProxyHeaders (r : Request) : Except String Request :=
  match r.url with
  | none => .error "r.URL.String() on a nil URL"
  | some _ => .ok { r with
      requestURI := ""
      header := ((r.header.del "Accept-Encoding").del "Proxy-Connection").del "Connection" }

/-- Lines 279-298: the response handlers, then the headers, the status and the body. -/
def finish (proxy : ProxyHttpServer U) (w : ResponseWriter) (resp : Response)
    (ctx : ProxyCtx U) : Result :=
  let origBody := resp.body
  match filterResponse proxy.respHandlers (some resp) ctx with
  | (none, _) => .panic "resp.Status on a nil response"
  | (some resp, _) =>
    let header := if origBody ≠ resp.body then resp.header.del "Content-Length" else resp.header
    match ({ w with header := copyHeaders w.header header } : ResponseWriter).writeHeader
        resp.statusCode with
    | .error what => .panic what
    | .ok w =>
      match resp.body with
      | none => .panic "io.Copy from a nil resp.Body"
      | some body => .served (w.ioCopy body.content)

/-- Lines 264-278 once no handler has answered: the round trip, and on its error the
response handlers given a nil response. -/
def forward (proxy : ProxyHttpServer U) (w : ResponseWriter) (r : Request)
    (ctx : ProxyCtx U) : Result :=
  match proxy.tr r ctx.userData with
  | (_, some err) =>
    let ctx := { ctx with error := some err }
    match filterResponse proxy.respHandlers none ctx with
    | (none, _) => .ofWrites (httpError w err.msg 500)
    | (some resp, ctx) => finish proxy w resp ctx
  | (some resp, none) => finish proxy w resp ctx
  | (none, none) => .panic "resp.Status on a nil response"

def serveHTTP (proxy : ProxyHttpServer U) (w : ResponseWriter) (r : Request) : Run :=
  if r.method = "CONNECT" then ⟨.connect, proxy.handleHttps proxy.sess, []⟩
  else
    let sess := wrap (proxy.sess + 1)
    match normalize r with
    | .error p => ⟨.panic p, sess, []⟩
    | .ok r =>
      let ctx : ProxyCtx U := ⟨r, sess, none, none, none⟩
      match filterRequest proxy.reqHandlers r ctx with
      | (_, some resp, ctx) => ⟨finish proxy w resp ctx, sess, []⟩
      | (none, none, _) => ⟨.panic "r.RequestURI on a nil request", sess, []⟩
      | (some req, none, ctx) =>
        match removeProxyHeaders req with
        | .error p => ⟨.panic p, sess, []⟩
        | .ok req => ⟨forward proxy w req ctx, sess, [req]⟩

/-! ## Normalising the target -/

theorem normalize_error_of_unusable {r : Request} {u : Url} (hu : r.url = some u)
    (habs : u.isAbs = false)
    (hfail : r.host = "" ∨ (urlParse ("http://" ++ r.host ++ u.path)).isOk = false) :
    ∃ what, normalize r = .error what := by
  simp only [normalize, hu, habs, Bool.false_eq_true, if_false]
  split_ifs with hh
  · exact ⟨_, rfl⟩
  · rcases e : urlParse ("http://" ++ r.host ++ u.path) with _ | v
    · exact ⟨_, rfl⟩
    · simp [hh, e, Except.isOk, Except.toBool] at hfail

/-- A target that cannot be made absolute gets no error response: with no `Host` the
proxy calls `Error()` on its nil `err`, and when the re-rooted URL does not parse it reads
`Path` from the nil `r.URL`. Either way it panics before any round trip. -/
theorem serveHTTP_panics_on_unusable_target (proxy : ProxyHttpServer U) (w : ResponseWriter)
    (r : Request) (u : Url) (hm : r.method ≠ "CONNECT") (hu : r.url = some u)
    (habs : u.isAbs = false)
    (hfail : r.host = "" ∨ (urlParse ("http://" ++ r.host ++ u.path)).isOk = false) :
    ∃ what, (serveHTTP proxy w r).result = .panic what ∧ (serveHTTP proxy w r).roundTrips = [] := by
  obtain ⟨what, h⟩ := normalize_error_of_unusable hu habs hfail
  exact ⟨what, by simp [serveHTTP, hm, h]⟩

/-- An HTTP/1.0 request `GET /` with no `Host` header. -/
theorem serveHTTP_panics_without_host :
    ∃ what, (serveHTTP (⟨0, [], [], fun _ _ => (none, some ⟨"no route"⟩), fun s => wrap (s + 1)⟩ :
          ProxyHttpServer Unit)
        .init ⟨"GET", some { path := "/" }, "", .empty, "/"⟩).result = .panic what ∧
      (serveHTTP (⟨0, [], [], fun _ _ => (none, some ⟨"no route"⟩), fun s => wrap (s + 1)⟩ :
          ProxyHttpServer Unit)
        .init ⟨"GET", some { path := "/" }, "", .empty, "/"⟩).roundTrips = [] :=
  serveHTTP_panics_on_unusable_target _ _ _ { path := "/" } (by decide) rfl rfl (.inl rfl)

/-- A relative target whose `Host` and path hold only bytes that need no escape is made
absolute as `http://Host/path` exactly: the host and path survive, and every other part of
the client's target (its query, fragment and raw path) is dropped. -/
theorem normalize_plain {r : Request} {u : Url} (hu : r.url = some u) (habs : u.isAbs = false)
    (hh : r.host ≠ "") (hhost : r.host.toList.all isHostChar)
    (hpath : u.path.toList.all isPathChar) (hslash : u.path.toList.head? = some '/') :
    normalize r =
      .ok { r with url := some { scheme := "http", host := r.host, path := u.path } } := by
  simp only [normalize, hu, habs, Bool.false_eq_true, if_false, hh,
    urlParse_plain hhost hpath hslash]

theorem normalize_plain_search :
    normalize ⟨"GET", some { path := "/search", rawQuery := "q=1" }, "example.com", .empty,
        "/search?q=1"⟩ =
      .ok ⟨"GET", some { scheme := "http", host := "example.com", path := "/search" },
        "example.com", .empty, "/search?q=1"⟩ :=
  @normalize_plain _ { path := "/search", rawQuery := "q=1" } rfl rfl (by decide) (by decide)
    (by decide) rfl

/-- Every request whose target is a plain origin-form path with a query loses the query on
the way to the transport when no handler rewrites the request: `net/http` parses the query
into `RawQuery`, and re-rooting the target at `Host` prints the path alone. -/
theorem serveHTTP_drops_query (proxy : ProxyHttpServer U) (hnone : proxy.reqHandlers = [])
    (w : ResponseWriter) (method host path query : String) (header : Header)
    (hm : method ≠ "CONNECT") (hh : host ≠ "") (hhost : host.toList.all isHostChar)
    (hpath : path.toList.all isPathChar) (hslash : path.toList.head? = some '/')
    (hquery : query.toList.all isPathChar) (hne : query ≠ "") :
    ∃ u, parseRequestURI (path ++ "?" ++ query) = .ok u ∧ u.rawQuery = query ∧
      (serveHTTP proxy w ⟨method, some u, host, header, path ++ "?" ++ query⟩).roundTrips.map
        Request.url = [some { scheme := "http", host := host, path := path }] := by
  refine ⟨_, parseRequestURI_origin_form hpath hslash hquery hne, rfl, ?_⟩
  simp [serveHTTP, hm, normalize, Url.isAbs, hh, urlParse_plain hhost hpath hslash, filterRequest,
    filterRequestLoop, hnone, removeProxyHeaders]

theorem serveHTTP_drops_query_search :
    ∃ u, parseRequestURI ("/search" ++ "?" ++ "q=1") = .ok u ∧ u.rawQuery = "q=1" ∧
      (serveHTTP directProxy .init
          ⟨"GET", some u, "example.com", .empty, "/search" ++ "?" ++ "q=1"⟩).roundTrips.map
        Request.url = [some { scheme := "http", host := "example.com", path := "/search" }] :=
  serveHTTP_drops_query directProxy rfl .init "GET" "example.com" "/search" "q=1" .empty
    (by decide) (by decide) (by decide) (by decide) rfl (by decide) (by decide)

/-- A relative target `/search?q=1` (as `net/http` parses it) is re-rooted at its `Host`
from the path alone: the forwarded URL has lost its query. -/
theorem serveHTTP_drops_query_of_relative_target :
    parseRequestURI "/search?q=1" = .ok { path := "/search", rawQuery := "q=1" } ∧
    (serveHTTP directProxy .init
        ⟨"GET", some { path := "/search", rawQuery := "q=1" }, "example.com", .empty,
          "/search?q=1"⟩).roundTrips.map Request.url =
      [some { scheme := "http", host := "example.com", path := "/search" }] := by decide

/-! ## What reaches the transport -/

theorem mem_roundTrips {proxy : ProxyHttpServer U} {w : ResponseWriter} {r fwd : Request}
    (h : fwd ∈ (serveHTTP proxy w r).roundTrips) :
    ∃ r' req ctx', normalize r = .ok r' ∧
      filterRequest proxy.reqHandlers r' ⟨r', wrap (proxy.sess + 1), none, none, none⟩ =
        (some req, none, ctx') ∧
      removeProxyHeaders req = .ok fwd := by
  unfold serveHTTP at h
  split_ifs at h
  · nomatch h
  split at h
  · nomatch h
  rename_i r' hn
  dsimp only at h
  split at h
  · nomatch h
  · nomatch h
  rename_i req ctx' hf
  split at h
  · nomatch h
  rename_i fwd' hr
  obtain rfl := List.mem_singleton.1 h
  exact ⟨r', req, ctx', hn, hf, hr⟩

theorem removeProxyHeaders_spec {r fwd : Request} (h : removeProxyHeaders r = .ok fwd) :
    fwd.requestURI = "" ∧ fwd.method = r.method ∧ fwd.url = r.url ∧ fwd.host = r.host ∧
      ∀ k, fwd.header.get? k =
        if k ∈ ["Accept-Encoding", "Proxy-Connection", "Connection"] then none
        else r.header.get? k := by
  unfold removeProxyHeaders at h
  split at h
  · cases h
  · cases h
    have h1 : canonicalMIMEHeaderKey "Accept-Encoding" = "Accept-Encoding" := by decide
    have h2 : canonicalMIMEHeaderKey "Proxy-Connection" = "Proxy-Connection" := by decide
    have h3 : canonicalMIMEHeaderKey "Connection" = "Connection" := by decide
    refine ⟨rfl, rfl, rfl, rfl, fun k => ?_⟩
    simp only [Header.get?_del, h1, h2, h3, List.mem_cons, List.mem_singleton,
      List.not_mem_nil, or_false]
    split_ifs <;> simp_all

/-- Whatever the handlers do, a request reaches `Tr.DetailedRoundTrip` only when no
handler answered, and it is the request the handlers returned, with the same method, URL
and `Host`, `RequestURI` cleared and exactly `Accept-Encoding`, `Proxy-Connection` and
`Connection` deleted: every other header, one named in `Connection` included, is forwarded
as it stands. -/
theorem serveHTTP_round_trip_request (proxy : ProxyHttpServer U) (w : ResponseWriter)
    (r fwd : Request) (hfwd : fwd ∈ (serveHTTP proxy w r).roundTrips) :
    ∃ r' req ctx', normalize r = .ok r' ∧
      filterRequest proxy.reqHandlers r' ⟨r', wrap (proxy.sess + 1), none, none, none⟩ =
        (some req, none, ctx') ∧
      fwd.method = req.method ∧ fwd.url = req.url ∧ fwd.host = req.host ∧
      fwd.requestURI = "" ∧
      ∀ k, fwd.header.get? k =
        if k ∈ ["Accept-Encoding", "Proxy-Connection", "Connection"] then none
        else req.header.get? k := by
  obtain ⟨r', req, ctx', hn, hf, hr⟩ := mem_roundTrips hfwd
  obtain ⟨h1, h2, h3, h4, h5⟩ := removeProxyHeaders_spec hr
  exact ⟨r', req, ctx', hn, hf, h2, h3, h4, h1, h5⟩

theorem serveHTTP_round_trip_request_direct :
    ∃ r' req ctx', normalize ⟨"GET", some { path := "/" }, "example.com", .empty, "/"⟩ = .ok r' ∧
      filterRequest directProxy.reqHandlers r' ⟨r', wrap (directProxy.sess + 1), none, none, none⟩ =
        (some req, none, ctx') ∧
      (⟨"GET", some { scheme := "http", host := "example.com", path := "/" }, "example.com",
        .empty, ""⟩ : Request).method = req.method ∧
      (⟨"GET", some { scheme := "http", host := "example.com", path := "/" }, "example.com",
        .empty, ""⟩ : Request).url = req.url ∧
      (⟨"GET", some { scheme := "http", host := "example.com", path := "/" }, "example.com",
        .empty, ""⟩ : Request).host = req.host ∧
      (⟨"GET", some { scheme := "http", host := "example.com", path := "/" }, "example.com",
        .empty, ""⟩ : Request).requestURI = "" ∧
      ∀ k, (⟨"GET", some { scheme := "http", host := "example.com", path := "/" },
        "example.com", .empty, ""⟩ : Request).header.get? k =
        if k ∈ ["Accept-Encoding", "Proxy-Connection", "Connection"] then none
        else req.header.get? k :=
  serveHTTP_round_trip_request directProxy .init _ _ (by decide)

/-- A header that `Connection` names as hop-by-hop still reaches the transport. -/
theorem serveHTTP_forwards_connection_named_header :
    (serveHTTP directProxy .init
        ⟨"GET", some { scheme := "http", host := "example.com", path := "/" }, "example.com",
          ⟨[("Connection", ["X-Hop"]), ("X-Hop", ["secret"])], by decide⟩,
          "http://example.com/"⟩).roundTrips.map (fun q => q.header.get? "X-Hop") =
      [some ["secret"]] := by decide

/-! ## One response per request -/

/-- A response `finish` sends as one: it has a body and a final status code. -/
def Response.Sendable (resp : Response) : Prop := resp.body.isSome ∧ FinalStatus resp.statusCode

/-- goproxy's contract for a request handler given a request with a URL, with a final
status code on a canned response: a canned response is sendable, and a handler that does
not answer returns a request with a URL. -/
def ReqHandler.KeepsContract (h : ReqHandler U) : Prop :=
  ∀ r ctx, r.url.isSome →
    match h.handle r ctx with
    | (_, some resp, _) => resp.Sendable
    | (some req, none, _) => req.url.isSome
    | (none, none, _) => False

def RespHandler.KeepsContract (h : RespHandler U) : Prop :=
  ∀ resp ctx, ∃ resp', (h.handle (some resp) ctx).1 = some resp' ∧ resp'.Sendable

def TransportKeepsContract (tr : Request → Option U → Option Response × Option GoError) :
    Prop :=
  ∀ r u, (tr r u).2 = none → ∃ resp, (tr r u).1 = some resp ∧ resp.Sendable

/-- The writer has sent exactly one more response: one status line with the headers it
ends with, then at most one run of body bytes. -/
def SentOne (w w' : ResponseWriter) : Prop :=
  ∃ code, ∃ body : Option String,
    w'.events = w.events ++ .writeHeader code w'.header :: body.toList.map .write

theorem sentOne_writeStatus (w : ResponseWriter) (h : Header) (code : Nat) (content : String) :
    SentOne w (((({ w with header := h } : ResponseWriter).writeStatus code).ioCopy content)) := by
  refine ⟨code, if content ≠ "" ∧ bodyAllowedForStatus code then some content else none, ?_⟩
  rw [ResponseWriter.ioCopy_writeStatus_events, ResponseWriter.ioCopy_header]
  split_ifs <;> rfl

def LoopOk : Option Request → Option Response → Prop
  | _, some resp => resp.Sendable
  | req, none => ∃ q, req = some q ∧ q.url.isSome

theorem filterRequestLoop_ok {hs : List (ReqHandler U)} (hc : ∀ h ∈ hs, h.KeepsContract)
    {r : Request} (hr : r.url.isSome) {req resp ctx} (hok : LoopOk req resp) :
    LoopOk (filterRequestLoop r hs req resp ctx).1 (filterRequestLoop r hs req resp ctx).2.1 := by
  induction hs generalizing req resp ctx with
  | nil => exact hok
  | cons h hs ih =>
    have hh := hc h (List.mem_cons_self _ _) r ctx hr
    rcases e : h.handle r ctx with ⟨req', _ | resp', ctx'⟩ <;> rw [e] at hh
    · rcases req' with _ | q
      · exact hh.elim
      · simp only [filterRequestLoop, e, Option.isSome_none, Bool.false_eq_true, if_false]
        exact ih (fun g hg => hc g (List.mem_cons_of_mem _ hg)) ⟨q, rfl, hh⟩
    · simpa only [filterRequestLoop, e, Option.isSome_some, if_true] using hh

theorem filterResponse_some {hs : List (RespHandler U)} (hc : ∀ h ∈ hs, h.KeepsContract)
    (resp : Response) (ctx : ProxyCtx U) (hb : hs ≠ [] ∨ resp.Sendable) :
    ∃ resp' ctx', filterResponse hs (some resp) ctx = (some resp', ctx') ∧ resp'.Sendable := by
  induction hs generalizing resp ctx with
  | nil => exact ⟨resp, ctx, rfl, hb.resolve_left (by simp)⟩
  | cons h hs ih =>
    let ctx1 := { ctx with resp := some resp }
    obtain ⟨resp', e, hb'⟩ := hc h (List.mem_cons_self _ _) resp ctx1
    have ih' := ih (fun g hg => hc g (List.mem_cons_of_mem _ hg)) resp'
      (h.handle (some resp) ctx1).2 (.inr hb')
    rw [← e] at ih'
    exact ih'

theorem finish_sentOne (proxy : ProxyHttpServer U) (hc : ∀ h ∈ proxy.respHandlers, h.KeepsContract)
    {w : ResponseWriter} (hw : w.wroteHeader = false) (resp : Response) (ctx : ProxyCtx U)
    (hb : proxy.respHandlers ≠ [] ∨ resp.Sendable) :
    ∃ w', finish proxy w resp ctx = .served w' ∧ SentOne w w' := by
  obtain ⟨resp', ctx', e, hb', hfin⟩ := filterResponse_some hc resp ctx hb
  obtain ⟨body, hbody⟩ := Option.isSome_iff_exists.1 hb'
  simp only [finish, e, writeHeader_final hw _ hfin, hbody]
  exact ⟨_, rfl, sentOne_writeStatus _ _ _ _⟩

theorem forward_sentOne (proxy : ProxyHttpServer U) (hc : ∀ h ∈ proxy.respHandlers, h.KeepsContract)
    (htr : TransportKeepsContract proxy.tr) {w : ResponseWriter} (hw : w.wroteHeader = false)
    (r : Request) (ctx : ProxyCtx U) : ∃ w', forward proxy w r ctx = .served w' ∧ SentOne w w' := by
  unfold forward
  split
  · dsimp only
    split
    · obtain ⟨w', he, -, hev⟩ := httpError_500 hw _
      exact ⟨w', by rw [he]; rfl, _, some _, hev⟩
    · rename_i resp' ctx' hf
      refine finish_sentOne proxy hc hw resp' ctx' (.inl fun hs => ?_)
      simp [hs, filterResponse] at hf
  · rename_i resp he
    obtain ⟨resp', h1, h2⟩ := htr r ctx.userData (by rw [he])
    rw [he] at h1
    cases h1
    exact finish_sentOne proxy hc hw _ ctx (.inr h2)
  · rename_i he
    obtain ⟨_, h1, -⟩ := htr r ctx.userData (by rw [he])
    rw [he] at h1
    cases h1

theorem normalize_url {r r' : Request} (h : normalize r = .ok r') : r'.url.isSome := by
  unfold normalize at h
  split at h
  · cases h
  · split_ifs at h
    · cases h; simp [*]
    · split at h
      · cases h
      · cases h; rfl

/-- Under goproxy's handler contracts, with final status codes, and a transport that
keeps its own, every request whose target can be made absolute gets exactly one response:
`ServeHTTP` does not panic, and the fresh writer receives one status line and at most one
body. -/
theorem serveHTTP_sends_one_response (proxy : ProxyHttpServer U) (w : ResponseWriter)
    (r : Request) (hm : r.method ≠ "CONNECT") (hn : (normalize r).isOk)
    (hw : w.wroteHeader = false)
    (hreq : ∀ h ∈ proxy.reqHandlers, h.KeepsContract)
    (hresp : ∀ h ∈ proxy.respHandlers, h.KeepsContract)
    (htr : TransportKeepsContract proxy.tr) :
    ∃ w', (serveHTTP proxy w r).result = .served w' ∧ SentOne w w' := by
  rcases e : normalize r with p | r'
  · rw [e] at hn; cases hn
  have hu := normalize_url e
  have hl : LoopOk
      (filterRequest proxy.reqHandlers r' ⟨r', wrap (proxy.sess + 1), none, none, none⟩).1
      (filterRequest proxy.reqHandlers r' ⟨r', wrap (proxy.sess + 1), none, none, none⟩).2.1 :=
    filterRequestLoop_ok hreq hu (show LoopOk (some r') none from ⟨r', rfl, hu⟩)
  simp only [serveHTTP, hm, if_false, e]
  split <;> rename_i hf <;> rw [hf] at hl
  · exact finish_sentOne proxy hresp hw _ _ (.inr hl)
  · obtain ⟨_, h, -⟩ := hl
    cases h
  · obtain ⟨q, h, hq⟩ := hl
    cases h
    obtain ⟨u, hu'⟩ := Option.isSome_iff_exists.1 hq
    simpa [removeProxyHeaders, hu'] using forward_sentOne proxy hresp htr hw _ _

theorem serveHTTP_sends_one_response_direct :
    ∃ w', (serveHTTP directProxy .init
        ⟨"GET", some { path := "/" }, "example.com", .empty, "/"⟩).result = .served w' ∧
      SentOne .init w' :=
  serveHTTP_sends_one_response directProxy _ _ (by decide) (by decide) rfl (by simp [directProxy])
    (by simp [directProxy]) fun _ _ _ => ⟨okResponse, rfl, rfl, by decide⟩

/-! ## Session ids over a run of requests -/

theorem serveHTTP_sess (proxy : ProxyHttpServer U) (w : ResponseWriter) (r : Request) :
    (serveHTTP proxy w r).sess =
      if r.method = "CONNECT" then proxy.handleHttps proxy.sess else wrap (proxy.sess + 1) := by
  unfold serveHTTP
  split_ifs
  · rfl
  · dsimp only
    split
    · rfl
    · split
      · rfl
      · rfl
      · split <;> rfl

/-- Requests served one after another, in the order of their `atomic.AddInt64` calls: the
session counter is the only state of the proxy that `ServeHTTP` changes. -/
def serveAll (proxy : ProxyHttpServer U) : List (ResponseWriter × Request) → List Run
  | [] => []
  | (w, r) :: rest =>
    let run := serveHTTP proxy w r
    run :: serveAll { proxy with sess := run.sess } rest

/-- The session ids handed to the requests of a run that are not CONNECT requests. -/
def sessionIds (reqs : List (ResponseWriter × Request)) (runs : List Run) : List Int :=
  (reqs.zip runs).filterMap fun p => if p.1.2.method = "CONNECT" then none else some p.2.sess

theorem sessionIds_sublist (reqs : List (ResponseWriter × Request)) (runs : List Run) :
    (sessionIds reqs runs).Sublist (runs.map Run.sess) := by
  induction reqs generalizing runs with
  | nil => exact List.nil_sublist _
  | cons p rest ih =>
    cases runs with
    | nil => exact List.nil_sublist _
    | cons run runs =>
      have := ih runs
      simp only [sessionIds, List.zip_cons_cons, List.filterMap_cons, List.map_cons] at this ⊢
      split_ifs
      · exact this.cons _
      · exact this.cons₂ _

theorem serveAll_sess (proxy : ProxyHttpServer U) (hh : ∀ s, proxy.handleHttps s = wrap (s + 1))
    (reqs : List (ResponseWriter × Request)) :
    (serveAll proxy reqs).map Run.sess =
      (List.range reqs.length).map fun i : Nat => wrap (proxy.sess + i + 1) := by
  induction reqs generalizing proxy with
  | nil => rfl
  | cons p rest ih =>
    obtain ⟨w, r⟩ := p
    have hs : (serveHTTP proxy w r).sess = wrap (proxy.sess + 1) := by
      rw [serveHTTP_sess]; split_ifs <;> simp [hh]
    simp only [serveAll, List.map_cons, hs, ih { proxy with sess := wrap (proxy.sess + 1) } hh,
      List.length_cons, List.range_succ_eq_map, List.map_map]
    refine congrArg₂ _ (by simp) (List.map_congr_left fun i _ => ?_)
    simp only [Function.comp, Nat.cast_succ]
    unfold wrap; omega

/-- Over any run with goproxy's `handleHttps`, the counter after the `i`-th request is
`sess + i + 1` (wrapped to int64), CONNECT requests included, so the requests that are not
CONNECT requests get distinct session ids as long as at most 2^64 requests are served. -/
theorem serveAll_session_ids (proxy : ProxyHttpServer U)
    (hh : ∀ s, proxy.handleHttps s = wrap (s + 1)) (reqs : List (ResponseWriter × Request))
    (hlen : reqs.length ≤ 18446744073709551616) :
    (serveAll proxy reqs).map Run.sess =
        (List.range reqs.length).map (fun i : Nat => wrap (proxy.sess + i + 1)) ∧
      (sessionIds reqs (serveAll proxy reqs)).Nodup := by
  have hmap := serveAll_sess proxy hh reqs
  refine ⟨hmap, (sessionIds_sublist _ _).nodup ?_⟩
  rw [hmap]
  refine (List.nodup_range _).map_on fun i hi j hj hij => ?_
  rw [List.mem_range] at hi hj
  unfold wrap at hij
  omega

theorem serveAll_session_ids_get_connect_get :
    let get : ResponseWriter × Request :=
      (.init, ⟨"GET", some { path := "/" }, "example.com", .empty, "/"⟩)
    let connect : ResponseWriter × Request :=
      (.init, ⟨"CONNECT", none, "example.com:443", .empty, "example.com:443"⟩)
    (∀ s, directProxy.handleHttps s = wrap (s + 1)) ∧
      [get, connect, get].length ≤ 18446744073709551616 ∧
      (serveAll directProxy [get, connect, get]).map Run.sess =
          (List.range [get, connect, get].length).map
            (fun i : Nat => wrap (directProxy.sess + i + 1)) ∧
        (sessionIds [get, connect, get] (serveAll directProxy [get, connect, get])).Nodup :=
  ⟨fun _ => rfl, by decide, serveAll_session_ids directProxy (fun _ => rfl) _ (by decide)⟩

example :
    let get : ResponseWriter × Request :=
      (.init, ⟨"GET", some { path := "/" }, "example.com", .empty, "/"⟩)
    let connect : ResponseWriter × Request :=
      (.init, ⟨"CONNECT", none, "example.com:443", .empty, "example.com:443"⟩)
    sessionIds [get, connect, get] (serveAll directProxy [get, connect, get]) = [1, 3] := by
  decide

end Smokescreen.Goproxy
