import Smokescreen.Go.Header
import Smokescreen.Go.Url

/-! goproxy's request and response handler chains: `filterRequest` and `filterResponse`.
Pointers that Go lets be nil are `Option`s. A handler is a function of the request (or
response) value and of the `ProxyCtx`, which it may change. So a handler here cannot
change the `*http.Request` it is given in place: in Go one that does (and returns it, as
goproxy's handlers usually do) shows its change to every later handler, since they are all
given the same pointer. The model covers the handlers that build a new request and leave
the one they were given as it was. -/

namespace Smokescreen.Goproxy
open Go

/-- A response body (`io.ReadCloser`), with the identity `origBody != resp.Body`
compares. -/
structure Body where
  id : Nat
  content : String
  deriving DecidableEq, Repr

structure Response where
  statusCode : Nat
  header : Header
  body : Option Body
  deriving DecidableEq

structure Request where
  method : String
  url : Option Url
  host : String
  header : Header
  requestURI : String
  deriving DecidableEq

structure GoError where
  msg : String
  deriving DecidableEq, Repr

/-- The fields of `ProxyCtx` the proxy writes; `UserData` (nil at first) is handed to
the transport. -/
structure ProxyCtx (U : Type) where
  req : Request
  session : Int
  userData : Option U
  resp : Option Response
  error : Option GoError

/-- `ReqHandler.Handle`: the request to send on, a canned response, and the context. -/
structure ReqHandler (U : Type) where
  handle : Request → ProxyCtx U → Option Request × Option Response × ProxyCtx U

structure RespHandler (U : Type) where
  handle : Option Response → ProxyCtx U → Option Response × ProxyCtx U

variable {U : Type}

/-- The loop of `filterRequest`: every handler is given the request `r` the proxy
received (line 204). -/
def filterRequestLoop (r : Request) :
    List (ReqHandler U) → Option Request → Option Response → ProxyCtx U →
      Option Request × Option Response × ProxyCtx U
  | [], req, resp, ctx => (req, resp, ctx)
  | h :: hs, _, _, ctx =>
    let (req, resp, ctx) := h.handle r ctx
    if resp.isSome then (req, resp, ctx) else filterRequestLoop r hs req resp ctx

def filterRequest (reqHandlers : List (ReqHandler U)) (r : Request) (ctx : ProxyCtx U) :
    Option Request × Option Response × ProxyCtx U :=
  filterRequestLoop r reqHandlers (some r) none ctx

def filterResponse (respHandlers : List (RespHandler U)) (respOrig : Option Response)
    (ctx : ProxyCtx U) : Option Response × ProxyCtx U :=
  respHandlers.foldl (fun (resp, ctx) h => h.handle resp { ctx with resp := resp })
    (respOrig, ctx)

/-- The chain a handler list is meant to form: each handler is given the request the
one before it returned, and the first canned response ends it. -/
def threadRequest : List (ReqHandler U) → Request → ProxyCtx U →
    Option Request × Option Response × ProxyCtx U
  | [], r, ctx => (some r, none, ctx)
  | h :: hs, r, ctx =>
    match h.handle r ctx with
    | (req, some resp, ctx) => (req, some resp, ctx)
    | (some req, none, ctx) => threadRequest hs req ctx
    | (none, none, ctx) => (none, none, ctx)

/-- Every handler is given the request the proxy received, not the one the handler
before it returned: after a handler that replaces the request, a handler that passes
its input on brings the original back. -/
theorem filterRequest_passes_original_request :
    let r : Request :=
      ⟨"GET", some { scheme := "http", host := "a", path := "/" }, "a", .empty, "/"⟩
    let ctx : ProxyCtx Unit := ⟨r, 1, none, none, none⟩
    let replace : ReqHandler Unit := ⟨fun r ctx => (some { r with host := "b" }, none, ctx)⟩
    let passOn : ReqHandler Unit := ⟨fun r ctx => (some r, none, ctx)⟩
    filterRequest [replace, passOn] r ctx = (some r, none, ctx) ∧
      threadRequest [replace, passOn] r ctx = (some { r with host := "b" }, none, ctx) :=
  ⟨rfl, rfl⟩

/-- The loop is the chain when every handler but the last, if it does not answer, passes
its request on unchanged; in particular for a single handler. -/
theorem filterRequest_eq_threadRequest (hs : List (ReqHandler U)) (r : Request)
    (ctx : ProxyCtx U)
    (hpass : ∀ h ∈ hs.dropLast, ∀ r ctx,
      (h.handle r ctx).2.1 = none → (h.handle r ctx).1 = some r) :
    filterRequest hs r ctx = threadRequest hs r ctx := by
  induction hs generalizing r ctx with
  | nil => rfl
  | cons h hs ih =>
    rcases hh : h.handle r ctx with ⟨req, _ | resp, ctx'⟩
    · cases hs with
      | nil => cases req <;> simp [filterRequest, filterRequestLoop, threadRequest, hh]
      | cons g gs =>
        have hreq := hpass h (List.mem_cons_self _ _) r ctx (by rw [hh])
        rw [hh] at hreq
        cases hreq
        simp only [filterRequest, filterRequestLoop, threadRequest, hh] at ih ⊢
        exact ih r ctx' fun k hk => hpass k (List.mem_cons_of_mem _ hk)
    · simp [filterRequest, filterRequestLoop, threadRequest, hh]

/-- A handler that passes its request on, then one that replaces it. -/
theorem filterRequest_eq_threadRequest_pass_replace :
    let r : Request :=
      ⟨"GET", some { scheme := "http", host := "a", path := "/" }, "a", .empty, "/"⟩
    let ctx : ProxyCtx Unit := ⟨r, 1, none, none, none⟩
    let hs : List (ReqHandler Unit) :=
      [⟨fun r ctx => (some r, none, ctx)⟩, ⟨fun r ctx => (some { r with host := "b" }, none, ctx)⟩]
    filterRequest hs r ctx = threadRequest hs r ctx :=
  filterRequest_eq_threadRequest _ _ _ (by simp)

end Smokescreen.Goproxy
