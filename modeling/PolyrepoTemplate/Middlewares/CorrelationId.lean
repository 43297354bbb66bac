import PolyrepoTemplate.Asgi.Starlette
import PolyrepoTemplate.Text.Strip

namespace PolyrepoTemplate

open Async Asgi

def requestIdHeader : String := "X-Request-ID"

def correlationIdHeader : String := "X-Correlation-ID"

def correlationIdStateKey : String := "correlation_id"

/-- `Headers.get`: the first entry, `name` being looked up in lower case. -/
def headersGet (headers : List Header) (name fallback : String) : String :=
  ((headers.find? fun h => h.1 = lower name).map Prod.snd).getD fallback

/-- The loop of `_correlation_id_from_headers`: the first header not blank. -/
def firstUsable (headers : List Header) : List String → Option String
  | [] => none
  | name :: names =>
    let value := Text.strip (headersGet headers name "")
    if value ≠ "" then some value else firstUsable headers names

def inboundId (request : HttpScope) : Option String :=
  firstUsable request.headers [requestIdHeader, correlationIdHeader]

def usedHeader (headers : List Header) : List String → Option String
  | [] => none
  | name :: names =>
    if Text.strip (headersGet headers name "") ≠ "" then some name else usedHeader headers names

theorem usedHeader_mem {headers : List Header} {names : List String} {name : String}
    (h : usedHeader headers names = some name) : name ∈ names := by
  induction names with
  | nil => cases h
  | cons name' names ih =>
    unfold usedHeader at h
    split_ifs at h
    · cases h
      exact List.mem_cons_self
    · exact List.mem_cons_of_mem _ (ih h)

theorem usedHeader_requestId (headers : List Header) :
    usedHeader headers [requestIdHeader, correlationIdHeader] = some requestIdHeader ↔
      Text.strip (headersGet headers requestIdHeader "") ≠ "" := by
  rw [usedHeader]
  split_ifs with h
  · exact iff_of_true rfl h
  · refine iff_of_false (fun hused => ?_) h
    have hmem : requestIdHeader ∈ [correlationIdHeader] := usedHeader_mem hused
    exact absurd hmem (by decide)

variable {M : Type}

def correlationIdFromHeaders (request : HttpScope) : AsgiM M String :=
  match inboundId request with
  | some value => .pure value
  | none => perform .uuid4

def withRequestId (lib : Starlette M) (correlationId : String) : Message → Message :=
  Message.mapHeaders (lib.setItem requestIdHeader correlationId)

def correlationIdMiddleware (lib : Starlette M) (app : App M) : App M
  | .http request => do
    let correlationId ← correlationIdFromHeaders request
    perform (.setState correlationIdStateKey correlationId)
    boundContextvars "correlation_id" correlationId
      (wrapSend (withRequestId lib correlationId) (app (.http request)))
  | .other type => app (.other type)

def chosenId (server : Server) (request : HttpScope) (x : Exchange M) : String :=
  (inboundId request).getD (server.uuid4 x.uuids)

def entered (server : Server) (request : HttpScope) (x : Exchange M) : Exchange M :=
  { x with
    uuids := if (inboundId request).isSome then x.uuids else x.uuids + 1
    state := Function.update x.state correlationIdStateKey (some (chosenId server request x))
    context := Function.update x.context "correlation_id" (some (chosenId server request x)) }

@[simp] theorem entered_sent (server : Server) (request : HttpScope) (x : Exchange M) :
    (entered server request x).sent = x.sent := by simp only [entered]

def restored (x y : Exchange M) : Exchange M :=
  { y with context := Function.update y.context "correlation_id" (x.context "correlation_id") }

theorem correlationIdMiddleware_run (lib : Starlette M) (app : App M) (server : Server)
    (request : HttpScope) (x : Exchange M) :
    (correlationIdMiddleware lib app (.http request)).run server.handler x =
      let out := (wrapSend (withRequestId lib (chosenId server request x))
        (app (.http request))).run server.handler (entered server request x)
      (out.1, restored x out.2) := by
  have hid : (correlationIdFromHeaders request).run server.handler x =
      (.ok (chosenId server request x),
        { x with uuids := if (inboundId request).isSome then x.uuids else x.uuids + 1 }) := by
    unfold correlationIdFromHeaders chosenId
    cases inboundId request <;> rfl
  have hset (y : Exchange M) : (perform (.setState correlationIdStateKey
      (chosenId server request x))).run server.handler y = (.ok (), { y with
        state := Function.update y.state correlationIdStateKey
          (some (chosenId server request x)) }) := rfl
  rw [correlationIdMiddleware, Coro.bind_eq, Coro.run_bind, hid]
  simp only [Coro.bind_eq, Coro.run_bind, hset, run_boundContextvars]
  rfl

end PolyrepoTemplate
