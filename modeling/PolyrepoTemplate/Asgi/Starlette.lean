import PolyrepoTemplate.Asgi.App

namespace Asgi

open Async

structure Response where
  status : ℕ
  headers : List Header
  body : String
  deriving DecidableEq, Repr

variable {M : Type}

def Response.send (response : Response) : AsgiM M Unit := do
  perform (.send (.responseStart response.status response.headers))
  perform (.send (.other "http.response.body" response.body))

abbrev ExceptionHandler (M : Type) := HttpScope → Exn → AsgiM M Response

/-- Call the handler, send its response if none has been started, and raise the
exception again. -/
def respondAndReraise (handler : ExceptionHandler M) (request : HttpScope) (exc : Exn)
    (started : Bool) : AsgiM M Unit := do
  let response ← handler request exc
  if started then Coro.throw (.exception exc)
  response.send
  Coro.throw (.exception exc)

theorem Response.send_run (response : Response) (server : Server) (x : Exchange M) : ∃ rest,
    (response.send.run server.handler x).2 = { x with
      sent := x.sent ++ .responseStart response.status response.headers :: rest } ∧
    ∀ message ∈ rest, message.startsResponse = false := by
  rw [Response.send, Coro.bind_eq, Coro.run_bind, run_perform]
  cases hsend : server.send x.sent.length with
  | error e => exact ⟨[], by simp [Server.handler, hsend], by simp⟩
  | ok u =>
    refine ⟨[.other "http.response.body" response.body], ?_, by simp [Message.startsResponse]⟩
    simp [Server.handler, hsend, perform, Coro.run_call]

/-- What `ServerErrorMiddleware` makes of the end of the application inside it: an
`Exception` goes to the handler, whose response is sent unless one has been started, by
then or among what was sent after the first `n` messages. -/
def answered (server : Server) (handler : ExceptionHandler M) (request : HttpScope)
    (started : Bool) (n : ℕ) : Except Raised Unit × Exchange M → Except Raised Unit × Exchange M
  | (.error (.exception exc), x) =>
    (respondAndReraise handler request exc
      (started || (x.sent.drop n).any Message.startsResponse)).run server.handler x
  | out => out

structure Starlette (M : Type) where
  /-- `MutableHeaders.__setitem__`. -/
  setItem : String → String → List Header → List Header
  setItem_self : ∀ key value headers,
    (setItem key value headers).filter (·.1 = lower key) = [(lower key, value)]
  setItem_other : ∀ key value headers,
    (setItem key value headers).filter (·.1 ≠ lower key) = headers.filter (·.1 ≠ lower key)
  /-- The headers of `PlainTextResponse`. -/
  plainTextHeaders : String → List Header → List Header
  plainTextHeaders_eq : ∀ body headers, ∃ own, plainTextHeaders body headers =
    headers.map (fun h => (lower h.1, h.2)) ++ own ∧
      ∀ h ∈ own, h.1 = "content-length" ∨ h.1 = "content-type"
  serverErrorMiddleware : ExceptionHandler M → App M → App M
  serverErrorMiddleware_http : ∀ handler app request (server : Server) (x : Exchange M),
    (serverErrorMiddleware handler app (.http request)).run server.handler x =
      answered server handler request false x.sent.length
        ((app (.http request)).run server.handler x)
  serverErrorMiddleware_other : ∀ handler app type,
    serverErrorMiddleware handler app (.other type) = app (.other type)

theorem Starlette.mem_setItem (lib : Starlette M) {key value : String} {headers : List Header}
    {h : Header} : h ∈ lib.setItem key value headers ↔
      h = (lower key, value) ∨ (h.1 ≠ lower key ∧ h ∈ headers) := by
  by_cases hkey : h.1 = lower key
  · have hself : h ∈ (lib.setItem key value headers).filter (·.1 = lower key) ↔
        h = (lower key, value) := by
      rw [lib.setItem_self, List.mem_singleton]
    simpa [List.mem_filter, hkey] using hself
  · have hother : h ∈ (lib.setItem key value headers).filter (·.1 ≠ lower key) ↔
        h ∈ headers.filter (·.1 ≠ lower key) := by
      rw [lib.setItem_other]
    have hne : h ≠ (lower key, value) := fun heq => hkey (congrArg Prod.fst heq)
    simpa [List.mem_filter, hkey, hne] using hother

def setItem (key value : String) : List Header → List Header
  | [] => [(key, value)]
  | h :: hs =>
    if h.1 = key then (key, value) :: hs.filter (·.1 ≠ key) else h :: setItem key value hs

theorem setItem_self (key value : String) (headers : List Header) :
    (setItem key value headers).filter (·.1 = key) = [(key, value)] := by
  induction headers with
  | nil => simp [setItem]
  | cons h hs ih =>
    by_cases hkey : h.1 = key
    · simp [setItem, hkey]
    · simp only [setItem, if_neg hkey, List.filter_cons, decide_eq_true_eq]
      exact ih

theorem setItem_other (key value : String) (headers : List Header) :
    (setItem key value headers).filter (·.1 ≠ key) = headers.filter (·.1 ≠ key) := by
  induction headers with
  | nil => simp [setItem]
  | cons h hs ih =>
    by_cases hkey : h.1 = key
    · simp [setItem, hkey]
    · simp only [setItem, if_neg hkey, List.filter_cons, decide_eq_true_eq, if_pos hkey, ih]

/-- The `try` of `ServerErrorMiddleware`, its `send` noting whether a response has
been started. -/
def catching (handler : ExceptionHandler M) (request : HttpScope) :
    Bool → AsgiM M Unit → AsgiM M Unit
  | _, .pure a => .pure a
  | started, .throw (.exception exc) => respondAndReraise handler request exc started
  | _, .throw (.baseException exc) => .throw (.baseException exc)
  | started, .emit m c => .emit m (catching handler request started c)
  | started, .await (.send message) k =>
    .await (.send message) fun r =>
      catching handler request (started || message.startsResponse) (k r)
  | started, .await op k => .await op fun r => catching handler request started (k r)

theorem answered_send (server : Server) (handler : ExceptionHandler M) (request : HttpScope)
    (started : Bool) {sent : List Message} {message : Message}
    {out : Except Raised Unit × Exchange M} (hsent : sent ++ [message] <+: out.2.sent) :
    answered server handler request (started || message.startsResponse) (sent ++ [message]).length
      out = answered server handler request started sent.length out := by
  obtain ⟨rest, hrest⟩ := hsent
  have hdrop : out.2.sent.drop sent.length = message :: rest := by
    rw [← hrest, List.append_assoc, List.drop_left]
    rfl
  have hdrop' : out.2.sent.drop (sent ++ [message]).length = rest := by
    rw [← hrest, List.drop_left]
  rcases out with ⟨⟨e | e⟩ | a, x⟩
  · simp only [answered]
    rw [hdrop, hdrop', List.any_cons, Bool.or_assoc]
  · rfl
  · rfl

theorem catching_await (handler : ExceptionHandler M) (request : HttpScope) (started : Bool)
    {op : Op} {k : Except Raised op.Res → AsgiM M Unit} (hop : ∀ message, op ≠ .send message) :
    catching handler request started (.await op k) =
      .await op fun r => catching handler request started (k r) := by
  cases op with
  | send message => exact absurd rfl (hop message)
  | _ => rfl

theorem exec_sent_eq (server : Server) {op : Op} (hop : ∀ message, op ≠ .send message)
    (x : Exchange M) : (server.handler.exec op x).2.sent = x.sent := by
  cases op with
  | send message => exact absurd rfl (hop message)
  | _ => rfl

theorem run_catching (server : Server) (handler : ExceptionHandler M) (request : HttpScope)
    (started : Bool) (c : AsgiM M Unit) (x : Exchange M) :
    (catching handler request started c).run server.handler x =
      answered server handler request started x.sent.length (c.run server.handler x) := by
  induction c generalizing started x with
  | pure a => rfl
  | throw e =>
    cases e with
    | exception exc => simp [catching, answered, Coro.run]
    | baseException exc => rfl
  | emit m c ih => exact ih started (server.handler.log m x)
  | await op k ih =>
    obtain ⟨message, rfl⟩ | hop := op.send_or
    · have hsent := sent_prefix server (k (server.handler.exec (.send message) x).1)
        (server.handler.exec (.send message) x).2
      rw [catching, Coro.run, ih]
      exact answered_send server handler request started hsent
    · rw [catching_await handler request started hop, Coro.run, ih, exec_sent_eq server hop]
      rfl

def starlette : Starlette M where
  setItem key := setItem (lower key)
  setItem_self key := setItem_self (lower key)
  setItem_other key := setItem_other (lower key)
  plainTextHeaders body headers := headers.map (fun h => (lower h.1, h.2)) ++
    [("content-length", toString body.utf8ByteSize), ("content-type", "text/plain; charset=utf-8")]
  plainTextHeaders_eq body headers := ⟨_, rfl, by simp⟩
  serverErrorMiddleware handler app
    | .http request => catching handler request false (app (.http request))
    | .other type => app (.other type)
  serverErrorMiddleware_http handler app request server x :=
    run_catching server handler request _ _ x
  serverErrorMiddleware_other _ _ _ := rfl

end Asgi
