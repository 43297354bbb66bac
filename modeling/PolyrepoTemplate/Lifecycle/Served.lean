import PolyrepoTemplate.Lifecycle.RequestId
import PolyrepoTemplate.Lifecycle.Transparency
import PolyrepoTemplate.Routes.Answers

namespace PolyrepoTemplate

open Async Asgi Text

/-- What FastAPI makes of a route: the exceptions as they are raised, and a reply as the
headers and the JSON of a response. -/
structure FastApi where
  exc : Exc → Exn
  headers : Reply → List Header
  body : Reply → String
  headers_lower : ∀ reply, ∀ h ∈ headers reply, lower h.1 = h.1

namespace FastApi

variable (fastapi : FastApi)

/-- A cancellation is no `Exception`. -/
def raised : Exc → Raised
  | .outside .cancelledError => .baseException (fastapi.exc (.outside .cancelledError))
  | e => .exception (fastapi.exc e)

def answer : Reply → AsgiM HttpRecord Unit
  | .unhandled e => Coro.throw (fastapi.raised e)
  | reply => Response.send ⟨reply.statusCode, fastapi.headers reply, fastapi.body reply⟩

def withUserDetails (user : UserDetails) (body : AsgiM HttpRecord Unit) : AsgiM HttpRecord Unit :=
  boundContextvars "tenant_id" user.tenantId (boundContextvars "user_id" user.userId body)

/-- The application for a request that one of the two routes takes: the caller is closed
after the response, but an `HTTPException` leaves it before it is answered. -/
def routeApp (req : ApiRequest) (reply : Reply) : App HttpRecord := fun _ =>
  match userDetails req.tenantId req.userId, reply with
  | .error _, reply => fastapi.answer reply
  | .ok user, .httpException e => do
    withUserDetails user (pure ())
    fastapi.answer (.httpException e)
  | .ok user, reply => withUserDetails user (fastapi.answer reply)

end FastApi

def AppParts.Passes (parts : AppParts) (server : Server) (request : HttpScope)
    (x : Exchange HttpRecord) (app : App HttpRecord) : Prop :=
  parts.innerRun server request x =
    (app (.http request)).run server.handler (entered server request x)

namespace FastApi

variable (fastapi : FastApi)

def result : Reply → Except Raised Unit
  | .unhandled e => .error (fastapi.raised e)
  | _ => .ok ()

def messages : Reply → List Message
  | .unhandled _ => []
  | reply => [.responseStart reply.statusCode (fastapi.headers reply),
      .other "http.response.body" (fastapi.body reply)]

variable (parts : AppParts) (server : Server) (request : HttpScope) (x : Exchange HttpRecord)

def Responded (status : ℕ) (body : String) (sent : List Message) : Prop :=
  ∃ headers, sent = [.responseStart status headers, .other "http.response.body" body] ∧
    headers.filter isRequestId = [("x-request-id", chosenId server request x)] ∧
    ∀ h ∈ parts.secure.preset, (isDocsPath request.path = true ∧ isCsp h.1 = true) ∨ h ∈ headers

def Reported (e : Exc) (out : Except Raised Unit × Exchange HttpRecord) : Prop :=
  (∃ headers, out.2.sent = [.responseStart 500 headers, .other "http.response.body" genericBody] ∧
    headers.filter isRequestId = [("x-request-id", chosenId server request x)]) ∧
  out.2.log = x.log ++ parts.logging.written
    (unhandledRecord (fastapi.exc e) (some (chosenId server request x))) ∧
  out.1 = .error (fastapi.raised e)

def Dropped (out : Except Raised Unit × Exchange HttpRecord) : Prop :=
  out.2.sent = [] ∧ out.2.log = x.log ∧ ∃ e, out.1 = .error e

/-- A cancelled request gets no response, nor does one whose exception cannot be logged. -/
def Delivered (out : Except Raised Unit × Exchange HttpRecord) : Reply → Prop
  | .unhandled (.outside .cancelledError) => Dropped x out
  | .unhandled e => (parts.logging.Loggable (fastapi.exc e) →
      fastapi.Reported parts server request x e out) ∧
    (¬ parts.logging.Loggable (fastapi.exc e) → Dropped x out)
  | reply => Responded parts server request x reply.statusCode (fastapi.body reply) out.2.sent ∧
    out.2.log = x.log ∧ out.1 = .ok ()

end FastApi

section
variable {server : Server}

theorem send_run_of_taken {M : Type} (hsend : ∀ n, server.send n = .ok ()) (response : Response)
    (x : Exchange M) :
    response.send.run server.handler x = (.ok (), { x with
      sent := x.sent ++ [.responseStart response.status response.headers,
        .other "http.response.body" response.body] }) := by
  rw [Response.send, Coro.bind_eq, Coro.run_bind, run_perform]
  simp [Server.handler, hsend, perform, Coro.run_call]

theorem respondAndReraise_run_taken (hsend : ∀ n, server.send n = .ok ())
    (lib : Starlette HttpRecord) {logging : ProcessLogging} (request : HttpScope) {exc : Exn}
    (x : Exchange HttpRecord) (hlog : logging.Loggable exc) :
    (respondAndReraise (handleUnhandledHttpException lib logging) request exc false).run
      server.handler x = (.error (.exception exc), { logged logging exc x with
        sent := x.sent ++ [genericStart lib (x.state correlationIdStateKey),
          .other "http.response.body" genericBody] }) := by
  rw [respondAndReraise, Coro.bind_eq, Coro.run_bind, handler_run lib server request x hlog]
  simp only [Bool.false_eq_true, if_false, Coro.bind_eq, Coro.bind, Coro.run_bind,
    send_run_of_taken hsend]
  rfl

variable (fastapi : FastApi) (req : ApiRequest)

theorem FastApi.answer_run (hsend : ∀ n, server.send n = .ok ()) (reply : Reply)
    (x : Exchange HttpRecord) :
    (fastapi.answer reply).run server.handler x =
      (fastapi.result reply, { x with sent := x.sent ++ fastapi.messages reply }) := by
  cases reply with
  | unhandled e => simp [answer, result, messages, Coro.run]
  | flag f => exact send_run_of_taken hsend _ x
  | httpException e => exact send_run_of_taken hsend _ x
  | requestValidationError e => exact send_run_of_taken hsend _ x

theorem run_withUserDetails (user : UserDetails) {body : AsgiM HttpRecord Unit}
    {result : Except Raised Unit} {messages : List Message}
    (hbody : ∀ x, body.run server.handler x = (result, { x with sent := x.sent ++ messages }))
    (x : Exchange HttpRecord) :
    (FastApi.withUserDetails user body).run server.handler x =
      (result, { x with sent := x.sent ++ messages }) := by
  have hback : Function.update (Function.update (Function.update x.context "tenant_id"
      (some user.tenantId)) "user_id" (x.context "user_id")) "tenant_id"
        (x.context "tenant_id") = x.context := by
    rw [Function.update_comm (by decide), Function.update_idem, Function.update_eq_self,
      Function.update_eq_self]
  simp [FastApi.withUserDetails, run_boundContextvars, hbody, hback]

theorem FastApi.routeApp_run (hsend : ∀ n, server.send n = .ok ()) (reply : Reply) (scope : Scope)
    (x : Exchange HttpRecord) :
    (fastapi.routeApp req reply scope).run server.handler x =
      (fastapi.result reply, { x with sent := x.sent ++ fastapi.messages reply }) := by
  unfold routeApp
  cases userDetails req.tenantId req.userId with
  | error e => exact fastapi.answer_run hsend reply x
  | ok user =>
    cases reply with
    | httpException e =>
      have hopen : (FastApi.withUserDetails user (pure ())).run server.handler x =
          (.ok (), { x with sent := x.sent ++ [] }) :=
        run_withUserDetails user (fun x => by rw [List.append_nil]; rfl) x
      rw [List.append_nil] at hopen
      dsimp only
      rw [Coro.bind_eq, Coro.run_bind, hopen]
      exact fastapi.answer_run hsend _ x
    | flag f => exact run_withUserDetails user (fastapi.answer_run hsend _) x
    | requestValidationError e => exact run_withUserDetails user (fastapi.answer_run hsend _) x
    | unhandled e => exact run_withUserDetails user (fastapi.answer_run hsend _) x

end

namespace FastApi

variable (fastapi : FastApi) (parts : AppParts) {server : Server} (request : HttpScope)
  {x : Exchange HttpRecord} {reply : Reply}

theorem innerRun_eq (hsend : ∀ n, server.send n = .ok ()) {req : ApiRequest}
    (hinner : parts.Passes server request x (fastapi.routeApp req reply)) (hx : x.sent = []) :
    parts.innerRun server request x = (fastapi.result reply,
      { entered server request x with sent := fastapi.messages reply }) := by
  rw [hinner, fastapi.routeApp_run req hsend, entered_sent, hx, List.nil_append]

/-- What the server-error middleware finds: the messages with the headers of the stack, the
chosen id on the state, and the context variables from before the request. -/
theorem left_eq (hsend : ∀ n, server.send n = .ok ()) {req : ApiRequest}
    (hinner : parts.Passes server request x (fastapi.routeApp req reply)) (hx : x.sent = []) :
    let left := parts.left server request x
    left.sent = (fastapi.messages reply).map
        (Message.mapHeaders (parts.leaving server request x)) ∧
      left.log = x.log ∧ left.context = x.context ∧
      left.state correlationIdStateKey = some (chosenId server request x) := by
  dsimp only
  rw [AppParts.left, fastapi.innerRun_eq parts request hsend hinner hx]
  simp [restored, entered, Exchange.mapSent]

variable {fastapi parts request}

theorem appRun_context (hsend : ∀ n, server.send n = .ok ()) {req : ApiRequest}
    (hinner : parts.Passes server request x (fastapi.routeApp req reply)) (hx : x.sent = []) :
    (parts.appRun server request x).2.context = x.context := by
  obtain ⟨-, -, hcontext, -⟩ := fastapi.left_eq parts request hsend hinner hx
  obtain ⟨generic, log, hrun, -⟩ := parts.appRun_snd server request x hx
  rw [hrun]
  exact hcontext

theorem appRun_response (hsend : ∀ n, server.send n = .ok ()) {req : ApiRequest}
    (hinner : parts.Passes server request x (fastapi.routeApp req reply)) (hx : x.sent = [])
    (hresult : fastapi.result reply = .ok ())
    (hmessages : fastapi.messages reply = [.responseStart reply.statusCode (fastapi.headers reply),
      .other "http.response.body" (fastapi.body reply)]) :
    Responded parts server request x reply.statusCode (fastapi.body reply)
        (parts.appRun server request x).2.sent ∧
      (parts.appRun server request x).2.log = x.log ∧
      (parts.appRun server request x).1 = .ok () := by
  have hinnerRun := fastapi.innerRun_eq parts request hsend hinner hx
  obtain ⟨hsent, hlog, -, -⟩ := fastapi.left_eq parts request hsend hinner hx
  have hrun := parts.appRun_of_not_exception server request x hx
    (by simp [hinnerRun, hresult])
  rw [hinnerRun, hresult] at hrun
  rw [hrun]
  refine ⟨⟨parts.leaving server request x (fastapi.headers reply), ?_,
    AppParts.leaving_requestId (fastapi.headers_lower reply), fun h => AppParts.leaving_preset⟩,
    hlog, rfl⟩
  rw [hsent, hmessages]
  rfl

theorem appRun_reported (hsend : ∀ n, server.send n = .ok ()) {req : ApiRequest} {e : Exc}
    (hinner : parts.Passes server request x (fastapi.routeApp req (.unhandled e)))
    (hx : x.sent = []) (huuid : ∀ n, strip (server.uuid4 n) ≠ "")
    (hraised : fastapi.raised e = .exception (fastapi.exc e))
    (hloggable : parts.logging.Loggable (fastapi.exc e)) :
    fastapi.Reported parts server request x e (parts.appRun server request x) := by
  have hinnerRun := fastapi.innerRun_eq parts request hsend hinner hx
  obtain ⟨hsent, hlog, -, hstate⟩ := fastapi.left_eq parts request hsend hinner hx
  have hnothing : (parts.innerRun server request x).2.sent.any Message.startsResponse = false := by
    rw [hinnerRun]
    rfl
  have hexc : (parts.innerRun server request x).1 = .error (.exception (fastapi.exc e)) := by
    rw [hinnerRun, ← hraised]
    rfl
  have hid : chosenId server request x ≠ "" := fun hid =>
    chosenId_not_blank server request x huuid (by rw [hid]; rfl)
  unfold Reported
  rw [parts.appRun_of_exception server request x hx hexc, hnothing,
    respondAndReraise_run_taken hsend parts.starlette request _ hloggable, hraised]
  generalize parts.left server request x = left at hsent hlog hstate
  have hlogged : (logged parts.logging (fastapi.exc e) left).log = x.log ++
      parts.logging.written
        (unhandledRecord (fastapi.exc e) (some (chosenId server request x))) := by
    rw [logged, hlog, hstate]
  have hstart : left.sent = [] := hsent
  rw [hstart, hstate]
  exact ⟨⟨_, rfl, AppParts.genericResponse_requestId hid⟩, hlogged, rfl⟩

theorem appRun_dropped (hsend : ∀ n, server.send n = .ok ()) {req : ApiRequest} {e : Exc}
    (hinner : parts.Passes server request x (fastapi.routeApp req (.unhandled e)))
    (hx : x.sent = []) (hraised : fastapi.raised e = .exception (fastapi.exc e))
    (hloggable : ¬ parts.logging.Loggable (fastapi.exc e)) :
    Dropped x (parts.appRun server request x) := by
  have hexc : (parts.innerRun server request x).1 = .error (.exception (fastapi.exc e)) := by
    rw [fastapi.innerRun_eq parts request hsend hinner hx, ← hraised]
    rfl
  obtain ⟨hsent, hlog, -, -⟩ := fastapi.left_eq parts request hsend hinner hx
  obtain ⟨failure, hrun⟩ := parts.appRun_of_not_loggable server request x hx hexc hloggable
  rw [hrun]
  exact ⟨hsent, hlog, _, rfl⟩

theorem appRun_delivered (hsend : ∀ n, server.send n = .ok ()) {req : ApiRequest}
    (hinner : parts.Passes server request x (fastapi.routeApp req reply)) (hx : x.sent = [])
    (huuid : ∀ n, strip (server.uuid4 n) ≠ "") :
    fastapi.Delivered parts server request x (parts.appRun server request x) reply := by
  cases reply with
  | flag f => exact appRun_response hsend hinner hx rfl rfl
  | httpException e => exact appRun_response hsend hinner hx rfl rfl
  | requestValidationError e => exact appRun_response hsend hinner hx rfl rfl
  | unhandled e =>
    rcases e with name | v | f | (exc | _)
    · exact ⟨appRun_reported hsend hinner hx huuid rfl, appRun_dropped hsend hinner hx rfl⟩
    · exact ⟨appRun_reported hsend hinner hx huuid rfl, appRun_dropped hsend hinner hx rfl⟩
    · exact ⟨appRun_reported hsend hinner hx huuid rfl, appRun_dropped hsend hinner hx rfl⟩
    · exact ⟨appRun_reported hsend hinner hx huuid rfl, appRun_dropped hsend hinner hx rfl⟩
    · -- no handler takes it
      have hinnerRun := fastapi.innerRun_eq parts request hsend hinner hx
      obtain ⟨hsent, hlog, -, -⟩ := fastapi.left_eq parts request hsend hinner hx
      have hrun := parts.appRun_of_not_exception server request x hx
        (by rw [hinnerRun]; exact fun _ h => by cases h)
      rw [hrun]
      exact ⟨hsent, hlog, _, congrArg Prod.fst hinnerRun⟩

end FastApi

end PolyrepoTemplate
