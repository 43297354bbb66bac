import PolyrepoTemplate.Middlewares.SecureHeaders
import PolyrepoTemplate.Middlewares.UnhandledHttpException

namespace PolyrepoTemplate

open Async Asgi Text

inductive UserMiddleware where
  | prometheus
  | secureHeaders
  | correlationId
  deriving DecidableEq, Repr

/-- `app.add_middleware`: the one added last is outermost. -/
def addMiddleware (middleware : UserMiddleware) (user : List UserMiddleware) :
    List UserMiddleware := middleware :: user

def addMiddlewaresInOrder (user : List UserMiddleware) : List UserMiddleware :=
  let user := addMiddleware .prometheus user
  let user := addMiddleware .secureHeaders user
  addMiddleware .correlationId user

/-- The libraries, the logging of the process, the instrumentator's middleware, and the
routers inside Starlette's `ExceptionMiddleware`. -/
structure AppParts where
  starlette : Starlette HttpRecord
  secure : Secure
  logging : ProcessLogging
  instrument : App HttpRecord → App HttpRecord
  router : App HttpRecord

namespace AppParts

variable (parts : AppParts)

def wrap : UserMiddleware → App HttpRecord → App HttpRecord
  | .prometheus => parts.instrument
  | .secureHeaders => secureASGIMiddleware parts.secure
  | .correlationId => correlationIdMiddleware parts.starlette

def buildMiddlewareStack (user : List UserMiddleware) : App HttpRecord :=
  parts.starlette.serverErrorMiddleware
    (handleUnhandledHttpException parts.starlette parts.logging)
    (user.foldr parts.wrap parts.router)

def createApp : App HttpRecord := parts.buildMiddlewareStack (addMiddlewaresInOrder [])

def inner : App HttpRecord := parts.instrument parts.router

variable (server : Server) (request : HttpScope) (x : Exchange HttpRecord)

def innerRun : Except Raised Unit × Exchange HttpRecord :=
  (parts.inner (.http request)).run server.handler (entered server request x)

def appRun : Except Raised Unit × Exchange HttpRecord :=
  (parts.createApp (.http request)).run server.handler x

def leaving (headers : List Header) : List Header :=
  parts.starlette.setItem requestIdHeader (chosenId server request x)
    (parts.secure.outgoing request.path headers)

theorem appRun_eq (hx : x.sent = []) :
    parts.appRun server request x =
      answered server (handleUnhandledHttpException parts.starlette parts.logging) request false 0
        ((parts.innerRun server request x).1,
          restored x ((parts.innerRun server request x).2.mapSent
            (Message.mapHeaders (parts.leaving server request x)))) := by
  -- outermost first: server errors, the request id, the security headers
  have hentered : (entered server request x).sent = [] := by rw [entered_sent, hx]
  have hsecure := secureASGIMiddleware_run parts.secure parts.inner server request hentered
  have hwrap := run_wrapSend_of_fresh server
    (withRequestId parts.starlette (chosenId server request x))
    (secureASGIMiddleware parts.secure parts.inner (.http request)) hentered
  have hcorrelation := correlationIdMiddleware_run parts.starlette
    (secureASGIMiddleware parts.secure parts.inner) server request x
  have hstack := parts.starlette.serverErrorMiddleware_http
    (handleUnhandledHttpException parts.starlette parts.logging)
    (correlationIdMiddleware parts.starlette (secureASGIMiddleware parts.secure parts.inner))
    request server x
  rw [hcorrelation, hwrap, hsecure, hx] at hstack
  simp only [Exchange.mapSent_mapSent, withRequestId, Message.mapHeaders_comp] at hstack
  exact hstack

section
variable {parts server request x} {headers : List Header} {h : Header}

theorem mem_leaving : h ∈ parts.leaving server request x headers ↔
    h = ("x-request-id", chosenId server request x) ∨
      (h.1 ≠ "x-request-id" ∧ h ∈ parts.secure.outgoing request.path headers) := by
  have hlower : lower requestIdHeader = "x-request-id" := by decide
  rw [leaving, Starlette.mem_setItem, hlower]

theorem leaving_preset (hh : h ∈ parts.secure.preset) :
    (isDocsPath request.path = true ∧ isCsp h.1 = true) ∨
      h ∈ parts.leaving server request x headers := by
  have hname : h.1 ≠ "x-request-id" := by
    intro hname
    have hlower := parts.secure.preset_requestId h hh
    rw [hname] at hlower
    exact hlower (by decide)
  obtain hdocs | hmem := parts.secure.outgoing_preset request.path headers hh
  · exact .inl hdocs
  · exact .inr (mem_leaving.mpr (.inr ⟨hname, hmem⟩))

theorem leaving_csp : (∃ h ∈ parts.leaving server request x headers, isCsp h.1 = true) ↔
    isDocsPath request.path = false := by
  rw [← parts.secure.outgoing_csp request.path headers]
  constructor
  · rintro ⟨h, hmem, hcsp⟩
    obtain rfl | ⟨-, hmem⟩ := mem_leaving.mp hmem
    · exact absurd hcsp (by decide : ¬ isCsp "x-request-id" = true)
    · exact ⟨h, hmem, hcsp⟩
  · rintro ⟨h, hmem, hcsp⟩
    refine ⟨h, mem_leaving.mpr (.inr ⟨?_, hmem⟩), hcsp⟩
    intro hname
    rw [hname] at hcsp
    exact absurd hcsp (by decide)

theorem setBy_requestId : setBy parts.secure.preset "x-request-id" = false := by
  have hlower : lower "x-request-id" = "x-request-id" := by decide
  rw [setBy, hlower, List.any_eq_false]
  intro h hmem
  simpa using parts.secure.preset_requestId h hmem

theorem leaving_kept (hset : setBy parts.secure.preset h.1 = false) :
    h ∈ parts.leaving server request x headers ↔
      (h.1 = "x-request-id" → h.2 = chosenId server request x) ∧
        (h.1 ≠ "x-request-id" → h ∈ parts.secure.apply headers) := by
  have hout : h ∈ parts.secure.outgoing request.path headers ↔ h ∈ parts.secure.apply headers :=
    parts.secure.mem_outgoing request.path hset
  rw [mem_leaving, hout]
  by_cases hname : h.1 = "x-request-id"
  · simp [hname, Prod.ext_iff]
  · simp [hname, Prod.ext_iff]

end

/-- Every response start sent carries the preset, `Content-Security-Policy` exactly
off the documentation pages, and what the inner response had besides. -/
structure Secured (secure : Secure) (path : String) (inner outer : List Message) : Prop where
  preset : ∀ status headers, Message.responseStart status headers ∈ outer →
    ∀ h ∈ secure.preset, (isDocsPath path = true ∧ isCsp h.1 = true) ∨ h ∈ headers
  csp : ∀ status headers, Message.responseStart status headers ∈ outer →
    ((∃ h ∈ headers, isCsp h.1 = true) ↔ isDocsPath path = false)
  kept : ∀ (k : ℕ) status headers, inner[k]? = some (Message.responseStart status headers) →
    ∃ headers', outer[k]? = some (Message.responseStart status headers') ∧
      ∀ h ∈ headers, setBy secure.preset h.1 = false → h ∈ headers'

/-- An `Exception` that can be logged leaves the inner application, no response having
been started. -/
def EscapesUnanswered (out : Except Raised Unit × Exchange HttpRecord) : Prop :=
  (∃ exc, out.1 = .error (.exception exc) ∧ parts.logging.Loggable exc) ∧
    out.2.sent.any Message.startsResponse = false

def left : Exchange HttpRecord :=
  restored x ((parts.innerRun server request x).2.mapSent
    (Message.mapHeaders (parts.leaving server request x)))

theorem left_sent : (parts.left server request x).sent =
    (parts.innerRun server request x).2.sent.map
      (Message.mapHeaders (parts.leaving server request x)) := rfl

theorem left_started : (parts.left server request x).sent.any Message.startsResponse =
    (parts.innerRun server request x).2.sent.any Message.startsResponse := by
  rw [left_sent, List.any_map]
  congr 1
  funext message
  exact Message.startsResponse_mapHeaders _ message

theorem appRun_of_exception (hx : x.sent = []) {exc : Exn}
    (hexc : (parts.innerRun server request x).1 = .error (.exception exc)) :
    parts.appRun server request x =
      (respondAndReraise (handleUnhandledHttpException parts.starlette parts.logging) request exc
        ((parts.innerRun server request x).2.sent.any Message.startsResponse)).run server.handler
          (parts.left server request x) := by
  rw [appRun_eq parts server request x hx, hexc, ← left_started]
  rfl

theorem appRun_of_not_exception (hx : x.sent = [])
    (hexc : ∀ exc, (parts.innerRun server request x).1 ≠ .error (.exception exc)) :
    parts.appRun server request x =
      ((parts.innerRun server request x).1, parts.left server request x) := by
  rw [appRun_eq parts server request x hx]
  unfold left
  rcases hrun : (parts.innerRun server request x).1 with (exc | exc) | u
  · exact absurd hrun (hexc exc)
  · rfl
  · rfl

/-- An `Exception` that can be logged adds its record, and a generic response unless one
has been started. -/
theorem appRun_of_loggable (hx : x.sent = []) {exc : Exn}
    (hexc : (parts.innerRun server request x).1 = .error (.exception exc))
    (hlog : parts.logging.Loggable exc) : ∃ e generic,
    parts.appRun server request x =
      (.error e, { logged parts.logging exc (parts.left server request x) with
        sent := (parts.left server request x).sent ++ generic }) ∧
    match (parts.innerRun server request x).2.sent.any Message.startsResponse with
    | true => e = .exception exc ∧ generic = []
    | false => ∃ rest, (∀ message ∈ rest, message.startsResponse = false) ∧
      generic = genericStart parts.starlette
        ((parts.left server request x).state correlationIdStateKey) :: rest := by
  rw [appRun_of_exception parts server request x hx hexc]
  cases (parts.innerRun server request x).2.sent.any Message.startsResponse with
  | true =>
    rw [respondAndReraise_run_started parts.starlette server request _ hlog]
    refine ⟨_, [], ?_, rfl, rfl⟩
    rw [List.append_nil]
    rfl
  | false =>
    obtain ⟨e, rest, hrun, hrest⟩ := respondAndReraise_run parts.starlette server request
      (parts.left server request x) hlog
    exact ⟨e, _, hrun, rest, hrest, rfl⟩

theorem log_of_loggable (hx : x.sent = []) {exc : Exn}
    (hexc : (parts.innerRun server request x).1 = .error (.exception exc))
    (hlog : parts.logging.Loggable exc) : (parts.appRun server request x).2.log =
      (parts.innerRun server request x).2.log ++ parts.logging.written
        (unhandledRecord exc ((parts.left server request x).state correlationIdStateKey)) := by
  obtain ⟨e, generic, hrun, -⟩ := appRun_of_loggable parts server request x hx hexc hlog
  rw [hrun]
  rfl

theorem appRun_of_not_loggable (hx : x.sent = []) {exc : Exn}
    (hexc : (parts.innerRun server request x).1 = .error (.exception exc))
    (hlog : ¬ parts.logging.Loggable exc) : ∃ failure,
    parts.appRun server request x =
      (.error (.exception failure), parts.left server request x) := by
  rw [appRun_of_exception parts server request x hx hexc]
  exact respondAndReraise_run_error parts.starlette server request _ hlog _

theorem sent_of_answered (hx : x.sent = [])
    (h : ¬ parts.EscapesUnanswered (parts.innerRun server request x)) :
    (parts.appRun server request x).2.sent = (parts.innerRun server request x).2.sent.map
      (Message.mapHeaders (parts.leaving server request x)) := by
  rw [← left_sent]
  by_cases hexc : ∃ exc, (parts.innerRun server request x).1 = .error (.exception exc)
  · obtain ⟨exc, hexc⟩ := hexc
    by_cases hlog : parts.logging.Loggable exc
    · -- an `Exception` after the start of the response goes on to the server
      have hstarted : (parts.innerRun server request x).2.sent.any Message.startsResponse =
          true := by
        by_contra hnot
        exact h ⟨⟨exc, hexc, hlog⟩, by simpa using hnot⟩
      obtain ⟨e, generic, hrun, hgeneric⟩ :=
        appRun_of_loggable parts server request x hx hexc hlog
      rw [hstarted] at hgeneric
      rw [hrun, hgeneric.2]
      exact List.append_nil _
    · obtain ⟨failure, hrun⟩ := appRun_of_not_loggable parts server request x hx hexc hlog
      rw [hrun]
  · rw [appRun_of_not_exception parts server request x hx (not_exists.mp hexc)]

theorem sent_of_escaped (hx : x.sent = [])
    (h : parts.EscapesUnanswered (parts.innerRun server request x)) : ∃ correlationId rest,
    (parts.appRun server request x).2.sent = (parts.innerRun server request x).2.sent.map
      (Message.mapHeaders (parts.leaving server request x)) ++
        genericStart parts.starlette correlationId :: rest := by
  obtain ⟨⟨exc, hexc, hlog⟩, hunstarted⟩ := h
  obtain ⟨e, generic, hrun, hgeneric⟩ := appRun_of_loggable parts server request x hx hexc hlog
  rw [hunstarted] at hgeneric
  obtain ⟨rest, -, rfl⟩ := hgeneric
  rw [hrun]
  exact ⟨_, rest, rfl⟩

theorem not_secured_of_escaped (hx : x.sent = [])
    (h : parts.EscapesUnanswered (parts.innerRun server request x)) :
    ¬ Secured parts.secure request.path (parts.innerRun server request x).2.sent
      (parts.appRun server request x).2.sent := by
  intro hsecured
  obtain ⟨correlationId, rest, hsent⟩ := sent_of_escaped parts server request x hx h
  obtain ⟨nosniff, hpreset, hname⟩ := parts.secure.preset_nosniff
  have hstart : genericStart parts.starlette correlationId ∈
      (parts.appRun server request x).2.sent := by
    rw [hsent]
    simp
  obtain ⟨-, hcsp⟩ | hmem := hsecured.preset _ _ hstart nosniff hpreset
  · rw [isCsp, hname] at hcsp
    exact absurd hcsp (by decide)
  · obtain hgiven | hgiven | hgiven := genericResponse_names parts.starlette correlationId hmem
    all_goals
      rw [hgiven] at hname
      exact absurd hname (by decide)

theorem secured_of_answered (hx : x.sent = [])
    (h : ¬ parts.EscapesUnanswered (parts.innerRun server request x)) :
    Secured parts.secure request.path (parts.innerRun server request x).2.sent
      (parts.appRun server request x).2.sent ↔
    ∀ status headers, Message.responseStart status headers ∈
      (parts.innerRun server request x).2.sent → parts.secure.Keeps headers ∧
        ∀ value, ("x-request-id", value) ∈ headers → value = chosenId server request x := by
  rw [sent_of_answered parts server request x hx h]
  constructor
  · intro hsecured status headers hmem
    obtain ⟨k, hk⟩ := List.mem_iff_getElem?.mp hmem
    obtain ⟨headers', houter, hkept⟩ := hsecured.kept k status headers hk
    rw [List.getElem?_map, hk] at houter
    cases houter
    refine ⟨fun h hh hset hname => ?_, fun value hvalue => ?_⟩
    · exact ((leaving_kept hset).mp (hkept h hh hset)).2 hname
    · have hleaving := hkept ("x-request-id", value) hvalue setBy_requestId
      exact ((leaving_kept (h := ("x-request-id", value)) setBy_requestId).mp hleaving).1 rfl
  · intro hinner
    have hbefore : ∀ status headers, Message.responseStart status headers ∈
        (parts.innerRun server request x).2.sent.map
          (Message.mapHeaders (parts.leaving server request x)) →
        ∃ before, headers = parts.leaving server request x before := by
      intro status headers hmem
      obtain ⟨message, -, heq⟩ := List.mem_map.mp hmem
      obtain ⟨before, -, hheaders⟩ := Message.mapHeaders_eq_responseStart.mp heq
      exact ⟨before, hheaders⟩
    refine ⟨?_, ?_, ?_⟩
    · intro status headers hmem h hpreset
      obtain ⟨before, rfl⟩ := hbefore status headers hmem
      exact leaving_preset hpreset
    · intro status headers hmem
      obtain ⟨before, rfl⟩ := hbefore status headers hmem
      exact leaving_csp
    · intro k status headers hk
      refine ⟨parts.leaving server request x headers, by simp [hk, Message.mapHeaders], ?_⟩
      intro h hh hset
      obtain ⟨hkeeps, hid⟩ := hinner status headers (List.mem_of_getElem? hk)
      exact (leaving_kept hset).mpr ⟨fun hname => hid h.2 (hname ▸ hh), hkeeps h hh hset⟩

/-- A route raises: the generic response has none of the preset. -/
theorem generic_response_unsecured :
    let parts : AppParts :=
      ⟨Asgi.starlette, balanced, .toStdout, id, fun _ => .throw (.exception "boom")⟩
    let server : Server := ⟨fun _ => .ok (), fun _ => .ok (.other "http.request" ""), fun _ => "id"⟩
    let x : Exchange HttpRecord := .start (fun _ => none) fun _ => none
    ¬ Secured balanced "/" (parts.innerRun server ⟨"/", []⟩ x).2.sent
      (parts.appRun server ⟨"/", []⟩ x).2.sent := by
  intro parts server x
  exact parts.not_secured_of_escaped server ⟨"/", []⟩ x rfl
    ⟨⟨_, rfl, ProcessLogging.loggable_toStdout "boom"⟩, rfl⟩

/-- For every request, whatever the inner application does and however the server
answers: the responses are secured if and only if no `Exception` that can be logged
leaves the inner application unanswered, the library keeps the other headers of its
responses, and they carry no request id but the one chosen. -/
theorem secured_iff_answered (state context : String → Option String) :
    Secured parts.secure request.path
      (parts.innerRun server request (.start state context)).2.sent
      (parts.appRun server request (.start state context)).2.sent ↔
    ¬ parts.EscapesUnanswered (parts.innerRun server request (.start state context)) ∧
    ∀ status headers, Message.responseStart status headers ∈
      (parts.innerRun server request (.start state context)).2.sent →
        parts.secure.Keeps headers ∧ ∀ value, ("x-request-id", value) ∈ headers →
          value = chosenId server request (.start state context : Exchange HttpRecord) := by
  by_cases hescapes :
      parts.EscapesUnanswered (parts.innerRun server request (.start state context))
  · have hnot := parts.not_secured_of_escaped server request (.start state context) rfl hescapes
    simp only [hnot, hescapes, not_true_eq_false, false_and]
  · have hiff := parts.secured_of_answered server request (.start state context) rfl hescapes
    simp only [hiff, hescapes, not_false_eq_true, true_and]

end AppParts

end PolyrepoTemplate
