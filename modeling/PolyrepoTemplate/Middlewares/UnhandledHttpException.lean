import PolyrepoTemplate.Logger.Uvicorn
import PolyrepoTemplate.Middlewares.CorrelationId

namespace PolyrepoTemplate

open Async Asgi Text

def unhandledHttpEvent : PyStr := "http.unhandled_exception"

def genericBody : String := "Internal Server Error"

/-- The id goes into the response unless it is missing or empty. -/
def responseHeaders : Option String → List Header
  | some correlationId => if correlationId ≠ "" then [(requestIdHeader, correlationId)] else []
  | none => []

def unhandledRecord (exc : Exn) (correlationId : Option String) : HttpRecord :=
  ⟨.error, unhandledHttpEvent, some (.exception exc), correlationId⟩

def handleUnhandledHttpException (lib : Starlette HttpRecord) (logging : ProcessLogging) :
    ExceptionHandler HttpRecord :=
  fun _ exc => do
    let correlationId ← perform (.getState correlationIdStateKey)
    logging.log (unhandledRecord exc correlationId)
    return ⟨500, lib.plainTextHeaders genericBody (responseHeaders correlationId), genericBody⟩

def genericResponse (lib : Starlette HttpRecord) (correlationId : Option String) : Response :=
  ⟨500, lib.plainTextHeaders genericBody (responseHeaders correlationId), genericBody⟩

def genericStart (lib : Starlette HttpRecord) (correlationId : Option String) : Message :=
  .responseStart 500 (genericResponse lib correlationId).headers

theorem genericResponse_names (lib : Starlette HttpRecord) (correlationId : Option String)
    {h : Header} (hh : h ∈ (genericResponse lib correlationId).headers) :
    h.1 = "x-request-id" ∨ h.1 = "content-length" ∨ h.1 = "content-type" := by
  obtain ⟨own, heq, hown⟩ := lib.plainTextHeaders_eq genericBody (responseHeaders correlationId)
  simp only [genericResponse, heq, List.mem_append, List.mem_map] at hh
  obtain ⟨given, hgiven, rfl⟩ | hh := hh
  · left
    cases correlationId with
    | none => cases hgiven
    | some id =>
      simp only [responseHeaders] at hgiven
      split at hgiven
      · rw [List.mem_singleton.mp hgiven]
        exact (by decide : lower requestIdHeader = "x-request-id")
      · cases hgiven
  · exact .inr (hown h hh)

section
variable (lib : Starlette HttpRecord) {logging : ProcessLogging} (server : Server)
  (request : HttpScope) {exc : Exn} (x : Exchange HttpRecord)

def logged (logging : ProcessLogging) (exc : Exn) (x : Exchange HttpRecord) :
    Exchange HttpRecord :=
  { x with log := x.log ++ logging.written (unhandledRecord exc (x.state correlationIdStateKey)) }

theorem handler_run (h : logging.Loggable exc) :
    (handleUnhandledHttpException lib logging request exc).run server.handler x =
      (.ok (genericResponse lib (x.state correlationIdStateKey)), logged logging exc x) := by
  have hlog := ProcessLogging.run_log_of_loggable server x
    (r := unhandledRecord exc (x.state correlationIdStateKey)) rfl (PyStr.encodable_ofString _)
    rfl h
  have hstate : server.handler.exec (.getState correlationIdStateKey) x =
      (.ok (x.state correlationIdStateKey), x) := rfl
  rw [handleUnhandledHttpException, Coro.bind_eq, Coro.run_bind, run_perform, hstate]
  simp only [Coro.bind_eq, Coro.run_bind, hlog]
  rfl

theorem handler_run_error (h : ¬ logging.Loggable exc) : ∃ failure,
    (handleUnhandledHttpException lib logging request exc).run server.handler x =
      (.error (.exception failure), x) := by
  obtain ⟨failure, hlog⟩ := ProcessLogging.run_log_of_not_loggable server x
    (r := unhandledRecord exc (x.state correlationIdStateKey)) rfl (PyStr.encodable_ofString _)
    rfl h
  have hstate : server.handler.exec (.getState correlationIdStateKey) x =
      (.ok (x.state correlationIdStateKey), x) := rfl
  refine ⟨failure, ?_⟩
  rw [handleUnhandledHttpException, Coro.bind_eq, Coro.run_bind, run_perform, hstate]
  simp only [Coro.bind_eq, Coro.run_bind, hlog]

theorem respondAndReraise_run_error (h : ¬ logging.Loggable exc) (started : Bool) :
    ∃ failure, (respondAndReraise (handleUnhandledHttpException lib logging) request exc
      started).run server.handler x = (.error (.exception failure), x) := by
  obtain ⟨failure, hhandler⟩ := handler_run_error lib server request x h
  refine ⟨failure, ?_⟩
  rw [respondAndReraise, Coro.bind_eq, Coro.run_bind, hhandler]

theorem respondAndReraise_run_started (h : logging.Loggable exc) :
    (respondAndReraise (handleUnhandledHttpException lib logging) request exc true).run
      server.handler x = (.error (.exception exc), logged logging exc x) := by
  rw [respondAndReraise, Coro.bind_eq, Coro.run_bind, handler_run lib server request x h]
  rfl

/-- The response is started, and perhaps gets its body; then the exception goes on, unless
the server has refused a message. -/
theorem respondAndReraise_run (h : logging.Loggable exc) : ∃ e rest,
    (respondAndReraise (handleUnhandledHttpException lib logging) request exc false).run
      server.handler x = (.error e, { logged logging exc x with
        sent := x.sent ++ genericStart lib (x.state correlationIdStateKey) :: rest }) ∧
    ∀ message ∈ rest, message.startsResponse = false := by
  obtain ⟨rest, hsend, hrest⟩ := (genericResponse lib (x.state correlationIdStateKey)).send_run
    server (logged logging exc x)
  have hrun : (respondAndReraise (handleUnhandledHttpException lib logging) request exc false).run
      server.handler x = match (genericResponse lib (x.state correlationIdStateKey)).send.run
        server.handler (logged logging exc x) with
        | (.ok _, y) => (.error (.exception exc), y)
        | (.error e, y) => (.error e, y) := by
    rw [respondAndReraise, Coro.bind_eq, Coro.run_bind, handler_run lib server request x h]
    simp only [Bool.false_eq_true, if_false, Coro.bind_eq, Coro.bind, Coro.run_bind]
    rcases (genericResponse lib (x.state correlationIdStateKey)).send.run server.handler
      (logged logging exc x) with ⟨_ | _, _⟩ <;> rfl
  rcases hout : (genericResponse lib (x.state correlationIdStateKey)).send.run server.handler
    (logged logging exc x) with ⟨e | u, y⟩
  · rw [hout] at hrun hsend
    exact ⟨e, rest, hrun.trans (congrArg (Prod.mk _) hsend), hrest⟩
  · rw [hout] at hrun hsend
    exact ⟨_, rest, hrun.trans (congrArg (Prod.mk _) hsend), hrest⟩

end

end PolyrepoTemplate
