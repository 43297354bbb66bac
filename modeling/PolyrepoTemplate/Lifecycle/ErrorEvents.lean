import PolyrepoTemplate.Lifecycle.CreateApp

namespace PolyrepoTemplate

open Async Asgi Text

def reports (e : Raised) (out : List HttpRecord) : ℕ :=
  out.countP fun r => r.level = .error ∧ r.excInfo = some e

theorem reports_append_unhandled (e : Raised) (out : List HttpRecord) (exc : Exn)
    (correlationId : Option String) : reports e (out ++ [unhandledRecord exc correlationId]) =
      reports e out + if e = .exception exc then 1 else 0 := by
  rw [reports, List.countP_append, List.countP_singleton, ← reports]
  congr 1
  apply if_congr _ rfl rfl
  simp [unhandledRecord, eq_comm]

namespace AppParts

variable (parts : AppParts) (server : Server) (request : HttpScope) (x : Exchange HttpRecord)

/-- The stream once `run_asgi` has dealt with the end of the application. -/
def stream : List HttpRecord :=
  match parts.appRun server request x with
  | (.error e, y) => parts.logging.uvicornError (ProcessLogging.asgiException e) y.log
  | (.ok _, y) => y.log

theorem stream_eq : parts.stream server request x = (parts.appRun server request x).2.log := by
  unfold stream
  rcases parts.appRun server request x with ⟨e | u, y⟩
  · exact ProcessLogging.uvicornError_asgiException _ e y.log
  · rfl

theorem left_log : (parts.left server request x).log =
    (parts.innerRun server request x).2.log := rfl

variable {x} {e : Raised}

/-- A cancelled request leaves no record. -/
theorem cancelled_unreported :
    let e : Raised := .baseException "CancelledError()"
    let parts : AppParts := ⟨Asgi.starlette, balanced, .toStdout, id, fun _ => .throw e⟩
    let server : Server := ⟨fun _ => .ok (), fun _ => .ok (.other "http.request" ""), fun _ => "id"⟩
    let x : Exchange HttpRecord := .start (fun _ => none) fun _ => none
    parts.logging.admitsError = true ∧ (parts.appRun server ⟨"/", []⟩ x).1 = .error e ∧
      reports e (parts.stream server ⟨"/", []⟩ x) = 0 := by
  intro e parts server x
  have hinner : (parts.innerRun server ⟨"/", []⟩ x).1 = .error e := rfl
  have hrun := appRun_of_not_exception parts server ⟨"/", []⟩ x rfl fun exc h => by
    have hkind : Raised.baseException "CancelledError()" = .exception exc :=
      Except.error.inj (hinner.symm.trans h)
    cases hkind
  refine ⟨rfl, ?_, ?_⟩
  · rw [hrun, hinner]
  · rw [stream_eq, hrun]
    rfl

/-- The handler reports `e`: an `Exception` that leaves the inner application, and that a
traceback can be written of. -/
def Handled (x : Exchange HttpRecord) (e : Raised) : Prop :=
  (∃ exc, e = .exception exc ∧ parts.logging.Renders exc) ∧
    (parts.innerRun server request x).1 = .error e

theorem reports_of_handled (hx : x.sent = []) (hlevel : parts.logging.admitsError = true)
    (h : parts.Handled server request x e) : reports e (parts.stream server request x) =
      reports e (parts.innerRun server request x).2.log + 1 := by
  obtain ⟨⟨exc, rfl, hrenders⟩, hinner⟩ := h
  have hlog := parts.log_of_loggable server request x hx hinner fun _ => hrenders
  rw [stream_eq, hlog, ProcessLogging.written, if_pos hlevel, reports_append_unhandled, if_pos rfl]

theorem reports_of_not_handled (hx : x.sent = []) (hlevel : parts.logging.admitsError = true)
    (h : ¬ parts.Handled server request x e) : reports e (parts.stream server request x) =
      reports e (parts.innerRun server request x).2.log := by
  rw [stream_eq]
  by_cases hexc : ∃ exc, (parts.innerRun server request x).1 = .error (.exception exc)
  · obtain ⟨exc, hexc⟩ := hexc
    by_cases hrenders : parts.logging.Renders exc
    · -- the record is of another exception
      have hlog := parts.log_of_loggable server request x hx hexc fun _ => hrenders
      have hne : e ≠ .exception exc := by
        rintro rfl
        exact h ⟨⟨exc, rfl, hrenders⟩, hexc⟩
      rw [hlog, ProcessLogging.written, if_pos hlevel, reports_append_unhandled, if_neg hne,
        Nat.add_zero]
    · -- the encoder's exception has taken its place
      obtain ⟨failure, hrun⟩ := appRun_of_not_loggable parts server request x hx hexc
        fun h => hrenders (h hlevel)
      rw [hrun, left_log]
  · rw [appRun_of_not_exception parts server request x hx (not_exists.mp hexc), left_log]

/-- For every request, however the inner application ends and the server answers, and the
level admitting errors: there is exactly one record of `e` if and only if the handler
reports it and the inner application has not, or the other way round. -/
theorem reported_iff (state context : String → Option String) (e : Raised)
    (hlevel : parts.logging.admitsError = true) :
    reports e (parts.stream server request (.start state context)) = 1 ↔
      (parts.Handled server request (.start state context) e ∧
        reports e (parts.innerRun server request (.start state context)).2.log = 0) ∨
      (¬ parts.Handled server request (.start state context) e ∧
        reports e (parts.innerRun server request (.start state context)).2.log = 1) := by
  by_cases h : parts.Handled server request (.start state context) e
  · rw [reports_of_handled parts server request rfl hlevel h]
    simp [h]
  · rw [reports_of_not_handled parts server request rfl hlevel h]
    simp [h]

/-- An exception after the start of the response is reported once, and one whose cause is a
lone surrogate not at all. -/
theorem reported_iff_started :
    let e : Raised := .exception "boom"
    let caused : Raised := .exception ⟨"boom", [[.surrogate 0]]⟩
    let parts (e : Raised) : AppParts := ⟨Asgi.starlette, balanced, .toStdout, id, fun _ =>
      (perform (.send (.responseStart 200 []))).bind fun _ => .throw e⟩
    let server : Server := ⟨fun _ => .ok (), fun _ => .ok (.other "http.request" ""), fun _ => "id"⟩
    let x : Exchange HttpRecord := .start (fun _ => none) fun _ => none
    reports e ((parts e).stream server ⟨"/", []⟩ x) = 1 ∧
      reports caused ((parts caused).stream server ⟨"/", []⟩ x) ≠ 1 := by
  intro e caused parts server x
  constructor
  · exact ((parts e).reported_iff server ⟨"/", []⟩ _ _ e rfl).mpr
      (.inl ⟨⟨⟨"boom", rfl, PyStr.encodable_ofString _⟩, rfl⟩, rfl⟩)
  · intro hone
    rcases ((parts caused).reported_iff server ⟨"/", []⟩ _ _ caused rfl).mp hone with
      ⟨⟨⟨exc, hexc, hrenders⟩, -⟩, -⟩ | ⟨-, hinner⟩
    · obtain rfl := Raised.exception.inj hexc
      obtain ⟨char, hchar⟩ := hrenders (.surrogate 0) (List.mem_cons_self ..)
      cases hchar
    · cases hinner

end AppParts

end PolyrepoTemplate
