import PolyrepoTemplate.Asgi.App
import PolyrepoTemplate.Logger.Stream

namespace PolyrepoTemplate

open Async Asgi Text

structure HttpRecord where
  level : LogLevel
  event : PyStr
  excInfo : Option Raised
  correlationId : Option String
  deriving DecidableEq, Repr

def HttpRecord.kwargs (r : HttpRecord) : Fields Raised :=
  let exc : Fields Raised :=
    match r.excInfo with
    | some e => Dict.empty.set "exc_info" (.exception e)
    | none => Dict.empty
  match r.correlationId with
  | some correlationId => exc.set "correlation_id" (.text correlationId)
  | none => exc

def HttpRecord.call (r : HttpRecord) : LogCall Raised := ⟨.named r.level, r.event, r.kwargs⟩

def uvicornLogger : ChildLogger Raised :=
  ChildLogger.bind ⟨.empty⟩ (Dict.empty.set "context" (.text "uvicorn"))

structure ProcessLogging where
  manager : LogManager Raised
  surroundings : Surroundings Raised
  manager_plain : manager.Plain
  surroundings_plain : surroundings.Plain manager

namespace ProcessLogging

def toStdout : ProcessLogging where
  manager := ⟨.info, .dev, "0.1.0", "host", Raised.traceback, fun _ => .null⟩
  surroundings := ⟨.empty, "2026-01-01T00:00:00Z", "", none⟩
  manager_plain := ⟨PyStr.encodable_ofString _, PyStr.encodable_ofString _⟩
  surroundings_plain := ⟨plain_empty, PyStr.encodable_ofString _, PyStr.encodable_ofString _,
    fun e he => absurd he (Option.some_ne_none e).symm⟩

variable (logging : ProcessLogging)

def admitsError : Bool := logging.manager.minLogLevel.admits .error

def recordOf (r : HttpRecord) : Fields Raised :=
  logging.manager.record uvicornLogger r.call logging.surroundings

def serialize (r : HttpRecord) : Except UnicodeEncodeError (List UInt8) :=
  logging.manager.serialize (logging.recordOf r)

def log (r : HttpRecord) : AsgiM HttpRecord Unit :=
  if logging.manager.minLogLevel.admits r.level then
    match logging.serialize r with
    | .ok _ => Coro.tell r
    | .error e => Coro.throw (.exception (.during (e.text : PyStr) r.excInfo))
  else return ()

end ProcessLogging

structure LogRecord where
  levelno : ℕ
  message : PyStr
  excInfo : Option Raised
  deriving DecidableEq, Repr

def uvicornAsgiExceptionPrefix : PyStr := "Exception in ASGI application"

def uvicornAsgiExceptionFilter (record : LogRecord) : Bool :=
  !uvicornAsgiExceptionPrefix.isPrefixOf record.message

def structlogMethodForLevel (levelno : ℕ) : LogLevel :=
  if levelno ≥ 50 then .critical
  else if levelno ≥ 40 then .error
  else if levelno ≥ 30 then .warning
  else if levelno ≥ 20 then .info
  else .debug

namespace ProcessLogging

variable (logging : ProcessLogging)

/-- `UvicornLogHandler.emit`: what a failing call raises goes to `handleError`. -/
def emit (record : LogRecord) (out : List HttpRecord) : List HttpRecord :=
  -- the tuple of `exc_info` is formatted as the exception in it is
  let r : HttpRecord :=
    ⟨structlogMethodForLevel record.levelno, record.message, record.excInfo, none⟩
  if logging.manager.minLogLevel.admits r.level then
    match logging.serialize r with
    | .ok _ => out ++ [r]
    | .error _ => out
  else out

def uvicornError (record : LogRecord) (out : List HttpRecord) : List HttpRecord :=
  if record.levelno ≥ 10 ∧ uvicornAsgiExceptionFilter record then logging.emit record out else out

def asgiException (e : Raised) : LogRecord :=
  ⟨40, "Exception in ASGI application\n", some e⟩

theorem uvicornError_asgiException (e : Raised) (out : List HttpRecord) :
    logging.uvicornError (asgiException e) out = out := by
  have hdropped : uvicornAsgiExceptionFilter (asgiException e) = false := by
    show (!uvicornAsgiExceptionPrefix.isPrefixOf
      (PyStr.ofString "Exception in ASGI application\n")) = false
    decide
  unfold uvicornError
  rw [hdropped]
  exact if_neg (by simp)

variable {logging} {r : HttpRecord}

theorem readable_kwargs
    (h : ∀ e, r.excInfo = some e → (logging.manager.formatException e).Encodable) :
    ReadableFields logging.manager r.kwargs := by
  have hexc : ReadableFields logging.manager (match r.excInfo with
      | some e => Dict.empty.set "exc_info" (.exception e)
      | none => Dict.empty) := by
    cases he : r.excInfo with
    | none => exact plain_empty.readable
    | some e =>
      exact plain_empty.readable.set ⟨PyStr.encodable_ofString _,
        .inr ⟨rfl, e, rfl, h e he⟩⟩
  unfold HttpRecord.kwargs
  cases r.correlationId with
  | none => exact hexc
  | some correlationId => exact ReadableFields.setText hexc (PyStr.encodable_ofString _)

theorem plain_uvicornLogger : PlainFields uvicornLogger.bound :=
  plain_empty.update (plain_empty.setText (PyStr.encodable_ofString _))

theorem get?_keywords_excInfo {e : Raised} (h : r.excInfo = some e) :
    r.call.keywords.get? "exc_info" = some (.exception e) := by
  show r.kwargs.get? "exc_info" = _
  unfold HttpRecord.kwargs
  rw [h]
  cases r.correlationId with
  | none => exact Dict.get?_set_self ..
  | some correlationId =>
    show (Dict.set _ _ _).get? _ = _
    rw [Dict.get?_set_of_ne _ _ (by decide), Dict.get?_set_self]

/-- The record of a call is written exactly when the traceback of the exception it reports
has a UTF-8 form. -/
theorem serialize_isOk (hevent : r.event.Encodable) : (∃ line, logging.serialize r = .ok line) ↔
    ∀ e, r.excInfo = some e → (logging.manager.formatException e).Encodable := by
  constructor
  · rintro hline e he
    have hencodable := (logging.manager.serialize_isOk _).mp hline
    -- the traceback is a value of the record
    have hrecord : (logging.recordOf r).get? "exception" =
        some (.text (logging.manager.formatException e)) :=
      LogManager.get?_record_exception (get?_keywords_excInfo he)
    have hentry : (PyStr.ofString "exception", Json.str (logging.manager.formatException e)) ∈
        ((logging.recordOf r).mapValues logging.manager.toJson).entries := by
      rw [Dict.mem_entries, Dict.get?_mapValues]
      exact congrArg (Option.map logging.manager.toJson) hrecord
    have hstring := (Json.encodable_obj.mp hencodable _ hentry).2
    exact List.forall_mem_singleton.mp hstring
  · intro h
    obtain ⟨chars, fields, hline, -⟩ := logging.manager.serialize_plain
      (LogManager.plain_record logging.manager_plain logging.surroundings_plain
        plain_uvicornLogger (readable_kwargs h) (show r.call.event.Encodable from hevent))
    exact ⟨_, hline⟩

/-- What a traceback prints of the exception has a UTF-8 form. -/
def Renders (logging : ProcessLogging) (exc : Exn) : Prop :=
  (logging.manager.formatException (.exception exc)).Encodable

def Loggable (logging : ProcessLogging) (exc : Exn) : Prop :=
  logging.admitsError = true → logging.Renders exc

theorem loggable_toStdout (text : String) : toStdout.Loggable (text : PyStr) :=
  fun _ => PyStr.encodable_ofString text

def written (logging : ProcessLogging) (r : HttpRecord) : List HttpRecord :=
  if logging.admitsError then [r] else []

section
variable {exc : Exn} (server : Server) (x : Exchange HttpRecord)

theorem run_log_of_loggable (hlevel : r.level = .error) (hevent : r.event.Encodable)
    (hexc : r.excInfo = some (.exception exc)) (h : logging.Loggable exc) :
    (logging.log r).run server.handler x =
      (.ok (), { x with log := x.log ++ logging.written r }) := by
  unfold log written
  rw [hlevel, ← admitsError]
  cases hadmits : logging.admitsError with
  | false =>
    rw [if_neg Bool.false_ne_true, if_neg Bool.false_ne_true, List.append_nil]
    rfl
  | true =>
    have hencodable : ∀ e, r.excInfo = some e →
        (logging.manager.formatException e).Encodable := by
      rw [hexc]
      rintro e ⟨⟩
      exact h hadmits
    obtain ⟨line, hline⟩ := (serialize_isOk hevent).mpr hencodable
    rw [if_pos rfl, if_pos rfl, hline]
    rfl

theorem run_log_of_not_loggable (hlevel : r.level = .error) (hevent : r.event.Encodable)
    (hexc : r.excInfo = some (.exception exc)) (h : ¬ logging.Loggable exc) :
    ∃ failure, (logging.log r).run server.handler x = (.error (.exception failure), x) := by
  obtain ⟨hadmits, htext⟩ := Classical.not_imp.mp h
  cases hserialize : logging.serialize r with
  | ok line => exact absurd ((serialize_isOk hevent).mp ⟨line, hserialize⟩ _ hexc) htext
  | error e =>
    refine ⟨.during (e.text : PyStr) r.excInfo, ?_⟩
    unfold log
    rw [hlevel, ← admitsError, if_pos hadmits, hserialize]
    rfl

end

end ProcessLogging

end PolyrepoTemplate
