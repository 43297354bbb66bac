import PolyrepoTemplate.Logger.Writes

namespace PolyrepoTemplate

open Asgi Text

/-- A class of exceptions, by the names of its `__mro__`. -/
structure ExcClass where
  mro : List String
  deriving DecidableEq, Repr

def ExcClass.isSubclass (cls : ExcClass) (names : List String) : Bool :=
  names.any fun name => cls.mro.contains name

/-- The stream of the log manager, what the interpreter's own hook was called with, and the
records that handlers of other loggers, or the one of last resort, have printed. -/
structure ProcessOutput where
  stream : List UInt8
  fallbacks : List (ExcClass × Raised)
  unstructured : List LogRecord

namespace ProcessOutput

/-- A call of a child logger. What it raises does not come back to the caller of a hook. -/
def log (m : LogManager Raised) (c : Logging Raised) (out : ProcessOutput) : ProcessOutput :=
  { out with stream := (m.log c out.stream).2 }

end ProcessOutput

def child (name : PyStr) : ChildLogger Raised :=
  ChildLogger.bind ⟨.empty⟩ (Dict.empty.set "context" (.text name))

example (m : LogManager Raised) : m.getChildLogger "uvicorn" = .ok (child "uvicorn") := rfl

section
variable (m : LogManager Raised) (s : Surroundings Raised)

/-- `make_sys_excepthook`, the fallback being the interpreter's hook. -/
def handleUncaughtException (logger : ChildLogger Raised) (excType : ExcClass) (excValue : Raised)
    (out : ProcessOutput) : ProcessOutput :=
  if excType.isSubclass ["KeyboardInterrupt", "SystemExit"] then
    { out with fallbacks := out.fallbacks ++ [(excType, excValue)] }
  else
    out.log m ⟨logger, ⟨.named .error, "process.unhandled_exception",
      Dict.empty.set "exc_info" (.excInfo excValue)⟩, s⟩

def optionalText : Option PyStr → Json
  | some text => .str text
  | none => .null

/-- `make_asyncio_exception_handler`. The exception of a context is `none` where it has
none that is a `BaseException`. -/
def handleAsyncioException (logger : ChildLogger Raised) (exception : Option Raised)
    (message : Option PyStr) (out : ProcessOutput) : ProcessOutput :=
  match exception with
  | some exc => out.log m ⟨logger, ⟨.named .error, "asyncio.unhandled_exception",
      Dict.empty.set "exc_info" (.exception exc)⟩, s⟩
  | none => out.log m ⟨logger, ⟨.named .error, "asyncio.unhandled_exception",
      Dict.empty.set "asyncio_message" (.json (optionalText message))⟩, s⟩

/-- `UvicornLogHandler.emit`; a failing call goes to `handleError`. -/
def uvicornLogHandlerEmit (logger : ChildLogger Raised) (record : LogRecord)
    (out : ProcessOutput) : ProcessOutput :=
  out.log m ⟨logger, (⟨structlogMethodForLevel record.levelno, record.message, record.excInfo,
    none⟩ : HttpRecord).call, s⟩

end

structure StdLogger where
  level : ℕ
  propagate : Bool
  filters : List (LogRecord → Bool)
  handlers : List (ChildLogger Raised)

namespace StdLogger

def fresh : StdLogger := ⟨0, true, [], []⟩

def effectiveLevel (logger : StdLogger) : ℕ := if logger.level = 0 then 30 else logger.level

/-- `Logger.handle`. A record no handler is found for is printed by the one of last resort;
`rootPrints` says that the root logger has a handler. -/
def handle (m : LogManager Raised) (s : Surroundings Raised) (rootPrints : Bool)
    (logger : StdLogger) (record : LogRecord) (out : ProcessOutput) : ProcessOutput :=
  if logger.effectiveLevel ≤ record.levelno ∧ logger.filters.all (· record) = true then
    let out := logger.handlers.foldl
      (fun out handler => uvicornLogHandlerEmit m s handler record out) out
    if logger.propagate = true ∧ rootPrints = true ∨ logger.handlers.isEmpty ∧ 30 ≤ record.levelno
    then { out with unstructured := out.unstructured ++ [record] }
    else out
  else out

end StdLogger

def installUvicornErrorLogging (logger : ChildLogger Raised) (uvicornError : StdLogger) :
    StdLogger where
  filters := uvicornError.filters ++ [uvicornAsgiExceptionFilter]
  handlers := uvicornError.handlers ++ [logger]
  level := 10
  propagate := false

def installUvicornAccessLogging (logger : ChildLogger Raised) (uvicornAccess : StdLogger) :
    StdLogger where
  filters := uvicornAccess.filters
  handlers := uvicornAccess.handlers ++ [logger]
  level := 10
  propagate := false

inductive ProcessEvent where
  | uncaught (excType : ExcClass) (excValue : Raised)
  | loopContext (exception : Option Raised) (message : Option PyStr)
  | uvicornError (record : LogRecord)
  | uvicornAccess (record : LogRecord)
  deriving DecidableEq, Repr

structure Process where
  manager : LogManager Raised
  enableUvicornAccessLogs : Bool
  rootPrints : Bool

namespace Process

variable (p : Process)

def errorLogger : StdLogger := installUvicornErrorLogging (child "uvicorn") .fresh

def accessLogger : StdLogger :=
  if p.enableUvicornAccessLogs then installUvicornAccessLogging (child "uvicorn.access") .fresh
  else .fresh

/-- `main` passes the flag on as `access_log`, without which uvicorn makes no record. -/
def step (event : ProcessEvent × Surroundings Raised) (out : ProcessOutput) : ProcessOutput :=
  match event with
  | (.uncaught excType excValue, s) =>
    handleUncaughtException p.manager s (child "sys.excepthook") excType excValue out
  | (.loopContext exception message, s) =>
    handleAsyncioException p.manager s (child "asyncio") exception message out
  | (.uvicornError record, s) => errorLogger.handle p.manager s p.rootPrints record out
  | (.uvicornAccess record, s) =>
    if p.enableUvicornAccessLogs then p.accessLogger.handle p.manager s p.rootPrints record out
    else out

def run (events : List (ProcessEvent × Surroundings Raised)) (out : ProcessOutput) :
    ProcessOutput :=
  events.foldl (fun out event => p.step event out) out

end Process

theorem Value.Plain.decoded {E : Type} {v : Value E} (h : v.Plain) : v.decoded = v := by
  obtain ⟨j, rfl, -⟩ := h
  rfl

theorem LogManager.plain_recordOf_given {E : Type} {m : LogManager E} (hm : m.Plain)
    {c : Logging E} (hs : c.surroundings.Plain m) (hevent : c.call.event.Encodable)
    (hgiven : ∀ (key : PyStr) v, key ≠ "exc_info" → c.given key = some v → key.Encodable ∧ v.Plain)
    (hreported : ∀ e, c.reported = some e → (m.formatException e).Encodable) :
    PlainFields (m.recordOf c) := by
  intro key v hv
  by_cases hown : key ∈ stampedKeys ++ consumedKeys
  swap
  · rw [get?_recordOf_given hown] at hv
    obtain ⟨w, hw, rfl⟩ := Option.map_eq_some_iff.mp hv
    obtain ⟨hkey, hplain⟩ := hgiven key w (fun h => hown (h ▸ by decide)) hw
    exact ⟨hkey, hplain.decoded.symm ▸ hplain⟩
  refine ⟨encodable_ownKey hown, ?_⟩
  rcases List.mem_append.mp hown with hstamped | hconsumed
  · obtain ⟨text, htext, hmem⟩ := get?_recordOf_stamped hstamped
    obtain rfl := Option.some.inj (htext.symm.trans hv)
    apply Value.plain_text
    simp only [List.mem_cons, List.not_mem_nil, or_false] at hmem
    rcases hmem with rfl | rfl | rfl | rfl | rfl | rfl | rfl
    · exact PyStr.encodable_ofString _
    · exact PyStr.encodable_ofString _
    · exact hm.hostname
    · exact hm.appVersion
    · exact PyStr.encodable_ofString _
    · exact hs.now
    · exact hevent
  · have hplain {key : PyStr} (hkey : key ≠ PyStr.ofString "exc_info") {v : Value E}
        (hv : (c.given key).map Value.decoded = some v) : v.Plain := by
      obtain ⟨w, hw, rfl⟩ := Option.map_eq_some_iff.mp hv
      have hw' := (hgiven key w hkey hw).2
      exact hw'.decoded.symm ▸ hw'
    have hsteering (h : key ∈ [PyStr.ofString "event", "exc_info", "stack_info"]) : v.Plain := by
      rw [get?_recordOf_steering h] at hv
      cases hv
    simp only [consumedKeys, List.mem_cons, List.not_mem_nil, or_false] at hconsumed
    obtain rfl | rfl | rfl | rfl | rfl := hconsumed
    · exact hsteering (by decide)
    · exact hsteering (by decide)
    · exact hsteering (by decide)
    · rw [get?_recordOf_exception] at hv
      cases hexc : c.reported with
      | some e =>
        rw [hexc] at hv
        obtain rfl := Option.some.inj hv
        exact Value.plain_text (hreported e hexc)
      | none =>
        rw [hexc] at hv
        exact hplain (by decide) hv
    · rw [get?_recordOf_stack] at hv
      split at hv
      · obtain rfl := Option.some.inj hv
        exact Value.plain_text hs.stack
      · exact hplain (by decide) hv

structure Report where
  context : String
  level : LogLevel
  msg : PyStr
  exception : Option Raised
  asyncioMessage : Option Json

namespace Report

structure Line (m : LogManager Raised) (report : Report) (s : Surroundings Raised)
    (fields : List (PyStr × Json)) : Prop where
  context : (PyStr.ofString "context", Json.str report.context) ∈ fields
  level : (PyStr.ofString "level", Json.str report.level.value) ∈ fields
  msg : (PyStr.ofString "msg", Json.str report.msg) ∈ fields
  exception : ∀ e, report.exception = some e →
    (PyStr.ofString "exception", Json.str (m.formatException e)) ∈ fields
  asyncioMessage : ∀ v, report.asyncioMessage = some v →
    (PyStr.ofString "asyncio_message", v) ∈ fields
  contextvars : ∀ key v, key ∉ LogManager.stampedKeys ++ LogManager.consumedKeys →
    key ≠ "context" → key ≠ "asyncio_message" → s.contextvars.get? key = some (.json v) →
    (key, v) ∈ fields

def HeldBy (m : LogManager Raised) (report : Report × Surroundings Raised) (piece : List UInt8) :
    Prop :=
  ∃ text fields, PyStr.decode piece = some text ∧ Json.loads text = some (.obj fields) ∧
    report.1.Line m report.2 fields

structure Plain (m : LogManager Raised) (report : Report) : Prop where
  msg : report.msg.Encodable
  exception : ∀ e, report.exception = some e → (m.formatException e).Encodable
  asyncioMessage : ∀ v, report.asyncioMessage = some v → v.WellFormed ∧ v.Encodable

structure Kwargs (report : Report) (kwargs : Fields Raised) : Prop where
  excInfo : match report.exception with
    | some e => kwargs.get? "exc_info" = some (.exception e) ∨
        kwargs.get? "exc_info" = some (.excInfo e)
    | none => kwargs.get? "exc_info" = none
  asyncioMessage : kwargs.get? "asyncio_message" = report.asyncioMessage.map .json
  other : ∀ key, key ≠ PyStr.ofString "exc_info" → key ≠ PyStr.ofString "asyncio_message" →
    kwargs.get? key = none

variable {m : LogManager Raised} {report : Report} {kwargs : Fields Raised}
  {s : Surroundings Raised}

def logging (report : Report) (kwargs : Fields Raised) (s : Surroundings Raised) : Logging Raised :=
  ⟨child report.context, ⟨.named report.level, report.msg, kwargs⟩, s⟩

theorem get?_child {name key : PyStr} :
    (child name).bound.get? key = if key = "context" then some (.text name) else none := by
  show ((Dict.empty : Fields Raised).update (Dict.empty.set "context" (.text name))).get? key = _
  rw [Dict.get?_update, Dict.get?_set]
  split <;> rfl

theorem given_logging (key : PyStr) : (report.logging kwargs s).given key =
    (kwargs.get? key <|> (if key = "context" then some (.text report.context) else none) <|>
      s.contextvars.get? key) := by
  rw [Logging.given, ← get?_child]
  rfl

theorem reported_logging {e : Raised} (h : report.Kwargs kwargs) (he : report.exception = some e) :
    (report.logging kwargs s).reported = some e := by
  have hexc := h.excInfo
  rw [he] at hexc
  rw [Logging.reported, given_logging]
  rcases hexc with hexc | hexc <;> rw [hexc] <;> rfl

theorem encodable_reported (h : report.Kwargs kwargs) (hs : s.Plain m) (hplain : report.Plain m)
    {e : Raised} (he : (report.logging kwargs s).reported = some e) :
    (m.formatException e).Encodable := by
  cases hexc : report.exception with
  | some e' =>
    rw [reported_logging h hexc] at he
    exact hplain.exception e (Option.some.inj he ▸ hexc)
  | none =>
    have hnone := h.excInfo
    rw [hexc] at hnone
    rw [Logging.reported, given_logging, hnone] at he
    obtain ⟨v, hv, hfigured⟩ := Option.bind_eq_some_iff.mp he
    exact (PlainFields.readable hs.contextvars).figureOutExcInfo hs hv hfigured

theorem plain_given (h : report.Kwargs kwargs) (hs : s.Plain m) (hplain : report.Plain m)
    (key : PyStr) (v : Value Raised) (hkey : key ≠ "exc_info")
    (hv : (report.logging kwargs s).given key = some v) : key.Encodable ∧ v.Plain := by
  rw [given_logging] at hv
  by_cases hmessage : key = PyStr.ofString "asyncio_message"
  · subst hmessage
    refine ⟨PyStr.encodable_ofString _, ?_⟩
    rw [h.asyncioMessage] at hv
    cases hasync : report.asyncioMessage with
    | some j =>
      rw [hasync] at hv
      obtain rfl := Option.some.inj hv
      exact ⟨j, rfl, hplain.asyncioMessage j hasync⟩
    | none =>
      rw [hasync] at hv
      exact (hs.contextvars _ _ hv).2
  · rw [h.other key hkey hmessage] at hv
    split_ifs at hv with hcontext
    · obtain rfl := Option.some.inj hv
      exact ⟨hcontext ▸ PyStr.encodable_ofString _,
        Value.plain_text (PyStr.encodable_ofString _)⟩
    · exact hs.contextvars _ _ hv

theorem plain_recordOf_logging (hm : m.Plain) (h : report.Kwargs kwargs) (hs : s.Plain m)
    (hplain : report.Plain m) : PlainFields (m.recordOf (report.logging kwargs s)) := by
  apply LogManager.plain_recordOf_given hm hs hplain.msg
  · exact plain_given h hs hplain
  · intro e he
    exact encodable_reported h hs hplain he

theorem line_of_entries (h : report.Kwargs kwargs) {fields : List (PyStr × Json)}
    (hfields : (m.recordOf (report.logging kwargs s)).entries =
      fields.map fun f => (f.1, .json f.2)) : report.Line m s fields := by
  have hmem {key : PyStr} {v : Json}
      (hv : (m.recordOf (report.logging kwargs s)).get? key = some (.json v)) :
      (key, v) ∈ fields := by
    rw [← Dict.mem_entries, hfields, List.mem_map] at hv
    obtain ⟨f, hf, heq⟩ := hv
    obtain ⟨rfl, hvalue⟩ := Prod.mk.inj heq
    exact Value.json.inj hvalue ▸ hf
  constructor
  · apply hmem
    rw [LogManager.get?_recordOf_given (by decide), given_logging,
      h.other _ (by decide) (by decide)]
    rfl
  · apply hmem
    exact LogManager.get?_record_level
  · apply hmem
    exact LogManager.get?_record_msg
  · intro e he
    apply hmem
    rw [LogManager.get?_recordOf_exception, reported_logging h he]
    rfl
  · intro v hv
    apply hmem
    rw [LogManager.get?_recordOf_given (by decide), given_logging, h.asyncioMessage, hv]
    rfl
  · intro key v hown hcontext hmessage hv
    apply hmem
    rw [LogManager.get?_recordOf_given hown, given_logging,
      h.other key (fun he => hown (he ▸ by decide)) hmessage, if_neg hcontext, hv]
    rfl

theorem log_logging (hm : m.Plain) (h : report.Kwargs kwargs) (hs : s.Plain m)
    (hplain : report.Plain m) : ∃ piece, HeldBy m (report, s) piece ∧ 0x0A ∉ piece ∧
      ∀ stream, (m.log (report.logging kwargs s) stream).2 =
        if m.minLogLevel.admits report.level then stream ++ (piece ++ [0x0A]) else stream := by
  obtain ⟨chars, fields, hline, hfeed, hloads, hrecord⟩ :=
    m.serialize_plain (plain_recordOf_logging hm h hs hplain)
  refine ⟨utf8 chars, ⟨_, fields, PyStr.decode_utf8 chars, hloads, line_of_entries h hrecord⟩,
    mt lineFeed_mem_utf8.mp hfeed, ?_⟩
  intro stream
  unfold LogManager.log
  rw [hline]
  show (if m.minLogLevel.admits report.level then _ else _ : Except _ _ × List UInt8).2 = _
  split_ifs
  · rfl
  · rfl

def ofRecord (context : String) (record : LogRecord) : Report :=
  ⟨context, structlogMethodForLevel record.levelno, record.message, record.excInfo, none⟩

end Report

namespace ProcessEvent

/-- Nothing of an interrupt or an exit, of what uvicorn says of an exception in the
application, of a record below `DEBUG`, or of access lines that are turned off. -/
def report (enableUvicornAccessLogs : Bool) : ProcessEvent → Option Report
  | .uncaught excType excValue =>
    if excType.isSubclass ["KeyboardInterrupt", "SystemExit"] then none
    else some ⟨"sys.excepthook", .error, "process.unhandled_exception", some excValue, none⟩
  | .loopContext (some exc) _ =>
    some ⟨"asyncio", .error, "asyncio.unhandled_exception", some exc, none⟩
  | .loopContext none message =>
    some ⟨"asyncio", .error, "asyncio.unhandled_exception", none, some (optionalText message)⟩
  | .uvicornError record =>
    if 10 ≤ record.levelno ∧ uvicornAsgiExceptionFilter record = true then
      some (.ofRecord "uvicorn" record)
    else none
  | .uvicornAccess record =>
    if enableUvicornAccessLogs = true ∧ 10 ≤ record.levelno then
      some (.ofRecord "uvicorn.access" record)
    else none

def exit : ProcessEvent → Option (ExcClass × Raised)
  | .uncaught excType excValue =>
    if excType.isSubclass ["KeyboardInterrupt", "SystemExit"] then some (excType, excValue)
    else none
  | _ => none

def kwargs : ProcessEvent → Fields Raised
  | .uncaught _ excValue => Dict.empty.set "exc_info" (.excInfo excValue)
  | .loopContext (some exc) _ => Dict.empty.set "exc_info" (.exception exc)
  | .loopContext none message =>
    Dict.empty.set "asyncio_message" (.json (optionalText message))
  | .uvicornError record | .uvicornAccess record =>
    (⟨structlogMethodForLevel record.levelno, record.message, record.excInfo, none⟩ :
      HttpRecord).kwargs

theorem kwargs_record (context : String) (record : LogRecord) :
    (Report.ofRecord context record).Kwargs (⟨structlogMethodForLevel record.levelno,
      record.message, record.excInfo, none⟩ : HttpRecord).kwargs := by
  rcases record with ⟨levelno, message, _ | e⟩
  · exact ⟨rfl, rfl, fun _ _ _ => rfl⟩
  · refine ⟨.inl (Dict.get?_set_self ..), ?_, ?_⟩
    · exact Dict.get?_set_of_ne _ _ (by decide)
    · intro key hkey _
      exact Dict.get?_set_of_ne _ _ hkey

theorem kwargs_report {event : ProcessEvent} {enabled : Bool} {report : Report}
    (h : event.report enabled = some report) : report.Kwargs event.kwargs := by
  cases event with
  | uncaught excType excValue =>
    obtain ⟨-, ⟨⟩⟩ := Option.ite_none_left_eq_some.mp h
    exact ⟨.inr (Dict.get?_set_self ..), Dict.get?_set_of_ne _ _ (by decide),
      fun _ hkey _ => Dict.get?_set_of_ne _ _ hkey⟩
  | loopContext exception message =>
    cases exception with
    | some exc =>
      cases h
      exact ⟨.inl (Dict.get?_set_self ..), Dict.get?_set_of_ne _ _ (by decide),
        fun _ hkey _ => Dict.get?_set_of_ne _ _ hkey⟩
    | none =>
      cases h
      exact ⟨Dict.get?_set_of_ne _ _ (by decide), Dict.get?_set_self ..,
        fun _ _ hkey => Dict.get?_set_of_ne _ _ hkey⟩
  | uvicornError record =>
    obtain ⟨-, ⟨⟩⟩ := Option.ite_none_right_eq_some.mp h
    exact kwargs_record _ record
  | uvicornAccess record =>
    obtain ⟨-, ⟨⟩⟩ := Option.ite_none_right_eq_some.mp h
    exact kwargs_record _ record

theorem exit_of_report {event : ProcessEvent} {enabled : Bool} {report : Report}
    (h : event.report enabled = some report) : event.exit = none := by
  cases event with
  | uncaught excType excValue => exact if_neg (Option.ite_none_left_eq_some.mp h).1
  | loopContext | uvicornError | uvicornAccess => rfl

end ProcessEvent

theorem handle_installed (m : LogManager Raised) (s : Surroundings Raised) (rootPrints : Bool)
    (name : String) (filters : List (LogRecord → Bool)) (record : LogRecord)
    (out : ProcessOutput) :
    StdLogger.handle m s rootPrints ⟨10, false, filters, [child name]⟩ record out =
      if 10 ≤ record.levelno ∧ filters.all (· record) = true then
        out.log m ((Report.ofRecord name record).logging (⟨structlogMethodForLevel record.levelno,
          record.message, record.excInfo, none⟩ : HttpRecord).kwargs s)
      else out := by
  unfold StdLogger.handle
  apply if_congr Iff.rfl _ rfl
  apply if_neg
  simp

theorem filterMap_cons_toList {α β : Type} (f : α → Option β) (a : α) (l : List α) :
    (a :: l).filterMap f = (f a).toList ++ l.filterMap f := by
  rw [List.filterMap_cons]
  cases f a <;> rfl

theorem splitOn_terminated {α : Type} [DecidableEq α] (sep : α) {pieces : List (List α)}
    (h : ∀ piece ∈ pieces, sep ∉ piece) :
    (pieces.flatMap (· ++ [sep])).splitOn sep = pieces ++ [[]] := by
  induction pieces with
  | nil => exact List.splitOn_nil sep
  | cons piece pieces ih =>
    obtain ⟨hpiece, hrest⟩ := List.forall_mem_cons.mp h
    rw [List.flatMap_cons, List.append_assoc, List.singleton_append,
      List.splitOn_append_cons_self_of_not_mem hpiece, ih hrest]
    rfl

namespace Process

variable {p : Process} {event : ProcessEvent} {s : Surroundings Raised}

/-- An event is reported by one call of its child logger. -/
theorem step_of_report {report : Report} (h : event.report p.enableUvicornAccessLogs = some report)
    (out : ProcessOutput) :
    p.step (event, s) out = out.log p.manager (report.logging event.kwargs s) := by
  cases event with
  | uncaught excType excValue =>
    obtain ⟨hexc, ⟨⟩⟩ := Option.ite_none_left_eq_some.mp h
    exact if_neg hexc
  | loopContext exception message =>
    cases exception with
    | some exc =>
      cases h
      rfl
    | none =>
      cases h
      rfl
  | uvicornError record =>
    obtain ⟨hrecord, ⟨⟩⟩ := Option.ite_none_right_eq_some.mp h
    apply (handle_installed ..).trans
    apply if_pos
    simpa [StdLogger.fresh] using hrecord
  | uvicornAccess record =>
    obtain ⟨⟨hon, hlevel⟩, ⟨⟩⟩ := Option.ite_none_right_eq_some.mp h
    show (if _ then _ else _ : ProcessOutput) = _
    rw [if_pos hon, accessLogger, if_pos hon]
    apply (handle_installed ..).trans
    exact if_pos ⟨hlevel, rfl⟩

theorem step_of_none (h : event.report p.enableUvicornAccessLogs = none) (out : ProcessOutput) :
    p.step (event, s) out = { out with fallbacks := out.fallbacks ++ event.exit.toList } := by
  have hquiet (he : event.exit = none) :
      out = { out with fallbacks := out.fallbacks ++ event.exit.toList } := by
    rw [he]
    show out = { out with fallbacks := out.fallbacks ++ [] }
    rw [List.append_nil]
  cases event with
  | uncaught excType excValue =>
    have hexc := of_not_not fun hexc => Option.some_ne_none _ ((if_neg hexc).symm.trans h)
    rw [ProcessEvent.exit, if_pos hexc]
    exact if_pos hexc
  | loopContext exception message => cases exception <;> cases h
  | uvicornError record =>
    have hrecord := fun hrecord => Option.some_ne_none _ ((if_pos hrecord).symm.trans h)
    apply Eq.trans _ (hquiet rfl)
    apply (handle_installed ..).trans
    apply if_neg
    simpa [StdLogger.fresh] using hrecord
  | uvicornAccess record =>
    have hrecord := fun hrecord => Option.some_ne_none _ ((if_pos hrecord).symm.trans h)
    apply Eq.trans _ (hquiet rfl)
    show (if _ then _ else _ : ProcessOutput) = _
    split_ifs with hon
    · rw [accessLogger, if_pos hon]
      apply (handle_installed ..).trans
      exact if_neg fun hlevel => hrecord ⟨hon, hlevel.1⟩
    · rfl

def admitted (p : Process) (event : ProcessEvent × Surroundings Raised) :
    Option (Report × Surroundings Raised) :=
  ((event.1.report p.enableUvicornAccessLogs).filter
    fun report => p.manager.minLogLevel.admits report.level).map (·, event.2)

structure PlainEvent (p : Process) (event : ProcessEvent × Surroundings Raised) : Prop where
  surroundings : event.2.Plain p.manager
  report : ∀ report, event.1.report p.enableUvicornAccessLogs = some report →
    report.Plain p.manager

/-- One event: a line for what it reports, and the interpreter's hook for an exit. -/
theorem step_pieces (hm : p.manager.Plain) {event : ProcessEvent × Surroundings Raised}
    (h : p.PlainEvent event) : ∃ pieces,
      List.Forall₂ (Report.HeldBy p.manager) (p.admitted event).toList pieces ∧
      (∀ piece ∈ pieces, 0x0A ∉ piece) ∧ ∀ out, p.step event out =
        ⟨out.stream ++ pieces.flatMap (· ++ [0x0A]), out.fallbacks ++ event.1.exit.toList,
          out.unstructured⟩ := by
  unfold admitted
  cases hreport : event.1.report p.enableUvicornAccessLogs with
  | none =>
    refine ⟨[], .nil, List.forall_mem_nil _, fun out => (step_of_none hreport out).trans ?_⟩
    rw [List.flatMap_nil, List.append_nil]
  | some report =>
    obtain ⟨piece, hheld, hfeed, hlog⟩ := Report.log_logging hm
      (ProcessEvent.kwargs_report hreport) h.surroundings (h.report report hreport)
    have hstep (out : ProcessOutput) : p.step event out =
        ⟨if p.manager.minLogLevel.admits report.level then out.stream ++ (piece ++ [0x0A])
          else out.stream, out.fallbacks ++ event.1.exit.toList, out.unstructured⟩ := by
      rw [← hlog, ProcessEvent.exit_of_report hreport, Option.toList_none, List.append_nil]
      exact step_of_report hreport out
    by_cases hlevel : p.manager.minLogLevel.admits report.level = true
    · refine ⟨[piece], ?_, List.forall_mem_singleton.mpr hfeed, fun out => (hstep out).trans ?_⟩
      · rw [Option.filter_some, if_pos hlevel]
        exact .cons hheld .nil
      · rw [if_pos hlevel, List.flatMap_singleton]
    · refine ⟨[], ?_, List.forall_mem_nil _, fun out => (hstep out).trans ?_⟩
      · rw [Option.filter_some, if_neg hlevel]
        exact .nil
      · rw [if_neg hlevel, List.flatMap_nil, List.append_nil]

theorem run_pieces (hm : p.manager.Plain) {events : List (ProcessEvent × Surroundings Raised)}
    (h : ∀ event ∈ events, p.PlainEvent event) : ∃ pieces,
      List.Forall₂ (Report.HeldBy p.manager) (events.filterMap p.admitted) pieces ∧
      (∀ piece ∈ pieces, 0x0A ∉ piece) ∧ ∀ out, p.run events out =
        ⟨out.stream ++ pieces.flatMap (· ++ [0x0A]),
          out.fallbacks ++ events.filterMap (·.1.exit), out.unstructured⟩ := by
  induction events with
  | nil =>
    refine ⟨[], .nil, List.forall_mem_nil _, fun out => ?_⟩
    rw [List.flatMap_nil, List.filterMap_nil, List.append_nil, List.append_nil]
    rfl
  | cons event events ih =>
    obtain ⟨hevent, hrest⟩ := List.forall_mem_cons.mp h
    obtain ⟨first, hfirst, hfirstFeed, hstep⟩ := step_pieces hm hevent
    obtain ⟨rest, hpieces, hfeed, hrun⟩ := ih hrest
    refine ⟨first ++ rest, ?_, ?_, ?_⟩
    · rw [filterMap_cons_toList]
      exact List.rel_append hfirst hpieces
    · exact List.forall_mem_append.mpr ⟨hfirstFeed, hfeed⟩
    · intro out
      apply (hrun (p.step event out)).trans
      rw [hstep]
      simp only [List.flatMap_append, List.append_assoc, filterMap_cons_toList]

/-- Whatever events reach the hooks, in any order: the stream is one line of JSON for each
report that the level admits, in order, the interpreter's own hook has had the exits only,
and no handler of another logger has printed a record. -/
theorem stream_reports (p : Process) (hm : p.manager.Plain)
    (events : List (ProcessEvent × Surroundings Raised))
    (h : ∀ event ∈ events, p.PlainEvent event) :
    let out := p.run events ⟨[], [], []⟩
    (∃ pieces, out.stream.splitOn 0x0A = pieces ++ [[]] ∧
      List.Forall₂ (Report.HeldBy p.manager) (events.filterMap p.admitted) pieces) ∧
    out.fallbacks = events.filterMap (·.1.exit) ∧ out.unstructured = [] := by
  obtain ⟨pieces, hpieces, hfeed, hrun⟩ := run_pieces hm h
  rw [hrun]
  exact ⟨⟨pieces, splitOn_terminated 0x0A hfeed, hpieces⟩, rfl, rfl⟩

/-- An exception in a task, an interrupt, uvicorn's record of an exception in the
application, and one of its start. -/
theorem stream_reports_sample :
    let p : Process := ⟨⟨.info, .dev, "1.0", "host", fun e => e.text, fun _ => .null⟩, false, true⟩
    let s : Surroundings Raised := ⟨.empty, "now", "stack", none⟩
    let interrupt : ExcClass := ⟨["KeyboardInterrupt", "BaseException", "object"]⟩
    let events : List (ProcessEvent × Surroundings Raised) :=
      [(.loopContext (some (.exception "boom\n")) (some "message"), s),
        (.uncaught interrupt (.baseException ""), s),
        (.uvicornError (ProcessLogging.asgiException (.exception "boom\n")), s),
        (.uvicornError ⟨20, "Started server process [7]", none⟩, s)]
    let out := p.run events ⟨[], [], []⟩
    (∃ pieces, out.stream.splitOn 0x0A = pieces ++ [[]] ∧
      List.Forall₂ (Report.HeldBy p.manager)
        [(⟨"asyncio", .error, "asyncio.unhandled_exception", some (.exception "boom\n"), none⟩, s),
          (⟨"uvicorn", .info, "Started server process [7]", none, none⟩, s)] pieces) ∧
    out.fallbacks = [(interrupt, .baseException "")] ∧ out.unstructured = [] := by
  intro p s interrupt events
  have hs : s.Plain p.manager := by
    refine ⟨plain_empty, PyStr.encodable_ofString _, PyStr.encodable_ofString _, ?_⟩
    rintro e ⟨⟩
  apply stream_reports p ⟨PyStr.encodable_ofString _, PyStr.encodable_ofString _⟩ events
  simp only [events, List.forall_mem_cons]
  refine ⟨⟨hs, ?_⟩, ⟨hs, ?_⟩, ⟨hs, ?_⟩, ⟨hs, ?_⟩, List.forall_mem_nil _⟩
  · rintro report ⟨⟩
    refine ⟨PyStr.encodable_ofString _, ?_, ?_⟩
    · rintro e ⟨⟩
      exact PyStr.encodable_ofString _
    · rintro v ⟨⟩
  · rintro report ⟨⟩
  · rintro report ⟨⟩
  · rintro report ⟨⟩
    refine ⟨PyStr.encodable_ofString _, ?_, ?_⟩
    · rintro e ⟨⟩
    · rintro v ⟨⟩

/-- `q` logs with the manager of `p`, but for what its settings turn off. -/
structure Stricter (q p : Process) : Prop where
  manager : q.manager = { p.manager with minLogLevel := q.manager.minLogLevel }
  level : p.manager.minLogLevel.severity ≤ q.manager.minLogLevel.severity
  access : q.enableUvicornAccessLogs = true → p.enableUvicornAccessLogs = true

def keeps (q : Process) (event : ProcessEvent × Surroundings Raised) : Bool :=
  event.1.exit.isSome || (q.admitted event).isSome

section
variable {q : Process} {report : Report} {kwargs : Fields Raised}

/-- The settings decide only whether a call writes. -/
theorem Stricter.log_eq (h : q.Stricter p) {c : Logging Raised} (stream : List UInt8)
    (hlevel : q.manager.minLogLevel.admits c.call.method.logLevel = true) :
    q.manager.log c stream = p.manager.log c stream := by
  have hlax : p.manager.minLogLevel.admits c.call.method.logLevel = true :=
    decide_eq_true (h.level.trans (of_decide_eq_true hlevel))
  have hline : q.manager.serialize (q.manager.recordOf c) =
      p.manager.serialize (p.manager.recordOf c) := by
    rw [h.manager]
    rfl
  unfold LogManager.log
  rw [if_pos hlevel, if_pos hlax, hline]

theorem log_of_not_admits (out : ProcessOutput)
    (hlevel : ¬ q.manager.minLogLevel.admits report.level = true) :
    out.log q.manager (report.logging kwargs s) = out := by
  have hlog : q.manager.log (report.logging kwargs s) out.stream = (.ok (), out.stream) :=
    if_neg hlevel
  rw [ProcessOutput.log, hlog]

theorem report_mono {enabled enabled' : Bool} (h : enabled = true → enabled' = true)
    (hreport : event.report enabled = some report) : event.report enabled' = some report := by
  cases event with
  | loopContext exception message => cases exception <;> exact hreport
  | uncaught | uvicornError => exact hreport
  | uvicornAccess record =>
    obtain ⟨⟨hon, hlevel⟩, ⟨⟩⟩ := Option.ite_none_right_eq_some.mp hreport
    exact if_pos ⟨h hon, hlevel⟩

theorem Stricter.step_eq (h : q.Stricter p) (hkeeps : q.keeps (event, s) = true)
    (out : ProcessOutput) : q.step (event, s) out = p.step (event, s) out := by
  cases hreport : event.report q.enableUvicornAccessLogs with
  | some report =>
    -- it is admitted, so both write the same line
    have hlevel : q.manager.minLogLevel.admits report.level = true := by
      rw [keeps, ProcessEvent.exit_of_report hreport, admitted, hreport] at hkeeps
      simpa using hkeeps
    have hline := h.log_eq (c := report.logging event.kwargs s) out.stream hlevel
    rw [step_of_report hreport, step_of_report (report_mono h.access hreport), ProcessOutput.log,
      ProcessOutput.log, hline]
  | none =>
    -- an exit, that no settings report
    cases event with
    | uncaught excType excValue =>
      have hlax : (ProcessEvent.uncaught excType excValue).report p.enableUvicornAccessLogs =
          none := hreport
      rw [step_of_none hreport, step_of_none hlax]
    | loopContext | uvicornError | uvicornAccess =>
      rw [keeps, admitted, hreport] at hkeeps
      cases hkeeps

theorem step_of_not_keeps (hkeeps : q.keeps (event, s) = false) (out : ProcessOutput) :
    q.step (event, s) out = out := by
  obtain ⟨hexit, hadmitted⟩ := Bool.or_eq_false_iff.mp hkeeps
  cases hreport : event.report q.enableUvicornAccessLogs with
  | some report =>
    rw [step_of_report hreport]
    apply log_of_not_admits
    rw [admitted, hreport] at hadmitted
    simpa using hadmitted
  | none =>
    have hnone : event.exit = none := by simpa using hexit
    rw [step_of_none hreport, hnone, Option.toList_none, List.append_nil]

/-- A higher minimum level, or access lines turned off, drop events and change nothing else:
the output is that of the laxer settings on the events that are kept. -/
theorem run_of_stricter (h : q.Stricter p) (events : List (ProcessEvent × Surroundings Raised))
    (out : ProcessOutput) : q.run events out = p.run (events.filter q.keeps) out := by
  induction events generalizing out with
  | nil => rfl
  | cons event events ih =>
    cases hkeeps : q.keeps event with
    | true =>
      rw [List.filter_cons_of_pos hkeeps]
      show q.run events (q.step event out) = p.run (events.filter q.keeps) (p.step event out)
      rw [ih, h.step_eq hkeeps]
    | false =>
      rw [List.filter_cons_of_neg (by simp [hkeeps])]
      show q.run events (q.step event out) = _
      rw [ih, step_of_not_keeps hkeeps]

/-- `WARNING` without access lines keeps the task's exception and the exit. -/
theorem run_of_stricter_sample :
    let m : LogManager Raised := ⟨.debug, .dev, "1.0", "host", fun e => e.text, fun _ => .null⟩
    let p : Process := ⟨m, true, true⟩
    let q : Process := ⟨{ m with minLogLevel := .warning }, false, true⟩
    let s : Surroundings Raised := ⟨.empty, "now", "stack", none⟩
    let task : ProcessEvent × Surroundings Raised :=
      (.loopContext (some (.exception "boom")) none, s)
    let exit : ProcessEvent × Surroundings Raised :=
      (.uncaught ⟨["SystemExit", "BaseException", "object"]⟩ (.baseException "1"), s)
    let events := [(.uvicornAccess ⟨20, "GET / 200", none⟩, s), task,
      (.uvicornError ⟨20, "Started", none⟩, s), exit]
    events.filter q.keeps = [task, exit] ∧
      q.run events ⟨[], [], []⟩ = p.run (events.filter q.keeps) ⟨[], [], []⟩ := by
  intro m p q s task exit events
  have hstricter : q.Stricter p := by
    refine ⟨rfl, by decide, ?_⟩
    rintro ⟨⟩
  have hfilter : events.filter q.keeps = [task, exit] := rfl
  exact ⟨hfilter, run_of_stricter hstricter events ⟨[], [], []⟩⟩

end

end Process

end PolyrepoTemplate
