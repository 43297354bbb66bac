import PolyrepoTemplate.Config.AppConfig
import PolyrepoTemplate.Text.Json

namespace PolyrepoTemplate

open Text

/-- A value of a record, the exceptions being those of `E`: what JSON has, bytes, an
exception, the tuple of `sys.exc_info()`, or another object, given by what `json.dumps`
writes for it and its truth. -/
inductive Value (E : Type) where
  | json (v : Json)
  | bytes (b : List UInt8)
  | exception (e : E)
  | excInfo (e : E)
  | object (form : Json) (truth : Bool)

variable {E : Type}

namespace Value

def text (s : PyStr) : Value E := .json (.str s)

def truthy : Value E → Bool
  | .json .null => false
  | .json (.bool b) => b
  | .json (.int n) => n ≠ 0
  | .json (.str s) => !s.isEmpty
  | .json (.arr items) => !items.isEmpty
  | .json (.obj fields) => !fields.isEmpty
  | .bytes b => !b.isEmpty
  | .exception _ => true
  | .excInfo _ => true
  | .object _ truth => truth

/-- Bytes are decoded, undecodable ones being replaced. -/
def decoded : Value E → Value E
  | .bytes b => text (PyStr.ofChars (decodeReplacing [] 0 b))
  | v => v

end Value

abbrev Fields (E : Type) := Dict PyStr (Value E)

structure Surroundings (E : Type) where
  contextvars : Fields E
  now : PyStr
  stack : PyStr
  handled : Option E

structure ChildLogger (E : Type) where
  bound : Fields E

def ChildLogger.bind (logger : ChildLogger E) (values : Fields E) : ChildLogger E :=
  ⟨logger.bound.update values⟩

/-- The methods that log; `warn` and `fatal` are other names of two of them. -/
inductive LogMethod where
  | named (level : LogLevel)
  | exception
  deriving DecidableEq, Repr

def LogMethod.logLevel : LogMethod → LogLevel
  | .named level => level
  | .exception => .error

structure LogCall (E : Type) where
  method : LogMethod
  event : PyStr
  kwargs : Fields E

def LogCall.keywords (call : LogCall E) : Fields E :=
  match call.method with
  | .named _ => call.kwargs
  | .exception => call.kwargs.setDefault "exc_info" (.json (.bool true))

def ChildLogger.eventDict (logger : ChildLogger E) (call : LogCall E) : Fields E :=
  (logger.bound.update call.keywords).set "event" (.text call.event)

theorem get?_keywords (call : LogCall E) {key : PyStr} (h : key ≠ "exc_info") :
    call.keywords.get? key = call.kwargs.get? key := by
  unfold LogCall.keywords
  cases call.method with
  | named level => rfl
  | exception =>
    show (call.kwargs.setDefault "exc_info" _).get? key = _
    rw [Dict.get?_setDefault, if_neg h]
    cases call.kwargs.get? key <;> rfl

theorem get?_binds (logger : ChildLogger E) (binds : List (Fields E)) (key : PyStr) :
    (binds.foldl ChildLogger.bind logger).bound.get? key =
      (binds.reverse.findSome? (·.get? key) <|> logger.bound.get? key) := by
  induction binds generalizing logger with
  | nil => rfl
  | cons values binds ih =>
    rw [List.foldl_cons, ih, ChildLogger.bind, Dict.get?_update, List.reverse_cons,
      List.findSome?_append]
    cases binds.reverse.findSome? (·.get? key) with
    | some v => rfl
    | none =>
      rw [List.findSome?_singleton]
      rfl

def appName : PyStr := "fastapi-polyrepo-template"

/-- The level, the process identity, and how exceptions and foreign objects are
written. -/
structure LogManager (E : Type) where
  minLogLevel : LogLevel
  env : Environment
  appVersion : PyStr
  hostname : PyStr
  formatException : E → PyStr
  fallback : Value E → Json

abbrev Processor (E : Type) := Surroundings E → LogLevel → Fields E → Fields E

def mergeContextvars : Processor E := fun s _ d => d.setDefaults s.contextvars

def addLogLevel : Processor E := fun _ level d => d.set "level" (.text level.value)

def stackInfoRenderer : Processor E := fun s _ d =>
  if (d.get? "stack_info").any Value.truthy then
    (d.erase "stack_info").set "stack" (.text s.stack)
  else d.erase "stack_info"

def figureOutExcInfo (s : Surroundings E) : Value E → Option E
  | .exception e => some e
  | .excInfo e => some e
  | v => if v.truthy then s.handled else none

def unicodeDecoder : Processor E := fun _ _ d => d.mapValues Value.decoded

def timeStamper (key : PyStr) : Processor E := fun s _ d => d.set key (.text s.now)

def eventRenamer (key : PyStr) : Processor E := fun _ _ d =>
  match d.get? "event" with
  | some event => (d.erase "event").set key event
  | none => d

namespace LogManager

variable (m : LogManager E)

def getChildLogger (_ : LogManager E) (name : PyStr) : Except String (ChildLogger E) :=
  if name = [] then .error "A child logger needs a name to be traceable."
  else .ok (ChildLogger.bind ⟨.empty⟩ (Dict.empty.set "context" (.text name)))

def resourceFields : Fields E :=
  Dict.ofList [("env", .text m.env.value), ("app", .text appName), ("instance", .text m.hostname),
    ("app.version", .text m.appVersion)]

def addResourceFields : Processor E := fun _ _ d => d.update m.resourceFields

def formatExcInfo : Processor E := fun s _ d =>
  match (d.get? "exc_info").bind (figureOutExcInfo s) with
  | some e => (d.erase "exc_info").set "exception" (.text (m.formatException e))
  | none => d.erase "exc_info"

def setPropertyNames : List (Processor E) := [timeStamper "ts", eventRenamer "msg"]

/-- `_build_processors`, up to the renderer. -/
def buildProcessors : List (Processor E) :=
  [mergeContextvars, m.addResourceFields, addLogLevel, stackInfoRenderer, m.formatExcInfo,
    unicodeDecoder] ++ setPropertyNames

def record (logger : ChildLogger E) (call : LogCall E) (s : Surroundings E) : Fields E :=
  m.buildProcessors.foldl (fun d process => process s call.method.logLevel d)
    (logger.eventDict call)

/-- What `json.dumps` sees of a value. -/
def toJson : Value E → Json
  | .json v => v
  | .object form _ => form
  | v => m.fallback v

/-- `_serialize`. -/
def serialize (record : Fields E) : Except UnicodeEncodeError (List UInt8) :=
  PyStr.encode (Json.dumps (.obj (record.mapValues m.toJson).entries))

/-- Writing a record raises exactly when one of its strings has no UTF-8 form. -/
theorem serialize_isOk (record : Fields E) : (∃ line, m.serialize record = .ok line) ↔
    (Json.obj (record.mapValues m.toJson).entries).Encodable := by
  unfold serialize
  rw [PyStr.encode_isOk, Json.encodable_dumps]

section
variable {m} {s : Surroundings E} {level : LogLevel} {d : Fields E} {key : PyStr}

theorem get?_addResourceFields
    (h : key ∉ [PyStr.ofString "env", "app", "instance", "app.version"]) :
    (m.addResourceFields s level d).get? key = d.get? key := by
  have hnone : m.resourceFields.get? key = none := by
    simp only [List.mem_cons, List.not_mem_nil, or_false, not_or] at h
    simp only [resourceFields, Dict.ofList, List.foldl_cons, List.foldl_nil]
    rw [Dict.get?_set_of_ne _ _ h.2.2.2, Dict.get?_set_of_ne _ _ h.2.2.1,
      Dict.get?_set_of_ne _ _ h.2.1, Dict.get?_set_of_ne _ _ h.1, Dict.get?_empty]
  rw [addResourceFields, Dict.get?_update, hnone]
  rfl

theorem get?_stackInfoRenderer (h : key ∉ [PyStr.ofString "stack_info", "stack"]) :
    (stackInfoRenderer s level d).get? key = d.get? key := by
  simp only [List.mem_cons, List.not_mem_nil, or_false, not_or] at h
  unfold stackInfoRenderer
  split
  · rw [Dict.get?_set_of_ne _ _ h.2, Dict.get?_erase, if_neg h.1]
  · rw [Dict.get?_erase, if_neg h.1]

theorem get?_formatExcInfo (h : key ∉ [PyStr.ofString "exc_info", "exception"]) :
    (m.formatExcInfo s level d).get? key = d.get? key := by
  simp only [List.mem_cons, List.not_mem_nil, or_false, not_or] at h
  unfold formatExcInfo
  split
  · rw [Dict.get?_set_of_ne _ _ h.2, Dict.get?_erase, if_neg h.1]
  · rw [Dict.get?_erase, if_neg h.1]

theorem get?_eventRenamer {name : PyStr} (h : key ∉ [PyStr.ofString "event", name]) :
    (eventRenamer name s level d).get? key = d.get? key := by
  simp only [List.mem_cons, List.not_mem_nil, or_false, not_or] at h
  unfold eventRenamer
  split
  · rw [Dict.get?_set_of_ne _ _ h.2, Dict.get?_erase, if_neg h.1]
  · rfl

theorem get?_eventRenamer_self {name : PyStr} {event : Value E}
    (h : d.get? "event" = some event) :
    (eventRenamer name s level d).get? name = some event := by
  unfold eventRenamer
  rw [h]
  exact Dict.get?_set_self ..

theorem get?_stackInfoRenderer_stackInfo :
    (stackInfoRenderer s level d).get? "stack_info" = none := by
  unfold stackInfoRenderer
  split
  · rw [Dict.get?_set_of_ne _ _ (by decide), Dict.get?_erase, if_pos rfl]
  · rw [Dict.get?_erase, if_pos rfl]

theorem get?_formatExcInfo_excInfo : (m.formatExcInfo s level d).get? "exc_info" = none := by
  unfold formatExcInfo
  split
  · rw [Dict.get?_set_of_ne _ _ (by decide), Dict.get?_erase, if_pos rfl]
  · rw [Dict.get?_erase, if_pos rfl]

theorem get?_eventRenamer_event {name : PyStr} (h : PyStr.ofString "event" ≠ name) :
    (eventRenamer name s level d).get? "event" = none := by
  unfold eventRenamer
  split
  · rw [Dict.get?_set_of_ne _ _ h, Dict.get?_erase, if_pos rfl]
  · assumption

end

variable {m} {logger : ChildLogger E} {call : LogCall E} {s : Surroundings E} {key : PyStr}

def stamped (m : LogManager E) (logger : ChildLogger E) (call : LogCall E) (s : Surroundings E) :
    Fields E :=
  addLogLevel s call.method.logLevel (m.addResourceFields s call.method.logLevel
    (mergeContextvars s call.method.logLevel (logger.eventDict call)))

theorem record_eq : m.record logger call s =
    eventRenamer "msg" s call.method.logLevel (timeStamper "ts" s call.method.logLevel
      (unicodeDecoder s call.method.logLevel (m.formatExcInfo s call.method.logLevel
        (stackInfoRenderer s call.method.logLevel (m.stamped logger call s))))) := by
  have hchain (p₁ p₂ p₃ p₄ p₅ p₆ p₇ p₈ : Processor E) (level : LogLevel) (d : Fields E) :
      ([p₁, p₂, p₃, p₄, p₅, p₆] ++ [p₇, p₈]).foldl (fun d process => process s level d) d =
        p₈ s level (p₇ s level (p₆ s level (p₅ s level (p₄ s level (p₃ s level
          (p₂ s level (p₁ s level d))))))) := rfl
  unfold record buildProcessors setPropertyNames stamped
  exact hchain mergeContextvars m.addResourceFields addLogLevel stackInfoRenderer m.formatExcInfo
    unicodeDecoder (timeStamper "ts") (eventRenamer "msg") _ _

def stampedKeys : List PyStr := ["env", "app", "instance", "app.version", "level", "ts", "msg"]

/-- The keys the processors read, and write besides the stamps. -/
def consumedKeys : List PyStr := ["event", "exc_info", "stack_info", "exception", "stack"]

theorem get?_record (hts : key ≠ "ts") (hmsg : key ≠ "msg") (hkey : key ∉ consumedKeys) :
    (m.record logger call s).get? key =
      ((m.stamped logger call s).get? key).map Value.decoded := by
  simp only [consumedKeys, List.mem_cons, List.not_mem_nil, or_false, not_or] at hkey
  obtain ⟨hevent, hexc, hstackInfo, hexception, hstack⟩ := hkey
  rw [record_eq, get?_eventRenamer (by simp [hevent, hmsg]), timeStamper,
    Dict.get?_set_of_ne _ _ hts, unicodeDecoder, Dict.get?_mapValues,
    get?_formatExcInfo (by simp [hexc, hexception]),
    get?_stackInfoRenderer (by simp [hstackInfo, hstack])]

theorem get?_stamped (hlevel : key ≠ "level")
    (hkey : key ∉ [PyStr.ofString "env", "app", "instance", "app.version"]) :
    (m.stamped logger call s).get? key =
      ((logger.eventDict call).get? key <|> s.contextvars.get? key) := by
  rw [stamped, addLogLevel, Dict.get?_set_of_ne _ _ hlevel, get?_addResourceFields hkey,
    mergeContextvars, Dict.get?_setDefaults]

theorem get?_record_msg : (m.record logger call s).get? "msg" = some (.text call.event) := by
  rw [record_eq]
  refine get?_eventRenamer_self ?_
  rw [timeStamper, Dict.get?_set_of_ne _ _ (by decide), unicodeDecoder, Dict.get?_mapValues,
    get?_formatExcInfo (by decide), get?_stackInfoRenderer (by decide),
    get?_stamped (by decide) (by decide), ChildLogger.eventDict, Dict.get?_set_self]
  rfl

theorem get?_record_level : (m.record logger call s).get? "level" =
    some (.text call.method.logLevel.value) := by
  rw [get?_record (by decide) (by decide) (by decide), stamped, addLogLevel, Dict.get?_set_self]
  rfl

theorem get?_record_ts : (m.record logger call s).get? "ts" = some (.text s.now) := by
  rw [record_eq, get?_eventRenamer (by decide), timeStamper, Dict.get?_set_self]

theorem get?_record_resource {value : PyStr}
    (hkey : key ∈ [PyStr.ofString "env", "app", "instance", "app.version"])
    (hvalue : m.resourceFields.get? key = some (.text value)) :
    (m.record logger call s).get? key = some (.text value) := by
  have hother : key ≠ "level" ∧ key ≠ "ts" ∧ key ≠ "msg" ∧ key ∉ consumedKeys := by
    simp only [List.mem_cons, List.not_mem_nil, or_false] at hkey
    rcases hkey with rfl | rfl | rfl | rfl <;> decide
  rw [get?_record hother.2.1 hother.2.2.1 hother.2.2.2, stamped, addLogLevel,
    Dict.get?_set_of_ne _ _ hother.1, addResourceFields, Dict.get?_update, hvalue]
  rfl

theorem get?_record_exception {e : E} (h : call.keywords.get? "exc_info" = some (.exception e)) :
    (m.record logger call s).get? "exception" = some (.text (m.formatException e)) := by
  have hexc : (stackInfoRenderer s call.method.logLevel (m.stamped logger call s)).get?
      "exc_info" = some (.exception e) := by
    rw [get?_stackInfoRenderer (by decide), get?_stamped (by decide) (by decide),
      ChildLogger.eventDict, Dict.get?_set_of_ne _ _ (by decide), Dict.get?_update, h]
    rfl
  rw [record_eq, get?_eventRenamer (by decide), timeStamper, Dict.get?_set_of_ne _ _ (by decide),
    unicodeDecoder, Dict.get?_mapValues, formatExcInfo, hexc]
  exact congrArg (Option.map Value.decoded) (Dict.get?_set_self ..)

theorem get?_record_other (hkey : key ∉ stampedKeys ++ consumedKeys) :
    (m.record logger call s).get? key = (call.kwargs.get? key <|> logger.bound.get? key <|>
      s.contextvars.get? key).map Value.decoded := by
  simp only [stampedKeys, List.cons_append, List.nil_append, List.mem_cons, not_or] at hkey
  obtain ⟨henv, happ, hinstance, hversion, hlevel, hts, hmsg, hkey⟩ := hkey
  have hexc : key ≠ "exc_info" := fun h => hkey (h ▸ by decide)
  have hevent : key ≠ "event" := fun h => hkey (h ▸ by decide)
  rw [get?_record hts hmsg hkey, get?_stamped hlevel (by simp [henv, happ, hinstance, hversion]),
    ChildLogger.eventDict, Dict.get?_set_of_ne _ _ hevent, Dict.get?_update,
    get?_keywords call hexc]
  cases call.kwargs.get? key <;> rfl

/-- For every logger, chain of binds, context and keyword arguments: the stamped keys
hold what the manager and the call say, and every other key what the call passed, else
what was bound last, else the context variable. -/
theorem record_unforged (m : LogManager E) (logger : ChildLogger E) (binds : List (Fields E))
    (call : LogCall E) (s : Surroundings E) :
    let record := m.record (binds.foldl ChildLogger.bind logger) call s
    record.get? "env" = some (.text m.env.value) ∧
    record.get? "app" = some (.text appName) ∧
    record.get? "instance" = some (.text m.hostname) ∧
    record.get? "app.version" = some (.text m.appVersion) ∧
    record.get? "level" = some (.text call.method.logLevel.value) ∧
    record.get? "ts" = some (.text s.now) ∧
    record.get? "msg" = some (.text call.event) ∧
    ∀ key, key ∉ stampedKeys ++ consumedKeys →
      record.get? key = (call.kwargs.get? key <|> binds.reverse.findSome? (·.get? key) <|>
        logger.bound.get? key <|> s.contextvars.get? key).map Value.decoded := by
  refine ⟨?_, ?_, ?_, ?_, get?_record_level, get?_record_ts, get?_record_msg, ?_⟩
  · exact get?_record_resource (by decide) rfl
  · exact get?_record_resource (by decide) rfl
  · exact get?_record_resource (by decide) rfl
  · exact get?_record_resource (by decide) rfl
  · intro key hkey
    rw [get?_record_other hkey, get?_binds]
    cases call.kwargs.get? key with
    | some v => rfl
    | none => cases binds.reverse.findSome? (·.get? key) <;> rfl

/-- The name is a bound key like any other. A record carries it exactly when the
`context` that the call passes, else the one bound last, if there is one, is the name. -/
theorem record_context_iff (m : LogManager E) {name : PyStr} (binds : List (Fields E))
    (call : LogCall E) (s : Surroundings E) (h : m.getChildLogger name = .ok logger) :
    (m.record (binds.foldl ChildLogger.bind logger) call s).get? "context" = some (.text name) ↔
      ∀ v, (call.kwargs.get? "context" <|> binds.reverse.findSome? (·.get? "context")) = some v →
        v.decoded = .text name := by
  have hbound : logger.bound.get? "context" = some (.text name) := by
    unfold getChildLogger at h
    split at h
    · cases h
    · cases h
      rw [ChildLogger.bind, Dict.get?_update, Dict.get?_set_self]
      rfl
  rw [get?_record_other (by decide), get?_binds, hbound]
  cases call.kwargs.get? "context" with
  | some v =>
    show some v.decoded = _ ↔ ∀ w, some v = some w → _
    simp only [Option.some.injEq, forall_eq']
  | none =>
    cases binds.reverse.findSome? (·.get? "context") with
    | some v =>
      show some v.decoded = _ ↔ ∀ w, some v = some w → _
      simp only [Option.some.injEq, forall_eq']
    | none =>
      constructor
      · rintro - w ⟨⟩
      · intro _
        rfl

theorem record_context_child :
    let m : LogManager Unit := ⟨.info, .dev, "1.0", "host", fun _ => "Traceback", fun _ => .null⟩
    let logger : ChildLogger Unit :=
      ChildLogger.bind ⟨.empty⟩ (Dict.empty.set "context" (.text "UsersService"))
    let binds : List (Fields Unit) := [Dict.empty.set "user" (.text "u1")]
    (m.record (binds.foldl ChildLogger.bind logger) ⟨.named .info, "e", Dict.empty⟩
      ⟨.empty, "now", "stack", none⟩).get? "context" = some (.text "UsersService") := by
  intro m logger binds
  refine (record_context_iff m _ _ _ (if_neg (by decide))).mpr ?_
  rintro v ⟨⟩

/-- A call that passes the `context` of another logger. -/
theorem record_context_fails : ¬ ∀ (m : LogManager Unit) (name : PyStr) (logger : ChildLogger Unit)
    (binds : List (Fields Unit)) (call : LogCall Unit) (s : Surroundings Unit),
    m.getChildLogger name = .ok logger →
    (m.record (binds.foldl ChildLogger.bind logger) call s).get? "context" =
      some (.text name) := by
  intro h
  have hrecord := h ⟨.info, .dev, "1.0", "host", fun _ => "Traceback", fun _ => .null⟩
    "UsersService" _ [] ⟨.named .info, "e", Dict.empty.set "context" (.text "other")⟩
    ⟨.empty, "now", "stack", none⟩ (if_neg (by decide))
  rw [get?_record_other (by decide)] at hrecord
  have hother : PyStr.ofString "other" = "UsersService" :=
    Json.str.inj (Value.json.inj (Option.some.inj hrecord))
  exact absurd hother (by decide)

end LogManager

end PolyrepoTemplate
