import PolyrepoTemplate.Middlewares.UnhandledHttpException

namespace PolyrepoTemplate

open Async Asgi Text

variable {E : Type}

namespace Logging

variable (c : Logging E)

/-- The value a call is given for a key: its keyword, else what is bound, else the context
variable. -/
def given (key : PyStr) : Option (Value E) :=
  (c.call.keywords.get? key <|> c.logger.bound.get? key <|> c.surroundings.contextvars.get? key)

def reported : Option E := (c.given "exc_info").bind (figureOutExcInfo c.surroundings)

def asksForStack : Bool := (c.given "stack_info").any Value.truthy

end Logging

namespace LogManager

variable (m : LogManager E)

def Encodes (v : Value E) : Prop := (m.toJson v.decoded).Encodable

/-- Every text that the record of the call would hold has a UTF-8 form. -/
structure Writes (c : Logging E) : Prop where
  hostname : m.hostname.Encodable
  appVersion : m.appVersion.Encodable
  now : c.surroundings.now.Encodable
  event : c.call.event.Encodable
  /-- A traceback takes the place of a value given under its key. -/
  exception : match c.reported with
    | some e => (m.formatException e).Encodable
    | none => ∀ v, c.given "exception" = some v → m.Encodes v
  stack : if c.asksForStack then c.surroundings.stack.Encodable
    else ∀ v, c.given "stack" = some v → m.Encodes v
  fields : ∀ key v, key ∉ stampedKeys ++ consumedKeys → c.given key = some v →
    key.Encodable ∧ m.Encodes v

section
variable {m} {c : Logging E} {key : PyStr}

theorem get?_stamped_given (h : key ∉ [PyStr.ofString "event", "level", "env", "app", "instance",
    "app.version"]) : (m.stamped c.logger c.call c.surroundings).get? key = c.given key := by
  simp only [List.mem_cons, List.not_mem_nil, or_false, not_or] at h
  obtain ⟨hevent, hlevel, henv, happ, hinstance, hversion⟩ := h
  rw [get?_stamped hlevel (by simp [henv, happ, hinstance, hversion]), ChildLogger.eventDict,
    Dict.get?_set_of_ne _ _ hevent, Dict.get?_update, Logging.given]
  cases c.call.keywords.get? key <;> rfl

theorem get?_recordOf_given (h : key ∉ stampedKeys ++ consumedKeys) :
    (m.recordOf c).get? key = (c.given key).map Value.decoded := by
  have hexc : key ≠ "exc_info" := fun he => h (he ▸ by decide)
  rw [recordOf, get?_record_other h, Logging.given, get?_keywords c.call hexc]

theorem get?_recordOf_exception : (m.recordOf c).get? "exception" = match c.reported with
    | some e => some (.text (m.formatException e))
    | none => (c.given "exception").map Value.decoded := by
  rw [recordOf, record_eq, get?_eventRenamer (by decide), timeStamper,
    Dict.get?_set_of_ne _ _ (by decide), unicodeDecoder, Dict.get?_mapValues, formatExcInfo,
    get?_stackInfoRenderer (by decide), get?_stamped_given (by decide), ← Logging.reported]
  cases c.reported with
  | some e => rw [Dict.get?_set_self]; rfl
  | none => rw [Dict.get?_erase, if_neg (by decide), get?_stackInfoRenderer (by decide),
      get?_stamped_given (by decide)]

theorem get?_recordOf_stack : (m.recordOf c).get? "stack" =
    if c.asksForStack then some (.text c.surroundings.stack)
    else (c.given "stack").map Value.decoded := by
  rw [recordOf, record_eq, get?_eventRenamer (by decide), timeStamper,
    Dict.get?_set_of_ne _ _ (by decide), unicodeDecoder, Dict.get?_mapValues,
    get?_formatExcInfo (by decide), stackInfoRenderer, get?_stamped_given (by decide),
    ← Logging.asksForStack]
  cases c.asksForStack with
  | true => rw [if_pos rfl, if_pos rfl, Dict.get?_set_self]; rfl
  | false => rw [if_neg Bool.false_ne_true, if_neg Bool.false_ne_true, Dict.get?_erase,
      if_neg (by decide), get?_stamped_given (by decide)]

theorem get?_recordOf_steering (h : key ∈ [PyStr.ofString "event", "exc_info", "stack_info"]) :
    (m.recordOf c).get? key = none := by
  simp only [List.mem_cons, List.not_mem_nil, or_false] at h
  rw [recordOf, record_eq]
  obtain rfl | rfl | rfl := h
  · exact get?_eventRenamer_event (by decide)
  · rw [get?_eventRenamer (by decide), timeStamper, Dict.get?_set_of_ne _ _ (by decide),
      unicodeDecoder, Dict.get?_mapValues, get?_formatExcInfo_excInfo]
    rfl
  · rw [get?_eventRenamer (by decide), timeStamper, Dict.get?_set_of_ne _ _ (by decide),
      unicodeDecoder, Dict.get?_mapValues, get?_formatExcInfo (by decide),
      get?_stackInfoRenderer_stackInfo]
    rfl

theorem get?_recordOf_stamped (h : key ∈ stampedKeys) : ∃ text : PyStr,
    (m.recordOf c).get? key = some (.text text) ∧
      text ∈ [PyStr.ofString m.env.value, appName, m.hostname, m.appVersion,
        c.call.method.logLevel.value, c.surroundings.now, c.call.event] := by
  simp only [stampedKeys, List.mem_cons, List.not_mem_nil, or_false] at h
  obtain rfl | rfl | rfl | rfl | rfl | rfl | rfl := h
  · exact ⟨_, get?_record_resource (by decide) rfl, by simp⟩
  · exact ⟨_, get?_record_resource (by decide) rfl, by simp⟩
  · exact ⟨_, get?_record_resource (by decide) rfl, by simp⟩
  · exact ⟨_, get?_record_resource (by decide) rfl, by simp⟩
  · exact ⟨_, get?_record_level, by simp⟩
  · exact ⟨_, get?_record_ts, by simp⟩
  · exact ⟨_, get?_record_msg, by simp⟩

end

theorem serialize_isOk_iff (record : Fields E) : (∃ line, m.serialize record = .ok line) ↔
    ∀ key v, record.get? key = some v → key.Encodable ∧ (m.toJson v).Encodable := by
  rw [serialize_isOk, Json.encodable_obj]
  constructor
  · intro h key v hv
    exact h (key, m.toJson v) (List.mem_map_of_mem ((record.mem_entries v key).mpr hv))
  · intro h f hf
    obtain ⟨e, he, rfl⟩ := List.mem_map.mp hf
    exact h e.1 e.2 ((record.mem_entries e.2 e.1).mp he)

theorem encodable_toJson_text {text : PyStr} : (m.toJson (.text text)).Encodable ↔ text.Encodable :=
  List.forall_mem_singleton

theorem encodable_ownKey {key : PyStr} (h : key ∈ stampedKeys ++ consumedKeys) : key.Encodable := by
  simp only [stampedKeys, consumedKeys, List.mem_append, List.mem_cons, List.not_mem_nil,
    or_false] at h
  rcases h with (rfl | rfl | rfl | rfl | rfl | rfl | rfl) | (rfl | rfl | rfl | rfl | rfl) <;>
    exact PyStr.encodable_ofString _

variable {m} {c : Logging E}

theorem Writes.of_line (h : ∀ key v, (m.recordOf c).get? key = some v →
    key.Encodable ∧ (m.toJson v).Encodable) : m.Writes c := by
  have htext (key text : PyStr) (hv : (m.recordOf c).get? key = some (.text text)) :
      text.Encodable := m.encodable_toJson_text.mp (h key _ hv).2
  have hgiven {key : PyStr} (hkey : (m.recordOf c).get? key = (c.given key).map Value.decoded)
      (v : Value E) (hv : c.given key = some v) : key.Encodable ∧ m.Encodes v := by
    apply h key v.decoded
    rw [hkey, hv]
    rfl
  constructor
  · exact htext "instance" _ (get?_record_resource (by decide) rfl)
  · exact htext "app.version" _ (get?_record_resource (by decide) rfl)
  · exact htext "ts" _ get?_record_ts
  · exact htext "msg" _ get?_record_msg
  · have hexception := get?_recordOf_exception (m := m) (c := c)
    cases hreported : c.reported with
    | some e =>
      rw [hreported] at hexception
      exact htext _ _ hexception
    | none =>
      rw [hreported] at hexception
      exact fun v hv => (hgiven hexception v hv).2
  · have hstack := get?_recordOf_stack (m := m) (c := c)
    split
    · next hasks =>
      rw [if_pos hasks] at hstack
      exact htext _ _ hstack
    · next hasks =>
      rw [if_neg hasks] at hstack
      exact fun v hv => (hgiven hstack v hv).2
  · exact fun key v hkey hv => hgiven (get?_recordOf_given hkey) v hv

theorem Writes.line (h : m.Writes c) {key : PyStr} {v : Value E}
    (hv : (m.recordOf c).get? key = some v) : key.Encodable ∧ (m.toJson v).Encodable := by
  by_cases hown : key ∈ stampedKeys ++ consumedKeys
  swap
  · rw [get?_recordOf_given hown] at hv
    obtain ⟨w, hw, rfl⟩ := Option.map_eq_some_iff.mp hv
    exact h.fields key w hown hw
  refine ⟨encodable_ownKey hown, ?_⟩
  rcases List.mem_append.mp hown with hstamped | hconsumed
  · obtain ⟨text, htext, hmem⟩ := get?_recordOf_stamped hstamped
    rw [htext] at hv
    cases hv
    rw [encodable_toJson_text]
    simp only [List.mem_cons, List.not_mem_nil, or_false] at hmem
    rcases hmem with rfl | rfl | rfl | rfl | rfl | rfl | rfl
    · exact PyStr.encodable_ofString _
    · exact PyStr.encodable_ofString _
    · exact h.hostname
    · exact h.appVersion
    · exact PyStr.encodable_ofString _
    · exact h.now
    · exact h.event
  · by_cases hsteering : key ∈ [PyStr.ofString "event", "exc_info", "stack_info"]
    · rw [get?_recordOf_steering hsteering] at hv
      cases hv
    have hrest : key = PyStr.ofString "exception" ∨ key = PyStr.ofString "stack" := by
      simp only [consumedKeys, List.mem_cons, List.not_mem_nil, or_false] at hconsumed
      obtain h | h | h | h := hconsumed
      · exact absurd (List.mem_cons.mpr (.inl h)) hsteering
      · exact absurd (List.mem_of_mem_tail (List.mem_cons.mpr (.inl h))) hsteering
      · exact absurd (List.mem_of_mem_tail (List.mem_of_mem_tail (List.mem_singleton.mpr h)))
          hsteering
      · exact h
    obtain rfl | rfl := hrest
    · have hexception := h.exception
      rw [get?_recordOf_exception] at hv
      cases hreported : c.reported with
      | some e =>
        rw [hreported] at hv hexception
        cases hv
        exact (encodable_toJson_text m).mpr hexception
      | none =>
        rw [hreported] at hv hexception
        obtain ⟨w, hw, rfl⟩ := Option.map_eq_some_iff.mp hv
        exact hexception w hw
    · have hstack := h.stack
      rw [get?_recordOf_stack] at hv
      split at hv
      · next hasks =>
        rw [if_pos hasks] at hstack
        cases hv
        exact (encodable_toJson_text m).mpr hstack
      · next hasks =>
        rw [if_neg hasks] at hstack
        obtain ⟨w, hw, rfl⟩ := Option.map_eq_some_iff.mp hv
        exact hstack w hw

theorem serialize_recordOf_isOk : (∃ line, m.serialize (m.recordOf c) = .ok line) ↔ m.Writes c := by
  rw [serialize_isOk_iff]
  exact ⟨Writes.of_line, fun h _ _ hv => h.line hv⟩

/-- A call at an admitted level adds its line to the stream exactly when every text of its
record has a UTF-8 form, and the handler of unhandled exceptions comes to its response
exactly when the traceback it logs has one, or the level does not admit errors. -/
theorem log_writes_iff (m : LogManager E) (c : Logging E) (stream : List UInt8)
    (hlevel : m.minLogLevel.admits c.call.method.logLevel = true) (lib : Starlette HttpRecord)
    (logging : ProcessLogging) (server : Server) (request : HttpScope) (exc : Exn)
    (x : Exchange HttpRecord) :
    ((∃ line, m.serialize (m.recordOf c) = .ok line ∧
      m.log c stream = (.ok (), stream ++ (line ++ [0x0A]))) ↔ m.Writes c) ∧
    (((handleUnhandledHttpException lib logging request exc).run server.handler x).1 =
      .ok (genericResponse lib (x.state correlationIdStateKey)) ↔
        (logging.admitsError = true → (logging.manager.formatException (.exception exc)).Encodable))
    := by
  constructor
  · rw [← serialize_recordOf_isOk]
    refine exists_congr fun line => and_iff_left_of_imp fun hline => ?_
    rw [log, if_pos hlevel, hline]
  · by_cases hlog : logging.Loggable exc
    · exact iff_of_true (congrArg Prod.fst (handler_run lib server request x hlog)) hlog
    · obtain ⟨failure, hrun⟩ := handler_run_error lib server request x hlog
      refine iff_of_false (fun h => ?_) hlog
      rw [hrun] at h
      cases h

theorem log_writes_plain :
    let m : LogManager Unit := ⟨.info, .dev, "1.0", "host", fun _ => "Traceback", fun _ => .null⟩
    let c : Logging Unit := ⟨⟨.empty⟩, ⟨.named .info, "e", .empty⟩, ⟨.empty, "now", "", none⟩⟩
    let server : Server := ⟨fun _ => .ok (), fun _ => .ok (.other "http.request" ""), fun _ => "id"⟩
    let x : Exchange HttpRecord := .start (fun _ => none) fun _ => none
    (∃ line, m.serialize (m.recordOf c) = .ok line ∧
      m.log c [] = (.ok (), [] ++ (line ++ [0x0A]))) ∧
    ((handleUnhandledHttpException Asgi.starlette .toStdout ⟨"/", []⟩ "boom").run server.handler
      x).1 = .ok (genericResponse Asgi.starlette none) := by
  intro m c server x
  have hwrites : m.Writes c := by
    refine ⟨PyStr.encodable_ofString _, PyStr.encodable_ofString _, PyStr.encodable_ofString _,
      PyStr.encodable_ofString _, ?_, ?_, ?_⟩
    · rintro v ⟨⟩
    · rintro v ⟨⟩
    · rintro key v - ⟨⟩
  obtain ⟨hlog, hhandler⟩ := log_writes_iff m c [] rfl Asgi.starlette .toStdout server ⟨"/", []⟩
    "boom" x
  exact ⟨hlog.mpr hwrites, hhandler.mpr fun _ => PyStr.encodable_ofString _⟩

/-- A lone surrogate as the event, and in an exception: as its text, and as that of its cause. -/
theorem log_writes_fails :
    let m : LogManager Unit := ⟨.info, .dev, "1.0", "host", fun _ => "Traceback", fun _ => .null⟩
    let lone : PyStr := [.surrogate 0]
    let c : Logging Unit := ⟨⟨.empty⟩, ⟨.named .info, lone, .empty⟩, ⟨.empty, "now", "", none⟩⟩
    let server : Server := ⟨fun _ => .ok (), fun _ => .ok (.other "http.request" ""), fun _ => "id"⟩
    let x : Exchange HttpRecord := .start (fun _ => none) fun _ => none
    (¬ ∃ line, m.serialize (m.recordOf c) = .ok line) ∧
    ∀ exc ∈ [⟨lone, []⟩, (⟨"boom", [lone]⟩ : Exn)], ∃ failure,
      ((handleUnhandledHttpException Asgi.starlette .toStdout ⟨"/", []⟩ exc).run server.handler
        x).1 = .error (.exception failure) := by
  intro m lone c server x
  have hmem (text : PyStr) (h : PyChar.surrogate 0 ∈ text) : ¬ text.Encodable := by
    intro hencodable
    obtain ⟨char, hchar⟩ := hencodable _ h
    cases hchar
  constructor
  · exact fun h => hmem lone (List.mem_cons_self ..) (serialize_recordOf_isOk.mp h).event
  · intro exc hexc
    have hnot : ¬ ProcessLogging.toStdout.Loggable exc := by
      intro h
      simp only [List.mem_cons, List.not_mem_nil, or_false] at hexc
      rcases hexc with rfl | rfl <;> exact hmem _ (List.mem_cons_self ..) (h rfl)
    obtain ⟨failure, hrun⟩ := handler_run_error Asgi.starlette server ⟨"/", []⟩ x hnot
    exact ⟨failure, congrArg Prod.fst hrun⟩

end LogManager

end PolyrepoTemplate
