import PolyrepoTemplate.Logger.LogManager

namespace PolyrepoTemplate

open Text

variable {E : Type}

structure Logging (E : Type) where
  logger : ChildLogger E
  call : LogCall E
  surroundings : Surroundings E

namespace LogManager

variable (m : LogManager E)

def recordOf (c : Logging E) : Fields E := m.record c.logger c.call c.surroundings

/-- One call: what it raises, and the stream after it. A call below the minimum level
does nothing; `BytesLogger` ends the line. -/
def log (c : Logging E) (stream : List UInt8) : Except UnicodeEncodeError Unit × List UInt8 :=
  if m.minLogLevel.admits c.call.method.logLevel then
    match m.serialize (m.recordOf c) with
    | .ok line => (.ok (), stream ++ (line ++ [0x0A]))
    | .error e => (.error e, stream)
  else (.ok (), stream)

def logAll (calls : List (Logging E)) (stream : List UInt8) : List UInt8 :=
  calls.foldl (fun stream c => (m.log c stream).2) stream

theorem log_append (c : Logging E) (stream : List UInt8) :
    (m.log c stream).2 = stream ++ (m.log c []).2 := by
  unfold log
  split_ifs
  · cases m.serialize (m.recordOf c) with
    | ok line => rfl
    | error e => exact (List.append_nil _).symm
  · exact (List.append_nil _).symm

theorem logAll_append (calls : List (Logging E)) (stream : List UInt8) :
    m.logAll calls stream = stream ++ m.logAll calls [] := by
  induction calls generalizing stream with
  | nil => exact (List.append_nil _).symm
  | cons c calls ih =>
    show m.logAll calls (m.log c stream).2 = stream ++ m.logAll calls (m.log c []).2
    rw [ih, ih (m.log c []).2, log_append, List.append_assoc]

end LogManager

/-- JSON of distinct keys, its strings being texts of scalar values. -/
def Value.Plain (v : Value E) : Prop := ∃ j, v = .json j ∧ j.WellFormed ∧ j.Encodable

def PlainFields (d : Fields E) : Prop := d.All fun k v => k.Encodable ∧ v.Plain

structure LogManager.Plain (m : LogManager E) : Prop where
  hostname : m.hostname.Encodable
  appVersion : m.appVersion.Encodable

structure Surroundings.Plain (m : LogManager E) (s : Surroundings E) : Prop where
  contextvars : PlainFields s.contextvars
  now : s.now.Encodable
  stack : s.stack.Encodable
  handled : ∀ e, s.handled = some e → (m.formatException e).Encodable

structure Logging.Plain (m : LogManager E) (c : Logging E) : Prop where
  bound : PlainFields c.logger.bound
  event : c.call.event.Encodable
  kwargs : PlainFields c.call.kwargs
  surroundings : c.surroundings.Plain m

theorem Value.plain_text {s : PyStr} (h : s.Encodable) : (Value.text s : Value E).Plain :=
  ⟨.str s, rfl, trivial, List.forall_mem_singleton.mpr h⟩

/-- Plain, but for an exception that is still to be formatted. -/
def ReadableFields (m : LogManager E) (d : Fields E) : Prop :=
  d.All fun k v => k.Encodable ∧ (v.Plain ∨
    k = PyStr.ofString "exc_info" ∧ ∃ e, v = .exception e ∧ (m.formatException e).Encodable)

section
variable {m : LogManager E} {s : Surroundings E} {level : LogLevel} {d : Fields E}

theorem PlainFields.readable (h : PlainFields d) : ReadableFields m d :=
  fun k v hv => ⟨(h k v hv).1, .inl (h k v hv).2⟩

theorem PlainFields.setText (h : PlainFields d) {key : String} {text : PyStr}
    (htext : text.Encodable) : PlainFields (d.set key (.text text)) :=
  h.set ⟨PyStr.encodable_ofString key, Value.plain_text htext⟩

theorem ReadableFields.setText (h : ReadableFields m d) {key : String} {text : PyStr}
    (htext : text.Encodable) : ReadableFields m (d.set key (.text text)) :=
  h.set ⟨PyStr.encodable_ofString key, .inl (Value.plain_text htext)⟩

theorem ReadableFields.stackInfoRenderer (h : ReadableFields m d) (hs : s.Plain m) :
    ReadableFields m (stackInfoRenderer s level d) := by
  unfold PolyrepoTemplate.stackInfoRenderer
  split
  · exact ReadableFields.setText h.erase hs.stack
  · exact h.erase

theorem ReadableFields.figureOutExcInfo {v : Value E} {e : E} (h : ReadableFields m d)
    (hs : s.Plain m) (hv : d.get? "exc_info" = some v) (he : figureOutExcInfo s v = some e) :
    (m.formatException e).Encodable := by
  rcases (h _ _ hv).2 with ⟨j, rfl, -⟩ | ⟨-, e', rfl, hencodable⟩
  · -- a plain value asks for the exception being handled
    change (if (Value.json j : Value E).truthy then s.handled else none) = some e at he
    split at he
    · exact hs.handled e he
    · cases he
  · cases he
    exact hencodable

theorem ReadableFields.plain_erase (h : ReadableFields m d) : PlainFields (d.erase "exc_info") := by
  intro k v hv
  rw [Dict.get?_erase] at hv
  split at hv
  · cases hv
  · next hk =>
    obtain ⟨hkey, hplain | ⟨hexc, -⟩⟩ := h k v hv
    · exact ⟨hkey, hplain⟩
    · exact absurd hexc hk

theorem ReadableFields.formatExcInfo (h : ReadableFields m d) (hs : s.Plain m) :
    PlainFields (m.formatExcInfo s level d) := by
  unfold LogManager.formatExcInfo
  split
  · next e he =>
    obtain ⟨v, hv, hfigured⟩ := Option.bind_eq_some_iff.mp he
    exact PlainFields.setText h.plain_erase (h.figureOutExcInfo hs hv hfigured)
  · exact h.plain_erase

theorem PlainFields.unicodeDecoder (h : PlainFields d) :
    PlainFields (unicodeDecoder s level d) := by
  refine h.mapValues ?_
  rintro k v ⟨hk, j, rfl, hj⟩
  exact ⟨hk, j, rfl, hj⟩

theorem PlainFields.eventRenamer (h : PlainFields d) (key : String) :
    PlainFields (eventRenamer key s level d) := by
  unfold PolyrepoTemplate.eventRenamer
  split
  · next event hevent =>
    exact h.erase.set ⟨PyStr.encodable_ofString key, (h _ _ hevent).2⟩
  · exact h

theorem plain_empty : PlainFields (Dict.empty : Fields E) := by
  rintro k v ⟨⟩

theorem LogManager.plain_resourceFields (hm : m.Plain) : PlainFields m.resourceFields := by
  unfold LogManager.resourceFields Dict.ofList
  simp only [List.foldl_cons, List.foldl_nil]
  exact PlainFields.setText (PlainFields.setText (PlainFields.setText (PlainFields.setText
    plain_empty (PyStr.encodable_ofString _)) (PyStr.encodable_ofString _)) hm.hostname)
    hm.appVersion

theorem ReadableFields.eventDict {logger : ChildLogger E} {call : LogCall E}
    (hbound : PlainFields logger.bound) (hkwargs : ReadableFields m call.kwargs)
    (hevent : call.event.Encodable) : ReadableFields m (logger.eventDict call) := by
  refine ReadableFields.setText (hbound.readable.update ?_) hevent
  unfold LogCall.keywords
  split
  · exact hkwargs
  · exact hkwargs.setDefault ⟨PyStr.encodable_ofString _, .inl ⟨.bool true, rfl, trivial,
      List.forall_mem_nil _⟩⟩

theorem LogManager.plain_record (hm : m.Plain) (hs : s.Plain m) {logger : ChildLogger E}
    {call : LogCall E} (hbound : PlainFields logger.bound) (hkwargs : ReadableFields m call.kwargs)
    (hevent : call.event.Encodable) : PlainFields (m.record logger call s) := by
  have hdict := ReadableFields.eventDict hbound hkwargs hevent
  have hmerged := hdict.setDefaults hs.contextvars.readable
  have hresource := hmerged.update (LogManager.plain_resourceFields hm).readable
  have hstamped : ReadableFields m (m.stamped logger call s) :=
    ReadableFields.setText hresource (PyStr.encodable_ofString _)
  have hstack : ReadableFields m (stackInfoRenderer s call.method.logLevel _) :=
    hstamped.stackInfoRenderer hs
  have hexc : PlainFields (m.formatExcInfo s call.method.logLevel _) := hstack.formatExcInfo hs
  have hdecoded : PlainFields (unicodeDecoder s call.method.logLevel _) := hexc.unicodeDecoder
  have hts : PlainFields (timeStamper "ts" s call.method.logLevel _) := hdecoded.setText hs.now
  rw [LogManager.record_eq]
  exact hts.eventRenamer "msg"

theorem LogManager.plain_recordOf (hm : m.Plain) {c : Logging E} (hc : c.Plain m) :
    PlainFields (m.recordOf c) :=
  LogManager.plain_record hm hc.surroundings hc.bound hc.kwargs.readable hc.event

end

variable {m : LogManager E}

/-- The line of a plain record: its bytes have no line feed, and hold the record. -/
theorem LogManager.serialize_plain {record : Fields E} (h : PlainFields record) :
    ∃ chars fields, m.serialize record = .ok (utf8 chars) ∧ '\n' ∉ chars ∧
      Json.loads (PyStr.ofChars chars) = some (.obj fields) ∧
      record.entries = fields.map fun f => (f.1, .json f.2) := by
  have hentries : ∀ e ∈ record.entries, e.1.Encodable ∧ ∃ j, e.2 = .json j ∧ j.WellFormed ∧
      j.Encodable := fun e he => h _ _ ((record.mem_entries _ _).mp he)
  have hfields : ∀ f ∈ (record.mapValues m.toJson).entries,
      f.1.Encodable ∧ f.2.WellFormed ∧ f.2.Encodable := by
    intro f hf
    obtain ⟨e, he, rfl⟩ := List.mem_map.mp hf
    obtain ⟨hkey, j, hj, hwell, hencodable⟩ := hentries e he
    dsimp only
    rw [hj]
    exact ⟨hkey, hwell, hencodable⟩
  have hwell : (Json.obj (record.mapValues m.toJson).entries).WellFormed :=
    ⟨(record.mapValues m.toJson).nodup,
      Json.wellFormedFields_iff.mpr fun f hf => (hfields f hf).2.1⟩
  have hencodable : (Json.obj (record.mapValues m.toJson).entries).Encodable :=
    Json.encodable_obj.mpr fun f hf => ⟨(hfields f hf).1, (hfields f hf).2.2⟩
  obtain ⟨chars, hchars⟩ := PyStr.encodable_iff.mp ((Json.encodable_dumps _).mpr hencodable)
  refine ⟨chars, _, ?_, ?_, hchars ▸ Json.loads_dumps hwell, ?_⟩
  · rw [serialize, hchars, PyStr.encode_ofChars]
  · intro hmem
    have hline := Json.lineFeed_notMem_dumps (.obj (record.mapValues m.toJson).entries)
    rw [hchars] at hline
    exact hline (List.mem_map_of_mem hmem)
  · -- every value is the JSON it is written as
    show record.entries = (record.entries.map fun e => (e.1, m.toJson e.2)).map _
    rw [List.map_map]
    refine (List.map_id _).symm.trans (List.map_congr_left fun e he => ?_)
    obtain ⟨-, j, hj, -⟩ := hentries e he
    show e = (e.1, .json (m.toJson e.2))
    rw [hj]
    exact Prod.ext rfl hj

def LogManager.Holds (m : LogManager E) (c : Logging E) (piece : List UInt8) : Prop :=
  ∃ text fields, PyStr.decode piece = some text ∧ Json.loads text = some (.obj fields) ∧
    (m.recordOf c).entries = fields.map fun f => (f.1, .json f.2)

/-- The stream of plain calls that the level admits, cut at its line feeds: a piece for
each call, in order, that holds its record, and nothing after the last line feed. -/
theorem LogManager.logAll_splitOn (hm : m.Plain) {calls : List (Logging E)}
    (hcalls : ∀ c ∈ calls, m.minLogLevel.admits c.call.method.logLevel = true ∧ c.Plain m) :
    ∃ pieces, (m.logAll calls []).splitOn 0x0A = pieces ++ [[]] ∧
      List.Forall₂ m.Holds calls pieces := by
  induction calls with
  | nil => exact ⟨[], rfl, .nil⟩
  | cons c calls ih =>
    obtain ⟨⟨hlevel, hplain⟩, hrest⟩ := List.forall_mem_cons.mp hcalls
    obtain ⟨pieces, hsplit, hpieces⟩ := ih hrest
    obtain ⟨chars, fields, hline, hfeed, hloads, hrecord⟩ :=
      m.serialize_plain (m.plain_recordOf hm hplain)
    have hlog : m.log c [] = (.ok (), utf8 chars ++ [0x0A]) := by
      rw [log, if_pos hlevel, hline]
      rfl
    have hstream : m.logAll (c :: calls) [] = utf8 chars ++ 0x0A :: m.logAll calls [] := by
      show m.logAll calls (m.log c []).2 = _
      rw [logAll_append, hlog, List.append_assoc]
      rfl
    refine ⟨utf8 chars :: pieces, ?_, .cons ⟨_, fields, PyStr.decode_utf8 chars, hloads, hrecord⟩
      hpieces⟩
    rw [hstream, List.splitOn_append_cons_self_of_not_mem (mt lineFeed_mem_utf8.mp hfeed), hsplit]
    rfl

/-- Two records whose strings hold a line feed, a quote and a line separator. -/
theorem LogManager.logAll_splitOn_lines :
    let m : LogManager Unit := ⟨.info, .dev, "1.0", "host", fun _ => "Traceback", fun _ => .null⟩
    let c : Logging Unit := ⟨⟨Dict.empty.set "context" (.text "UsersService")⟩,
      ⟨.named .error, "a\n\"b\"", Dict.empty.set "k\\" (.text "\u2028")⟩,
      ⟨.empty, "now", "stack", none⟩⟩
    ∃ pieces, (m.logAll [c, c] []).splitOn 0x0A = pieces ++ [[]] ∧
      List.Forall₂ m.Holds [c, c] pieces := by
  intro m c
  have hc : c.Plain m := by
    refine ⟨PlainFields.setText plain_empty (PyStr.encodable_ofString _),
      PyStr.encodable_ofString _,
      PlainFields.setText plain_empty (PyStr.encodable_ofString _),
      plain_empty, PyStr.encodable_ofString _, PyStr.encodable_ofString _, ?_⟩
    rintro e ⟨⟩
  refine LogManager.logAll_splitOn ⟨PyStr.encodable_ofString _, PyStr.encodable_ofString _⟩ ?_
  rintro d hd
  rw [List.mem_cons, List.mem_singleton, or_self] at hd
  rw [hd]
  exact ⟨rfl, hc⟩

end PolyrepoTemplate
