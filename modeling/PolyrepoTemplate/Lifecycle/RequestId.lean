import PolyrepoTemplate.Lifecycle.CreateApp

namespace PolyrepoTemplate

open Async Asgi Text

theorem firstUsable_cons (headers : List Header) (name : String) (names : List String) :
    firstUsable headers (name :: names) = if strip (headersGet headers name "") ≠ "" then
      some (strip (headersGet headers name "")) else firstUsable headers names := rfl

section
variable {M : Type} (server : Server) (request : HttpScope) (x : Exchange M)

theorem chosenId_cases : chosenId server request x =
    if strip (headersGet request.headers requestIdHeader "") ≠ "" then
      strip (headersGet request.headers requestIdHeader "")
    else if strip (headersGet request.headers correlationIdHeader "") ≠ "" then
      strip (headersGet request.headers correlationIdHeader "")
    else server.uuid4 x.uuids := by
  unfold chosenId inboundId
  rw [firstUsable_cons, firstUsable_cons]
  split_ifs <;> rfl

theorem chosenId_not_blank (huuid : ∀ n, strip (server.uuid4 n) ≠ "") :
    strip (chosenId server request x) ≠ "" := by
  rw [chosenId_cases]
  split_ifs with hrequest hcorrelation
  · rwa [strip_strip]
  · rwa [strip_strip]
  · exact huuid x.uuids

end

/-- The header is the request id, in any letter case. -/
def isRequestId (h : Header) : Bool := lower h.1 == "x-request-id"

theorem isRequestId_self (value : String) : isRequestId ("x-request-id", value) = true :=
  beq_iff_eq.mpr (by decide : lower "x-request-id" = "x-request-id")

/-- A message of the inner application as it leaves: of a response the headers are, in order
and but for the request id, what the security headers' middleware makes of them; those
that the preset does not set are the inner ones where the library leaves them alone. Any
other message stays. -/
def Echoed (secure : Secure) (path : String) (inner outer : Message) : Prop :=
  match inner with
  | .responseStart status headers => ∃ headers', outer = .responseStart status headers' ∧
    headers'.filter (fun h => !isRequestId h) =
      (secure.outgoing path headers).filter (fun h => !isRequestId h) ∧
    (secure.LeavesAlone headers →
      headers'.filter (fun h => !setBy secure.preset h.1 && !isRequestId h) =
        headers.filter fun h => !setBy secure.preset h.1 && !isRequestId h)
  | .other .. => outer = inner

theorem filter_setItem (lib : Starlette HttpRecord) (value : String) (headers : List Header) :
    (lib.setItem requestIdHeader value headers).filter (fun h => !isRequestId h) =
      headers.filter fun h => !isRequestId h := by
  have hlower : lower requestIdHeader = "x-request-id" := by decide
  have hcover : ∀ l : List Header, l.filter (fun h => !isRequestId h) =
      (l.filter (·.1 ≠ lower requestIdHeader)).filter fun h => !isRequestId h := by
    intro l
    rw [List.filter_filter]
    refine List.filter_congr fun h _ => ?_
    cases hid : isRequestId h with
    | true => rfl
    | false =>
      have hname : h.1 ≠ "x-request-id" := by
        rintro hname
        rw [isRequestId, hname] at hid
        exact absurd hid (by decide)
      simp [hlower, hname]
  rw [hcover, lib.setItem_other, ← hcover]

theorem Secure.mem_of_mem_outgoing (secure : Secure) {path : String} {headers : List Header}
    {h : Header} (hh : h ∈ secure.outgoing path headers)
    (hset : setBy secure.preset h.1 = false) : h ∈ headers := by
  have happly : h ∈ secure.apply headers := by
    unfold Secure.outgoing at hh
    split at hh
    · exact (List.mem_filter.mp hh).1
    · exact hh
  exact secure.apply_own headers h happly hset

namespace AppParts

variable {parts : AppParts} {server : Server} {request : HttpScope} {x : Exchange HttpRecord}

theorem setBy_of_isRequestId {h : Header} (hid : isRequestId h = true) :
    setBy parts.secure.preset h.1 = false := by
  rw [setBy, List.any_eq_false]
  intro p hp
  rw [isRequestId, beq_iff_eq] at hid
  simpa [hid] using parts.secure.preset_requestId p hp

theorem echoed_leaving (message : Message) : Echoed parts.secure request.path message
    (message.mapHeaders (parts.leaving server request x)) := by
  cases message with
  | other type body => rfl
  | responseStart status headers =>
    have hset := filter_setItem parts.starlette (chosenId server request x)
      (parts.secure.outgoing request.path headers)
    refine ⟨_, rfl, hset, fun halone => ?_⟩
    calc (parts.leaving server request x headers).filter
          (fun h => !setBy parts.secure.preset h.1 && !isRequestId h)
        = ((parts.secure.outgoing request.path headers).filter fun h => !isRequestId h).filter
            (fun h => !setBy parts.secure.preset h.1) := by rw [← hset, List.filter_filter]; rfl
      _ = (headers.filter fun h => !setBy parts.secure.preset h.1).filter
            (fun h => !isRequestId h) := by
          rw [List.filter_comm, parts.secure.outgoing_frame request.path halone]
      _ = headers.filter fun h => !setBy parts.secure.preset h.1 && !isRequestId h := by
          rw [List.filter_comm, List.filter_filter]

/-- A response of lower-case names leaves with the chosen id as its only request id. -/
theorem leaving_requestId {headers : List Header} (hlower : ∀ h ∈ headers, lower h.1 = h.1) :
    (parts.leaving server request x headers).filter isRequestId =
      [("x-request-id", chosenId server request x)] := by
  have hkey : lower requestIdHeader = "x-request-id" := by decide
  have hself := parts.starlette.setItem_self requestIdHeader (chosenId server request x)
    (parts.secure.outgoing request.path headers)
  rw [hkey] at hself
  refine Eq.trans (List.filter_congr fun h hh => ?_) hself
  rcases mem_leaving.mp hh with rfl | ⟨hname, hout⟩
  · rw [isRequestId_self]
    rfl
  · -- in capitals it would be a header of the preset, which has none
    have hnot : isRequestId h = false := by
      by_contra hid
      have hid' : isRequestId h = true := by simpa using hid
      have hmem := parts.secure.mem_of_mem_outgoing hout (setBy_of_isRequestId hid')
      rw [isRequestId, hlower h hmem, beq_iff_eq] at hid'
      exact hname hid'
    simp [hnot, hname]

theorem genericResponse_requestId {id : String} (hid : id ≠ "") :
    (genericResponse parts.starlette (some id)).headers.filter isRequestId =
      [("x-request-id", id)] := by
  obtain ⟨own, heq, hown⟩ :=
    parts.starlette.plainTextHeaders_eq genericBody (responseHeaders (some id))
  have hkey : lower requestIdHeader = "x-request-id" := by decide
  have hnone : own.filter isRequestId = [] := by
    rw [List.filter_eq_nil_iff]
    intro h hh
    rcases hown h hh with hname | hname <;> rw [isRequestId, hname] <;> decide
  rw [genericResponse, heq, List.filter_append, hnone, List.append_nil, responseHeaders,
    if_pos hid, List.map_singleton, hkey, List.filter_singleton, isRequestId_self]
  rfl

section
variable (parts server request x)

/-- Everything a run can leave behind: what the inner application did, the record of an
exception, and the generic response. -/
theorem appRun_exchange (hx : x.sent = []) :
    (parts.appRun server request x).2 = parts.left server request x ∨ ∃ exc,
      (parts.appRun server request x).2 =
        logged parts.logging exc (parts.left server request x) ∨
      ∃ rest, (∀ message ∈ rest, message.startsResponse = false) ∧
        (parts.appRun server request x).2 =
          { logged parts.logging exc (parts.left server request x) with
            sent := (parts.left server request x).sent ++ genericStart parts.starlette
              ((parts.left server request x).state correlationIdStateKey) :: rest } := by
  by_cases hexc : ∃ exc, (parts.innerRun server request x).1 = .error (.exception exc)
  · obtain ⟨exc, hexc⟩ := hexc
    by_cases hlog : parts.logging.Loggable exc
    · obtain ⟨e, generic, hrun, hgeneric⟩ :=
        appRun_of_loggable parts server request x hx hexc hlog
      rw [hrun]
      refine .inr ⟨exc, ?_⟩
      cases hstarted : (parts.innerRun server request x).2.sent.any Message.startsResponse with
      | true =>
        rw [hstarted] at hgeneric
        rw [hgeneric.2, List.append_nil]
        exact .inl rfl
      | false =>
        rw [hstarted] at hgeneric
        obtain ⟨rest, hrest, rfl⟩ := hgeneric
        exact .inr ⟨rest, hrest, rfl⟩
    · obtain ⟨failure, hrun⟩ := appRun_of_not_loggable parts server request x hx hexc hlog
      rw [hrun]
      exact .inl rfl
  · rw [appRun_of_not_exception parts server request x hx (not_exists.mp hexc)]
    exact .inl rfl

theorem left_echoed : List.Forall₂ (Echoed parts.secure request.path)
    (parts.innerRun server request x).2.sent (parts.left server request x).sent := by
  rw [left_sent, List.forall₂_map_right_iff]
  exact List.forall₂_same.mpr fun message _ => echoed_leaving message

theorem appRun_record (hx : x.sent = [])
    (hkey : (parts.left server request x).state correlationIdStateKey =
      some (chosenId server request x)) (exc : Exn)
    (hexc : (parts.innerRun server request x).1 = .error (.exception exc))
    (hlevel : parts.logging.admitsError = true) (hrenders : parts.logging.Renders exc) :
    (parts.appRun server request x).2.log = (parts.innerRun server request x).2.log ++
      [unhandledRecord exc (some (chosenId server request x))] := by
  rw [parts.log_of_loggable server request x hx hexc fun _ => hrenders, ProcessLogging.written,
    if_pos hlevel, hkey]

theorem appRun_noRecord (hx : x.sent = [])
    (h : ∀ exc, (parts.innerRun server request x).1 = .error (.exception exc) →
      ¬ (parts.logging.admitsError = true ∧ parts.logging.Renders exc)) :
    (parts.appRun server request x).2.log = (parts.innerRun server request x).2.log := by
  by_cases hexc : ∃ exc, (parts.innerRun server request x).1 = .error (.exception exc)
  · obtain ⟨exc, hexc⟩ := hexc
    by_cases hlog : parts.logging.Loggable exc
    · -- then the level does not admit errors
      have hlevel : ¬ parts.logging.admitsError = true :=
        fun hlevel => h exc hexc ⟨hlevel, hlog hlevel⟩
      rw [parts.log_of_loggable server request x hx hexc hlog, ProcessLogging.written,
        if_neg hlevel, List.append_nil]
    · obtain ⟨failure, hrun⟩ := appRun_of_not_loggable parts server request x hx hexc hlog
      rw [hrun]
      rfl
  · rw [appRun_of_not_exception parts server request x hx (not_exists.mp hexc)]
    rfl

/-- The id chosen on entry is everywhere: on the state, on every response start, and on the
record of an unhandled exception, which is the only one added. What the inner application
sends is otherwise passed on. -/
structure OneRequestId : Prop where
  notBlank : strip (chosenId server request x) ≠ ""
  chosen : chosenId server request x =
    if strip (headersGet request.headers requestIdHeader "") ≠ "" then
      strip (headersGet request.headers requestIdHeader "")
    else if strip (headersGet request.headers correlationIdHeader "") ≠ "" then
      strip (headersGet request.headers correlationIdHeader "")
    else server.uuid4 x.uuids
  state : (parts.appRun server request x).2.state correlationIdStateKey =
    some (chosenId server request x)
  starts : ∀ status headers,
    Message.responseStart status headers ∈ (parts.appRun server request x).2.sent →
      headers.filter isRequestId = [("x-request-id", chosenId server request x)]
  record : ∀ exc, (parts.innerRun server request x).1 = .error (.exception exc) →
    parts.logging.admitsError = true → parts.logging.Renders exc →
      (parts.appRun server request x).2.log = (parts.innerRun server request x).2.log ++
        [unhandledRecord exc (some (chosenId server request x))]
  noRecord : (∀ exc, (parts.innerRun server request x).1 = .error (.exception exc) →
      ¬ (parts.logging.admitsError = true ∧ parts.logging.Renders exc)) →
    (parts.appRun server request x).2.log = (parts.innerRun server request x).2.log
  messages : ∃ passed generic, (parts.appRun server request x).2.sent = passed ++ generic ∧
    List.Forall₂ (Echoed parts.secure request.path) (parts.innerRun server request x).2.sent
      passed ∧
      (generic = [] ∨ ∃ rest, (∀ message ∈ rest, message.startsResponse = false) ∧
        generic = genericStart parts.starlette (some (chosenId server request x)) :: rest)

theorem left_starts (hlower : ∀ status headers, Message.responseStart status headers ∈
      (parts.innerRun server request x).2.sent → ∀ h ∈ headers, lower h.1 = h.1)
    {status : ℕ} {headers : List Header}
    (hmem : Message.responseStart status headers ∈ (parts.left server request x).sent) :
    headers.filter isRequestId = [("x-request-id", chosenId server request x)] := by
  rw [left_sent] at hmem
  obtain ⟨message, hinner, heq⟩ := List.mem_map.mp hmem
  obtain ⟨before, rfl, rfl⟩ := Message.mapHeaders_eq_responseStart.mp heq
  exact leaving_requestId (hlower status before hinner)

end

end AppParts

end PolyrepoTemplate
