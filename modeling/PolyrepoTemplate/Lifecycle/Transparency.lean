import PolyrepoTemplate.Lifecycle.CreateApp

namespace PolyrepoTemplate

open Async Asgi Text

/-- The header belongs to one of the middlewares. -/
def managed (secure : Secure) (name : String) : Bool :=
  setBy secure.preset name || decide (name = "x-request-id")

/-- The same message, but for the headers the middlewares manage: no other header is added,
and where the library leaves them alone the others are the same, in order. -/
inductive SameBut (secure : Secure) : Message → Message → Prop where
  | start (status : ℕ) {headers headers' : List Header}
      (hown : ∀ h ∈ headers', managed secure h.1 = false → h ∈ headers)
      (hsame : secure.LeavesAlone headers →
        headers'.filter (fun h => !managed secure h.1) =
          headers.filter fun h => !managed secure h.1) :
      SameBut secure (.responseStart status headers) (.responseStart status headers')
  | other (type body : String) : SameBut secure (.other type body) (.other type body)

namespace AppParts

variable (parts : AppParts) (server : Server) (request : HttpScope) (x : Exchange HttpRecord)

theorem leaving_own (headers : List Header) {h : Header}
    (hh : h ∈ parts.leaving server request x headers)
    (hmanaged : managed parts.secure h.1 = false) :
    h ∈ headers := by
  simp only [managed, Bool.or_eq_false_iff, decide_eq_false_iff_not] at hmanaged
  rcases mem_leaving.mp hh with rfl | ⟨-, hout⟩
  · exact absurd rfl hmanaged.2
  · exact parts.secure.apply_own headers h
      ((parts.secure.mem_outgoing request.path hmanaged.1).mp hout) hmanaged.1

theorem leaving_frame {headers : List Header} (h : parts.secure.LeavesAlone headers) :
    (parts.leaving server request x headers).filter (fun h => !managed parts.secure h.1) =
      headers.filter fun h => !managed parts.secure h.1 := by
  have hlower : lower requestIdHeader = "x-request-id" := by decide
  have hid := parts.starlette.setItem_other requestIdHeader (chosenId server request x)
    (parts.secure.outgoing request.path headers)
  have hsplit (headers : List Header) : headers.filter (fun h => !managed parts.secure h.1) =
      (headers.filter (·.1 ≠ "x-request-id")).filter fun h => !setBy parts.secure.preset h.1 := by
    rw [List.filter_filter]
    apply List.filter_congr
    intro h _
    simp [managed]
  rw [hlower] at hid
  rw [hsplit, hsplit, leaving, hid, List.filter_comm, parts.secure.outgoing_frame request.path h,
    List.filter_comm]

theorem leaving_ownRequestId (headers : List Header) :
    (parts.leaving server request x headers).filter (·.1 = "x-request-id") =
      [("x-request-id", chosenId server request x)] := by
  have hlower : lower requestIdHeader = "x-request-id" := by decide
  have hself := parts.starlette.setItem_self requestIdHeader (chosenId server request x)
    (parts.secure.outgoing request.path headers)
  rwa [hlower] at hself

theorem sameBut_leaving (message : Message) :
    SameBut parts.secure message (message.mapHeaders (parts.leaving server request x)) := by
  cases message with
  | responseStart status headers =>
    exact .start status (fun _ hh hmanaged =>
      parts.leaving_own server request x headers hh hmanaged)
      (parts.leaving_frame server request x)
  | other type body => exact .other type body

theorem sameBut_map (messages : List Message) : List.Forall₂ (SameBut parts.secure) messages
    (messages.map (Message.mapHeaders (parts.leaving server request x))) := by
  rw [List.forall₂_map_right_iff]
  exact List.forall₂_same.mpr fun message _ => parts.sameBut_leaving server request x message

theorem appRun_snd (hx : x.sent = []) : ∃ generic log,
    (parts.appRun server request x).2 = { parts.left server request x with
      sent := (parts.left server request x).sent ++ generic
      log := (parts.left server request x).log ++ log } ∧
    (generic ≠ [] → parts.EscapesUnanswered (parts.innerRun server request x)) := by
  by_cases hexc : ∃ exc, (parts.innerRun server request x).1 = .error (.exception exc)
  · obtain ⟨exc, hexc⟩ := hexc
    by_cases hlog : parts.logging.Loggable exc
    · obtain ⟨e, generic, hrun, hgeneric⟩ :=
        appRun_of_loggable parts server request x hx hexc hlog
      refine ⟨generic, _, congrArg Prod.snd hrun, fun hne => ⟨⟨exc, hexc, hlog⟩, ?_⟩⟩
      cases hstarted : (parts.innerRun server request x).2.sent.any Message.startsResponse with
      | false => rfl
      | true =>
        rw [hstarted] at hgeneric
        exact absurd hgeneric.2 hne
    · obtain ⟨failure, hrun⟩ := appRun_of_not_loggable parts server request x hx hexc hlog
      refine ⟨[], [], ?_, fun hne => absurd rfl hne⟩
      rw [hrun]
      simp
  · refine ⟨[], [], ?_, fun hne => absurd rfl hne⟩
    rw [appRun_of_not_exception parts server request x hx (not_exists.mp hexc)]
    simp

/-- For every request and every behaviour of the inner application: the client gets its
messages in order, each the same but for managed headers, with one request id on each
start, and more than them only after an `Exception` before any start; as many messages
of the client are read; the log context is given back; and unless an `Exception` leaves,
the end and the log are its own too. Other scopes go straight through. -/
theorem transparent (hx : x.sent = []) :
    (∃ messages generic, (parts.appRun server request x).2.sent = messages ++ generic ∧
        List.Forall₂ (SameBut parts.secure) (parts.innerRun server request x).2.sent messages ∧
        (∀ status headers, .responseStart status headers ∈ messages →
          headers.filter (·.1 = "x-request-id") =
            [("x-request-id", chosenId server request x)]) ∧
        (generic ≠ [] → parts.EscapesUnanswered (parts.innerRun server request x))) ∧
      (parts.appRun server request x).2.received =
        (parts.innerRun server request x).2.received ∧
      (parts.appRun server request x).2.context = Function.update
        (parts.innerRun server request x).2.context "correlation_id"
        (x.context "correlation_id") ∧
      ((∀ exc, (parts.innerRun server request x).1 ≠ .error (.exception exc)) →
        (parts.appRun server request x).1 = (parts.innerRun server request x).1 ∧
        (parts.appRun server request x).2.log = (parts.innerRun server request x).2.log) ∧
      ∀ type, parts.createApp (.other type) = parts.inner (.other type) := by
  obtain ⟨generic, log, hrun, hgeneric⟩ := parts.appRun_snd server request x hx
  refine ⟨⟨_, generic, congrArg Exchange.sent hrun, parts.sameBut_map server request x _, ?_,
    hgeneric⟩, ?_, ?_, ?_, ?_⟩
  · intro status headers hmem
    obtain ⟨message, -, heq⟩ := List.mem_map.mp hmem
    obtain ⟨before, -, rfl⟩ := Message.mapHeaders_eq_responseStart.mp heq
    exact parts.leaving_ownRequestId server request x before
  · rw [hrun]
    rfl
  · rw [hrun]
    rfl
  · intro hexc
    rw [appRun_of_not_exception parts server request x hx hexc]
    exact ⟨rfl, rfl⟩
  · intro type
    exact parts.starlette.serverErrorMiddleware_other ..

/-- A route answers 200 with a header of its own and another request id. -/
theorem transparent_sample :
    let parts : AppParts := ⟨Asgi.starlette, balanced, .toStdout, id, fun _ =>
      perform (.send (.responseStart 200 [("etag", "7"), ("x-request-id", "other")]))⟩
    let server : Server := ⟨fun _ => .ok (), fun _ => .ok (.other "http.request" ""), fun _ => "id"⟩
    let x : Exchange HttpRecord := .start (fun _ => none) fun _ => none
    (parts.appRun server ⟨"/livez", []⟩ x).1 = .ok () ∧ ∃ headers,
      (parts.appRun server ⟨"/livez", []⟩ x).2.sent = [.responseStart 200 headers] ∧
      headers.filter (fun h => !managed balanced h.1) = [("etag", "7")] ∧
      headers.filter (·.1 = "x-request-id") = [("x-request-id", "id")] := by
  intro parts server x
  obtain ⟨⟨messages, generic, hsent, hsame, hid, hgeneric⟩, -, -, hend, -⟩ :=
    parts.transparent server ⟨"/livez", []⟩ x rfl
  have hquiet : generic = [] := by
    by_contra hne
    obtain ⟨⟨exc, hexc, -⟩, -⟩ := hgeneric hne
    cases hexc
  refine ⟨(hend fun _ h => by cases h).1, ?_⟩
  rw [hsent, hquiet, List.append_nil]
  cases hsame with
  | cons hstart hrest =>
    cases hrest
    cases hstart with
    | @start _ _ headers hown hsame =>
      exact ⟨headers, rfl, hsame (balanced.apply_frame _ (by decide)),
        hid 200 headers (List.mem_cons_self ..)⟩

end AppParts

end PolyrepoTemplate
