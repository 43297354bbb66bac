import PolyrepoTemplate.Asgi.Starlette

namespace PolyrepoTemplate

open Async Asgi

def swaggerDocsEndpoint : String := "/docs"

def redocEndpoint : String := "/redoc"

/-- `_is_docs_path`: a documentation page, or a path below one. -/
def isDocsPath (path : String) : Bool :=
  [swaggerDocsEndpoint, redocEndpoint].any fun root =>
    path == root || (root ++ "/").toList.isPrefixOf path.toList

example : isDocsPath "/docs/oauth2-redirect" = true := by decide
example : isDocsPath "/docsearch" = false := by decide

def isCsp (name : String) : Bool := lower name == "content-security-policy"

def setBy (preset : List Header) (name : String) : Bool :=
  preset.any fun h => lower h.1 == lower name

/-- The `secure` library: its default preset, and what its ASGI middleware makes of
the headers of a response. -/
structure Secure where
  preset : List Header
  apply : List Header → List Header
  apply_carries : ∀ headers, ∀ h ∈ preset, h ∈ apply headers
  apply_own : ∀ headers, ∀ h ∈ apply headers, setBy preset h.1 = false → h ∈ headers
  apply_frame : ∀ headers, (∀ h ∈ headers, setBy preset h.1 = false) →
    (apply headers).filter (fun h => !setBy preset h.1) = headers.filter fun h => !setBy preset h.1
  preset_csp : ∃ h ∈ preset, isCsp h.1
  preset_nosniff : ∃ h ∈ preset, lower h.1 = "x-content-type-options"
  preset_requestId : ∀ h ∈ preset, lower h.1 ≠ "x-request-id"

def balancedPreset : List Header :=
  [("Strict-Transport-Security", "max-age=31536000"), ("X-Content-Type-Options", "nosniff"),
    ("X-Frame-Options", "SAMEORIGIN"), ("Content-Security-Policy", "upgrade-insecure-requests")]

/-- Some of the preset, put in the place of what a response has of it. -/
def balanced : Secure where
  preset := balancedPreset
  apply headers := headers.filter (fun h => !setBy balancedPreset h.1) ++ balancedPreset
  apply_carries headers h hh := List.mem_append_right _ hh
  apply_own headers h hh hset := by
    rcases List.mem_append.mp hh with hkept | hpreset
    · exact (List.mem_filter.mp hkept).1
    · have hnone : ∀ h ∈ balancedPreset, setBy balancedPreset h.1 = true := by decide
      exact absurd ((hnone h hpreset).symm.trans hset) Bool.true_eq_false.mp
  apply_frame headers _ := by
    have hpreset : balancedPreset.filter (fun h => !setBy balancedPreset h.1) = [] := by decide
    rw [List.filter_append, hpreset, List.append_nil, List.filter_filter]
    simp
  preset_csp := by decide
  preset_nosniff := by decide
  preset_requestId := by decide

/-- The library leaves the headers that the preset does not set as they are. Where a response
has headers of the preset itself, it may lose others. -/
def Secure.LeavesAlone (secure : Secure) (headers : List Header) : Prop :=
  (secure.apply headers).filter (fun h => !setBy secure.preset h.1) =
    headers.filter fun h => !setBy secure.preset h.1

def Secure.Keeps (secure : Secure) (headers : List Header) : Prop :=
  ∀ h ∈ headers, setBy secure.preset h.1 = false → h.1 ≠ "x-request-id" → h ∈ secure.apply headers

theorem Secure.LeavesAlone.keeps {secure : Secure} {headers : List Header}
    (h : secure.LeavesAlone headers) : secure.Keeps headers := by
  intro header hmem hset _
  have hkept : header ∈ (secure.apply headers).filter fun h => !setBy secure.preset h.1 := by
    rw [h]
    exact List.mem_filter.mpr ⟨hmem, by simp [hset]⟩
  exact (List.mem_filter.mp hkept).1

variable {M : Type}

def Secure.middleware (secure : Secure) (app : App M) : App M
  | .http request => wrapSend (Message.mapHeaders secure.apply) (app (.http request))
  | .other type => app (.other type)

def omitCsp : Message → Message :=
  Message.mapHeaders fun headers => headers.filter fun h => !isCsp h.1

def secureASGIMiddleware (secure : Secure) (app : App M) : App M
  | .http request =>
    if isDocsPath request.path then wrapSend omitCsp (secure.middleware app (.http request))
    else secure.middleware app (.http request)
  | .other type => secure.middleware app (.other type)

def Secure.outgoing (secure : Secure) (path : String) (headers : List Header) : List Header :=
  if isDocsPath path then (secure.apply headers).filter fun h => !isCsp h.1
  else secure.apply headers

theorem secureASGIMiddleware_run (secure : Secure) (app : App M) (server : Server)
    (request : HttpScope) {x : Exchange M} (hx : x.sent = []) :
    (secureASGIMiddleware secure app (.http request)).run server.handler x =
      let out := (app (.http request)).run server.handler x
      (out.1, out.2.mapSent (Message.mapHeaders (secure.outgoing request.path))) := by
  have hlib := run_wrapSend_of_fresh server (Message.mapHeaders secure.apply)
    (app (.http request)) hx
  cases hdocs : isDocsPath request.path with
  | true =>
    have houtgoing : secure.outgoing request.path =
        (fun headers => headers.filter fun h => !isCsp h.1) ∘ secure.apply :=
      funext fun _ => if_pos hdocs
    have hrun := run_wrapSend_of_fresh server omitCsp (secure.middleware app (.http request)) hx
    rw [secureASGIMiddleware, if_pos hdocs, hrun, Secure.middleware, hlib, houtgoing]
    simp only [Exchange.mapSent_mapSent, omitCsp, Message.mapHeaders_comp]
  | false =>
    have houtgoing : secure.outgoing request.path = secure.apply :=
      funext fun _ => if_neg (by simp [hdocs])
    rw [secureASGIMiddleware, if_neg (by simp [hdocs]), Secure.middleware, hlib, houtgoing]

theorem isCsp_setBy (secure : Secure) {name : String} (h : isCsp name = true) :
    setBy secure.preset name = true := by
  obtain ⟨csp, hmem, hcsp⟩ := secure.preset_csp
  simp only [isCsp, beq_iff_eq] at h hcsp
  exact List.any_eq_true.mpr ⟨csp, hmem, by rw [beq_iff_eq, h, hcsp]⟩

theorem Secure.outgoing_preset (secure : Secure) (path : String) (headers : List Header)
    {h : Header} (hh : h ∈ secure.preset) :
    (isDocsPath path = true ∧ isCsp h.1 = true) ∨ h ∈ secure.outgoing path headers := by
  have hmem := secure.apply_carries headers h hh
  unfold Secure.outgoing
  split
  · cases hcsp : isCsp h.1 with
    | true => exact .inl ⟨‹_›, rfl⟩
    | false => exact .inr (List.mem_filter.mpr ⟨hmem, by simp [hcsp]⟩)
  · exact .inr hmem

theorem Secure.outgoing_csp (secure : Secure) (path : String) (headers : List Header) :
    (∃ h ∈ secure.outgoing path headers, isCsp h.1 = true) ↔ isDocsPath path = false := by
  unfold Secure.outgoing
  split
  · simp_all
  · obtain ⟨csp, hmem, hcsp⟩ := secure.preset_csp
    simp only [*, iff_true]
    exact ⟨csp, secure.apply_carries headers csp hmem, hcsp⟩

theorem Secure.outgoing_frame (secure : Secure) (path : String) {headers : List Header}
    (h : secure.LeavesAlone headers) :
    (secure.outgoing path headers).filter (fun h => !setBy secure.preset h.1) =
      headers.filter fun h => !setBy secure.preset h.1 := by
  unfold Secure.outgoing
  split
  · rw [List.filter_filter, ← h]
    apply List.filter_congr
    intro h _
    cases hcsp : isCsp h.1 with
    | true => simp [isCsp_setBy secure hcsp]
    | false => simp
  · exact h

theorem Secure.mem_outgoing (secure : Secure) (path : String) {headers : List Header} {h : Header}
    (hset : setBy secure.preset h.1 = false) :
    h ∈ secure.outgoing path headers ↔ h ∈ secure.apply headers := by
  have hcsp : isCsp h.1 = false := by
    cases hcsp : isCsp h.1 with
    | true => simp [isCsp_setBy secure hcsp] at hset
    | false => rfl
  unfold Secure.outgoing
  split
  · simp [hcsp]
  · exact Iff.rfl

end PolyrepoTemplate
