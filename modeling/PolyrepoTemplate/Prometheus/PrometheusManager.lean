import Mathlib.Data.List.Infix
import PolyrepoTemplate.Middlewares.CorrelationId

namespace PolyrepoTemplate

open Asgi

def metricsEndpoint : String := "/metrics"

def livezEndpoint : String := "/livez"

def readyzEndpoint : String := "/readyz"

def excludedHandlers : List String := [metricsEndpoint, livezEndpoint, readyzEndpoint]

structure Registry where
  httpRequestsTotal : ℕ
  inboundRequestIdTotal : ℕ
  deriving DecidableEq, Repr

abbrev Callback := HttpScope → Registry → Registry

def defaultMetrics : Callback := fun _ registry =>
  { registry with httpRequestsTotal := registry.httpRequestsTotal + 1 }

def recordInboundRequestId : Callback := fun request registry =>
  let inbound := headersGet request.headers requestIdHeader ""
  if Text.strip inbound ≠ "" then
    { registry with inboundRequestIdTotal := registry.inboundRequestIdTotal + 1 }
  else registry

theorem recordInboundRequestId_inbound (request : HttpScope) (registry : Registry) :
    (recordInboundRequestId request registry).inboundRequestIdTotal =
      registry.inboundRequestIdTotal +
        if Text.strip (headersGet request.headers requestIdHeader "") ≠ "" then 1 else 0 := by
  unfold recordInboundRequestId
  dsimp only
  generalize Text.strip (headersGet request.headers requestIdHeader "") = inbound
  split_ifs <;> rfl

structure Instrumentator where
  excluded : List String
  callbacks : List Callback

/-- `re.search`, for a pattern without metacharacters. -/
def found (pattern handler : String) : Bool :=
  handler.toList.tails.any fun rest => pattern.toList.isPrefixOf rest

theorem found_iff {pattern handler : String} :
    found pattern handler = true ↔ pattern.toList <:+: handler.toList := by
  rw [found, List.any_eq_true, List.infix_iff_prefix_suffix]
  apply exists_congr
  intro rest
  rw [List.mem_tails, List.isPrefixOf_iff_prefix, and_comm]

def Instrumentator.observe (instrumentator : Instrumentator) (handler : String)
    (request : HttpScope) (registry : Registry) : Registry :=
  if instrumentator.excluded.any (found · handler) then registry
  else instrumentator.callbacks.foldl (fun registry callback => callback request registry) registry

structure PrometheusManager where
  instrumentator : Instrumentator
  middlewareInstalled : Bool

namespace PrometheusManager

def init (excluded : List String) : PrometheusManager := ⟨⟨excluded, [defaultMetrics]⟩, false⟩

def addHttpInstrumentation (manager : PrometheusManager) (callbacks : List Callback) :
    Except String PrometheusManager :=
  if manager.middlewareInstalled then
    .error ("HTTP instrumentation callbacks must be registered before add_middleware: the " ++
      "middleware already captured the callback list.")
  else .ok { manager with instrumentator := { manager.instrumentator with
    callbacks := manager.instrumentator.callbacks ++ callbacks } }

/-- The middleware keeps the callbacks registered so far. -/
def addMiddleware (manager : PrometheusManager) :
    Except String (Instrumentator × PrometheusManager) :=
  if manager.middlewareInstalled then .error "Prometheus middleware is already installed."
  else .ok (manager.instrumentator, { manager with middlewareInstalled := true })

end PrometheusManager

def callbacks : List Callback := [defaultMetrics, recordInboundRequestId]

/-- What `LifecycleManager` makes of the manager, up to `add_middleware`. -/
def lifecycleInstrumentator : Except String Instrumentator := do
  let manager ← (PrometheusManager.init excludedHandlers).addHttpInstrumentation
    [recordInboundRequestId]
  let (instrumentator, _) ← manager.addMiddleware
  return instrumentator

theorem lifecycleInstrumentator_eq : lifecycleInstrumentator =
    .ok ⟨excludedHandlers, callbacks⟩ := rfl

def routeTemplates : List String :=
  ["/openapi.json", "/docs", "/docs/oauth2-redirect", "/redoc", livezEndpoint, readyzEndpoint,
    "/api/v1/feature-flags/{name}", metricsEndpoint]

/-- Starlette's routing: the template of the route a path matches. Each of the excluded
endpoints has its own route. -/
structure Routing where
  template : String → Option String
  template_mem : ∀ path t, template path = some t → t ∈ routeTemplates
  template_excluded : ∀ path ∈ excludedHandlers, template path = some path

namespace Routing

variable (routing : Routing)

def handler (path : String) : String := (routing.template path).getD path

/-- A path other than the excluded ones that is taken for one: its route is that of an
excluded one, or it has no route and contains an excluded one. -/
def Mistaken (path : String) : Prop :=
  path ∉ excludedHandlers ∧ match routing.template path with
    | some t => t ∈ excludedHandlers
    | none => ∃ excluded ∈ excludedHandlers, excluded.toList <:+: path.toList

theorem found_template : ∀ t ∈ routeTemplates,
    (excludedHandlers.any (found · t) = true ↔ t ∈ excludedHandlers) := by
  decide

/-- A handler is excluded for the paths meant and for the mistaken ones. -/
theorem excluded_iff (path : String) :
    excludedHandlers.any (found · (routing.handler path)) = true ↔
      path ∈ excludedHandlers ∨ routing.Mistaken path := by
  unfold handler Mistaken
  by_cases hpath : path ∈ excludedHandlers
  · have htemplate := routing.template_excluded path hpath
    have hmem := routing.template_mem path path htemplate
    refine iff_of_true ?_ (.inl hpath)
    rw [htemplate]
    exact (found_template path hmem).mpr hpath
  · rw [or_iff_right hpath, and_iff_right hpath]
    cases htemplate : routing.template path with
    | some t => exact found_template t (routing.template_mem path t htemplate)
    | none =>
      rw [List.any_eq_true]
      exact exists_congr fun excluded => and_congr_right fun _ => found_iff

theorem mistaken_iff (path : String) : routing.Mistaken path ↔
    path ∉ excludedHandlers ∧ excludedHandlers.any (found · (routing.handler path)) = true := by
  rw [excluded_iff]
  constructor
  · exact fun h => ⟨h.1, .inr h⟩
  · exact fun h => h.2.resolve_left h.1

instance : DecidablePred routing.Mistaken := fun path =>
  decidable_of_iff _ (routing.mistaken_iff path).symm

end Routing

def CountedRequest (request : HttpScope) : Prop :=
  request.path ∉ excludedHandlers ∧
    usedHeader request.headers [requestIdHeader, correlationIdHeader] = some requestIdHeader

instance : DecidablePred CountedRequest := fun _ => inferInstanceAs (Decidable (_ ∧ _))

def Instrumentator.serve (instrumentator : Instrumentator) (routing : Routing)
    (requests : List HttpScope) (registry : Registry) : Registry :=
  requests.foldl (fun registry request =>
    instrumentator.observe (routing.handler request.path) request registry) registry

theorem observe_inbound (routing : Routing) (request : HttpScope) (registry : Registry) :
    ((Instrumentator.mk excludedHandlers callbacks).observe (routing.handler request.path) request
      registry).inboundRequestIdTotal = registry.inboundRequestIdTotal +
        if CountedRequest request ∧ ¬ routing.Mistaken request.path then 1 else 0 := by
  by_cases hexcluded : excludedHandlers.any (found · (routing.handler request.path)) = true
  · have hnot : ¬ (CountedRequest request ∧ ¬ routing.Mistaken request.path) := fun h =>
      h.2 ((routing.mistaken_iff request.path).mpr ⟨h.1.1, hexcluded⟩)
    rw [Instrumentator.observe, if_pos hexcluded, if_neg hnot]
    rfl
  · obtain ⟨hpath, hnot⟩ := not_or.mp (mt (routing.excluded_iff request.path).mpr hexcluded)
    have hcounted : CountedRequest request ∧ ¬ routing.Mistaken request.path ↔
        Text.strip (headersGet request.headers requestIdHeader "") ≠ "" := by
      rw [CountedRequest, and_iff_left hnot, and_iff_right hpath, usedHeader_requestId]
    rw [Instrumentator.observe, if_neg hexcluded]
    have hdefault : (defaultMetrics request registry).inboundRequestIdTotal =
        registry.inboundRequestIdTotal := rfl
    rw [callbacks, List.foldl_cons, List.foldl_cons, List.foldl_nil,
      recordInboundRequestId_inbound, hdefault, if_congr hcounted rfl rfl]

/-- What the counter has grown by, and the requests it has lost. -/
theorem serve_inbound (routing : Routing) (requests : List HttpScope) (registry : Registry) :
    ((Instrumentator.mk excludedHandlers callbacks).serve routing requests
      registry).inboundRequestIdTotal +
        requests.countP (fun r => CountedRequest r ∧ routing.Mistaken r.path) =
    registry.inboundRequestIdTotal + requests.countP CountedRequest := by
  induction requests generalizing registry with
  | nil => rfl
  | cons request requests ih =>
    have hrest := ih ((Instrumentator.mk excludedHandlers callbacks).observe
      (routing.handler request.path) request registry)
    rw [observe_inbound] at hrest
    rw [Instrumentator.serve, List.foldl_cons, ← Instrumentator.serve, List.countP_cons,
      List.countP_cons]
    by_cases hcounted : CountedRequest request
    · by_cases hmistaken : routing.Mistaken request.path
      · simp only [hcounted, hmistaken, not_true_eq_false, and_false, if_false, and_self,
          decide_true, if_true] at hrest ⊢
        omega
      · simp only [hcounted, hmistaken, not_false_eq_true, and_true, and_false, if_true,
          decide_true, decide_false, Bool.false_eq_true, if_false] at hrest ⊢
        omega
    · simp only [hcounted, false_and, if_false, decide_false, Bool.false_eq_true] at hrest ⊢
      exact hrest

def featureFlagTemplate : String := "/api/v1/feature-flags/{name}"

def templateOf (path : String) : Option String :=
  let stem := "/api/v1/feature-flags/".toList
  let name := path.toList.drop stem.length
  if path ≠ featureFlagTemplate ∧ path ∈ routeTemplates then some path
  else if stem.isPrefixOf path.toList ∧ name ≠ [] ∧ '/' ∉ name then some featureFlagTemplate
  else none

def appRouting : Routing where
  template := templateOf
  template_mem path t h := by
    unfold templateOf at h
    dsimp only at h
    split_ifs at h with hliteral
    · cases h
      exact hliteral.2
    · cases h
      decide
  template_excluded := by decide

example : ¬ appRouting.Mistaken "/api/v1/feature-flags/metrics" := by decide

end PolyrepoTemplate
