import PolyrepoTemplate.Prometheus.PrometheusManager

namespace PolyrepoTemplate

open Asgi

/-- A connection reaches the application first for its lifespan. -/
inductive MetricsEvent where
  | addHttpInstrumentation (callbacks : List Callback)
  | addMiddleware
  | lifespan
  | request (handler : String) (request : HttpScope)

/-- The manager, what each middleware of the application has captured, the innermost
first, whether the application has built its stack of them, and the registry. -/
structure Metrics where
  manager : PrometheusManager
  middlewares : List Instrumentator
  started : Bool
  registry : Registry

namespace Metrics

/-- `Starlette.add_middleware`, of the middleware of an instrumentator. -/
def instrument (s : Metrics) (instrumentator : Instrumentator) :
    Except String (List Instrumentator) :=
  if s.started then .error "Cannot add middleware after an application has started"
  else .ok (s.middlewares ++ [instrumentator])

/-- What the call returns or raises. A middleware runs its callbacks once the application
inside it has answered. -/
def step (s : Metrics) : MetricsEvent → Except String Unit × Metrics
  | .addHttpInstrumentation callbacks =>
    match s.manager.addHttpInstrumentation callbacks with
    | .ok manager => (.ok (), { s with manager })
    | .error e => (.error e, s)
  | .addMiddleware =>
    match s.manager.addMiddleware with
    | .ok (instrumentator, manager) =>
      match s.instrument instrumentator with
      | .ok middlewares => (.ok (), { s with manager, middlewares })
      | .error e => (.error e, s)
    | .error e => (.error e, s)
  | .lifespan => (.ok (), { s with started := true })
  | .request handler request =>
    let registry := s.middlewares.foldl
      (fun registry instrumentator => instrumentator.observe handler request registry) s.registry
    (.ok (), { s with started := true, registry })

def run : List MetricsEvent → Metrics → List (Except String Unit) × Metrics
  | [], s => ([], s)
  | event :: events, s =>
    let (outcome, s) := s.step event
    let (outcomes, s) := run events s
    (outcome :: outcomes, s)

end Metrics

namespace MetricsEvent

def accepted (events : List MetricsEvent) (outcomes : List (Except String Unit)) :
    List Callback :=
  (events.zip outcomes).flatMap fun
    | (.addHttpInstrumentation callbacks, .ok ()) => callbacks
    | _ => []

def requests (events : List MetricsEvent) : List (String × HttpScope) :=
  events.filterMap fun
    | .request handler scope => some (handler, scope)
    | .addHttpInstrumentation _ | .addMiddleware | .lifespan => none

/-- The requests of an application that has been started with the middleware. -/
def instrumented : List MetricsEvent → List (String × HttpScope)
  | .addHttpInstrumentation _ :: events => instrumented events
  | .addMiddleware :: events => requests events
  | _ => []

def late : MetricsEvent → Except String Unit
  | .addHttpInstrumentation _ =>
    .error ("HTTP instrumentation callbacks must be registered before add_middleware: the " ++
      "middleware already captured the callback list.")
  | .addMiddleware => .error "Prometheus middleware is already installed."
  | .lifespan => .ok ()
  | .request .. => .ok ()

def bare : MetricsEvent → Except String Unit
  | .addMiddleware => .error "Cannot add middleware after an application has started"
  | _ => .ok ()

def outcomes : List MetricsEvent → List (Except String Unit)
  | [] => []
  | .addHttpInstrumentation _ :: events => .ok () :: outcomes events
  | .addMiddleware :: events => .ok () :: events.map late
  | .lifespan :: events => .ok () :: events.map bare
  | .request .. :: events => .ok () :: events.map bare

theorem accepted_late (events : List MetricsEvent) : accepted events (events.map late) = [] := by
  induction events with
  | nil => rfl
  | cons event events ih => cases event <;> exact ih

end MetricsEvent

def runCallbacks (callbacks : List Callback) (requests : List (String × HttpScope))
    (registry : Registry) : Registry :=
  requests.foldl (fun registry r =>
    callbacks.foldl (fun registry callback => callback r.2 registry) registry) registry

def counted (excluded : List String) (r : String × HttpScope) : Bool := !excluded.any (found · r.1)

theorem runCallbacks_cons (excluded : List String) (callbacks : List Callback) (handler : String)
    (request : HttpScope) (requests : List (String × HttpScope)) (registry : Registry) :
    runCallbacks callbacks (((handler, request) :: requests).filter (counted excluded)) registry =
      runCallbacks callbacks (requests.filter (counted excluded))
        ((⟨excluded, callbacks⟩ : Instrumentator).observe handler request registry) := by
  rw [List.filter_cons, counted, Instrumentator.observe]
  dsimp only
  cases excluded.any (found · handler) with
  | true => rfl
  | false => rfl

namespace Metrics

open MetricsEvent

theorem run_cons (event : MetricsEvent) (events : List MetricsEvent) (s : Metrics) :
    run (event :: events) s = ((s.step event).1 :: (run events (s.step event).2).1,
      (run events (s.step event).2).2) := rfl

variable (instrumentator : Instrumentator) (registry : Registry)

theorem run_installed (started : Bool) (events : List MetricsEvent) :
    let r := run events ⟨⟨instrumentator, true⟩, [instrumentator], started, registry⟩
    r.1 = events.map late ∧
    r.2.registry = runCallbacks instrumentator.callbacks
      ((requests events).filter (counted instrumentator.excluded)) registry ∧
    r.2.middlewares = [instrumentator] := by
  induction events generalizing registry started with
  | nil => exact ⟨rfl, rfl, rfl⟩
  | cons event events ih =>
    rw [run_cons]
    cases event with
    | addHttpInstrumentation callbacks =>
      obtain ⟨houtcomes, hrest⟩ := ih registry started
      exact ⟨congrArg (List.cons (late (.addHttpInstrumentation callbacks))) houtcomes, hrest⟩
    | addMiddleware =>
      obtain ⟨houtcomes, hrest⟩ := ih registry started
      exact ⟨congrArg (List.cons (late .addMiddleware)) houtcomes, hrest⟩
    | lifespan =>
      obtain ⟨houtcomes, hrest⟩ := ih registry true
      exact ⟨congrArg (List.cons (.ok ())) houtcomes, hrest⟩
    | request handler request =>
      obtain ⟨houtcomes, hregistry, hmiddlewares⟩ :=
        ih (instrumentator.observe handler request registry) true
      refine ⟨congrArg (List.cons (.ok ())) houtcomes, hregistry.trans ?_, hmiddlewares⟩
      exact (runCallbacks_cons _ _ handler request _ registry).symm

theorem run_bare (events : List MetricsEvent) :
    let r := run events ⟨⟨instrumentator, false⟩, [], true, registry⟩
    r.1 = events.map bare ∧ r.2.registry = registry ∧ r.2.middlewares = [] := by
  induction events generalizing instrumentator with
  | nil => exact ⟨rfl, rfl, rfl⟩
  | cons event events ih =>
    rw [run_cons]
    cases event with
    | addHttpInstrumentation callbacks =>
      obtain ⟨houtcomes, hrest⟩ :=
        ih ⟨instrumentator.excluded, instrumentator.callbacks ++ callbacks⟩
      exact ⟨congrArg (List.cons (.ok ())) houtcomes, hrest⟩
    | addMiddleware =>
      obtain ⟨houtcomes, hrest⟩ := ih instrumentator
      exact ⟨congrArg (List.cons (bare .addMiddleware)) houtcomes, hrest⟩
    | lifespan =>
      obtain ⟨houtcomes, hrest⟩ := ih instrumentator
      exact ⟨congrArg (List.cons (.ok ())) houtcomes, hrest⟩
    | request handler request =>
      obtain ⟨houtcomes, hrest⟩ := ih instrumentator
      exact ⟨congrArg (List.cons (.ok ())) houtcomes, hrest⟩

theorem run_registered (events : List MetricsEvent) :
    let r := run events ⟨⟨instrumentator, false⟩, [], false, registry⟩
    r.1 = outcomes events ∧
    r.2.registry = runCallbacks (instrumentator.callbacks ++ accepted events r.1)
      ((instrumented events).filter (counted instrumentator.excluded)) registry ∧
    r.2.middlewares.length ≤ 1 := by
  induction events generalizing instrumentator with
  | nil => exact ⟨rfl, rfl, Nat.zero_le 1⟩
  | cons event events ih =>
    rw [run_cons]
    cases event with
    | addHttpInstrumentation callbacks =>
      obtain ⟨houtcomes, hregistry, hlength⟩ :=
        ih ⟨instrumentator.excluded, instrumentator.callbacks ++ callbacks⟩
      refine ⟨congrArg (List.cons (.ok ())) houtcomes, hregistry.trans ?_, hlength⟩
      rw [List.append_assoc]
      rfl
    | addMiddleware =>
      obtain ⟨houtcomes, hregistry, hmiddlewares⟩ :=
        run_installed instrumentator registry false events
      refine ⟨congrArg (List.cons (.ok ())) houtcomes, hregistry.trans ?_, ?_⟩
      · have haccepted : accepted (.addMiddleware :: events) (.ok () :: events.map late) = [] :=
          accepted_late events
        have hrun : (run events ⟨⟨instrumentator, true⟩, [instrumentator], false, registry⟩).1 =
            events.map late := houtcomes
        dsimp only [step, PrometheusManager.addMiddleware, instrument]
        rw [if_neg Bool.false_ne_true]
        dsimp only
        rw [if_neg Bool.false_ne_true]
        dsimp only
        rw [List.nil_append, hrun, haccepted, List.append_nil]
        rfl
      · exact (congrArg List.length hmiddlewares).le
    | lifespan =>
      obtain ⟨houtcomes, hregistry, hmiddlewares⟩ := run_bare instrumentator registry events
      refine ⟨congrArg (List.cons (.ok ())) houtcomes, hregistry, ?_⟩
      exact (congrArg List.length hmiddlewares).le.trans (Nat.zero_le 1)
    | request handler request =>
      obtain ⟨houtcomes, hregistry, hmiddlewares⟩ := run_bare instrumentator registry events
      refine ⟨congrArg (List.cons (.ok ())) houtcomes, hregistry, ?_⟩
      exact (congrArg List.length hmiddlewares).le.trans (Nat.zero_le 1)

example : (run [.addHttpInstrumentation [recordInboundRequestId], .addMiddleware,
    .addMiddleware, .request "/api/v1/feature-flags/{name}" ⟨"/api/v1/feature-flags/a",
      [("x-request-id", "7")]⟩] ⟨.init excludedHandlers, [], false, ⟨0, 0⟩⟩).2.registry =
        ⟨1, 1⟩ := by
  decide

end Metrics

end PolyrepoTemplate
