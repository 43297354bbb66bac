import PolyrepoTemplate.Lifecycle.Lifespan
import PolyrepoTemplate.Routes.K8sProbeRouter

namespace PolyrepoTemplate

open Async Asgi

variable {H α : Type}

inductive ServerOp (H : Type) where
  | ping (op : PingOp)
  | lifespan (op : LifespanOp H)

abbrev ServerOp.Res : ServerOp H → Type
  | .ping op => op.Res
  | .lifespan op => op.Res

abbrev ServerM (H : Type) := Coro (ServerOp H) ServerOp.Res ClientRecord Raised

def awaitDependency (op : PingOp) : ServerM H op.Res := Coro.call (ServerOp.ping op)

def ofPing (c : PingM α) : ServerM H α := c.interp awaitDependency id

def refineOp : (op : LifespanOp H) → ServerM H op.Res
  | .attempt (.ping .redis) => ofPing redisPing
  | .attempt (.ping .postgres) => ofPing postgresPing
  | .attempt step => Coro.call (ServerOp.lifespan (.attempt step))
  | .getExceptionHandler => Coro.call (ServerOp.lifespan .getExceptionHandler)
  | .setExceptionHandler handler => Coro.call (ServerOp.lifespan (.setExceptionHandler handler))

def infoRecord (event : String) : ClientRecord := ⟨.info, event, none, none⟩

def refine (c : LifespanM H Raised α) : ServerM H α := c.interp refineOp infoRecord

def onServer (e : Awaited PingOp PingOp.Res Raised) : Awaited (ServerOp H) ServerOp.Res Raised :=
  ⟨.ping e.1, e.2⟩

def asPing : Awaited (ServerOp H) ServerOp.Res Raised → Option (Awaited PingOp PingOp.Res Raised)
  | ⟨.ping op, answer⟩ => some ⟨op, answer⟩
  | ⟨.lifespan _, _⟩ => none

def isServe : Awaited (ServerOp H) ServerOp.Res Raised → Bool
  | ⟨.lifespan (.attempt .serve), _⟩ => true
  | _ => false

def isError (record : ClientRecord) : Bool := record.level = .error

def startResult : Except Raised (Except Unready K8sProbeResponse) → Except Raised Unit
  | .ok (.ok _) => .ok ()
  | .ok (.error u) => .error u.cause
  | .error e => .error e

theorem ends_lastCheck (detail : String) (r : Except Raised Unit) :
    ∃ r', (unlessUnhealthy detail r (return .ok {})).Ends [] [] r' ∧ r = startResult r' := by
  rcases r with (text | text) | u
  · exact ⟨_, ⟨rfl, rfl, rfl⟩, rfl⟩
  · exact ⟨_, ⟨rfl, rfl, rfl⟩, rfl⟩
  · exact ⟨_, ⟨rfl, rfl, rfl⟩, rfl⟩

theorem startResult_unhealthy (detail : String) (e : Raised) :
    startResult (unhealthy detail e) = .error e := by
  cases e <;> rfl

section
variable {es : List (Awaited (ServerOp H) ServerOp.Res Raised)} {ms : List ClientRecord}

theorem ofPing_await {op : PingOp} (k : Except Raised op.Res → PingM α) :
    (ofPing (.await op k) : ServerM H α) = .await (.ping op) fun answer => ofPing (k answer) := by
  apply congrArg (Coro.await (ServerOp.ping op))
  funext answer
  cases answer <;> rfl

theorem ends_ofPing {c : PingM α} {r : Except Raised α} : (ofPing c : ServerM H α).Ends es ms r ↔
    ∃ pings, es = pings.map onServer ∧ c.Ends pings ms r := by
  induction c generalizing es ms with
  | pure a =>
    constructor
    · rintro ⟨rfl, h⟩
      exact ⟨[], rfl, rfl, h⟩
    · rintro ⟨_, rfl, rfl, h⟩
      exact ⟨rfl, h⟩
  | throw e =>
    constructor
    · rintro ⟨rfl, h⟩
      exact ⟨[], rfl, rfl, h⟩
    · rintro ⟨_, rfl, rfl, h⟩
      exact ⟨rfl, h⟩
  | emit m c ih =>
    constructor
    · rintro ⟨rest, rfl, h⟩
      obtain ⟨pings, rfl, hc⟩ := ih.mp h
      exact ⟨pings, rfl, rest, rfl, hc⟩
    · rintro ⟨pings, rfl, rest, rfl, hc⟩
      exact ⟨rest, rfl, ih.mpr ⟨pings, rfl, hc⟩⟩
  | await op k ih =>
    rw [ofPing_await]
    constructor
    · rintro ⟨answer, rest, rfl, h⟩
      obtain ⟨pings, rfl, hc⟩ := (ih answer).mp h
      exact ⟨⟨op, answer⟩ :: pings, rfl, answer, pings, rfl, hc⟩
    · rintro ⟨_, rfl, answer, pings, rfl, hc⟩
      exact ⟨answer, pings.map onServer, rfl, (ih answer).mpr ⟨pings, rfl, hc⟩⟩

theorem refine_startClient {name : String} {c : Client} {ping : PingM Unit}
    (hping : (refineOp (.attempt (.ping c)) : ServerM H Unit) = ofPing ping) :
    (refine (startClient name c) : ServerM H Unit) = .emit (infoRecord (name ++ ".starting"))
      ((ofPing ping).bind fun _ => .emit (infoRecord (name ++ ".started")) (.pure ())) := by
  rw [← hping]
  apply congrArg (Coro.emit (infoRecord (name ++ ".starting")))
  change ((attempt (.ping c)).bind fun _ => Coro.tell (name ++ ".started")).interp refineOp
    infoRecord = _
  rw [Coro.interp_bind, attempt, Coro.interp_call]
  rfl

theorem startClient_ends {name : String} {c : Client} {ping : PingM Unit}
    (hping : (refineOp (.attempt (.ping c)) : ServerM H Unit) = ofPing ping)
    {r : Except Raised Unit} (h : (refine (startClient name c) : ServerM H Unit).Ends es ms r) :
    ∃ pings outs, es = pings.map onServer ∧ ping.Ends pings outs r ∧
      ms.filter isError = outs.filter isError := by
  have hstart (ms : List ClientRecord) (event : String) :
      (infoRecord event :: ms).filter isError = ms.filter isError :=
    List.filter_cons_of_neg (by simp [isError, infoRecord])
  rw [refine_startClient hping] at h
  obtain ⟨ms, rfl, h⟩ := h
  obtain ⟨r', es, es', ms, ms', rfl, rfl, hping, hnext⟩ := Coro.ends_bind.mp h
  obtain ⟨pings, rfl, hends⟩ := ends_ofPing.mp hping
  rw [hstart, List.filter_append]
  rcases r' with e | u
  · obtain ⟨rfl, rfl, rfl⟩ := hnext
    exact ⟨pings, ms, List.append_nil _, hends, List.append_nil _⟩
  · obtain ⟨_, rfl, rfl, rfl, rfl⟩ := hnext
    refine ⟨pings, ms, List.append_nil _, hends, ?_⟩
    rw [hstart]
    exact List.append_nil _

end

section
variable {events : List (Awaited PingOp PingOp.Res Raised)} {outputs : List ClientRecord}
  {r : Except Raised Unit}

theorem filter_failureRecords (event : String) (r : Except Raised Unit) :
    (failureRecords event r).filter isError = failureRecords event r := by
  rcases r with (text | text) | u <;> rfl

theorem redisPing_isError (h : redisPing.Ends events outputs r) :
    outputs.filter isError = outputs := by
  obtain ⟨pong, -, rfl, -⟩ := redisPing_ends.mp h
  rcases pong with e | pong
  · exact filter_failureRecords _ _
  · by_cases hpong : pong = .bool true <;> simp [pongRecords, hpong, isError]

theorem postgresPing_isError (h : postgresPing.Ends events outputs r) :
    outputs.filter isError = outputs := by
  rw [(postgresPing_ends.mp h).1]
  exact filter_failureRecords _ _

end

section
variable {es : List (Awaited (ServerOp H) ServerOp.Res Raised)} {ms : List ClientRecord}

/-- A complete start-up is a complete readiness check: the same answers, the same errors
in the log, and the exception that the 503 is raised from. -/
theorem startup_ends {r : Except Raised Unit}
    (h : (refine initByTopologicalOrder : ServerM H Unit).Ends es ms r) :
    ∃ pings r', es = pings.map onServer ∧ readinessProbe.Ends pings (ms.filter isError) r' ∧
      r = startResult r' := by
  have hinit : (refine initByTopologicalOrder : ServerM H Unit) =
      .emit (infoRecord "lifecycle.resources.initializing")
        ((refine redisStart).bind fun _ => refine postgresStart) := by
    apply congrArg (Coro.emit (infoRecord "lifecycle.resources.initializing"))
    change (redisStart.bind fun _ => postgresStart).interp refineOp infoRecord = _
    exact Coro.interp_bind ..
  rw [hinit] at h
  obtain ⟨ms, rfl, h⟩ := h
  obtain ⟨redis, es, es', ms, ms', rfl, rfl, hredis, hnext⟩ := Coro.ends_bind.mp h
  obtain ⟨pings, outs, rfl, hredis, hms⟩ := startClient_ends rfl hredis
  rw [redisPing_isError hredis] at hms
  rw [List.filter_cons_of_neg (by simp [isError, infoRecord]), List.filter_append, hms]
  rcases redis with e | u
  · obtain ⟨rfl, rfl, rfl⟩ := hnext
    refine ⟨pings, unhealthy "Redis failed a health check." e, List.append_nil _, ?_,
      (startResult_unhealthy _ e).symm⟩
    exact Coro.ends_attempt_bind.mpr ⟨.error e, pings, [], outs, [], (List.append_nil _).symm, rfl,
      hredis, ends_unlessUnhealthy.mpr ⟨rfl, rfl, rfl⟩⟩
  · obtain ⟨pings', outs', rfl, hpostgres, hms'⟩ := startClient_ends rfl hnext
    rw [postgresPing_isError hpostgres] at hms'
    rw [hms', ← List.map_append]
    obtain ⟨r', hlast, hr⟩ := ends_lastCheck "PostgreSQL failed a health check." r
    refine ⟨pings ++ pings', r', rfl, ?_, hr⟩
    exact Coro.ends_attempt_bind.mpr ⟨.ok (), pings, pings', outs, outs', rfl, rfl, hredis,
      Coro.ends_attempt_bind.mpr ⟨r, pings', [], outs', [], (List.append_nil _).symm,
        (List.append_nil _).symm, hpostgres, hlast⟩⟩

theorem serving_always : (refine ((attempt .serve).tryFinally teardownByReverseTopologicalOrder) :
    ServerM H Unit).Always (fun e => asPing e = none) (fun m => isError m = false) := by
  have honly : ((attempt .serve).tryFinally teardownByReverseTopologicalOrder :
      LifespanM H Raised Unit).Only fun op => ∀ c, op ≠ .attempt (.ping c) := by
    have hcall (step : LifespanStep) (h : ∀ c, step ≠ .ping c) :
        (attempt step : LifespanM H Raised Unit).Only fun op => ∀ c, op ≠ .attempt (.ping c) := by
      refine Coro.only_call.mpr fun c heq => h c ?_
      cases heq
      rfl
    have hstop (name : String) (c : Client) :
        (stopClient name c : LifespanM H Raised Unit).Only fun op => ∀ c, op ≠ .attempt (.ping c) :=
      (hcall (.close c) fun c h => by cases h).bind fun _ => trivial
    refine (hcall .serve fun c h => by cases h).tryFinally ?_
    refine (hstop "postgres" .postgres).tryFinally ((hstop "redis" .redis).tryFinally ?_)
    exact hcall .flush fun c h => by cases h
  refine Coro.Always.interp (f := refineOp) (g := infoRecord) (fun op hop => ?_) (fun _ => rfl)
    honly
  rcases op with ⟨_ | _ | _ | _⟩ | _ | _
  · exact absurd rfl (hop _)
  all_goals exact .call fun answer => rfl

theorem serving_serves {r : Except Raised Unit}
    (h : (refine ((attempt .serve).tryFinally teardownByReverseTopologicalOrder) :
      ServerM H Unit).Ends es ms r) : es.any isServe = true := by
  rw [refine, Coro.interp_tryFinally, attempt, Coro.interp_call] at h
  obtain ⟨r', es, es', ms, ms', rfl, rfl, hserve, -⟩ := Coro.ends_tryFinally.mp h
  obtain ⟨rfl, rfl⟩ := Coro.ends_call.mp hserve
  rfl

theorem startResult_eq_ok {r' : Except Raised (Except Unready K8sProbeResponse)} :
    startResult r' = .ok () ↔ r' = .ok (.ok {}) := by
  rcases r' with e | u | response
  · simp [startResult]
  · simp [startResult]
  · obtain ⟨status, rfl⟩ := response
    simp [startResult]

theorem body_ends {r : Except Raised Unit} (h : ((refine initByTopologicalOrder).bind fun _ =>
      refine ((attempt .serve).tryFinally teardownByReverseTopologicalOrder) :
        ServerM H Unit).Ends es ms r) :
    ∃ r', readinessProbe.Ends (es.filterMap asPing) (ms.filter isError) r' ∧
      (es.any isServe = true ↔ r' = .ok (.ok {})) ∧
      (r' ≠ .ok (.ok {}) → r = startResult r') := by
  obtain ⟨started, es, es', ms, ms', rfl, rfl, hstart, hnext⟩ := Coro.ends_bind.mp h
  obtain ⟨pings, r', rfl, hready, rfl⟩ := startup_ends hstart
  have hpings : (pings.map onServer : List (Awaited (ServerOp H) ServerOp.Res Raised)).filterMap
      asPing = pings := by
    rw [List.filterMap_map]
    exact List.filterMap_some
  have hnone : (pings.map onServer : List (Awaited (ServerOp H) ServerOp.Res Raised)).any
      isServe = false := by
    simp [onServer, isServe]
  by_cases hr' : r' = .ok (.ok {})
  · subst hr'
    obtain ⟨hes, hms⟩ := serving_always es' ms' r hnext
    have hquiet : ms'.filter isError = [] :=
      List.filter_eq_nil_iff.mpr fun m hm => by simp [hms m hm]
    refine ⟨.ok (.ok {}), ?_, iff_of_true ?_ rfl, fun h => absurd rfl h⟩
    · rw [List.filterMap_append, hpings, List.filterMap_eq_nil_iff.mpr hes, List.filter_append,
        hquiet, List.append_nil, List.append_nil]
      exact hready
    · rw [List.any_append, serving_serves hnext, Bool.or_true]
  · obtain ⟨e, he⟩ : ∃ e, startResult r' = .error e := by
      cases hstarted : startResult r' with
      | error e => exact ⟨e, rfl⟩
      | ok u => exact absurd (startResult_eq_ok.mp hstarted) hr'
    rw [he] at hnext
    obtain ⟨rfl, rfl, rfl⟩ := hnext
    refine ⟨r', ?_, iff_of_false ?_ hr', fun _ => he.symm⟩
    · rw [List.append_nil, List.append_nil, hpings]
      exact hready
    · rw [List.append_nil, hnone]
      exact Bool.false_ne_true

def isLoopCall : ServerOp H → Bool
  | .lifespan (.attempt _) => false
  | .lifespan _ => true
  | .ping _ => false

def LoopAnswers (es : List (Awaited (ServerOp H) ServerOp.Res Raised)) : Prop :=
  ∀ e ∈ es, isLoopCall e.1 = true → ∃ a, e.2 = .ok a

theorem ends_loopCall {op : LifespanOp H} {next : op.Res → ServerM H α} {r : Except Raised α}
    (hop : isLoopCall (.lifespan op) = true) (hloop : LoopAnswers es)
    (h : ((Coro.call (ServerOp.lifespan op)).bind next : ServerM H α).Ends es ms r) :
    ∃ a rest, LoopAnswers rest ∧ es.filterMap asPing = rest.filterMap asPing ∧
      es.any isServe = rest.any isServe ∧ (next a).Ends rest ms r := by
  obtain ⟨answer, rest, rfl, h⟩ := h
  obtain ⟨a, rfl⟩ : ∃ a : op.Res, answer = .ok a := hloop _ List.mem_cons_self hop
  refine ⟨a, rest, fun e he => hloop e (List.mem_cons_of_mem _ he), rfl, ?_, h⟩
  cases op with
  | attempt step => cases hop
  | getExceptionHandler => rfl
  | setExceptionHandler handler => rfl

/-- For every way the dependencies, the server and the clients' `close` answer, the calls
on the loop succeeding: the pings of a lifespan are one readiness check, with its errors
in the log. The application is served exactly if the check is 200, and otherwise the
lifespan raises what the 503 is raised from. -/
theorem serves_iff_ready (asyncioHandler : H) {r : Except Raised Unit}
    (hloop : LoopAnswers es)
    (hends : (refine (lifespan asyncioHandler)).Ends es ms r) :
    ∃ r', readinessProbe.Ends (es.filterMap asPing) (ms.filter isError) r' ∧
      (es.any isServe = true ↔ r' = .ok (.ok {})) ∧
      (r' ≠ .ok (.ok {}) → r = startResult r') := by
  have hbody : (refine (lifespan asyncioHandler) : ServerM H Unit) =
      (Coro.call (ServerOp.lifespan .getExceptionHandler)).bind fun previousHandler =>
        (Coro.call (ServerOp.lifespan (.setExceptionHandler (some asyncioHandler)))).bind fun _ =>
          ((refine initByTopologicalOrder).bind fun _ =>
            refine ((attempt .serve).tryFinally teardownByReverseTopologicalOrder)).tryFinally
              (Coro.call (ServerOp.lifespan (.setExceptionHandler previousHandler))) := by
    change ((Coro.call LifespanOp.getExceptionHandler).bind fun previousHandler =>
      (Coro.call (LifespanOp.setExceptionHandler (some asyncioHandler))).bind fun _ =>
        (initByTopologicalOrder.bind fun _ =>
          (attempt .serve).tryFinally teardownByReverseTopologicalOrder).tryFinally
            (Coro.call (LifespanOp.setExceptionHandler previousHandler))).interp refineOp
      infoRecord = _
    simp only [Coro.interp_bind, Coro.interp_tryFinally, Coro.interp_call, refine]
    rfl
  rw [hbody] at hends
  obtain ⟨previousHandler, es, hloop, hpings, hserves, hnext⟩ := ends_loopCall rfl hloop hends
  rw [hpings, hserves]
  obtain ⟨u, es, hloop, hpings, hserves, hbracket⟩ := ends_loopCall rfl hloop hnext
  rw [hpings, hserves]
  obtain ⟨ended, es, es', ms, ms', rfl, rfl, hinside, hfin⟩ := Coro.ends_tryFinally.mp hbracket
  rw [Coro.tryFinally_ofAnswer] at hfin
  obtain ⟨u', es', -, hpings, hserves, hlast⟩ :=
    ends_loopCall rfl (fun e he => hloop e (List.mem_append_right _ he)) hfin
  obtain ⟨rfl, rfl, rfl⟩ := Coro.ends_ofAnswer.mp hlast
  rw [List.filterMap_append, hpings, List.any_append, hserves, List.append_nil]
  simpa using body_ends hinside

/-- PostgreSQL refuses the connection. -/
theorem serves_iff_ready_refused :
    let answers : (op : ServerOp Unit) → Except Raised op.Res := fun
      | .ping .redisPing => .ok (.bool true)
      | .ping .connect => .error (.exception "connection refused")
      | .ping (.execute _) => .ok ()
      | .ping .close => .ok ()
      | .lifespan (.attempt _) => .ok ()
      | .lifespan .getExceptionHandler => .ok none
      | .lifespan (.setExceptionHandler _) => .ok ()
    ∃ s, run journaledStep ⟨(), fun _ : Unit => .start (refine (lifespan ()))⟩
        (List.replicate 10 (.task () answers)) = some s ∧
      ∃ r', readinessProbe.Ends ((s.task ()).events.filterMap asPing)
          ((s.task ()).outputs.filter isError) r' ∧
        Except.error (.exception "connection refused") = startResult r' := by
  intro answers
  have hrun : run journaledStep ⟨(), fun _ : Unit => .start (refine (lifespan ()))⟩
    (List.replicate 10 (.task () answers)) = some _ := rfl
  have hends := ends_of_run hrun (r := .error (.exception "connection refused")) (i := ()) rfl
  have hloop : LoopAnswers [⟨.lifespan .getExceptionHandler, .ok (none : Option Unit)⟩,
      ⟨.lifespan (.setExceptionHandler (some ())), .ok ()⟩, ⟨.ping .redisPing, .ok (.bool true)⟩,
      ⟨.ping .connect, .error (.exception "connection refused")⟩,
      ⟨.lifespan (.setExceptionHandler none), .ok ()⟩] := by
    simp [LoopAnswers, isLoopCall]
  obtain ⟨r', hready, hserve, hraise⟩ := serves_iff_ready () hloop hends
  exact ⟨_, hrun, r', hready, hraise fun h => by cases hserve.mpr h⟩

end

end PolyrepoTemplate
