import PolyrepoTemplate.Async.Trace

namespace PolyrepoTemplate

open Async

inductive Client where
  | redis
  | postgres
  deriving DecidableEq, Repr

/-- A call that may raise. `ping` is what a client's `start` awaits, `close` what its
`stop` awaits, and `serve` the `yield` to the server. -/
inductive LifespanStep where
  | ping (c : Client)
  | serve
  | close (c : Client)
  | flush
  deriving DecidableEq, Repr

inductive LifespanOp (H : Type) where
  | attempt (step : LifespanStep)
  | getExceptionHandler
  | setExceptionHandler (handler : Option H)

abbrev LifespanOp.Res {H : Type} : LifespanOp H → Type
  | .attempt _ => Unit
  | .getExceptionHandler => Option H
  | .setExceptionHandler _ => Unit

abbrev LifespanM (H ε : Type) := Coro (LifespanOp H) LifespanOp.Res String ε

variable {H ε : Type}

def attempt (step : LifespanStep) : LifespanM H ε Unit := Coro.call (LifespanOp.attempt step)

def startClient (name : String) (c : Client) : LifespanM H ε Unit := do
  Coro.tell (name ++ ".starting")
  attempt (.ping c)
  Coro.tell (name ++ ".started")

def stopClient (name : String) (c : Client) : LifespanM H ε Unit := do
  Coro.tell (name ++ ".stopping")
  attempt (.close c)
  Coro.tell (name ++ ".stopped")

def redisStart : LifespanM H ε Unit := startClient "redis" .redis

def redisStop : LifespanM H ε Unit := stopClient "redis" .redis

def postgresStart : LifespanM H ε Unit := startClient "postgres" .postgres

def postgresStop : LifespanM H ε Unit := stopClient "postgres" .postgres

def initByTopologicalOrder : LifespanM H ε Unit := do
  Coro.tell "lifecycle.resources.initializing"
  redisStart
  postgresStart

def teardownByReverseTopologicalOrder : LifespanM H ε Unit := do
  Coro.tell "lifecycle.resources.tearing_down"
  postgresStop.tryFinally (redisStop.tryFinally (attempt .flush))

/-- `asyncioHandler` is the hook that logs what no task has caught. -/
def lifespan (asyncioHandler : H) : LifespanM H ε Unit := do
  let previousHandler ← Coro.call LifespanOp.getExceptionHandler
  Coro.call (LifespanOp.setExceptionHandler (some asyncioHandler))
  let body : LifespanM H ε Unit := do
    -- not yet inside the block that tears down
    initByTopologicalOrder
    (attempt .serve).tryFinally teardownByReverseTopologicalOrder
  body.tryFinally (Coro.call (LifespanOp.setExceptionHandler previousHandler))

structure Loop (H : Type) where
  handler : Option H
  attempted : List LifespanStep
  log : List String

/-- How each call ends, and what it does to the loop's handler meanwhile. -/
structure Hooks (H ε : Type) where
  outcome : LifespanStep → Except ε Unit
  handlerAfter : LifespanStep → Option H → Option H

def Hooks.handler (hooks : Hooks H ε) :
    Handler (LifespanOp H) LifespanOp.Res String ε (Loop H) where
  exec
    | .attempt step, l => (hooks.outcome step,
        { l with handler := hooks.handlerAfter step l.handler, attempted := l.attempted ++ [step] })
    | .getExceptionHandler, l => (.ok l.handler, l)
    | .setExceptionHandler handler, l => (.ok (), { l with handler := handler })
  log m l := { l with log := l.log ++ [m] }

def Hooks.succeeds (hooks : Hooks H ε) (step : LifespanStep) : Prop := hooks.outcome step = .ok ()

instance (hooks : Hooks H ε) (step : LifespanStep) : Decidable (hooks.succeeds step) :=
  match h : hooks.outcome step with
  | .ok () => .isTrue h
  | .error _ => .isFalse fun hok => nomatch h.symm.trans hok

def Loop.afterLifespan (asyncioHandler : H) (l : Loop H) (hooks : Hooks H ε) : Loop H :=
  ((lifespan asyncioHandler).run hooks.handler l).2

section
variable {hooks : Hooks H ε} {step : LifespanStep}

theorem attempt_appends :
    (attempt step : LifespanM H ε Unit).Appends hooks.handler Loop.attempted [step] :=
  .call fun _ => rfl

theorem attempt_returns (h : hooks.succeeds step) :
    (attempt step : LifespanM H ε Unit).Returns hooks.handler := by
  intro l
  rw [attempt, Coro.run_call]
  exact ⟨(), h⟩

theorem attempt_raises (h : ¬ hooks.succeeds step) :
    (attempt step : LifespanM H ε Unit).Raises hooks.handler := by
  intro l
  rw [attempt, Coro.run_call]
  cases he : hooks.outcome step with
  | ok u => exact absurd he h
  | error e => exact ⟨e, he⟩

theorem tell_appends {event : String} :
    (Coro.tell event : LifespanM H ε Unit).Appends hooks.handler Loop.attempted [] :=
  .tell fun _ => rfl

theorem start_appends {name : String} {c : Client} :
    (startClient name c : LifespanM H ε Unit).Appends hooks.handler Loop.attempted [.ping c] := by
  have hping : (attempt (.ping c) : LifespanM H ε Unit).Appends hooks.handler Loop.attempted
      [.ping c] := attempt_appends
  exact tell_appends.bind .tell fun _ => hping.bind_nil fun _ => tell_appends

theorem start_returns {name : String} {c : Client} (h : hooks.succeeds (.ping c)) :
    (startClient name c : LifespanM H ε Unit).Returns hooks.handler :=
  Coro.Returns.bind .tell fun _ => (attempt_returns h).bind fun _ => .tell

theorem start_raises {name : String} {c : Client} (h : ¬ hooks.succeeds (.ping c)) :
    (startClient name c : LifespanM H ε Unit).Raises hooks.handler :=
  Coro.Raises.bind_of_returns .tell fun _ => (attempt_raises h).bind

theorem stop_appends {name : String} {c : Client} :
    (stopClient name c : LifespanM H ε Unit).Appends hooks.handler Loop.attempted [.close c] := by
  have hclose : (attempt (.close c) : LifespanM H ε Unit).Appends hooks.handler Loop.attempted
      [.close c] := attempt_appends
  exact tell_appends.bind .tell fun _ => hclose.bind_nil fun _ => tell_appends

theorem teardown_appends :
    (teardownByReverseTopologicalOrder : LifespanM H ε Unit).Appends hooks.handler Loop.attempted
      [.close .postgres, .close .redis, .flush] :=
  tell_appends.bind .tell fun _ => stop_appends.tryFinally (stop_appends.tryFinally attempt_appends)

theorem init_appends :
    (initByTopologicalOrder : LifespanM H ε Unit).Appends hooks.handler Loop.attempted
      (if hooks.succeeds (.ping .redis) then [.ping .redis, .ping .postgres]
        else [.ping .redis]) := by
  split
  · exact tell_appends.bind .tell fun _ => start_appends.bind (start_returns ‹_›) fun _ =>
      start_appends
  · exact tell_appends.bind .tell fun _ => start_appends.bind_raises (start_raises ‹_›)

theorem init_returns (hredis : hooks.succeeds (.ping .redis))
    (hpostgres : hooks.succeeds (.ping .postgres)) :
    (initByTopologicalOrder : LifespanM H ε Unit).Returns hooks.handler :=
  Coro.Returns.bind .tell fun _ => (start_returns hredis).bind fun _ => start_returns hpostgres

theorem init_raises (h : ¬ (hooks.succeeds (.ping .redis) ∧ hooks.succeeds (.ping .postgres))) :
    (initByTopologicalOrder : LifespanM H ε Unit).Raises hooks.handler := by
  by_cases hredis : hooks.succeeds (.ping .redis)
  · exact .bind_of_returns .tell fun _ => .bind_of_returns (start_returns hredis) fun _ =>
      start_raises fun hpostgres => h ⟨hredis, hpostgres⟩
  · exact .bind_of_returns .tell fun _ => (start_raises hredis).bind

end

def Hooks.starts (hooks : Hooks H ε) : Prop :=
  hooks.succeeds (.ping .redis) ∧ hooks.succeeds (.ping .postgres)

instance (hooks : Hooks H ε) : Decidable hooks.starts := inferInstanceAs (Decidable (_ ∧ _))

def Hooks.attempts (hooks : Hooks H ε) : List LifespanStep :=
  if hooks.starts then
    [.ping .redis, .ping .postgres, .serve, .close .postgres, .close .redis, .flush]
  else if hooks.succeeds (.ping .redis) then [.ping .redis, .ping .postgres]
  else [.ping .redis]

theorem body_appends (hooks : Hooks H ε) :
    (initByTopologicalOrder.bind fun _ => (attempt .serve).tryFinally
      teardownByReverseTopologicalOrder : LifespanM H ε Unit).Appends hooks.handler Loop.attempted
      hooks.attempts := by
  unfold Hooks.attempts
  split
  · next h =>
    have hinit : (initByTopologicalOrder : LifespanM H ε Unit).Appends hooks.handler
        Loop.attempted _ := init_appends
    rw [if_pos h.1] at hinit
    exact hinit.bind (init_returns h.1 h.2) fun _ => attempt_appends.tryFinally teardown_appends
  · exact init_appends.bind_raises (init_raises ‹_›)

/-- The handler found is put back, whatever happened to it and however the lifespan
ends. -/
theorem afterLifespan_handler (asyncioHandler : H) (l : Loop H) (hooks : Hooks H ε) :
    (l.afterLifespan asyncioHandler hooks).handler = l.handler := by
  unfold Loop.afterLifespan
  show ((Coro.tryFinally _ (Coro.call (LifespanOp.setExceptionHandler l.handler))).run
    hooks.handler { l with handler := some asyncioHandler }).2.handler = l.handler
  rw [Coro.run_tryFinally, Coro.run_call]
  rfl

theorem afterLifespan_attempted (asyncioHandler : H) (l : Loop H) (hooks : Hooks H ε) :
    (l.afterLifespan asyncioHandler hooks).attempted = l.attempted ++ hooks.attempts := by
  have hrestore : (Coro.call (LifespanOp.setExceptionHandler l.handler) :
      LifespanM H ε Unit).Appends hooks.handler Loop.attempted [] :=
    .call fun l => (List.append_nil l.attempted).symm
  have hbody := (body_appends hooks).tryFinally hrestore { l with handler := some asyncioHandler }
  rw [List.append_nil] at hbody
  exact hbody

def LifespanStep.pinged : LifespanStep → Option Client
  | .ping c => some c
  | _ => none

def LifespanStep.closed : LifespanStep → Option Client
  | .close c => some c
  | _ => none

/-- Each client whose start is in the list is stopped once, afterwards and in the
reverse order, and the log is flushed after all stops. -/
structure Released (steps : List LifespanStep) : Prop where
  once : ∀ c, .ping c ∈ steps → steps.count (.close c) = 1
  afterStart : steps.Pairwise fun a b => ∀ c, ¬ (a = .close c ∧ b = .ping c)
  reversed : steps.filterMap LifespanStep.closed = (steps.filterMap LifespanStep.pinged).reverse
  flushed : .flush ∈ steps
  flushedLast : steps.Pairwise fun a b => ∀ c, ¬ (a = .flush ∧ b = .close c)

theorem released_attempts_iff (hooks : Hooks H ε) : Released hooks.attempts ↔ hooks.starts := by
  constructor
  · intro h
    by_contra hstarts
    unfold Hooks.attempts at h
    rw [if_neg hstarts] at h
    split at h
    · exact absurd (h.once .redis (by simp)) (by decide)
    · exact absurd (h.once .redis (by simp)) (by decide)
  · intro hstarts
    unfold Hooks.attempts
    rw [if_pos hstarts]
    refine ⟨?_, ?_, rfl, ?_, ?_⟩
    · intro c _
      cases c <;> rfl
    · simp
    · simp
    · simp

def LifespanReleases (asyncioHandler : H) (l : Loop H) (hooks : Hooks H ε) : Prop :=
  (∃ steps, (l.afterLifespan asyncioHandler hooks).attempted = l.attempted ++ steps ∧
    Released steps) ∧
  (l.afterLifespan asyncioHandler hooks).handler = l.handler

theorem lifespanReleases_iff (asyncioHandler : H) (l : Loop H) (hooks : Hooks H ε) :
    LifespanReleases asyncioHandler l hooks ↔ hooks.starts := by
  rw [← released_attempts_iff]
  unfold LifespanReleases
  rw [afterLifespan_attempted]
  constructor
  · rintro ⟨⟨steps, hsteps, hreleased⟩, -⟩
    exact List.append_cancel_left hsteps ▸ hreleased
  · intro h
    exact ⟨⟨_, rfl, h⟩, afterLifespan_handler asyncioHandler l hooks⟩

/-- PostgreSQL is down: Redis has been started and is never stopped. -/
theorem redis_never_stopped : ¬ LifespanReleases () ⟨none, [], []⟩
    ⟨fun step => if step = .ping .postgres then .error "connection refused" else .ok (),
      fun _ handler => handler⟩ := by
  rw [lifespanReleases_iff]
  decide

/-- Of any number of lifespans, one after the other, every one releases what it
started if and only if in every one both clients start. -/
theorem lifespans_release_iff (asyncioHandler : H) (l : Loop H) (lifespans : List (Hooks H ε)) :
    (∀ before hooks after, lifespans = before ++ hooks :: after →
      LifespanReleases asyncioHandler (before.foldl (Loop.afterLifespan asyncioHandler) l) hooks) ↔
    ∀ hooks ∈ lifespans, hooks.starts := by
  simp only [lifespanReleases_iff]
  constructor
  · intro h hooks hmem
    obtain ⟨before, after, hsplit⟩ := List.append_of_mem hmem
    exact h before hooks after hsplit
  · rintro h before hooks after rfl
    exact h hooks (by simp)

end PolyrepoTemplate
