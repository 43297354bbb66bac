import PolyrepoTemplate.Asgi.App
import PolyrepoTemplate.Async.Ends
import PolyrepoTemplate.Config.LoggerConfig
import PolyrepoTemplate.Service.FeatureFlagService

namespace PolyrepoTemplate

open Async Asgi

/-- What a ping awaits: the `PING` of redis-py, and of the engine a connection, a
statement on it, and its return to the pool. -/
inductive PingOp where
  | redisPing
  | connect
  | execute (statement : String)
  | close
  deriving DecidableEq, Repr

abbrev PingOp.Res : PingOp → Type
  | .redisPing => FieldValue
  | .connect => Unit
  | .execute _ => Unit
  | .close => Unit

structure ClientRecord where
  level : LogLevel
  event : String
  excInfo : Option Raised
  result : Option FieldValue
  deriving DecidableEq, Repr

abbrev PingM := Coro PingOp PingOp.Res ClientRecord Raised

def awaitPing (op : PingOp) : PingM op.Res := Coro.call op

/-- `except Exception: self._logger.exception(event)`, then `raise`. -/
def logAndReraise {α : Type} (event : String) : Raised → Option (PingM α)
  | .exception exc => some do
    Coro.tell ⟨.error, event, some (.exception exc), none⟩
    Coro.throw (.exception exc)
  | .baseException _ => none

def connectionError : Raised := .exception "Redis PING did not return True."

def redisPing : PingM Unit := do
  let pong : FieldValue ← (awaitPing .redisPing).tryExcept (logAndReraise "redis.ping.failed")
  if pong = .bool true then return ()
  else
    Coro.tell ⟨.error, "redis.ping.unexpected_result", none, some pong⟩
    Coro.throw connectionError

/-- `async with self._engine.connect() as connection`, and the statement in it. -/
def selectOne : PingM Unit := do
  awaitPing .connect
  (awaitPing (.execute "SELECT 1")).tryFinally (awaitPing .close)

def postgresPing : PingM Unit := selectOne.tryExcept (logAndReraise "postgres.ping.failed")

def failureRecords (event : String) : Except Raised Unit → List ClientRecord
  | .error (.exception exc) => [⟨.error, event, some (.exception exc), none⟩]
  | .error (.baseException _) => []
  | .ok () => []

def pongRecords : Except Raised FieldValue → List ClientRecord
  | .ok pong =>
    if pong = .bool true then [] else [⟨.error, "redis.ping.unexpected_result", none, some pong⟩]
  | .error e => failureRecords "redis.ping.failed" (.error e)

def pongResult : Except Raised FieldValue → Except Raised Unit
  | .ok pong => if pong = .bool true then .ok () else .error connectionError
  | .error e => .error e

def statementResult (executed closed : Except Raised Unit) : Except Raised Unit :=
  closed.bind fun _ => executed

theorem redisPing_eq : redisPing =
    .await .redisPing fun pong => .writes (pongRecords pong) (pongResult pong) := by
  unfold redisPing
  apply congrArg (Coro.await PingOp.redisPing)
  funext pong
  rcases pong with (text | text) | pong
  · rfl
  · rfl
  · unfold pongRecords pongResult
    dsimp only [Coro.ofAnswer, Coro.attempt, Coro.bind]
    split <;> rfl

theorem selectOne_eq : selectOne = .await .connect fun
    | .error e => .throw e
    | .ok () => .await (.execute "SELECT 1") fun executed => .await .close fun closed =>
      .ofAnswer (statementResult executed closed) := by
  unfold selectOne
  apply congrArg (Coro.await PingOp.connect)
  funext connected
  rcases connected with e | u
  · rfl
  · apply congrArg (Coro.await (PingOp.execute "SELECT 1"))
    funext executed
    rcases executed with e | u
    all_goals
      apply congrArg (Coro.await PingOp.close)
      funext closed
      rcases closed with e | u
      all_goals rfl

theorem tryExcept_ofAnswer (event : String) (r : Except Raised Unit) :
    ((Coro.ofAnswer r).tryExcept (logAndReraise event) : PingM Unit) =
      .writes (failureRecords event r) r := by
  rcases r with (text | text) | u <;> rfl

theorem postgresPing_eq : postgresPing = .await .connect fun
    | .error e => .writes (failureRecords "postgres.ping.failed" (.error e)) (.error e)
    | .ok () => .await (.execute "SELECT 1") fun executed => .await .close fun closed =>
      .writes (failureRecords "postgres.ping.failed" (statementResult executed closed))
        (statementResult executed closed) := by
  unfold postgresPing
  rw [selectOne_eq]
  apply congrArg (Coro.await PingOp.connect)
  funext connected
  rcases connected with e | u
  · exact tryExcept_ofAnswer _ (.error e)
  · apply congrArg (Coro.await (PingOp.execute "SELECT 1"))
    funext executed
    apply congrArg (Coro.await PingOp.close)
    funext closed
    exact tryExcept_ofAnswer _ _

section
variable {events : List (Awaited PingOp PingOp.Res Raised)} {outputs : List ClientRecord}
  {r : Except Raised Unit}

theorem redisPing_ends : redisPing.Ends events outputs r ↔
    ∃ pong, events = [⟨.redisPing, pong⟩] ∧ outputs = pongRecords pong ∧ r = pongResult pong := by
  rw [redisPing_eq]
  apply exists_congr
  intro pong
  simp only [Coro.ends_writes]
  constructor
  · rintro ⟨rest, rfl, rfl, h⟩
    exact ⟨rfl, h⟩
  · rintro ⟨rfl, h⟩
    exact ⟨[], rfl, rfl, h⟩

/-- A connection that has been checked out is given back, whatever the statement does. -/
theorem postgresPing_ends : postgresPing.Ends events outputs r ↔
    outputs = failureRecords "postgres.ping.failed" r ∧
      ((∃ e, events = [⟨.connect, .error e⟩] ∧ r = .error e) ∨
        ∃ executed closed, events = [⟨.connect, .ok ()⟩, ⟨.execute "SELECT 1", executed⟩,
          ⟨.close, closed⟩] ∧ r = statementResult executed closed) := by
  rw [postgresPing_eq]
  constructor
  · rintro ⟨connected, rest, rfl, h⟩
    rcases connected with e | u
    · obtain ⟨rfl, rfl, rfl⟩ := Coro.ends_writes.mp h
      exact ⟨rfl, .inl ⟨e, rfl, rfl⟩⟩
    · obtain ⟨executed, _, rfl, closed, _, rfl, h⟩ := h
      obtain ⟨rfl, rfl, rfl⟩ := Coro.ends_writes.mp h
      exact ⟨rfl, .inr ⟨executed, closed, rfl, rfl⟩⟩
  · rintro ⟨rfl, ⟨e, rfl, rfl⟩ | ⟨executed, closed, rfl, rfl⟩⟩
    · exact ⟨.error e, [], rfl, Coro.ends_writes.mpr ⟨rfl, rfl, rfl⟩⟩
    · exact ⟨.ok (), _, rfl, executed, _, rfl, closed, [], rfl,
        Coro.ends_writes.mpr ⟨rfl, rfl, rfl⟩⟩

end

end PolyrepoTemplate
