import PolyrepoTemplate.Clients.Ping
import PolyrepoTemplate.Routes.FeatureFlagRouter

namespace PolyrepoTemplate

open Async Asgi

/-- `K8sProbeResponse`: its status is a literal. -/
structure K8sProbeResponse where
  status : String := "ok"
  status_literal : status = "ok" := by rfl
  deriving DecidableEq

structure Unready where
  exception : HTTPException
  cause : Raised
  deriving DecidableEq, Repr

abbrev ProbeM := PingM (Except Unready K8sProbeResponse)

def livenessProbe : ProbeM := return .ok {}

/-- After `await ping()`: `except Exception as exc: raise HTTPException(503, detail) from exc`. -/
def unlessUnhealthy (detail : String) (pinged : Except Raised Unit) (next : ProbeM) : ProbeM :=
  match pinged with
  | .ok () => next
  | .error (.exception exc) => return .error ⟨⟨503, detail⟩, .exception exc⟩
  | .error (.baseException exc) => Coro.throw (.baseException exc)

def readinessProbe : ProbeM := do
  let redis ← redisPing.attempt
  unlessUnhealthy "Redis failed a health check." redis do
    let postgres ← postgresPing.attempt
    unlessUnhealthy "PostgreSQL failed a health check." postgres (return .ok {})

inductive Probe where
  | livez
  | readyz
  deriving DecidableEq, Repr

def Probe.route : Probe → ProbeM
  | .livez => livenessProbe
  | .readyz => readinessProbe

def RedisAnswered (events : List (Awaited PingOp PingOp.Res Raised)) : Prop :=
  ⟨.redisPing, .ok (.bool true)⟩ ∈ events

def PostgresAnswered (events : List (Awaited PingOp PingOp.Res Raised)) : Prop :=
  ⟨.connect, .ok ()⟩ ∈ events ∧ ⟨.execute "SELECT 1", .ok ()⟩ ∈ events ∧
    ⟨.close, .ok ()⟩ ∈ events

def checkedOut : Awaited PingOp PingOp.Res Raised → Bool
  | ⟨.connect, .ok _⟩ => true
  | _ => false

def checkedIn : Awaited PingOp PingOp.Res Raised → Bool
  | ⟨.close, _⟩ => true
  | _ => false

section
variable {events : List (Awaited PingOp PingOp.Res Raised)} {outputs : List ClientRecord}
  {r : Except Raised Unit}

theorem redisPing_answered (h : redisPing.Ends events outputs r) :
    RedisAnswered events ↔ r = .ok () := by
  obtain ⟨pong, rfl, -, rfl⟩ := redisPing_ends.mp h
  unfold RedisAnswered pongResult
  rcases pong with e | pong
  · simp
  · by_cases hpong : pong = .bool true
    · simp [hpong]
    · simp [hpong, eq_comm]

theorem redisPing_ok (h : redisPing.Ends events outputs (.ok ())) :
    events = [⟨.redisPing, .ok (.bool true)⟩] ∧ outputs = [] := by
  have hanswered := (redisPing_answered h).mpr rfl
  obtain ⟨pong, rfl, rfl, -⟩ := redisPing_ends.mp h
  obtain rfl : pong = .ok (.bool true) := by simpa [RedisAnswered, eq_comm] using hanswered
  exact ⟨rfl, rfl⟩

theorem redisPing_raises {e : Raised} (h : redisPing.Ends events outputs (.error e)) :
    e = connectionError ∨ ∃ op, ⟨op, .error e⟩ ∈ events := by
  obtain ⟨pong, rfl, -, hr⟩ := redisPing_ends.mp h
  rcases pong with e' | pong
  · obtain rfl := Except.error.inj hr
    exact .inr ⟨_, List.mem_singleton_self _⟩
  · rw [pongResult] at hr
    split at hr
    · cases hr
    · exact .inl (Except.error.inj hr)

/-- What an exception that leaves a ping has logged: an `Exception` one record, of itself
or of the answer it is made for, others nothing. -/
def Reported (e : Raised) (outputs : List ClientRecord) : Prop :=
  (∃ exc, e = .exception exc) ∧ (∃ record, outputs = [record] ∧ record.level = .error ∧
    (record.excInfo = some e ∨ record.result.isSome)) ∨
  (∃ exc, e = .baseException exc) ∧ outputs = []

theorem reported_failureRecords (event : String) (e : Raised) :
    Reported e (failureRecords event (.error e)) := by
  rcases e with text | text
  · exact .inl ⟨⟨text, rfl⟩, _, rfl, rfl, .inl rfl⟩
  · exact .inr ⟨⟨text, rfl⟩, rfl⟩

theorem redisPing_reported {e : Raised} (h : redisPing.Ends events outputs (.error e)) :
    Reported e outputs := by
  obtain ⟨pong, -, rfl, hr⟩ := redisPing_ends.mp h
  rcases pong with e' | pong
  · obtain rfl := Except.error.inj hr
    exact reported_failureRecords _ e
  · rw [pongResult] at hr
    by_cases hpong : pong = .bool true
    · rw [if_pos hpong] at hr
      cases hr
    · rw [if_neg hpong] at hr
      obtain rfl := Except.error.inj hr
      exact .inl ⟨⟨_, rfl⟩, _, if_neg hpong, rfl, .inr rfl⟩

theorem postgresPing_answered (h : postgresPing.Ends events outputs r) :
    PostgresAnswered events ↔ r = .ok () := by
  obtain ⟨-, ⟨e, rfl, rfl⟩ | ⟨executed, closed, rfl, rfl⟩⟩ := postgresPing_ends.mp h
  · simp [PostgresAnswered]
  · unfold PostgresAnswered statementResult
    rcases executed with e | u <;> rcases closed with e' | u' <;> simp [Except.bind]

theorem postgresPing_raises {e : Raised} (h : postgresPing.Ends events outputs (.error e)) :
    ∃ op, ⟨op, .error e⟩ ∈ events := by
  obtain ⟨-, ⟨e', rfl, hr⟩ | ⟨executed, closed, rfl, hr⟩⟩ := postgresPing_ends.mp h
  · obtain rfl := Except.error.inj hr
    exact ⟨_, List.mem_singleton_self _⟩
  · rcases closed with e' | u
    · obtain rfl := Except.error.inj hr
      exact ⟨.close, by simp⟩
    · obtain rfl : executed = .error e := hr.symm
      exact ⟨.execute "SELECT 1", by simp⟩

theorem postgresPing_reported {e : Raised} (h : postgresPing.Ends events outputs (.error e)) :
    Reported e outputs := by
  rw [(postgresPing_ends.mp h).1]
  exact reported_failureRecords _ e

theorem postgresPing_returned (h : postgresPing.Ends events outputs r) :
    events.countP checkedOut = events.countP checkedIn := by
  obtain ⟨-, ⟨e, rfl, -⟩ | ⟨executed, closed, rfl, -⟩⟩ := postgresPing_ends.mp h
  · rfl
  · rfl

theorem postgresPing_brief (h : postgresPing.Ends events outputs r) : events.length ≤ 3 := by
  obtain ⟨-, ⟨e, rfl, -⟩ | ⟨executed, closed, rfl, -⟩⟩ := postgresPing_ends.mp h
  · exact Nat.le_add_left 1 2
  · exact le_rfl

end

/-- What a readiness probe that has ended in `r` has done with its answers. -/
structure Monitored (events : List (Awaited PingOp PingOp.Res Raised))
    (outputs : List ClientRecord) (r : Except Raised (Except Unready K8sProbeResponse)) : Prop where
  ready : r = .ok (.ok {}) ↔ RedisAnswered events ∧ PostgresAnswered events
  /-- 503 names the first that has not, comes from its exception, and is logged once. -/
  unready : ∀ u, r = .ok (.error u) →
    (¬ RedisAnswered events ∧ u.exception = ⟨503, "Redis failed a health check."⟩ ∨
      RedisAnswered events ∧ ¬ PostgresAnswered events ∧
        u.exception = ⟨503, "PostgreSQL failed a health check."⟩) ∧
    (u.cause = connectionError ∨ ∃ op, ⟨op, .error u.cause⟩ ∈ events) ∧
    ∃ record, outputs = [record] ∧ record.level = .error ∧
      (record.excInfo = some u.cause ∨ record.result.isSome)
  quiet : (∀ u, r ≠ .ok (.error u)) → outputs = []
  /-- Only what is no `Exception` escapes, and it is one of the answers. -/
  raised : ∀ e, r = .error e → (∃ exc, e = .baseException exc) ∧ ∃ op, ⟨op, .error e⟩ ∈ events
  /-- PostgreSQL is left alone until Redis has answered. -/
  ordered : ∀ event ∈ events, event.1 ≠ .redisPing → RedisAnswered events
  returned : events.countP checkedOut = events.countP checkedIn
  brief : events.length ≤ 4

section
variable {events : List (Awaited PingOp PingOp.Res Raised)} {outputs : List ClientRecord}
  {r : Except Raised (Except Unready K8sProbeResponse)}

def unhealthy (detail : String) : Raised → Except Raised (Except Unready K8sProbeResponse)
  | .exception exc => .ok (.error ⟨⟨503, detail⟩, .exception exc⟩)
  | .baseException exc => .error (.baseException exc)

theorem ends_unlessUnhealthy {detail : String} {e : Raised} {next : ProbeM} :
    (unlessUnhealthy detail (.error e) next).Ends events outputs r ↔
      events = [] ∧ outputs = [] ∧ r = unhealthy detail e := by
  rcases e with text | text <;> rfl

theorem monitored_unhealthy {detail : String} {e : Raised}
    (hnamed : ¬ RedisAnswered events ∧ detail = "Redis failed a health check." ∨
      RedisAnswered events ∧ ¬ PostgresAnswered events ∧
        detail = "PostgreSQL failed a health check.")
    (hcause : e = connectionError ∨ ∃ op, ⟨op, .error e⟩ ∈ events) (hreported : Reported e outputs)
    (hordered : ∀ event ∈ events, event.1 ≠ .redisPing → RedisAnswered events)
    (hreturned : events.countP checkedOut = events.countP checkedIn) (hbrief : events.length ≤ 4) :
    Monitored events outputs (unhealthy detail e) := by
  have hdown : ¬ (RedisAnswered events ∧ PostgresAnswered events) := by tauto
  obtain ⟨⟨text, rfl⟩, hrecord⟩ | ⟨⟨text, rfl⟩, rfl⟩ := hreported
  · refine ⟨?_, ?_, ?_, ?_, hordered, hreturned, hbrief⟩
    · exact iff_of_false (fun h => by cases h) hdown
    · intro u hu
      obtain rfl := Except.error.inj (Except.ok.inj hu)
      refine ⟨?_, hcause, hrecord⟩
      obtain ⟨hredis, rfl⟩ | ⟨hredis, hpostgres, rfl⟩ := hnamed
      · exact .inl ⟨hredis, rfl⟩
      · exact .inr ⟨hredis, hpostgres, rfl⟩
    · exact fun h => absurd rfl (h _)
    · exact fun e h => by cases h
  · refine ⟨?_, ?_, ?_, ?_, hordered, hreturned, hbrief⟩
    · exact iff_of_false (fun h => by cases h) hdown
    · exact fun u h => by cases h
    · exact fun _ => rfl
    · intro e he
      obtain rfl := Except.error.inj he
      refine ⟨⟨text, rfl⟩, hcause.resolve_left fun h => ?_⟩
      cases h

theorem readinessProbe_monitored (h : readinessProbe.Ends events outputs r) :
    Monitored events outputs r := by
  obtain ⟨redis, es, es', ms, ms', rfl, rfl, hredis, hnext⟩ := Coro.ends_attempt_bind.mp h
  have hanswered := redisPing_answered hredis
  rcases redis with e | u
  · -- nothing is asked of PostgreSQL
    have hcause := redisPing_raises hredis
    have hreported := redisPing_reported hredis
    obtain ⟨rfl, rfl, rfl⟩ := ends_unlessUnhealthy.mp hnext
    obtain ⟨pong, rfl, -, -⟩ := redisPing_ends.mp hredis
    simp only [List.append_nil]
    refine monitored_unhealthy (.inl ⟨?_, rfl⟩) hcause hreported ?_ rfl (by simp)
    · exact fun h => by cases hanswered.mp h
    · intro event hevent hne
      rw [List.mem_singleton.mp hevent] at hne
      exact absurd rfl hne
  · obtain ⟨rfl, rfl⟩ := redisPing_ok hredis
    obtain ⟨postgres, es, es'', ms, ms'', rfl, rfl, hpostgres, hlast⟩ :=
      Coro.ends_attempt_bind.mp hnext
    have hup : RedisAnswered (⟨.redisPing, .ok (.bool true)⟩ :: es) := List.mem_cons_self
    have hanswered : PostgresAnswered (⟨.redisPing, .ok (.bool true)⟩ :: es) ↔
        postgres = .ok () := by
      rw [← postgresPing_answered hpostgres]
      simp [PostgresAnswered]
    have hreturned := postgresPing_returned hpostgres
    have hbrief := Nat.succ_le_succ (postgresPing_brief hpostgres)
    rcases postgres with e | u
    · have hcause := postgresPing_raises hpostgres
      have hreported := postgresPing_reported hpostgres
      obtain ⟨rfl, rfl, rfl⟩ := ends_unlessUnhealthy.mp hlast
      simp only [List.append_nil, List.nil_append, List.singleton_append]
      refine monitored_unhealthy (.inr ⟨hup, ?_, rfl⟩) (.inr ?_) hreported (fun _ _ _ => hup)
        hreturned hbrief
      · exact fun h => by cases hanswered.mp h
      · obtain ⟨op, hop⟩ := hcause
        exact ⟨op, List.mem_cons_of_mem _ hop⟩
    · obtain ⟨rfl, -⟩ := postgresPing_ends.mp hpostgres
      obtain ⟨rfl, rfl, rfl⟩ : es'' = [] ∧ ms'' = [] ∧ r = .ok (.ok {}) := hlast
      simp only [List.append_nil, List.nil_append, List.singleton_append]
      refine ⟨iff_of_true rfl ⟨hup, hanswered.mpr rfl⟩, ?_, fun _ => rfl, ?_, fun _ _ _ => hup,
        hreturned, hbrief⟩
      · exact fun u h => by cases h
      · exact fun e h => by cases h

end

end PolyrepoTemplate
