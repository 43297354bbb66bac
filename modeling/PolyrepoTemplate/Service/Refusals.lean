import PolyrepoTemplate.Service.Phases

namespace PolyrepoTemplate

open Async

def storable (text : String) : Bool := !text.toList.contains '\x00'

/-- The text values of the statement a flush sends. -/
def UnitOfWork.texts : UnitOfWork → List String
  | .add row => [row.tenantId, row.name, row.updatedByUserId]
  | .dirty loaded row =>
    if row.columns = loaded.columns then []
    else if row.updatedByUserId = loaded.updatedByUserId then [loaded.tenantId, loaded.name]
    else [loaded.tenantId, loaded.name, row.updatedByUserId]

/-- The time zone of the sessions, and which keys the index has room for. -/
structure Postgres where
  zone : TimeZone
  indexFits : FlagKey → Bool

namespace Postgres

variable (pg : Postgres)

def accepts : StoreOp → Bool
  | .sessionGet key => storable key.1 && storable key.2
  | .sessionCommit (.add row) =>
    (UnitOfWork.add row).texts.all storable && pg.indexFits row.key
  | .sessionCommit (.dirty loaded row) => (UnitOfWork.dirty loaded row).texts.all storable
  | _ => true

/-- A refused statement has no effect, and raises where it is awaited. -/
def outcome (op : StoreOp) : Outcome Outside :=
  if pg.accepts op = true then .ok else .interrupted (.storeError "DBAPIError") false

def handler (i : ℕ) : Handler StoreOp StoreOp.Res Emission Exc Stores :=
  (Stores.handler pg.zone i).guarded pg.accepts (.outside (.storeError "DBAPIError"))

theorem handler_exec (i : ℕ) (op : StoreOp) (s : Stores) :
    (pg.handler i).exec op s = answer pg.zone i (pg.outcome op) op s := by
  unfold outcome
  split
  · next h => exact Handler.guarded_accepted h s
  · next h => exact Handler.guarded_refused h s

def sample : Postgres where
  zone _ := 0
  indexFits key := decide (key.1.utf8ByteSize + key.2.utf8ByteSize ≤ 2700)

variable {pg} {i : ℕ} {s : Stores} {key : FlagKey}

theorem outcome_of_accepts {op : StoreOp} (h : pg.accepts op = true) : pg.outcome op = .ok :=
  if_pos h

theorem outcome_of_not_accepts {op : StoreOp} (h : ¬ pg.accepts op = true) :
    pg.outcome op = .interrupted (.storeError "DBAPIError") false :=
  if_neg h

theorem handler_sessionClose (s : Stores) : (pg.handler i).exec .sessionClose s = (.ok (), s) :=
  pg.handler_exec i .sessionClose s

theorem handler_sessionGet (h₁ : storable key.1 = true) (h₂ : storable key.2 = true) :
    (pg.handler i).exec (.sessionGet key) s = (.ok (s.table.sessionGet pg.zone key), s) := by
  have haccepts : pg.accepts (.sessionGet key) = true := by rw [accepts, h₁, h₂, Bool.and_self]
  rw [handler_exec, outcome_of_accepts haccepts]
  rfl

theorem handler_sessionGet_refused (hkey : ¬ (storable key.1 = true ∧ storable key.2 = true)) :
    (pg.handler i).exec (.sessionGet key) s =
      (.error (.outside (.storeError "DBAPIError")), s) := by
  have haccepts : ¬ pg.accepts (.sessionGet key) = true := by rwa [accepts, Bool.and_eq_true]
  rw [handler_exec, outcome_of_not_accepts haccepts]
  rfl

end Postgres

/-- `SET` with `EX ttl` is accepted at `now`, in milliseconds: the expiry fits 64 bits. -/
def Redis.acceptsExpiry (now ttlSeconds : ℤ) : Bool :=
  0 < ttlSeconds && now + 1000 * ttlSeconds ≤ 2 ^ 63 - 1

def StoreOp.accepted (now : ℤ) : StoreOp → Bool
  | .setString _ _ ttlSeconds => Redis.acceptsExpiry now ttlSeconds
  | _ => true

namespace Stores

def Takes (pg : Postgres) (s : Stores) (op : StoreOp) : Prop :=
  pg.accepts op = true ∧ op.accepted s.clock = true

instance (pg : Postgres) (s : Stores) (op : StoreOp) : Decidable (s.Takes pg op) :=
  inferInstanceAs (Decidable (_ ∧ _))

/-- How an operation ends while both stores are up. -/
def outcome (pg : Postgres) (s : Stores) (op : StoreOp) : Outcome Outside :=
  if op.accepted s.clock = true then pg.outcome op
  else .interrupted (.storeError "ResponseError") false

theorem outcome_of_takes {pg : Postgres} {s : Stores} {op : StoreOp} (h : s.Takes pg op) :
    s.outcome pg op = .ok :=
  (if_pos h.2).trans (Postgres.outcome_of_accepts h.1)

theorem outcome_of_not_takes {pg : Postgres} {s : Stores} {op : StoreOp} (h : ¬ s.Takes pg op) :
    ∃ x, s.outcome pg op = .interrupted x false := by
  unfold outcome
  split
  · next hexpiry => exact ⟨_, Postgres.outcome_of_not_accepts fun haccepts => h ⟨haccepts, hexpiry⟩⟩
  · exact ⟨_, rfl⟩

end Stores

def Call.awaited (svc : FeatureFlagService) (c : Call) (ph : Phase) : Option StoreOp :=
  match ph.task svc c with
  | .active (.await op _) => some op
  | _ => none

end PolyrepoTemplate
