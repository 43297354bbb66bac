import PolyrepoTemplate.Async.Coroutine
import PolyrepoTemplate.Clients.RedisKey
import PolyrepoTemplate.Clients.Stores

namespace PolyrepoTemplate

open Async

inductive StoreOp where
  | getString (key : String)
  | setString (key value : String) (ttlSeconds : ℤ)
  | sessionGet (key : FlagKey)
  | sessionCommit (work : UnitOfWork)
  | sessionClose
  deriving DecidableEq, Repr

abbrev StoreOp.Res : StoreOp → Type
  | .getString _ => Option String
  | .setString .. => Unit
  | .sessionGet _ => Option FeatureFlagRow
  | .sessionCommit _ => Unit
  | .sessionClose => Unit

/-- What reaches a task from outside the code: a failing store, or the
cancellation of the task. -/
inductive Outside where
  | storeError (text : String)
  | cancelledError
  deriving DecidableEq, Repr

inductive Exc where
  | featureFlagNotFound (name : String)
  | validationError (e : ValidationError)
  | flushError (e : FlushError)
  | outside (x : Outside)
  deriving DecidableEq, Repr

inductive FieldValue where
  | str (s : String)
  | bool (b : Bool)
  deriving DecidableEq, Repr

inductive Emission where
  | readsTotalInc
  | writesTotalInc
  | info (event : String) (fields : List (String × FieldValue))
  deriving DecidableEq, Repr

abbrev ServiceM := Coro StoreOp StoreOp.Res Emission Exc

def awaitStore (op : StoreOp) : ServiceM op.Res := Coro.call op

structure FeatureFlagService where
  config : FeatureFlagConfig
  json : FlagJson

def cacheKey (tenantId name : String) : String := createRedisKey "feature_flag" [tenantId, name]

def ofValidation (r : Except ValidationError FeatureFlag) : ServiceM FeatureFlag :=
  Coro.ofAnswer (r.mapError .validationError)

/-- `_row_to_flag`: `value` becomes `enabled`, the tenant stays off the model. -/
def rowToFlag (row : FeatureFlagRow) : Except ValidationError FeatureFlag :=
  FeatureFlag.validate row.name row.value row.updatedAt row.updatedByUserId

theorem rowToFlag_ok {row : FeatureFlagRow} {flag : FeatureFlag} (h : rowToFlag row = .ok flag) :
    flag.name = row.name ∧ flag.updatedAt = row.updatedAt ∧ flag.columns = row.columns := by
  unfold rowToFlag FeatureFlag.validate at h
  split at h
  · cases h
    exact ⟨rfl, rfl, rfl⟩
  · cases h

theorem rowToFlag_error {row : FeatureFlagRow} {e : ValidationError}
    (h : rowToFlag row = .error e) : row.name = "" ∨ row.updatedByUserId = "" := by
  by_contra hvalid
  rw [not_or] at hvalid
  rw [rowToFlag, FeatureFlag.validate_ok hvalid.1 hvalid.2] at h
  cases h

def createSession {α : Type} (body : ServiceM α) : ServiceM α :=
  body.tryFinally (awaitStore .sessionClose)

namespace FeatureFlagService

variable (svc : FeatureFlagService)

def writeCache (key : String) (flag : FeatureFlag) : ServiceM Unit :=
  awaitStore (.setString key (svc.json.dumpJson flag) svc.config.cacheTtlSeconds)

/-- The block of `get_flag` that runs inside the session. -/
def loadFlag (name : String) (user : UserDetails) : ServiceM FeatureFlag := do
  let row ← awaitStore (.sessionGet (user.tenantId, name))
  match row with
  | none =>
    Coro.tell (.info "feature_flag.missing" [("name", .str name)])
    Coro.throw (.featureFlagNotFound name)
  | some row => ofValidation (rowToFlag row)

def getFlag (name : String) (user : UserDetails) : ServiceM FeatureFlag := do
  let key := cacheKey user.tenantId name
  Coro.tell .readsTotalInc
  let cached ← awaitStore (.getString key)
  match cached with
  | some text =>
    Coro.tell (.info "feature_flag.cache.hit" [("name", .str name)])
    ofValidation (svc.json.validateJson text)
  | none =>
    Coro.tell (.info "feature_flag.cache.miss" [("name", .str name)])
    let flag ← createSession (loadFlag name user)
    svc.writeCache key flag
    return flag

/-- `session.add` of a new instance, or the assignments to the loaded one. -/
def upsert (name : String) (enabled : Bool) (user : UserDetails) (now : Datetime) :
    Option FeatureFlagRow → UnitOfWork
  | none => .add ⟨user.tenantId, name, enabled, now, user.userId⟩
  | some row =>
    .dirty row { row with value := enabled, updatedAt := now, updatedByUserId := user.userId }

/-- The block of `set_flag` that runs inside the session. -/
def storeFlag (name : String) (enabled : Bool) (user : UserDetails) (now : Datetime) :
    ServiceM Unit := do
  let row ← awaitStore (.sessionGet (user.tenantId, name))
  awaitStore (.sessionCommit (upsert name enabled user now row))

/-- `now` is the clock `set_flag` reads on entry. -/
def setFlag (name : String) (enabled : Bool) (user : UserDetails) (now : Datetime) :
    ServiceM FeatureFlag := do
  createSession (storeFlag name enabled user now)
  let flag ← ofValidation (FeatureFlag.validate name enabled now user.userId)
  svc.writeCache (cacheKey user.tenantId name) flag
  Coro.tell .writesTotalInc
  Coro.tell (.info "feature_flag.written" [("name", .str name), ("enabled", .bool enabled)])
  return flag

end FeatureFlagService

/-- Both stores, Redis' clock, and two journals: the calls whose commit took
effect, latest first, and the outputs written. -/
structure Stores where
  clock : ℤ
  redis : Redis
  table : Table
  commits : List ℕ
  out : List Emission

namespace Stores

def exec (zone : TimeZone) (i : ℕ) : (op : StoreOp) → Stores → Except Exc op.Res × Stores
  | .getString key, s => (.ok (s.redis.getString s.clock key), s)
  | .setString key value ttl, s =>
    (.ok (), { s with redis := s.redis.setString s.clock key value ttl })
  | .sessionGet key, s => (.ok (s.table.sessionGet zone key), s)
  | .sessionCommit work, s =>
    match work.commit s.table with
    | .ok table => (.ok (), { s with table := table, commits := i :: s.commits })
    | .error e => (.error (.flushError e), s)
  | .sessionClose, s => (.ok (), s)

def log (m : Emission) (s : Stores) : Stores := { s with out := s.out ++ [m] }

@[simp] theorem log_clock (m : Emission) (s : Stores) : (s.log m).clock = s.clock := rfl
@[simp] theorem log_redis (m : Emission) (s : Stores) : (s.log m).redis = s.redis := rfl
@[simp] theorem log_table (m : Emission) (s : Stores) : (s.log m).table = s.table := rfl
@[simp] theorem log_commits (m : Emission) (s : Stores) : (s.log m).commits = s.commits := rfl
@[simp] theorem log_out (m : Emission) (s : Stores) : (s.log m).out = s.out ++ [m] := rfl

def handler (zone : TimeZone) (i : ℕ) : Handler StoreOp StoreOp.Res Emission Exc Stores where
  exec := exec zone i
  log := log

end Stores

theorem cacheKey_injective {key key' : FlagKey}
    (h : cacheKey key.1 key.2 = cacheKey key'.1 key'.2) : key = key' := by
  have hparts := createRedisKey_parts_injective "feature_flag" h
  simpa [Prod.ext_iff] using hparts

end PolyrepoTemplate
