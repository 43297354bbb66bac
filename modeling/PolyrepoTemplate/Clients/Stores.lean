import PolyrepoTemplate.Models

namespace PolyrepoTemplate

structure Entry where
  value : String
  expiresAt : ℤ
  deriving DecidableEq, Repr

/-- Times are milliseconds, as in Redis itself. -/
abbrev Redis := String → Option Entry

/-- An entry is gone from its expiry on. -/
def Redis.live (redis : Redis) (now : ℤ) (key : String) : Option Entry :=
  (redis key).filter fun e => now < e.expiresAt

def Redis.getString (redis : Redis) (now : ℤ) (key : String) : Option String :=
  (redis.live now key).map Entry.value

/-- `RedisClient.set_string`: `SET key value EX ttl_seconds`. -/
def Redis.setString (redis : Redis) (now : ℤ) (key value : String) (ttlSeconds : ℤ) : Redis :=
  Function.update redis key (some ⟨value, now + 1000 * ttlSeconds⟩)

def Redis.evict (redis : Redis) (gone : String → Bool) : Redis :=
  fun key => if gone key then none else redis key

theorem Redis.live_eq_some {redis : Redis} {now : ℤ} {key : String} {e : Entry} :
    redis.live now key = some e ↔ redis key = some e ∧ now < e.expiresAt := by
  simp [Redis.live]

theorem Redis.getString_eq_some {redis : Redis} {now : ℤ} {key value : String} :
    redis.getString now key = some value ↔
      ∃ e, redis key = some e ∧ now < e.expiresAt ∧ e.value = value := by
  simp [Redis.getString, Redis.live_eq_some, and_assoc]

theorem Redis.evict_eq_some {redis : Redis} {gone : String → Bool} {key : String} {e : Entry} :
    redis.evict gone key = some e ↔ gone key = false ∧ redis key = some e := by
  unfold Redis.evict
  split <;> simp_all

@[simp] theorem Redis.setString_self (redis : Redis) (now : ℤ) (key value : String) (ttl : ℤ) :
    redis.setString now key value ttl key = some ⟨value, now + 1000 * ttl⟩ :=
  Function.update_self ..

@[simp] theorem Redis.setString_of_ne (redis : Redis) (now : ℤ) {key key' : String} (value : String)
    (ttl : ℤ) (h : key' ≠ key) : redis.setString now key value ttl key' = redis key' :=
  Function.update_of_ne h _ _

def Redis.All (P : String → Entry → Prop) (redis : Redis) : Prop :=
  ∀ key e, redis key = some e → P key e

theorem Redis.All.mono {P Q : String → Entry → Prop} {redis : Redis} (h : redis.All P)
    (hPQ : ∀ key e, P key e → Q key e) : redis.All Q :=
  fun key e he => hPQ key e (h key e he)

theorem Redis.All.setString {P : String → Entry → Prop} {redis : Redis} (h : redis.All P)
    {now : ℤ} {key value : String} {ttl : ℤ} (hP : P key ⟨value, now + 1000 * ttl⟩) :
    (redis.setString now key value ttl).All P := by
  intro key' e he
  by_cases hkey : key' = key
  · subst hkey
    rw [Redis.setString_self] at he
    cases he
    exact hP
  · rw [Redis.setString_of_ne _ _ _ _ hkey] at he
    exact h key' e he

abbrev FlagKey := String × String

/-- The columns outside the primary key. A `timestamptz` stores the instant. -/
structure Columns where
  value : Bool
  updatedAt : ℤ
  updatedByUserId : String
  deriving DecidableEq, Repr

abbrev Table := FlagKey → Option Columns

def ValidRow (row : Option Columns) : Prop := ∀ col, row = some col → col.updatedByUserId ≠ ""

def FeatureFlag.columns (flag : FeatureFlag) : Columns :=
  ⟨flag.enabled, flag.updatedAt.instant, flag.updatedByUserId⟩

/-- `FeatureFlagRow`, the mapped instance a session holds. -/
structure FeatureFlagRow where
  tenantId : String
  name : String
  value : Bool
  updatedAt : Datetime
  updatedByUserId : String
  deriving DecidableEq, Repr

def FeatureFlagRow.key (row : FeatureFlagRow) : FlagKey := (row.tenantId, row.name)

def FeatureFlagRow.columns (row : FeatureFlagRow) : Columns :=
  ⟨row.value, row.updatedAt.instant, row.updatedByUserId⟩

/-- The session's `TimeZone`: the UTC offset it gives to an instant. -/
abbrev TimeZone := ℤ → ℤ

/-- `session.get(FeatureFlagRow, key)` in a new session: one `SELECT`. -/
def Table.sessionGet (table : Table) (zone : TimeZone) (key : FlagKey) : Option FeatureFlagRow :=
  (table key).map fun c =>
    ⟨key.1, key.2, c.value, ⟨c.updatedAt, zone c.updatedAt⟩, c.updatedByUserId⟩

theorem Table.sessionGet_eq_none {table : Table} {zone : TimeZone} {key : FlagKey} :
    table.sessionGet zone key = none ↔ table key = none := by
  simp [Table.sessionGet]

theorem Table.sessionGet_eq_some {table : Table} {zone : TimeZone} {key : FlagKey}
    {row : FeatureFlagRow} (h : table.sessionGet zone key = some row) :
    row.key = key ∧ table key = some row.columns := by
  simp only [Table.sessionGet, Option.map_eq_some_iff] at h
  obtain ⟨c, hc, rfl⟩ := h
  exact ⟨rfl, hc⟩

/-- What a session has to flush: a new instance, or a loaded one that was
assigned to. -/
inductive UnitOfWork where
  | add (row : FeatureFlagRow)
  | dirty (loaded row : FeatureFlagRow)
  deriving DecidableEq, Repr

def UnitOfWork.key : UnitOfWork → FlagKey
  | .add row => row.key
  | .dirty loaded _ => loaded.key

def UnitOfWork.row : UnitOfWork → FeatureFlagRow
  | .add row => row
  | .dirty _ row => row

/-- The `UPDATE` of a loaded instance sets only the columns whose value differs
from the loaded one. -/
def Columns.patch (c : Columns) (loaded row : Columns) : Columns where
  value := if row.value = loaded.value then c.value else row.value
  updatedAt := if row.updatedAt = loaded.updatedAt then c.updatedAt else row.updatedAt
  updatedByUserId :=
    if row.updatedByUserId = loaded.updatedByUserId then c.updatedByUserId else row.updatedByUserId

inductive FlushError where
  | integrityError
  | staleDataError
  deriving DecidableEq, Repr

/-- Flush and commit. An `INSERT` of a key that is taken is rejected, and an
`UPDATE` that matches no row is; with no column to set no statement is sent. -/
def UnitOfWork.commit (work : UnitOfWork) (table : Table) : Except FlushError Table :=
  match work with
  | .add row =>
    match table row.key with
    | some _ => .error .integrityError
    | none => .ok (Function.update table row.key (some row.columns))
  | .dirty loaded row =>
    match table loaded.key with
    | none => if row.columns = loaded.columns then .ok table else .error .staleDataError
    | some c =>
      .ok (Function.update table loaded.key (some (c.patch loaded.columns row.columns)))

theorem UnitOfWork.commit_frame {work : UnitOfWork} {table table' : Table}
    (h : work.commit table = .ok table') {key : FlagKey} (hkey : key ≠ work.key) :
    table' key = table key := by
  cases work with
  | add row =>
    simp only [commit] at h
    split at h
    · cases h
    · cases h
      exact Function.update_of_ne hkey _ _
  | dirty loaded row =>
    simp only [commit] at h
    split at h
    · split at h
      · cases h
        rfl
      · cases h
    · cases h
      exact Function.update_of_ne hkey _ _

@[simp] theorem Columns.patch_self (c row : Columns) : c.patch c row = row := by
  cases c
  cases row
  simp only [Columns.patch, Columns.mk.injEq]
  refine ⟨?_, ?_, ?_⟩ <;> split <;> simp_all

/-- Every column the `UPDATE` from `loaded` to `row` leaves out has in `c` the
value of `row`. -/
def Columns.LeftOutMatch (c loaded row : Columns) : Prop :=
  (row.value = loaded.value → c.value = row.value) ∧
  (row.updatedAt = loaded.updatedAt → c.updatedAt = row.updatedAt) ∧
  (row.updatedByUserId = loaded.updatedByUserId → c.updatedByUserId = row.updatedByUserId)

instance (c loaded row : Columns) : Decidable (c.LeftOutMatch loaded row) :=
  inferInstanceAs (Decidable (_ ∧ _ ∧ _))

theorem Columns.patch_eq_iff (c loaded row : Columns) :
    c.patch loaded row = row ↔ c.LeftOutMatch loaded row := by
  cases row
  simp only [Columns.patch, Columns.mk.injEq, Columns.LeftOutMatch]
  refine and_congr ?_ (and_congr ?_ ?_) <;> split <;> simp_all

end PolyrepoTemplate
