import PolyrepoTemplate.Service.Phases

namespace PolyrepoTemplate

open Async

namespace Stores

def cached (svc : FeatureFlagService) (c : Call) (flag : FeatureFlag) (s : Stores) : Stores :=
  { s with redis :=
      s.redis.setString s.clock c.cacheKey (svc.json.dumpJson flag) svc.config.cacheTtlSeconds }

def committed (i : ℕ) (table : Table) (s : Stores) : Stores :=
  { s with table := table, commits := i :: s.commits }

section
variable (svc : FeatureFlagService) (c : Call) (flag : FeatureFlag) (i : ℕ) (table : Table)
  (s : Stores)

@[simp] theorem cached_clock : (s.cached svc c flag).clock = s.clock := rfl
@[simp] theorem cached_table : (s.cached svc c flag).table = s.table := rfl
@[simp] theorem cached_commits : (s.cached svc c flag).commits = s.commits := rfl
@[simp] theorem cached_out : (s.cached svc c flag).out = s.out := rfl
@[simp] theorem committed_clock : (s.committed i table).clock = s.clock := rfl
@[simp] theorem committed_redis : (s.committed i table).redis = s.redis := rfl
@[simp] theorem committed_table : (s.committed i table).table = table := rfl
@[simp] theorem committed_commits : (s.committed i table).commits = i :: s.commits := rfl

@[simp] theorem committed_out : (s.committed i table).out = s.out := rfl

@[simp] theorem cached_redis_self : (s.cached svc c flag).redis c.cacheKey =
    some ⟨svc.json.dumpJson flag, s.clock + 1000 * svc.config.cacheTtlSeconds⟩ :=
  Redis.setString_self ..

@[simp] theorem cached_redis_of_ne {key : String} (h : key ≠ c.cacheKey) :
    (s.cached svc c flag).redis key = s.redis key :=
  Redis.setString_of_ne _ _ _ _ h

end

end Stores

variable {svc : FeatureFlagService} {zone : TimeZone} {i : ℕ} {c : Call}

def Phase.writes : Phase → Bool
  | .fill _ => true
  | .commit _ => true
  | .cache _ => true
  | _ => false

/-- A step of call number `i` from stores `s`. -/
inductive Move (svc : FeatureFlagService) (zone : TimeZone) (i : ℕ) (c : Call) (s : Stores) :
    Phase → Action Outside → Phase → Stores → Prop where
  | enterGet (hm : c.method = .get) :
      Move svc zone i c s .idle .enter .lookup (s.log .readsTotalInc)
  | enterSet {enabled : Bool} {now : Datetime} (hm : c.method = .set enabled now) :
      Move svc zone i c s .idle .enter .select s
  | hit {text : String} (hm : c.method = .get)
      (hit : s.redis.getString s.clock c.cacheKey = some text) :
      Move svc zone i c s .lookup (.resume .ok) (.done (validated (svc.json.validateJson text)))
        (s.log (.info "feature_flag.cache.hit" [("name", .str c.name.val)]))
  | miss (hm : c.method = .get) (miss : s.redis.getString s.clock c.cacheKey = none) :
      Move svc zone i c s .lookup (.resume .ok) .load
        (s.log (.info "feature_flag.cache.miss" [("name", .str c.name.val)]))
  | missing (hm : c.method = .get) (missing : s.table c.key = none) :
      Move svc zone i c s .load (.resume .ok) (.unwind (.featureFlagNotFound c.name.val))
        (s.log (.info "feature_flag.missing" [("name", .str c.name.val)]))
  | loaded {row : FeatureFlagRow} {flag : FeatureFlag} (hm : c.method = .get)
      (hrow : s.table.sessionGet zone c.key = some row) (hflag : rowToFlag row = .ok flag) :
      Move svc zone i c s .load (.resume .ok) (.loaded flag) s
  | invalidRow {row : FeatureFlagRow} {e : ValidationError} (hm : c.method = .get)
      (hrow : s.table.sessionGet zone c.key = some row) (he : rowToFlag row = .error e) :
      Move svc zone i c s .load (.resume .ok) (.unwind (.validationError e)) s
  | closed {flag : FeatureFlag} (hm : c.method = .get) :
      Move svc zone i c s (.loaded flag) (.resume .ok) (.fill flag) s
  | filled {flag : FeatureFlag} (hm : c.method = .get) :
      Move svc zone i c s (.fill flag) (.resume .ok) (.done (.ok flag)) (s.cached svc c flag)
  | selected {enabled : Bool} {now : Datetime} (hm : c.method = .set enabled now) :
      Move svc zone i c s .select (.resume .ok) (.commit (s.table.sessionGet zone c.key)) s
  | committed {enabled : Bool} {now : Datetime} {row : Option FeatureFlagRow} {table : Table}
      (hm : c.method = .set enabled now)
      (hcommit : (c.work enabled now row).commit s.table = .ok table) :
      Move svc zone i c s (.commit row) (.resume .ok) .stored (s.committed i table)
  | rejected {enabled : Bool} {now : Datetime} {row : Option FeatureFlagRow} {e : FlushError}
      (hm : c.method = .set enabled now)
      (hcommit : (c.work enabled now row).commit s.table = .error e) :
      Move svc zone i c s (.commit row) (.resume .ok) (.unwind (.flushError e)) s
  | setClosed {enabled : Bool} {now : Datetime} (hm : c.method = .set enabled now) :
      Move svc zone i c s .stored (.resume .ok) (.cache (c.flag enabled now)) s
  | cached {enabled : Bool} {now : Datetime} {flag : FeatureFlag}
      (hm : c.method = .set enabled now) :
      Move svc zone i c s (.cache flag) (.resume .ok) (.done (.ok flag))
        (((s.cached svc c flag).log .writesTotalInc).log (.info "feature_flag.written"
          [("name", .str c.name.val), ("enabled", .bool enabled)]))
  | unwound {e : Exc} :
      Move svc zone i c s (.unwind e) (.resume .ok) (.done (.error e)) s
  | interrupted {ph : Phase} (x : Outside) (done : Bool) (hph : ph.inFlight = true)
      (hquiet : (done && ph.writes) = false) :
      Move svc zone i c s ph (.resume (.interrupted x done)) (ph.raise (.outside x)) s
  | lostFill {flag : FeatureFlag} (x : Outside) (hm : c.method = .get) :
      Move svc zone i c s (.fill flag) (.resume (.interrupted x true)) (.done (.error (.outside x)))
        (s.cached svc c flag)
  | lostCache {enabled : Bool} {now : Datetime} {flag : FeatureFlag} (x : Outside)
      (hm : c.method = .set enabled now) :
      Move svc zone i c s (.cache flag) (.resume (.interrupted x true))
        (.done (.error (.outside x))) (s.cached svc c flag)
  | lostCommit {enabled : Bool} {now : Datetime} {row : Option FeatureFlagRow} {table : Table}
      (x : Outside) (hm : c.method = .set enabled now)
      (hcommit : (c.work enabled now row).commit s.table = .ok table) :
      Move svc zone i c s (.commit row) (.resume (.interrupted x true)) (.unwind (.outside x))
        (s.committed i table)
  | lostRejection {enabled : Bool} {now : Datetime} {row : Option FeatureFlagRow} {e : FlushError}
      (x : Outside) (hm : c.method = .set enabled now)
      (hcommit : (c.work enabled now row).commit s.table = .error e) :
      Move svc zone i c s (.commit row) (.resume (.interrupted x true)) (.unwind (.outside x)) s

theorem Call.step_move_get {ph ph' : Phase} {s s' : Stores} (hm : c.method = .get)
    (h : c.step svc zone i ph (.resume .ok) s = some (ph', s')) :
    Move svc zone i c s ph (.resume .ok) ph' s' := by
  cases ph with
  | lookup =>
    simp only [step, hm, answer, Outcome.answer, Stores.exec] at h
    cases hget : s.redis.getString s.clock c.cacheKey with
    | none =>
      simp only [hget] at h
      cases h
      exact .miss hm hget
    | some text =>
      simp only [hget] at h
      cases h
      exact .hit hm hget
  | load =>
    simp only [step, hm, answer, Outcome.answer, Stores.exec] at h
    cases hrow : s.table.sessionGet zone c.key with
    | none =>
      simp only [hrow] at h
      cases h
      exact .missing hm (Table.sessionGet_eq_none.mp hrow)
    | some row =>
      cases hflag : rowToFlag row with
      | ok flag =>
        simp only [hrow, hflag] at h
        cases h
        exact .loaded hm hrow hflag
      | error e =>
        simp only [hrow, hflag] at h
        cases h
        exact .invalidRow hm hrow hflag
  | loaded flag =>
    simp only [step, hm, answer, Outcome.answer, Stores.exec] at h
    cases h
    exact .closed hm
  | fill flag =>
    simp only [step, hm, answer, Outcome.answer, Call.store, Stores.exec] at h
    cases h
    exact .filled hm
  | unwind e =>
    simp only [step, hm, answer, Outcome.answer, Stores.exec] at h
    cases h
    exact .unwound
  | _ => simp only [step, hm] at h; cases h

theorem Call.step_move_set {enabled : Bool} {now : Datetime} {ph ph' : Phase} {s s' : Stores}
    (hm : c.method = .set enabled now)
    (h : c.step svc zone i ph (.resume .ok) s = some (ph', s')) :
    Move svc zone i c s ph (.resume .ok) ph' s' := by
  cases ph with
  | select =>
    simp only [step, hm, answer, Outcome.answer, Stores.exec] at h
    cases h
    exact .selected hm
  | commit row =>
    simp only [step, hm, answer, Outcome.answer, Stores.exec] at h
    cases hcommit : (c.work enabled now row).commit s.table with
    | ok table =>
      simp only [hcommit] at h
      cases h
      exact .committed hm hcommit
    | error e =>
      simp only [hcommit] at h
      cases h
      exact .rejected hm hcommit
  | stored =>
    simp only [step, hm, answer, Outcome.answer, Stores.exec,
      FeatureFlag.validate_ok c.name.minLength c.user.userId_minLength] at h
    cases h
    exact .setClosed hm
  | cache flag =>
    simp only [step, hm, answer, Outcome.answer, Call.store, Stores.exec] at h
    cases h
    exact .cached hm
  | unwind e =>
    simp only [step, hm, answer, Outcome.answer, Stores.exec] at h
    cases h
    exact .unwound
  | _ => simp only [step, hm] at h; cases h

theorem Call.step_move_interrupted {x : Outside} {done : Bool} {ph ph' : Phase} {s s' : Stores}
    (h : c.step svc zone i ph (.resume (.interrupted x done)) s = some (ph', s')) :
    Move svc zone i c s ph (.resume (.interrupted x done)) ph' s' := by
  -- only at `fill`, `cache` and `commit` does it matter whether the call was carried out
  cases hm : c.method with
  | get =>
    cases ph with
    | fill flag =>
      cases done <;> simp only [step, hm, answer, Outcome.answer] at h <;> cases h
      · exact .interrupted x false rfl rfl
      · exact .lostFill x hm
    | idle => simp only [step, hm] at h; cases h
    | done r => simp only [step, hm] at h; cases h
    | _ =>
      cases done <;> simp only [step, hm, answer, Outcome.answer] at h <;> cases h <;>
        exact .interrupted x _ rfl rfl
  | set enabled now =>
    cases ph with
    | cache flag =>
      cases done <;> simp only [step, hm, answer, Outcome.answer] at h <;> cases h
      · exact .interrupted x false rfl rfl
      · exact .lostCache x hm
    | commit row =>
      cases done with
      | false =>
        simp only [step, hm, answer, Outcome.answer] at h
        cases h
        exact .interrupted x false rfl rfl
      | true =>
        cases hcommit : (c.work enabled now row).commit s.table with
        | ok table =>
          simp only [step, hm, answer, Outcome.answer, Stores.exec, hcommit] at h
          cases h
          exact .lostCommit x hm hcommit
        | error e =>
          simp only [step, hm, answer, Outcome.answer, Stores.exec, hcommit] at h
          cases h
          exact .lostRejection x hm hcommit
    | idle => simp only [step, hm] at h; cases h
    | done r => simp only [step, hm] at h; cases h
    | _ =>
      cases done <;> simp only [step, hm, answer, Outcome.answer] at h <;> cases h <;>
        exact .interrupted x _ rfl rfl

theorem Call.step_move {ph ph' : Phase} {a : Action Outside} {s s' : Stores}
    (h : c.step svc zone i ph a s = some (ph', s')) : Move svc zone i c s ph a ph' s' := by
  cases a with
  | enter =>
    cases hm : c.method <;> cases ph <;> simp only [Call.step, hm] at h <;> cases h
    · exact .enterGet hm
    · exact .enterSet hm
  | resume o =>
    cases o with
    | ok =>
      cases hm : c.method with
      | get => exact step_move_get hm h
      | set enabled now => exact step_move_set hm h
    | interrupted x done => exact step_move_interrupted h

/-- A move leaves the stores alone, writes the call's cache entry, or commits the
call's row. -/
theorem Move.effect {s s' : Stores} {ph ph' : Phase} {a : Action Outside}
    (h : Move svc zone i c s ph a ph' s') :
    s'.clock = s.clock ∧
      ((s'.redis = s.redis ∧ s'.table = s.table ∧ s'.commits = s.commits) ∨
      (∃ flag, (ph = .fill flag ∨ ph = .cache flag) ∧ s'.redis = (s.cached svc c flag).redis ∧
        s'.table = s.table ∧ s'.commits = s.commits) ∨
      ∃ enabled now row, c.method = .set enabled now ∧ ph = .commit row ∧
        (c.work enabled now row).commit s.table = .ok s'.table ∧ s'.redis = s.redis ∧
        s'.commits = i :: s.commits) := by
  cases h with
  | filled hm => exact ⟨rfl, .inr (.inl ⟨_, .inl rfl, rfl, rfl, rfl⟩)⟩
  | lostFill x hm => exact ⟨rfl, .inr (.inl ⟨_, .inl rfl, rfl, rfl, rfl⟩)⟩
  | cached hm => exact ⟨rfl, .inr (.inl ⟨_, .inr rfl, rfl, rfl, rfl⟩)⟩
  | lostCache x hm => exact ⟨rfl, .inr (.inl ⟨_, .inr rfl, rfl, rfl, rfl⟩)⟩
  | committed hm hcommit => exact ⟨rfl, .inr (.inr ⟨_, _, _, hm, rfl, hcommit, rfl, rfl⟩)⟩
  | lostCommit x hm hcommit => exact ⟨rfl, .inr (.inr ⟨_, _, _, hm, rfl, hcommit, rfl, rfl⟩)⟩
  | _ => exact ⟨rfl, .inl ⟨rfl, rfl, rfl⟩⟩

theorem Move.clock_eq {s s' : Stores} {ph ph' : Phase} {a : Action Outside}
    (h : Move svc zone i c s ph a ph' s') : s'.clock = s.clock := h.effect.1

theorem Move.redis_cases {s s' : Stores} {ph ph' : Phase} {a : Action Outside}
    (h : Move svc zone i c s ph a ph' s') : s'.redis = s.redis ∨
      ∃ flag, (ph = .fill flag ∨ ph = .cache flag) ∧ s'.redis = (s.cached svc c flag).redis := by
  obtain ⟨-, hquiet | ⟨flag, hph, hredis, -⟩ | ⟨_, _, _, -, -, -, hredis, -⟩⟩ := h.effect
  · exact .inl hquiet.1
  · exact .inr ⟨flag, hph, hredis⟩
  · exact .inl hredis

theorem Move.commits_cases {s s' : Stores} {ph ph' : Phase} {a : Action Outside}
    (h : Move svc zone i c s ph a ph' s') :
    s'.commits = s.commits ∨ s'.commits = i :: s.commits := by
  obtain ⟨-, hquiet | ⟨_, -, -, -, hcommits⟩ | ⟨_, _, _, -, -, -, -, hcommits⟩⟩ := h.effect
  · exact .inl hquiet.2.2
  · exact .inl hcommits
  · exact .inr hcommits

theorem Move.redis_frame {s s' : Stores} {ph ph' : Phase} {a : Action Outside}
    (h : Move svc zone i c s ph a ph' s') {key : FlagKey} (hkey : key ≠ c.key) :
    s'.redis (cacheKey key.1 key.2) = s.redis (cacheKey key.1 key.2) := by
  obtain hredis | ⟨flag, -, hredis⟩ := h.redis_cases
  · rw [hredis]
  · rw [hredis, Stores.cached_redis_of_ne _ _ _ _ fun heq => hkey (cacheKey_injective heq)]

theorem Move.commits_subset {svc : FeatureFlagService} {zone : TimeZone} {i : ℕ} {c : Call}
    {s s' : Stores} {ph ph' : Phase} {a : Action Outside} (h : Move svc zone i c s ph a ph' s') :
    s.commits ⊆ s'.commits := by
  obtain hcommits | hcommits := h.commits_cases
  · exact hcommits ▸ List.Subset.refl _
  · exact hcommits ▸ List.subset_cons_self _ _

theorem Call.work_key {enabled : Bool} {now : Datetime} {row : Option FeatureFlagRow}
    (hrow : ∀ r, row = some r → r.key = c.key) : (c.work enabled now row).key = c.key := by
  cases row with
  | none => rfl
  | some r => exact hrow r rfl

theorem Move.table_frame {s s' : Stores} {ph ph' : Phase} {a : Action Outside}
    (h : Move svc zone i c s ph a ph' s') (hrow : ∀ r, ph = .commit (some r) → r.key = c.key)
    {key : FlagKey} (hkey : key ≠ c.key) : s'.table key = s.table key := by
  obtain ⟨-, ⟨-, htable, -⟩ | ⟨_, -, -, htable, -⟩ | ⟨_, _, row, -, hph, hcommit, -⟩⟩ := h.effect
  · rw [htable]
  · rw [htable]
  · exact UnitOfWork.commit_frame hcommit
      (Call.work_key (fun r hr => hrow r (hr ▸ hph)) ▸ hkey)

theorem Call.work_commit_none (enabled : Bool) (now : Datetime) (table : Table) :
    (c.work enabled now none).commit table = match table c.key with
      | some _ => .error .integrityError
      | none => .ok (Function.update table c.key (some (c.columns enabled now))) := rfl

theorem Call.work_commit_some (enabled : Bool) (now : Datetime) {table : Table}
    {r : FeatureFlagRow} (hr : r.key = c.key) {col : Columns} (hcol : table c.key = some col) :
    (c.work enabled now (some r)).commit table =
      .ok (Function.update table c.key (some (col.patch r.columns (c.columns enabled now)))) := by
  have hcol' : table r.key = some col := hr ▸ hcol
  simp only [work, FeatureFlagService.upsert, UnitOfWork.commit, hcol']
  rw [hr]
  rfl

/-- A commit that goes through inserts the whole row, or patches the one there is. -/
theorem Call.work_commit_ok {enabled : Bool} {now : Datetime} {row : Option FeatureFlagRow}
    {table table' : Table} (hrow : ∀ r, row = some r → r.key = c.key ∧ table c.key ≠ none)
    (h : (c.work enabled now row).commit table = .ok table') :
    ∃ new, table' = Function.update table c.key (some new) ∧
      ((row = none ∧ table c.key = none ∧ new = c.columns enabled now) ∨
      ∃ r col, row = some r ∧ table c.key = some col ∧
        new = col.patch r.columns (c.columns enabled now)) := by
  cases row with
  | none =>
    rw [work_commit_none] at h
    split at h <;> cases h
    exact ⟨_, rfl, .inl ⟨rfl, ‹_›, rfl⟩⟩
  | some r =>
    obtain ⟨hkey, hfound⟩ := hrow r rfl
    obtain ⟨col, hcol⟩ := Option.ne_none_iff_exists'.mp hfound
    rw [work_commit_some enabled now hkey hcol] at h
    cases h
    exact ⟨_, rfl, .inr ⟨r, col, rfl, hcol, rfl⟩⟩

theorem Move.commit_cases {s s' : Stores} {ph ph' : Phase} {a : Action Outside}
    (hrow : ∀ r, ph = .commit (some r) → r.key = c.key ∧ s.table c.key ≠ none)
    (h : Move svc zone i c s ph a ph' s') :
    (s'.table = s.table ∧ s'.commits = s.commits) ∨
      ∃ enabled now row new o, c.method = .set enabled now ∧ ph = .commit row ∧
        a = .resume o ∧ o.carriedOut = true ∧ s'.redis = s.redis ∧ s'.commits = i :: s.commits ∧
        s'.table = Function.update s.table c.key (some new) ∧
        ((row = none ∧ s.table c.key = none ∧ new = c.columns enabled now) ∨
        ∃ r col, row = some r ∧ s.table c.key = some col ∧
          new = col.patch r.columns (c.columns enabled now)) := by
  cases h with
  | committed hm hcommit =>
    obtain ⟨new, htable, hnew⟩ := Call.work_commit_ok (fun r hr => hrow r (hr ▸ rfl)) hcommit
    exact .inr ⟨_, _, _, new, _, hm, rfl, rfl, rfl, rfl, rfl, htable, hnew⟩
  | lostCommit x hm hcommit =>
    obtain ⟨new, htable, hnew⟩ := Call.work_commit_ok (fun r hr => hrow r (hr ▸ rfl)) hcommit
    exact .inr ⟨_, _, _, new, _, hm, rfl, rfl, rfl, rfl, rfl, htable, hnew⟩
  | _ => exact .inl ⟨rfl, rfl⟩

theorem Move.update_commits {s s' : Stores} {ph' : Phase} {o : Outcome Outside}
    {r : FeatureFlagRow} {col : Columns}
    (h : Move svc zone i c s (.commit (some r)) (.resume o) ph' s') (ho : o.carriedOut = true)
    (hr : r.key = c.key) (hcol : s.table c.key = some col) :
    s'.commits = i :: s.commits := by
  cases h with
  | committed hm hcommit => rfl
  | lostCommit x hm hcommit => rfl
  | rejected hm hcommit =>
    rw [Call.work_commit_some _ _ hr hcol] at hcommit
    cases hcommit
  | lostRejection x hm hcommit =>
    rw [Call.work_commit_some _ _ hr hcol] at hcommit
    cases hcommit
  | interrupted x done hph hquiet =>
    simp only [Outcome.carriedOut] at ho
    simp [ho, Phase.writes] at hquiet

def Phase.remaining : Phase → ℕ
  | .idle => 5
  | .lookup => 4
  | .load => 3
  | .loaded _ => 2
  | .fill _ => 1
  | .select => 4
  | .commit _ => 3
  | .stored => 2
  | .cache _ => 1
  | .unwind _ => 1
  | .done _ => 0

theorem Move.remaining_lt {s s' : Stores} {ph ph' : Phase} {a : Action Outside}
    (h : Move svc zone i c s ph a ph' s') : ph'.remaining < ph.remaining := by
  cases h with
  | interrupted x done hph => cases ph <;> simp_all [Phase.inFlight, Phase.raise, Phase.remaining]
  | _ => simp [Phase.remaining]

end PolyrepoTemplate
