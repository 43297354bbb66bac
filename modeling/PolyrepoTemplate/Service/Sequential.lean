import PolyrepoTemplate.Service.Deployment
import PolyrepoTemplate.Store.CachedMap

namespace PolyrepoTemplate

open Async

namespace FeatureFlagService

def reload (svc : FeatureFlagService) (name : String) (user : UserDetails) :
    ServiceM FeatureFlag := do
  let flag ← createSession (loadFlag name user)
  svc.writeCache (cacheKey user.tenantId name) flag
  return flag

section
variable (svc : FeatureFlagService) (h : Handler StoreOp StoreOp.Res Emission Exc Stores)
  (s : Stores)

theorem createSession_run (hclose : ∀ s, h.exec .sessionClose s = (.ok (), s)) {α : Type}
    (body : ServiceM α) : (createSession body).run h s = body.run h s := by
  rw [createSession, Coro.run_tryFinally, awaitStore, Coro.run_call, hclose]

theorem ofValidation_run (r : Except ValidationError FeatureFlag) :
    (ofValidation r).run h s = (validated r, s) := by
  cases r <;> rfl

theorem loadFlag_run (name : String) (user : UserDetails) :
    (loadFlag name user).run h s =
      match h.exec (.sessionGet (user.tenantId, name)) s with
      | (.ok none, s) => (.error (.featureFlagNotFound name),
          h.log (.info "feature_flag.missing" [("name", .str name)]) s)
      | (.ok (some row), s) => (validated (rowToFlag row), s)
      | (.error e, s) => (.error e, s) := by
  rw [loadFlag, Coro.bind_eq, Coro.run_bind, awaitStore, Coro.run_call]
  obtain ⟨_ | _ | row, s'⟩ := h.exec (.sessionGet (user.tenantId, name)) s
  · rfl
  · rfl
  · exact ofValidation_run h s' (rowToFlag row)

theorem getFlag_run (name : String) (user : UserDetails) :
    (svc.getFlag name user).run h s =
      match h.exec (.getString (cacheKey user.tenantId name)) (h.log .readsTotalInc s) with
      | (.ok none, s) => (svc.reload name user).run h
          (h.log (.info "feature_flag.cache.miss" [("name", .str name)]) s)
      | (.ok (some text), s) => (validated (svc.json.validateJson text),
          h.log (.info "feature_flag.cache.hit" [("name", .str name)]) s)
      | (.error e, s) => (.error e, s) := by
  have hget := Coro.run_call h (.getString (cacheKey user.tenantId name)) (h.log .readsTotalInc s)
  simp only [getFlag, Coro.tell, awaitStore, Coro.bind_eq, Coro.bind, Coro.run, Coro.run_bind,
    hget]
  obtain ⟨_ | _ | text, s'⟩ := h.exec (.getString (cacheKey user.tenantId name))
    (h.log .readsTotalInc s)
  · rfl
  · rfl
  · exact ofValidation_run h _ (svc.json.validateJson text)

theorem reload_run_error (hclose : ∀ s, h.exec .sessionClose s = (.ok (), s)) {name : String}
    {user : UserDetails} {e : Exc} {s' : Stores}
    (hload : (loadFlag name user).run h s = (.error e, s')) :
    (svc.reload name user).run h s = (.error e, s') := by
  rw [reload, Coro.bind_eq, Coro.run_bind, createSession_run h s hclose, hload]

theorem reload_run_ok (hclose : ∀ s, h.exec .sessionClose s = (.ok (), s)) {name : String}
    {user : UserDetails} {flag : FeatureFlag} {s' s'' : Stores}
    (hload : (loadFlag name user).run h s = (.ok flag, s'))
    (hset : h.exec (.setString (cacheKey user.tenantId name) (svc.json.dumpJson flag)
      svc.config.cacheTtlSeconds) s' = (.ok (), s'')) :
    (svc.reload name user).run h s = (.ok flag, s'') := by
  rw [reload, Coro.bind_eq, Coro.run_bind, createSession_run h s hclose, hload]
  simp only [Coro.bind_eq, Coro.run_bind, writeCache, awaitStore, Coro.run_call, hset]
  rfl

theorem storeFlag_run (name : String) (enabled : Bool) (user : UserDetails) (now : Datetime) :
    (storeFlag name enabled user now).run h s =
      match h.exec (.sessionGet (user.tenantId, name)) s with
      | (.ok row, s) => h.exec (.sessionCommit (upsert name enabled user now row)) s
      | (.error e, s) => (.error e, s) := by
  rw [storeFlag, Coro.bind_eq, Coro.run_bind, awaitStore, Coro.run_call]
  obtain ⟨_ | row, s'⟩ := h.exec (.sessionGet (user.tenantId, name)) s
  · rfl
  · exact Coro.run_call ..

theorem setFlag_run_error (hclose : ∀ s, h.exec .sessionClose s = (.ok (), s)) {name : String}
    {enabled : Bool} {user : UserDetails} {now : Datetime} {e : Exc} {s' : Stores}
    (hstore : (storeFlag name enabled user now).run h s = (.error e, s')) :
    (svc.setFlag name enabled user now).run h s = (.error e, s') := by
  rw [setFlag, Coro.bind_eq, Coro.run_bind, createSession_run h s hclose, hstore]

theorem setFlag_run_ok (hclose : ∀ s, h.exec .sessionClose s = (.ok (), s)) {c : Call}
    {enabled : Bool} {now : Datetime} {s' s'' : Stores}
    (hstore : (storeFlag c.name.val enabled c.user now).run h s = (.ok (), s'))
    (hset : h.exec (.setString c.cacheKey (svc.json.dumpJson (c.flag enabled now))
      svc.config.cacheTtlSeconds) s' = (.ok (), s'')) :
    (svc.setFlag c.name.val enabled c.user now).run h s =
      (.ok (c.flag enabled now),
        h.log (.info "feature_flag.written" [("name", .str c.name.val), ("enabled", .bool enabled)])
          (h.log .writesTotalInc s'')) := by
  have hvalid : FeatureFlag.validate c.name.val enabled now c.user.userId =
      .ok (c.flag enabled now) := FeatureFlag.validate_ok ..
  rw [setFlag, Coro.bind_eq, Coro.run_bind, createSession_run h s hclose, hstore]
  have hset' : (svc.writeCache (cacheKey c.user.tenantId c.name.val) (c.flag enabled now)).run h
      s' = (.ok (), s'') := (Coro.run_call ..).trans hset
  have hok : validated (.ok (c.flag enabled now)) = .ok (c.flag enabled now) := rfl
  simp only [hvalid, Coro.bind_eq, Coro.run_bind, ofValidation_run, hok, hset']
  rfl

theorem setFlag_run_cacheError (hclose : ∀ s, h.exec .sessionClose s = (.ok (), s)) {c : Call}
    {enabled : Bool} {now : Datetime} {e : Exc} {s' s'' : Stores}
    (hstore : (storeFlag c.name.val enabled c.user now).run h s = (.ok (), s'))
    (hset : h.exec (.setString c.cacheKey (svc.json.dumpJson (c.flag enabled now))
      svc.config.cacheTtlSeconds) s' = (.error e, s'')) :
    (svc.setFlag c.name.val enabled c.user now).run h s = (.error e, s'') := by
  have hvalid : FeatureFlag.validate c.name.val enabled now c.user.userId =
      .ok (c.flag enabled now) := FeatureFlag.validate_ok ..
  have hset' : (svc.writeCache (cacheKey c.user.tenantId c.name.val) (c.flag enabled now)).run h
      s' = (.error e, s'') := (Coro.run_call ..).trans hset
  have hok : validated (.ok (c.flag enabled now)) = .ok (c.flag enabled now) := rfl
  rw [setFlag, Coro.bind_eq, Coro.run_bind, createSession_run h s hclose, hstore]
  simp only [hvalid, Coro.bind_eq, Coro.run_bind, ofValidation_run, hok, hset']

end

variable (svc : FeatureFlagService) (zone : TimeZone) (i : ℕ) (s : Stores)

def missed (name : String) (s : Stores) : Stores :=
  (s.log .readsTotalInc).log (.info "feature_flag.cache.miss" [("name", .str name)])

theorem getFlag_run_hit {name : String} {user : UserDetails} {text : String}
    (hhit : s.redis.getString s.clock (cacheKey user.tenantId name) = some text) :
    (svc.getFlag name user).run (Stores.handler zone i) s =
      (validated (svc.json.validateJson text), (s.log .readsTotalInc).log
        (.info "feature_flag.cache.hit" [("name", .str name)])) := by
  have hget : (Stores.handler zone i).exec (.getString (cacheKey user.tenantId name))
      ((Stores.handler zone i).log .readsTotalInc s) = (.ok (some text), s.log .readsTotalInc) :=
    Prod.ext (congrArg Except.ok hhit) rfl
  rw [getFlag_run, hget]
  rfl

theorem getFlag_run_miss {name : String} {user : UserDetails}
    (hmiss : s.redis.getString s.clock (cacheKey user.tenantId name) = none) :
    (svc.getFlag name user).run (Stores.handler zone i) s =
      (svc.reload name user).run (Stores.handler zone i) (missed name s) := by
  have hget : (Stores.handler zone i).exec (.getString (cacheKey user.tenantId name))
      ((Stores.handler zone i).log .readsTotalInc s) = (.ok none, s.log .readsTotalInc) :=
    Prod.ext (congrArg Except.ok hmiss) rfl
  rw [getFlag_run, hget]
  rfl

theorem reload_run_missing (c : Call) (hrow : s.table c.key = none) :
    (svc.reload c.name.val c.user).run (Stores.handler zone i) s =
      (.error (.featureFlagNotFound c.name.val),
        s.log (.info "feature_flag.missing" [("name", .str c.name.val)])) := by
  have hget : (Stores.handler zone i).exec (.sessionGet (c.user.tenantId, c.name.val)) s =
      (.ok none, s) := Prod.ext (congrArg Except.ok (Table.sessionGet_eq_none.mpr hrow)) rfl
  apply reload_run_error svc _ s (fun _ => rfl)
  rw [loadFlag_run, hget]
  rfl

theorem reload_run_found (c : Call) {row : FeatureFlagRow} {flag : FeatureFlag}
    (hrow : s.table.sessionGet zone c.key = some row) (hflag : rowToFlag row = .ok flag) :
    (svc.reload c.name.val c.user).run (Stores.handler zone i) s =
      (.ok flag, s.cached svc c flag) := by
  have hget : (Stores.handler zone i).exec (.sessionGet (c.user.tenantId, c.name.val)) s =
      (.ok (some row), s) := Prod.ext (congrArg Except.ok hrow) rfl
  have hload : (loadFlag c.name.val c.user).run (Stores.handler zone i) s = (.ok flag, s) := by
    rw [loadFlag_run, hget]
    simp only [hflag]
    rfl
  exact reload_run_ok svc _ s (fun _ => rfl) hload rfl

theorem reload_run_invalid (c : Call) {row : FeatureFlagRow} {e : ValidationError}
    (hrow : s.table.sessionGet zone c.key = some row) (he : rowToFlag row = .error e) :
    (svc.reload c.name.val c.user).run (Stores.handler zone i) s =
      (.error (.validationError e), s) := by
  have hget : (Stores.handler zone i).exec (.sessionGet (c.user.tenantId, c.name.val)) s =
      (.ok (some row), s) := Prod.ext (congrArg Except.ok hrow) rfl
  apply reload_run_error svc _ s (fun _ => rfl)
  rw [loadFlag_run, hget]
  simp only [he]
  rfl

/-- A commit right after its own `SELECT` always goes through, with the whole row. -/
theorem work_commit_fresh (c : Call) (enabled : Bool) (now : Datetime) (table : Table) :
    (c.work enabled now (table.sessionGet zone c.key)).commit table =
      .ok (Function.update table c.key (some (c.columns enabled now))) := by
  cases hrow : table.sessionGet zone c.key with
  | none => rw [Call.work_commit_none, Table.sessionGet_eq_none.mp hrow]
  | some r =>
    obtain ⟨hkey, hcol⟩ := Table.sessionGet_eq_some hrow
    rw [Call.work_commit_some enabled now hkey hcol, Columns.patch_self]

def stored (c : Call) (enabled : Bool) (now : Datetime) (table : Table) : Table :=
  Function.update table c.key (some (c.columns enabled now))

theorem exec_commit_fresh (c : Call) (enabled : Bool) (now : Datetime) :
    Stores.exec zone i (.sessionCommit (c.work enabled now (s.table.sessionGet zone c.key))) s =
      (.ok (), s.committed i (stored c enabled now s.table)) := by
  simp only [Stores.exec, work_commit_fresh]
  rfl

theorem setFlag_run (c : Call) (enabled : Bool) (now : Datetime) :
    (svc.setFlag c.name.val enabled c.user now).run (Stores.handler zone i) s =
      (.ok (c.flag enabled now),
        (((s.committed i (stored c enabled now s.table)).cached svc c (c.flag enabled now)).log
          .writesTotalInc).log (.info "feature_flag.written"
            [("name", .str c.name.val), ("enabled", .bool enabled)])) := by
  have hstore : (storeFlag c.name.val enabled c.user now).run (Stores.handler zone i) s =
      (.ok (), s.committed i (stored c enabled now s.table)) :=
    (storeFlag_run ..).trans (exec_commit_fresh zone i s c enabled now)
  exact setFlag_run_ok svc _ s (fun _ => rfl) hstore rfl

end FeatureFlagService

/-- What the service is for: a map from pairs to `(enabled, updated_at, user_id)`. -/
abbrev FlagMap := FlagKey → Option Columns

def FeatureFlag.content (flag : FeatureFlag) : String × Columns := (flag.name, flag.columns)

def Call.onMap (c : Call) (m : FlagMap) : Except Exc (String × Columns) × FlagMap :=
  match c.method with
  | .get =>
    match m c.key with
    | some col => (.ok (c.name.val, col), m)
    | none => (.error (.featureFlagNotFound c.name.val), m)
  | .set enabled now =>
    (.ok (c.name.val, c.columns enabled now),
      Function.update m c.key (some (c.columns enabled now)))

theorem Call.onMap_get {c : Call} (hm : c.method = .get) (m : FlagMap) : (c.onMap m).2 = m := by
  simp only [Call.onMap, hm]
  cases m c.key <;> rfl

theorem Call.onMap_set {c : Call} {enabled : Bool} {now : Datetime}
    (hm : c.method = .set enabled now) (m : FlagMap) :
    c.onMap m = (.ok (c.name.val, c.columns enabled now),
      Function.update m c.key (some (c.columns enabled now))) := by
  simp only [Call.onMap, hm]

theorem Call.onMap_of_ne (c : Call) (m : FlagMap) {key : FlagKey} (h : key ≠ c.key) :
    (c.onMap m).2 key = m key := by
  cases hm : c.method with
  | get => rw [onMap_get hm]
  | set enabled now =>
    rw [onMap_set hm]
    exact Function.update_of_ne h _ _

theorem Call.onMap_congr {c : Call} {m m' : FlagMap} (hm : c.method = .get)
    (h : m' c.key = m c.key) : (c.onMap m').1 = (c.onMap m).1 := by
  simp only [Call.onMap, hm, h]
  cases m c.key <;> rfl

/-- A call, time passing, or entries lost, one after the other. -/
inductive Happening where
  | call (zone : TimeZone) (c : Call)
  | pass (ms : ℕ)
  | lose (gone : String → Bool)

def FeatureFlagService.answers (svc : FeatureFlagService) :
    List Happening → Stores → List (Except Exc FeatureFlag) × Stores
  | [], s => ([], s)
  | .call zone c :: hs, s =>
    let (r, s) := (c.program svc).run (Stores.handler zone 0) s
    let (rs, s) := svc.answers hs s
    (r :: rs, s)
  | .pass ms :: hs, s => svc.answers hs { s with clock := s.clock + ms }
  | .lose gone :: hs, s => svc.answers hs { s with redis := s.redis.evict gone }

def FlagMap.answers : List Happening → FlagMap → List (Except Exc (String × Columns)) × FlagMap
  | [], m => ([], m)
  | .call _ c :: hs, m =>
    let (r, m) := c.onMap m
    let (rs, m) := FlagMap.answers hs m
    (r :: rs, m)
  | .pass _ :: hs, m => FlagMap.answers hs m
  | .lose _ :: hs, m => FlagMap.answers hs m

def encodeKey (key : FlagKey) : String := cacheKey key.1 key.2

theorem encodeKey_injective : Function.Injective encodeKey := fun _ _ h => cacheKey_injective h

def EntryHolds (svc : FeatureFlagService) (key : FlagKey) (col : Columns) (e : Entry) : Prop :=
  ∃ flag, svc.json.validateJson e.value = .ok flag ∧ flag.content = (key.2, col)

/-- Each cache entry holds the row of its pair, and each row is a valid flag. -/
structure Coupling (svc : FeatureFlagService) (s : Stores) : Prop where
  coupled : CachedMap.Coupled encodeKey (EntryHolds svc) s.table s.redis
  valid : ∀ key, ValidRow (s.table key)

section
variable {svc : FeatureFlagService} {zone : TimeZone} {c : Call} {s : Stores}

theorem Coupling.cached (h : Coupling svc s) {col : Columns} {flag : FeatureFlag}
    (hrow : s.table c.key = some col) (hcontent : flag.content = (c.name.val, col)) :
    Coupling svc (s.cached svc c flag) := by
  have hholds : EntryHolds svc c.key col
      ⟨svc.json.dumpJson flag, s.clock + 1000 * svc.config.cacheTtlSeconds⟩ :=
    ⟨flag, svc.json.validateJson_dumpJson flag, hcontent⟩
  have hfill := h.coupled.fill encodeKey_injective hrow hholds
  exact ⟨hfill, h.valid⟩

theorem Coupling.stored (h : Coupling svc s) (i : ℕ) (enabled : Bool) (now : Datetime) :
    Coupling svc ((s.committed i (FeatureFlagService.stored c enabled now s.table)).cached svc c
      (c.flag enabled now)) := by
  have hholds : EntryHolds svc c.key (c.columns enabled now)
      ⟨svc.json.dumpJson (c.flag enabled now), s.clock + 1000 * svc.config.cacheTtlSeconds⟩ :=
    ⟨c.flag enabled now, svc.json.validateJson_dumpJson _, rfl⟩
  have hwrite := h.coupled.write encodeKey_injective hholds
  refine ⟨hwrite, ?_⟩
  intro key col hcol
  by_cases hkey : key = c.key
  · subst hkey
    simp only [Stores.cached_table, Stores.committed_table, FeatureFlagService.stored,
      Function.update_self, Option.some.injEq] at hcol
    subst hcol
    exact c.user.userId_minLength
  · simp only [Stores.cached_table, Stores.committed_table, FeatureFlagService.stored,
      Function.update_of_ne hkey] at hcol
    exact h.valid key col hcol

theorem get_refines (i : ℕ) (hm : c.method = .get) (h : Coupling svc s) :
    ((c.program svc).run (Stores.handler zone i) s).1.map FeatureFlag.content =
        (c.onMap s.table).1 ∧
      ((c.program svc).run (Stores.handler zone i) s).2.table = (c.onMap s.table).2 ∧
      Coupling svc ((c.program svc).run (Stores.handler zone i) s).2 := by
  simp only [Call.program, Call.onMap, hm]
  cases hget : s.redis.getString s.clock c.cacheKey with
  | some text =>
    obtain ⟨e, he, -, rfl⟩ := Redis.getString_eq_some.mp hget
    obtain ⟨col, hcol, flag, hflag, hcontent⟩ := h.coupled c.key e he
    rw [svc.getFlag_run_hit zone i s hget, hflag, hcol]
    exact ⟨congrArg Except.ok hcontent, rfl, h.coupled, h.valid⟩
  | none =>
    rw [svc.getFlag_run_miss zone i s hget]
    cases hrow : s.table.sessionGet zone c.key with
    | none =>
      have hnone := Table.sessionGet_eq_none.mp hrow
      rw [svc.reload_run_missing zone i (FeatureFlagService.missed c.name.val s) c hnone, hnone]
      exact ⟨rfl, rfl, h.coupled, h.valid⟩
    | some row =>
      cases hflag : rowToFlag row with
      | error e => exact absurd (h.valid c.key) (Call.not_validRow hrow hflag)
      | ok flag =>
        obtain ⟨hname, hcol⟩ := Call.flag_of_row hrow hflag
        have hcontent : flag.content = (c.name.val, flag.columns) := Prod.ext hname rfl
        rw [svc.reload_run_found zone i (FeatureFlagService.missed c.name.val s) c hrow hflag, hcol]
        have hmissed : Coupling svc (FeatureFlagService.missed c.name.val s) :=
          ⟨h.coupled, h.valid⟩
        exact ⟨congrArg Except.ok hcontent, rfl, hmissed.cached hcol hcontent⟩

theorem set_refines (i : ℕ) {enabled : Bool} {now : Datetime} (hm : c.method = .set enabled now)
    (h : Coupling svc s) :
    ((c.program svc).run (Stores.handler zone i) s).1.map FeatureFlag.content =
        (c.onMap s.table).1 ∧
      ((c.program svc).run (Stores.handler zone i) s).2.table = (c.onMap s.table).2 ∧
      Coupling svc ((c.program svc).run (Stores.handler zone i) s).2 := by
  simp only [Call.program, Call.onMap, hm, svc.setFlag_run zone i s c enabled now]
  obtain ⟨hcoupled, hvalid⟩ := h.stored (c := c) i enabled now
  exact ⟨rfl, rfl, hcoupled, hvalid⟩

/-- A whole call answers as the map does, and keeps the coupling. -/
theorem call_refines (zone : TimeZone) (i : ℕ) (c : Call) (h : Coupling svc s) :
    ((c.program svc).run (Stores.handler zone i) s).1.map FeatureFlag.content =
        (c.onMap s.table).1 ∧
      ((c.program svc).run (Stores.handler zone i) s).2.table = (c.onMap s.table).2 ∧
      Coupling svc ((c.program svc).run (Stores.handler zone i) s).2 := by
  cases hm : c.method with
  | get => exact get_refines i hm h
  | set enabled now => exact set_refines i hm h

end

theorem Deployment.call_alone {D : Deployment} {s : System} (hs : D.Sound s) {i : ℕ}
    (hi : s.task i = .idle) (h : Coupling D.svc s.shared) :
    ∃ n s' r, run D.step s (alone i (fun _ => .ok) n) = some s' ∧ s'.task i = .done r ∧
      r.map FeatureFlag.content = ((D.calls i).onMap s.shared.table).1 ∧
      s'.shared.table = ((D.calls i).onMap s.shared.table).2 ∧ Coupling D.svc s'.shared := by
  obtain ⟨n, s', hrun, hdone, hshared⟩ := Deployment.run_alone hs hi fun _ => .ok
  obtain ⟨m, hok⟩ := Coro.run_scripted_ok (Stores.handler (D.zone i) i) .outside
    ((D.calls i).program D.svc) s.shared 0
  obtain ⟨hanswer, htable, hcoupling⟩ := call_refines (D.zone i) i (D.calls i) h
  rw [hok] at hdone hshared
  exact ⟨n, s', _, hrun, hdone, hanswer, hshared ▸ htable, hshared ▸ hcoupling⟩

/-- For every sequence of calls, with any entries lost and any time passing between
them: the answers are those of the plain map, and so is the table at the end. -/
theorem answers_eq_map (svc : FeatureFlagService) (hs : List Happening) {s : Stores}
    (hempty : ∀ tenantId name, s.redis (cacheKey tenantId name) = none)
    (hvalid : ∀ key, ValidRow (s.table key)) :
    (svc.answers hs s).1.map (Except.map FeatureFlag.content) = (FlagMap.answers hs s.table).1 ∧
      (svc.answers hs s).2.table = (FlagMap.answers hs s.table).2 := by
  have hcoupling : Coupling svc s :=
    ⟨CachedMap.coupled_of_empty fun key => hempty key.1 key.2, hvalid⟩
  -- from here on the coupling is all that is known of the stores
  clear hempty hvalid
  induction hs generalizing s with
  | nil => exact ⟨rfl, rfl⟩
  | cons happening hs ih =>
    cases happening with
    | call zone c =>
      obtain ⟨hanswer, htable, hcoupling'⟩ := call_refines zone 0 c hcoupling
      obtain ⟨hrest, hfinal⟩ := ih hcoupling'
      simp only [FeatureFlagService.answers, FlagMap.answers, List.map_cons]
      rw [hanswer, ← htable]
      exact ⟨congrArg _ hrest, hfinal⟩
    | pass ms => exact ih ⟨hcoupling.coupled, hcoupling.valid⟩
    | lose gone =>
      exact ih ⟨hcoupling.coupled.lose fun _ _ he => (Redis.evict_eq_some.mp he).2, hcoupling.valid⟩

/-- A flag set, lost from the cache and read again, on empty stores. -/
theorem answers_after_loss :
    ((Deployment.sample fun _ => .get).svc.answers
        [.call (fun _ => 0) ((Deployment.sample fun _ => .set true ⟨7, 0⟩).calls 0),
          .lose fun _ => true,
          .call (fun _ => 0) ((Deployment.sample fun _ => .get).calls 1)]
        ⟨0, fun _ => none, fun _ => none, [], []⟩).1.map (Except.map FeatureFlag.content) =
      [.ok ("dark-mode", ⟨true, 7, "ann"⟩), .ok ("dark-mode", ⟨true, 7, "ann"⟩)] :=
  (answers_eq_map _ _ (fun _ _ => rfl) (fun _ _ h => by cases h)).1

end PolyrepoTemplate
