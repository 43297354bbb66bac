import PolyrepoTemplate.Async.Runs
import PolyrepoTemplate.Service.FeatureFlagService

namespace PolyrepoTemplate

open Async

inductive Method where
  | get
  | set (enabled : Bool) (now : Datetime)
  deriving DecidableEq

/-- A call as the router makes it: a non-empty name, a validated caller. -/
structure Call where
  name : FlagName
  user : UserDetails
  method : Method

namespace Call

variable (c : Call)

def key : FlagKey := (c.user.tenantId, c.name.val)

def cacheKey : String := PolyrepoTemplate.cacheKey c.user.tenantId c.name.val

def columns (enabled : Bool) (now : Datetime) : Columns := ⟨enabled, now.instant, c.user.userId⟩

def flag (enabled : Bool) (now : Datetime) : FeatureFlag :=
  ⟨c.name.val, enabled, now, c.user.userId, c.name.minLength, c.user.userId_minLength⟩

def work (enabled : Bool) (now : Datetime) (row : Option FeatureFlagRow) : UnitOfWork :=
  FeatureFlagService.upsert c.name.val enabled c.user now row

end Call

theorem Call.flag_of_row {c : Call} {table : Table} {zone : TimeZone} {row : FeatureFlagRow}
    {flag : FeatureFlag} (hrow : table.sessionGet zone c.key = some row)
    (hflag : rowToFlag row = .ok flag) :
    flag.name = c.name.val ∧ table c.key = some flag.columns := by
  obtain ⟨hkey, hcol⟩ := Table.sessionGet_eq_some hrow
  obtain ⟨hname, -, hcols⟩ := rowToFlag_ok hflag
  exact ⟨hname.trans (congrArg Prod.snd hkey), hcols ▸ hcol⟩

/-- A name is never empty, so what makes no flag is not a valid row. -/
theorem Call.not_validRow {c : Call} {table : Table} {zone : TimeZone} {row : FeatureFlagRow}
    {e : ValidationError} (hrow : table.sessionGet zone c.key = some row)
    (he : rowToFlag row = .error e) : ¬ ValidRow (table c.key) := by
  intro hvalid
  obtain ⟨hkey, hcol⟩ := Table.sessionGet_eq_some hrow
  obtain hname | huser := rowToFlag_error he
  · exact c.name.minLength ((congrArg Prod.snd hkey).symm.trans hname)
  · exact hvalid _ hcol huser

/-- The await a call stands at, with the local variables it needs afterwards. -/
inductive Phase where
  | idle
  | lookup
  | load
  | loaded (flag : FeatureFlag)
  | fill (flag : FeatureFlag)
  | select
  | commit (row : Option FeatureFlagRow)
  | stored
  | cache (flag : FeatureFlag)
  | unwind (e : Exc)
  | done (r : Except Exc FeatureFlag)

def Phase.inFlight : Phase → Bool
  | .idle => false
  | .done _ => false
  | _ => true

/-- An exception thrown in at the await: inside the session block the session is
closed first, elsewhere the call ends. -/
def Phase.raise (e : Exc) : Phase → Phase
  | .load => .unwind e
  | .select => .unwind e
  | .commit _ => .unwind e
  | _ => .done (.error e)

def validated (r : Except ValidationError FeatureFlag) : Except Exc FeatureFlag :=
  r.mapError .validationError

section
variable (svc : FeatureFlagService) (zone : TimeZone) (i : ℕ) (c : Call)

def answer (o : Outcome Outside) (op : StoreOp) (s : Stores) : Except Exc op.Res × Stores :=
  o.answer .outside (Stores.exec zone i op) s

def Call.store (flag : FeatureFlag) : StoreOp :=
  .setString c.cacheKey (svc.json.dumpJson flag) svc.config.cacheTtlSeconds

/-- One atomic step of call number `i`. -/
def Call.step (ph : Phase) (a : Action Outside) (s : Stores) : Option (Phase × Stores) :=
  match c.method, ph, a with
  | .get, .idle, .enter => some (.lookup, s.log .readsTotalInc)
  | .set _ _, .idle, .enter => some (.select, s)
  | .get, .lookup, .resume o =>
    match answer zone i o (.getString c.cacheKey) s with
    | (.ok (some text), s) =>
      some (.done (validated (svc.json.validateJson text)),
        s.log (.info "feature_flag.cache.hit" [("name", .str c.name.val)]))
    | (.ok none, s) =>
      some (.load, s.log (.info "feature_flag.cache.miss" [("name", .str c.name.val)]))
    | (.error e, s) => some (.done (.error e), s)
  | .get, .load, .resume o =>
    match answer zone i o (.sessionGet c.key) s with
    -- raised inside the session block
    | (.ok none, s) =>
      some (.unwind (.featureFlagNotFound c.name.val),
        s.log (.info "feature_flag.missing" [("name", .str c.name.val)]))
    | (.ok (some row), s) =>
      match rowToFlag row with
      | .ok flag => some (.loaded flag, s)
      | .error e => some (.unwind (.validationError e), s)
    | (.error e, s) => some (.unwind e, s)
  | .get, .loaded flag, .resume o =>
    match answer zone i o .sessionClose s with
    | (.ok _, s) => some (.fill flag, s)
    | (.error e, s) => some (.done (.error e), s)
  | .get, .fill flag, .resume o =>
    match answer zone i o (c.store svc flag) s with
    | (.ok _, s) => some (.done (.ok flag), s)
    | (.error e, s) => some (.done (.error e), s)
  | .set _ _, .select, .resume o =>
    match answer zone i o (.sessionGet c.key) s with
    | (.ok row, s) => some (.commit row, s)
    | (.error e, s) => some (.unwind e, s)
  | .set enabled now, .commit row, .resume o =>
    match answer zone i o (.sessionCommit (c.work enabled now row)) s with
    | (.ok _, s) => some (.stored, s)
    -- a rejected flush, or the commit interrupted from outside
    | (.error e, s) => some (.unwind e, s)
  | .set enabled now, .stored, .resume o =>
    match answer zone i o .sessionClose s with
    | (.ok _, s) =>
      match FeatureFlag.validate c.name.val enabled now c.user.userId with
      | .ok flag => some (.cache flag, s)
      | .error e => some (.done (.error (.validationError e)), s)
    | (.error e, s) => some (.done (.error e), s)
  | .set enabled _, .cache flag, .resume o =>
    match answer zone i o (c.store svc flag) s with
    | (.ok _, s) =>
      some (.done (.ok flag), (s.log .writesTotalInc).log
        (.info "feature_flag.written" [("name", .str c.name.val), ("enabled", .bool enabled)]))
    | (.error e, s) => some (.done (.error e), s)
  | _, .unwind e, .resume o =>
    match answer zone i o .sessionClose s with
    | (.ok _, s) => some (.done (.error e), s)
    -- an exception of the closing replaces the one under way
    | (.error e', s) => some (.done (.error e'), s)
  | _, _, _ => none

def Call.program : ServiceM FeatureFlag :=
  match c.method with
  | .get => svc.getFlag c.name.val c.user
  | .set enabled now => svc.setFlag c.name.val enabled c.user now

def Call.afterStore (enabled : Bool) (now : Datetime) : ServiceM FeatureFlag := do
  let flag ← ofValidation (FeatureFlag.validate c.name.val enabled now c.user.userId)
  svc.writeCache c.cacheKey flag
  Coro.tell .writesTotalInc
  Coro.tell (.info "feature_flag.written" [("name", .str c.name.val), ("enabled", .bool enabled)])
  return flag

/-- The rest of the code at each await. A phase of the other method is never
reached, and stands for an ended task. -/
def Phase.task : Phase → Task StoreOp StoreOp.Res Emission Exc FeatureFlag
  | .idle => .idle (c.program svc)
  | .unwind e => .active do
    awaitStore .sessionClose
    Coro.throw e
  | .done r => .active (Coro.ofAnswer r)
  | ph => .active <| match c.method, ph with
    | .get, .lookup => do
      let cached ← awaitStore (.getString c.cacheKey)
      match cached with
      | some text =>
        Coro.tell (.info "feature_flag.cache.hit" [("name", .str c.name.val)])
        ofValidation (svc.json.validateJson text)
      | none =>
        Coro.tell (.info "feature_flag.cache.miss" [("name", .str c.name.val)])
        let flag ← createSession (FeatureFlagService.loadFlag c.name.val c.user)
        svc.writeCache c.cacheKey flag
        return flag
    | .get, .load => do
      let flag ← createSession (FeatureFlagService.loadFlag c.name.val c.user)
      svc.writeCache c.cacheKey flag
      return flag
    | .get, .loaded flag => do
      awaitStore .sessionClose
      svc.writeCache c.cacheKey flag
      return flag
    | .get, .fill flag => do
      svc.writeCache c.cacheKey flag
      return flag
    | .set enabled now, .select => svc.setFlag c.name.val enabled c.user now
    | .set enabled now, .commit row => do
      createSession (awaitStore (.sessionCommit (c.work enabled now row)))
      c.afterStore svc enabled now
    | .set enabled now, .stored => do
      awaitStore .sessionClose
      c.afterStore svc enabled now
    | .set enabled _, .cache flag => do
      svc.writeCache c.cacheKey flag
      Coro.tell .writesTotalInc
      Coro.tell
        (.info "feature_flag.written" [("name", .str c.name.val), ("enabled", .bool enabled)])
      return flag
    | _, _ => Coro.throw (.outside .cancelledError)

def resumeWith {α : Type} (k : ServiceM α) (s : Stores) :
    Task StoreOp StoreOp.Res Emission Exc α × Stores :=
  (.active (k.settle (Stores.handler zone i) s).1, (k.settle (Stores.handler zone i) s).2)

variable {svc zone i c}

attribute [local simp] Call.step

theorem step_await {α : Type} (op : StoreOp) (k : Except Exc op.Res → ServiceM α)
    (o : Outcome Outside) (s : Stores) :
    Task.step (Stores.handler zone i) .outside (.active (.await op k)) (.resume o) s =
      some (resumeWith zone i (k (answer zone i o op s).1) (answer zone i o op s).2) := rfl

theorem createSession_throw_bind {α β : Type} (e : Exc) (f : α → ServiceM β) :
    (createSession (.throw e : ServiceM α)).bind f =
      (awaitStore .sessionClose).bind fun _ => .throw e :=
  Coro.tryFinally_throw_bind ..

theorem createSession_pure_bind {α β : Type} (a : α) (f : α → ServiceM β) :
    (createSession (.pure a : ServiceM α)).bind f =
      (awaitStore .sessionClose).bind fun _ => f a :=
  Coro.tryFinally_pure_bind ..

/-- At this phase the step of the coroutine is the step of the phase. -/
def Phase.Agrees (svc : FeatureFlagService) (zone : TimeZone) (i : ℕ) (c : Call) (ph : Phase)
    (a : Action Outside) : Prop :=
  ∀ s, (ph.task svc c).step (Stores.handler zone i) .outside a s =
    (c.step svc zone i ph a s).map fun r => (r.1.task svc c, r.2)

theorem resumeWith_ofValidation (r : Except ValidationError FeatureFlag) (s : Stores) :
    resumeWith zone i (ofValidation r) s = (.active (Coro.ofAnswer (validated r)), s) := by
  cases r <;> rfl

theorem resumeWith_session (r : Except ValidationError FeatureFlag) {α : Type}
    (f : FeatureFlag → ServiceM α) (s : Stores) :
    resumeWith zone i ((createSession (ofValidation r)).bind f) s =
      (.active ((awaitStore .sessionClose).bind fun _ =>
        match validated r with
        | .ok flag => f flag
        | .error e => .throw e), s) := by
  cases r with
  | ok flag =>
    exact congrArg (fun k => resumeWith zone i k s) (createSession_pure_bind flag f)
  | error e =>
    exact congrArg (fun k => resumeWith zone i k s)
      (createSession_throw_bind (.validationError e) f)

theorem agrees_lookup (hget : c.method = .get) (o : Outcome Outside) :
    Phase.lookup.Agrees svc zone i c (.resume o) := by
  intro s
  obtain ⟨name, user, method⟩ := c
  subst hget
  simp only [Call.step]
  refine (step_await (.getString (Call.cacheKey ⟨name, user, .get⟩)) _ o s).trans ?_
  generalize answer zone i o (.getString (Call.cacheKey ⟨name, user, .get⟩)) s = r
  obtain ⟨e | _ | text, s'⟩ := r
  · rfl
  · rfl
  · exact congrArg some (resumeWith_ofValidation _ (s'.log _))

theorem agrees_load (hget : c.method = .get) (o : Outcome Outside) :
    Phase.load.Agrees svc zone i c (.resume o) := by
  intro s
  obtain ⟨name, user, method⟩ := c
  subst hget
  simp only [Call.step]
  refine (step_await (.sessionGet (Call.key ⟨name, user, .get⟩)) _ o s).trans ?_
  generalize answer zone i o (.sessionGet (Call.key ⟨name, user, .get⟩)) s = r
  obtain ⟨e | _ | row, s'⟩ := r
  · exact congrArg (fun k => some (resumeWith zone i k s')) (createSession_throw_bind e _)
  · exact congrArg (fun k => some (resumeWith zone i k (s'.log _)))
      (createSession_throw_bind (.featureFlagNotFound name.val) _)
  · refine (congrArg some (resumeWith_session (rowToFlag row) _ s')).trans ?_
    dsimp only
    cases rowToFlag row <;> rfl

theorem agrees_loaded (hget : c.method = .get) (flag : FeatureFlag) (o : Outcome Outside) :
    (Phase.loaded flag).Agrees svc zone i c (.resume o) := by
  intro s
  obtain ⟨name, user, method⟩ := c
  subst hget
  simp only [Call.step]
  refine (step_await .sessionClose _ o s).trans ?_
  generalize answer zone i o .sessionClose s = r
  obtain ⟨e | _, s'⟩ := r
  · rfl
  · rfl

theorem agrees_fill (hget : c.method = .get) (flag : FeatureFlag) (o : Outcome Outside) :
    (Phase.fill flag).Agrees svc zone i c (.resume o) := by
  intro s
  obtain ⟨name, user, method⟩ := c
  subst hget
  simp only [Call.step]
  refine (step_await (Call.store svc ⟨name, user, .get⟩ flag) _ o s).trans ?_
  generalize answer zone i o (Call.store svc ⟨name, user, .get⟩ flag) s = r
  obtain ⟨e | _, s'⟩ := r
  · rfl
  · rfl

theorem agrees_select {enabled : Bool} {now : Datetime} (hset : c.method = .set enabled now)
    (o : Outcome Outside) : Phase.select.Agrees svc zone i c (.resume o) := by
  intro s
  obtain ⟨name, user, method⟩ := c
  subst hset
  simp only [Call.step]
  refine (step_await (.sessionGet (Call.key ⟨name, user, .set enabled now⟩)) _ o s).trans ?_
  generalize answer zone i o (.sessionGet (Call.key ⟨name, user, .set enabled now⟩)) s = r
  obtain ⟨e | row, s'⟩ := r
  · exact congrArg (fun k => some (resumeWith zone i k s')) (createSession_throw_bind e _)
  · rfl

theorem agrees_commit {enabled : Bool} {now : Datetime} (hset : c.method = .set enabled now)
    (row : Option FeatureFlagRow) (o : Outcome Outside) :
    (Phase.commit row).Agrees svc zone i c (.resume o) := by
  intro s
  obtain ⟨name, user, method⟩ := c
  subst hset
  simp only [Call.step]
  refine (step_await (.sessionCommit (Call.work ⟨name, user, .set enabled now⟩ enabled now row))
    _ o s).trans ?_
  generalize answer zone i o (.sessionCommit
    (Call.work ⟨name, user, .set enabled now⟩ enabled now row)) s = r
  obtain ⟨e | _, s'⟩ := r
  · exact congrArg (fun k => some (resumeWith zone i k s')) (createSession_throw_bind e _)
  · exact congrArg (fun k => some (resumeWith zone i k s')) (createSession_pure_bind () _)

theorem agrees_stored {enabled : Bool} {now : Datetime} (hset : c.method = .set enabled now)
    (o : Outcome Outside) : Phase.stored.Agrees svc zone i c (.resume o) := by
  intro s
  obtain ⟨name, user, method⟩ := c
  subst hset
  simp only [Call.step]
  refine (step_await .sessionClose _ o s).trans ?_
  generalize answer zone i o .sessionClose s = r
  obtain ⟨e | _, s'⟩ := r
  · rfl
  · simp only [Call.afterStore]
    cases FeatureFlag.validate name.val enabled now user.userId <;> rfl

theorem agrees_cache {enabled : Bool} {now : Datetime} (hset : c.method = .set enabled now)
    (flag : FeatureFlag) (o : Outcome Outside) :
    (Phase.cache flag).Agrees svc zone i c (.resume o) := by
  intro s
  obtain ⟨name, user, method⟩ := c
  subst hset
  simp only [Call.step]
  refine (step_await (Call.store svc ⟨name, user, .set enabled now⟩ flag) _ o s).trans ?_
  generalize answer zone i o (Call.store svc ⟨name, user, .set enabled now⟩ flag) s = r
  obtain ⟨e | _, s'⟩ := r
  · rfl
  · rfl

theorem agrees_unwind (e : Exc) (o : Outcome Outside) :
    (Phase.unwind e).Agrees svc zone i c (.resume o) := by
  intro s
  obtain ⟨name, user, method⟩ := c
  cases method <;>
  · simp only [Call.step]
    refine (step_await .sessionClose _ o s).trans ?_
    generalize answer zone i o .sessionClose s = r
    obtain ⟨e' | _, s'⟩ := r
    · rfl
    · rfl

theorem agrees_idle : Phase.idle.Agrees svc zone i c .enter := by
  intro s
  obtain ⟨name, user, method⟩ := c
  cases method with
  | get =>
    -- both stand at the `GET`; their continuations agree on each of its answers
    refine congrArg some (Prod.ext (congrArg (fun k => Task.active (.await _ k)) ?_) rfl)
    funext r
    obtain _ | _ | text := r <;> rfl
  | set enabled now => rfl

theorem Phase.task_step (ph : Phase) (a : Action Outside) (s : Stores) :
    (ph.task svc c).step (Stores.handler zone i) .outside a s =
      (c.step svc zone i ph a s).map fun r => (r.1.task svc c, r.2) := by
  cases a with
  | enter =>
    cases ph with
    | idle => exact agrees_idle s
    | done r => obtain ⟨name, user, _ | _⟩ := c <;> cases r <;> rfl
    | _ => obtain ⟨name, user, _ | _⟩ := c <;> rfl
  | resume o =>
    cases hc : c.method with
    | get =>
      cases ph with
      | lookup => exact agrees_lookup hc o s
      | load => exact agrees_load hc o s
      | loaded flag => exact agrees_loaded hc flag o s
      | fill flag => exact agrees_fill hc flag o s
      | unwind e => exact agrees_unwind e o s
      | done r => cases r <;> simp [Call.step, Phase.task, hc, Task.step, Coro.ofAnswer]
      | _ => simp [Call.step, Phase.task, hc, Task.step]
    | set enabled now =>
      cases ph with
      | select => exact agrees_select hc o s
      | commit row => exact agrees_commit hc row o s
      | stored => exact agrees_stored hc o s
      | cache flag => exact agrees_cache hc flag o s
      | unwind e => exact agrees_unwind e o s
      | done r => cases r <;> simp [Call.step, Phase.task, hc, Task.step, Coro.ofAnswer]
      | _ => simp [Call.step, Phase.task, hc, Task.step]

end

end PolyrepoTemplate
