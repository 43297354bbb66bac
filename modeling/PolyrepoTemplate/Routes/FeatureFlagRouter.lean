import PolyrepoTemplate.Routes.GetUserDetails
import PolyrepoTemplate.Service.Refusals
import PolyrepoTemplate.Service.Sequential
import PolyrepoTemplate.Text.Percent

namespace PolyrepoTemplate

open Async

def reprChar (isprintable : Char → Bool) (quote c : Char) : List Char :=
  let hex (width : ℕ) := (Nat.toDigits 16 c.toNat).leftpad width '0'
  if c = quote ∨ c = '\\' then ['\\', c]
  else if c = '\t' then ['\\', 't']
  else if c = '\n' then ['\\', 'n']
  else if c = '\r' then ['\\', 'r']
  else if c.toNat < 0x20 ∨ c.toNat = 0x7F then '\\' :: 'x' :: hex 2
  else if c.toNat < 0x7F ∨ isprintable c = true then [c]
  else if c.toNat ≤ 0xFF then '\\' :: 'x' :: hex 2
  else if c.toNat ≤ 0xFFFF then '\\' :: 'u' :: hex 4
  else '\\' :: 'U' :: hex 8

def reprStr (isprintable : Char → Bool) (s : String) : String :=
  let quote := if '\'' ∈ s.toList ∧ '"' ∉ s.toList then '"' else '\''
  String.ofList (quote :: s.toList.flatMap (reprChar isprintable quote) ++ [quote])

example : reprStr (fun _ => true) "it's\n" = "\"it's\\n\"" := by decide

structure HTTPException where
  statusCode : ℕ
  detail : String
  deriving DecidableEq, Repr

structure FeatureFlagSetRequest where
  enabled : Bool

structure FeatureFlagRouter where
  service : FeatureFlagService
  isprintable : Char → Bool

namespace FeatureFlagRouter

variable (router : FeatureFlagRouter)

def featureFlagNotFoundText (name : String) : String :=
  "Feature flag " ++ reprStr router.isprintable name ++ " does not exist."

def getFeatureFlag (name : FlagName) (user : UserDetails) :
    ServiceM (Except HTTPException FeatureFlag) := do
  Coro.tell (.info "feature_flag.get" [("name", .str name.val)])
  let result ← (router.service.getFlag name.val user).attempt
  match result with
  | .ok flag => return .ok flag
  | .error (.featureFlagNotFound name) => return .error ⟨404, router.featureFlagNotFoundText name⟩
  | .error e => Coro.throw e

def setFeatureFlag (name : FlagName) (body : FeatureFlagSetRequest) (now : Datetime)
    (user : UserDetails) : ServiceM (Except HTTPException FeatureFlag) := do
  Coro.tell (.info "feature_flag.set" [("name", .str name.val), ("enabled", .bool body.enabled)])
  let flag ← router.service.setFlag name.val body.enabled user now
  return .ok flag

end FeatureFlagRouter

inductive Reply where
  | flag (flag : FeatureFlag)
  | httpException (e : HTTPException)
  | requestValidationError (e : RequestValidationError)
  | unhandled (e : Exc)
  deriving DecidableEq

namespace Reply

def statusCode : Reply → ℕ
  | .flag _ => 200
  | .httpException e => e.statusCode
  | .requestValidationError _ => 422
  | .unhandled _ => 500

def ofRoute : Except Exc (Except HTTPException FeatureFlag) → Reply
  | .ok (.ok f) => .flag f
  | .ok (.error e) => .httpException e
  | .error e => .unhandled e

end Reply

/-- The caller is a dependency of the route, so it is made first. -/
def respond (h : Handler StoreOp StoreOp.Res Emission Exc Stores)
    (route : UserDetails → ServiceM (Except HTTPException FeatureFlag)) (tenantId userId : String)
    (s : Stores) : Reply × Stores :=
  match userDetails tenantId userId with
  | .error e => (.requestValidationError e, s)
  | .ok user => (.ofRoute ((route user).run h s).1, ((route user).run h s).2)

/-- What `GET` needs: a cached text that is a flag, or else a pair that can be
looked up, with no row or with one that is a flag. -/
def Readable (svc : FeatureFlagService) (s : Stores) (key : FlagKey) : Prop :=
  match s.redis.getString s.clock (encodeKey key) with
  | some text => ∃ flag, svc.json.validateJson text = .ok flag
  | none => storable key.1 = true ∧ storable key.2 = true ∧ ValidRow (s.table key)

/-- What `PUT` needs: a pair that can be looked up, and an editor that can be
stored in its row or in a new one. -/
def Writable (pg : Postgres) (s : Stores) (key : FlagKey) (userId : String) : Prop :=
  storable key.1 = true ∧ storable key.2 = true ∧
    match s.table key with
    | none => storable userId = true ∧ pg.indexFits key = true
    | some col => storable userId = true ∨ userId = col.updatedByUserId

section
variable {pg : Postgres} {i : ℕ} {s : Stores} {key : FlagKey}

theorem UnitOfWork.texts_dirty_all {loaded row : FeatureFlagRow}
    (h₁ : storable loaded.tenantId = true) (h₂ : storable loaded.name = true) :
    (dirty loaded row).texts.all storable = true ↔
      storable row.updatedByUserId = true ∨ row.updatedByUserId = loaded.updatedByUserId := by
  rw [texts]
  by_cases huser : row.updatedByUserId = loaded.updatedByUserId
  · apply iff_of_true _ (.inr huser)
    split_ifs <;> simp [h₁, h₂]
  · have hcolumns : row.columns ≠ loaded.columns := fun h =>
      huser (congrArg Columns.updatedByUserId h)
    rw [if_neg hcolumns, if_neg huser]
    simp [h₁, h₂, huser]

theorem Call.accepts_work_iff (c : Call) (enabled : Bool) (now : Datetime)
    (h₁ : storable c.key.1 = true) (h₂ : storable c.key.2 = true) :
    pg.accepts (.sessionCommit (c.work enabled now (s.table.sessionGet pg.zone c.key))) = true ↔
      Writable pg s c.key c.user.userId := by
  simp only [Writable, h₁, h₂, true_and]
  cases hrow : s.table.sessionGet pg.zone c.key with
  | none =>
    rw [Table.sessionGet_eq_none.mp hrow]
    change (([c.key.1, c.key.2, c.user.userId].all storable && pg.indexFits c.key) = true) ↔ _
    simp [h₁, h₂]
  | some row =>
    obtain ⟨hkey, hcol⟩ := Table.sessionGet_eq_some hrow
    rw [← hkey] at h₁ h₂
    rw [hcol]
    exact UnitOfWork.texts_dirty_all h₁ h₂

def Answered (r : Except Exc FeatureFlag) : Prop :=
  (∃ flag, r = .ok flag) ∨ ∃ name, r = .error (.featureFlagNotFound name)

@[simp] theorem answered_error {e : Exc} :
    Answered (.error e) ↔ ∃ name, e = .featureFlagNotFound name := by
  simp [Answered]

theorem answered_validated {r : Except ValidationError FeatureFlag} :
    Answered (validated r) ↔ ∃ flag, r = .ok flag := by
  cases r with
  | ok flag => exact iff_of_true (.inl ⟨flag, rfl⟩) ⟨flag, rfl⟩
  | error e => simp [validated, Except.mapError]

theorem Call.pair_eq_key (c : Call) : (c.user.tenantId, c.name.val) = c.key := rfl

namespace FeatureFlagService

variable (svc : FeatureFlagService) (c : Call)

theorem reload_answered_iff (h₁ : storable c.key.1 = true) (h₂ : storable c.key.2 = true) :
    Answered ((svc.reload c.name.val c.user).run (pg.handler i) s).1 ↔
      ValidRow (s.table c.key) := by
  have hload := loadFlag_run (pg.handler i) s c.name.val c.user
  rw [c.pair_eq_key, Postgres.handler_sessionGet h₁ h₂] at hload
  cases hrow : s.table.sessionGet pg.zone c.key with
  | none =>
    rw [hrow] at hload
    rw [reload_run_error svc _ s Postgres.handler_sessionClose hload,
      Table.sessionGet_eq_none.mp hrow]
    exact iff_of_true (.inr ⟨_, rfl⟩) fun _ h => by cases h
  | some row =>
    rw [hrow] at hload
    cases hflag : rowToFlag row with
    | error e =>
      simp only [hflag] at hload
      rw [reload_run_error svc _ s Postgres.handler_sessionClose hload]
      exact iff_of_false (by simp) (Call.not_validRow hrow hflag)
    | ok flag =>
      simp only [hflag] at hload
      rw [reload_run_ok svc _ s Postgres.handler_sessionClose hload rfl]
      apply iff_of_true (.inl ⟨flag, rfl⟩)
      rw [(Call.flag_of_row hrow hflag).2]
      rintro _ ⟨⟩
      exact flag.updatedByUserId_minLength

theorem getFlag_answered_iff :
    Answered ((svc.getFlag c.name.val c.user).run (pg.handler i) s).1 ↔ Readable svc s c.key := by
  have hget : (pg.handler i).exec (.getString c.cacheKey) ((pg.handler i).log .readsTotalInc s) =
      (.ok (s.redis.getString s.clock c.cacheKey), s.log .readsTotalInc) := rfl
  rw [getFlag_run, show cacheKey c.user.tenantId c.name.val = c.cacheKey from rfl, hget, Readable,
    show encodeKey c.key = c.cacheKey from rfl]
  cases s.redis.getString s.clock c.cacheKey with
  | some text => exact answered_validated
  | none =>
    by_cases hkey : storable c.key.1 = true ∧ storable c.key.2 = true
    · simp only [hkey, true_and]
      exact reload_answered_iff svc c hkey.1 hkey.2
    · have hload := loadFlag_run (pg.handler i) (missed c.name.val s) c.name.val c.user
      rw [c.pair_eq_key, Postgres.handler_sessionGet_refused hkey] at hload
      apply iff_of_false
      · rw [show (pg.handler i).log = Stores.log from rfl]
        simp only
        rw [← missed, reload_run_error svc _ _ Postgres.handler_sessionClose hload]
        simp
      · rintro ⟨h₁, h₂, -⟩
        exact hkey ⟨h₁, h₂⟩

theorem setFlag_ok_iff (enabled : Bool) (now : Datetime) :
    (∃ flag, ((svc.setFlag c.name.val enabled c.user now).run (pg.handler i) s).1 = .ok flag) ↔
      Writable pg s c.key c.user.userId := by
  have hstore := storeFlag_run (pg.handler i) s c.name.val enabled c.user now
  rw [c.pair_eq_key] at hstore
  by_cases hkey : storable c.key.1 = true ∧ storable c.key.2 = true
  · rw [Postgres.handler_sessionGet hkey.1 hkey.2] at hstore
    rw [← c.accepts_work_iff enabled now hkey.1 hkey.2]
    by_cases hwork : pg.accepts
        (.sessionCommit (c.work enabled now (s.table.sessionGet pg.zone c.key))) = true
    · have hcommit : (pg.handler i).exec (.sessionCommit _) s = _ :=
        (Handler.guarded_accepted hwork s).trans (exec_commit_fresh pg.zone i s c enabled now)
      rw [setFlag_run_ok svc _ s Postgres.handler_sessionClose (hstore.trans hcommit) rfl]
      exact iff_of_true ⟨_, rfl⟩ hwork
    · have hcommit := hstore.trans (Handler.guarded_refused hwork s)
      rw [setFlag_run_error svc _ s Postgres.handler_sessionClose hcommit]
      exact iff_of_false (by rintro ⟨_, ⟨⟩⟩) hwork
  · rw [Postgres.handler_sessionGet_refused hkey] at hstore
    rw [setFlag_run_error svc _ s Postgres.handler_sessionClose hstore]
    apply iff_of_false
    · rintro ⟨_, ⟨⟩⟩
    · rintro ⟨h₁, h₂, -⟩
      exact hkey ⟨h₁, h₂⟩

end FeatureFlagService

end

namespace FeatureFlagRouter

section
variable (router : FeatureFlagRouter) (h : Handler StoreOp StoreOp.Res Emission Exc Stores)
  (s : Stores) (name : FlagName) (user : UserDetails)

theorem getFeatureFlag_run : ((router.getFeatureFlag name user).run h s).1 =
    match ((router.service.getFlag name.val user).run h
      (h.log (.info "feature_flag.get" [("name", .str name.val)]) s)).1 with
    | .ok flag => .ok (.ok flag)
    | .error (.featureFlagNotFound missing) =>
      .ok (.error ⟨404, router.featureFlagNotFoundText missing⟩)
    | .error e => .error e := by
  simp only [getFeatureFlag, Coro.tell, Coro.bind_eq, Coro.bind, Coro.run, Coro.run_bind,
    Coro.run_attempt]
  obtain ⟨e | flag, s'⟩ := (router.service.getFlag name.val user).run h _
  · cases e <;> rfl
  · rfl

theorem setFeatureFlag_run (body : FeatureFlagSetRequest) (now : Datetime) :
    ((router.setFeatureFlag name body now user).run h s).1 =
      (((router.service.setFlag name.val body.enabled user now).run h
        (h.log (.info "feature_flag.set" [("name", .str name.val), ("enabled", .bool body.enabled)])
          s)).1.map Except.ok) := by
  simp only [setFeatureFlag, Coro.tell, Coro.bind_eq, Coro.bind, Coro.run, Coro.run_bind]
  obtain ⟨_ | flag, s'⟩ := (router.service.setFlag name.val body.enabled user now).run h _
  · rfl
  · rfl

theorem getFeatureFlag_statusCode :
    (Reply.ofRoute ((router.getFeatureFlag name user).run h s).1).statusCode ∈ [200, 404] ↔
      Answered ((router.service.getFlag name.val user).run h
        (h.log (.info "feature_flag.get" [("name", .str name.val)]) s)).1 := by
  rw [getFeatureFlag_run]
  obtain e | flag := ((router.service.getFlag name.val user).run h _).1
  · have h404 : 404 ∈ [200, 404] := by decide
    have h500 : 500 ∉ [200, 404] := by decide
    cases e with
    | featureFlagNotFound missing => exact iff_of_true h404 (.inr ⟨missing, rfl⟩)
    | validationError | flushError | outside =>
      exact iff_of_false h500 (by simp)
  · have h200 : 200 ∈ [200, 404] := by decide
    exact iff_of_true h200 (.inl ⟨flag, rfl⟩)

theorem setFeatureFlag_statusCode (body : FeatureFlagSetRequest) (now : Datetime) :
    (Reply.ofRoute ((router.setFeatureFlag name body now user).run h s).1).statusCode = 200 ↔
      ∃ flag, ((router.service.setFlag name.val body.enabled user now).run h
        (h.log (.info "feature_flag.set" [("name", .str name.val), ("enabled", .bool body.enabled)])
          s)).1 = .ok flag := by
  rw [setFeatureFlag_run]
  obtain e | flag := ((router.service.setFlag name.val body.enabled user now).run h _).1
  · have h500 : (500 : ℕ) ≠ 200 := by decide
    exact iff_of_false h500 (by rintro ⟨_, ⟨⟩⟩)
  · exact iff_of_true rfl ⟨flag, rfl⟩

end

def sample : FeatureFlagRouter := ⟨(Deployment.sample fun _ => .get).svc, fun _ => true⟩

end FeatureFlagRouter

end PolyrepoTemplate
