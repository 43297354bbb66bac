import PolyrepoTemplate.Routes.FeatureFlagRouter

namespace PolyrepoTemplate

open Async

inductive Verb where
  | get
  | put (body : FeatureFlagSetRequest) (now : Datetime)

/-- A request that reaches one of the two routes, with the raw header values. -/
structure ApiRequest where
  verb : Verb
  name : FlagName
  tenantId : String
  userId : String

inductive ApiEvent where
  | request (req : ApiRequest)
  | pass (ms : ℕ)
  | lose (gone : String → Bool)

namespace FeatureFlagRouter

variable (router : FeatureFlagRouter) (pg : Postgres)

def route (req : ApiRequest) : UserDetails → ServiceM (Except HTTPException FeatureFlag) :=
  match req.verb with
  | .get => router.getFeatureFlag req.name
  | .put body now => router.setFeatureFlag req.name body now

def serve : List ApiEvent → Stores → List Reply × Stores
  | [], s => ([], s)
  | .request req :: events, s =>
    let (reply, s) := respond (pg.handler 0) (router.route req) req.tenantId req.userId s
    let (replies, s) := serve events s
    (reply :: replies, s)
  | .pass ms :: events, s => serve events { s with clock := s.clock + ms }
  | .lose gone :: events, s => serve events { s with redis := s.redis.evict gone }

end FeatureFlagRouter

/-- A reply as a client reads it: a flag is its name and its row. -/
inductive Said where
  | row (name : String) (col : Columns)
  | other (reply : Reply)

def Reply.said : Reply → Said
  | .flag f => .row f.name f.columns
  | reply => .other reply

def Postgres.takes (pg : Postgres) (m : FlagMap) (key : FlagKey) (userId : String) : Bool :=
  storable key.1 && storable key.2 &&
    match m key with
    | none => storable userId && pg.indexFits key
    | some col => storable userId || decide (userId = col.updatedByUserId)

def refusedByPostgres : Said := .other (.unhandled (.outside (.storeError "DBAPIError")))

namespace FlagMap

variable (router : FeatureFlagRouter) (pg : Postgres)

def answer (m : FlagMap) (verb : Verb) (name : FlagName) (user : UserDetails) : Said × FlagMap :=
  match verb with
  | .get =>
    match m (user.tenantId, name.val) with
    | some col => (.row name.val col, m)
    | none =>
      if storable user.tenantId && storable name.val then
        (.other (.httpException ⟨404, router.featureFlagNotFoundText name.val⟩), m)
      else (refusedByPostgres, m)
  | .put body now =>
    if pg.takes m (user.tenantId, name.val) user.userId then
      (.row name.val ⟨body.enabled, now.instant, user.userId⟩,
        Function.update m (user.tenantId, name.val)
          (some ⟨body.enabled, now.instant, user.userId⟩))
    else (refusedByPostgres, m)

def respond (m : FlagMap) (req : ApiRequest) : Said × FlagMap :=
  match userDetails req.tenantId req.userId with
  | .error e => (.other (.requestValidationError e), m)
  | .ok user => answer router pg m req.verb req.name user

theorem answer_get_snd (m : FlagMap) (name : FlagName) (user : UserDetails) :
    (answer router pg m .get name user).2 = m := by
  simp only [answer]
  split
  · rfl
  · split <;> rfl

/-- The replies of the map, to which neither time nor the cache matters. -/
def serve : List ApiEvent → FlagMap → List Said × FlagMap
  | [], m => ([], m)
  | .request req :: events, m =>
    let (reply, m) := respond router pg m req
    let (replies, m) := serve events m
    (reply :: replies, m)
  | .pass _ :: events, m => serve events m
  | .lose _ :: events, m => serve events m

end FlagMap

/-- The cache holds rows of the table, the rows are flags, and their keys are texts
PostgreSQL can hold. -/
structure ApiCoupling (svc : FeatureFlagService) (s : Stores) : Prop where
  coupling : Coupling svc s
  held : ∀ key, s.table key ≠ none → storable key.1 = true ∧ storable key.2 = true

theorem Postgres.takes_iff {pg : Postgres} {s : Stores} {key : FlagKey} {userId : String} :
    pg.takes s.table key userId = true ↔ Writable pg s key userId := by
  simp only [takes, Writable, Bool.and_eq_true, and_assoc]
  apply and_congr_right'
  apply and_congr_right'
  cases s.table key <;> simp

section
variable {router : FeatureFlagRouter} {pg : Postgres} {i : ℕ} {s : Stores} (name : FlagName)
  (user : UserDetails)

theorem getFeatureFlag_snd (h : Handler StoreOp StoreOp.Res Emission Exc Stores) (s : Stores) :
    ((router.getFeatureFlag name user).run h s).2 =
      ((router.service.getFlag name.val user).run h
        (h.log (.info "feature_flag.get" [("name", .str name.val)]) s)).2 := by
  simp only [FeatureFlagRouter.getFeatureFlag, Coro.tell, Coro.bind_eq, Coro.bind, Coro.run,
    Coro.run_bind, Coro.run_attempt]
  obtain ⟨e | flag, s'⟩ := (router.service.getFlag name.val user).run h _
  · cases e <;> rfl
  · rfl

theorem setFeatureFlag_snd (h : Handler StoreOp StoreOp.Res Emission Exc Stores) (s : Stores)
    (body : FeatureFlagSetRequest) (now : Datetime) :
    ((router.setFeatureFlag name body now user).run h s).2 =
      ((router.service.setFlag name.val body.enabled user now).run h
        (h.log (.info "feature_flag.set" [("name", .str name.val), ("enabled", .bool body.enabled)])
          s)).2 := by
  simp only [FeatureFlagRouter.setFeatureFlag, Coro.tell, Coro.bind_eq, Coro.bind, Coro.run,
    Coro.run_bind]
  obtain ⟨_ | flag, s'⟩ := (router.service.setFlag name.val body.enabled user now).run h _
  · rfl
  · rfl

namespace FeatureFlagService

variable (svc : FeatureFlagService)

theorem getFlag_run_storable (h₁ : storable user.tenantId = true) (h₂ : storable name.val = true) :
    (svc.getFlag name.val user).run (pg.handler i) s =
      (svc.getFlag name.val user).run (Stores.handler pg.zone i) s := by
  apply Coro.Only.run_guarded
  refine ⟨rfl, ?_⟩
  rintro (e | _ | text)
  · trivial
  · have hload : (loadFlag name.val user).Only (pg.accepts · = true) := by
      refine ⟨Bool.and_eq_true_iff.mpr ⟨h₁, h₂⟩, ?_⟩
      rintro (e | _ | row)
      · trivial
      · trivial
      · exact Coro.only_ofAnswer _
    have hclose : (awaitStore .sessionClose).Only (pg.accepts · = true) := Coro.only_call.mpr rfl
    apply (hload.tryFinally hclose).bind
    intro flag
    have hwrite : (svc.writeCache (cacheKey user.tenantId name.val) flag).Only
      (pg.accepts · = true) := Coro.only_call.mpr rfl
    exact hwrite.bind fun _ => trivial
  · exact Coro.only_ofAnswer _

theorem getFlag_run_refused
    (hkey : ¬ (storable user.tenantId = true ∧ storable name.val = true))
    (hmiss : s.redis.getString s.clock (cacheKey user.tenantId name.val) = none) :
    (svc.getFlag name.val user).run (pg.handler i) s =
      (.error (.outside (.storeError "DBAPIError")), missed name.val s) := by
  have hget : (pg.handler i).exec (.getString (cacheKey user.tenantId name.val))
      ((pg.handler i).log .readsTotalInc s) = (.ok none, s.log .readsTotalInc) :=
    Prod.ext (congrArg Except.ok hmiss) rfl
  have hload := loadFlag_run (pg.handler i) (missed name.val s) name.val user
  rw [Postgres.handler_sessionGet_refused hkey] at hload
  rw [getFlag_run, hget]
  exact reload_run_error svc _ _ Postgres.handler_sessionClose hload

theorem setFlag_run_taken (c : Call) (enabled : Bool) (now : Datetime)
    (h : Writable pg s c.key c.user.userId) :
    (svc.setFlag c.name.val enabled c.user now).run (pg.handler i) s =
      (svc.setFlag c.name.val enabled c.user now).run (Stores.handler pg.zone i) s := by
  have hwork := (c.accepts_work_iff enabled now h.1 h.2.1).mpr h
  have hstore := storeFlag_run (pg.handler i) s c.name.val enabled c.user now
  rw [c.pair_eq_key, Postgres.handler_sessionGet h.1 h.2.1] at hstore
  have hcommit : (pg.handler i).exec (.sessionCommit _) s = _ :=
    (Handler.guarded_accepted hwork s).trans (exec_commit_fresh pg.zone i s c enabled now)
  rw [setFlag_run_ok svc _ s Postgres.handler_sessionClose (hstore.trans hcommit) rfl, setFlag_run]
  rfl

theorem setFlag_run_refused (c : Call) (enabled : Bool) (now : Datetime)
    (h : ¬ Writable pg s c.key c.user.userId) :
    (svc.setFlag c.name.val enabled c.user now).run (pg.handler i) s =
      (.error (.outside (.storeError "DBAPIError")), s) := by
  apply setFlag_run_error svc _ s Postgres.handler_sessionClose
  have hstore := storeFlag_run (pg.handler i) s c.name.val enabled c.user now
  rw [c.pair_eq_key] at hstore
  by_cases hkey : storable c.key.1 = true ∧ storable c.key.2 = true
  · rw [Postgres.handler_sessionGet hkey.1 hkey.2] at hstore
    exact hstore.trans (Handler.guarded_refused
      (fun hwork => h ((c.accepts_work_iff enabled now hkey.1 hkey.2).mp hwork)) s)
  · rw [Postgres.handler_sessionGet_refused hkey] at hstore
    exact hstore

end FeatureFlagService

end

def FeatureFlagRouter.replyOf (router : FeatureFlagRouter) : Except Exc FeatureFlag → Reply
  | .ok flag => .flag flag
  | .error (.featureFlagNotFound missing) =>
    .httpException ⟨404, router.featureFlagNotFoundText missing⟩
  | .error e => .unhandled e

section
variable {router : FeatureFlagRouter} {pg : Postgres} {s : Stores}

theorem ofRoute_getFeatureFlag (h : Handler StoreOp StoreOp.Res Emission Exc Stores)
    (name : FlagName) (user : UserDetails) :
    Reply.ofRoute ((router.getFeatureFlag name user).run h s).1 =
      router.replyOf ((router.service.getFlag name.val user).run h
        (h.log (.info "feature_flag.get" [("name", .str name.val)]) s)).1 := by
  rw [router.getFeatureFlag_run]
  generalize ((router.service.getFlag name.val user).run h _).1 = r
  cases r with
  | ok flag => rfl
  | error e => cases e <;> rfl

theorem said_replyOf {c : Call} {m : FlagMap} (hm : c.method = .get)
    {r : Except Exc FeatureFlag} (h : r.map FeatureFlag.content = (c.onMap m).1) :
    (router.replyOf r).said = match m c.key with
      | some col => .row c.name.val col
      | none => .other (.httpException ⟨404, router.featureFlagNotFoundText c.name.val⟩) := by
  simp only [Call.onMap, hm] at h
  cases hrow : m c.key with
  | some col =>
    rw [hrow] at h
    cases r with
    | error e => cases h
    | ok flag =>
      have hcontent : (flag.name, flag.columns) = (c.name.val, col) := Except.ok.inj h
      obtain ⟨hname, hcol⟩ := Prod.mk.inj hcontent
      rw [← hname, ← hcol]
      rfl
  | none =>
    rw [hrow] at h
    cases r with
    | ok flag => cases h
    | error e =>
      obtain rfl : e = .featureFlagNotFound c.name.val := Except.error.inj h
      rfl

theorem ApiCoupling.no_row (h : ApiCoupling router.service s) (key : FlagKey)
    (hkey : ¬ (storable key.1 = true ∧ storable key.2 = true)) :
    s.table key = none ∧ s.redis.getString s.clock (encodeKey key) = none := by
  have hrow : s.table key = none := not_not.mp fun hrow => hkey (h.held key hrow)
  refine ⟨hrow, Option.eq_none_iff_forall_ne_some.mpr fun text htext => ?_⟩
  obtain ⟨e, he, -, -⟩ := Redis.getString_eq_some.mp htext
  obtain ⟨col, hcol, -⟩ := h.coupling.coupled key e he
  rw [hrow] at hcol
  cases hcol

theorem ApiCoupling.log (h : ApiCoupling router.service s) (m : Emission) :
    ApiCoupling router.service (s.log m) := ⟨⟨h.coupling.coupled, h.coupling.valid⟩, h.held⟩

theorem get_answers (pg : Postgres) (h : ApiCoupling router.service s) (name : FlagName)
    (user : UserDetails) :
    (Reply.ofRoute ((router.getFeatureFlag name user).run (pg.handler 0) s).1).said =
        (FlagMap.answer router pg s.table .get name user).1 ∧
      ((router.getFeatureFlag name user).run (pg.handler 0) s).2.table = s.table ∧
      ApiCoupling router.service
        ((router.getFeatureFlag name user).run (pg.handler 0) s).2 := by
  rw [ofRoute_getFeatureFlag, getFeatureFlag_snd]
  set s' := (pg.handler 0).log (.info "feature_flag.get" [("name", .str name.val)]) s
  have h' : ApiCoupling router.service s' := h.log _
  by_cases hkey : storable user.tenantId = true ∧ storable name.val = true
  · rw [router.service.getFlag_run_storable name user hkey.1 hkey.2]
    obtain ⟨hanswer, htable, hcoupling⟩ :=
      call_refines pg.zone 0 ⟨name, user, .get⟩ h'.coupling
    have htable' : ((router.service.getFlag name.val user).run (Stores.handler pg.zone 0)
      s').2.table = s.table := htable.trans (Call.onMap_get rfl s.table)
    refine ⟨?_, htable', hcoupling, fun key hrow => h.held key (htable' ▸ hrow)⟩
    refine (said_replyOf rfl hanswer).trans ?_
    simp only [FlagMap.answer, hkey, Bool.and_self, if_true]
    change (match s.table (user.tenantId, name.val) with
      | some col => Said.row name.val col
      | none => .other (.httpException ⟨404, router.featureFlagNotFoundText name.val⟩)) = _
    cases s.table (user.tenantId, name.val) <;> rfl
  · obtain ⟨hrow, hmiss⟩ := h'.no_row (user.tenantId, name.val) hkey
    rw [router.service.getFlag_run_refused name user hkey hmiss]
    refine ⟨?_, rfl, (h'.log _).log _⟩
    have hrow' : s.table (user.tenantId, name.val) = none := hrow
    simp only [FlagMap.answer, hrow', if_neg (Bool.and_eq_true_iff.not.mpr hkey)]
    rfl

theorem put_answers (h : ApiCoupling router.service s) (name : FlagName) (user : UserDetails)
    (body : FeatureFlagSetRequest) (now : Datetime) :
    (Reply.ofRoute ((router.setFeatureFlag name body now user).run (pg.handler 0) s).1).said =
        (FlagMap.answer router pg s.table (.put body now) name user).1 ∧
      ((router.setFeatureFlag name body now user).run (pg.handler 0) s).2.table =
        (FlagMap.answer router pg s.table (.put body now) name user).2 ∧
      ApiCoupling router.service
        ((router.setFeatureFlag name body now user).run (pg.handler 0) s).2 := by
  rw [router.setFeatureFlag_run, setFeatureFlag_snd]
  set s' := (pg.handler 0).log
    (.info "feature_flag.set" [("name", .str name.val), ("enabled", .bool body.enabled)]) s
  have h' : ApiCoupling router.service s' := h.log _
  by_cases htakes : pg.takes s.table (user.tenantId, name.val) user.userId = true
  · have hwrite : Writable pg s' (user.tenantId, name.val) user.userId :=
      Postgres.takes_iff.mp htakes
    obtain ⟨-, htable, hcoupling⟩ :=
      call_refines pg.zone 0 ⟨name, user, .set body.enabled now⟩ h'.coupling
    rw [router.service.setFlag_run_taken ⟨name, user, .get⟩ body.enabled now hwrite]
    simp only [FlagMap.answer, if_pos htakes]
    refine ⟨?_, htable, hcoupling, fun key hrow => ?_⟩
    · rw [router.service.setFlag_run pg.zone 0 s' ⟨name, user, .get⟩]
      rfl
    · by_cases hkey : key = (user.tenantId, name.val)
      · exact hkey ▸ ⟨hwrite.1, hwrite.2.1⟩
      · have hsame := (congrFun htable key).trans (Call.onMap_of_ne _ s.table hkey)
        exact h.held key fun hnone => hrow (hsame.trans hnone)
  · have hwrite : ¬ Writable pg s' (user.tenantId, name.val) user.userId :=
      fun hwrite => htakes (Postgres.takes_iff.mpr hwrite)
    rw [router.service.setFlag_run_refused ⟨name, user, .get⟩ body.enabled now hwrite]
    simp only [FlagMap.answer, if_neg htakes]
    exact ⟨rfl, rfl, h'⟩

/-- A request is answered as the map answers it, and keeps the coupling. -/
theorem respond_refines (pg : Postgres) (h : ApiCoupling router.service s) (req : ApiRequest) :
    (respond (pg.handler 0) (router.route req) req.tenantId req.userId s).1.said =
        (FlagMap.respond router pg s.table req).1 ∧
      (respond (pg.handler 0) (router.route req) req.tenantId req.userId s).2.table =
        (FlagMap.respond router pg s.table req).2 ∧
      ApiCoupling router.service
        (respond (pg.handler 0) (router.route req) req.tenantId req.userId s).2 := by
  obtain ⟨verb, name, tenantId, userId⟩ := req
  simp only [respond, FlagMap.respond]
  cases userDetails tenantId userId with
  | error e => exact ⟨rfl, rfl, h⟩
  | ok user =>
    cases verb with
    | get =>
      obtain ⟨hsaid, htable, hcoupling⟩ := get_answers pg h name user
      exact ⟨hsaid, htable.trans (FlagMap.answer_get_snd ..).symm, hcoupling⟩
    | put body now => exact put_answers h name user body now

end

end PolyrepoTemplate
