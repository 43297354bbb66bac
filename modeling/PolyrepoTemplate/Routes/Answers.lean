import PolyrepoTemplate.Async.Ends
import PolyrepoTemplate.Routes.Api

namespace PolyrepoTemplate

open Async

abbrev StoreAnswer := Awaited StoreOp StoreOp.Res Exc

namespace FeatureFlagService

def loadResult (name : String) : Except Exc (Option FeatureFlagRow) → Except Exc FeatureFlag
  | .error e => .error e
  | .ok none => .error (.featureFlagNotFound name)
  | .ok (some row) => validated (rowToFlag row)

def loadRecords (name : String) : Except Exc (Option FeatureFlagRow) → List Emission
  | .ok none => [.info "feature_flag.missing" [("name", .str name)]]
  | _ => []

section
variable {svc : FeatureFlagService} {name : String} {user : UserDetails}
  {events : List StoreAnswer} {outputs : List Emission} {r : Except Exc FeatureFlag}

theorem loadFlag_ends : (loadFlag name user).Ends events outputs r ↔
    ∃ loaded, events = [⟨.sessionGet (user.tenantId, name), loaded⟩] ∧
      outputs = loadRecords name loaded ∧ r = loadResult name loaded := by
  have hload : loadFlag name user = .await (.sessionGet (user.tenantId, name)) fun loaded =>
      .writes (loadRecords name loaded) (loadResult name loaded) := by
    apply congrArg (Coro.await (StoreOp.sessionGet (user.tenantId, name)))
    funext loaded
    rcases loaded with e | _ | row
    · rfl
    · rfl
    · rfl
  rw [hload]
  constructor
  · rintro ⟨loaded, rest, rfl, h⟩
    obtain ⟨rfl, rfl, rfl⟩ := Coro.ends_writes.mp h
    exact ⟨loaded, rfl, rfl, rfl⟩
  · rintro ⟨loaded, rfl, rfl, rfl⟩
    exact ⟨loaded, [], rfl, Coro.ends_writes.mpr ⟨rfl, rfl, rfl⟩⟩

/-- A session is closed however its block ends, and an exception of closing it wins. -/
theorem createSession_ends {α : Type} {body : ServiceM α} {r : Except Exc α} :
    (createSession body).Ends events outputs r ↔ ∃ r' es closed,
      events = es ++ [⟨.sessionClose, closed⟩] ∧ body.Ends es outputs r' ∧
        r = closed.bind fun _ => r' := by
  have hclose {r' : Except Exc α} {es ms} :
      ((Coro.ofAnswer r').tryFinally (awaitStore .sessionClose)).Ends es ms r ↔
        ∃ closed, es = [⟨.sessionClose, closed⟩] ∧ ms = [] ∧ r = closed.bind fun _ => r' := by
    rw [Coro.tryFinally_ofAnswer]
    constructor
    · rintro ⟨closed, rest, rfl, h⟩
      rcases closed with e | u
      · obtain ⟨rfl, rfl, rfl⟩ := h
        exact ⟨_, rfl, rfl, rfl⟩
      · obtain ⟨rfl, rfl, rfl⟩ := Coro.ends_ofAnswer.mp h
        exact ⟨_, rfl, rfl, rfl⟩
    · rintro ⟨closed, rfl, rfl, rfl⟩
      refine ⟨closed, [], rfl, ?_⟩
      rcases closed with e | u
      · exact ⟨rfl, rfl, rfl⟩
      · exact Coro.ends_ofAnswer.mpr ⟨rfl, rfl, rfl⟩
  rw [createSession, Coro.ends_tryFinally]
  constructor
  · rintro ⟨r', es, es', ms, ms', rfl, rfl, hbody, hfin⟩
    obtain ⟨closed, rfl, rfl, rfl⟩ := hclose.mp hfin
    exact ⟨r', es, closed, rfl, by simpa using hbody, rfl⟩
  · rintro ⟨r', es, closed, rfl, hbody, rfl⟩
    exact ⟨r', es, _, outputs, [], rfl, by simp, hbody, hclose.mpr ⟨closed, rfl, rfl, rfl⟩⟩

theorem writeCache_ends {key : String} {flag : FeatureFlag} {r : Except Exc Unit} :
    (svc.writeCache key flag).Ends events outputs r ↔
      events = [⟨.setString key (svc.json.dumpJson flag) svc.config.cacheTtlSeconds, r⟩] ∧
        outputs = [] := Coro.ends_call

end

inductive Got (svc : FeatureFlagService) (name : String) (user : UserDetails) :
    List StoreAnswer → List Emission → Except Exc FeatureFlag → Prop where
  | down (e : Exc) : Got svc name user [⟨.getString (cacheKey user.tenantId name), .error e⟩]
      [.readsTotalInc] (.error e)
  | hit (text : String) :
      Got svc name user [⟨.getString (cacheKey user.tenantId name), .ok (some text)⟩]
        [.readsTotalInc, .info "feature_flag.cache.hit" [("name", .str name)]]
        (validated (svc.json.validateJson text))
  | unloaded {loaded : Except Exc (Option FeatureFlagRow)} {closed : Except Exc Unit} {e : Exc}
      (h : (closed.bind fun _ => loadResult name loaded) = .error e) :
      Got svc name user [⟨.getString (cacheKey user.tenantId name), .ok none⟩,
          ⟨.sessionGet (user.tenantId, name), loaded⟩, ⟨.sessionClose, closed⟩]
        (.readsTotalInc :: .info "feature_flag.cache.miss" [("name", .str name)] ::
          loadRecords name loaded) (.error e)
  | uncached {row : FeatureFlagRow} {flag : FeatureFlag} (h : rowToFlag row = .ok flag) (e : Exc) :
      Got svc name user [⟨.getString (cacheKey user.tenantId name), .ok none⟩,
          ⟨.sessionGet (user.tenantId, name), .ok (some row)⟩, ⟨.sessionClose, .ok ()⟩,
          ⟨.setString (cacheKey user.tenantId name) (svc.json.dumpJson flag)
            svc.config.cacheTtlSeconds, .error e⟩]
        [.readsTotalInc, .info "feature_flag.cache.miss" [("name", .str name)]] (.error e)
  | loaded {row : FeatureFlagRow} {flag : FeatureFlag} (h : rowToFlag row = .ok flag) :
      Got svc name user [⟨.getString (cacheKey user.tenantId name), .ok none⟩,
          ⟨.sessionGet (user.tenantId, name), .ok (some row)⟩, ⟨.sessionClose, .ok ()⟩,
          ⟨.setString (cacheKey user.tenantId name) (svc.json.dumpJson flag)
            svc.config.cacheTtlSeconds, .ok ()⟩]
        [.readsTotalInc, .info "feature_flag.cache.miss" [("name", .str name)]] (.ok flag)

inductive Put (svc : FeatureFlagService) (user : UserDetails) (flag : FeatureFlag) :
    List StoreAnswer → List Emission → Except Exc FeatureFlag → Prop where
  | down {e e' : Exc} {closed : Except Exc Unit}
      (h : (closed.bind fun _ => (.error e : Except Exc Unit)) = .error e') : Put svc user flag
        [⟨.sessionGet (user.tenantId, flag.name), .error e⟩, ⟨.sessionClose, closed⟩] [] (.error e')
  | unstored (row : Option FeatureFlagRow) {committed closed : Except Exc Unit} {e : Exc}
      (h : (closed.bind fun _ => committed) = .error e) :
      Put svc user flag [⟨.sessionGet (user.tenantId, flag.name), .ok row⟩,
          ⟨.sessionCommit (upsert flag.name flag.enabled user flag.updatedAt row), committed⟩,
          ⟨.sessionClose, closed⟩] [] (.error e)
  | uncached (row : Option FeatureFlagRow) (e : Exc) :
      Put svc user flag [⟨.sessionGet (user.tenantId, flag.name), .ok row⟩,
          ⟨.sessionCommit (upsert flag.name flag.enabled user flag.updatedAt row), .ok ()⟩,
          ⟨.sessionClose, .ok ()⟩, ⟨.setString (cacheKey user.tenantId flag.name)
            (svc.json.dumpJson flag) svc.config.cacheTtlSeconds, .error e⟩] [] (.error e)
  | stored (row : Option FeatureFlagRow) :
      Put svc user flag [⟨.sessionGet (user.tenantId, flag.name), .ok row⟩,
          ⟨.sessionCommit (upsert flag.name flag.enabled user flag.updatedAt row), .ok ()⟩,
          ⟨.sessionClose, .ok ()⟩, ⟨.setString (cacheKey user.tenantId flag.name)
            (svc.json.dumpJson flag) svc.config.cacheTtlSeconds, .ok ()⟩]
        [.writesTotalInc, .info "feature_flag.written"
          [("name", .str flag.name), ("enabled", .bool flag.enabled)]] (.ok flag)

section
variable {svc : FeatureFlagService} {name : String} {user : UserDetails}
  {events : List StoreAnswer} {outputs : List Emission} {r : Except Exc FeatureFlag}

theorem validated_eq_ok {result : Except ValidationError FeatureFlag} {flag : FeatureFlag}
    (h : validated result = .ok flag) : result = .ok flag := by
  cases result with
  | error e => cases h
  | ok flag' =>
    cases h
    rfl

theorem loadResult_eq_ok {loaded : Except Exc (Option FeatureFlagRow)} {flag : FeatureFlag}
    (h : loadResult name loaded = .ok flag) :
    ∃ row, loaded = .ok (some row) ∧ rowToFlag row = .ok flag := by
  rcases loaded with e | _ | row
  · cases h
  · cases h
  · exact ⟨row, rfl, validated_eq_ok h⟩

theorem bind_eq_ok {α : Type} {closed : Except Exc Unit} {r : Except Exc α} {a : α}
    (h : (closed.bind fun _ => r) = .ok a) : closed = .ok () ∧ r = .ok a := by
  rcases closed with e | u
  · cases h
  · exact ⟨rfl, h⟩

theorem getFlag_got (h : (svc.getFlag name user).Ends events outputs r) :
    Got svc name user events outputs r := by
  obtain ⟨outputs, rfl, got, events, rfl, h⟩ := h
  rcases got with e | _ | text
  · obtain ⟨rfl, rfl, rfl⟩ := h
    exact .down e
  · obtain ⟨outputs, rfl, h⟩ := h
    change ((createSession (loadFlag name user)).bind fun flag =>
      (svc.writeCache (cacheKey user.tenantId name) flag).bind fun _ => .pure flag).Ends _ _ _ at h
    obtain ⟨r', es, es', ms, ms', rfl, rfl, hsession, hrest⟩ := Coro.ends_bind.mp h
    obtain ⟨r'', es, closed, rfl, hload, rfl⟩ := createSession_ends.mp hsession
    obtain ⟨loaded, rfl, rfl, rfl⟩ := loadFlag_ends.mp hload
    cases hresult : closed.bind fun _ => loadResult name loaded with
    | error e =>
      rw [hresult] at hrest
      obtain ⟨rfl, rfl, rfl⟩ := hrest
      rw [List.append_nil, List.append_nil]
      exact .unloaded hresult
    | ok flag =>
      rw [hresult] at hrest
      obtain ⟨rfl, hflag⟩ := bind_eq_ok hresult
      obtain ⟨row, rfl, hrow⟩ := loadResult_eq_ok hflag
      change ((svc.writeCache (cacheKey user.tenantId name) flag).bind fun _ =>
        .pure flag).Ends _ _ _ at hrest
      obtain ⟨written, es, es', ms, ms', rfl, rfl, hwrite, hlast⟩ := Coro.ends_bind.mp hrest
      obtain ⟨rfl, rfl⟩ := writeCache_ends.mp hwrite
      rcases written with e | u
      · obtain ⟨rfl, rfl, rfl⟩ := hlast
        exact .uncached hrow e
      · obtain ⟨rfl, rfl, rfl⟩ := hlast
        exact .loaded hrow
  · obtain ⟨outputs, rfl, h⟩ := h
    obtain ⟨rfl, rfl, rfl⟩ := Coro.ends_ofAnswer.mp h
    exact .hit text

theorem setFlag_put {flag : FeatureFlag} (hname : flag.name = name)
    (huser : flag.updatedByUserId = user.userId)
    (h : (svc.setFlag name flag.enabled user flag.updatedAt).Ends events outputs r) :
    Put svc user flag events outputs r := by
  subst hname
  have hvalid : FeatureFlag.validate flag.name flag.enabled flag.updatedAt user.userId =
      .ok flag := by
    rw [← huser]
    exact FeatureFlag.validate_ok flag.name_minLength flag.updatedByUserId_minLength
  obtain ⟨stored, es, es', ms, ms', rfl, rfl, hsession, hrest⟩ := Coro.ends_bind.mp h
  obtain ⟨r', es, closed, rfl, hstore, rfl⟩ := createSession_ends.mp hsession
  obtain ⟨loaded, rest, rfl, hstore⟩ := hstore
  rcases loaded with e | row
  · obtain ⟨rfl, rfl, rfl⟩ := hstore
    rcases closed with e' | u
    · obtain ⟨rfl, rfl, rfl⟩ := hrest
      exact .down rfl
    · obtain ⟨rfl, rfl, rfl⟩ := hrest
      exact .down rfl
  · obtain ⟨rfl, rfl⟩ := Coro.ends_call.mp hstore
    cases hresult : closed.bind fun _ => r' with
    | error e =>
      rw [hresult] at hrest
      obtain ⟨rfl, rfl, rfl⟩ := hrest
      exact .unstored row hresult
    | ok u =>
      rw [hresult] at hrest
      obtain ⟨rfl, rfl⟩ := bind_eq_ok hresult
      change ((ofValidation (FeatureFlag.validate flag.name flag.enabled flag.updatedAt
        user.userId)).bind _).Ends _ _ _ at hrest
      rw [hvalid] at hrest
      change ((svc.writeCache (cacheKey user.tenantId flag.name) flag).bind fun _ =>
        .emit .writesTotalInc (.emit (.info "feature_flag.written"
          [("name", .str flag.name), ("enabled", .bool flag.enabled)])
            (.pure flag))).Ends _ _ _ at hrest
      obtain ⟨written, es, es', ms, ms', rfl, rfl, hwrite, hlast⟩ := Coro.ends_bind.mp hrest
      obtain ⟨rfl, rfl⟩ := writeCache_ends.mp hwrite
      rcases written with e | u
      · obtain ⟨rfl, rfl, rfl⟩ := hlast
        exact .uncached row e
      · obtain ⟨_, rfl, _, rfl, rfl, rfl, rfl⟩ := hlast
        exact .stored row

end

end FeatureFlagService

def opensSession : StoreAnswer → Bool
  | ⟨.sessionGet _, _⟩ => true
  | _ => false

def closesSession : StoreAnswer → Bool
  | ⟨.sessionClose, _⟩ => true
  | _ => false

def FeatureFlagService.Corrupt (svc : FeatureFlagService) (events : List StoreAnswer)
    (e : ValidationError) : Prop :=
  (∃ key text, ⟨.getString key, .ok (some text)⟩ ∈ events ∧
    svc.json.validateJson text = .error e) ∨
  ∃ key row, ⟨.sessionGet key, .ok (some row)⟩ ∈ events ∧ rowToFlag row = .error e

def Verb.reads : Verb → ℕ
  | .get => 1
  | .put .. => 0

def Verb.writes : Verb → Except Exc FeatureFlag → ℕ
  | .put .., .ok _ => 1
  | _, _ => 0

@[simp] def OwnOp (svc : FeatureFlagService) (verb : Verb) (name : String) (user : UserDetails)
    (events : List StoreAnswer) : StoreOp → Prop
  | .getString key => key = cacheKey user.tenantId name
  | .setString key _ ttlSeconds =>
    key = cacheKey user.tenantId name ∧ ttlSeconds = svc.config.cacheTtlSeconds
  | .sessionGet key => key = (user.tenantId, name)
  | .sessionCommit work => ∃ body now row, verb = .put body now ∧
    ⟨.sessionGet (user.tenantId, name), .ok row⟩ ∈ events ∧
    work = FeatureFlagService.upsert name body.enabled user now row
  | .sessionClose => True

/-- The cache is written once the session is closed, with what is in the table. -/
@[simp] def PublishesRow (svc : FeatureFlagService) (name : String) (user : UserDetails)
    (events : List StoreAnswer) : StoreOp → Prop
  | .setString _ value _ => ⟨.sessionClose, .ok ()⟩ ∈ events ∧
    ∃ flag, value = svc.json.dumpJson flag ∧
      ((∃ row, ⟨.sessionGet (user.tenantId, name), .ok (some row)⟩ ∈ events ∧
        rowToFlag row = .ok flag) ∨
      ∃ work, ⟨.sessionCommit work, .ok ()⟩ ∈ events ∧ flag.columns = work.row.columns)
  | _ => True

/-- The outcome of a call, and all it has done, by its answers. -/
structure Accounted (svc : FeatureFlagService) (verb : Verb) (name : String) (user : UserDetails)
    (events : List StoreAnswer) (outputs : List Emission) (r : Except Exc FeatureFlag) :
    Prop where
  missing : r = .error (.featureFlagNotFound name) ↔
    ⟨.getString (cacheKey user.tenantId name), .ok none⟩ ∈ events ∧
    ⟨.sessionGet (user.tenantId, name), .ok none⟩ ∈ events ∧ ⟨.sessionClose, .ok ()⟩ ∈ events
  /-- A flag is what the cache or the table has, or what is stored in both. -/
  found : ∀ flag, r = .ok flag → match verb with
    | .get => (∃ text, ⟨.getString (cacheKey user.tenantId name), .ok (some text)⟩ ∈ events ∧
          svc.json.validateJson text = .ok flag) ∨
        (∃ row, ⟨.sessionGet (user.tenantId, name), .ok (some row)⟩ ∈ events ∧
          rowToFlag row = .ok flag) ∧
        ⟨.setString (cacheKey user.tenantId name) (svc.json.dumpJson flag)
          svc.config.cacheTtlSeconds, .ok ()⟩ ∈ events
    | .put body now => flag.name = name ∧ flag.columns = ⟨body.enabled, now.instant, user.userId⟩ ∧
        (∃ row, ⟨.sessionGet (user.tenantId, name), .ok row⟩ ∈ events ∧
          ⟨.sessionCommit (FeatureFlagService.upsert name body.enabled user now row), .ok ()⟩ ∈
            events) ∧
        ⟨.setString (cacheKey user.tenantId name) (svc.json.dumpJson flag)
          svc.config.cacheTtlSeconds, .ok ()⟩ ∈ events
  /-- Nothing is raised that no store raised, but for what was read. -/
  raised : ∀ e, r = .error e → e = .featureFlagNotFound name ∨ (∃ op, ⟨op, .error e⟩ ∈ events) ∨
    ∃ v, e = .validationError v ∧ svc.Corrupt events v
  /-- And a failure is not hidden. -/
  failed : ∀ event ∈ events, ∀ e, event.2 = .error e → ∃ e', r = .error e'
  own : ∀ event ∈ events, OwnOp svc verb name user events event.1
  published : ∀ event ∈ events, PublishesRow svc name user events event.1
  closed : events.countP opensSession = events.countP closesSession
  brief : events.length ≤ 4
  reads : outputs.count .readsTotalInc = verb.reads
  writes : outputs.count .writesTotalInc = verb.writes r

/-- The stores raise exceptions of their own, not the one of the service. -/
def Foreign (events : List StoreAnswer) : Prop :=
  ∀ op name, ⟨op, .error (.featureFlagNotFound name)⟩ ∉ events

section
variable {svc : FeatureFlagService} {name : String} {user : UserDetails}
  {events : List StoreAnswer} {outputs : List Emission} {r : Except Exc FeatureFlag}

theorem validated_eq_error {result : Except ValidationError FeatureFlag} {e : Exc}
    (h : validated result = .error e) : ∃ v, e = .validationError v ∧ result = .error v := by
  cases result with
  | error v =>
    cases h
    exact ⟨v, rfl, rfl⟩
  | ok flag => cases h

theorem finally_cases {α : Type} {closed : Except Exc Unit} {r : Except Exc α} {e : Exc}
    (h : (closed.bind fun _ => r) = .error e) :
    closed = .error e ∨ closed = .ok () ∧ r = .error e := by
  rcases closed with e' | u
  · exact .inl (Except.error.inj h ▸ rfl)
  · exact .inr ⟨rfl, h⟩

theorem unloaded_cases {loaded : Except Exc (Option FeatureFlagRow)} {closed : Except Exc Unit}
    {e : Exc} (h : (closed.bind fun _ => FeatureFlagService.loadResult name loaded) = .error e) :
    closed = .error e ∨ loaded = .error e ∨
      (closed = .ok () ∧ loaded = .ok none ∧ e = .featureFlagNotFound name) ∨
      ∃ row v, loaded = .ok (some row) ∧ e = .validationError v ∧ rowToFlag row = .error v := by
  obtain rfl | ⟨rfl, h⟩ := finally_cases h
  · exact .inl rfl
  · rcases loaded with e' | _ | row
    · obtain rfl := Except.error.inj h
      exact .inr (.inl rfl)
    · obtain rfl := Except.error.inj h
      exact .inr (.inr (.inl ⟨rfl, rfl, rfl⟩))
    · obtain ⟨v, rfl, hrow⟩ := validated_eq_error h
      exact .inr (.inr (.inr ⟨row, v, rfl, rfl, hrow⟩))

theorem Foreign.ne_missing (h : Foreign events) {op : StoreOp} {e : Exc}
    (he : ⟨op, .error e⟩ ∈ events) : e ≠ .featureFlagNotFound name := by
  rintro rfl
  exact h op name he

theorem Accounted.of_raised {verb : Verb} {op : StoreOp} {e : Exc} (hforeign : Foreign events)
    (hop : ⟨op, .error e⟩ ∈ events)
    (hexists : ¬ (⟨.getString (cacheKey user.tenantId name), .ok none⟩ ∈ events ∧
      ⟨.sessionGet (user.tenantId, name), .ok none⟩ ∈ events ∧ ⟨.sessionClose, .ok ()⟩ ∈ events))
    (hown : ∀ event ∈ events, OwnOp svc verb name user events event.1)
    (hpublished : ∀ event ∈ events, PublishesRow svc name user events event.1)
    (hclosed : events.countP opensSession = events.countP closesSession)
    (hbrief : events.length ≤ 4) (hreads : outputs.count .readsTotalInc = verb.reads)
    (hwrites : outputs.count .writesTotalInc = 0) :
    Accounted svc verb name user events outputs (.error e) where
  missing := iff_of_false (fun he => hforeign.ne_missing hop (Except.error.inj he)) hexists
  found _ hflag := by cases hflag
  raised _ he := .inr (.inl ⟨op, Except.error.inj he ▸ hop⟩)
  failed _ _ _ _ := ⟨e, rfl⟩
  own := hown
  published := hpublished
  closed := hclosed
  brief := hbrief
  reads := hreads
  writes := by cases verb <;> exact hwrites

theorem accounted_hit (text : String) :
    Accounted svc .get name user [⟨.getString (cacheKey user.tenantId name), .ok (some text)⟩]
      [.readsTotalInc, .info "feature_flag.cache.hit" [("name", .str name)]]
      (validated (svc.json.validateJson text)) where
  missing := by
    simp only [List.mem_singleton, Sigma.mk.injEq, reduceCtorEq, false_and, and_false, iff_false]
    intro h
    obtain ⟨v, hv, -⟩ := validated_eq_error h
    cases hv
  found flag hflag := .inl ⟨text, List.mem_singleton_self _,
    FeatureFlagService.validated_eq_ok hflag⟩
  raised e he := by
    obtain ⟨v, rfl, hv⟩ := validated_eq_error he
    exact .inr (.inr ⟨v, rfl, .inl ⟨_, text, List.mem_singleton_self _, hv⟩⟩)
  failed := by simp
  own := by simp
  published := by simp
  closed := rfl
  brief := by simp
  reads := rfl
  writes := rfl

theorem accounted_unloaded {loaded : Except Exc (Option FeatureFlagRow)}
    {closed : Except Exc Unit} {e : Exc}
    (h : (closed.bind fun _ => FeatureFlagService.loadResult name loaded) = .error e)
    (hforeign : Foreign [⟨.getString (cacheKey user.tenantId name), .ok none⟩,
      ⟨.sessionGet (user.tenantId, name), loaded⟩, ⟨.sessionClose, closed⟩]) :
    Accounted svc .get name user [⟨.getString (cacheKey user.tenantId name), .ok none⟩,
      ⟨.sessionGet (user.tenantId, name), loaded⟩, ⟨.sessionClose, closed⟩]
      (.readsTotalInc :: .info "feature_flag.cache.miss" [("name", .str name)] ::
        FeatureFlagService.loadRecords name loaded) (.error e) where
  missing := by
    constructor
    · intro he
      obtain rfl := Except.error.inj he
      obtain rfl | rfl | ⟨rfl, rfl, -⟩ | ⟨row, v, -, hv, -⟩ := unloaded_cases h
      · exact absurd rfl (hforeign.ne_missing (List.mem_of_mem_getLast? rfl))
      · exact absurd rfl (hforeign.ne_missing (List.mem_cons_of_mem _ List.mem_cons_self))
      · simp
      · cases hv
    · intro hmem
      obtain ⟨rfl, rfl⟩ : .ok none = loaded ∧ .ok () = closed := by simpa using hmem
      obtain rfl : Exc.featureFlagNotFound name = e := Except.error.inj h
      rfl
  found := by simp
  raised e' he := by
    obtain rfl := Except.error.inj he
    obtain rfl | rfl | ⟨-, -, rfl⟩ | ⟨row, v, rfl, rfl, hrow⟩ := unloaded_cases h
    · exact .inr (.inl ⟨.sessionClose, by simp⟩)
    · exact .inr (.inl ⟨.sessionGet (user.tenantId, name), by simp⟩)
    · exact .inl rfl
    · exact .inr (.inr ⟨v, rfl, .inr ⟨(user.tenantId, name), row, by simp, hrow⟩⟩)
  failed := by simp
  own := by simp
  published := by simp
  closed := rfl
  brief := by simp
  reads := by rcases loaded with e | _ | row <;> rfl
  writes := by rcases loaded with e | _ | row <;> rfl

theorem FeatureFlagService.Got.accounted (h : svc.Got name user events outputs r)
    (hforeign : Foreign events) : Accounted svc .get name user events outputs r := by
  cases h with
  | down e =>
    apply Accounted.of_raised hforeign (List.mem_singleton_self _)
    · simp
    · simp
    · simp
    · rfl
    · simp
    · rfl
    · rfl
  | hit text => exact accounted_hit text
  | unloaded h => exact accounted_unloaded h hforeign
  | uncached h e =>
    apply Accounted.of_raised hforeign (List.mem_of_mem_getLast? rfl)
    · simp
    · simp
    · simpa using ⟨_, rfl, h⟩
    · rfl
    · simp
    · rfl
    · rfl
  | loaded h =>
    constructor
    · simp
    · rintro flag ⟨⟩
      exact .inr ⟨⟨_, by simp, h⟩, by simp⟩
    · simp
    · simp
    · simp
    · simpa using ⟨_, rfl, h⟩
    · rfl
    · simp
    · rfl
    · rfl

theorem upsert_columns (enabled : Bool) (now : Datetime) (row : Option FeatureFlagRow) :
    (FeatureFlagService.upsert name enabled user now row).row.columns =
      ⟨enabled, now.instant, user.userId⟩ := by
  cases row <;> rfl

theorem FeatureFlagService.Put.accounted {flag : FeatureFlag}
    (h : svc.Put user flag events outputs r) (huser : flag.updatedByUserId = user.userId)
    (hforeign : Foreign events) :
    Accounted svc (.put ⟨flag.enabled⟩ flag.updatedAt) flag.name user events outputs r := by
  have hcolumns (row : Option FeatureFlagRow) : flag.columns =
      (upsert flag.name flag.enabled user flag.updatedAt row).row.columns := by
    rw [upsert_columns, ← huser]
    rfl
  cases h with
  | @down e e' closed h =>
    obtain ⟨op, hop⟩ : ∃ op, ⟨op, .error e'⟩ ∈
        [(⟨.sessionGet (user.tenantId, flag.name), .error e⟩ : StoreAnswer),
          ⟨.sessionClose, closed⟩] := by
      obtain rfl | ⟨rfl, h⟩ := finally_cases h
      · exact ⟨.sessionClose, by simp⟩
      · exact ⟨.sessionGet (user.tenantId, flag.name), by simp [Except.error.inj h]⟩
    apply Accounted.of_raised hforeign hop
    · simp
    · simp
    · simp
    · rfl
    · simp
    · rfl
    · rfl
  | @unstored row committed closed e h =>
    obtain ⟨op, hop⟩ : ∃ op, ⟨op, .error e⟩ ∈
        [(⟨.sessionGet (user.tenantId, flag.name), .ok row⟩ : StoreAnswer),
          ⟨.sessionCommit (upsert flag.name flag.enabled user flag.updatedAt row), committed⟩,
          ⟨.sessionClose, closed⟩] := by
      obtain rfl | ⟨rfl, rfl⟩ := finally_cases h
      · exact ⟨.sessionClose, by simp⟩
      · exact ⟨.sessionCommit _, List.mem_cons_of_mem _ List.mem_cons_self⟩
    apply Accounted.of_raised hforeign hop
    · simp
    · simp
    · simp
    · rfl
    · simp
    · rfl
    · rfl
  | uncached row e =>
    apply Accounted.of_raised hforeign (List.mem_of_mem_getLast? rfl)
    · simp
    · simp
    · simpa using ⟨flag, rfl, .inr (hcolumns row)⟩
    · rfl
    · simp
    · rfl
    · rfl
  | stored row =>
    constructor
    · simp
    · rintro flag' ⟨⟩
      refine ⟨rfl, ?_, ⟨row, by simp, by simp⟩, by simp⟩
      rw [← huser]
      rfl
    · simp
    · simp
    · simp
    · simpa using ⟨flag, rfl, .inr (hcolumns row)⟩
    · rfl
    · simp
    · rfl
    · rfl

end

def ApiRequest.record (req : ApiRequest) : Emission :=
  match req.verb with
  | .get => .info "feature_flag.get" [("name", .str req.name.val)]
  | .put body _ => .info "feature_flag.set"
    [("name", .str req.name.val), ("enabled", .bool body.enabled)]

namespace FeatureFlagRouter

variable (router : FeatureFlagRouter)

def request (req : ApiRequest) : ServiceM Reply :=
  match userDetails req.tenantId req.userId with
  | .error e => return .requestValidationError e
  | .ok user => do
    let outcome ← (router.route req user).attempt
    return .ofRoute outcome

theorem request_run (h : Handler StoreOp StoreOp.Res Emission Exc Stores) (req : ApiRequest)
    (s : Stores) : (router.request req).run h s =
      (.ok (respond h (router.route req) req.tenantId req.userId s).1,
        (respond h (router.route req) req.tenantId req.userId s).2) := by
  unfold request respond
  cases userDetails req.tenantId req.userId with
  | error e => rfl
  | ok user =>
    dsimp only
    rw [Coro.bind_eq, Coro.run_bind, Coro.run_attempt]
    rfl

def outcome : Verb → Except Exc FeatureFlag → Except Exc (Except HTTPException FeatureFlag)
  | .get, .error (.featureFlagNotFound name) =>
    .ok (.error ⟨404, router.featureFlagNotFoundText name⟩)
  | _, r => r.map .ok

variable {router} {req : ApiRequest} {user : UserDetails} {events : List StoreAnswer}
  {outputs : List Emission}

theorem route_ends {result : Except Exc (Except HTTPException FeatureFlag)}
    (h : (router.route req user).Ends events outputs result) (hforeign : Foreign events) :
    ∃ r records,
      Accounted router.service req.verb req.name.val user events records r ∧
      outputs = req.record :: records ∧ result = router.outcome req.verb r := by
  obtain ⟨verb, name, tenantId, userId⟩ := req
  cases verb with
  | get =>
    obtain ⟨records, rfl, h⟩ := h
    obtain ⟨r, es, es', ms, ms', rfl, rfl, hcall, hlast⟩ := Coro.ends_attempt_bind.mp h
    obtain ⟨rfl, rfl, rfl⟩ : es' = [] ∧ ms' = [] ∧ result = router.outcome .get r := by
      rcases r with (_ | _ | _ | _) | flag <;> exact hlast
    rw [List.append_nil] at hforeign ⊢
    exact ⟨r, ms, (FeatureFlagService.getFlag_got hcall).accounted hforeign,
      congrArg _ (List.append_nil ms), rfl⟩
  | put body now =>
    obtain ⟨records, rfl, h⟩ := h
    change ((router.service.setFlag name.val body.enabled user now).bind fun flag =>
      .pure (.ok flag)).Ends events records result at h
    obtain ⟨r, es, es', ms, ms', rfl, rfl, hcall, hlast⟩ := Coro.ends_bind.mp h
    obtain ⟨rfl, rfl, rfl⟩ : es' = [] ∧ ms' = [] ∧
        result = router.outcome (.put body now) r := by
      rcases r with e | flag <;> exact hlast
    rw [List.append_nil] at hforeign ⊢
    let flag : FeatureFlag :=
      ⟨name.val, body.enabled, now, user.userId, name.minLength, user.userId_minLength⟩
    have hput : router.service.Put user flag es ms r :=
      FeatureFlagService.setFlag_put rfl rfl hcall
    exact ⟨r, ms, hput.accounted rfl hforeign, congrArg _ (List.append_nil ms), rfl⟩

end FeatureFlagRouter

/-- A request without a caller is 422 and asks the stores nothing; any other is accounted
for by its answers. -/
theorem FeatureFlagRouter.request_ends {router : FeatureFlagRouter} {req : ApiRequest}
    {events : List StoreAnswer} {outputs : List Emission} {reply : Reply}
    (h : (router.request req).Ends events outputs (.ok reply)) (hforeign : Foreign events) :
    match userDetails req.tenantId req.userId with
    | .error e => reply = .requestValidationError e ∧ events = [] ∧ outputs = []
    | .ok user => ∃ r records,
      Accounted router.service req.verb req.name.val user events records r ∧
        outputs = req.record :: records ∧ reply = .ofRoute (router.outcome req.verb r) := by
  unfold request at h
  cases huser : userDetails req.tenantId req.userId with
  | error e =>
    rw [huser] at h
    obtain ⟨hevents, houtputs, hreply⟩ := h
    exact ⟨Except.ok.inj hreply, hevents, houtputs⟩
  | ok user =>
    rw [huser] at h
    obtain ⟨result, es, es', ms, ms', rfl, rfl, hroute, hlast⟩ := Coro.ends_attempt_bind.mp h
    obtain ⟨rfl, rfl, hreply⟩ := hlast
    rw [List.append_nil] at hforeign ⊢
    obtain ⟨r, records, haccounted, rfl, rfl⟩ := route_ends hroute hforeign
    exact ⟨r, records, haccounted, List.append_nil _, Except.ok.inj hreply⟩

/-- Any number of requests at once, in any order of their steps, each answered anything by
the stores: a request without a caller is 422 and asks them nothing, and any other is
accounted for by its own answers. -/
theorem replies_accounted {ι : Type} [DecidableEq ι] (router : FeatureFlagRouter)
    (req : ι → ApiRequest) {s : Pool ι (Journaled StoreOp StoreOp.Res Emission Exc Reply) Unit}
    {ls : List (Label ι ((op : StoreOp) → Except Exc op.Res) Empty)}
    (hrun : run journaledStep ⟨(), fun i => .start (router.request (req i))⟩ ls = some s) (i : ι)
    (hforeign : Foreign (s.task i).events) {reply : Reply}
    (hend : (s.task i).code = .pure reply) :
    match userDetails (req i).tenantId (req i).userId with
    | .error e => reply = .requestValidationError e ∧ (s.task i).events = [] ∧
      (s.task i).outputs = []
    | .ok user => ∃ r records, Accounted router.service (req i).verb (req i).name.val user
        (s.task i).events records r ∧ (s.task i).outputs = (req i).record :: records ∧
      reply = .ofRoute (router.outcome (req i).verb r) :=
  FeatureFlagRouter.request_ends (ends_of_run hrun (r := .ok reply) hend) hforeign

def emptyStores (committed : Except Exc Unit) : (op : StoreOp) → Except Exc op.Res
  | .getString _ => .ok none
  | .setString _ _ _ => .ok ()
  | .sessionGet _ => .ok none
  | .sessionCommit _ => committed
  | .sessionClose => .ok ()

def darkMode : FlagName := ⟨"dark_mode", by decide⟩

/-- Task 0 reads a flag that the others write, and no commit goes through. -/
def refusedRun : Option (Pool ℕ (Journaled StoreOp StoreOp.Res Emission Exc Reply) Unit) :=
  let answers := emptyStores (.error (.outside (.storeError "DBAPIError")))
  run journaledStep ⟨(), fun i => .start (FeatureFlagRouter.sample.request
      ⟨if i = 0 then .get else .put ⟨true⟩ ⟨7, 0⟩, darkMode, " acme ", "ann"⟩)⟩
    ([0, 0, 1, 1, 0, 0, 1, 0, 0, 1, 0].map (Label.task · answers))

theorem replies_accounted_refused :
    let ann : UserDetails := ⟨"acme", "ann", by decide, by decide⟩
    ∃ s, refusedRun = some s ∧
      (s.task 0).code = .pure (.httpException ⟨404, "Feature flag 'dark_mode' does not exist."⟩) ∧
      (s.task 1).code = .pure (.unhandled (.outside (.storeError "DBAPIError"))) ∧
      (∃ r records, Accounted FeatureFlagRouter.sample.service .get "dark_mode" ann
        (s.task 0).events records r) ∧
      ∃ r records, Accounted FeatureFlagRouter.sample.service (.put ⟨true⟩ ⟨7, 0⟩) "dark_mode" ann
        (s.task 1).events records r := by
  have hdone : refusedRun.isSome = true := rfl
  have hrun := (Option.some_get hdone).symm
  refine ⟨_, hrun, rfl, rfl, ?_, ?_⟩
  · obtain ⟨r, records, h, -, -⟩ :=
      replies_accounted FeatureFlagRouter.sample _ hrun 0 (fun op name => nofun) rfl
    exact ⟨r, records, h⟩
  · obtain ⟨r, records, h, -, -⟩ :=
      replies_accounted FeatureFlagRouter.sample _ hrun 1 (fun op name => nofun) rfl
    exact ⟨r, records, h⟩

end PolyrepoTemplate
