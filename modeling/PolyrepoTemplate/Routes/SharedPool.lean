import Mathlib.Algebra.Order.BigOperators.Group.Finset
import PolyrepoTemplate.Async.Slots
import PolyrepoTemplate.Routes.Answers
import PolyrepoTemplate.Routes.K8sProbeRouter

namespace PolyrepoTemplate

open Async Asgi

/-- A session takes a connection for its first statement, keeps it if that fails, and
gives it back when it is closed. -/
def StoreOp.slot : StoreOp → Slot
  | .getString _ => .outside
  | .setString .. => .outside
  | .sessionGet _ => .take true
  | .sessionCommit _ => .inside
  | .sessionClose => .give

def PingOp.slot : PingOp → Slot
  | .redisPing => .outside
  | .connect => .take false
  | .execute _ => .inside
  | .close => .give

section
variable {svc : FeatureFlagService} {name : String} {user : UserDetails}

theorem createSession_within {α : Type} {body : ServiceM α} {Q : Except Exc α → Bool → ℕ → Prop}
    {held : Bool} {n : ℕ}
    (h : body.Within StoreOp.slot (fun _ _ n => ∃ m, n = m + 1 ∧ ∀ r, Q r false m) held n) :
    (createSession body).Within StoreOp.slot Q held n := by
  refine (Coro.within_part (Coro.tryFinally · (awaitStore .sessionClose)) (fun _ _ => rfl)
    fun _ _ => rfl).mpr (h.mono ?_)
  rintro r held n ⟨m, rfl, hQ⟩
  rw [Coro.tryFinally_ofAnswer]
  refine ⟨m, rfl, trivial, fun closed held' hleads => ?_⟩
  obtain rfl := Slot.leads_give.mp hleads
  rcases closed with e | u
  · exact hQ (.error e)
  · exact Coro.within_ofAnswer.mpr (hQ r)

theorem loadFlag_within {Q : Except Exc FeatureFlag → Bool → ℕ → Prop}
    (h : ∀ r held n, 2 ≤ n → Q r held n) :
    (FeatureFlagService.loadFlag name user).Within StoreOp.slot Q false 4 := by
  refine ⟨3, rfl, rfl, fun loaded held' _ => ?_⟩
  rcases loaded with e | _ | row
  · exact h _ _ _ (by decide)
  · exact ⟨2, rfl, h _ _ _ le_rfl⟩
  · exact Coro.within_ofAnswer.mpr (h _ _ _ (by decide))

theorem storeFlag_within {enabled : Bool} {now : Datetime} {Q : Except Exc Unit → Bool → ℕ → Prop}
    (h : ∀ r held n, 5 ≤ n → Q r held n) :
    (FeatureFlagService.storeFlag name enabled user now).Within StoreOp.slot Q false 7 := by
  refine ⟨6, rfl, rfl, fun loaded held' hleads => ?_⟩
  rcases loaded with e | row
  · exact h _ _ _ (by decide)
  · obtain rfl : held' = true := hleads
    exact ⟨5, rfl, rfl, fun r held' _ => Coro.within_ofAnswer.mpr (h _ _ _ le_rfl)⟩

theorem writeCache_within {key : String} {flag : FeatureFlag}
    {Q : Except Exc Unit → Bool → ℕ → Prop} {n : ℕ} (h : ∀ r, Q r false n) :
    (svc.writeCache key flag).Within StoreOp.slot Q false (n + 1) := by
  refine ⟨n, rfl, rfl, fun r held' hleads => ?_⟩
  obtain rfl := Slot.leads_outside.mp hleads
  exact Coro.within_ofAnswer.mpr (h r)

theorem getFlag_within : (svc.getFlag name user).Within StoreOp.slot
    (fun _ held _ => held = false) false 7 := by
  refine ⟨6, rfl, 5, rfl, rfl, fun got held' hleads => ?_⟩
  obtain rfl := Slot.leads_outside.mp hleads
  rcases got with e | _ | text
  · rfl
  · refine ⟨4, rfl, ?_⟩
    change ((createSession (FeatureFlagService.loadFlag name user)).bind fun flag =>
      (svc.writeCache (cacheKey user.tenantId name) flag).bind fun _ => .pure flag).Within ..
    refine Coro.within_bind.mpr (createSession_within (loadFlag_within fun _ _ n hn => ?_))
    obtain ⟨m, rfl⟩ := Nat.exists_eq_add_of_le' hn
    refine ⟨m + 1, rfl, ?_⟩
    rintro (e | flag)
    · rfl
    · change ((svc.writeCache (cacheKey user.tenantId name) flag).bind
        fun _ => .pure flag).Within ..
      refine Coro.within_bind.mpr (writeCache_within ?_)
      rintro (e | u) <;> rfl
  · exact ⟨4, rfl, Coro.within_ofAnswer.mpr rfl⟩

theorem setFlag_within {enabled : Bool} {now : Datetime} :
    (svc.setFlag name enabled user now).Within StoreOp.slot
      (fun _ held _ => held = false) false 7 := by
  refine Coro.within_bind.mpr (createSession_within (storeFlag_within fun _ _ n hn => ?_))
  obtain ⟨m, rfl⟩ := Nat.exists_eq_add_of_le' hn
  refine ⟨m + 4, rfl, ?_⟩
  rintro (e | u)
  · rfl
  change ((ofValidation (FeatureFlag.validate name enabled now user.userId)).bind fun flag =>
    (svc.writeCache (cacheKey user.tenantId name) flag).bind fun _ =>
      .emit .writesTotalInc (.emit (.info "feature_flag.written"
        [("name", .str name), ("enabled", .bool enabled)]) (.pure flag))).Within ..
  refine Coro.within_bind.mpr (Coro.within_ofAnswer.mpr ?_)
  cases FeatureFlag.validate name enabled now user.userId with
  | error e => rfl
  | ok flag =>
    change ((svc.writeCache (cacheKey user.tenantId name) flag).bind fun _ => _).Within ..
    refine Coro.within_bind.mpr (writeCache_within ?_)
    rintro (e | u)
    · rfl
    · exact ⟨m + 2, rfl, m + 1, rfl, rfl⟩

end

theorem request_within (router : FeatureFlagRouter) (req : ApiRequest) :
    (router.request req).Within StoreOp.slot (fun _ held _ => held = false) false 8 := by
  unfold FeatureFlagRouter.request
  cases userDetails req.tenantId req.userId with
  | error e => rfl
  | ok user =>
    refine Coro.within_attempt_bind.mpr ?_
    change (router.route req user).Within StoreOp.slot (fun _ held _ => held = false) false 8
    obtain ⟨verb, name, tenantId, userId⟩ := req
    cases verb with
    | get =>
      refine ⟨7, rfl, Coro.within_attempt_bind.mpr (getFlag_within.mono ?_)⟩
      rintro (e | flag) held n h
      · cases e <;> exact h
      · exact h
    | put body now =>
      refine ⟨7, rfl, ?_⟩
      change ((router.service.setFlag name.val body.enabled user now).bind fun flag =>
        .pure (Except.ok flag : Except HTTPException FeatureFlag)).Within ..
      refine Coro.within_bind.mpr (setFlag_within.mono ?_)
      rintro (e | flag) held n h <;> exact h

section
variable {Q : Except Raised Unit → Bool → ℕ → Prop} {n : ℕ}

theorem writes_within {ms : List ClientRecord} {r : Except Raised Unit} {held : Bool}
    (hms : ms.length ≤ 1) (h : ∀ m, n ≤ m → Q r held m) :
    (Coro.writes ms r : PingM Unit).Within PingOp.slot Q held (n + 1) := by
  rcases ms with _ | ⟨m, _ | ⟨m', ms⟩⟩
  · exact Coro.within_ofAnswer.mpr (h _ (Nat.le_succ n))
  · exact ⟨n, rfl, Coro.within_ofAnswer.mpr (h n le_rfl)⟩
  · simp at hms

theorem length_failureRecords (event : String) (r : Except Raised Unit) :
    (failureRecords event r).length ≤ 1 := by
  rcases r with (text | text) | u
  · exact le_rfl
  · exact Nat.zero_le 1
  · exact Nat.zero_le 1

theorem length_pongRecords (pong : Except Raised FieldValue) : (pongRecords pong).length ≤ 1 := by
  rcases pong with e | pong
  · exact length_failureRecords _ (.error e)
  · by_cases h : pong = .bool true <;> simp [pongRecords, h]

theorem redisPing_within (h : ∀ r m, n ≤ m → Q r false m) :
    redisPing.Within PingOp.slot Q false (n + 2) := by
  rw [redisPing_eq]
  refine ⟨n + 1, rfl, rfl, fun pong held' hleads => ?_⟩
  obtain rfl := Slot.leads_outside.mp hleads
  exact writes_within (length_pongRecords pong) (h _)

theorem postgresPing_within (h : ∀ r m, n ≤ m → Q r false m) :
    postgresPing.Within PingOp.slot Q false (n + 4) := by
  rw [postgresPing_eq]
  refine ⟨n + 3, rfl, rfl, fun connected held' hleads => ?_⟩
  rcases connected with e | u
  · obtain rfl := Slot.leads_refused.mp hleads
    exact writes_within (length_failureRecords _ _) fun m hm => h _ m (by omega)
  · obtain rfl : held' = true := hleads
    refine ⟨n + 2, rfl, rfl, fun executed held' _ => ?_⟩
    refine ⟨n + 1, rfl, trivial, fun closed held' hleads => ?_⟩
    obtain rfl := Slot.leads_give.mp hleads
    exact writes_within (length_failureRecords _ _) (h _)

end

theorem probe_within (probe : Probe) :
    probe.route.Within PingOp.slot (fun _ held _ => held = false) false 6 := by
  have hunhealthy {detail : String} {pinged : Except Raised Unit} {next : ProbeM} {n : ℕ}
      (hnext : next.Within PingOp.slot (fun _ held _ => held = false) false n) :
      (unlessUnhealthy detail pinged next).Within PingOp.slot
        (fun _ held _ => held = false) false n := by
    rcases pinged with (text | text) | u
    · rfl
    · rfl
    · exact hnext
  cases probe with
  | livez => rfl
  | readyz =>
    refine Coro.within_attempt_bind.mpr (redisPing_within (n := 4) fun r m hm => hunhealthy ?_)
    obtain ⟨m, rfl⟩ := Nat.exists_eq_add_of_le' hm
    exact Coro.within_attempt_bind.mpr (postgresPing_within fun r n _ => hunhealthy rfl)

inductive Endpoint where
  | api
  | probe
  deriving DecidableEq, Repr

namespace Endpoint

abbrev Op : Endpoint → Type
  | .api => StoreOp
  | .probe => PingOp

abbrev Res : (k : Endpoint) → k.Op → Type
  | .api => StoreOp.Res
  | .probe => PingOp.Res

abbrev Record : Endpoint → Type
  | .api => Emission
  | .probe => ClientRecord

abbrev Exc : Endpoint → Type
  | .api => PolyrepoTemplate.Exc
  | .probe => Raised

abbrev Answer : Endpoint → Type
  | .api => Reply
  | .probe => Except Unready K8sProbeResponse

def slot : (k : Endpoint) → k.Op → Slot
  | .api => StoreOp.slot
  | .probe => PingOp.slot

end Endpoint

def FeatureFlagRouter.task (router : FeatureFlagRouter) :
    ApiRequest ⊕ Probe → Work Endpoint.Op Endpoint.Res Endpoint.Record Endpoint.Exc Endpoint.Answer
  | .inl req => ⟨.api, router.request req⟩
  | .inr probe => ⟨.probe, probe.route⟩

theorem task_keeps (router : FeatureFlagRouter) (asked : ApiRequest ⊕ Probe) :
    ∃ n ≤ 8, (router.task asked).Keeps Endpoint.slot false n :=
  match asked with
  | .inl req => ⟨8, le_rfl, request_within router req⟩
  | .inr probe => ⟨6, by decide, probe_within probe⟩

/-- Any number of requests and probes over one pool with at least one connection, in any
order of their steps, whatever they are answered: nobody has two connections and there are
never more than the pool has; who has one awaits neither Redis nor another one; and there
is always one of them that can go on, whatever it is answered, until after at most eight
steps each all have ended and the pool is full. -/
theorem pool_never_wedged {ι : Type} [DecidableEq ι] [Fintype ι] (router : FeatureFlagRouter)
    (asked : ι → ApiRequest ⊕ Probe) {capacity : ℕ} (hcap : 0 < capacity)
    {s : Pool ι (Work Endpoint.Op Endpoint.Res Endpoint.Record Endpoint.Exc Endpoint.Answer)
      (List ι)} {ls : List (Label ι (Turn Endpoint.Op Endpoint.Res Endpoint.Exc) Empty)}
    (hrun : run (slotStep Endpoint.slot capacity) ⟨[], fun i => router.task (asked i)⟩ ls =
      some s) :
    s.shared.Nodup ∧ s.shared.length ≤ capacity ∧
      (∀ i ∈ s.shared, ∀ k op next, s.task i = ⟨k, .await op next⟩ →
        (Endpoint.slot k op).Allows true) ∧
      ((∀ i, (s.task i).Ended) ∧ s.shared = [] ∨ ∃ i, ∀ answers, ∃ held s',
        slotStep Endpoint.slot capacity s (.task i ⟨answers, held⟩) = some s') ∧
      ls.length ≤ 8 * Fintype.card ι := by
  choose left hleft hkeeps using fun i => task_keeps router (asked i)
  have hstart : SlotsKept Endpoint.slot capacity
      (⟨[], fun i => router.task (asked i)⟩ : Pool ι (Work ..) (List ι)) left :=
    ⟨List.nodup_nil, Nat.zero_le _, fun i => by simpa using hkeeps i⟩
  obtain ⟨left', hkept, hsum⟩ := run_kept hstart hrun
  refine ⟨hkept.nodup, hkept.room, fun i hi k op next => hkept.allows hi, hkept.goes_on hcap, ?_⟩
  calc ls.length ≤ ∑ i, left i := by omega
    _ ≤ ∑ _ : ι, 8 := Finset.sum_le_sum fun i _ => hleft i
    _ = 8 * Fintype.card ι := by simp [Nat.mul_comm]

def upTurn (held : Bool) : Turn Endpoint.Op Endpoint.Res Endpoint.Exc where
  answers
    | .api, op => emptyStores (.ok ()) op
    | .probe, .redisPing => .ok (.bool true)
    | .probe, .connect => .ok ()
    | .probe, .execute _ => .ok ()
    | .probe, .close => .ok ()
  held

/-- A lookup has the only connection, and the readiness probe comes to need one. -/
def waitingRun : Option (Pool Bool
    (Work Endpoint.Op Endpoint.Res Endpoint.Record Endpoint.Exc Endpoint.Answer) (List Bool)) :=
  let asked : Bool → ApiRequest ⊕ Probe
    | false => .inl ⟨.get, darkMode, "acme", "ann"⟩
    | true => .inr .readyz
  run (slotStep Endpoint.slot 1) ⟨[], fun i => FeatureFlagRouter.sample.task (asked i)⟩
    [.task false (upTurn false), .task false (upTurn false), .task false (upTurn false),
      .task false (upTurn false), .task false (upTurn true), .task true (upTurn false)]

theorem pool_never_wedged_waiting :
    ∃ s, waitingRun = some s ∧ s.shared = [false] ∧
      slotStep Endpoint.slot 1 s (.task true (upTurn true)) = none ∧
      ((∀ i, (s.task i).Ended) ∧ s.shared = [] ∨ ∃ i, ∀ answers, ∃ held s',
        slotStep Endpoint.slot 1 s (.task i ⟨answers, held⟩) = some s') := by
  have hdone : waitingRun.isSome = true := rfl
  have hrun := (Option.some_get hdone).symm
  obtain ⟨-, -, -, hgo, -⟩ := pool_never_wedged FeatureFlagRouter.sample _ Nat.one_pos hrun
  exact ⟨_, hrun, rfl, rfl, hgo⟩

end PolyrepoTemplate
