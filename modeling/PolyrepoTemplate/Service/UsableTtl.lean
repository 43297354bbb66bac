import PolyrepoTemplate.Service.Refusals
import PolyrepoTemplate.Service.Sequential

namespace PolyrepoTemplate

open Async

theorem FeatureFlagConfig.acceptsExpiry_iff (config : FeatureFlagConfig) (now : ℤ) :
    Redis.acceptsExpiry now config.cacheTtlSeconds = true ↔
      now + 1000 * config.cacheTtlSeconds ≤ 2 ^ 63 - 1 := by
  have hpos : 0 < config.cacheTtlSeconds := Int.lt_of_add_one_le config.cacheTtlSeconds_ge
  simp only [Redis.acceptsExpiry, Bool.and_eq_true, decide_eq_true_eq]
  exact and_iff_right hpos

namespace FeatureFlagService

variable {svc : FeatureFlagService} {P : StoreOp → Prop}

def AllButWrites (P : StoreOp → Prop) : Prop :=
  ∀ op, (∀ key value ttl, op ≠ .setString key value ttl) → P op

section
variable (hP : AllButWrites P)
include hP

theorem only_createSession {α : Type} {body : ServiceM α} (h : body.Only P) :
    (createSession body).Only P :=
  h.tryFinally (Coro.only_call.mpr (hP _ fun _ _ _ h => by cases h))

theorem only_loadFlag (name : String) (user : UserDetails) : (loadFlag name user).Only P := by
  apply Coro.Only.bind
  · exact Coro.only_call.mpr (hP _ fun _ _ _ h => by cases h)
  · rintro (_ | row)
    · trivial
    · exact Coro.only_ofAnswer _

theorem only_storeFlag (name : String) (enabled : Bool) (user : UserDetails) (now : Datetime) :
    (storeFlag name enabled user now).Only P := by
  apply Coro.Only.bind
  · exact Coro.only_call.mpr (hP _ fun _ _ _ h => by cases h)
  · intro row
    exact Coro.only_call.mpr (hP _ fun _ _ _ h => by cases h)

theorem only_getFlag (hwrite : ∀ key value, P (.setString key value svc.config.cacheTtlSeconds))
    (name : String) (user : UserDetails) : (svc.getFlag name user).Only P := by
  refine ⟨hP _ (fun _ _ _ h => by cases h), ?_⟩
  rintro (e | _ | text)
  · trivial
  · apply (only_createSession hP (only_loadFlag hP name user)).bind
    intro flag
    exact (Coro.only_call.mpr (hwrite _ _)).bind fun _ => trivial
  · exact Coro.only_ofAnswer _

theorem only_setFlag (hwrite : ∀ key value, P (.setString key value svc.config.cacheTtlSeconds))
    (name : String) (enabled : Bool) (user : UserDetails) (now : Datetime) :
    (svc.setFlag name enabled user now).Only P := by
  apply (only_createSession hP (only_storeFlag hP name enabled user now)).bind
  intro _
  apply (Coro.only_ofAnswer _).bind
  intro flag
  exact (Coro.only_call.mpr (hwrite _ _)).bind fun _ => trivial

end

theorem allButWrites_accepted (now : ℤ) :
    AllButWrites fun op : StoreOp => op.accepted now = true := by
  intro op h
  cases op with
  | setString key value ttl => exact absurd rfl (h key value ttl)
  | _ => rfl

theorem write_of_only_getFlag {c : Call} (h : (svc.getFlag c.name.val c.user).Only P) :
    ∃ key value, P (.setString key value svc.config.cacheTtlSeconds) := by
  -- a miss, and then a row that makes a flag
  let s : Stores := ⟨0, fun _ => none, fun _ => some ⟨true, 0, c.user.userId⟩, [], []⟩
  let row : FeatureFlagRow := ⟨c.user.tenantId, c.name.val, true, ⟨0, 0⟩, c.user.userId⟩
  have hget : (Stores.handler (fun _ => 0) 0).exec (.sessionGet (c.user.tenantId, c.name.val)) s =
      (.ok (some row), s) := rfl
  have hflag : rowToFlag row = .ok (c.flag true ⟨0, 0⟩) := FeatureFlag.validate_ok ..
  have hload : (createSession (loadFlag c.name.val c.user)).run (Stores.handler (fun _ => 0) 0) s =
      (.ok (c.flag true ⟨0, 0⟩), s) := by
    rw [createSession_run _ s fun _ => rfl, loadFlag_run, hget]
    simp only [hflag]
    rfl
  have hreload : (svc.reload c.name.val c.user).Only P := h.2 (.ok none)
  exact ⟨_, _, (Coro.Only.of_bind hreload _ (congrArg Prod.fst hload)).1⟩

theorem write_of_only_setFlag {c : Call} {enabled : Bool} {now : Datetime}
    (h : (svc.setFlag c.name.val enabled c.user now).Only P) :
    ∃ key value, P (.setString key value svc.config.cacheTtlSeconds) := by
  let s : Stores := ⟨0, fun _ => none, fun _ => none, [], []⟩
  have hstore : ((createSession (storeFlag c.name.val enabled c.user now)).run
      (Stores.handler (fun _ => 0) 0) s).1 = .ok () := by
    rw [createSession_run _ s fun _ => rfl, storeFlag_run]
    exact congrArg Prod.fst (exec_commit_fresh (fun _ => 0) 0 s c enabled now)
  have hvalid : ((ofValidation (FeatureFlag.validate c.name.val enabled now c.user.userId)).run
      (Stores.handler (fun _ => 0) 0) s).1 = .ok (c.flag enabled now) := by
    rw [ofValidation_run]
    exact congrArg validated (FeatureFlag.validate_ok ..)
  exact ⟨_, _, ((h.of_bind _ hstore).of_bind _ hvalid).1⟩

theorem program_only_iff (svc : FeatureFlagService) (c : Call) (now : ℤ) :
    (c.program svc).Only (fun op => op.accepted now = true) ↔
      now + 1000 * svc.config.cacheTtlSeconds ≤ 2 ^ 63 - 1 := by
  rw [← FeatureFlagConfig.acceptsExpiry_iff]
  unfold Call.program
  constructor
  · intro h
    cases hm : c.method with
    | get =>
      rw [hm] at h
      obtain ⟨_, _, hwrite⟩ := write_of_only_getFlag h
      exact hwrite
    | set enabled now =>
      rw [hm] at h
      obtain ⟨_, _, hwrite⟩ := write_of_only_setFlag h
      exact hwrite
  · intro h
    cases c.method with
    | get => exact only_getFlag (allButWrites_accepted now) (fun _ _ => h) _ _
    | set enabled writtenAt =>
      exact only_setFlag (allButWrites_accepted now) (fun _ _ => h) _ _ _ _

section
variable (svc : FeatureFlagService) (c : Call) (enabled : Bool) (writtenAt : Datetime)
  (zone : TimeZone) (i : ℕ) (refusal : Outside) (s : Stores)

def setFlagRun : Except Exc FeatureFlag × Stores :=
  (svc.setFlag c.name.val enabled c.user writtenAt).run
    ((Stores.handler zone i).guarded (StoreOp.accepted s.clock) (.outside refusal)) s

theorem setFlagRun_of_accepted (h : s.clock + 1000 * svc.config.cacheTtlSeconds ≤ 2 ^ 63 - 1) :
    (setFlagRun svc c enabled writtenAt zone i refusal s).1 = .ok (c.flag enabled writtenAt) ∧
      (setFlagRun svc c enabled writtenAt zone i refusal s).2.table =
        stored c enabled writtenAt s.table := by
  have hwrite := (svc.config.acceptsExpiry_iff s.clock).mpr h
  have honly : (svc.setFlag c.name.val enabled c.user writtenAt).Only
      fun op => op.accepted s.clock = true :=
    only_setFlag (allButWrites_accepted s.clock) (fun _ _ => hwrite) _ _ _ _
  have hrun := honly.run_guarded (Stores.handler zone i) (.outside refusal) s
  rw [setFlag_run] at hrun
  exact ⟨congrArg Prod.fst hrun, congrArg (fun r => r.2.table) hrun⟩

/-- The row is committed, and then the write is refused. -/
theorem setFlagRun_of_refused (h : ¬ s.clock + 1000 * svc.config.cacheTtlSeconds ≤ 2 ^ 63 - 1) :
    (setFlagRun svc c enabled writtenAt zone i refusal s).1 = .error (.outside refusal) ∧
      (setFlagRun svc c enabled writtenAt zone i refusal s).2.table =
        stored c enabled writtenAt s.table := by
  have hwrite : ¬ StoreOp.accepted s.clock (.setString c.cacheKey
      (svc.json.dumpJson (c.flag enabled writtenAt)) svc.config.cacheTtlSeconds) = true :=
    mt (svc.config.acceptsExpiry_iff s.clock).mp h
  have hstore : (storeFlag c.name.val enabled c.user writtenAt).run ((Stores.handler zone i).guarded
      (StoreOp.accepted s.clock) (.outside refusal)) s =
        (.ok (), s.committed i (stored c enabled writtenAt s.table)) :=
    (storeFlag_run ..).trans (exec_commit_fresh zone i s c enabled writtenAt)
  have hrun := setFlag_run_cacheError svc _ s (fun _ => rfl) hstore
    (Handler.guarded_refused hwrite _)
  exact ⟨congrArg Prod.fst hrun, congrArg (fun r => r.2.table) hrun⟩

end

/-- For every accepted configuration and every time: every cache write a call can issue is
accepted exactly when the expiry stays within 64 bits; `set_flag` then returns, and
otherwise it fails, the row being committed either way. -/
theorem cacheWrites_accepted_iff (svc : FeatureFlagService) (c : Call) (s : Stores)
    (zone : TimeZone) (i : ℕ) (refusal : Outside) (enabled : Bool) (writtenAt : Datetime) :
    ((c.program svc).Only (fun op => op.accepted s.clock = true) ↔
      s.clock + 1000 * svc.config.cacheTtlSeconds ≤ 2 ^ 63 - 1) ∧
    ((setFlagRun svc c enabled writtenAt zone i refusal s).1 = .ok (c.flag enabled writtenAt) ↔
      s.clock + 1000 * svc.config.cacheTtlSeconds ≤ 2 ^ 63 - 1) ∧
    (setFlagRun svc c enabled writtenAt zone i refusal s).2.table =
      stored c enabled writtenAt s.table := by
  refine ⟨program_only_iff svc c s.clock, ?_⟩
  by_cases h : s.clock + 1000 * svc.config.cacheTtlSeconds ≤ 2 ^ 63 - 1
  · obtain ⟨hanswer, htable⟩ := setFlagRun_of_accepted svc c enabled writtenAt zone i refusal s h
    exact ⟨iff_of_true hanswer h, htable⟩
  · obtain ⟨hanswer, htable⟩ := setFlagRun_of_refused svc c enabled writtenAt zone i refusal s h
    refine ⟨iff_of_false (fun hok => ?_) h, htable⟩
    rw [hanswer] at hok
    cases hok

/-- A TTL the configuration accepts, and a time of this century. -/
theorem cacheWrites_accepted_fails :
    let svc : FeatureFlagService :=
      ⟨⟨9223372036854775, by decide⟩, (Deployment.sample fun _ => .get).svc.json⟩
    let c : Call := (Deployment.sample fun _ => .get).calls 0
    let s : Stores := ⟨1770000000000, fun _ => none, fun _ => none, [], []⟩
    let refusal : Outside := .storeError "ERR invalid expire time in 'set' command"
    ¬ (c.program svc).Only (fun op => op.accepted s.clock = true) ∧
    (setFlagRun svc c true ⟨1770000000000, 0⟩ (fun _ => 0) 0 refusal s).1 =
      .error (.outside refusal) ∧
    (setFlagRun svc c true ⟨1770000000000, 0⟩ (fun _ => 0) 0 refusal s).2.table c.key =
      some (c.columns true ⟨1770000000000, 0⟩) := by
  intro svc c s refusal
  have hbound : ¬ s.clock + 1000 * svc.config.cacheTtlSeconds ≤ 2 ^ 63 - 1 := by decide
  obtain ⟨hanswer, htable⟩ := setFlagRun_of_refused svc c true ⟨1770000000000, 0⟩ (fun _ => 0) 0
    refusal s hbound
  refine ⟨mt (program_only_iff svc c s.clock).mp hbound, hanswer, ?_⟩
  rw [htable]
  exact Function.update_self ..

end FeatureFlagService

end PolyrepoTemplate
