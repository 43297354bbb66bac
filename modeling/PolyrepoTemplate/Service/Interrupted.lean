import Mathlib.Tactic.IntervalCases
import PolyrepoTemplate.Service.Sequential

namespace PolyrepoTemplate

open Async

namespace FeatureFlagService

variable (svc : FeatureFlagService) (zone : TimeZone) (i : ℕ) (c : Call) (enabled : Bool)
  (now : Datetime) (script : ℕ → Outcome Outside) (s : Stores)

/-- `set_flag` of `c`, its awaits ending as the script says: what it returns or
raises, and the stores it leaves. -/
def setFlagUnder : Except Exc FeatureFlag × Stores :=
  let (r, s', _) := (svc.setFlag c.name.val enabled c.user now).run
    ((Stores.handler zone i).scripted .outside script) (s, 0)
  (r, s')

def Commits : Prop := script 0 = .ok ∧ (script 1).carriedOut = true

def Caches : Prop := (∀ n < 3, script n = .ok) ∧ (script 3).carriedOut = true

instance : Decidable (Commits script) := inferInstanceAs (Decidable (_ ∧ _))

instance : Decidable (Caches script) := inferInstanceAs (Decidable (_ ∧ _))

theorem await_scripted (op : StoreOp) (n : ℕ) :
    (awaitStore op).run ((Stores.handler zone i).scripted .outside script) (s, n) =
      (((script n).answer Exc.outside (Stores.exec zone i op) s).1,
        ((script n).answer Exc.outside (Stores.exec zone i op) s).2, n + 1) :=
  Coro.run_call ..

theorem createSession_scripted {α : Type} (body : ServiceM α) (n : ℕ) {r : Except Exc α}
    {s' : Stores} {m : ℕ}
    (h : body.run ((Stores.handler zone i).scripted .outside script) (s, n) = (r, s', m)) :
    (createSession body).run ((Stores.handler zone i).scripted .outside script) (s, n) =
      match script m with
      | .ok => (r, s', m + 1)
      | .interrupted x _ => (.error (.outside x), s', m + 1) := by
  rw [createSession, Coro.run_tryFinally, h, await_scripted]
  cases script m with
  | ok => rfl
  | interrupted x done => cases done <;> rfl

theorem commit_scripted (n : ℕ) : ∃ r,
    (awaitStore (.sessionCommit (c.work enabled now (s.table.sessionGet zone c.key)))).run
        ((Stores.handler zone i).scripted .outside script) (s, n) =
      (r, if (script n).carriedOut then s.committed i (stored c enabled now s.table) else s,
        n + 1) ∧
    ((r = .ok () ∧ script n = .ok) ∨ ((∃ x, r = .error (.outside x)) ∧ script n ≠ .ok)) := by
  rw [await_scripted]
  cases script n with
  | ok =>
    simp only [Outcome.answer, exec_commit_fresh]
    exact ⟨_, rfl, .inl ⟨rfl, trivial⟩⟩
  | interrupted x done =>
    simp only [Outcome.answer, exec_commit_fresh]
    exact ⟨_, rfl, .inr ⟨⟨x, rfl⟩, by simp⟩⟩

theorem storeFlag_scripted : ∃ r m,
    (storeFlag c.name.val enabled c.user now).run
        ((Stores.handler zone i).scripted .outside script) (s, 0) =
      (r, if Commits script then s.committed i (stored c enabled now s.table) else s, m) ∧
    ((r = .ok () ∧ m = 2 ∧ script 0 = .ok ∧ script 1 = .ok) ∨
      ((∃ x, r = .error (.outside x)) ∧ ¬(script 0 = .ok ∧ script 1 = .ok))) := by
  rw [storeFlag, Coro.bind_eq, Coro.run_bind, await_scripted]
  cases h₀ : script 0 with
  | interrupted x done =>
    have hnot : ¬ Commits script := by simp [Commits, h₀]
    refine ⟨.error (.outside x), 1, ?_, .inr ⟨⟨x, rfl⟩, by simp⟩⟩
    rw [if_neg hnot]
    cases done <;> rfl
  | ok =>
    have hcommits : Commits script ↔ (script 1).carriedOut = true := by simp [Commits, h₀]
    obtain ⟨r, hrun, hr⟩ := commit_scripted zone i c enabled now script s 1
    refine ⟨r, 2, ?_, ?_⟩
    · simp only [hcommits]
      exact hrun
    · obtain ⟨rfl, h₁⟩ | ⟨hx, h₁⟩ := hr
      · exact .inl ⟨rfl, rfl, rfl, h₁⟩
      · exact .inr ⟨hx, fun h => h₁ h.2⟩

theorem storeSession_scripted : ∃ r m,
    (createSession (storeFlag c.name.val enabled c.user now)).run
        ((Stores.handler zone i).scripted .outside script) (s, 0) =
      (r, if Commits script then s.committed i (stored c enabled now s.table) else s, m) ∧
    ((r = .ok () ∧ m = 3 ∧ ∀ n < 3, script n = .ok) ∨
      ((∃ x, r = .error (.outside x)) ∧ ¬ ∀ n < 3, script n = .ok)) := by
  obtain ⟨r, m, hrun, hr⟩ := storeFlag_scripted zone i c enabled now script s
  rw [createSession_scripted zone i script s _ 0 hrun]
  obtain ⟨rfl, rfl, h₀, h₁⟩ | ⟨⟨x, rfl⟩, hfail⟩ := hr
  · cases h₂ : script 2 with
    | ok =>
      refine ⟨.ok (), 3, rfl, .inl ⟨rfl, rfl, ?_⟩⟩
      intro n hn
      interval_cases n <;> assumption
    | interrupted x done =>
      exact ⟨_, 3, rfl, .inr ⟨⟨x, rfl⟩, fun h => nomatch h₂.symm.trans (h 2 (by decide))⟩⟩
  · have hnot : ¬ ∀ n < 3, script n = .ok := fun h => hfail ⟨h 0 (by decide), h 1 (by decide)⟩
    cases script m with
    | ok => exact ⟨_, _, rfl, .inr ⟨⟨x, rfl⟩, hnot⟩⟩
    | interrupted y done => exact ⟨_, _, rfl, .inr ⟨⟨y, rfl⟩, hnot⟩⟩

theorem afterStore_scripted (n : ℕ) :
    (c.afterStore svc enabled now).run ((Stores.handler zone i).scripted .outside script) (s, n) =
      match script n with
      | .ok => (.ok (c.flag enabled now), ((s.cached svc c (c.flag enabled now)).log
          .writesTotalInc).log (.info "feature_flag.written"
            [("name", .str c.name.val), ("enabled", .bool enabled)]), n + 1)
      | .interrupted x done =>
        (.error (.outside x), if done then s.cached svc c (c.flag enabled now) else s, n + 1) := by
  have hvalid : FeatureFlag.validate c.name.val enabled now c.user.userId =
      .ok (c.flag enabled now) := FeatureFlag.validate_ok ..
  simp only [Call.afterStore, hvalid, Coro.bind_eq]
  show ((svc.writeCache c.cacheKey (c.flag enabled now)).bind _).run _ _ = _
  rw [Coro.run_bind, writeCache, await_scripted]
  cases script n <;> rfl

/-- The whole call: the row is written exactly when the commit takes effect, the
entry exactly when the `SET` does, and it returns exactly when no await was
interrupted. -/
theorem setFlagUnder_eq : ∃ r s', svc.setFlagUnder zone i c enabled now script s = (r, s') ∧
    ((r = .ok (c.flag enabled now) ∧ ∀ n < 4, script n = .ok) ∨
      ((∃ x, r = .error (.outside x)) ∧ ¬ ∀ n < 4, script n = .ok)) ∧
    s'.clock = s.clock ∧
    s'.table = (if Commits script then stored c enabled now s.table else s.table) ∧
    s'.redis = if Caches script then (s.cached svc c (c.flag enabled now)).redis else s.redis := by
  obtain ⟨r, m, hrun, hr⟩ := storeSession_scripted zone i c enabled now script s
  have hset : svc.setFlag c.name.val enabled c.user now =
      (createSession (storeFlag c.name.val enabled c.user now)).bind fun _ =>
        c.afterStore svc enabled now := rfl
  unfold setFlagUnder
  rw [hset, Coro.run_bind, hrun]
  obtain ⟨rfl, rfl, hok⟩ | ⟨⟨x, rfl⟩, hfail⟩ := hr
  · -- the session block went through, and the `SET` is the fourth await
    have hcommits : Commits script := ⟨hok 0 (by decide), by rw [hok 1 (by decide)]; rfl⟩
    have hcaches : Caches script ↔ (script 3).carriedOut = true := and_iff_right hok
    have hafter := afterStore_scripted svc zone i c enabled now script
      (s.committed i (stored c enabled now s.table)) 3
    simp only [if_pos hcommits, hcaches, hafter]
    cases h₃ : script 3 with
    | ok =>
      refine ⟨_, _, rfl, .inl ⟨rfl, ?_⟩, rfl, rfl, rfl⟩
      intro n hn
      obtain hn | rfl := Nat.lt_succ_iff_lt_or_eq.mp hn
      · exact hok n hn
      · exact h₃
    | interrupted x done =>
      refine ⟨_, _, rfl, .inr ⟨⟨x, rfl⟩, fun h => nomatch h₃.symm.trans (h 3 (by decide))⟩, ?_⟩
      cases done <;> exact ⟨rfl, rfl, rfl⟩
  · -- the exception leaves the block, and Redis is never called
    have hnot : ¬ Caches script := fun h => hfail h.1
    refine ⟨_, _, rfl, .inr ⟨⟨x, rfl⟩, fun h => hfail fun n hn => h n (Nat.lt_succ_of_lt hn)⟩, ?_⟩
    rw [if_neg hnot]
    split <;> exact ⟨rfl, rfl, rfl⟩

def AllOrNothing (out : Except Exc FeatureFlag × Stores) : Prop :=
  match out.1 with
  | .ok flag => out.2.table c.key = some flag.columns ∧
      out.2.redis.getString out.2.clock c.cacheKey = some (svc.json.dumpJson flag)
  | .error _ => out.2.table c.key = s.table c.key ∧
      out.2.redis.live out.2.clock c.cacheKey = s.redis.live s.clock c.cacheKey

/-- A store call that raises has no effect; a cancelled one may have had it. -/
def FailsWithoutEffect : Outcome Outside → Prop
  | .interrupted (.storeError _) done => done = false
  | _ => True

/-- The `SET` fails after the commit: the call raises, the row has changed. -/
theorem setFlag_not_atomic : ¬ ∀ (svc : FeatureFlagService) (zone : TimeZone) (i : ℕ) (c : Call)
    (enabled : Bool) (now : Datetime) (script : ℕ → Outcome Outside) (s : Stores),
    Coupling svc s → (∀ n, FailsWithoutEffect (script n)) →
      AllOrNothing svc c s (svc.setFlagUnder zone i c enabled now script s) := by
  intro h
  have hbroken := h ⟨{}, pydanticJson⟩ (fun _ => 0) 0
    ((Deployment.sample fun _ => .set true ⟨7, 0⟩).calls 0) true ⟨7, 0⟩
    (fun n => if n = 3 then .interrupted (.storeError "connection reset") false else .ok)
    ⟨0, fun _ => none, fun _ => none, [], []⟩
    ⟨CachedMap.coupled_of_empty fun _ => rfl, fun _ _ h => by cases h⟩
    (fun n => by split <;> trivial)
  exact nomatch hbroken.1

/-- A call that returns has written both stores. One that raises has written
neither store if its commit did not take effect, and otherwise has written the row,
and the entry only if its `SET` took effect too. -/
theorem setFlag_interrupted :
    (∀ flag, (svc.setFlagUnder zone i c enabled now script s).1 = .ok flag →
      flag = c.flag enabled now ∧
      (svc.setFlagUnder zone i c enabled now script s).2.table c.key = some flag.columns ∧
      (svc.setFlagUnder zone i c enabled now script s).2.redis.getString
        (svc.setFlagUnder zone i c enabled now script s).2.clock c.cacheKey =
          some (svc.json.dumpJson flag)) ∧
    (∀ e, (svc.setFlagUnder zone i c enabled now script s).1 = .error e →
      (¬ Commits script →
        (svc.setFlagUnder zone i c enabled now script s).2.table = s.table ∧
        (svc.setFlagUnder zone i c enabled now script s).2.redis = s.redis) ∧
      (Commits script →
        (svc.setFlagUnder zone i c enabled now script s).2.table =
          Function.update s.table c.key (some (c.columns enabled now)) ∧
        (svc.setFlagUnder zone i c enabled now script s).2.redis =
          if Caches script then (s.cached svc c (c.flag enabled now)).redis else s.redis)) := by
  obtain ⟨r, s', hout, hr, hclock, htable, hredis⟩ :=
    setFlagUnder_eq svc zone i c enabled now script s
  rw [hout, hclock, htable, hredis]
  refine ⟨?_, ?_⟩
  · rintro flag rfl
    obtain ⟨hflag, hok⟩ | ⟨⟨x, hx⟩, -⟩ := hr
    · cases hflag
      have hcaches : Caches script :=
        ⟨fun n hn => hok n (Nat.lt_succ_of_lt hn), by rw [hok 3 (by decide)]; rfl⟩
      have hcommits : Commits script := ⟨hok 0 (by decide), by rw [hok 1 (by decide)]; rfl⟩
      rw [if_pos hcaches, if_pos hcommits]
      refine ⟨rfl, Function.update_self .., ?_⟩
      have httl := svc.config.cacheTtlSeconds_ge
      exact Redis.getString_eq_some.mpr
        ⟨_, Stores.cached_redis_self svc c (c.flag enabled now) s, by dsimp only; omega, rfl⟩
    · cases hx
  · rintro e -
    refine ⟨fun hnot => ?_, fun hcommits => ?_⟩
    · have hnone : ¬ Caches script := fun h =>
        hnot ⟨h.1 0 (by decide), by rw [h.1 1 (by decide)]; rfl⟩
      rw [if_neg hnot, if_neg hnone]
      exact ⟨rfl, rfl⟩
    · rw [if_pos hcommits]
      exact ⟨rfl, rfl⟩

end FeatureFlagService

theorem Deployment.setFlag_alone {D : Deployment} {s : System} (hs : D.Sound s) {i : ℕ}
    (hi : s.task i = .idle) {enabled : Bool} {now : Datetime}
    (hm : (D.calls i).method = .set enabled now) (script : ℕ → Outcome Outside) :
    ∃ n s', run D.step s (alone i script n) = some s' ∧
      s'.task i =
        .done (D.svc.setFlagUnder (D.zone i) i (D.calls i) enabled now script s.shared).1 ∧
      s'.shared = (D.svc.setFlagUnder (D.zone i) i (D.calls i) enabled now script s.shared).2 := by
  have halone := Deployment.run_alone hs hi script
  simp only [Call.program, hm] at halone
  exact halone

end PolyrepoTemplate
