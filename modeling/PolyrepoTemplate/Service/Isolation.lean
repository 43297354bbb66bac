import PolyrepoTemplate.Service.Deployment

namespace PolyrepoTemplate

open Async

structure Stores.Agree (key : FlagKey) (s t : Stores) : Prop where
  clock : t.clock = s.clock
  redis : t.redis (cacheKey key.1 key.2) = s.redis (cacheKey key.1 key.2)
  table : t.table key = s.table key

def Call.Owns (c : Call) : StoreOp → Prop
  | .getString key => key = c.cacheKey
  | .setString key _ _ => key = c.cacheKey
  | .sessionGet key => key = c.key
  | .sessionCommit work => work.key = c.key
  | .sessionClose => True

theorem UnitOfWork.commit_congr {work : UnitOfWork} {table table' : Table}
    (h : table' work.key = table work.key) :
    (∃ e, work.commit table = .error e ∧ work.commit table' = .error e) ∨
      ∃ a b, work.commit table = .ok a ∧ work.commit table' = .ok b ∧ b work.key = a work.key := by
  cases work with
  | add row =>
    simp only [UnitOfWork.key] at h
    simp only [UnitOfWork.commit, UnitOfWork.key, h]
    cases table row.key with
    | none => exact .inr ⟨_, _, rfl, rfl, by simp⟩
    | some c => exact .inl ⟨_, rfl, rfl⟩
  | dirty loaded row =>
    simp only [UnitOfWork.key] at h
    simp only [UnitOfWork.commit, UnitOfWork.key, h]
    cases hrow : table loaded.key with
    | none =>
      by_cases hsame : row.columns = loaded.columns
      · simp only [if_pos hsame]
        exact .inr ⟨_, _, rfl, rfl, h⟩
      · simp only [if_neg hsame]
        exact .inl ⟨_, rfl, rfl⟩
    | some c => exact .inr ⟨_, _, rfl, rfl, by simp⟩

section
variable {svc : FeatureFlagService} {zone : TimeZone} {i : ℕ} {c : Call}

theorem Stores.exec_congr {s t : Stores} {op : StoreOp} (hop : c.Owns op)
    (hst : s.Agree c.key t) :
    (exec zone i op t).1 = (exec zone i op s).1 ∧
      (exec zone i op s).2.Agree c.key (exec zone i op t).2 := by
  cases op with
  | getString key =>
    cases hop
    refine ⟨?_, hst⟩
    have hredis : t.redis c.cacheKey = s.redis c.cacheKey := hst.redis
    simp only [exec, Redis.getString, Redis.live, hst.clock, hredis]
  | setString key value ttl =>
    cases hop
    refine ⟨rfl, hst.clock, ?_, hst.table⟩
    simp only [exec, hst.clock]
    exact (Redis.setString_self ..).trans (Redis.setString_self ..).symm
  | sessionGet key =>
    cases hop
    refine ⟨?_, hst⟩
    simp only [exec, Table.sessionGet, hst.table]
  | sessionCommit work =>
    have hkey : work.key = c.key := hop
    obtain ⟨e, hs, ht⟩ | ⟨a, b, hs, ht, hab⟩ :=
      UnitOfWork.commit_congr (show t.table work.key = s.table work.key from hkey ▸ hst.table)
    · simp only [exec, hs, ht]
      exact ⟨trivial, hst⟩
    · simp only [exec, hs, ht]
      exact ⟨trivial, hst.clock, hst.redis, hkey ▸ hab⟩
  | sessionClose => exact ⟨rfl, hst⟩

theorem answer_congr (zone : TimeZone) (i : ℕ) {s t : Stores} (op : StoreOp) (hop : c.Owns op)
    (hst : s.Agree c.key t) (o : Outcome Outside) :
    ∃ r s' t', answer zone i o op s = (r, s') ∧ answer zone i o op t = (r, t') ∧
      s'.Agree c.key t' := by
  obtain ⟨hr, hst'⟩ : (Stores.exec zone i op t).1 = (Stores.exec zone i op s).1 ∧
      (Stores.exec zone i op s).2.Agree c.key (Stores.exec zone i op t).2 :=
    Stores.exec_congr hop hst
  cases o with
  | ok =>
    exact ⟨_, (Stores.exec zone i op s).2, (Stores.exec zone i op t).2, rfl, Prod.ext hr rfl, hst'⟩
  | interrupted x done =>
    cases done with
    | false => exact ⟨_, _, _, rfl, rfl, hst⟩
    | true => exact ⟨_, _, _, rfl, rfl, hst'⟩

/-- A step of the call depends only on its own entry and row. -/
theorem Call.step_congr {ph ph' : Phase} {a : Action Outside} {s s' t : Stores}
    (hloc : ph.Local c) (hst : s.Agree c.key t)
    (h : c.step svc zone i ph a s = some (ph', s')) :
    ∃ t', c.step svc zone i ph a t = some (ph', t') ∧ s'.Agree c.key t' := by
  cases a with
  | enter =>
    cases hm : c.method <;> cases ph <;> simp only [Call.step, hm] at h ⊢ <;> cases h <;>
      exact ⟨_, rfl, hst.clock, hst.redis, hst.table⟩
  | resume o =>
    -- the store call answers the same on both sides, so both take the same branch
    cases ph with
    | idle => cases hm : c.method <;> simp only [Call.step, hm] at h <;> cases h
    | done r => cases hm : c.method <;> simp only [Call.step, hm] at h <;> cases h
    | lookup =>
      obtain ⟨r, s₁, t₁, hs, ht, hst'⟩ := answer_congr zone i (.getString c.cacheKey) rfl hst o
      simp only [Call.step, show c.method = .get from hloc, hs, ht] at h ⊢
      obtain e | _ | text := r <;> cases h <;> exact ⟨_, rfl, hst'.clock, hst'.redis, hst'.table⟩
    | load =>
      obtain ⟨r, s₁, t₁, hs, ht, hst'⟩ := answer_congr zone i (.sessionGet c.key) rfl hst o
      simp only [Call.step, show c.method = .get from hloc, hs, ht] at h ⊢
      obtain e | _ | row := r
      · cases h
        exact ⟨_, rfl, hst'⟩
      · cases h
        exact ⟨_, rfl, hst'.clock, hst'.redis, hst'.table⟩
      · cases hflag : rowToFlag row <;> simp only [hflag] at h ⊢ <;> cases h <;>
          exact ⟨_, rfl, hst'⟩
    | loaded flag =>
      obtain ⟨r, s₁, t₁, hs, ht, hst'⟩ := answer_congr zone i .sessionClose trivial hst o
      simp only [Call.step, hloc.1, hs, ht] at h ⊢
      obtain e | _ := r <;> cases h <;> exact ⟨_, rfl, hst'⟩
    | fill flag =>
      obtain ⟨r, s₁, t₁, hs, ht, hst'⟩ := answer_congr zone i (c.store svc flag) rfl hst o
      simp only [Call.step, hloc.1, hs, ht] at h ⊢
      obtain e | _ := r <;> cases h <;> exact ⟨_, rfl, hst'⟩
    | select =>
      obtain ⟨enabled, now, hm⟩ := hloc
      obtain ⟨r, s₁, t₁, hs, ht, hst'⟩ := answer_congr zone i (.sessionGet c.key) rfl hst o
      simp only [Call.step, hm, hs, ht] at h ⊢
      obtain e | row := r <;> cases h <;> exact ⟨_, rfl, hst'⟩
    | commit row =>
      obtain ⟨⟨enabled, now, hm⟩, hrow⟩ := hloc
      obtain ⟨r, s₁, t₁, hs, ht, hst'⟩ := answer_congr zone i
        (.sessionCommit (c.work enabled now row)) (Call.work_key hrow) hst o
      simp only [Call.step, hm, hs, ht] at h ⊢
      obtain e | _ := r <;> cases h <;> exact ⟨_, rfl, hst'⟩
    | stored =>
      obtain ⟨enabled, now, hm⟩ := hloc
      obtain ⟨r, s₁, t₁, hs, ht, hst'⟩ := answer_congr zone i .sessionClose trivial hst o
      simp only [Call.step, hm, hs, ht,
        FeatureFlag.validate_ok c.name.minLength c.user.userId_minLength] at h ⊢
      obtain e | _ := r <;> cases h <;> exact ⟨_, rfl, hst'⟩
    | cache flag =>
      obtain ⟨enabled, now, hm, -⟩ := hloc
      obtain ⟨r, s₁, t₁, hs, ht, hst'⟩ := answer_congr zone i (c.store svc flag) rfl hst o
      simp only [Call.step, hm, hs, ht] at h ⊢
      obtain e | _ := r <;> cases h <;> exact ⟨_, rfl, hst'.clock, hst'.redis, hst'.table⟩
    | unwind e =>
      obtain ⟨r, s₁, t₁, hs, ht, hst'⟩ := answer_congr zone i .sessionClose trivial hst o
      cases hm : c.method <;> simp only [Call.step, hm, hs, ht] at h ⊢ <;>
        obtain e' | _ := r <;> cases h <;> exact ⟨_, rfl, hst'⟩

end

namespace Deployment

/-- The label is a step of a call for the pair, the loss of its entry, or time
passing. -/
def concerns (D : Deployment) (key : FlagKey) : SystemLabel → Bool
  | .task i _ => (D.calls i).key = key
  | .env (.tick _) => true
  | .env (.evict k) => k = cacheKey key.1 key.2

/-- The calls for the pair cannot tell the two systems apart. -/
structure Indistinguishable (D : Deployment) (key : FlagKey) (s t : System) : Prop where
  sound : D.Sound s
  task : ∀ i, (D.calls i).key = key → t.task i = s.task i
  stores : s.shared.Agree key t.shared

variable {D : Deployment} {key : FlagKey}

theorem unseen_step {s s' t : System} {l : SystemLabel} (hl : D.concerns key l = false)
    (hR : D.Indistinguishable key s t) (h : D.step s l = some s') :
    D.Indistinguishable key s' t := by
  have hsound := step_sound hR.sound h
  cases l with
  | env e =>
    rw [step_env h] at hsound ⊢
    cases e with
    | tick ms => cases hl
    | evict k =>
      have hk : cacheKey key.1 key.2 ≠ k := by simpa [concerns, eq_comm] using hl
      refine ⟨hsound, hR.task, hR.stores.clock, ?_, hR.stores.table⟩
      simp [Event.step, Redis.evict, hk, hR.stores.redis]
  | task i a =>
    have hi : (D.calls i).key ≠ key := by simpa [concerns] using hl
    obtain ⟨ph, sh, hmove, rfl⟩ := step_task h
    -- a call for another pair writes another entry and another row
    refine ⟨hsound, ?_, ?_, ?_, ?_⟩
    · intro j hj
      have hji : j ≠ i := fun hji => hi (hji ▸ hj)
      simpa [hji] using hR.task j hj
    · exact hR.stores.clock.trans hmove.clock_eq.symm
    · exact hR.stores.redis.trans (hmove.redis_frame hi.symm).symm
    · refine hR.stores.table.trans (hmove.table_frame ?_ hi.symm).symm
      exact fun r hr => (hR.sound.row r hr).1

theorem seen_step {s s' t : System} {l : SystemLabel} (hl : D.concerns key l = true)
    (hR : D.Indistinguishable key s t) (h : D.step s l = some s') :
    ∃ t', D.step t l = some t' ∧ D.Indistinguishable key s' t' := by
  have hsound := step_sound hR.sound h
  cases l with
  | env e =>
    refine ⟨_, rfl, ?_⟩
    rw [step_env h] at hsound ⊢
    cases e with
    | tick ms =>
      exact ⟨hsound, hR.task, congrArg (· + (ms : ℤ)) hR.stores.clock, hR.stores.redis,
        hR.stores.table⟩
    | evict k =>
      refine ⟨hsound, hR.task, hR.stores.clock, ?_, hR.stores.table⟩
      simp [Event.step, Redis.evict, hR.stores.redis]
  | task i a =>
    have hi : (D.calls i).key = key := by simpa [concerns] using hl
    subst hi
    obtain ⟨ph, sh, hstep, rfl⟩ := Pool.step_task h
    obtain ⟨sh', hstep', hagree⟩ := Call.step_congr (hR.sound.isLocal i) hR.stores hstep
    refine ⟨⟨sh', Function.update t.task i ph⟩, ?_, hsound, ?_, hagree⟩
    · simp only [step, Pool.step, Option.map_eq_some_iff]
      refine ⟨(ph, sh'), ?_, rfl⟩
      rw [hR.task i rfl]
      exact hstep'
    · intro j hj
      by_cases hji : j = i
      · subst hji
        simp
      · simpa [hji] using hR.task j hj

/-- Taking every other pair's calls and expiries out of a run leaves a run in
which each call for the pair stands where it stood, with the same result if it
has ended, and the pair's row and entry are the same. -/
theorem isolation (D : Deployment) (key : FlagKey) (clock : ℤ) (redis : Redis) (table : Table)
    {ls : List SystemLabel} {s : System} (hrun : run D.step (start clock redis table) ls = some s) :
    ∃ t, run D.step (start clock redis table) (ls.filter (D.concerns key)) = some t ∧
      (∀ i, (D.calls i).key = key → t.task i = s.task i) ∧
      t.shared.table key = s.shared.table key ∧
      t.shared.redis (cacheKey key.1 key.2) = s.shared.redis (cacheKey key.1 key.2) := by
  have hstart : D.Indistinguishable key (start clock redis table) (start clock redis table) :=
    ⟨sound_start clock redis table, fun _ _ => rfl, rfl, rfl, rfl⟩
  obtain ⟨t, ht, hR⟩ : ∃ t, run D.step (start clock redis table) (ls.filter (D.concerns key)) =
      some t ∧ D.Indistinguishable key s t := by
    refine unwinding (D.concerns key) ?_ ?_ hstart hrun
    · exact fun _ _ _ _ hl hR h => unseen_step hl hR h
    · exact fun _ _ _ _ hl hR h => seen_step hl hR h
  exact ⟨t, ht, hR.task, hR.stores.table, hR.stores.redis⟩

def twoTenants : Deployment :=
  { sample fun _ => .set true ⟨1, 0⟩ with
    calls := fun i => { (sample fun _ => .set true ⟨1, 0⟩).calls i with
      user := ⟨if i = 0 then "acme" else "acme:9:dark-mode", "ann", by split <;> decide,
        by decide⟩ } }

/-- Two tenants write one name at the same time, the second with colons in its id. -/
theorem isolation_two_tenants :
    ∃ s, run (twoTenants.step) (start 0 (fun _ => none) fun _ => none)
      [.task 0 .enter, .task 1 .enter, .task 1 (.resume .ok), .task 0 (.resume .ok),
        .task 1 (.resume .ok), .task 0 (.resume .ok)] = some s ∧
      ∃ t, run (twoTenants.step) (start 0 (fun _ => none) fun _ => none)
        [.task 0 .enter, .task 0 (.resume .ok), .task 0 (.resume .ok)] = some t ∧
        t.task 0 = s.task 0 ∧
        t.shared.table ("acme", "dark-mode") = s.shared.table ("acme", "dark-mode") := by
  obtain ⟨t, ht, htask, htable, -⟩ := isolation twoTenants ("acme", "dark-mode") 0 (fun _ => none)
    (fun _ => none) (rfl : run (twoTenants.step) (start 0 (fun _ => none) fun _ => none)
      [.task 0 .enter, .task 1 .enter, .task 1 (.resume .ok), .task 0 (.resume .ok),
        .task 1 (.resume .ok), .task 0 (.resume .ok)] = some _)
  exact ⟨_, rfl, t, ht, htask 0 rfl, htable⟩

end Deployment

end PolyrepoTemplate
