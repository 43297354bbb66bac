import PolyrepoTemplate.Async.Alone
import PolyrepoTemplate.Models.PydanticJson
import PolyrepoTemplate.Service.Moves

namespace PolyrepoTemplate

open Async

/-- The service, the calls made to it, and the session time zone each of them
runs under. -/
structure Deployment where
  svc : FeatureFlagService
  zone : ℕ → TimeZone
  calls : ℕ → Call

inductive Event where
  | tick (ms : ℕ)
  | evict (key : String)
  deriving DecidableEq, Repr

def Event.step : Event → Stores → Stores
  | .tick ms, s => { s with clock := s.clock + ms }
  | .evict key, s => { s with redis := s.redis.evict fun k => k = key }

@[simp] theorem Event.step_table (e : Event) (s : Stores) : (e.step s).table = s.table := by
  cases e <;> rfl

@[simp] theorem Event.step_commits (e : Event) (s : Stores) : (e.step s).commits = s.commits := by
  cases e <;> rfl

theorem Event.clock_le (e : Event) (s : Stores) : s.clock ≤ (e.step s).clock := by
  cases e <;> simp [Event.step]

theorem Event.redis_some (e : Event) {s : Stores} {key : String} {x : Entry}
    (h : (e.step s).redis key = some x) : s.redis key = some x := by
  cases e with
  | tick ms => exact h
  | evict k =>
    simp only [step, Redis.evict_eq_some] at h
    exact h.2

abbrev System := Pool ℕ Phase Stores

abbrev SystemLabel := Label ℕ (Action Outside) Event

/-- No store call fails for a reason outside the code, and no task is cancelled. -/
def available : SystemLabel → Prop
  | .task _ (.resume o) => o = .ok
  | _ => True

/-- Call number `i` is entered and gets `n` answers, nothing else going on. -/
def solo (i n : ℕ) : List SystemLabel :=
  .task i .enter :: List.replicate n (.task i (.resume .ok))

namespace Deployment

variable (D : Deployment)

def callStep (i : ℕ) : Phase → Action Outside → Stores → Option (Phase × Stores) :=
  (D.calls i).step D.svc (D.zone i) i

def step : System → SystemLabel → Option System :=
  Pool.step D.callStep Event.step

def start (clock : ℤ) (redis : Redis) (table : Table) : System :=
  ⟨⟨clock, redis, table, [], []⟩, fun _ => .idle⟩

/-- The calls for a pair that have committed, latest first. -/
def commitsOf (key : FlagKey) (s : Stores) : List ℕ :=
  s.commits.filter fun i => (D.calls i).key = key

/-- The same system with each call as a coroutine. -/
def coroStep : Pool ℕ (Task StoreOp StoreOp.Res Emission Exc FeatureFlag) Stores →
    SystemLabel → Option (Pool ℕ (Task StoreOp StoreOp.Res Emission Exc FeatureFlag) Stores) :=
  Pool.step (fun i t a s => t.step (Stores.handler (D.zone i) i) .outside a s) Event.step

theorem run_coroutines (s : System) (ls : List SystemLabel) :
    run D.coroStep ⟨s.shared, fun i => (s.task i).task D.svc (D.calls i)⟩ ls =
      (run D.step s ls).map fun s => ⟨s.shared, fun i => (s.task i).task D.svc (D.calls i)⟩ := by
  unfold coroStep step
  refine Pool.run_map (fun i ph => ph.task D.svc (D.calls i)) ?_ s ls
  intro i ph a sh
  exact ph.task_step a sh

variable {D}

theorem step_task {s s' : System} {i : ℕ} {a : Action Outside}
    (h : D.step s (.task i a) = some s') :
    ∃ ph sh, Move D.svc (D.zone i) i (D.calls i) s.shared (s.task i) a ph sh ∧
      s' = ⟨sh, Function.update s.task i ph⟩ := by
  obtain ⟨ph, sh, hstep, rfl⟩ := Pool.step_task h
  exact ⟨ph, sh, Call.step_move hstep, rfl⟩

theorem step_env {s s' : System} {e : Event} (h : D.step s (.env e) = some s') :
    s' = { s with shared := e.step s.shared } :=
  (Option.some.inj h).symm

def sample (methods : ℕ → Method) : Deployment where
  svc := ⟨{}, pydanticJson⟩
  zone _ _ := 0
  calls i := ⟨⟨"dark-mode", by decide⟩,
    ⟨"acme", if i = 0 then "ann" else "bob", by decide, by split <;> decide⟩, methods i⟩

end Deployment

/-- The method has the phase, and its local variables belong to the call. -/
def Phase.Local (c : Call) : Phase → Prop
  | .idle => True
  | .lookup => c.method = .get
  | .load => c.method = .get
  | .loaded flag => c.method = .get ∧ flag.name = c.name.val
  | .fill flag => c.method = .get ∧ flag.name = c.name.val
  | .select => ∃ enabled now, c.method = .set enabled now
  | .commit row => (∃ enabled now, c.method = .set enabled now) ∧
      ∀ r, row = some r → r.key = c.key
  | .stored => ∃ enabled now, c.method = .set enabled now
  | .cache flag => ∃ enabled now, c.method = .set enabled now ∧ flag = c.flag enabled now
  | .unwind _ => True
  | .done r => ∀ enabled now flag, c.method = .set enabled now → r = .ok flag →
      flag = c.flag enabled now

theorem Phase.local_raise (c : Call) (e : Exc) (ph : Phase) : (ph.raise e).Local c := by
  cases ph <;> simp [Phase.raise, Phase.Local]

theorem Move.local {svc : FeatureFlagService} {zone : TimeZone} {i : ℕ} {c : Call}
    {s s' : Stores} {ph ph' : Phase} {a : Action Outside} (h : Move svc zone i c s ph a ph' s')
    (hloc : ph.Local c) : ph'.Local c := by
  cases h with
  | loaded hm hrow hflag =>
    exact ⟨hm, (Call.flag_of_row hrow hflag).1⟩
  | selected hm => exact ⟨⟨_, _, hm⟩, fun r hr => (Table.sessionGet_eq_some hr).1⟩
  | setClosed hm => exact ⟨_, _, hm, rfl⟩
  | enterSet hm => exact ⟨_, _, hm⟩
  | committed hm => exact ⟨_, _, hm⟩
  | interrupted x done => exact Phase.local_raise c _ _
  | enterGet hm => exact hm
  | miss hm => exact hm
  | closed hm => exact hloc
  | hit hm => exact fun _ _ _ hset => by simp [hm] at hset
  | filled hm => exact fun _ _ _ hset => by simp [hm] at hset
  | cached hm =>
    rintro enabled' now' flag' hm' ⟨⟩
    obtain ⟨enabled, now, hm'', hflag⟩ := hloc
    rw [hm'] at hm''
    cases hm''
    exact hflag
  | _ => simp [Phase.Local]

theorem Call.step_enabled {svc : FeatureFlagService} {zone : TimeZone} {i : ℕ} {c : Call}
    {ph : Phase} (hloc : ph.Local c) (h : ph.inFlight = true) (o : Outcome Outside)
    (s : Stores) : ∃ r, c.step svc zone i ph (.resume o) s = some r := by
  cases ph with
  | idle => cases h
  | done r => cases h
  | lookup =>
    simp only [Call.step, show c.method = .get from hloc]
    split <;> exact ⟨_, rfl⟩
  | load =>
    simp only [Call.step, show c.method = .get from hloc]
    split
    · exact ⟨_, rfl⟩
    · split <;> exact ⟨_, rfl⟩
    · exact ⟨_, rfl⟩
  | loaded flag =>
    simp only [Call.step, hloc.1]
    split <;> exact ⟨_, rfl⟩
  | fill flag =>
    simp only [Call.step, hloc.1]
    split <;> exact ⟨_, rfl⟩
  | select =>
    obtain ⟨enabled, now, hm⟩ := hloc
    simp only [Call.step, hm]
    split <;> exact ⟨_, rfl⟩
  | commit row =>
    obtain ⟨⟨enabled, now, hm⟩, -⟩ := hloc
    simp only [Call.step, hm]
    split <;> exact ⟨_, rfl⟩
  | stored =>
    obtain ⟨enabled, now, hm⟩ := hloc
    simp only [Call.step, hm]
    split
    · split <;> exact ⟨_, rfl⟩
    · exact ⟨_, rfl⟩
  | cache flag =>
    obtain ⟨enabled, now, hm, -⟩ := hloc
    simp only [Call.step, hm]
    split <;> exact ⟨_, rfl⟩
  | unwind e =>
    cases hm : c.method <;> simp only [Call.step, hm] <;> split <;> exact ⟨_, rfl⟩

theorem Phase.eq_done_of_task {svc : FeatureFlagService} {c : Call} {ph : Phase}
    {r : Except Exc FeatureFlag} (hloc : ph.Local c)
    (h : ph.task svc c = .active (Coro.ofAnswer r)) : ph = .done r := by
  obtain ⟨name, user, method⟩ := c
  cases ph with
  | idle => cases h
  | done r' => cases r <;> cases r' <;> cases h <;> rfl
  | unwind e => cases r <;> cases h
  | lookup =>
    obtain rfl : method = .get := hloc
    cases r <;> cases h
  | load =>
    obtain rfl : method = .get := hloc
    cases r <;> cases h
  | loaded flag =>
    obtain rfl : method = .get := hloc.1
    cases r <;> cases h
  | fill flag =>
    obtain rfl : method = .get := hloc.1
    cases r <;> cases h
  | select =>
    obtain ⟨enabled, now, rfl⟩ : ∃ enabled now, method = .set enabled now := hloc
    cases r <;> cases h
  | commit row =>
    obtain ⟨enabled, now, rfl⟩ : ∃ enabled now, method = .set enabled now := hloc.1
    cases r <;> cases h
  | stored =>
    obtain ⟨enabled, now, rfl⟩ : ∃ enabled now, method = .set enabled now := hloc
    cases r <;> cases h
  | cache flag =>
    obtain ⟨enabled, now, rfl, -⟩ : ∃ enabled now, method = .set enabled now ∧ _ := hloc
    cases r <;> cases h

theorem UnitOfWork.commit_ne_none {work : UnitOfWork} {table table' : Table}
    (h : work.commit table = .ok table') {key : FlagKey} (hkey : table key ≠ none) :
    table' key ≠ none := by
  by_cases hwork : key = work.key
  · subst hwork
    cases work with
    | add row =>
      simp only [UnitOfWork.commit] at h
      split at h <;> cases h
      exact absurd ‹_› hkey
    | dirty loaded row =>
      simp only [UnitOfWork.commit] at h
      split at h
      · exact absurd ‹_› hkey
      · cases h
        simp [UnitOfWork.key]
  · rwa [UnitOfWork.commit_frame h hwork]

theorem Move.table_ne_none {svc : FeatureFlagService} {zone : TimeZone} {i : ℕ} {c : Call}
    {s s' : Stores} {ph ph' : Phase} {a : Action Outside} (h : Move svc zone i c s ph a ph' s')
    {key : FlagKey} (hkey : s.table key ≠ none) : s'.table key ≠ none := by
  obtain ⟨-, ⟨-, htable, -⟩ | ⟨_, -, -, htable, -⟩ | ⟨_, _, _, -, -, hcommit, -⟩⟩ := h.effect
  · rwa [htable]
  · rwa [htable]
  · exact UnitOfWork.commit_ne_none hcommit hkey

theorem Move.loaded_row {svc : FeatureFlagService} {zone : TimeZone} {i : ℕ} {c : Call}
    {s s' : Stores} {ph : Phase} {a : Action Outside} {r : FeatureFlagRow}
    (h : Move svc zone i c s ph a (.commit (some r)) s') : s'.table c.key = some r.columns := by
  generalize hph : Phase.commit (some r) = ph' at h
  cases h with
  | selected hm => exact (Table.sessionGet_eq_some (Phase.commit.inj hph).symm).2
  | interrupted x done => cases ph <;> cases hph
  | _ => cases hph

namespace Deployment

/-- The phases of all calls are local, and a row that a call holds as loaded is
still there. -/
structure Sound (D : Deployment) (s : System) : Prop where
  isLocal : ∀ i, (s.task i).Local (D.calls i)
  found : ∀ i r, s.task i = .commit (some r) → s.shared.table (D.calls i).key ≠ none

variable {D : Deployment}

theorem sound_start (clock : ℤ) (redis : Redis) (table : Table) :
    D.Sound (start clock redis table) :=
  ⟨fun _ => trivial, fun _ _ h => nomatch h⟩

theorem step_sound {s s' : System} {l : SystemLabel} (hs : D.Sound s)
    (h : D.step s l = some s') : D.Sound s' := by
  cases l with
  | env e =>
    rw [step_env h]
    refine ⟨hs.isLocal, fun i r hi => ?_⟩
    cases e <;> exact hs.found i r hi
  | task i a =>
    obtain ⟨ph, sh, hmove, rfl⟩ := step_task h
    constructor
    -- the other calls keep their phases, and rows are never deleted
    · intro j
      by_cases hj : j = i
      · subst hj
        simpa using hmove.local (hs.isLocal j)
      · simpa [hj] using hs.isLocal j
    · intro j r hph
      by_cases hj : j = i
      · subst hj
        simp only [Function.update_self] at hph
        subst hph
        exact hmove.loaded_row ▸ Option.some_ne_none _
      · simp only [Function.update_of_ne hj] at hph
        exact hmove.table_ne_none (hs.found j r hph)

theorem run_sound {s s' : System} {ls : List SystemLabel} (hs : D.Sound s)
    (h : run D.step s ls = some s') : D.Sound s' :=
  run_invariant (fun _ _ _ hI hstep => step_sound hI hstep) hs h

theorem Sound.row {s : System} (hs : D.Sound s) {i : ℕ} (r : FeatureFlagRow)
    (h : s.task i = .commit (some r)) :
    r.key = (D.calls i).key ∧ s.shared.table (D.calls i).key ≠ none := by
  have hlocal := hs.isLocal i
  rw [h] at hlocal
  exact ⟨hlocal.2 r rfl, hs.found i r h⟩

/-- A call entered with nothing else going on runs its coroutine, its awaits ending
as the script says. -/
theorem run_alone {s : System} (hs : D.Sound s) {i : ℕ} (hi : s.task i = .idle)
    (script : ℕ → Outcome Outside) :
    ∃ n s', run D.step s (alone i script n) = some s' ∧
      s'.task i = .done (((D.calls i).program D.svc).run
        ((Stores.handler (D.zone i) i).scripted .outside script) (s.shared, 0)).1 ∧
      s'.shared = (((D.calls i).program D.svc).run
        ((Stores.handler (D.zone i) i).scripted .outside script) (s.shared, 0)).2.1 := by
  have htask : (s.task i).task D.svc (D.calls i) = .idle ((D.calls i).program D.svc) := by
    rw [hi]
    rfl
  obtain ⟨n, hn⟩ := Pool.run_alone (fun i => Stores.handler (D.zone i) i) .outside Event.step script
    (s := ⟨s.shared, fun i => (s.task i).task D.svc (D.calls i)⟩) htask
  obtain ⟨s', hrun, heq⟩ := Option.map_eq_some_iff.mp ((D.run_coroutines s _).symm.trans hn)
  obtain ⟨hshared, htasks⟩ := Pool.mk.inj heq
  have hdone := (congrFun htasks i).trans (Function.update_self ..)
  exact ⟨n, s', hrun, Phase.eq_done_of_task ((run_sound hs hrun).isLocal i) hdone, hshared⟩

/-- A call in flight can always take its next step, and has fewer left after it. -/
theorem progress {s : System} (hs : D.Sound s) {i : ℕ} (h : (s.task i).inFlight = true)
    (o : Outcome Outside) :
    ∃ s', D.step s (.task i (.resume o)) = some s' ∧
      (s'.task i).remaining < (s.task i).remaining := by
  obtain ⟨⟨ph, sh⟩, hstep⟩ : ∃ r, D.callStep i (s.task i) (.resume o) s.shared = some r :=
    Call.step_enabled (hs.isLocal i) h o s.shared
  refine ⟨⟨sh, Function.update s.task i ph⟩, ?_, ?_⟩
  · simp [step, Pool.step, hstep]
  · simpa using (Call.step_move hstep).remaining_lt

end Deployment

end PolyrepoTemplate
