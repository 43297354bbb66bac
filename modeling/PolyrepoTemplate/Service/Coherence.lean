import PolyrepoTemplate.Service.Rows

namespace PolyrepoTemplate

open Async

def Answers (name : String) (row : Option Columns) : Except Exc FeatureFlag → Prop
  | .ok flag => flag.name = name ∧ row = some flag.columns
  | .error e => row = none ∧ e = .featureFlagNotFound name

namespace Deployment

variable {D : Deployment}

def Decodes (D : Deployment) (key : FlagKey) (row : Option Columns) (text : String) : Prop :=
  ∃ flag, D.svc.json.validateJson text = .ok flag ∧ flag.name = key.2 ∧ row = some flag.columns

/-- The live entry of the pair, if there is one, is the committed row. -/
def CoherentAt (D : Deployment) (key : FlagKey) (s : Stores) : Prop :=
  ∀ text, s.redis.getString s.clock (cacheKey key.1 key.2) = some text →
    D.Decodes key (s.table key) text

/-- With no store call failing, a call at this phase goes on to write its entry. -/
def WritesCache (row : Option Columns) : Phase → Prop
  | .load => ∃ col, row = some col ∧ col.updatedByUserId ≠ ""
  | .loaded _ => True
  | .fill _ => True
  | .select => row ≠ none
  | .commit r => r ≠ none
  | .stored => True
  | .cache _ => True
  | _ => False

theorem coherentAt_empty (key : FlagKey) (clock : ℤ) (table : Table) :
    D.CoherentAt key (start clock (fun _ => none) table).shared :=
  fun text h => by simp [Redis.getString, Redis.live, start] at h

def Pending (D : Deployment) (key : FlagKey) (s : System) : Prop :=
  ∃ i, (D.calls i).key = key ∧ WritesCache (s.shared.table key) (s.task i)

/-- Of a `SET`: it writes the row there is, or another call for the pair is still
to write the entry. -/
def CachesCurrent (D : Deployment) (s : System) : SystemLabel → Prop
  | .task i (.resume _) => ∀ flag, s.task i = .fill flag ∨ s.task i = .cache flag →
      s.shared.table (D.calls i).key = some flag.columns ∨
      ∃ j, j ≠ i ∧ (D.calls j).key = (D.calls i).key ∧
        WritesCache (s.shared.table (D.calls i).key) (s.task j)
  | _ => True

theorem WritesCache.inFlight {row : Option Columns} {ph : Phase} (h : WritesCache row ph) :
    ph.inFlight = true := by
  cases ph <;> first | rfl | exact h.elim

theorem move_writesCache {svc : FeatureFlagService} {zone : TimeZone} {i : ℕ} {c : Call}
    {s s' : Stores} {ph ph' : Phase} {a : Action Outside} (h : Move svc zone i c s ph a ph' s')
    (ha : available (Label.task i a)) (hloc : ph.Local c)
    (hrow : ∀ r, ph = .commit (some r) → r.key = c.key ∧ s.table c.key ≠ none)
    (hph : WritesCache (s.table c.key) ph) :
    WritesCache (s'.table c.key) ph' ∨ ∃ flag, ph = .fill flag ∨ ph = .cache flag := by
  cases h with
  | missing hm hnone =>
    obtain ⟨col, hcol, -⟩ := hph
    simp [hnone] at hcol
  | invalidRow hm hr he =>
    obtain ⟨col, hcol, huser⟩ := hph
    refine absurd ?_ (Call.not_validRow hr he)
    rintro col' hcol'
    rw [hcol] at hcol'
    exact Option.some.inj hcol' ▸ huser
  | filled hm => exact .inr ⟨_, .inl rfl⟩
  | cached hm => exact .inr ⟨_, .inr rfl⟩
  | selected hm =>
    left
    simpa [WritesCache, Table.sessionGet_eq_none] using hph
  | @rejected _ _ row e hm hcommit =>
    obtain ⟨r, rfl⟩ := Option.ne_none_iff_exists'.mp hph
    obtain ⟨hkey, hfound⟩ := hrow r rfl
    obtain ⟨col, hcol⟩ := Option.ne_none_iff_exists'.mp hfound
    rw [Call.work_commit_some _ _ hkey hcol] at hcommit
    cases hcommit
  | interrupted x done => cases ha
  | lostFill x hm => cases ha
  | lostCache x hm => cases ha
  | lostCommit x hm => cases ha
  | lostRejection x hm => cases ha
  | _ => first | exact hph.elim | exact .inl trivial

theorem move_sets {svc : FeatureFlagService} {zone : TimeZone} {i : ℕ} {c : Call}
    {s s' : Stores} {ph ph' : Phase} {a : Action Outside} (h : Move svc zone i c s ph a ph' s')
    (ha : available (Label.task i a)) {flag : FeatureFlag}
    (hph : ph = .fill flag ∨ ph = .cache flag) :
    (∃ o, a = .resume o) ∧ s'.clock = s.clock ∧ s'.redis = (s.cached svc c flag).redis ∧
      s'.table = s.table := by
  obtain rfl | rfl := hph
  · cases h with
    | filled hm => exact ⟨⟨_, rfl⟩, rfl, rfl, rfl⟩
    | interrupted x done => cases ha
    | lostFill x hm => cases ha
  · cases h with
    | cached hm => exact ⟨⟨_, rfl⟩, rfl, rfl, rfl⟩
    | interrupted x done => cases ha
    | lostCache x hm => cases ha

theorem move_commits {svc : FeatureFlagService} {zone : TimeZone} {i : ℕ} {c : Call}
    {s s' : Stores} {row : Option FeatureFlagRow} {ph' : Phase} {a : Action Outside}
    (h : Move svc zone i c s (.commit row) a ph' s') (ha : available (Label.task i a)) :
    ph' = .stored ∨ s' = s := by
  cases h with
  | committed hm hcommit => exact .inl rfl
  | rejected hm hcommit => exact .inr rfl
  | interrupted x done => cases ha
  | lostCommit x hm => cases ha
  | lostRejection x hm => cases ha

theorem CoherentAt.of_frame {key : FlagKey} {s s' : Stores} (h : D.CoherentAt key s)
    (hclock : s.clock ≤ s'.clock)
    (hredis : ∀ e, s'.redis (cacheKey key.1 key.2) = some e →
      s.redis (cacheKey key.1 key.2) = some e)
    (htable : s'.table key = s.table key) : D.CoherentAt key s' := by
  intro text htext
  obtain ⟨e, he, hlive, rfl⟩ := Redis.getString_eq_some.mp htext
  rw [htable]
  exact h _ (Redis.getString_eq_some.mpr ⟨e, hredis e he, by omega, rfl⟩)

theorem coherentAt_cached {i : ℕ} {s s' : Stores} {flag : FeatureFlag}
    (hname : flag.name = (D.calls i).name.val)
    (hredis : s'.redis = (s.cached D.svc (D.calls i) flag).redis)
    (hrow : s'.table (D.calls i).key = some flag.columns) :
    D.CoherentAt (D.calls i).key s' := by
  intro text htext
  obtain ⟨e, he, -, rfl⟩ := Redis.getString_eq_some.mp htext
  rw [hredis] at he
  obtain rfl : _ = e := Option.some.inj ((Stores.cached_redis_self ..).symm.trans he)
  exact ⟨flag, D.svc.json.validateJson_dumpJson flag, hname, hrow⟩

theorem Sound.set_name {s : System} (hs : D.Sound s) {i : ℕ} {flag : FeatureFlag}
    (h : s.task i = .fill flag ∨ s.task i = .cache flag) : flag.name = (D.calls i).name.val := by
  have hlocal := hs.isLocal i
  obtain h | h := h
  · rw [h] at hlocal
    exact hlocal.2
  · rw [h] at hlocal
    obtain ⟨enabled, now, -, rfl⟩ := hlocal
    rfl

theorem pending_of_ne {key : FlagKey} {s : System} {sh : Stores} {i j : ℕ} {ph : Phase}
    (hj : j ≠ i) (hkey : (D.calls j).key = key) (htable : sh.table key = s.shared.table key)
    (h : WritesCache (s.shared.table key) (s.task j)) :
    D.Pending key ⟨sh, Function.update s.task i ph⟩ :=
  ⟨j, hkey, by simpa [hj, htable] using h⟩

theorem own_step_coherent {i : ℕ} {s : System} {ph : Phase} {sh : Stores} {a : Action Outside}
    (hs : D.Sound s) (hl : available (Label.task i a)) (hQ : D.CachesCurrent s (.task i a))
    (hinv : D.CoherentAt (D.calls i).key s.shared ∨ D.Pending (D.calls i).key s)
    (hmove : Move D.svc (D.zone i) i (D.calls i) s.shared (s.task i) a ph sh) :
    D.CoherentAt (D.calls i).key sh ∨
      D.Pending (D.calls i).key ⟨sh, Function.update s.task i ph⟩ := by
  by_cases hset : ∃ flag, s.task i = .fill flag ∨ s.task i = .cache flag
  · -- a `SET`: of the row there is, or with another one still to come
    obtain ⟨flag, hset⟩ := hset
    obtain ⟨⟨o, rfl⟩, -, hredis, htable⟩ := move_sets hmove hl hset
    obtain hrow | ⟨j, hj, hkey, hwrites⟩ := hQ flag hset
    · exact .inl (coherentAt_cached (hs.set_name hset) hredis (htable ▸ hrow))
    · exact .inr (pending_of_ne hj hkey (by rw [htable]) hwrites)
  · have hquiet : sh.clock = s.shared.clock → sh.redis = s.shared.redis →
        sh.table = s.shared.table → D.CoherentAt (D.calls i).key sh ∨
          D.Pending (D.calls i).key ⟨sh, Function.update s.task i ph⟩ := by
      intro hclock hredis htable
      obtain hcoh | ⟨j, hkey, hwrites⟩ := hinv
      · exact .inl (hcoh.of_frame hclock.ge (fun e he => hredis ▸ he) (by rw [htable]))
      · by_cases hj : j = i
        · subst hj
          right
          refine ⟨j, rfl, ?_⟩
          have hstill := move_writesCache hmove hl (hs.isLocal j) (fun r hr => hs.row r hr) hwrites
          simpa using hstill.resolve_right hset
        · exact .inr (pending_of_ne hj hkey (by rw [htable]) hwrites)
    obtain ⟨hclock, ⟨hredis, htable, -⟩ | ⟨flag, hph, -⟩ | ⟨_, _, row, -, hph, -⟩⟩ := hmove.effect
    · exact hquiet hclock hredis htable
    · exact absurd ⟨flag, hph⟩ hset
    · -- after its commit the call itself is still to write the entry
      rw [hph] at hmove
      obtain rfl | rfl := move_commits hmove hl
      · exact .inr ⟨i, rfl, by simp [WritesCache]⟩
      · exact hquiet rfl rfl rfl

theorem step_coherent {key : FlagKey} {s s' : System} {l : SystemLabel} (hs : D.Sound s)
    (hl : available l) (hQ : D.CachesCurrent s l)
    (hinv : D.CoherentAt key s.shared ∨ D.Pending key s) (h : D.step s l = some s') :
    D.CoherentAt key s'.shared ∨ D.Pending key s' := by
  cases l with
  | env e =>
    rw [step_env h]
    obtain hcoh | ⟨i, hkey, hwrites⟩ := hinv
    · exact .inl (hcoh.of_frame (e.clock_le _) (fun x hx => e.redis_some hx) (by simp))
    · exact .inr ⟨i, hkey, by simpa using hwrites⟩
  | task i a =>
    obtain ⟨ph, sh, hmove, rfl⟩ := step_task h
    by_cases hkey : (D.calls i).key = key
    · subst hkey
      exact own_step_coherent hs hl hQ hinv hmove
    · have htable : sh.table key = s.shared.table key :=
        hmove.table_frame (fun r hr => (hs.row r hr).1) (Ne.symm hkey)
      obtain hcoh | ⟨j, hj, hwrites⟩ := hinv
      · refine .inl (hcoh.of_frame hmove.clock_eq.ge (fun e he => ?_) htable)
        rwa [hmove.redis_frame (Ne.symm hkey)] at he
      · exact .inr (pending_of_ne (fun hji => hkey (hji ▸ hj)) hj htable hwrites)

/-- On its way to the answer owed for the row. -/
def OnTrack (name : String) (row : Option Columns) : Phase → Prop
  | .lookup => True
  | .load => True
  | .loaded flag => flag.name = name ∧ row = some flag.columns
  | .fill flag => flag.name = name ∧ row = some flag.columns
  | .unwind e => row = none ∧ e = .featureFlagNotFound name
  | .done r => Answers name row r
  | _ => False

theorem move_onTrack {i : ℕ} {s s' : Stores} {ph ph' : Phase} {a : Action Outside}
    (h : Move D.svc (D.zone i) i (D.calls i) s ph a ph' s') (ha : available (Label.task i a))
    (hvalid : ValidRow (s.table (D.calls i).key))
    (hcoh : ph = .lookup → D.CoherentAt (D.calls i).key s)
    (hph : OnTrack (D.calls i).name.val (s.table (D.calls i).key) ph) :
    OnTrack (D.calls i).name.val (s.table (D.calls i).key) ph' := by
  cases h with
  | enterGet hm => trivial
  | enterSet hm => exact hph.elim
  | hit hm hhit =>
    obtain ⟨flag, hflag, hname, hrow⟩ := hcoh rfl _ hhit
    rw [hflag]
    exact ⟨hname, hrow⟩
  | miss hm => trivial
  | missing hm hnone => exact ⟨hnone, rfl⟩
  | loaded hm hrow hflag =>
    exact Call.flag_of_row hrow hflag
  | invalidRow hm hrow he => exact absurd hvalid (Call.not_validRow hrow he)
  | closed hm => exact hph
  | filled hm => exact hph
  | unwound => exact hph
  | interrupted x done => cases ha
  | lostFill x hm => cases ha
  | lostCache x hm => cases ha
  | lostCommit x hm => cases ha
  | lostRejection x hm => cases ha
  | _ => exact hph.elim

theorem OnTrack.table_eq {i : ℕ} {s s' : Stores} {ph ph' : Phase} {a : Action Outside}
    {row : Option Columns} (hph : OnTrack (D.calls i).name.val row ph)
    (h : Move D.svc (D.zone i) i (D.calls i) s ph a ph' s') : s'.table = s.table := by
  obtain ⟨-, ⟨-, htable, -⟩ | ⟨_, -, -, htable, -⟩ | ⟨_, _, _, -, rfl, -⟩⟩ := h.effect
  · exact htable
  · exact htable
  · exact hph.elim

theorem OnTrack.coherentAt {i : ℕ} {s s' : Stores} {ph ph' : Phase} {a : Action Outside}
    (hph : OnTrack (D.calls i).name.val (s.table (D.calls i).key) ph)
    (h : Move D.svc (D.zone i) i (D.calls i) s ph a ph' s')
    (hcoh : D.CoherentAt (D.calls i).key s) : D.CoherentAt (D.calls i).key s' := by
  have htable := congrFun (hph.table_eq h) (D.calls i).key
  obtain hredis | ⟨flag, rfl | rfl, hredis⟩ := h.redis_cases
  · exact hcoh.of_frame h.clock_eq.ge (fun e he => hredis ▸ he) htable
  · exact coherentAt_cached hph.1 hredis (htable.trans hph.2)
  · exact hph.elim

theorem finish_get {i : ℕ} {s : System} (hs : D.Sound s)
    (hcoh : D.CoherentAt (D.calls i).key s.shared)
    (hvalid : ValidRow (s.shared.table (D.calls i).key))
    (hph : OnTrack (D.calls i).name.val (s.shared.table (D.calls i).key) (s.task i)) :
    ∃ n s' r, run D.step s (List.replicate n (.task i (.resume .ok))) = some s' ∧
      s'.task i = .done r ∧
      Answers (D.calls i).name.val (s.shared.table (D.calls i).key) r := by
  -- by induction on the awaits that are left
  induction hleft : (s.task i).remaining using Nat.strong_induction_on generalizing s
  rename_i left ih
  by_cases hflight : (s.task i).inFlight = true
  · obtain ⟨t, ht, hlt⟩ := progress hs hflight .ok
    obtain ⟨ph, sh, hmove, rfl⟩ := step_task ht
    have htable : sh.table (D.calls i).key = s.shared.table (D.calls i).key :=
      congrFun (hph.table_eq hmove) _
    have hph' : OnTrack (D.calls i).name.val (sh.table (D.calls i).key)
        (Function.update s.task i ph i) := by
      rw [htable, Function.update_self]
      exact move_onTrack hmove rfl hvalid (fun _ => hcoh) hph
    obtain ⟨n, s', r, hrun, hdone, hr⟩ := ih _ (hleft ▸ hlt) (step_sound hs ht)
      (hph.coherentAt hmove hcoh) (htable ▸ hvalid) hph' rfl
    exact ⟨n + 1, s', r, run_cons_eq_some.mpr ⟨_, ht, hrun⟩, hdone, htable ▸ hr⟩
  · cases hdone : s.task i with
    | done r =>
      rw [hdone] at hph
      exact ⟨0, s, r, rfl, hdone, hph⟩
    | idle =>
      rw [hdone] at hph
      exact hph.elim
    | _ => simp [hdone, Phase.inFlight] at hflight

/-- A `get_flag` that starts on a coherent entry, with nothing else going on. -/
theorem getFlag_alone {i : ℕ} {s : System} (hs : D.Sound s) (hm : (D.calls i).method = .get)
    (hidle : s.task i = .idle) (hcoh : D.CoherentAt (D.calls i).key s.shared)
    (hvalid : ValidRow (s.shared.table (D.calls i).key)) :
    ∃ n s' r, run D.step s (solo i n) = some s' ∧ s'.task i = .done r ∧
      Answers (D.calls i).name.val (s.shared.table (D.calls i).key) r := by
  have henter : D.step s (.task i .enter) =
      some ⟨s.shared.log .readsTotalInc, Function.update s.task i .lookup⟩ := by
    simp [step, Pool.step, callStep, Call.step, hm, hidle]
  obtain ⟨n, s', r, hrun, hdone, hr⟩ := finish_get (step_sound hs henter)
    (hcoh.of_frame le_rfl (fun _ he => he) rfl) hvalid (by simp [OnTrack])
  exact ⟨n, s', r, run_cons_eq_some.mpr ⟨_, henter, hrun⟩, hdone, hr⟩

/-- With no store call failing, from coherent entries: if every `SET` writes the
row there is, or leaves another call for the pair still to write the entry, then
whenever no call is in flight each live entry is the committed row, and a
`get_flag` that starts then returns the row, or raises when there is none. -/
theorem coherent_of_cachesCurrent (D : Deployment) {clock : ℤ} {redis : Redis} {table : Table}
    (hstart : ∀ key, D.CoherentAt key (start clock redis table).shared)
    {ls : List SystemLabel} {s : System} (hls : ∀ l ∈ ls, available l)
    (hQ : Along D.step D.CachesCurrent (start clock redis table) ls)
    (hrun : run D.step (start clock redis table) ls = some s)
    (hquiet : ∀ i, (s.task i).inFlight = false) :
    (∀ key, D.CoherentAt key s.shared) ∧
      ∀ i, (D.calls i).method = .get → s.task i = .idle →
        ValidRow (s.shared.table (D.calls i).key) →
        ∃ n s' r, run D.step s (solo i n) = some s' ∧ s'.task i = .done r ∧
          Answers (D.calls i).name.val (s.shared.table (D.calls i).key) r := by
  have hstep : ∀ s l s', (D.Sound s ∧ ∀ key, D.CoherentAt key s.shared ∨ D.Pending key s) →
      (D.CachesCurrent s l ∧ available l) → D.step s l = some s' →
      D.Sound s' ∧ ∀ key, D.CoherentAt key s'.shared ∨ D.Pending key s' :=
    fun s l s' hI hl hstep => ⟨step_sound hI.1 hstep,
      fun key => step_coherent hI.1 hl.2 hl.1 (hI.2 key) hstep⟩
  have hinv := run_invariant_along hstep
    ⟨sound_start clock redis table, fun key => .inl (hstart key)⟩
    (hQ.and (along_of_forall_mem hls)) hrun
  have hcoh : ∀ key, D.CoherentAt key s.shared := by
    intro key
    obtain hcoh | ⟨i, -, hwrites⟩ := hinv.2 key
    · exact hcoh
    · have hflight := hwrites.inFlight
      simp [hquiet i] at hflight
  exact ⟨hcoh, fun i hm hidle hvalid => getFlag_alone hinv.1 hm hidle (hcoh _) hvalid⟩

def annBobRead : Deployment :=
  sample fun i => if i = 0 then .set false ⟨1, 0⟩ else if i = 1 then .set true ⟨2, 0⟩ else .get

/-- Bob commits after Ann, and Ann writes the cache before Bob does. -/
def overtaken : List SystemLabel :=
  [.task 0 .enter, .task 1 .enter, .task 0 (.resume .ok), .task 0 (.resume .ok),
    .task 1 (.resume .ok), .task 1 (.resume .ok), .task 0 (.resume .ok), .task 0 (.resume .ok),
    .task 1 (.resume .ok), .task 1 (.resume .ok)]

theorem overtaken_cachesCurrent : Along annBobRead.step annBobRead.CachesCurrent
    (start 0 (fun _ => none) fun _ => none) overtaken := by
  rintro _ ⟨⟩
  refine ⟨trivial, ?_⟩
  rintro _ ⟨⟩
  refine ⟨trivial, ?_⟩
  rintro _ ⟨⟩
  refine ⟨nofun, ?_⟩
  rintro _ ⟨⟩
  refine ⟨nofun, ?_⟩
  rintro _ ⟨⟩
  refine ⟨nofun, ?_⟩
  rintro _ ⟨⟩
  refine ⟨nofun, ?_⟩
  rintro _ ⟨⟩
  refine ⟨nofun, ?_⟩
  rintro _ ⟨⟩
  refine ⟨?_, ?_⟩
  · -- Ann's flag is not the row any more, but Bob is still to write his
    intro flag _
    exact .inr ⟨1, by decide, rfl, trivial⟩
  rintro _ ⟨⟩
  refine ⟨nofun, ?_⟩
  rintro _ ⟨⟩
  refine ⟨?_, trivial⟩
  rintro flag (⟨⟨⟩⟩ | ⟨⟨⟩⟩)
  exact .inl rfl

/-- The entry is Bob's in the end, and so is what is read. -/
theorem coherent_overtaken : ∃ s,
    run annBobRead.step (start 0 (fun _ => none) fun _ => none) overtaken = some s ∧
    s.shared.table ("acme", "dark-mode") = some ⟨true, 2, "bob"⟩ ∧
    annBobRead.CoherentAt ("acme", "dark-mode") s.shared ∧
    ∃ n s' r, run annBobRead.step s (solo 2 n) = some s' ∧ s'.task 2 = .done r ∧
      Answers "dark-mode" (some ⟨true, 2, "bob"⟩) r := by
  have hrun : run annBobRead.step (start 0 (fun _ => none) fun _ => none) overtaken = some _ := rfl
  obtain ⟨hcoherent, hread⟩ := coherent_of_cachesCurrent annBobRead
    (fun key => coherentAt_empty key 0 _) (by simp [overtaken, available]) overtaken_cachesCurrent
    hrun (by rintro (_ | _ | i) <;> rfl)
  refine ⟨_, hrun, rfl, hcoherent _, hread 2 rfl rfl ?_⟩
  rintro _ ⟨⟩
  decide

/-- Bob commits after Ann, and Ann writes the cache after Bob: the row is Bob's,
the entry Ann's, and no call is in flight. -/
theorem coherent_fails :
    ¬ ∀ (D : Deployment) (clock : ℤ) (redis : Redis) (table : Table) (ls : List SystemLabel)
      (s : System), (∀ key, D.CoherentAt key (start clock redis table).shared) →
      (∀ l ∈ ls, available l) → run D.step (start clock redis table) ls = some s →
      (∀ i, (s.task i).inFlight = false) → ∀ key, D.CoherentAt key s.shared := by
  intro h
  have hcoh := h (sample fun i => if i = 0 then .set false ⟨1, 0⟩ else .set true ⟨2, 0⟩) 0
    (fun _ => none) (fun _ => none)
    [.task 0 .enter, .task 1 .enter, .task 0 (.resume .ok), .task 0 (.resume .ok),
      .task 1 (.resume .ok), .task 1 (.resume .ok), .task 1 (.resume .ok), .task 1 (.resume .ok),
      .task 0 (.resume .ok), .task 0 (.resume .ok)]
    _ (fun key => coherentAt_empty key 0 _) (by simp [available]) rfl
    (by rintro (_ | _ | i) <;> rfl) ("acme", "dark-mode")
  obtain ⟨flag, hflag, -, hrow⟩ := hcoh _
    (Redis.getString_eq_some.mpr ⟨⟨_, _⟩, rfl, by decide, rfl⟩)
  have hann := Except.ok.inj ((pydanticJson.validateJson_dumpJson _).symm.trans hflag)
  rw [← hann] at hrow
  exact absurd hrow (by decide)

end Deployment

end PolyrepoTemplate
