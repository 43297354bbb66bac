import PolyrepoTemplate.Service.Coherence
import PolyrepoTemplate.Service.Sequential

namespace PolyrepoTemplate

open Async

/-- The plain map, and what it owes the calls entered so far. -/
structure Atomic where
  map : FlagMap
  owed : ℕ → Option (Except Exc (String × Columns))

namespace Deployment

variable {D : Deployment}

/-- A call takes effect on entry, and nothing else has an effect. -/
def atomically (D : Deployment) (a : Atomic) : SystemLabel → Atomic
  | .task i .enter => ⟨((D.calls i).onMap a.map).2,
      Function.update a.owed i (some ((D.calls i).onMap a.map).1)⟩
  | _ => a

/-- A `set_flag` is entered with no call for its pair in flight, and a `get_flag`
with no `set_flag` for its pair in flight. -/
def ReadersWriter (D : Deployment) (s : System) : SystemLabel → Prop
  | .task i .enter => ∀ j, (D.calls j).key = (D.calls i).key → (s.task j).inFlight = true →
      (D.calls i).method = .get ∧ (D.calls j).method = .get
  | _ => True

def OnlyWriter (c : Call) (row : Option Columns) : Phase → Prop
  | .select => True
  | .commit loaded => loaded.map FeatureFlagRow.columns = row
  | .stored => ∃ enabled now, c.method = .set enabled now ∧ row = some (c.columns enabled now)
  | .cache flag => row = some flag.columns
  | _ => False

theorem onlyWriter_commit {c : Call} {enabled : Bool} {now : Datetime}
    {row : Option FeatureFlagRow} {table : Table} (hrow : ∀ r, row = some r → r.key = c.key)
    (h : OnlyWriter c (table c.key) (.commit row)) :
    (c.work enabled now row).commit table =
      .ok (Function.update table c.key (some (c.columns enabled now))) := by
  have hcol : row.map FeatureFlagRow.columns = table c.key := h
  cases row with
  | none => rw [Call.work_commit_none, ← hcol, Option.map_none]
  | some r =>
    rw [Call.work_commit_some enabled now (hrow r rfl) hcol.symm, Columns.patch_self]

theorem move_onlyWriter {i : ℕ} {s s' : Stores} {ph ph' : Phase} {a : Action Outside}
    (h : Move D.svc (D.zone i) i (D.calls i) s ph a ph' s') (ha : available (Label.task i a))
    (hloc : ph.Local (D.calls i)) (hph : OnlyWriter (D.calls i) (s.table (D.calls i).key) ph) :
    OnlyWriter (D.calls i) (s'.table (D.calls i).key) ph' ∨
      ∃ flag, ph = .cache flag ∧ ph' = .done (.ok flag) := by
  cases h with
  | selected hm =>
    left
    cases hrow : s.table.sessionGet (D.zone i) (D.calls i).key with
    | none => exact (Table.sessionGet_eq_none.mp hrow).symm
    | some r => exact (Table.sessionGet_eq_some hrow).2.symm
  | committed hm hcommit =>
    left
    rw [onlyWriter_commit hloc.2 hph] at hcommit
    cases hcommit
    exact ⟨_, _, hm, Function.update_self ..⟩
  | rejected hm hcommit =>
    rw [onlyWriter_commit hloc.2 hph] at hcommit
    cases hcommit
  | setClosed hm =>
    left
    obtain ⟨enabled, now, hm', hrow⟩ := hph
    rw [hm] at hm'
    cases hm'
    exact hrow
  | cached hm => exact .inr ⟨_, rfl, rfl⟩
  | interrupted x done => cases ha
  | lostCommit x hm hcommit => cases ha
  | lostRejection x hm hcommit => cases ha
  | lostFill x hm => cases ha
  | lostCache x hm => cases ha
  | _ => exact hph.elim

theorem onlyWriter_validRow {i : ℕ} {s s' : Stores} {ph ph' : Phase} {a : Action Outside}
    (h : Move D.svc (D.zone i) i (D.calls i) s ph a ph' s') (hloc : ph.Local (D.calls i))
    (hph : OnlyWriter (D.calls i) (s.table (D.calls i).key) ph)
    (hvalid : ValidRow (s.table (D.calls i).key)) : ValidRow (s'.table (D.calls i).key) := by
  obtain ⟨-, ⟨-, htable, -⟩ | ⟨_, -, -, htable, -⟩ | ⟨_, _, _, -, rfl, hcommit, -⟩⟩ := h.effect
  · rwa [htable]
  · rwa [htable]
  · rw [onlyWriter_commit hloc.2 hph] at hcommit
    rw [← Except.ok.inj hcommit, Function.update_self]
    rintro _ ⟨⟩
    exact (D.calls i).user.userId_minLength

theorem answers_onMap {c : Call} {m : FlagMap} {r : Except Exc FeatureFlag} (hm : c.method = .get)
    (h : Answers c.name.val (m c.key) r) : (c.onMap m).1 = r.map FeatureFlag.content := by
  simp only [Call.onMap, hm]
  cases r with
  | ok flag =>
    obtain ⟨hname, hrow⟩ := h
    rw [hrow, ← hname]
    rfl
  | error e =>
    obtain ⟨hrow, rfl⟩ := h
    rw [hrow]
    rfl

/-- The interleaved system against the map: pairs without a writer agree, a reader
is on its way to what it is owed, a writer is alone on its pair, and every call
that has ended has given the answer it owed. -/
structure Serial (D : Deployment) (s : System) (a : Atomic) : Prop where
  sound : D.Sound s
  settled : ∀ key, (∀ i, (D.calls i).key = key → (s.task i).inFlight = true →
      (D.calls i).method = .get) →
    s.shared.table key = a.map key ∧ D.CoherentAt key s.shared
  valid : ∀ key, ValidRow (s.shared.table key)
  reader : ∀ i, (D.calls i).method = .get → (s.task i).inFlight = true →
    OnTrack (D.calls i).name.val (s.shared.table (D.calls i).key) (s.task i) ∧
      a.owed i = some ((D.calls i).onMap a.map).1 ∧
      ∀ j, (D.calls j).key = (D.calls i).key → (s.task j).inFlight = true →
        (D.calls j).method = .get
  writer : ∀ i enabled now, (D.calls i).method = .set enabled now → (s.task i).inFlight = true →
    OnlyWriter (D.calls i) (s.shared.table (D.calls i).key) (s.task i) ∧
      a.map (D.calls i).key = some ((D.calls i).columns enabled now) ∧
      a.owed i = some (.ok ((D.calls i).name.val, (D.calls i).columns enabled now)) ∧
      ∀ j, (D.calls j).key = (D.calls i).key → (s.task j).inFlight = true → j = i
  ended : ∀ i r, s.task i = .done r → a.owed i = some (r.map FeatureFlag.content)

theorem serial_start (D : Deployment) {clock : ℤ} {redis : Redis} {table : Table}
    (hcoh : ∀ key, D.CoherentAt key (start clock redis table).shared)
    (hvalid : ∀ key, ValidRow (table key)) :
    D.Serial (start clock redis table) ⟨table, fun _ => none⟩ where
  sound := sound_start clock redis table
  settled key _ := ⟨rfl, hcoh key⟩
  valid := hvalid
  reader _ _ h := by cases h
  writer _ _ _ _ h := by cases h
  ended _ _ h := by cases h

section
variable {s s' : System} {a : Atomic} {i : ℕ} {flag : FeatureFlag}

theorem serial_env {e : Event} (h : D.Serial s a) (hstep : D.step s (.env e) = some s') :
    D.Serial s' a := by
  have hsound := step_sound h.sound hstep
  obtain rfl := step_env hstep
  have htable : (e.step s.shared).table = s.shared.table := e.step_table s.shared
  refine ⟨hsound, fun key hkey => ?_, ?_, ?_, ?_, h.ended⟩
  · obtain ⟨hrow, hcoh⟩ := h.settled key hkey
    refine ⟨(congrFun htable key).trans hrow, ?_⟩
    exact hcoh.of_frame (e.clock_le _) (fun x hx => e.redis_some hx) (congrFun htable key)
  · intro key
    exact htable ▸ h.valid key
  · intro j hm hj
    exact htable ▸ h.reader j hm hj
  · intro j enabled now hm hj
    exact htable ▸ h.writer j enabled now hm hj

structure Entered (i : ℕ) (ph : Phase) (s s' : System) : Prop where
  idle : s.task i = .idle
  task : s'.task = Function.update s.task i ph
  clock : s'.shared.clock = s.shared.clock
  redis : s'.shared.redis = s.shared.redis
  table : s'.shared.table = s.shared.table

theorem step_enter (h : D.step s (.task i .enter) = some s') :
    ((D.calls i).method = .get ∧ Entered i .lookup s s') ∨
      ∃ enabled now, (D.calls i).method = .set enabled now ∧ Entered i .select s s' := by
  obtain ⟨ph, sh, hmove, rfl⟩ := step_task h
  generalize hph : s.task i = p at hmove
  cases hmove with
  | enterGet hm => exact .inl ⟨hm, hph, rfl, rfl, rfl, rfl⟩
  | enterSet hm => exact .inr ⟨_, _, hm, hph, rfl, rfl, rfl, rfl⟩

section
variable {ph : Phase}

theorem Entered.other (he : Entered i ph s s') {j : ℕ} (hj : j ≠ i) : s'.task j = s.task j := by
  rw [he.task, Function.update_of_ne hj]

theorem Entered.ne (he : Entered i ph s s') {j : ℕ} (hj : (s.task j).inFlight = true) :
    j ≠ i := by
  rintro rfl
  rw [he.idle] at hj
  cases hj

theorem Entered.inFlight (he : Entered i ph s s') {j : ℕ} (hj : (s.task j).inFlight = true) :
    (s'.task j).inFlight = true := by
  rwa [he.other (he.ne hj)]

theorem Entered.coherentAt (he : Entered i ph s s') {key : FlagKey}
    (h : D.CoherentAt key s.shared) : D.CoherentAt key s'.shared :=
  h.of_frame he.clock.ge (fun _ hx => he.redis ▸ hx) (congrFun he.table key)

theorem atomically_owed {j : ℕ} (hj : j ≠ i) :
    (D.atomically a (.task i .enter)).owed j = a.owed j := Function.update_of_ne hj ..

theorem Entered.ended (he : Entered i ph s s') (hph : ph.inFlight = true) (h : D.Serial s a)
    (j : ℕ) (r : Except Exc FeatureFlag) (hj : s'.task j = .done r) :
    (D.atomically a (.task i .enter)).owed j = some (r.map FeatureFlag.content) := by
  have hji : j ≠ i := by
    rintro rfl
    rw [he.task, Function.update_self] at hj
    rw [hj] at hph
    cases hph
  exact (atomically_owed hji).trans (h.ended j r (he.other hji ▸ hj))

end

theorem serial_enterGet (h : D.Serial s a) (hm : (D.calls i).method = .get)
    (he : Entered i .lookup s s') (hsound : D.Sound s')
    (hfree : ∀ j, (D.calls j).key = (D.calls i).key → (s.task j).inFlight = true →
      (D.calls j).method = .get) :
    D.Serial s' (D.atomically a (.task i .enter)) := by
  have hmap : (D.atomically a (.task i .enter)).map = a.map := Call.onMap_get hm a.map
  -- the new reader is the only one not known from before
  have hget : ∀ j, (D.calls j).key = (D.calls i).key → (s'.task j).inFlight = true →
      (D.calls j).method = .get := by
    intro j hkey hj
    by_cases hji : j = i
    · exact hji ▸ hm
    · exact hfree j hkey (he.other hji ▸ hj)
  refine ⟨hsound, ?_, he.table ▸ h.valid, ?_, ?_, he.ended rfl h⟩
  · intro key hkey
    obtain ⟨hrow, hcoh⟩ := h.settled key fun j hj hfl => hkey j hj (he.inFlight hfl)
    rw [he.table, hmap]
    exact ⟨hrow, he.coherentAt hcoh⟩
  · intro j hmj hj
    rw [he.table, hmap]
    by_cases hji : j = i
    · subst hji
      refine ⟨?_, Function.update_self .., hget⟩
      rw [he.task, Function.update_self]
      trivial
    · rw [he.other hji] at hj ⊢
      obtain ⟨htrack, ho, hno⟩ := h.reader j hmj hj
      refine ⟨htrack, (atomically_owed hji).trans ho, fun k hkey hk => ?_⟩
      by_cases hki : k = i
      · exact hki ▸ hm
      · exact hno k hkey (he.other hki ▸ hk)
  · intro j enabled now hmj hj
    have hji : j ≠ i := by
      rintro rfl
      simp [hm] at hmj
    rw [he.other hji] at hj ⊢
    obtain ⟨honly, hrow, ho, halone⟩ := h.writer j enabled now hmj hj
    rw [he.table, hmap]
    refine ⟨honly, hrow, (atomically_owed hji).trans ho, fun k hkey hk => ?_⟩
    by_cases hki : k = i
    · subst hki
      have hmj' := hfree j hkey.symm hj
      simp [hmj] at hmj'
    · exact halone k hkey (he.other hki ▸ hk)

/-- A `set_flag` is entered: the map moves at once, the row and the entry later. -/
theorem serial_enterSet (h : D.Serial s a) {enabled : Bool} {now : Datetime}
    (hm : (D.calls i).method = .set enabled now) (he : Entered i .select s s')
    (hsound : D.Sound s')
    (hfree : ∀ j, (D.calls j).key = (D.calls i).key → (s.task j).inFlight = false) :
    D.Serial s' (D.atomically a (.task i .enter)) := by
  have honMap := Call.onMap_set hm a.map
  have hmap : ∀ {key}, key ≠ (D.calls i).key →
      (D.atomically a (.task i .enter)).map key = a.map key :=
    Call.onMap_of_ne (D.calls i) a.map
  have hself : (s'.task i) = .select := by rw [he.task, Function.update_self]
  -- whoever was in flight is at another pair
  have hkey : ∀ {j}, (s.task j).inFlight = true → (D.calls j).key ≠ (D.calls i).key := by
    intro j hj heq
    rw [hfree j heq] at hj
    cases hj
  refine ⟨hsound, ?_, he.table ▸ h.valid, ?_, ?_, he.ended rfl h⟩
  · intro key hnone
    have hne : key ≠ (D.calls i).key := by
      rintro rfl
      have hget := hnone i rfl (by rw [hself]; rfl)
      simp [hm] at hget
    obtain ⟨hrow, hcoh⟩ := h.settled key fun j hj hfl => hnone j hj (he.inFlight hfl)
    rw [he.table, hmap hne]
    exact ⟨hrow, he.coherentAt hcoh⟩
  · intro j hmj hj
    have hji : j ≠ i := by
      rintro rfl
      simp [hm] at hmj
    rw [he.other hji] at hj ⊢
    obtain ⟨htrack, ho, hno⟩ := h.reader j hmj hj
    rw [he.table, atomically_owed hji, Call.onMap_congr hmj (hmap (hkey hj))]
    refine ⟨htrack, ho, fun k hk hfl => ?_⟩
    have hki : k ≠ i := by
      rintro rfl
      exact hkey hj hk.symm
    exact hno k hk (he.other hki ▸ hfl)
  · intro j enabled' now' hmj hj
    by_cases hji : j = i
    · subst hji
      rw [hm] at hmj
      cases hmj
      rw [hself]
      refine ⟨trivial, ?_, ?_, fun k hk hfl => ?_⟩
      · exact (congrFun (congrArg Prod.snd honMap) _).trans (Function.update_self ..)
      · exact (Function.update_self ..).trans (congrArg (some ∘ Prod.fst) honMap)
      · by_contra hki
        rw [he.other hki, hfree k hk] at hfl
        cases hfl
    · rw [he.other hji] at hj ⊢
      obtain ⟨honly, hrow, ho, halone⟩ := h.writer j enabled' now' hmj hj
      rw [he.table, atomically_owed hji, hmap (hkey hj)]
      refine ⟨honly, hrow, ho, fun k hk hfl => ?_⟩
      have hki : k ≠ i := by
        rintro rfl
        exact hkey hj hk.symm
      exact halone k hk (he.other hki ▸ hfl)

structure Resumed (D : Deployment) (i : ℕ) (ph : Phase) (s s' : System) : Prop where
  move : Move D.svc (D.zone i) i (D.calls i) s.shared (s.task i) (.resume .ok) ph s'.shared
  task : s'.task = Function.update s.task i ph

section
variable {ph : Phase}

theorem Resumed.self (hr : D.Resumed i ph s s') : s'.task i = ph := by
  rw [hr.task, Function.update_self]

theorem Resumed.other (hr : D.Resumed i ph s s') {j : ℕ} (hj : j ≠ i) : s'.task j = s.task j := by
  rw [hr.task, Function.update_of_ne hj]

theorem Resumed.inFlight_self (hr : D.Resumed i ph s s') : (s.task i).inFlight = true := by
  have hmove := hr.move
  generalize s.task i = p, s'.shared = sh at hmove
  cases hmove <;> rfl

theorem Resumed.inFlight (hr : D.Resumed i ph s s') {j : ℕ} (hj : (s'.task j).inFlight = true) :
    (s.task j).inFlight = true := by
  by_cases hji : j = i
  · exact hji ▸ hr.inFlight_self
  · exact hr.other hji ▸ hj

theorem Resumed.settled_of_ne (hr : D.Resumed i ph s s') (h : D.Sound s) {key : FlagKey}
    (hkey : key ≠ (D.calls i).key) {row : Option Columns}
    (hset : s.shared.table key = row ∧ D.CoherentAt key s.shared) :
    s'.shared.table key = row ∧ D.CoherentAt key s'.shared := by
  have htable : s'.shared.table key = s.shared.table key :=
    hr.move.table_frame (fun r hph => (h.row r hph).1) hkey
  refine ⟨htable.trans hset.1, hset.2.of_frame hr.move.clock_eq.ge (fun e he => ?_) htable⟩
  rwa [hr.move.redis_frame hkey] at he

end

/-- A `get_flag` takes a step: it stays on its way to the row, which stays. -/
theorem serial_read (h : D.Serial s a) {ph : Phase} (hm : (D.calls i).method = .get)
    (hsound : D.Sound s') (hr : D.Resumed i ph s s') : D.Serial s' a := by
  obtain ⟨htrack, ho, hno⟩ := h.reader i hm hr.inFlight_self
  have hsettled := h.settled (D.calls i).key hno
  have htable : s'.shared.table = s.shared.table := htrack.table_eq hr.move
  have htrack' := move_onTrack hr.move rfl (h.valid _) (fun _ => hsettled.2) htrack
  refine ⟨hsound, ?_, htable ▸ h.valid, ?_, ?_, ?_⟩
  · intro key hkey
    have hset := h.settled key fun j hj hfl => by
      by_cases hji : j = i
      · exact hji ▸ hm
      · exact hkey j hj (hr.other hji ▸ hfl)
    by_cases hki : key = (D.calls i).key
    · subst hki
      exact ⟨htable ▸ hset.1, htrack.coherentAt hr.move hset.2⟩
    · exact hr.settled_of_ne h.sound hki hset
  · intro j hmj hj
    obtain ⟨htrackj, hoj, hnoj⟩ := h.reader j hmj (hr.inFlight hj)
    rw [htable]
    refine ⟨?_, hoj, fun k hk hfl => hnoj k hk (hr.inFlight hfl)⟩
    by_cases hji : j = i
    · subst hji
      rw [hr.self]
      exact htrack'
    · rwa [hr.other hji]
  · intro j enabled now hmj hj
    have hji : j ≠ i := by
      rintro rfl
      simp [hm] at hmj
    obtain ⟨honly, hrow, hoj, halone⟩ := h.writer j enabled now hmj (hr.inFlight hj)
    rw [htable, hr.other hji]
    exact ⟨honly, hrow, hoj, fun k hk hfl => halone k hk (hr.inFlight hfl)⟩
  · intro j r hj
    by_cases hji : j = i
    · subst hji
      rw [hr.self] at hj
      rw [hj, hsettled.1] at htrack'
      rw [ho, answers_onMap hm htrack']
    · exact h.ended j r (hr.other hji ▸ hj)

theorem Resumed.written (hr : D.Resumed i (.done (.ok flag)) s s') (h : D.Sound s)
    {enabled : Bool} {now : Datetime} (hm : (D.calls i).method = .set enabled now)
    (hcache : s.task i = .cache flag)
    (hrow : s.shared.table (D.calls i).key = some flag.columns) :
    flag = (D.calls i).flag enabled now ∧ s'.shared.table (D.calls i).key = some flag.columns ∧
      D.CoherentAt (D.calls i).key s'.shared := by
  obtain ⟨-, -, hredis, htable⟩ := move_sets hr.move rfl (.inr hcache)
  have hrow' := (congrFun htable _).trans hrow
  have hname := h.set_name (.inr hcache)
  have hloc := h.isLocal i
  rw [hcache] at hloc
  obtain ⟨enabled', now', hm', hflag⟩ := hloc
  rw [hm] at hm'
  cases hm'
  exact ⟨hflag, hrow', coherentAt_cached hname hredis hrow'⟩

theorem serial_write (h : D.Serial s a) {ph : Phase} {enabled : Bool} {now : Datetime}
    (hm : (D.calls i).method = .set enabled now) (hsound : D.Sound s')
    (hr : D.Resumed i ph s s') : D.Serial s' a := by
  obtain ⟨honly, hrow, ho, halone⟩ := h.writer i enabled now hm hr.inFlight_self
  have honly' := move_onlyWriter hr.move rfl (h.sound.isLocal i) honly
  have hne : ∀ {j}, j ≠ i → (s.task j).inFlight = true → (D.calls j).key ≠ (D.calls i).key :=
    fun hj hfl hkey => hj (halone _ hkey hfl)
  have hrows := fun r hph => (h.sound.row (i := i) r hph).1
  refine ⟨hsound, ?_, ?_, ?_, ?_, ?_⟩
  · intro key hkey
    by_cases hki : key = (D.calls i).key
    · subst hki
      obtain hon | ⟨flag, hcache, rfl⟩ := honly'
      · -- still in flight
        have hget := hkey i rfl (by rw [hr.self]; cases ph <;> first | rfl | exact hon.elim)
        simp [hm] at hget
      · rw [hcache] at honly
        obtain ⟨rfl, hrow', hcoh⟩ := hr.written h.sound hm hcache honly
        exact ⟨hrow'.trans hrow.symm, hcoh⟩
    · refine hr.settled_of_ne h.sound hki (h.settled key fun j hj hfl => ?_)
      have hji : j ≠ i := by
        rintro rfl
        exact hki hj.symm
      exact hkey j hj (hr.other hji ▸ hfl)
  · intro key
    by_cases hki : key = (D.calls i).key
    · subst hki
      exact onlyWriter_validRow hr.move (h.sound.isLocal i) honly (h.valid _)
    · rw [hr.move.table_frame hrows hki]
      exact h.valid key
  · intro j hmj hj
    have hji : j ≠ i := by
      rintro rfl
      simp [hm] at hmj
    obtain ⟨htrackj, hoj, hnoj⟩ := h.reader j hmj (hr.inFlight hj)
    rw [hr.move.table_frame hrows (hne hji (hr.inFlight hj)), hr.other hji]
    exact ⟨htrackj, hoj, fun k hk hfl => hnoj k hk (hr.inFlight hfl)⟩
  · intro j enabled' now' hmj hj
    obtain ⟨honlyj, hrowj, hoj, halonej⟩ := h.writer j enabled' now' hmj (hr.inFlight hj)
    refine ⟨?_, hrowj, hoj, fun k hk hfl => halonej k hk (hr.inFlight hfl)⟩
    by_cases hji : j = i
    · subst hji
      rw [hr.self] at hj ⊢
      apply honly'.resolve_right
      rintro ⟨flag, -, rfl⟩
      cases hj
    · rwa [hr.move.table_frame hrows (hne hji (hr.inFlight hj)), hr.other hji]
  · intro j r hj
    by_cases hji : j = i
    · subst hji
      rw [hr.self] at hj
      subst hj
      obtain hon | ⟨flag, hcache, hdone⟩ := honly'
      · exact hon.elim
      · cases hdone
        rw [hcache] at honly
        obtain ⟨rfl, -, -⟩ := hr.written h.sound hm hcache honly
        exact ho
    · exact h.ended j r (hr.other hji ▸ hj)

theorem step_serial {l : SystemLabel} (h : D.Serial s a) (hl : available l)
    (hfree : D.ReadersWriter s l) (hstep : D.step s l = some s') :
    D.Serial s' (D.atomically a l) := by
  have hsound := step_sound h.sound hstep
  cases l with
  | env e => exact serial_env h hstep
  | task i act =>
    cases act with
    | enter =>
      obtain ⟨hm, he⟩ | ⟨enabled, now, hm, he⟩ := step_enter hstep
      · exact serial_enterGet h hm he hsound fun j hkey hj => (hfree j hkey hj).2
      · refine serial_enterSet h hm he hsound fun j hkey => ?_
        by_contra hj
        obtain ⟨hget, -⟩ := hfree j hkey (Bool.not_eq_false _ ▸ hj)
        simp [hm] at hget
    | resume o =>
      obtain rfl : o = .ok := hl
      obtain ⟨ph, sh, hmove, rfl⟩ := step_task hstep
      have hr : D.Resumed i ph s ⟨sh, Function.update s.task i ph⟩ := ⟨hmove, rfl⟩
      cases hm : (D.calls i).method with
      | get => exact serial_read h hm hsound hr
      | set enabled now => exact serial_write h hm hsound hr

end

/-- Both stores available, live entries holding their rows, every row a valid flag:
in each run where readers of a pair and one writer exclude each other, a call that
has ended has answered as if the plain map had served it when it was entered, and a
pair with no call in flight has the row the map has. -/
theorem serial_of_readersWriter (D : Deployment) {clock : ℤ} {redis : Redis} {table : Table}
    (hcoh : ∀ key, D.CoherentAt key (start clock redis table).shared)
    (hvalid : ∀ key, ValidRow (table key)) {ls : List SystemLabel} {s : System}
    (hls : ∀ l ∈ ls, available l)
    (hfree : Along D.step D.ReadersWriter (start clock redis table) ls)
    (hrun : run D.step (start clock redis table) ls = some s) :
    (∀ i r, s.task i = .done r →
      (ls.foldl D.atomically ⟨table, fun _ => none⟩).owed i = some (r.map FeatureFlag.content)) ∧
    ∀ key, (∀ i, (D.calls i).key = key → (s.task i).inFlight = false) →
      s.shared.table key = (ls.foldl D.atomically ⟨table, fun _ => none⟩).map key := by
  have hstep : ∀ s a l s', D.Serial s a → D.ReadersWriter s l ∧ available l →
      D.step s l = some s' → D.Serial s' (D.atomically a l) :=
    fun s a l s' h hl hstep => step_serial h hl.2 hl.1 hstep
  have hserial := run_simulation_along hstep (serial_start D hcoh hvalid)
    (hfree.and (along_of_forall_mem hls)) hrun
  refine ⟨hserial.ended, fun key hquiet => (hserial.settled key fun i hkey hi => ?_).1⟩
  rw [hquiet i hkey] at hi
  cases hi

/-- Ann writes, then two reads overlap. -/
theorem serial_sample :
    ∃ s r, run (sample fun i => if i = 0 then .set true ⟨1, 0⟩ else .get).step
        (start 0 (fun _ => none) fun _ => none)
        (solo 0 4 ++ [.task 1 .enter, .task 2 .enter, .task 2 (.resume .ok)]) = some s ∧
      s.task 2 = .done r ∧ r.map FeatureFlag.content = .ok ("dark-mode", ⟨true, 1, "ann"⟩) := by
  have hrun : run (sample fun i => if i = 0 then .set true ⟨1, 0⟩ else .get).step
    (start 0 (fun _ => none) fun _ => none)
    (solo 0 4 ++ [.task 1 .enter, .task 2 .enter, .task 2 (.resume .ok)]) = some _ := rfl
  refine ⟨_, _, hrun, rfl, Option.some.inj (.trans (.symm ?_) rfl)⟩
  apply (serial_of_readersWriter _ (fun key => coherentAt_empty key 0 _)
    (fun _ _ h => (by cases h)) _ _ hrun).1 2 _ rfl
  · simp [available, solo]
  · rintro _ ⟨⟩
    refine ⟨fun j _ hj => (by cases hj), ?_⟩
    rintro _ ⟨⟩
    refine ⟨trivial, ?_⟩
    rintro _ ⟨⟩
    refine ⟨trivial, ?_⟩
    rintro _ ⟨⟩
    refine ⟨trivial, ?_⟩
    rintro _ ⟨⟩
    refine ⟨trivial, ?_⟩
    rintro _ ⟨⟩
    refine ⟨?_, ?_⟩
    · rintro (_ | j) - hj <;> cases hj
    rintro _ ⟨⟩
    refine ⟨?_, ?_⟩
    · rintro (_ | _ | j) - hj
      · cases hj
      · exact ⟨rfl, rfl⟩
      · cases hj
    rintro _ ⟨⟩
    exact ⟨trivial, trivial⟩

end Deployment

end PolyrepoTemplate
