import PolyrepoTemplate.Service.Rows

namespace PolyrepoTemplate

open Async

namespace Deployment

variable {D : Deployment}

def Committed (D : Deployment) (key : FlagKey) (s : Stores) (P : Call → Bool → Datetime → Prop) :
    Prop :=
  ∃ i ∈ D.commitsOf key s, ∃ enabled now, (D.calls i).method = .set enabled now ∧
    P (D.calls i) enabled now

structure Supplied (D : Deployment) (key : FlagKey) (s : Stores) (col : Columns) : Prop where
  value : D.Committed key s fun _ enabled _ => enabled = col.value
  updatedAt : D.Committed key s fun _ _ now => now.instant = col.updatedAt
  updatedByUserId : D.Committed key s fun c _ _ => c.user.userId = col.updatedByUserId

theorem mem_commitsOf {key : FlagKey} {s : Stores} {i : ℕ} :
    i ∈ D.commitsOf key s ↔ i ∈ s.commits ∧ (D.calls i).key = key := by
  simp [commitsOf]

theorem Committed.mono {key : FlagKey} {s s' : Stores} {P : Call → Bool → Datetime → Prop}
    (h : D.Committed key s P) (hsub : s.commits ⊆ s'.commits) : D.Committed key s' P := by
  obtain ⟨i, hi, hP⟩ := h
  rw [mem_commitsOf] at hi
  exact ⟨i, mem_commitsOf.mpr ⟨hsub hi.1, hi.2⟩, hP⟩

theorem Supplied.mono {key : FlagKey} {s s' : Stores} {col : Columns}
    (h : D.Supplied key s col) (hsub : s.commits ⊆ s'.commits) : D.Supplied key s' col :=
  ⟨h.value.mono hsub, h.updatedAt.mono hsub, h.updatedByUserId.mono hsub⟩

theorem supplied_of_mem {s : Stores} {i : ℕ} {enabled : Bool} {now : Datetime}
    (hi : i ∈ s.commits) (hm : (D.calls i).method = .set enabled now) :
    D.Supplied (D.calls i).key s ((D.calls i).columns enabled now) :=
  have hmem := mem_commitsOf.mpr ⟨hi, rfl⟩
  ⟨⟨i, hmem, enabled, now, hm, rfl⟩, ⟨i, hmem, enabled, now, hm, rfl⟩,
    ⟨i, hmem, enabled, now, hm, rfl⟩⟩

/-- A patch takes each column from one of two supplied rows. -/
theorem Supplied.patch {key : FlagKey} {s : Stores} {c loaded row : Columns}
    (hc : D.Supplied key s c) (hrow : D.Supplied key s row) :
    D.Supplied key s (c.patch loaded row) := by
  constructor
  · simp only [Columns.patch]
    split
    · exact hc.value
    · exact hrow.value
  · simp only [Columns.patch]
    split
    · exact hc.updatedAt
    · exact hrow.updatedAt
  · simp only [Columns.patch]
    split
    · exact hc.updatedByUserId
    · exact hrow.updatedByUserId

end Deployment

def Call.Raises (c : Call) (e : Exc) : Prop :=
  match c.method with
  | .get => e = .featureFlagNotFound c.name.val ∨ ∃ x, e = .outside x
  | .set _ _ => (∃ f, e = .flushError f) ∨ ∃ x, e = .outside x

theorem Call.raises_outside (c : Call) (x : Outside) : c.Raises (.outside x) := by
  unfold Call.Raises
  split <;> exact .inr ⟨x, rfl⟩

namespace Deployment

variable {D : Deployment}

/-- What a call holds at a phase: a flag of supplied columns, its own commit, or an
error it may end with. -/
def Holds (D : Deployment) (s : Stores) (i : ℕ) : Phase → Prop
  | .loaded flag => flag.name = (D.calls i).name.val ∧ D.Supplied (D.calls i).key s flag.columns
  | .fill flag => flag.name = (D.calls i).name.val ∧ D.Supplied (D.calls i).key s flag.columns
  | .stored => i ∈ s.commits
  | .cache _ => i ∈ s.commits
  | .unwind e => (D.calls i).Raises e
  | .done (.ok flag) => flag.name = (D.calls i).name.val ∧ D.Supplied (D.calls i).key s flag.columns
  | .done (.error e) => (D.calls i).Raises e
  | _ => True

theorem Holds.mono {s s' : Stores} {i : ℕ} {ph : Phase} (h : D.Holds s i ph)
    (hsub : s.commits ⊆ s'.commits) : D.Holds s' i ph := by
  cases ph with
  | loaded flag => exact ⟨h.1, h.2.mono hsub⟩
  | fill flag => exact ⟨h.1, h.2.mono hsub⟩
  | stored => exact hsub h
  | cache flag => exact hsub h
  | unwind e => exact h
  | done r =>
    cases r with
    | ok flag => exact ⟨h.1, h.2.mono hsub⟩
    | error e => exact h
  | _ => trivial

def EntryOk (D : Deployment) (s : Stores) (k : String) (e : Entry) : Prop :=
  ∃ key : FlagKey, k = cacheKey key.1 key.2 ∧ ∃ flag, D.svc.json.validateJson e.value = .ok flag ∧
    flag.name = key.2 ∧ D.Supplied key s flag.columns

structure Provenance (D : Deployment) (s : System) : Prop where
  rows : ∀ key col, s.shared.table key = some col → D.Supplied key s.shared col
  entries : s.shared.redis.All (D.EntryOk s.shared)
  holds : ∀ i, D.Holds s.shared i (s.task i)

theorem EntryOk.mono {s s' : Stores} {k : String} {e : Entry} (h : D.EntryOk s k e)
    (hsub : s.commits ⊆ s'.commits) : D.EntryOk s' k e := by
  obtain ⟨key, hk, flag, hflag, hname, hcols⟩ := h
  exact ⟨key, hk, flag, hflag, hname, hcols.mono hsub⟩

theorem Supplied.user_ne {key : FlagKey} {s : Stores} {col : Columns} (h : D.Supplied key s col) :
    col.updatedByUserId ≠ "" := by
  obtain ⟨i, -, -, -, -, huser⟩ := h.updatedByUserId
  rw [← huser]
  exact (D.calls i).user.userId_minLength

theorem move_holds {i : ℕ} {s s' : Stores} {ph ph' : Phase} {a : Action Outside}
    (h : Move D.svc (D.zone i) i (D.calls i) s ph a ph' s')
    (hrows : ∀ col, s.table (D.calls i).key = some col → D.Supplied (D.calls i).key s col)
    (hentries : s.redis.All (D.EntryOk s)) (hloc : ph.Local (D.calls i)) (hph : D.Holds s i ph) :
    D.Holds s' i ph' := by
  cases h with
  | hit hm hhit =>
    obtain ⟨e, he, -, rfl⟩ := Redis.getString_eq_some.mp hhit
    obtain ⟨key, hk, flag, hflag, hname, hcols⟩ := hentries _ e he
    obtain rfl : (D.calls i).key = key := cacheKey_injective hk
    rw [hflag]
    exact ⟨hname, hcols.mono fun _ h => h⟩
  | missing hm => exact (by simp [Holds, Call.Raises, hm])
  | loaded hm hrow hflag =>
    obtain ⟨hname, hcol⟩ := Call.flag_of_row hrow hflag
    exact ⟨hname, hrows _ hcol⟩
  | invalidRow hm hrow he =>
    exact absurd (fun col hcol => (hrows col hcol).user_ne) (Call.not_validRow hrow he)
  | closed hm => exact hph
  | filled hm => exact ⟨hph.1, hph.2.mono fun _ h => h⟩
  | committed hm hcommit => exact List.mem_cons_self
  | rejected hm hcommit => exact (by simp [Holds, Call.Raises, hm])
  | setClosed hm => exact hph
  | cached hm =>
    obtain ⟨enabled, now, hm', rfl⟩ := hloc
    exact ⟨rfl, supplied_of_mem hph hm'⟩
  | unwound => exact hph
  | @interrupted ph x =>
    cases ph <;> exact Call.raises_outside _ x
  | lostFill x hm => exact Call.raises_outside _ x
  | lostCache x hm => exact Call.raises_outside _ x
  | lostCommit x hm => exact Call.raises_outside _ x
  | lostRejection x hm => exact Call.raises_outside _ x
  | _ => trivial

/-- A row is inserted whole, or patched where the row there was itself supplied. -/
theorem step_rows_supplied {s s' : System} {l : SystemLabel} (hs : D.Sound s)
    (hp : D.Provenance s) (h : D.step s l = some s') (hsub : s.shared.commits ⊆ s'.shared.commits)
    {key : FlagKey} {col : Columns} (hcol : s'.shared.table key = some col) :
    D.Supplied key s'.shared col := by
  obtain ⟨htable, -⟩ | ⟨i, enabled, now, row, new, o, -, -, rfl, hm, -, hcommits, htable, hnew⟩ :=
    step_pair_cases key hs h
  · exact (hp.rows key col (htable ▸ hcol)).mono hsub
  · have hown : D.Supplied (D.calls i).key s'.shared ((D.calls i).columns enabled now) :=
      supplied_of_mem (hcommits ▸ List.mem_cons_self) hm
    obtain rfl := Option.some.inj (htable.symm.trans hcol)
    obtain ⟨-, -, rfl⟩ | ⟨r, old, -, hold, rfl⟩ := hnew
    · exact hown
    · exact ((hp.rows _ old hold).mono hsub).patch hown

theorem step_provenance {s s' : System} {l : SystemLabel} (hs : D.Sound s) (hp : D.Provenance s)
    (h : D.step s l = some s') : D.Provenance s' := by
  have hrows := step_rows_supplied hs hp h
  cases l with
  | env e =>
    rw [step_env h] at hrows ⊢
    have hsub : s.shared.commits ⊆ (e.step s.shared).commits := by simp
    refine ⟨fun key col => hrows hsub, ?_, fun i => (hp.holds i).mono hsub⟩
    exact fun k x hx => (hp.entries k x (e.redis_some hx)).mono hsub
  | task i a =>
    obtain ⟨ph, sh, hmove, rfl⟩ := step_task h
    have hsub := hmove.commits_subset
    refine ⟨fun key col => hrows hsub, ?_, ?_⟩
    · obtain hredis | ⟨flag, hph, hredis⟩ := hmove.redis_cases
      · exact hredis ▸ hp.entries.mono fun _ _ he => he.mono hsub
      · have hflag : flag.name = (D.calls i).name.val ∧
            D.Supplied (D.calls i).key s.shared flag.columns := by
          have hholds := hp.holds i
          have hlocal := hs.isLocal i
          obtain hph | hph := hph
          · rw [hph] at hholds
            exact hholds
          · rw [hph] at hholds hlocal
            obtain ⟨enabled, now, hm, rfl⟩ := hlocal
            exact ⟨rfl, supplied_of_mem hholds hm⟩
        rw [hredis]
        refine Redis.All.setString (hp.entries.mono fun _ _ he => he.mono hsub) ?_
        exact ⟨(D.calls i).key, rfl, flag, D.svc.json.validateJson_dumpJson flag, hflag.1,
          hflag.2.mono hsub⟩
    · intro j
      by_cases hj : j = i
      · subst hj
        simpa using move_holds hmove (hp.rows _) hp.entries (hs.isLocal j) (hp.holds j)
      · simpa [hj] using (hp.holds j).mono hsub

def Untroubled (i : ℕ) (s : System) : Prop :=
  ∀ x, s.task i ≠ .unwind (.outside x) ∧ s.task i ≠ .done (.error (.outside x))

theorem move_untroubled {i : ℕ} {s s' : Stores} {ph ph' : Phase} {a : Action Outside}
    (h : Move D.svc (D.zone i) i (D.calls i) s ph a ph' s') (ha : ∀ o, a = .resume o → o = .ok)
    (hph : ∀ x, ph ≠ .unwind (.outside x)) (x : Outside) :
    ph' ≠ .unwind (.outside x) ∧ ph' ≠ .done (.error (.outside x)) := by
  cases h with
  | @hit text hm hhit =>
    cases hjson : D.svc.json.validateJson text <;> simp [validated, Except.mapError]
  | @unwound e =>
    refine ⟨nofun, ?_⟩
    rintro ⟨⟩
    exact hph x rfl
  | interrupted x done => cases ha _ rfl
  | lostFill x hm => cases ha _ rfl
  | lostCache x hm => cases ha _ rfl
  | lostCommit x hm => cases ha _ rfl
  | lostRejection x hm => cases ha _ rfl
  | _ => exact ⟨nofun, nofun⟩

theorem step_untroubled {i : ℕ} {s s' : System} {l : SystemLabel}
    (hl : ∀ o, l = .task i (.resume o) → o = .ok) (hs : Untroubled i s)
    (h : D.step s l = some s') : Untroubled i s' := by
  cases l with
  | env e =>
    rw [step_env h]
    exact hs
  | task j a =>
    obtain ⟨ph, sh, hmove, rfl⟩ := step_task h
    by_cases hj : i = j
    · subst hj
      intro x
      simp only [Function.update_self]
      exact move_untroubled hmove (fun o ho => hl o (ho ▸ rfl)) (fun y => (hs y).1) x
    · intro x
      simpa [hj] using hs x

theorem run_untroubled {i : ℕ} {s s' : System} {ls : List SystemLabel}
    (hls : ∀ o, Label.task i (.resume o) ∈ ls → o = .ok) (hs : Untroubled i s)
    (h : run D.step s ls = some s') : Untroubled i s' := by
  have hQ : Along D.step (fun _ l => ∀ o, l = .task i (.resume o) → o = .ok) s ls :=
    along_of_forall_mem fun l hl o ho => hls o (ho ▸ hl)
  exact run_invariant_along (fun _ _ _ hI hl hstep => step_untroubled hl hI hstep) hs hQ h

theorem provenance_start (clock : ℤ) : D.Provenance (start clock (fun _ => none) fun _ => none) :=
  ⟨nofun, nofun, fun _ => trivial⟩

/-- From empty stores, whatever fails: a flag that `get_flag` returns has the name
asked for and columns that committed `set_flag` calls for the pair supplied; an
error is the missing flag or comes from outside, and is the missing flag if no
`set_flag` for the pair has committed and no store call of its own failed. Every
cache entry parses. -/
theorem getFlag_provenance (D : Deployment) (clock : ℤ) {ls : List SystemLabel} {s : System}
    (hrun : run D.step (start clock (fun _ => none) fun _ => none) ls = some s) :
    (∀ i r, (D.calls i).method = .get → s.task i = .done r →
      (∀ flag, r = .ok flag →
        flag.name = (D.calls i).name.val ∧ D.Supplied (D.calls i).key s.shared flag.columns) ∧
      (∀ e, r = .error e → e = .featureFlagNotFound (D.calls i).name.val ∨ ∃ x, e = .outside x) ∧
      (D.commitsOf (D.calls i).key s.shared = [] →
        (∀ o, Label.task i (.resume o) ∈ ls → o = .ok) →
        r = .error (.featureFlagNotFound (D.calls i).name.val))) ∧
    ∀ key e, s.shared.redis key = some e →
      ∃ flag, D.svc.json.validateJson e.value = .ok flag := by
  have hinv : ∀ s l s', D.Sound s ∧ D.Provenance s → D.step s l = some s' →
      D.Sound s' ∧ D.Provenance s' :=
    fun s l s' hI hstep => ⟨step_sound hI.1 hstep, step_provenance hI.1 hI.2 hstep⟩
  obtain ⟨hs, hp⟩ := run_invariant hinv ⟨sound_start _ _ _, provenance_start clock⟩ hrun
  have hstart : ∀ i, Untroubled i (start clock (fun _ => none) fun _ => none) :=
    fun i x => ⟨fun h => (nomatch h), fun h => (nomatch h)⟩
  constructor
  · intro i r hm hr
    have hholds := hp.holds i
    rw [hr] at hholds
    cases r with
    | ok flag =>
      refine ⟨?_, nofun, ?_⟩
      · rintro _ ⟨⟩
        exact hholds
      · intro hnone _
        obtain ⟨j, hj, -⟩ := hholds.2.value
        simp [hnone] at hj
    | error e =>
      have hraises : e = .featureFlagNotFound (D.calls i).name.val ∨ ∃ x, e = .outside x := by
        simpa [Holds, Call.Raises, hm] using hholds
      refine ⟨nofun, ?_, ?_⟩
      · rintro _ ⟨⟩
        exact hraises
      · intro _ hls
        obtain rfl | ⟨x, rfl⟩ := hraises
        · rfl
        · exact absurd hr (run_untroubled hls (hstart i) hrun x).2
  · intro key e he
    obtain ⟨_, -, flag, hflag, -⟩ := hp.entries key e he
    exact ⟨flag, hflag⟩

/-- Call 0 writes, call 1 misses and then finds the row just committed. -/
def readDuringWrite : List SystemLabel :=
  [.task 1 .enter, .task 0 .enter, .task 1 (.resume .ok), .task 0 (.resume .ok),
    .task 0 (.resume .ok), .task 1 (.resume .ok), .task 1 (.resume .ok), .task 1 (.resume .ok)]

theorem getFlag_provenance_race :
    ∃ s flag, run (sample fun i => if i = 0 then .set true ⟨1, 0⟩ else .get).step
      (start 0 (fun _ => none) fun _ => none) readDuringWrite = some s ∧
      s.task 1 = .done (.ok flag) ∧
      (sample fun i => if i = 0 then .set true ⟨1, 0⟩ else .get).Supplied ("acme", "dark-mode")
        s.shared flag.columns := by
  refine ⟨_, _, rfl, rfl, ?_⟩
  have hrun : run (sample fun i => if i = 0 then .set true ⟨1, 0⟩ else .get).step
    (start 0 (fun _ => none) fun _ => none) readDuringWrite = some _ := rfl
  exact (((getFlag_provenance _ 0 hrun).1 1 _ rfl rfl).1 _ rfl).2

end Deployment

end PolyrepoTemplate
