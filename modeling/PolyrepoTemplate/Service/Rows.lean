import PolyrepoTemplate.Service.Deployment
import PolyrepoTemplate.Service.Refusals

namespace PolyrepoTemplate

open Async

namespace Deployment

variable {D : Deployment}

theorem commitsOf_cons (D : Deployment) (key : FlagKey) {i : ℕ} {s s' : Stores}
    (h : s'.commits = i :: s.commits) :
    D.commitsOf key s' =
      if (D.calls i).key = key then i :: D.commitsOf key s else D.commitsOf key s := by
  simp only [commitsOf, h, List.filter_cons, decide_eq_true_eq]

theorem commitsOf_congr (D : Deployment) (key : FlagKey) {s s' : Stores}
    (h : s'.commits = s.commits) : D.commitsOf key s' = D.commitsOf key s := by
  rw [commitsOf, commitsOf, h]

theorem step_pair_cases (key : FlagKey) {s s' : System} {l : SystemLabel} (hs : D.Sound s)
    (h : D.step s l = some s') :
    (s'.shared.table key = s.shared.table key ∧
      D.commitsOf key s'.shared = D.commitsOf key s.shared) ∨
    ∃ i enabled now row new o, l = .task i (.resume o) ∧ o.carriedOut = true ∧
      (D.calls i).key = key ∧ (D.calls i).method = .set enabled now ∧ s.task i = .commit row ∧
      s'.shared.commits = i :: s.shared.commits ∧ s'.shared.table key = some new ∧
      ((row = none ∧ s.shared.table key = none ∧ new = (D.calls i).columns enabled now) ∨
      ∃ r col, row = some r ∧ s.shared.table key = some col ∧
        new = col.patch r.columns ((D.calls i).columns enabled now)) := by
  cases l with
  | env e =>
    rw [step_env h]
    exact .inl ⟨congrFun (e.step_table s.shared) key, commitsOf_congr D key (e.step_commits _)⟩
  | task i a =>
    obtain ⟨ph, sh, hmove, rfl⟩ := step_task h
    obtain ⟨htable, hcommits⟩ | ⟨enabled, now, row, new, o, hm, hph, rfl, ho, -, hcommits, htable,
      hnew⟩ := hmove.commit_cases fun r hr => hs.row r hr
    · exact .inl ⟨congrFun htable key, commitsOf_congr D key hcommits⟩
    · by_cases hkey : (D.calls i).key = key
      · subst hkey
        refine .inr ⟨i, enabled, now, row, new, o, rfl, ho, rfl, hm, hph, hcommits, ?_, hnew⟩
        rw [htable, Function.update_self]
      · refine .inl ⟨?_, ?_⟩
        · rw [htable, Function.update_of_ne (Ne.symm hkey)]
        · rw [commitsOf_cons D key hcommits, if_neg hkey]

theorem update_commitsOf {s s' : System} {i : ℕ} {o : Outcome Outside} {r : FeatureFlagRow}
    (hs : D.Sound s) (h : D.step s (.task i (.resume o)) = some s') (ho : o.carriedOut = true)
    (hph : s.task i = .commit (some r)) :
    D.commitsOf (D.calls i).key s'.shared = i :: D.commitsOf (D.calls i).key s.shared := by
  obtain ⟨ph, sh, hmove, rfl⟩ := step_task h
  rw [hph] at hmove
  obtain ⟨hkey, hfound⟩ := hs.row r hph
  obtain ⟨col, hcol⟩ := Option.ne_none_iff_exists'.mp hfound
  rw [commitsOf_cons D _ (hmove.update_commits ho hkey hcol), if_pos rfl]

/-- The row of the pair is exactly `(enabled, now, user_id)` of the call that
committed last, and so is any flag that call has built or returned. -/
def LastCommitWins (D : Deployment) (key : FlagKey) (s : System) : Prop :=
  ∀ i rest, D.commitsOf key s.shared = i :: rest →
    ∃ enabled now, (D.calls i).method = .set enabled now ∧
      s.shared.table key = some ((D.calls i).columns enabled now) ∧
      ∀ flag, s.task i = .cache flag ∨ s.task i = .done (.ok flag) →
        flag.columns = (D.calls i).columns enabled now

/-- Of a commit on the pair: each column the `UPDATE` leaves out, because the call
assigns the value it loaded, has that value in the committed row still. -/
def WholeRow (D : Deployment) (key : FlagKey) (s : System) : SystemLabel → Prop
  | .task i (.resume o) => ∀ enabled now r col, o.carriedOut = true → (D.calls i).key = key →
      (D.calls i).method = .set enabled now → s.task i = .commit (some r) →
      s.shared.table key = some col → col.LeftOutMatch r.columns ((D.calls i).columns enabled now)
  | _ => True

theorem Sound.flag_columns {s : System} (hs : D.Sound s) {i : ℕ} {enabled : Bool} {now : Datetime}
    (hm : (D.calls i).method = .set enabled now) (flag : FeatureFlag)
    (h : s.task i = .cache flag ∨ s.task i = .done (.ok flag)) :
    flag.columns = (D.calls i).columns enabled now := by
  have hlocal := hs.isLocal i
  obtain h | h := h
  · rw [h] at hlocal
    obtain ⟨enabled', now', hm', rfl⟩ := hlocal
    rw [hm] at hm'
    cases hm'
    rfl
  · rw [h] at hlocal
    rw [hlocal enabled now flag hm rfl]
    rfl

theorem Sound.lastCommitWins_iff {key : FlagKey} {s : System} (hs : D.Sound s) :
    D.LastCommitWins key s ↔ ∀ i rest, D.commitsOf key s.shared = i :: rest →
      ∃ enabled now, (D.calls i).method = .set enabled now ∧
        s.shared.table key = some ((D.calls i).columns enabled now) := by
  constructor
  · intro h i rest hlast
    obtain ⟨enabled, now, hm, htable, -⟩ := h i rest hlast
    exact ⟨enabled, now, hm, htable⟩
  · intro h i rest hlast
    obtain ⟨enabled, now, hm, htable⟩ := h i rest hlast
    exact ⟨enabled, now, hm, htable, hs.flag_columns hm⟩

theorem Sound.lastCommitWins_congr {key : FlagKey} {s s' : System} (hs : D.Sound s)
    (hs' : D.Sound s') (htable : s'.shared.table key = s.shared.table key)
    (hcommits : D.commitsOf key s'.shared = D.commitsOf key s.shared)
    (h : D.LastCommitWins key s) : D.LastCommitWins key s' := by
  rw [hs.lastCommitWins_iff] at h
  rw [hs'.lastCommitWins_iff, htable, hcommits]
  exact h

/-- Right after a commit of call number `i` it is `i`'s triple that counts. -/
theorem Sound.lastCommitWins_commit_iff {i : ℕ} {enabled : Bool} {now : Datetime} {s s' : System}
    {new : Columns} (hs' : D.Sound s')
    (hm : (D.calls i).method = .set enabled now)
    (hcommits : s'.shared.commits = i :: s.shared.commits)
    (htable : s'.shared.table (D.calls i).key = some new) :
    D.LastCommitWins (D.calls i).key s' ↔ new = (D.calls i).columns enabled now := by
  rw [hs'.lastCommitWins_iff, commitsOf_cons D _ hcommits, if_pos rfl, htable]
  constructor
  · intro h
    obtain ⟨enabled', now', hm', heq⟩ := h i _ rfl
    rw [hm] at hm'
    cases hm'
    exact Option.some.inj heq
  · rintro rfl j rest hj
    obtain ⟨rfl, -⟩ := List.cons.inj hj
    exact ⟨enabled, now, hm, rfl⟩

theorem step_wholeRow_iff {key : FlagKey} {s s' : System} {l : SystemLabel} (hs : D.Sound s)
    (hlast : D.LastCommitWins key s) (h : D.step s l = some s') :
    D.WholeRow key s l ↔ D.LastCommitWins key s' := by
  have hs' := step_sound hs h
  obtain ⟨htable, hcommits⟩ | ⟨i, enabled, now, row, new, o, rfl, ho, rfl, hm, hph, hcommits,
    htable, hnew⟩ := step_pair_cases key hs h
  · -- nothing is committed, so an `UPDATE` of the pair was not carried out
    refine iff_of_true ?_ (hs.lastCommitWins_congr hs' htable hcommits hlast)
    cases l with
    | env e => trivial
    | task i a =>
      cases a with
      | enter => trivial
      | resume o =>
        rintro enabled now r col ho rfl - hph -
        have hcommit := update_commitsOf hs h ho hph
        rw [hcommits] at hcommit
        exact absurd hcommit.symm (List.cons_ne_self _ _)
  · rw [hs'.lastCommitWins_commit_iff hm hcommits htable]
    obtain ⟨rfl, hnone, rfl⟩ | ⟨r, col, rfl, hcol, rfl⟩ := hnew
    · refine iff_of_true ?_ rfl
      rintro enabled' now' r col - - - hph'
      rw [hph] at hph'
      cases hph'
    · -- the new row is a patch, and whole exactly when what it leaves out matches
      rw [Columns.patch_eq_iff]
      constructor
      · intro hwhole
        exact hwhole enabled now r col ho rfl hm hph hcol
      · rintro hmatch enabled' now' r' col' - - hm' hph' hcol'
        rw [hm] at hm'
        rw [hph] at hph'
        rw [hcol] at hcol'
        cases hm'
        cases hph'
        cases hcol'
        exact hmatch

/-- In every run, whatever fails: each state has the whole row of the last
committer if and only if each commit leaves out only columns that match. -/
theorem lastCommitWins_iff_wholeRow (D : Deployment) (key : FlagKey) (clock : ℤ) (redis : Redis)
    (table : Table) (ls : List SystemLabel) :
    (∀ s, Passes D.step (start clock redis table) ls s → D.LastCommitWins key s) ↔
      Along D.step (D.WholeRow key) (start clock redis table) ls := by
  symm
  refine along_iff_passes (R := fun _ _ => True) (fun _ _ _ hI hstep => step_sound hI hstep)
    (fun _ _ _ hI hP _ hstep => step_wholeRow_iff hI hP hstep) (sound_start clock redis table) ?_
    (along_of_forall fun _ _ _ => trivial)
  intro i rest h
  cases h

/-- Ann and Bob both load `false`. Bob stores `true`, then Ann stores `false`,
which her `UPDATE` leaves out: Bob's value stays, under Ann's name and time. -/
theorem lastCommitWins_fails :
    ¬ ∀ (D : Deployment) (key : FlagKey) (clock : ℤ) (redis : Redis) (table : Table)
      (ls : List SystemLabel) (s : System), table key ≠ none → (∀ l ∈ ls, available l) →
      Passes D.step (start clock redis table) ls s → D.LastCommitWins key s := by
  intro h
  have htorn := h (sample fun i => if i = 0 then .set false ⟨1, 0⟩ else .set true ⟨2, 0⟩)
    ("acme", "dark-mode") 0 (fun _ => none)
    (fun key => if key = ("acme", "dark-mode") then some ⟨false, 0, "eve"⟩ else none)
    [.task 0 .enter, .task 1 .enter, .task 0 (.resume .ok), .task 1 (.resume .ok),
      .task 1 (.resume .ok), .task 0 (.resume .ok)]
    _ (by decide) (by simp [available])
    ⟨_, [], List.cons_ne_nil _ _, (List.append_nil _).symm, rfl⟩
  obtain ⟨enabled, now, hm, hrow, -⟩ := htorn 0 [1] (by decide)
  cases hm
  exact absurd hrow (by decide)

def Upserts (D : Deployment) (s : System) : Prop :=
  ∀ i enabled now, (D.calls i).method = .set enabled now →
    (∀ e, s.task i ≠ .unwind e) ∧
    ∀ r, s.task i = .done r → r = .ok ((D.calls i).flag enabled now)

/-- Both stores are up: every operation ends as they answer it. -/
def Served (D : Deployment) (pg : Postgres) (s : System) : SystemLabel → Prop
  | .task i (.resume o) => ∀ op, (D.calls i).awaited D.svc (s.task i) = some op →
      o = s.shared.outcome pg op
  | _ => True

/-- Of an operation that a `set_flag` call awaits: neither store refuses it. -/
def Taken (D : Deployment) (pg : Postgres) (s : System) : SystemLabel → Prop
  | .task i (.resume _) => ∀ enabled now op, (D.calls i).method = .set enabled now →
      (D.calls i).awaited D.svc (s.task i) = some op → s.shared.Takes pg op
  | _ => True

/-- Of a commit that flushes an `INSERT`: no row has come up since the `SELECT`. -/
def StillNoRow (D : Deployment) (s : System) : SystemLabel → Prop
  | .task i (.resume _) => s.task i = .commit none → s.shared.table (D.calls i).key = none
  | _ => True

theorem move_upserts_iff {svc : FeatureFlagService} {zone : TimeZone} {i : ℕ} {c : Call}
    {s s' : Stores} {ph ph' : Phase} {a : Action Outside} {enabled : Bool} {now : Datetime}
    (h : Move svc zone i c s ph a ph' s') (ha : available (Label.task i a))
    (hm : c.method = .set enabled now) (hloc : ph.Local c)
    (hrow : ∀ r, ph = .commit (some r) → r.key = c.key ∧ s.table c.key ≠ none)
    (hunwind : ∀ e, ph ≠ .unwind e) :
    (ph = .commit none → s.table c.key = none) ↔
      (∀ e, ph' ≠ .unwind e) ∧ ∀ r, ph' = .done r → r = .ok (c.flag enabled now) := by
  cases h with
  | enterSet hm' => simp
  | selected hm' => simp
  | setClosed hm' => simp
  | cached hm' =>
    obtain ⟨enabled', now', hm'', rfl⟩ := hloc
    rw [hm] at hm''
    cases hm''
    simp
  | committed hm' hcommit =>
    simp only [reduceCtorEq, ne_eq, not_false_eq_true, implies_true, and_true, iff_true,
      false_imp_iff]
    rintro ⟨⟩
    rw [Call.work_commit_none] at hcommit
    split at hcommit
    · cases hcommit
    · assumption
  | @rejected _ _ row e hm' hcommit =>
    refine iff_of_false ?_ fun hbad => hbad.1 _ rfl
    intro hnone
    cases row with
    | none =>
      rw [Call.work_commit_none, hnone rfl] at hcommit
      cases hcommit
    | some r =>
      -- an `UPDATE` finds its row, so it is not rejected
      obtain ⟨hkey, hfound⟩ := hrow r rfl
      obtain ⟨col, hcol⟩ := Option.ne_none_iff_exists'.mp hfound
      rw [Call.work_commit_some _ _ hkey hcol] at hcommit
      cases hcommit
  | unwound => exact absurd rfl (hunwind _)
  | interrupted x done => cases ha
  | lostCache x hm' => cases ha
  | lostCommit x hm' => cases ha
  | lostRejection x hm' => cases ha
  | lostFill x hm' => cases ha
  | _ => simp_all

theorem Sound.method_of_commit {s : System} (hs : D.Sound s) {i : ℕ}
    {row : Option FeatureFlagRow} (h : s.task i = .commit row) :
    ∃ enabled now, (D.calls i).method = .set enabled now := by
  have hlocal := hs.isLocal i
  rw [h] at hlocal
  exact hlocal.1

theorem awaited_of_move {svc : FeatureFlagService} {zone : TimeZone} {i : ℕ} {c : Call}
    {s s' : Stores} {ph ph' : Phase} {o : Outcome Outside}
    (h : Move svc zone i c s ph (.resume o) ph' s') (hloc : ph.Local c) :
    ∃ op, c.awaited svc ph = some op := by
  obtain ⟨name, user, method⟩ := c
  cases ph with
  | idle => cases h with | interrupted x done hph => cases hph
  | done r => cases h with | interrupted x done hph => cases hph
  | unwind e => cases method <;> exact ⟨_, rfl⟩
  | lookup =>
    obtain rfl : method = .get := hloc
    exact ⟨_, rfl⟩
  | load =>
    obtain rfl : method = .get := hloc
    exact ⟨_, rfl⟩
  | loaded flag =>
    obtain rfl : method = .get := hloc.1
    exact ⟨_, rfl⟩
  | fill flag =>
    obtain rfl : method = .get := hloc.1
    exact ⟨_, rfl⟩
  | select =>
    obtain ⟨enabled, now, rfl⟩ : ∃ enabled now, method = .set enabled now := hloc
    exact ⟨_, rfl⟩
  | commit row =>
    obtain ⟨enabled, now, rfl⟩ : ∃ enabled now, method = .set enabled now := hloc.1
    exact ⟨_, rfl⟩
  | stored =>
    obtain ⟨enabled, now, rfl⟩ : ∃ enabled now, method = .set enabled now := hloc
    exact ⟨_, rfl⟩
  | cache flag =>
    obtain ⟨enabled, now, rfl, -⟩ : ∃ enabled now, method = .set enabled now ∧ _ := hloc
    exact ⟨_, rfl⟩

theorem move_served_iff {pg : Postgres} {svc : FeatureFlagService} {zone : TimeZone} {i : ℕ}
    {c : Call} {s s' : Stores} {ph ph' : Phase} {o : Outcome Outside} {enabled : Bool}
    {now : Datetime} (h : Move svc zone i c s ph (.resume o) ph' s')
    (hserved : ∀ op, c.awaited svc ph = some op → o = s.outcome pg op)
    (hm : c.method = .set enabled now) (hloc : ph.Local c)
    (hrow : ∀ r, ph = .commit (some r) → r.key = c.key ∧ s.table c.key ≠ none)
    (hunwind : ∀ e, ph ≠ .unwind e) :
    ((∀ op, c.awaited svc ph = some op → s.Takes pg op) ∧
      (ph = .commit none → s.table c.key = none)) ↔
      (∀ e, ph' ≠ .unwind e) ∧ ∀ r, ph' = .done r → r = .ok (c.flag enabled now) := by
  obtain ⟨op, hop⟩ := awaited_of_move h hloc
  have ho := hserved op hop
  simp only [hop, Option.some.injEq, forall_eq']
  by_cases htakes : s.Takes pg op
  · rw [Stores.outcome_of_takes htakes] at ho
    rw [and_iff_right htakes]
    exact move_upserts_iff h ho hm hloc hrow hunwind
  · refine iff_of_false (fun hboth => htakes hboth.1) ?_
    obtain ⟨x, hx⟩ := Stores.outcome_of_not_takes htakes
    rw [ho, hx] at h
    rintro ⟨hraised, hdone⟩
    -- the exception ends the call, or unwinds it
    cases h with
    | interrupted =>
      cases ph with
      | select => exact hraised _ rfl
      | commit row => exact hraised _ rfl
      | load => exact hraised _ rfl
      | _ => cases hdone _ rfl

theorem step_taken_iff {pg : Postgres} {s s' : System} {l : SystemLabel} (hs : D.Sound s)
    (hup : D.Upserts s) (hl : D.Served pg s l) (h : D.step s l = some s') :
    (D.Taken pg s l ∧ D.StillNoRow s l) ↔ D.Upserts s' := by
  cases l with
  | env e =>
    rw [step_env h]
    exact iff_of_true ⟨trivial, trivial⟩ hup
  | task i a =>
    obtain ⟨ph, sh, hmove, rfl⟩ := step_task h
    -- only the call that moves can raise, and only if it is a `set_flag`
    have hmoved : D.Upserts ⟨sh, Function.update s.task i ph⟩ ↔
        ∀ enabled now, (D.calls i).method = .set enabled now →
          (∀ e, ph ≠ .unwind e) ∧ ∀ r, ph = .done r → r = .ok ((D.calls i).flag enabled now) := by
      constructor
      · intro hup' enabled now hm
        simpa using hup' i enabled now hm
      · intro hi j enabled now hm
        by_cases hj : j = i
        · subst hj
          simpa using hi enabled now hm
        · simpa [hj] using hup j enabled now hm
    rw [hmoved]
    cases a with
    | enter =>
      refine iff_of_true ⟨trivial, trivial⟩ fun enabled now hm => ?_
      generalize s.task i = before at hmove
      cases hmove <;> simp
    | resume o =>
      have hiff {enabled : Bool} {now : Datetime} (hm : (D.calls i).method = .set enabled now) :=
        move_served_iff hmove hl hm (hs.isLocal i) (fun r hr => hs.row r hr)
          (hup i enabled now hm).1
      constructor
      · rintro ⟨htaken, hstill⟩ enabled now hm
        exact (hiff hm).mp ⟨fun op hop => htaken enabled now op hm hop, hstill⟩
      · intro hgood
        refine ⟨fun enabled now op hm hop => ((hiff hm).mpr (hgood enabled now hm)).1 op hop, ?_⟩
        intro hph
        obtain ⟨enabled, now, hm⟩ := hs.method_of_commit hph
        exact ((hiff hm).mpr (hgood enabled now hm)).2 hph

theorem served_progress (pg : Postgres) {s : System} (hs : D.Sound s) {i : ℕ}
    (h : (s.task i).inFlight = true) : (s.task i).remaining ≤ 4 ∧ ∃ o s',
      D.Served pg s (.task i (.resume o)) ∧ D.step s (.task i (.resume o)) = some s' ∧
      (s'.task i).remaining < (s.task i).remaining := by
  refine ⟨?_, ?_⟩
  · cases hph : s.task i <;> simp_all [Phase.remaining, Phase.inFlight]
  · -- whatever the call awaits, it is answered
    obtain hnone | ⟨op, hop⟩ := Option.eq_none_or_eq_some ((D.calls i).awaited D.svc (s.task i))
    · obtain ⟨s', hstep, hlt⟩ := progress hs h .ok
      refine ⟨.ok, s', fun op hop => ?_, hstep, hlt⟩
      rw [hnone] at hop
      cases hop
    · obtain ⟨s', hstep, hlt⟩ := progress hs h (s.shared.outcome pg op)
      refine ⟨_, s', fun op' hop' => ?_, hstep, hlt⟩
      rw [hop] at hop'
      rw [Option.some.inj hop']

/-- With both stores up: no `set_flag` call raises, and each returns its flag after at most four
awaits of its own, if and only if no operation of one is refused, and no `INSERT` is flushed
for a pair that has got a row since the `SELECT`. -/
theorem upserts_iff_taken (D : Deployment) (pg : Postgres) (clock : ℤ) (redis : Redis)
    (table : Table) {ls : List SystemLabel}
    (hserved : Along D.step (D.Served pg) (start clock redis table) ls) :
    (∀ s, Passes D.step (start clock redis table) ls s → D.Upserts s ∧
      ∀ i, (s.task i).inFlight = true → (s.task i).remaining ≤ 4 ∧ ∃ o s',
        D.Served pg s (.task i (.resume o)) ∧ D.step s (.task i (.resume o)) = some s' ∧
        (s'.task i).remaining < (s.task i).remaining) ↔
      Along D.step (fun s l => D.Taken pg s l ∧ D.StillNoRow s l) (start clock redis table) ls := by
  have hstart : D.Upserts (start clock redis table) := fun i enabled now hm =>
    ⟨fun _ h => (nomatch h), fun _ h => (nomatch h)⟩
  rw [along_iff_passes (fun _ _ _ hI hstep => step_sound hI hstep)
    (fun _ _ _ hI hP hl hstep => step_taken_iff hI hP hl hstep) (sound_start clock redis table)
    hstart hserved]
  refine forall₂_congr fun s hpass => and_iff_left fun i hi => ?_
  obtain ⟨ms, ns, -, -, hrun⟩ := hpass
  exact served_progress pg (run_sound (sound_start clock redis table) hrun) hi

theorem served_resume {pg : Postgres} {s : System} {i : ℕ} {op : StoreOp} {o : Outcome Outside}
    (hop : (D.calls i).awaited D.svc (s.task i) = some op) (ho : o = s.shared.outcome pg op) :
    D.Served pg s (.task i (.resume o)) := by
  intro op' hop'
  obtain rfl := Option.some.inj (hop.symm.trans hop')
  exact ho

def annAndBob : Deployment := sample fun i => if i = 0 then .set true ⟨1, 0⟩ else .set false ⟨2, 0⟩

/-- Both calls are entered before Ann commits, and Bob selects after that. -/
def overlapping : List SystemLabel :=
  [.task 0 .enter, .task 1 .enter, .task 0 (.resume .ok), .task 0 (.resume .ok),
    .task 1 (.resume .ok), .task 0 (.resume .ok), .task 1 (.resume .ok), .task 1 (.resume .ok),
    .task 0 (.resume .ok), .task 1 (.resume .ok)]

theorem annAndBob_resumed {s : System} {i : ℕ} {op : StoreOp}
    (hop : (annAndBob.calls i).awaited annAndBob.svc (s.task i) = some op)
    (h : s.shared.Takes .sample op) (hstill : annAndBob.StillNoRow s (.task i (.resume .ok))) :
    annAndBob.Served .sample s (.task i (.resume .ok)) ∧
      annAndBob.Taken .sample s (.task i (.resume .ok)) ∧
      annAndBob.StillNoRow s (.task i (.resume .ok)) := by
  refine ⟨served_resume hop (Stores.outcome_of_takes h).symm, fun enabled now op' _ hop' => ?_,
    hstill⟩
  obtain rfl := Option.some.inj (hop.symm.trans hop')
  exact h

theorem overlapping_along : Along annAndBob.step
    (fun s l => annAndBob.Served .sample s l ∧ annAndBob.Taken .sample s l ∧
      annAndBob.StillNoRow s l) (start 0 (fun _ => none) fun _ => none) overlapping := by
  rintro _ ⟨⟩
  refine ⟨⟨trivial, trivial, trivial⟩, ?_⟩
  rintro _ ⟨⟩
  refine ⟨⟨trivial, trivial, trivial⟩, ?_⟩
  rintro _ ⟨⟩
  refine ⟨annAndBob_resumed rfl (by decide) nofun, ?_⟩
  rintro _ ⟨⟩
  -- Ann's `INSERT`
  refine ⟨annAndBob_resumed rfl (by decide) fun _ => rfl, ?_⟩
  rintro _ ⟨⟩
  refine ⟨annAndBob_resumed rfl (by decide) nofun, ?_⟩
  rintro _ ⟨⟩
  refine ⟨annAndBob_resumed rfl (by decide) nofun, ?_⟩
  rintro _ ⟨⟩
  -- Bob's `UPDATE`
  refine ⟨annAndBob_resumed rfl (by decide) nofun, ?_⟩
  rintro _ ⟨⟩
  refine ⟨annAndBob_resumed rfl (by decide) nofun, ?_⟩
  rintro _ ⟨⟩
  refine ⟨annAndBob_resumed rfl (by decide) nofun, ?_⟩
  rintro _ ⟨⟩
  exact ⟨annAndBob_resumed rfl (by decide) nofun, trivial⟩

/-- Both calls return. -/
theorem upserts_overlapping : ∃ s,
    run annAndBob.step (start 0 (fun _ => none) fun _ => none) overlapping = some s ∧
    s.task 0 = .done (.ok ((annAndBob.calls 0).flag true ⟨1, 0⟩)) ∧
    s.task 1 = .done (.ok ((annAndBob.calls 1).flag false ⟨2, 0⟩)) ∧ annAndBob.Upserts s := by
  refine ⟨_, rfl, rfl, rfl, ?_⟩
  exact ((upserts_iff_taken annAndBob .sample 0 (fun _ => none) (fun _ => none)
    (overlapping_along.mono fun _ _ h => h.1)).mpr (overlapping_along.mono fun _ _ h => h.2) _
    ⟨overlapping, [], List.cons_ne_nil _ _, (List.append_nil _).symm, rfl⟩).1

/-- Two calls find no row, and the second `INSERT` is rejected. -/
theorem upserts_fails :
    ¬ ∀ (D : Deployment) (pg : Postgres) (clock : ℤ) (redis : Redis) (table : Table)
      (ls : List SystemLabel) (s : System),
      Along D.step (D.Served pg) (start clock redis table) ls →
      Passes D.step (start clock redis table) ls s → D.Upserts s := by
  intro h
  have hserved : Along annAndBob.step (annAndBob.Served .sample)
      (start 0 (fun _ => none) fun _ => none)
      [.task 0 .enter, .task 1 .enter, .task 0 (.resume .ok), .task 1 (.resume .ok),
        .task 0 (.resume .ok), .task 1 (.resume .ok)] := by
    rintro _ ⟨⟩
    refine ⟨trivial, ?_⟩
    rintro _ ⟨⟩
    refine ⟨trivial, ?_⟩
    rintro _ ⟨⟩
    refine ⟨served_resume rfl (by decide), ?_⟩
    rintro _ ⟨⟩
    refine ⟨served_resume rfl (by decide), ?_⟩
    rintro _ ⟨⟩
    refine ⟨served_resume rfl (by decide), ?_⟩
    rintro _ ⟨⟩
    exact ⟨served_resume rfl (by decide), trivial⟩
  have hraised := h annAndBob .sample 0 (fun _ => none) (fun _ => none) _ _ hserved
    ⟨_, [], List.cons_ne_nil _ _, (List.append_nil _).symm, rfl⟩
  exact (hraised 1 false ⟨2, 0⟩ rfl).1 (.flushError .integrityError) rfl

end Deployment

end PolyrepoTemplate
