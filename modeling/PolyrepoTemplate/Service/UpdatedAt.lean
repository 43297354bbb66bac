import Mathlib.Order.Bounds.Basic
import PolyrepoTemplate.Service.Provenance
import PolyrepoTemplate.Service.Staleness

namespace PolyrepoTemplate

open Async

def Call.StampedAt (c : Call) (t : ℤ) : Prop :=
  ∃ enabled now, c.method = .set enabled now ∧ now.instant = t

theorem Call.stampedAt_iff {c : Call} {enabled : Bool} {now : Datetime}
    (hm : c.method = .set enabled now) {t : ℤ} : c.StampedAt t ↔ t = now.instant := by
  constructor
  · rintro ⟨enabled', now', hm', rfl⟩
    rw [hm] at hm'
    cases hm'
    rfl
  · rintro rfl
    exact ⟨enabled, now, hm, rfl⟩

namespace Deployment

variable {D : Deployment} {key : FlagKey}

def stamps (D : Deployment) (key : FlagKey) (s : Stores) : Set ℤ :=
  {t | ∃ i ∈ D.commitsOf key s, (D.calls i).StampedAt t}

def LatestStamp (D : Deployment) (key : FlagKey) (s : System) : Prop :=
  D.commitsOf key s.shared ≠ [] →
    ∃ col, s.shared.table key = some col ∧ IsGreatest (D.stamps key s.shared) col.updatedAt

/-- In no later state of the run is `updated_at` less than in an earlier one. -/
def NeverBack (D : Deployment) (key : FlagKey) (s₀ : System) (ls : List SystemLabel) : Prop :=
  ∀ ms ns s s', ls = ms ++ ns → run D.step s₀ ms = some s → Passes D.step s ns s' →
    ∀ col, s.shared.table key = some col →
      ∃ col', s'.shared.table key = some col' ∧ col.updatedAt ≤ col'.updatedAt

/-- Of an `UPDATE` of the pair: no later time stamp has been committed, or the row it
loaded has the call's own, which it then leaves out. -/
def InOrder (D : Deployment) (key : FlagKey) (s : System) : SystemLabel → Prop
  | .task i (.resume o) => ∀ enabled now r, o.carriedOut = true → (D.calls i).key = key →
      (D.calls i).method = .set enabled now → s.task i = .commit (some r) →
      r.updatedAt.instant = now.instant ∨ ∀ t ∈ D.stamps key s.shared, t ≤ now.instant
  | _ => True

def StartsBefore (D : Deployment) (key : FlagKey) (table : Table) : Prop :=
  ∀ i t col, (D.calls i).key = key → (D.calls i).StampedAt t → table key = some col →
    col.updatedAt ≤ t

theorem stamps_mono {s s' : Stores} (h : D.commitsOf key s ⊆ D.commitsOf key s') :
    D.stamps key s ⊆ D.stamps key s' := by
  rintro t ⟨i, hi, ht⟩
  exact ⟨i, h hi, ht⟩

theorem stamps_commit {i : ℕ} {enabled : Bool} {now : Datetime} {s s' : Stores}
    (hm : (D.calls i).method = .set enabled now) (h : s'.commits = i :: s.commits) :
    D.stamps (D.calls i).key s' = insert now.instant (D.stamps (D.calls i).key s) := by
  have hcommits := commitsOf_cons D (D.calls i).key h
  rw [if_pos rfl] at hcommits
  ext t
  constructor
  · rintro ⟨j, hj, ht⟩
    rw [hcommits] at hj
    obtain rfl | hj := List.mem_cons.mp hj
    · exact .inl ((Call.stampedAt_iff hm).mp ht)
    · exact .inr ⟨j, hj, ht⟩
  · rintro (ht | ⟨j, hj, ht⟩)
    · exact ⟨i, hcommits ▸ List.mem_cons_self, (Call.stampedAt_iff hm).mpr ht⟩
    · exact ⟨j, hcommits ▸ List.mem_cons_of_mem i hj, ht⟩

theorem stamps_congr {s s' : Stores} (h : D.commitsOf key s' = D.commitsOf key s) :
    D.stamps key s' = D.stamps key s := by
  rw [stamps, stamps, h]

def Known (D : Deployment) (key : FlagKey) (table : Table) (s : Stores) (t : ℤ) : Prop :=
  (∃ col, table key = some col ∧ col.updatedAt = t) ∨ t ∈ D.stamps key s

theorem Known.mono {table : Table} {s s' : Stores} {t : ℤ} (h : D.Known key table s t)
    (hsub : D.commitsOf key s ⊆ D.commitsOf key s') : D.Known key table s' t :=
  h.imp_right fun ht => stamps_mono hsub ht

/-- Every time stamp on the pair is known, in the row and in the rows that calls hold as
loaded, and without a commit the row is the one before the run. -/
structure Traced (D : Deployment) (key : FlagKey) (table : Table) (s : System) : Prop where
  untouched : D.commitsOf key s.shared = [] → s.shared.table key = table key
  row : ∀ col, s.shared.table key = some col → D.Known key table s.shared col.updatedAt
  loaded : ∀ i r, (D.calls i).key = key → s.task i = .commit (some r) →
    D.Known key table s.shared r.updatedAt.instant

theorem traced_start (clock : ℤ) (redis : Redis) (table : Table) :
    D.Traced key table (start clock redis table) :=
  ⟨fun _ => rfl, fun col hcol => .inl ⟨col, hcol, rfl⟩, fun _ _ _ h => by cases h⟩

theorem known_patch {table : Table} {s : Stores} {col loaded row : Columns}
    (hcol : D.Known key table s col.updatedAt) (hrow : D.Known key table s row.updatedAt) :
    D.Known key table s (col.patch loaded row).updatedAt := by
  simp only [Columns.patch]
  split
  · exact hcol
  · exact hrow

theorem step_traced {table : Table} {s s' : System} {l : SystemLabel} (hs : D.Sound s)
    (ht : D.Traced key table s) (h : D.step s l = some s') : D.Traced key table s' := by
  have hsub := (step_commitsOf key h).subset
  have hrow : ∀ col, s'.shared.table key = some col →
      D.Known key table s'.shared col.updatedAt := by
    intro col hcol
    obtain ⟨htable, -⟩ | ⟨i, enabled, now, row, new, o, -, -, rfl, hm, -, hcommits, htable, hnew⟩ :=
      step_pair_cases key hs h
    · exact (ht.row col (htable ▸ hcol)).mono hsub
    · obtain rfl := Option.some.inj (htable.symm.trans hcol)
      have hnow : D.Known (D.calls i).key table s'.shared now.instant :=
        .inr (stamps_commit hm hcommits ▸ Set.mem_insert _ _)
      obtain ⟨-, -, rfl⟩ | ⟨r, old, -, hold, rfl⟩ := hnew
      · exact hnow
      · exact known_patch ((ht.row old hold).mono hsub) hnow
  refine ⟨fun hnone => ?_, hrow, fun j r hkey hj => ?_⟩
  · obtain ⟨htable, hcommits⟩ | ⟨i, _, _, _, _, _, -, -, rfl, -, -, hcommits, -⟩ :=
      step_pair_cases key hs h
    · exact htable.trans (ht.untouched (hcommits ▸ hnone))
    · rw [commitsOf_cons D _ hcommits, if_pos rfl] at hnone
      cases hnone
  · cases l with
    | env e =>
      obtain rfl := step_env h
      exact (ht.loaded j r hkey hj).mono hsub
    | task i a =>
      obtain ⟨ph, sh, hmove, rfl⟩ := step_task h
      by_cases hji : j = i
      · subst hji
        obtain rfl : ph = .commit (some r) := (Function.update_self ..).symm.trans hj
        exact hrow r.columns (hkey ▸ hmove.loaded_row)
      · have hphase := (Function.update_of_ne hji ..).symm.trans hj
        exact (ht.loaded j r hkey hphase).mono hsub

theorem latestStamp_congr {s s' : System} (htable : s'.shared.table key = s.shared.table key)
    (hcommits : D.commitsOf key s'.shared = D.commitsOf key s.shared) :
    D.LatestStamp key s' ↔ D.LatestStamp key s := by
  rw [LatestStamp, LatestStamp, htable, hcommits, stamps_congr hcommits]

theorem latestStamp_commit_iff {i : ℕ} {enabled : Bool} {now : Datetime} {s s' : System}
    {new : Columns} (hm : (D.calls i).method = .set enabled now)
    (hcommits : s'.shared.commits = i :: s.shared.commits)
    (htable : s'.shared.table (D.calls i).key = some new) :
    D.LatestStamp (D.calls i).key s' ↔
      IsGreatest (insert now.instant (D.stamps (D.calls i).key s.shared)) new.updatedAt := by
  rw [LatestStamp, stamps_commit hm hcommits, commitsOf_cons D _ hcommits, if_pos rfl, htable]
  constructor
  · intro h
    obtain ⟨col, hcol, hgreatest⟩ := h (List.cons_ne_nil _ _)
    exact Option.some.inj hcol ▸ hgreatest
  · exact fun h _ => ⟨new, rfl, h⟩

theorem Known.le {table : Table} {s : System} {t : ℤ} {col : Columns}
    (h : D.Known key table s.shared t) (hstart : D.StartsBefore key table)
    (ht : D.Traced key table s) (hlatest : D.LatestStamp key s)
    (hcol : s.shared.table key = some col) : t ≤ col.updatedAt := by
  by_cases hcommits : D.commitsOf key s.shared = []
  · have hsame := (ht.untouched hcommits).symm.trans hcol
    obtain ⟨first, hfirst, rfl⟩ | ⟨i, hi, -⟩ := h
    · exact (congrArg Columns.updatedAt (Option.some.inj (hfirst.symm.trans hsame))).le
    · rw [hcommits] at hi
      cases hi
  · obtain ⟨col', hcol', hgreatest⟩ := hlatest hcommits
    obtain rfl := Option.some.inj (hcol.symm.trans hcol')
    obtain ⟨first, hfirst, rfl⟩ | hstamp := h
    · obtain ⟨i, hi, hstamp⟩ := hgreatest.1
      exact hstart i _ first (mem_commitsOf.mp hi).2 hstamp hfirst
    · exact hgreatest.2 hstamp

theorem isGreatest_insert_self {t : ℤ} {S : Set ℤ} :
    IsGreatest (insert t S) t ↔ ∀ u ∈ S, u ≤ t := by
  constructor
  · exact fun h u hu => h.2 (Set.mem_insert_of_mem t hu)
  · intro h
    refine ⟨Set.mem_insert t S, ?_⟩
    rintro u (rfl | hu)
    · exact le_rfl
    · exact h u hu

/-- The `UPDATE` of a row that was loaded with the call's own time stamp. -/
theorem isGreatest_of_own {table : Table} {s : System} {i : ℕ} {t : ℤ} {col : Columns}
    (hstart : D.StartsBefore (D.calls i).key table) (ht : D.Traced (D.calls i).key table s)
    (hlatest : D.LatestStamp (D.calls i).key s) (hi : (D.calls i).StampedAt t)
    (hknown : D.Known (D.calls i).key table s.shared t)
    (hcol : s.shared.table (D.calls i).key = some col) :
    IsGreatest (insert t (D.stamps (D.calls i).key s.shared)) col.updatedAt := by
  have hle := hknown.le hstart ht hlatest hcol
  constructor
  · obtain ⟨first, hfirst, heq⟩ | hstamp := ht.row col hcol
    · exact .inl (le_antisymm (heq ▸ hstart i t first rfl hi hfirst) hle)
    · exact .inr hstamp
  · rintro u (rfl | hu)
    · exact hle
    · have hu : D.Known (D.calls i).key table s.shared u := .inr hu
      exact hu.le hstart ht hlatest hcol

theorem inOrder_of_quiet {s s' : System} {l : SystemLabel} (hs : D.Sound s)
    (h : D.step s l = some s') (hcommits : D.commitsOf key s'.shared = D.commitsOf key s.shared) :
    D.InOrder key s l := by
  cases l with
  | env e => trivial
  | task i a =>
    cases a with
    | enter => trivial
    | resume o =>
      rintro enabled now r ho rfl - hph
      have hcommit := update_commitsOf hs h ho hph
      rw [hcommits] at hcommit
      exact absurd hcommit.symm (List.cons_ne_self _ _)

theorem inOrder_update_iff {s : System} {i : ℕ} {o : Outcome Outside} {enabled : Bool}
    {now : Datetime} {r : FeatureFlagRow} (ho : o.carriedOut = true)
    (hm : (D.calls i).method = .set enabled now) (hph : s.task i = .commit (some r)) :
    D.InOrder (D.calls i).key s (.task i (.resume o)) ↔ r.updatedAt.instant = now.instant ∨
      ∀ t ∈ D.stamps (D.calls i).key s.shared, t ≤ now.instant := by
  constructor
  · exact fun h => h enabled now r ho rfl hm hph
  · rintro h enabled' now' r' - - hm' hph'
    rw [hm] at hm'
    rw [hph] at hph'
    cases hm'
    cases hph'
    exact h

theorem step_inOrder_iff {table : Table} {s s' : System} {l : SystemLabel}
    (hstart : D.StartsBefore key table) (hs : D.Sound s) (ht : D.Traced key table s)
    (hlatest : D.LatestStamp key s) (h : D.step s l = some s') :
    D.InOrder key s l ↔ D.LatestStamp key s' := by
  obtain ⟨htable, hcommits⟩ | ⟨i, enabled, now, row, new, o, rfl, ho, rfl, hm, hph, hcommits,
    htable, hnew⟩ := step_pair_cases key hs h
  · apply iff_of_true (inOrder_of_quiet hs h hcommits)
    exact (latestStamp_congr htable hcommits).mpr hlatest
  · rw [latestStamp_commit_iff hm hcommits htable]
    obtain ⟨rfl, hnone, rfl⟩ | ⟨r, col, rfl, hcol, rfl⟩ := hnew
    · -- no row, so no commit either, and the `INSERT` brings the only time stamp
      apply iff_of_true
      · rintro _ _ r - - - hph'
        rw [hph] at hph'
        cases hph'
      · apply isGreatest_insert_self.mpr
        rintro t ⟨j, hj, -⟩
        obtain ⟨col, hcol, -⟩ := hlatest (List.ne_nil_of_mem hj)
        rw [hnone] at hcol
        cases hcol
    · rw [inOrder_update_iff ho hm hph]
      by_cases hown : now.instant = r.updatedAt.instant
      · -- the column is left out, and what is there is no earlier than what was loaded
        have hpatch : (col.patch r.columns ((D.calls i).columns enabled now)).updatedAt =
            col.updatedAt := if_pos hown
        have hknown := ht.loaded i r rfl hph
        rw [← hown] at hknown
        rw [hpatch]
        apply iff_of_true (.inl hown.symm)
        exact isGreatest_of_own hstart ht hlatest ⟨enabled, now, hm, rfl⟩ hknown hcol
      · have hpatch : (col.patch r.columns ((D.calls i).columns enabled now)).updatedAt =
            now.instant := if_neg hown
        rw [hpatch, isGreatest_insert_self]
        exact or_iff_right (Ne.symm hown)

theorem run_traced {s s' : System} {table : Table} {ls : List SystemLabel} (hs : D.Sound s)
    (ht : D.Traced key table s) (h : run D.step s ls = some s') : D.Traced key table s' :=
  (run_invariant (I := fun s => D.Sound s ∧ D.Traced key table s)
    (fun _ _ _ hI hstep => ⟨step_sound hI.1 hstep, step_traced hI.1 hI.2 hstep⟩) ⟨hs, ht⟩ h).2

theorem latestStamp_start (clock : ℤ) (redis : Redis) (table : Table) :
    D.LatestStamp key (start clock redis table) := fun h => absurd rfl h

theorem neverBack_of_latestStamp {clock : ℤ} {redis : Redis} {table : Table}
    {ls : List SystemLabel} (hstart : D.StartsBefore key table)
    (h : ∀ s, Passes D.step (start clock redis table) ls s → D.LatestStamp key s) :
    D.NeverBack key (start clock redis table) ls := by
  rintro ms ns s s' rfl hrun hpass col hcol
  have hlatest := h s' (Passes.after hrun hpass)
  obtain ⟨ms', ns', -, -, hrun'⟩ := hpass
  have hsound : D.Sound (start clock redis table) := sound_start clock redis table
  have ht : D.Traced key table s := run_traced hsound (traced_start clock redis table) hrun
  have ht' := run_traced (run_sound hsound hrun) ht hrun'
  have hsub := (run_commitsOf key hrun').subset
  -- rows are not deleted, and what the earlier state shows is known in the later one
  have hfound : ∃ col', s'.shared.table key = some col' := by
    by_cases hcommits : D.commitsOf key s'.shared = []
    · have hnone := List.eq_nil_of_subset_nil (hcommits ▸ hsub)
      exact ⟨col, (ht'.untouched hcommits).trans ((ht.untouched hnone).symm.trans hcol)⟩
    · obtain ⟨col', hcol', -⟩ := hlatest hcommits
      exact ⟨col', hcol'⟩
  obtain ⟨col', hcol'⟩ := hfound
  exact ⟨col', hcol', ((ht.row col hcol).mono hsub).le hstart ht' hlatest hcol'⟩

/-- In every run, whatever fails: `updated_at` never goes back and is the latest committed
time stamp if and only if each `UPDATE` comes in the order of the time stamps, or leaves
the column out. -/
theorem updatedAt_iff_inOrder (D : Deployment) (key : FlagKey) (clock : ℤ) (redis : Redis)
    {table : Table} (hstart : D.StartsBefore key table) (ls : List SystemLabel) :
    (D.NeverBack key (start clock redis table) ls ∧
      ∀ s, Passes D.step (start clock redis table) ls s → D.LatestStamp key s) ↔
      Along D.step (D.InOrder key) (start clock redis table) ls := by
  have hiff : Along D.step (D.InOrder key) (start clock redis table) ls ↔
      ∀ s, Passes D.step (start clock redis table) ls s → D.LatestStamp key s := by
    refine along_iff_passes (I := fun s => D.Sound s ∧ D.Traced key table s)
      (R := fun _ _ => True) ?_ ?_
      ⟨sound_start clock redis table, traced_start clock redis table⟩
      (latestStamp_start clock redis table) (along_of_forall fun _ _ _ => trivial)
    · exact fun s l s' hI hstep => ⟨step_sound hI.1 hstep, step_traced hI.1 hI.2 hstep⟩
    · exact fun s l s' hI hP _ hstep => step_inOrder_iff hstart hI.1 hI.2 hP hstep
  rw [hiff]
  exact and_iff_right_of_imp (neverBack_of_latestStamp hstart)

/-- A call that is entered reads a time no earlier than those entered before it. -/
def ClockForward (D : Deployment) (s : System) : SystemLabel → Prop
  | .task i .enter => ∀ j t t', s.task j ≠ .idle → (D.calls j).StampedAt t →
      (D.calls i).StampedAt t' → t ≤ t'
  | _ => True

def annThenBob : Deployment := sample fun i => if i = 0 then .set false ⟨1, 0⟩ else .set true ⟨2, 0⟩

def eveTable : Table :=
  fun key => if key = ("acme", "dark-mode") then some ⟨false, 0, "eve"⟩ else none

theorem annThenBob_stamped {i : ℕ} {t : ℤ} (h : (annThenBob.calls i).StampedAt t) :
    t = if i = 0 then 1 else 2 := by
  obtain ⟨enabled, now, hm, rfl⟩ := h
  by_cases hi : i = 0
  · subst hi
    cases hm
    rfl
  · have hm' : Method.set true ⟨2, 0⟩ = .set enabled now := (if_neg hi).symm.trans hm
    cases hm'
    exact (if_neg hi).symm

theorem annThenBob_startsBefore : annThenBob.StartsBefore ("acme", "dark-mode") eveTable := by
  rintro i t col - ht hcol
  rw [annThenBob_stamped ht]
  cases hcol
  split <;> decide

/-- Both read the clock, Ann first, and select the row. The two commits follow. -/
def bothWrite (first second : ℕ) : List SystemLabel :=
  [.task 0 .enter, .task 1 .enter, .task 0 (.resume .ok), .task 1 (.resume .ok),
    .task first (.resume .ok), .task second (.resume .ok)]

/-- They commit in the order they have read the clock in. -/
theorem updatedAt_inOrder : annThenBob.NeverBack ("acme", "dark-mode")
    (start 0 (fun _ => none) eveTable) (bothWrite 0 1) := by
  refine ((updatedAt_iff_inOrder annThenBob _ 0 (fun _ => none) annThenBob_startsBefore _).mpr
    ?_).1
  rintro _ ⟨⟩
  refine ⟨trivial, ?_⟩
  rintro _ ⟨⟩
  refine ⟨trivial, ?_⟩
  rintro _ ⟨⟩
  refine ⟨fun _ _ _ _ _ _ h => (by cases h), ?_⟩
  rintro _ ⟨⟩
  refine ⟨fun _ _ _ _ _ _ h => (by cases h), ?_⟩
  rintro _ ⟨⟩
  constructor
  · -- nothing is committed before Ann's row
    rintro _ _ _ - - - -
    right
    rintro t ⟨i, hi, -⟩
    cases hi
  · rintro _ ⟨⟩
    refine ⟨?_, trivial⟩
    rintro enabled now r - - hm -
    right
    rintro t ⟨i, -, ht⟩
    cases hm
    rw [annThenBob_stamped ht]
    split <;> decide

/-- Bob's commit comes first, and Ann's puts the column back to her time. -/
theorem updatedAt_fails : ¬ ∀ (D : Deployment) (key : FlagKey) (clock : ℤ) (redis : Redis)
    (table : Table) (ls : List SystemLabel), D.StartsBefore key table → (∀ l ∈ ls, available l) →
    Along D.step D.ClockForward (start clock redis table) ls →
    D.NeverBack key (start clock redis table) ls := by
  intro h
  have hclock : Along annThenBob.step annThenBob.ClockForward (start 0 (fun _ => none) eveTable)
      (bothWrite 1 0) := by
    rintro _ ⟨⟩
    refine ⟨fun j _ _ hj => absurd rfl hj, ?_⟩
    rintro _ ⟨⟩
    constructor
    · intro j t t' _ ht ht'
      rw [annThenBob_stamped ht, annThenBob_stamped ht']
      split <;> decide
    · apply along_of_forall
      intro l hl s
      simp only [List.mem_cons, List.not_mem_nil, or_false] at hl
      obtain rfl | rfl | rfl | rfl := hl <;> trivial
  have hback := h annThenBob ("acme", "dark-mode") 0 (fun _ => none) eveTable _
    annThenBob_startsBefore (by simp [bothWrite, available]) hclock
  obtain ⟨col, hcol, hle⟩ := hback ((bothWrite 1 0).take 5) [.task 0 (.resume .ok)] _ _ rfl rfl
    ⟨[.task 0 (.resume .ok)], [], List.cons_ne_nil _ _, rfl, rfl⟩ ⟨true, 2, "bob"⟩ rfl
  cases hcol
  exact absurd hle (by decide)

end Deployment

end PolyrepoTemplate
