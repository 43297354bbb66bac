import PolyrepoTemplate.Service.ReadersWriter

namespace PolyrepoTemplate

open Async

namespace Deployment

variable {D : Deployment} {i : ℕ}

/-- No other call for the pair of call `i` takes a step, and the awaits of `i` all
go through. Calls for other pairs may do and suffer anything. -/
def OnItsOwn (D : Deployment) (i : ℕ) (_ : System) : SystemLabel → Prop
  | .task j a => (D.calls j).key = (D.calls i).key → j = i ∧ available (.task j a)
  | .env _ => True

structure Repairing (D : Deployment) (i : ℕ) (s : System) : Prop where
  sound : D.Sound s
  writing : (s.task i).inFlight = true →
    OnlyWriter (D.calls i) (s.shared.table (D.calls i).key) (s.task i)
  written : ∀ r, s.task i = .done r → ∃ enabled now, (D.calls i).method = .set enabled now ∧
    r = .ok ((D.calls i).flag enabled now) ∧
    s.shared.table (D.calls i).key = some ((D.calls i).columns enabled now) ∧
    D.CoherentAt (D.calls i).key s.shared

theorem Repairing.of_frame {s s' : System} (h : D.Repairing i s) (hsound : D.Sound s')
    (htask : s'.task i = s.task i) (hclock : s.shared.clock ≤ s'.shared.clock)
    (hredis : ∀ e, s'.shared.redis (cacheKey (D.calls i).key.1 (D.calls i).key.2) = some e →
      s.shared.redis (cacheKey (D.calls i).key.1 (D.calls i).key.2) = some e)
    (htable : s'.shared.table (D.calls i).key = s.shared.table (D.calls i).key) :
    D.Repairing i s' := by
  refine ⟨hsound, fun hi => ?_, fun r hr => ?_⟩
  · rw [htask] at hi ⊢
    exact htable ▸ h.writing hi
  · obtain ⟨enabled, now, hm, hok, hrow, hcoh⟩ := h.written r (htask ▸ hr)
    exact ⟨enabled, now, hm, hok, htable.trans hrow, hcoh.of_frame hclock hredis htable⟩

theorem Resumed.repairing {ph : Phase} {s s' : System} (hr : D.Resumed i ph s s')
    (h : D.Repairing i s) (hsound : D.Sound s') : D.Repairing i s' := by
  have honly := h.writing hr.inFlight_self
  obtain hon | ⟨flag, hcache, rfl⟩ := move_onlyWriter hr.move rfl (h.sound.isLocal i) honly
  · refine ⟨hsound, fun _ => hr.self ▸ hon, fun r hdone => ?_⟩
    rw [hr.self] at hdone
    subst hdone
    exact hon.elim
  · refine ⟨hsound, fun hi => ?_, fun r hdone => ?_⟩
    · rw [hr.self] at hi
      cases hi
    · rw [hr.self] at hdone
      cases hdone
      obtain ⟨enabled, now, hm, -⟩ : ∃ enabled now, (D.calls i).method = .set enabled now ∧ _ :=
        hcache ▸ h.sound.isLocal i
      rw [hcache] at honly
      obtain ⟨rfl, hrow, hcoh⟩ := hr.written h.sound hm hcache honly
      exact ⟨enabled, now, hm, rfl, hrow, hcoh⟩

/-- A step by anybody, that the call has fewer awaits left after if it is its own. -/
theorem step_repairing {s s' : System} {l : SystemLabel}
    (h : D.Repairing i s ∧ s.task i ≠ .idle) (hown : D.OnItsOwn i s l)
    (hstep : D.step s l = some s') :
    (D.Repairing i s' ∧ s'.task i ≠ .idle) ∧
      (s'.task i).remaining + (if decide (l = .task i (.resume .ok)) then 1 else 0) ≤
        (s.task i).remaining := by
  obtain ⟨h, hentered⟩ := h
  have hsound := step_sound h.sound hstep
  cases l with
  | env e =>
    obtain rfl := step_env hstep
    exact ⟨⟨h.of_frame hsound rfl (e.clock_le _) (fun x hx => e.redis_some hx) (by simp),
      hentered⟩, by simp⟩
  | task j a =>
    by_cases hkey : (D.calls j).key = (D.calls i).key
    · obtain ⟨rfl, ha⟩ := hown hkey
      cases a with
      | enter =>
        obtain ⟨-, he⟩ | ⟨_, _, -, he⟩ := step_enter hstep
        · exact absurd he.idle hentered
        · exact absurd he.idle hentered
      | resume o =>
        obtain rfl : o = .ok := ha
        obtain ⟨ph, sh, hmove, rfl⟩ := step_task hstep
        have hr : D.Resumed j ph s ⟨sh, Function.update s.task j ph⟩ := ⟨hmove, rfl⟩
        have hlt := hmove.remaining_lt
        have hrepairing := hr.repairing h hsound
        refine ⟨⟨hrepairing, fun hidle => ?_⟩, ?_⟩
        · rw [hr.self] at hidle
          subst hidle
          -- no move leads back to the start
          generalize s.task j = p at hmove
          cases hmove
        · rw [hr.self, decide_eq_true rfl]
          exact hlt
    · obtain ⟨ph, sh, hmove, rfl⟩ := step_task hstep
      have hji : i ≠ j := fun hij => hkey (hij ▸ rfl)
      have htask : Function.update s.task j ph i = s.task i := Function.update_of_ne hji _ _
      have hframe : D.Repairing i ⟨sh, Function.update s.task j ph⟩ := by
        apply h.of_frame hsound htask hmove.clock_eq.ge
        · intro e he
          rwa [hmove.redis_frame (Ne.symm hkey)] at he
        · exact hmove.table_frame (fun r hr => (h.sound.row r hr).1) (Ne.symm hkey)
      refine ⟨⟨hframe, fun hidle => hentered (htask ▸ hidle)⟩, ?_⟩
      simp [htask, Ne.symm hji]

/-- From any state that any run has led to, failures and cancellations included: once
a `set_flag` that nobody at its pair overtakes has got its four answers, it returns
its flag, the row is the one it was called with, the live entry is that row, and
a `get_flag` entered next returns it. -/
theorem repaired (D : Deployment) {clock : ℤ} {redis : Redis} {table : Table} {i : ℕ}
    {enabled : Bool} {now : Datetime} (hm : (D.calls i).method = .set enabled now)
    {before after : List SystemLabel} {s s' : System}
    (hbefore : run D.step (start clock redis table) before = some s)
    (hown : Along D.step (D.OnItsOwn i) s (.task i .enter :: after))
    (hafter : run D.step s (.task i .enter :: after) = some s')
    (hfour : 4 ≤ after.countP fun l => l = .task i (.resume .ok)) :
    s'.task i = .done (.ok ((D.calls i).flag enabled now)) ∧
      s'.shared.table (D.calls i).key = some ((D.calls i).columns enabled now) ∧
      D.CoherentAt (D.calls i).key s'.shared ∧
      ∀ j, (D.calls j).key = (D.calls i).key → (D.calls j).method = .get → s'.task j = .idle →
        ∃ n s'' r, run D.step s' (solo j n) = some s'' ∧ s''.task j = .done r ∧
          Answers (D.calls j).name.val (some ((D.calls i).columns enabled now)) r := by
  have hsound := run_sound (sound_start clock redis table) hbefore
  obtain ⟨t, hstep, hrest⟩ := run_cons_eq_some.mp hafter
  obtain ⟨-, hownt⟩ := hown t hstep
  obtain ⟨hget, -⟩ | ⟨_, _, -, he⟩ := step_enter hstep
  · simp [hm] at hget
  have hselect : t.task i = .select := by rw [he.task, Function.update_self]
  have hstart : D.Repairing i t ∧ t.task i ≠ .idle := by
    refine ⟨⟨step_sound hsound hstep, fun _ => hselect ▸ trivial, fun r hr => ?_⟩, ?_⟩
    · rw [hselect] at hr
      cases hr
    · rw [hselect]
      simp
  obtain ⟨⟨hrepairing, hentered⟩, hcount⟩ := run_countP_le
    (fun _ _ _ h hown hstep => step_repairing h hown hstep) hstart hownt hrest
  have hzero : (s'.task i).remaining = 0 := by
    have hleft : Phase.select.remaining = 4 := rfl
    rw [hselect, hleft] at hcount
    omega
  -- no await is left, so the call has ended
  obtain ⟨r, hdone⟩ : ∃ r, s'.task i = .done r := by
    cases hph : s'.task i with
    | done r => exact ⟨r, rfl⟩
    | idle => exact absurd hph hentered
    | _ => simp [hph, Phase.remaining] at hzero
  obtain ⟨enabled', now', hm', rfl, hrow, hcoh⟩ := hrepairing.written r hdone
  rw [hm] at hm'
  cases hm'
  refine ⟨hdone, hrow, hcoh, fun j hkey hget hidle => ?_⟩
  have hvalid : ValidRow (s'.shared.table (D.calls i).key) := by
    rw [hrow]
    rintro _ ⟨⟩
    exact (D.calls i).user.userId_minLength
  rw [← hrow, ← hkey]
  rw [← hkey] at hcoh hvalid
  exact getFlag_alone hrepairing.sound hget hidle hcoh hvalid

/-- Ann's write is cancelled after its commit, Bob's gets through. -/
theorem repaired_sample :
    ∃ s, run (sample fun i => .set (i = 0) ⟨i, 0⟩).step (start 0 (fun _ => none) fun _ => none)
        ([.task 0 .enter, .task 0 (.resume .ok), .task 0 (.resume .ok), .task 0 (.resume .ok),
          .task 0 (.resume (.interrupted .cancelledError false))] ++ solo 1 4) = some s ∧
      s.shared.table ("acme", "dark-mode") = some ⟨false, 1, "bob"⟩ := by
  have hm : ((sample fun i => .set (i = 0) ⟨i, 0⟩).calls 1).method = .set false ⟨1, 0⟩ := rfl
  have hbefore : run (sample fun i => .set (i = 0) ⟨i, 0⟩).step
    (start 0 (fun _ => none) fun _ => none)
    [.task 0 .enter, .task 0 (.resume .ok), .task 0 (.resume .ok), .task 0 (.resume .ok),
      .task 0 (.resume (.interrupted .cancelledError false))] = some _ := rfl
  refine ⟨_, rfl, (repaired _ hm hbefore ?_ (rfl : _ = run _ _ (solo 1 4)).symm
    (by decide)).2.1⟩
  apply along_of_forall
  rintro (⟨j, a⟩ | e) hl s
  · obtain ⟨rfl, rfl⟩ | ⟨rfl, rfl⟩ : (j = 1 ∧ a = .enter) ∨ (j = 1 ∧ a = .resume .ok) := by
      simpa [solo] using hl
    · exact fun _ => ⟨rfl, trivial⟩
    · exact fun _ => ⟨rfl, rfl⟩
  · trivial

end Deployment

end PolyrepoTemplate
