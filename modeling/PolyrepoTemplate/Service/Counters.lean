import PolyrepoTemplate.Async.Tally
import PolyrepoTemplate.Service.Deployment

namespace PolyrepoTemplate

open Async Tally

namespace Stores

def readsTotal (s : Stores) : ℕ := s.out.count .readsTotalInc

def writesTotal (s : Stores) : ℕ := s.out.count .writesTotalInc

@[simp] theorem writesTotal_log_inc (s : Stores) :
    (s.log .writesTotalInc).writesTotal = s.writesTotal + 1 := by
  simp [writesTotal]

@[simp] theorem writesTotal_log_info (s : Stores) (event : String)
    (fields : List (String × FieldValue)) :
    (s.log (.info event fields)).writesTotal = s.writesTotal := by
  simp [writesTotal]

end Stores

variable {svc : FeatureFlagService} {zone : TimeZone} {i : ℕ} {c : Call} {s s' : Stores}
  {ph ph' : Phase} {a : Action Outside}

theorem Move.readsTotal_eq (h : Move svc zone i c s ph a ph' s') :
    s'.readsTotal = s.readsTotal + if a = .enter ∧ c.method = .get then 1 else 0 := by
  cases h with
  | enterGet hm => simp [Stores.readsTotal, hm]
  | enterSet hm => simp [hm]
  | _ => simp [Stores.readsTotal]

/-- Where a `set_flag` call stands between its commit and the increment. A
`get_flag` call has nothing to count here. -/
def Call.account (c : Call) (ph : Phase) : Account :=
  match c.method, ph with
  | .set .., .stored => .pending
  | .set .., .cache _ => .pending
  | .set .., .done (.ok _) => .counted
  | .set .., .unwind _ => .ended
  | .set .., .done (.error _) => .ended
  | _, _ => .before

/-- The await, once ended so, cuts `set_flag` off from the increment: the commit has
taken effect, here or before. -/
def Call.cutOff (c : Call) (table : Table) : Phase → Action Outside → Bool
  | ph, .resume (.interrupted _ done) =>
    match c.method, ph with
    | .set enabled now, .commit row => done && ((c.work enabled now row).commit table).isOk
    | .set .., .stored => true
    | .set .., .cache _ => true
    | _, _ => false
  | _, _ => false

section
variable {account : ℕ → Account}

theorem tally_quiet (hi : account i = c.account ph) (hcut : c.cutOff s.table ph a = false)
    (hcommits : s'.commits = s.commits) (hwrites : s'.writesTotal = s.writesTotal)
    (haccount : c.account ph' = c.account ph ∨
      (c.account ph = .before ∧ c.account ph' = .ended)) :
    Tally.Step ⟨account, s.commits, s.writesTotal⟩ (c.cutOff s.table ph a)
      ⟨Function.update account i (c.account ph'), s'.commits, s'.writesTotal⟩ := by
  rw [hcut, hcommits, hwrites]
  obtain hsame | ⟨hbefore, hended⟩ := haccount
  · rw [hsame, ← hi, Function.update_eq_self]
    exact .stand
  · rw [hended]
    exact .leave i (hi.trans hbefore)

theorem tally_interrupted {x : Outside} {done : Bool} (hi : account i = c.account ph)
    (hph : ph.inFlight = true) (hquiet : (done && ph.writes) = false) :
    Tally.Step ⟨account, s.commits, s.writesTotal⟩
      (c.cutOff s.table ph (.resume (.interrupted x done)))
      ⟨Function.update account i (c.account (ph.raise (.outside x))), s.commits,
        s.writesTotal⟩ := by
  cases hm : c.method with
  | get =>
    refine tally_quiet hi (by simp [Call.cutOff, hm]) rfl rfl (.inl ?_)
    simp [Call.account, hm]
  | set enabled now =>
    cases ph with
    | idle => cases hph
    | done r => cases hph
    | stored =>
      simp only [Call.account, Call.cutOff, Phase.raise, hm] at hi ⊢
      exact .cutAfter i hi
    | cache flag =>
      simp only [Call.account, Call.cutOff, Phase.raise, hm] at hi ⊢
      exact .cutAfter i hi
    | commit row =>
      have hdone : done = false := by simpa [Phase.writes] using hquiet
      refine tally_quiet hi (by simp [Call.cutOff, hm, hdone]) rfl rfl (.inr ?_)
      simp [Call.account, Phase.raise, hm]
    | unwind e =>
      refine tally_quiet hi (by simp [Call.cutOff, hm]) rfl rfl (.inl ?_)
      simp [Call.account, Phase.raise, hm]
    | _ =>
      refine tally_quiet hi (by simp [Call.cutOff, hm]) rfl rfl (.inr ?_)
      simp [Call.account, Phase.raise, hm]

/-- A move is a step of the book, on the account of its own call. -/
theorem Move.tally (h : Move svc zone i c s ph a ph' s') (account : ℕ → Account)
    (hi : account i = c.account ph) :
    Tally.Step ⟨account, s.commits, s.writesTotal⟩ (c.cutOff s.table ph a)
      ⟨Function.update account i (c.account ph'), s'.commits, s'.writesTotal⟩ := by
  cases h with
  | committed hm hcommit =>
    simp only [Call.account, hm] at hi ⊢
    exact .effect i hi
  | cached hm =>
    simp only [Call.account, hm] at hi ⊢
    rw [Stores.writesTotal_log_info, Stores.writesTotal_log_inc]
    exact .tick i hi
  | rejected hm hcommit =>
    exact tally_quiet hi rfl rfl rfl (.inr (by simp [Call.account, hm]))
  | lostCache x hm =>
    simp only [Call.account, Call.cutOff, hm] at hi ⊢
    exact .cutAfter i hi
  | lostCommit x hm hcommit =>
    simp only [Call.account, Call.cutOff, hm, hcommit] at hi ⊢
    exact .cutAt i hi
  | lostRejection x hm hcommit =>
    refine tally_quiet hi ?_ rfl rfl (.inr (by simp [Call.account, hm]))
    simp [Call.cutOff, hm, hcommit, Except.isOk, Except.toBool]
  | lostFill x hm =>
    refine tally_quiet hi (by simp [Call.cutOff, hm]) rfl rfl (.inl (by simp [Call.account, hm]))
  | interrupted x done hph hquiet => exact tally_interrupted hi hph hquiet
  | unwound =>
    refine tally_quiet hi rfl rfl rfl (.inl ?_)
    cases hm : c.method <;> simp [Call.account, hm]
  | _ =>
    refine tally_quiet hi rfl rfl (by simp [Stores.writesTotal]) (.inl ?_)
    simp [Call.account, *]

end

namespace Deployment

variable (D : Deployment)

def book (s : System) : Book ℕ :=
  ⟨fun i => (D.calls i).account (s.task i), s.shared.commits, s.shared.writesTotal⟩

def cutsOff (s : System) : SystemLabel → Bool
  | .task i a => (D.calls i).cutOff s.shared.table (s.task i) a
  | .env _ => false

def getsEntered (ls : List SystemLabel) : ℕ :=
  ls.countP fun
    | .task i .enter => (D.calls i).method = .get
    | _ => false

variable {D}

theorem step_tally {s s' : System} {l : SystemLabel} (h : D.step s l = some s') :
    Tally.Step (D.book s) (D.cutsOff s l) (D.book s') := by
  cases l with
  | env e =>
    rw [step_env h]
    cases e <;> exact .stand
  | task i a =>
    obtain ⟨ph, sh, hmove, rfl⟩ := step_task h
    have haccounts : (fun j => (D.calls j).account (Function.update s.task i ph j)) =
        Function.update (fun j => (D.calls j).account (s.task j)) i ((D.calls i).account ph) := by
      funext j
      by_cases hji : j = i
      · subst hji
        simp
      · simp [hji]
    have htally := hmove.tally (fun j => (D.calls j).account (s.task j)) rfl
    rw [← haccounts] at htally
    exact htally

theorem step_readsTotal {s s' : System} {l : SystemLabel} (h : D.step s l = some s') :
    s'.shared.readsTotal = s.shared.readsTotal + D.getsEntered [l] := by
  cases l with
  | env e =>
    rw [step_env h]
    cases e <;> rfl
  | task i a =>
    obtain ⟨ph, sh, hmove, rfl⟩ := step_task h
    refine hmove.readsTotal_eq.trans ?_
    cases a <;> simp [getsEntered]

theorem run_readsTotal {s s' : System} {ls : List SystemLabel} (h : run D.step s ls = some s') :
    s'.shared.readsTotal = s.shared.readsTotal + D.getsEntered ls := by
  induction ls generalizing s with
  | nil =>
    cases h
    rfl
  | cons l ls ih =>
    obtain ⟨t, ht, hrest⟩ := run_cons_eq_some.mp h
    calc s'.shared.readsTotal
        = s.shared.readsTotal + D.getsEntered [l] + D.getsEntered ls := by
          rw [ih hrest, step_readsTotal ht]
      _ = s.shared.readsTotal + D.getsEntered (l :: ls) := by
          rw [Nat.add_assoc, getsEntered, getsEntered, ← List.countP_append]
          rfl

theorem balanced_start (clock : ℤ) (redis : Redis) (table : Table) :
    (D.book (start clock redis table)).Balanced := by
  refine ⟨List.nodup_nil, fun i hi => absurd hi List.not_mem_nil, fun i hi => ?_, rfl⟩
  simp only [book, start, Call.account] at hi
  split at hi <;> simp_all

theorem run_balanced {s s' : System} {ls : List SystemLabel} (hs : (D.book s).Balanced)
    (h : run D.step s ls = some s') : (D.book s').Balanced :=
  run_invariant (I := fun s => (D.book s).Balanced)
    (fun _ _ _ hI hstep => (step_tally hstep).balanced hI) hs h

theorem account_settled {s : System} (hs : ∀ i, (s.task i).inFlight = false) (i : ℕ) :
    (D.book s).account i ≠ .pending := by
  have hi := hs i
  simp only [book, Call.account]
  split <;> simp_all [Phase.inFlight]

/-- In every run from fresh counters the reads counter is the number of `get_flag`
calls entered. The writes counter is, with no call in flight, the number of calls
that have committed, if and only if no step cuts off a call between its commit and
the increment. -/
theorem counters_exact (D : Deployment) (clock : ℤ) (redis : Redis) (table : Table)
    {ls : List SystemLabel} {s : System}
    (hrun : run D.step (start clock redis table) ls = some s) :
    s.shared.readsTotal = D.getsEntered ls ∧ s.shared.commits.Nodup ∧
    ((∀ i, (s.task i).inFlight = false) →
      (s.shared.writesTotal = s.shared.commits.length ↔
        Along D.step (fun s l => D.cutsOff s l = false) (start clock redis table) ls)) := by
  have hstart : (D.book (start clock redis table)).Balanced := balanced_start clock redis table
  have hbalanced : (D.book s).Balanced := run_balanced hstart hrun
  have hreads : s.shared.readsTotal = 0 + D.getsEntered ls := run_readsTotal hrun
  refine ⟨hreads.trans (Nat.zero_add _), hbalanced.nodup, fun hsettled => ?_⟩
  refine (hbalanced.count_eq_iff (account_settled hsettled)).trans ?_
  have hfinal := final_iff_along (I := fun s => (D.book s).Balanced)
    (P := fun s => (D.book s).Complete) (Q := fun s l => D.cutsOff s l = false)
    (fun _ _ _ hI hstep => (step_tally hstep).balanced hI)
    (fun _ _ _ hI hstep => (step_tally hstep).complete_iff hI) hstart hrun
  have hcomplete : (D.book (start clock redis table)).Complete :=
    fun i hi => absurd hi List.not_mem_nil
  rw [hfinal, and_iff_right hcomplete]

def uncounted : List SystemLabel :=
  .task 0 .enter :: List.replicate 3 (.task 0 (.resume .ok)) ++
    [.task 0 (.resume (.interrupted (.storeError "connection refused") false))]

theorem uncounted_run : ∃ s, run (sample fun _ => .set true ⟨7, 0⟩).step
    (start 0 (fun _ => none) fun _ => none) uncounted = some s ∧
    (∀ i, (s.task i).inFlight = false) ∧ s.shared.writesTotal = 0 ∧ s.shared.commits = [0] := by
  refine ⟨_, rfl, fun i => ?_, rfl, rfl⟩
  by_cases hi : i = 0
  · subst hi
    rfl
  · simp [start, hi, Phase.inFlight]

theorem counters_exact_uncounted :
    ¬ Along (sample fun _ => .set true ⟨7, 0⟩).step
      (fun s l => (sample fun _ => .set true ⟨7, 0⟩).cutsOff s l = false)
      (start 0 (fun _ => none) fun _ => none) uncounted := by
  obtain ⟨s, hrun, hsettled, hwrites, hcommits⟩ := uncounted_run
  intro halong
  obtain ⟨-, -, hiff⟩ := counters_exact _ 0 (fun _ => none) (fun _ => none) hrun
  have hequal := (hiff hsettled).mpr halong
  rw [hwrites, hcommits] at hequal
  cases hequal

/-- The writes counter misses that flag. -/
theorem writes_uncounted : ¬ ∀ (D : Deployment) (clock : ℤ) (redis : Redis) (table : Table)
    (ls : List SystemLabel) (s : System), run D.step (start clock redis table) ls = some s →
      s.shared.readsTotal = D.getsEntered ls ∧
      ((∀ i, (s.task i).inFlight = false) →
        s.shared.writesTotal = s.shared.commits.length) := by
  intro h
  obtain ⟨s, hrun, hsettled, hwrites, hcommits⟩ := uncounted_run
  have hequal := (h _ _ _ _ _ s hrun).2 hsettled
  rw [hwrites, hcommits] at hequal
  cases hequal

end Deployment

end PolyrepoTemplate
