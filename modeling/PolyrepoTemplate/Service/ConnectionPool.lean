import Mathlib.Algebra.Order.BigOperators.Group.List
import Mathlib.Algebra.Order.Ring.Nat
import PolyrepoTemplate.Service.Deployment

namespace PolyrepoTemplate

open Async

def Phase.firstStatement : Phase → Bool
  | .load => true
  | .select => true
  | _ => false

def Phase.closing : Phase → Bool
  | .loaded _ => true
  | .stored => true
  | .unwind _ => true
  | _ => false

/-- The calls, those entered so far, and those that have a connection. -/
structure Pooled where
  system : System
  entered : List ℕ
  holders : List ℕ

namespace Pooled

/-- The holders after a step. A first statement that is carried out needs a free
connection; one that waits for it can be cut off, by the pool timeout for instance. -/
def holdersAfter (capacity : ℕ) (p : Pooled) : SystemLabel → Option (List ℕ)
  | .task i (.resume o) =>
    if (p.system.task i).firstStatement && o.carriedOut then
      if p.holders.length < capacity then some (i :: p.holders) else none
    else if (p.system.task i).closing then some (p.holders.erase i)
    else some p.holders
  | _ => some p.holders

def enteredAfter (p : Pooled) : SystemLabel → List ℕ
  | .task i .enter => i :: p.entered
  | _ => p.entered

end Pooled

def Deployment.pooledStep (D : Deployment) (capacity : ℕ) (p : Pooled) (l : SystemLabel) :
    Option Pooled :=
  (p.holdersAfter capacity l).bind fun holders =>
    (D.step p.system l).map fun s => ⟨s, p.enteredAfter l, holders⟩

/-- Past the first statement of a session that is still open. -/
def Phase.Holding (ph : Phase) : Prop := ph.closing = true ∨ ∃ row, ph = .commit row

theorem Phase.Holding.inFlight {ph : Phase} (h : ph.Holding) : ph.inFlight = true := by
  obtain h | ⟨row, rfl⟩ := h
  · cases ph <;> first | rfl | cases h
  · rfl

theorem Phase.Holding.firstStatement {ph : Phase} (h : ph.Holding) : ph.firstStatement = false := by
  obtain h | ⟨row, rfl⟩ := h
  · cases ph <;> first | rfl | cases h
  · rfl

section
variable {svc : FeatureFlagService} {zone : TimeZone} {i : ℕ} {c : Call} {s s' : Stores}
  {ph ph' : Phase} {o : Outcome Outside}

theorem Move.holding_of_firstStatement (h : Move svc zone i c s ph (.resume o) ph' s')
    (hph : ph.firstStatement = true) : ph'.Holding := by
  cases h with
  | selected hm => exact .inr ⟨_, rfl⟩
  | interrupted x done => cases ph <;> first | exact .inl rfl | cases hph
  | missing | loaded | invalidRow => exact .inl rfl
  | _ => cases hph

theorem Move.holding_of_commit (h : Move svc zone i c s ph (.resume o) ph' s')
    (hph : ph.Holding) (hopen : ph.closing = false) : ph'.Holding := by
  obtain ⟨row, rfl⟩ := hph.resolve_left (by simp [hopen])
  cases h with
  | committed | rejected | lostCommit | lostRejection | interrupted => exact .inl rfl

end

namespace Deployment

variable {D : Deployment} {capacity : ℕ}

/-- The holders are the calls with an open session that have a connection, and no
more of them than there are connections. -/
structure PoolSound (D : Deployment) (capacity : ℕ) (p : Pooled) : Prop where
  sound : D.Sound p.system
  entered : ∀ i, p.system.task i ≠ .idle → i ∈ p.entered
  nodup : p.holders.Nodup
  room : p.holders.length ≤ capacity
  holding : ∀ i ∈ p.holders, (p.system.task i).Holding

theorem pooledStep_eq_some {p p' : Pooled} {l : SystemLabel} :
    D.pooledStep capacity p l = some p' ↔ D.step p.system l = some p'.system ∧
      p'.entered = p.enteredAfter l ∧ p.holdersAfter capacity l = some p'.holders := by
  simp only [pooledStep, Option.bind_eq_some_iff, Option.map_eq_some_iff]
  constructor
  · rintro ⟨holders, hholders, s, hs, rfl⟩
    exact ⟨hs, rfl, hholders⟩
  · rintro ⟨hs, hentered, hholders⟩
    exact ⟨_, hholders, _, hs, hentered ▸ rfl⟩

theorem holdersAfter_cases {p : Pooled} {i : ℕ} {o : Outcome Outside} {holders : List ℕ}
    (h : p.holdersAfter capacity (.task i (.resume o)) = some holders) :
    ((p.system.task i).firstStatement = true ∧ p.holders.length < capacity ∧
        holders = i :: p.holders) ∨
      ((p.system.task i).closing = true ∧ holders = p.holders.erase i) ∨
      ((p.system.task i).closing = false ∧ holders = p.holders) := by
  simp only [Pooled.holdersAfter] at h
  split at h
  · next hfirst =>
    split at h
    · next hroom =>
      cases h
      exact .inl ⟨(Bool.and_eq_true_iff.mp hfirst).1, hroom, rfl⟩
    · cases h
  · split at h
    · next hclosing =>
      cases h
      exact .inr (.inl ⟨hclosing, rfl⟩)
    · next hclosing =>
      cases h
      exact .inr (.inr ⟨Bool.eq_false_iff.mpr hclosing, rfl⟩)

theorem pooledStep_entered {p p' : Pooled} {l : SystemLabel} (hsound : D.PoolSound capacity p)
    (hstep : D.step p.system l = some p'.system) (hentered : p'.entered = p.enteredAfter l)
    (i : ℕ) (hi : p'.system.task i ≠ .idle) : i ∈ p'.entered := by
  rw [hentered]
  cases l with
  | env e =>
    rw [step_env hstep] at hi
    exact hsound.entered i hi
  | task j a =>
    obtain ⟨ph, sh, hmove, heq⟩ := step_task hstep
    rw [heq] at hi
    by_cases hij : i = j
    · subst hij
      cases a with
      | enter => exact List.mem_cons_self
      | resume o =>
        apply hsound.entered
        intro hidle
        rw [hidle] at hmove
        cases hmove with
        | interrupted x done hph => cases hph
    · simp only [Function.update_of_ne hij] at hi
      have hmem := hsound.entered i hi
      cases a with
      | enter => exact List.mem_cons_of_mem _ hmem
      | resume o => exact hmem

theorem holding_update {p : Pooled} (hsound : D.PoolSound capacity p) {i : ℕ} {ph : Phase}
    {holders : List ℕ} (hsub : ∀ j ∈ holders, j ≠ i → j ∈ p.holders)
    (hself : i ∈ holders → ph.Holding) :
    ∀ j ∈ holders, (Function.update p.system.task i ph j).Holding := by
  intro j hj
  by_cases hji : j = i
  · subst hji
    rw [Function.update_self]
    exact hself hj
  · rw [Function.update_of_ne hji]
    exact hsound.holding j (hsub j hj hji)

theorem pooledStep_sound {p p' : Pooled} {l : SystemLabel} (hsound : D.PoolSound capacity p)
    (h : D.pooledStep capacity p l = some p') : D.PoolSound capacity p' := by
  obtain ⟨hstep, hentered, hholders⟩ := pooledStep_eq_some.mp h
  have hsound' := step_sound hsound.sound hstep
  have hmem := pooledStep_entered hsound hstep hentered
  cases l with
  | env e =>
    obtain heq : p.holders = p'.holders := Option.some.inj hholders
    refine ⟨hsound', hmem, heq ▸ hsound.nodup, heq ▸ hsound.room, ?_⟩
    rw [step_env hstep, ← heq]
    exact hsound.holding
  | task i a =>
    obtain ⟨ph, sh, hmove, hsystem⟩ := step_task hstep
    cases a with
    | enter =>
      obtain heq : p.holders = p'.holders := Option.some.inj hholders
      refine ⟨hsound', hmem, heq ▸ hsound.nodup, heq ▸ hsound.room, ?_⟩
      rw [hsystem, ← heq]
      refine holding_update hsound (fun j hj _ => hj) fun hi => ?_
      -- a call that is entered has been idle
      have hflight := (hsound.holding i hi).inFlight
      generalize p.system.task i = q at hmove hflight
      cases hmove <;> cases hflight
    | resume o =>
      obtain ⟨hfirst, hroom, heq⟩ | ⟨hclosing, heq⟩ | ⟨hopen, heq⟩ := holdersAfter_cases hholders
      · have hnew : i ∉ p.holders := fun hi => by
          have hnot := (hsound.holding i hi).firstStatement
          rw [hfirst] at hnot
          cases hnot
        refine ⟨hsound', hmem, ?_, ?_, ?_⟩
        · exact heq ▸ List.nodup_cons.mpr ⟨hnew, hsound.nodup⟩
        · rw [heq, List.length_cons]
          omega
        · rw [hsystem, heq]
          exact holding_update hsound (fun j hj hji => (List.mem_cons.mp hj).resolve_left hji)
            fun _ => hmove.holding_of_firstStatement hfirst
      · refine ⟨hsound', hmem, heq ▸ hsound.nodup.erase i, ?_, ?_⟩
        · rw [heq]
          exact (List.length_erase_le).trans hsound.room
        · rw [hsystem, heq]
          refine holding_update hsound (fun j hj _ => List.mem_of_mem_erase hj) fun hi => ?_
          exact absurd rfl (hsound.nodup.mem_erase_iff.mp hi).1
      · refine ⟨hsound', hmem, heq ▸ hsound.nodup, heq ▸ hsound.room, ?_⟩
        rw [hsystem, heq]
        exact holding_update hsound (fun j hj _ => hj) fun hi =>
          hmove.holding_of_commit (hsound.holding i hi) hopen

def Proceeds : SystemLabel → Prop
  | .task _ a => a = .resume .ok
  | .env _ => False

def awaitsLeft (p : Pooled) : ℕ := (p.entered.map fun i => (p.system.task i).remaining).sum

theorem sum_update_lt {f : ℕ → ℕ} {i n : ℕ} {is : List ℕ} (hi : i ∈ is) (h : n < f i) :
    (is.map (Function.update f i n)).sum < (is.map f).sum := by
  apply List.sum_lt_sum
  · intro j _
    by_cases hj : j = i
    · subst hj
      rw [Function.update_self]
      exact h.le
    · rw [Function.update_of_ne hj]
  · exact ⟨i, hi, by rwa [Function.update_self]⟩

/-- With a connection in the pool at all, somebody in flight can always proceed: a
holder does not wait for the pool, and without holders a connection is free. -/
theorem pooled_progress {p : Pooled} (hsound : D.PoolSound capacity p) (hcap : 0 < capacity)
    {i : ℕ} (hi : (p.system.task i).inFlight = true) :
    ∃ j p', D.pooledStep capacity p (.task j (.resume .ok)) = some p' ∧
      awaitsLeft p' < awaitsLeft p := by
  obtain ⟨j, hj, hroom⟩ : ∃ j, (p.system.task j).inFlight = true ∧
      ((p.system.task j).firstStatement = true → p.holders.length < capacity) := by
    cases hholders : p.holders with
    | nil => exact ⟨i, hi, fun _ => hcap⟩
    | cons j js =>
      have hholding := hsound.holding j (hholders ▸ List.mem_cons_self)
      refine ⟨j, hholding.inFlight, fun hfirst => ?_⟩
      rw [hholding.firstStatement] at hfirst
      cases hfirst
  obtain ⟨s, hs, hlt⟩ := progress hsound.sound hj .ok
  obtain ⟨holders, hholders⟩ : ∃ holders,
      p.holdersAfter capacity (.task j (.resume .ok)) = some holders := by
    simp only [Pooled.holdersAfter]
    split
    · next hfirst =>
      rw [if_pos (hroom (Bool.and_eq_true_iff.mp hfirst).1)]
      exact ⟨_, rfl⟩
    · split <;> exact ⟨_, rfl⟩
  refine ⟨j, ⟨s, p.entered, holders⟩, pooledStep_eq_some.mpr ⟨hs, rfl, hholders⟩, ?_⟩
  obtain ⟨ph, sh, -, rfl⟩ := step_task hs
  have hmem : j ∈ p.entered := by
    apply hsound.entered
    intro hidle
    rw [hidle] at hj
    cases hj
  simp only [Function.update_self] at hlt
  have hsum := sum_update_lt (f := fun k => (p.system.task k).remaining) hmem hlt
  refine lt_of_eq_of_lt (congrArg List.sum (List.map_congr_left fun k _ => ?_)) hsum
  by_cases hk : k = j
  · subst hk
    simp only [Function.update_self]
  · simp only [Function.update_of_ne hk]

theorem poolSound_start (clock : ℤ) (redis : Redis) (table : Table) :
    D.PoolSound capacity ⟨start clock redis table, [], []⟩ where
  sound := sound_start clock redis table
  entered _ h := absurd rfl h
  nodup := List.nodup_nil
  room := Nat.zero_le _
  holding _ h := absurd h List.not_mem_nil

/-- In every run over a pool with at least one connection, whatever fails or is
cancelled: there are never more holders than connections, no call waits for Redis
with a connection in hand, and the calls can all be brought to their end by letting
awaits get through, the pool then being full again. -/
theorem pool_drains (D : Deployment) {capacity : ℕ} (hcap : 0 < capacity) {clock : ℤ}
    {redis : Redis} {table : Table} {ls : List SystemLabel} {p : Pooled}
    (hrun : run (D.pooledStep capacity) ⟨start clock redis table, [], []⟩ ls = some p) :
    p.holders.length ≤ capacity ∧
      (∀ i ∈ p.holders, ∀ flag, p.system.task i ≠ .lookup ∧ p.system.task i ≠ .fill flag ∧
        p.system.task i ≠ .cache flag) ∧
      ∃ rest p', (∀ l ∈ rest, Proceeds l) ∧
        run (D.pooledStep capacity) p rest = some p' ∧
        (∀ i, (p'.system.task i).inFlight = false) ∧ p'.holders = [] := by
  have hsound : D.PoolSound capacity p :=
    run_invariant (fun _ _ _ h hstep => pooledStep_sound h hstep)
      (poolSound_start clock redis table) hrun
  refine ⟨hsound.room, fun i hi flag => ?_, ?_⟩
  · have hholding := hsound.holding i hi
    refine ⟨?_, ?_, ?_⟩ <;>
    · intro hph
      rw [hph] at hholding
      obtain h | ⟨row, h⟩ := hholding <;> cases h
  · have hstep : ∀ p, D.PoolSound capacity p → ¬ (∀ i, (p.system.task i).inFlight = false) →
        ∃ l p', Proceeds l ∧ D.pooledStep capacity p l = some p' ∧ D.PoolSound capacity p' ∧
          awaitsLeft p' < awaitsLeft p := by
      intro p hp hbusy
      obtain ⟨i, hi⟩ := not_forall.mp hbusy
      obtain ⟨j, p', hj, hlt⟩ := pooled_progress hp hcap (Bool.not_eq_false _ ▸ hi)
      exact ⟨.task j (.resume .ok), p', rfl, hj, pooledStep_sound hp hj, hlt⟩
    obtain ⟨rest, p', hrest, -, hrun', hsound', hquiet⟩ := run_drains hstep hsound
    refine ⟨rest, p', hrest, hrun', hquiet, List.eq_nil_iff_forall_not_mem.mpr fun i hi => ?_⟩
    have hflight := (hsound'.holding i hi).inFlight
    rw [hquiet i] at hflight
    cases hflight

/-- Two writers over one connection: the second waits with its `SELECT`. -/
theorem pool_sample :
    ∃ p, run ((sample fun _ => .set true ⟨1, 0⟩).pooledStep 1)
        ⟨start 0 (fun _ => none) fun _ => none, [], []⟩
        [.task 0 .enter, .task 1 .enter, .task 0 (.resume .ok)] = some p ∧
      (sample fun _ => .set true ⟨1, 0⟩).pooledStep 1 p (.task 1 (.resume .ok)) = none ∧
      ∃ rest p', (∀ l ∈ rest, Proceeds l) ∧
        run ((sample fun _ => .set true ⟨1, 0⟩).pooledStep 1) p rest = some p' ∧
        (∀ i, (p'.system.task i).inFlight = false) ∧ p'.holders = [] := by
  have hrun : run ((sample fun _ => .set true ⟨1, 0⟩).pooledStep 1)
    ⟨start 0 (fun _ => none) fun _ => none, [], []⟩
    [.task 0 .enter, .task 1 .enter, .task 0 (.resume .ok)] = some _ := rfl
  exact ⟨_, hrun, rfl, (pool_drains _ Nat.one_pos hrun).2.2⟩

end Deployment

end PolyrepoTemplate
