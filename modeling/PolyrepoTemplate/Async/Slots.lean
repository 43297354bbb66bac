import Mathlib.Algebra.BigOperators.Group.Finset.Basic
import Mathlib.Data.Fintype.BigOperators
import PolyrepoTemplate.Async.Coroutine
import PolyrepoTemplate.Async.Runs

namespace Async

inductive Slot where
  /-- It needs a free one. An exception leaves none taken, or may if `keeps` is set. -/
  | take (keeps : Bool)
  | give
  | inside
  | outside
  deriving DecidableEq, Repr

namespace Slot

def Allows : Slot → Bool → Prop
  | .take _, held => held = false
  | .give, _ => True
  | .inside, held => held = true
  | .outside, held => held = false

def leads (held ok held' : Bool) : Slot → Bool
  | .take keeps => if ok then held' else !held' || keeps
  | .give => !held'
  | .inside => held' == held
  | .outside => held' == held

variable {held ok held' : Bool}

@[simp] theorem leads_give : give.leads held ok held' = true ↔ held' = false := by
  simp [leads]

@[simp] theorem leads_outside : outside.leads held ok held' = true ↔ held' = held := by
  simp [leads]

@[simp] theorem leads_refused : (take false).leads held false held' = true ↔ held' = false := by
  simp [leads]

end Slot

variable {Op : Type} {Res : Op → Type} {M ε α β : Type}

namespace Coro

variable (slot : Op → Slot)

/-- Within `n` steps, whatever the answers, the code ends as `Q` says, keeping to the slots
on its way. -/
def Within (Q : Except ε α → Bool → ℕ → Prop) : Coro Op Res M ε α → Bool → ℕ → Prop
  | .pure a, held, n => Q (.ok a) held n
  | .throw e, held, n => Q (.error e) held n
  | .emit _ c, held, n => ∃ m, n = m + 1 ∧ c.Within Q held m
  | .await op k, held, n => ∃ m, n = m + 1 ∧ (slot op).Allows held ∧
    ∀ r held', (slot op).leads held r.isOk held' = true → (k r).Within Q held' m

variable {slot} {Q : Except ε α → Bool → ℕ → Prop} {held : Bool} {n : ℕ}

theorem within_ofAnswer {r : Except ε α} :
    (ofAnswer r : Coro Op Res M ε α).Within slot Q held n ↔ Q r held n := by
  cases r <;> rfl

theorem within_part (K : Coro Op Res M ε α → Coro Op Res M ε β)
    (hemit : ∀ m c, K (.emit m c) = .emit m (K c))
    (hawait : ∀ op k, K (.await op k) = .await op fun answer => K (k answer))
    {Q : Except ε β → Bool → ℕ → Prop} {c : Coro Op Res M ε α} :
    (K c).Within slot Q held n ↔
      c.Within slot (fun r held n => (K (.ofAnswer r)).Within slot Q held n) held n := by
  induction c generalizing held n with
  | pure a => rfl
  | throw e => rfl
  | emit m c ih =>
    rw [hemit]
    exact exists_congr fun _ => and_congr_right fun _ => ih
  | await op k ih =>
    rw [hawait]
    exact exists_congr fun _ => and_congr_right fun _ => and_congr_right fun _ =>
      forall_congr' fun r => forall_congr' fun _ => imp_congr_right fun _ => ih r

theorem within_bind {f : α → Coro Op Res M ε β} {Q : Except ε β → Bool → ℕ → Prop}
    {c : Coro Op Res M ε α} : (c.bind f).Within slot Q held n ↔
      c.Within slot (fun r held n => ((ofAnswer r).bind f).Within slot Q held n) held n :=
  within_part (bind · f) (fun _ _ => rfl) fun _ _ => rfl

theorem within_attempt_bind {f : Except ε α → Coro Op Res M ε β}
    {Q : Except ε β → Bool → ℕ → Prop} {c : Coro Op Res M ε α} :
    (c.attempt.bind f).Within slot Q held n ↔
      c.Within slot (fun r held n => (f r).Within slot Q held n) held n := by
  rw [within_part (fun c => c.attempt.bind f) (fun _ _ => rfl) fun _ _ => rfl]
  suffices h : ∀ r, (ofAnswer r : Coro Op Res M ε α).attempt.bind f = f r by simp only [h]
  rintro (e | a) <;> rfl

theorem Within.mono {Q' : Except ε α → Bool → ℕ → Prop} {c : Coro Op Res M ε α}
    (h : c.Within slot Q held n) (hQ : ∀ r held n, Q r held n → Q' r held n) :
    c.Within slot Q' held n := by
  induction c generalizing held n with
  | pure a => exact hQ _ _ _ h
  | throw e => exact hQ _ _ _ h
  | emit m c ih =>
    obtain ⟨m, rfl, h⟩ := h
    exact ⟨m, rfl, ih h⟩
  | await op k ih =>
    obtain ⟨m, rfl, hallows, h⟩ := h
    exact ⟨m, rfl, hallows, fun r held' hleads => ih r (h r held' hleads)⟩

end Coro

section
variable {K : Type} {Op : K → Type} {Res : (k : K) → Op k → Type} {M ε α : K → Type}

abbrev Work (Op : K → Type) (Res : (k : K) → Op k → Type) (M ε α : K → Type) :=
  (k : K) × Coro (Op k) (Res k) (M k) (ε k) (α k)

structure Turn (Op : K → Type) (Res : (k : K) → Op k → Type) (ε : K → Type) where
  answers : (k : K) → (op : Op k) → Except (ε k) (Res k op)
  held : Bool

def Work.Ended (t : Work Op Res M ε α) : Prop := ∃ r, t.2 = Coro.ofAnswer r

variable {ι : Type} [DecidableEq ι] (slot : (k : K) → Op k → Slot) (capacity : ℕ)

/-- The next output, or the next await with its answer. Who takes a slot that it did not
have waits until one is free. -/
def Work.step (i : ι) (t : Work Op Res M ε α) (turn : Turn Op Res ε) (holders : List ι) :
    Option (Work Op Res M ε α × List ι) :=
  match t with
  | ⟨k, .emit _ c⟩ => some (⟨k, c⟩, holders)
  | ⟨k, .await op next⟩ =>
    let r := turn.answers k op
    if (slot k op).leads (decide (i ∈ holders)) r.isOk turn.held = true then
      if turn.held = true then
        if i ∈ holders then some (⟨k, next r⟩, holders)
        else if holders.length < capacity then some (⟨k, next r⟩, i :: holders)
        else none
      else some (⟨k, next r⟩, holders.erase i)
    else none
  | _ => none

/-- Tasks that step in any order over a pool of slots. -/
def slotStep : Pool ι (Work Op Res M ε α) (List ι) → Label ι (Turn Op Res ε) Empty →
    Option (Pool ι (Work Op Res M ε α) (List ι)) :=
  Pool.step (Work.step slot capacity) fun e _ => e.elim

def Work.Keeps (t : Work Op Res M ε α) (held : Bool) (n : ℕ) : Prop :=
  t.2.Within (slot t.1) (fun _ held _ => held = false) held n

/-- Nobody has two slots, there are no more than there are, and each task keeps to its
own, with the steps it may have left. -/
structure SlotsKept (s : Pool ι (Work Op Res M ε α) (List ι)) (left : ι → ℕ) : Prop where
  nodup : s.shared.Nodup
  room : s.shared.length ≤ capacity
  keeps : ∀ i, (s.task i).Keeps slot (decide (i ∈ s.shared)) (left i)

variable {slot capacity} {s s' : Pool ι (Work Op Res M ε α) (List ι)} {left : ι → ℕ}

theorem Work.step_keeps {i : ι} {t t' : Work Op Res M ε α} {turn : Turn Op Res ε}
    {holders holders' : List ι} {n : ℕ} (h : t.Keeps slot (decide (i ∈ holders)) n)
    (hnodup : holders.Nodup) (hroom : holders.length ≤ capacity)
    (hstep : t.step slot capacity i turn holders = some (t', holders')) :
    ∃ m, n = m + 1 ∧ t'.Keeps slot (decide (i ∈ holders')) m ∧ holders'.Nodup ∧
      holders'.length ≤ capacity ∧ ∀ j, j ≠ i → (j ∈ holders' ↔ j ∈ holders) := by
  obtain ⟨k, code⟩ := t
  cases code with
  | pure a => cases hstep
  | throw e => cases hstep
  | emit m c =>
    cases hstep
    obtain ⟨m, rfl, h⟩ := h
    exact ⟨m, rfl, h, hnodup, hroom, fun _ _ => Iff.rfl⟩
  | await op next =>
    obtain ⟨m, rfl, -, h⟩ := h
    simp only [step] at hstep
    split at hstep
    swap
    · cases hstep
    next hleads =>
    have hnext := h _ _ hleads
    split at hstep
    · next hheld =>
      rw [hheld] at hnext
      split at hstep
      · next hi =>
        cases hstep
        exact ⟨m, rfl, by simpa [Keeps, hi] using hnext, hnodup, hroom, fun _ _ => Iff.rfl⟩
      · next hi =>
        split at hstep
        · next hfree =>
          cases hstep
          exact ⟨m, rfl, by simpa [Keeps] using hnext, hnodup.cons hi, hfree,
            fun j hj => by simp [hj]⟩
        · cases hstep
    · next hheld =>
      cases hstep
      rw [Bool.not_eq_true] at hheld
      rw [hheld] at hnext
      refine ⟨m, rfl, by simpa [Keeps, hnodup.mem_erase_iff] using hnext, hnodup.erase i,
        (List.length_erase_le).trans hroom, fun j hj => List.mem_erase_of_ne hj⟩

theorem slotStep_kept [Fintype ι] {l : Label ι (Turn Op Res ε) Empty}
    (h : SlotsKept slot capacity s left) (hstep : slotStep slot capacity s l = some s') :
    ∃ left', SlotsKept slot capacity s' left' ∧ ∑ i, left' i + 1 = ∑ i, left i := by
  cases l with
  | env e => exact e.elim
  | task i turn =>
    obtain ⟨t, holders, ht, rfl⟩ := Pool.step_task hstep
    obtain ⟨m, hm, hkeeps, hnodup, hroom, hothers⟩ :=
      Work.step_keeps (h.keeps i) h.nodup h.room ht
    refine ⟨Function.update left i m, ⟨hnodup, hroom, fun j => ?_⟩, ?_⟩
    · by_cases hj : j = i
      · subst hj
        simpa using hkeeps
      · simpa [hj, hothers j hj] using h.keeps j
    · rw [Finset.sum_update_of_mem (Finset.mem_univ i), ← Finset.add_sum_erase _ _
        (Finset.mem_univ i), hm, Finset.sdiff_singleton_eq_erase]
      omega

theorem run_kept [Fintype ι] {ls : List (Label ι (Turn Op Res ε) Empty)}
    (h : SlotsKept slot capacity s left) (hrun : run (slotStep slot capacity) s ls = some s') :
    ∃ left', SlotsKept slot capacity s' left' ∧ ∑ i, left' i + ls.length = ∑ i, left i := by
  induction ls generalizing s left with
  | nil =>
    cases hrun
    exact ⟨left, h, rfl⟩
  | cons l ls ih =>
    obtain ⟨t, ht, hrest⟩ := run_cons_eq_some.mp hrun
    obtain ⟨left₁, h₁, hsum₁⟩ := slotStep_kept h ht
    obtain ⟨left₂, h₂, hsum₂⟩ := ih h₁ hrest
    refine ⟨left₂, h₂, ?_⟩
    rw [List.length_cons]
    omega

theorem Work.goes_on {i : ι} {t : Work Op Res M ε α} {holders : List ι} {n : ℕ}
    (h : t.Keeps slot (decide (i ∈ holders)) n) (hended : ¬ t.Ended)
    (hfree : i ∈ holders ∨ holders.length < capacity)
    (answers : (k : K) → (op : Op k) → Except (ε k) (Res k op)) :
    ∃ held t', t.step slot capacity i ⟨answers, held⟩ holders = some t' := by
  obtain ⟨k, code⟩ := t
  cases code with
  | pure a => exact absurd ⟨.ok a, rfl⟩ hended
  | throw e => exact absurd ⟨.error e, rfl⟩ hended
  | emit m c => exact ⟨false, _, rfl⟩
  | await op next =>
    obtain ⟨m, -, hallows, -⟩ := h
    have hgo (held : Bool)
        (hleads : (slot k op).leads (decide (i ∈ holders)) (answers k op).isOk held = true) :
        ∃ held t', step slot capacity i (⟨k, .await op next⟩ : Work Op Res M ε α)
          ⟨answers, held⟩ holders = some t' := by
      refine ⟨held, ?_⟩
      simp only [step, hleads, if_true]
      split_ifs with hheld hi hroom
      · exact ⟨_, rfl⟩
      · exact ⟨_, rfl⟩
      · exact absurd hfree (not_or.mpr ⟨hi, hroom⟩)
      · exact ⟨_, rfl⟩
    cases hslot : slot k op with
    | take keeps =>
      apply hgo (answers k op).isOk
      rw [hslot, Slot.leads]
      cases (answers k op).isOk <;> rfl
    | give =>
      apply hgo false
      rw [hslot]
      rfl
    | inside =>
      apply hgo (decide (i ∈ holders))
      rw [hslot, Slot.leads, beq_self_eq_true]
    | outside =>
      apply hgo (decide (i ∈ holders))
      rw [hslot, Slot.leads, beq_self_eq_true]

theorem Work.Keeps.not_held {t : Work Op Res M ε α} {held : Bool} {n : ℕ}
    (h : t.Keeps slot held n) (hended : t.Ended) : held = false := by
  obtain ⟨r, hr⟩ := hended
  rw [Keeps, hr] at h
  exact Coro.within_ofAnswer.mp h

theorem SlotsKept.allows (h : SlotsKept slot capacity s left) {i : ι} (hi : i ∈ s.shared) {k : K}
    {op : Op k} {next : Except (ε k) (Res k op) → Coro (Op k) (Res k) (M k) (ε k) (α k)}
    (hcode : s.task i = ⟨k, .await op next⟩) : (slot k op).Allows true := by
  have hkeeps := h.keeps i
  rw [hcode, decide_eq_true hi] at hkeeps
  obtain ⟨m, -, hallows, -⟩ := hkeeps
  exact hallows

/-- In any schedule: there is at least one task that can go on, whatever it is answered,
unless all have ended and every slot is free. -/
theorem SlotsKept.goes_on (h : SlotsKept slot capacity s left) (hcap : 0 < capacity) :
    (∀ i, (s.task i).Ended) ∧ s.shared = [] ∨
      ∃ i, ∀ answers, ∃ held s', slotStep slot capacity s (.task i ⟨answers, held⟩) = some s' := by
  have hgo (i : ι) (hended : ¬ (s.task i).Ended)
      (hfree : i ∈ s.shared ∨ s.shared.length < capacity) :
      ∃ i, ∀ answers, ∃ held s',
        slotStep slot capacity s (.task i ⟨answers, held⟩) = some s' := by
    refine ⟨i, fun answers => ?_⟩
    obtain ⟨held, t, ht⟩ := Work.goes_on (h.keeps i) hended hfree answers
    exact ⟨held, _, congrArg (Option.map _) ht⟩
  cases hholders : s.shared with
  | cons i holders =>
    have hi : i ∈ s.shared := hholders ▸ List.mem_cons_self
    refine .inr (hgo i (fun hended => ?_) (.inl hi))
    have := (h.keeps i).not_held hended
    simp [hi] at this
  | nil =>
    by_cases hall : ∀ i, (s.task i).Ended
    · exact .inl ⟨hall, rfl⟩
    · obtain ⟨i, hi⟩ := not_forall.mp hall
      exact .inr (hgo i hi (.inr (hholders ▸ hcap)))

end

end Async
