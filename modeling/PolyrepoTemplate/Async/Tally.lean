import Mathlib.Data.List.Count
import Mathlib.Data.List.Nodup
import Mathlib.Logic.Function.Basic

namespace Tally

/-- Where a task stands: before its effect, between the effect and the count, after
the count, or ended without counting. -/
inductive Account where
  | before
  | pending
  | counted
  | ended
  deriving DecidableEq, Repr

structure Book (ι : Type) where
  account : ι → Account
  effects : List ι
  count : ℕ

variable {ι : Type} {b b' : Book ι} {i : ι} {cut : Bool}

namespace Book

/-- The counter counts the effects whose task came that far. -/
structure Balanced (b : Book ι) : Prop where
  nodup : b.effects.Nodup
  had : ∀ i ∈ b.effects, b.account i ≠ .before
  pending : ∀ i, b.account i = .pending → i ∈ b.effects
  count : b.count = b.effects.countP fun i => b.account i = .counted

/-- No task has ended between its effect and the count. -/
def Complete (b : Book ι) : Prop := ∀ i ∈ b.effects, b.account i ≠ .ended

theorem Balanced.notMem (h : b.Balanced) (hi : b.account i = .before) : i ∉ b.effects :=
  fun hmem => h.had i hmem hi

/-- With no task in between, the counter is right if and only if nothing is lost. -/
theorem Balanced.count_eq_iff (h : b.Balanced) (hsettled : ∀ i, b.account i ≠ .pending) :
    b.count = b.effects.length ↔ b.Complete := by
  rw [h.count, List.countP_eq_length]
  refine forall₂_congr fun i hi => ?_
  have hhad := h.had i hi
  have hpending := hsettled i
  cases hacct : b.account i <;> simp_all

end Book

variable [DecidableEq ι]

/-- What one step does to the book; `cut` says that it cuts off an effect. -/
inductive Step (b : Book ι) : Bool → Book ι → Prop where
  | stand : Step b false b
  | leave (i : ι) (hi : b.account i = .before) :
      Step b false ⟨Function.update b.account i .ended, b.effects, b.count⟩
  | effect (i : ι) (hi : b.account i = .before) :
      Step b false ⟨Function.update b.account i .pending, i :: b.effects, b.count⟩
  | tick (i : ι) (hi : b.account i = .pending) :
      Step b false ⟨Function.update b.account i .counted, b.effects, b.count + 1⟩
  | cutAfter (i : ι) (hi : b.account i = .pending) :
      Step b true ⟨Function.update b.account i .ended, b.effects, b.count⟩
  | cutAt (i : ι) (hi : b.account i = .before) :
      Step b true ⟨Function.update b.account i .ended, i :: b.effects, b.count⟩

section
variable {effects : List ι} {account : ι → Account} (a : Account)

theorem countP_update_of_notMem (hi : i ∉ effects) :
    effects.countP (fun j => Function.update account i a j = .counted) =
      effects.countP fun j => account j = .counted := by
  refine List.countP_congr fun j hj => ?_
  have hne : j ≠ i := fun h => hi (h ▸ hj)
  simp [Function.update_of_ne hne]

theorem countP_update_of_mem (hnodup : effects.Nodup) (hi : i ∈ effects)
    (hnot : account i ≠ .counted) :
    effects.countP (fun j => Function.update account i a j = .counted) =
      effects.countP (fun j => account j = .counted) + if a = .counted then 1 else 0 := by
  have hperm := List.perm_cons_erase hi
  rw [hperm.countP_eq, hperm.countP_eq, List.countP_cons, List.countP_cons,
    countP_update_of_notMem a hnodup.not_mem_erase]
  simp [hnot]

end

namespace Book

variable {a : Account}

theorem Balanced.leave (h : b.Balanced) (hi : b.account i = .before) :
    Balanced ⟨Function.update b.account i .ended, b.effects, b.count⟩ := by
  have hmem := h.notMem hi
  refine ⟨h.nodup, fun j hj => ?_, fun j hj => ?_, ?_⟩
  · have hne : j ≠ i := fun heq => hmem (heq ▸ hj)
    simpa [hne] using h.had j hj
  · by_cases hji : j = i
    · simp [hji] at hj
    · exact h.pending j (by simpa [hji] using hj)
  · exact h.count.trans (countP_update_of_notMem _ hmem).symm

theorem Balanced.effect (h : b.Balanced) (hi : b.account i = .before) (hbefore : a ≠ .before)
    (hcounted : a ≠ .counted) :
    Balanced ⟨Function.update b.account i a, i :: b.effects, b.count⟩ := by
  have hmem := h.notMem hi
  refine ⟨List.nodup_cons.mpr ⟨hmem, h.nodup⟩, fun j hj => ?_, fun j hj => ?_, ?_⟩
  · by_cases hji : j = i
    · simpa [hji] using hbefore
    · simpa [hji] using h.had j ((List.mem_cons.mp hj).resolve_left hji)
  · by_cases hji : j = i
    · exact List.mem_cons.mpr (.inl hji)
    · exact List.mem_cons_of_mem i (h.pending j (by simpa [hji] using hj))
  · simp only [List.countP_cons, Function.update_self, decide_eq_true_eq, if_neg hcounted]
    exact h.count.trans (countP_update_of_notMem a hmem).symm

theorem Balanced.settle (h : b.Balanced) (hi : b.account i = .pending) (hbefore : a ≠ .before) :
    Balanced ⟨Function.update b.account i a, b.effects,
      b.count + if a = .counted then 1 else 0⟩ := by
  have hmem := h.pending i hi
  refine ⟨h.nodup, fun j hj => ?_, fun j hj => ?_, ?_⟩
  · by_cases hji : j = i
    · simpa [hji] using hbefore
    · simpa [hji] using h.had j hj
  · by_cases hji : j = i
    · exact hji ▸ hmem
    · exact h.pending j (by simpa [hji] using hj)
  · show b.count + _ = _
    rw [countP_update_of_mem a h.nodup hmem (by simp [hi]), h.count]

end Book

theorem Step.balanced (h : Step b cut b') (hb : b.Balanced) : b'.Balanced := by
  cases h with
  | stand => exact hb
  | leave i hi => exact hb.leave hi
  | effect i hi => exact hb.effect hi nofun nofun
  | tick i hi => exact hb.settle hi nofun
  | cutAfter i hi => exact hb.settle hi nofun
  | cutAt i hi => exact hb.effect hi nofun nofun

/-- A step keeps the book complete exactly when it cuts off no effect, and an effect
once lost stays lost. -/
theorem Step.complete_iff (h : Step b cut b') (hb : b.Balanced) :
    b'.Complete ↔ b.Complete ∧ cut = false := by
  cases h with
  | stand => simp
  | leave i hi =>
    have hmem := hb.notMem hi
    rw [and_iff_left rfl]
    refine forall₂_congr fun j hj => ?_
    have hne : j ≠ i := fun heq => hmem (heq ▸ hj)
    simp [hne]
  | effect i hi =>
    have hmem := hb.notMem hi
    rw [and_iff_left rfl, Book.Complete, List.forall_mem_cons]
    simp only [Function.update_self, ne_eq, reduceCtorEq, not_false_eq_true, true_and]
    refine forall₂_congr fun j hj => ?_
    have hne : j ≠ i := fun heq => hmem (heq ▸ hj)
    simp [hne]
  | tick i hi =>
    rw [and_iff_left rfl]
    refine forall₂_congr fun j hj => ?_
    by_cases hji : j = i
    · subst hji
      simp [hi]
    · simp [hji]
  | cutAfter i hi =>
    have hlost : ¬ Book.Complete ⟨Function.update b.account i .ended, b.effects, b.count⟩ :=
      fun hcomplete => hcomplete i (hb.pending i hi) (Function.update_self ..)
    simp [hlost]
  | cutAt i hi =>
    have hlost : ¬ Book.Complete ⟨Function.update b.account i .ended, i :: b.effects, b.count⟩ :=
      fun hcomplete => hcomplete i List.mem_cons_self (Function.update_self ..)
    simp [hlost]

end Tally
