import Mathlib.Data.List.Basic
import Mathlib.Logic.Function.Basic

namespace Async

variable {S T L : Type}

def run (step : S → L → Option S) : S → List L → Option S
  | s, [] => some s
  | s, l :: ls => (step s l).bind fun s' => run step s' ls

/-- Every step taken meets `Q` in the state before it. -/
def Along (step : S → L → Option S) (Q : S → L → Prop) : S → List L → Prop
  | _, [] => True
  | s, l :: ls => ∀ s', step s l = some s' → Q s l ∧ Along step Q s' ls

section
variable {step : S → L → Option S}

@[simp] theorem run_nil (s : S) : run step s [] = some s := rfl

theorem run_cons_eq_some {s s'' : S} {l : L} {ls : List L} :
    run step s (l :: ls) = some s'' ↔ ∃ s', step s l = some s' ∧ run step s' ls = some s'' :=
  Option.bind_eq_some_iff

theorem run_invariant_along {I : S → Prop} {Q : S → L → Prop}
    (hstep : ∀ s l s', I s → Q s l → step s l = some s' → I s')
    {s s' : S} {ls : List L} (hI : I s) (hQ : Along step Q s ls) (hrun : run step s ls = some s') :
    I s' := by
  induction ls generalizing s with
  | nil =>
    cases hrun
    exact hI
  | cons l ls ih =>
    obtain ⟨t, ht, hrest⟩ := run_cons_eq_some.mp hrun
    obtain ⟨hq, hrestQ⟩ := hQ t ht
    exact ih (hstep s l t hI hq ht) hrestQ hrest

theorem run_invariant {I : S → Prop} (hstep : ∀ s l s', I s → step s l = some s' → I s')
    {s s' : S} {ls : List L} (hI : I s) (hrun : run step s ls = some s') : I s' := by
  induction ls generalizing s with
  | nil =>
    cases hrun
    exact hI
  | cons l ls ih =>
    obtain ⟨t, ht, hrest⟩ := run_cons_eq_some.mp hrun
    exact ih (hstep s l t hI ht) hrest

/-- A second system that only watches the labels, and a relation that each step
keeps between the two. -/
theorem run_simulation_along {T : Type} {R : S → T → Prop} {Q : S → L → Prop} {watch : T → L → T}
    (hstep : ∀ s t l s', R s t → Q s l → step s l = some s' → R s' (watch t l))
    {s s' : S} {t : T} {ls : List L} (hR : R s t) (hQ : Along step Q s ls)
    (hrun : run step s ls = some s') : R s' (ls.foldl watch t) := by
  induction ls generalizing s t with
  | nil =>
    cases hrun
    exact hR
  | cons l ls ih =>
    obtain ⟨m, hm, hrest⟩ := run_cons_eq_some.mp hrun
    obtain ⟨hq, hrestQ⟩ := hQ m hm
    exact ih (hstep s t l m hR hq hm) hrestQ hrest

/-- Labels that each use up some of a potential occur no more often than it allows. -/
theorem run_countP_le {I : S → Prop} {Q : S → L → Prop} {potential : S → ℕ} {uses : L → Bool}
    (hstep : ∀ s l s', I s → Q s l → step s l = some s' →
      I s' ∧ potential s' + (if uses l then 1 else 0) ≤ potential s)
    {s s' : S} {ls : List L} (hI : I s) (hQ : Along step Q s ls) (hrun : run step s ls = some s') :
    I s' ∧ potential s' + ls.countP uses ≤ potential s := by
  induction ls generalizing s with
  | nil =>
    cases hrun
    exact ⟨hI, Nat.le_refl _⟩
  | cons l ls ih =>
    obtain ⟨t, ht, hrest⟩ := run_cons_eq_some.mp hrun
    obtain ⟨hq, hrestQ⟩ := hQ t ht
    obtain ⟨hIt, hle⟩ := hstep s l t hI hq ht
    obtain ⟨hfin, hrestle⟩ := ih hIt hrestQ hrest
    refine ⟨hfin, ?_⟩
    rw [List.countP_cons]
    omega

/-- If in each state that is not `Done` some step with a label in `P` lowers the
measure, such steps lead to a state that is. -/
theorem run_drains {I Done : S → Prop} {P : L → Prop} {measure : S → ℕ}
    (hstep : ∀ s, I s → ¬ Done s → ∃ l s', P l ∧ step s l = some s' ∧ I s' ∧
      measure s' < measure s) {s : S} (hI : I s) :
    ∃ ls s', (∀ l ∈ ls, P l) ∧ ls.length ≤ measure s ∧ run step s ls = some s' ∧ I s' ∧
      Done s' := by
  induction hm : measure s using Nat.strongRecOn generalizing s
  rename_i m ih
  by_cases hdone : Done s
  · exact ⟨[], s, fun _ hl => absurd hl List.not_mem_nil, Nat.zero_le _, rfl, hI, hdone⟩
  · obtain ⟨l, t, hl, ht, hIt, hlt⟩ := hstep s hI hdone
    obtain ⟨ls, s', hls, hlen, hrun, hI', hdone'⟩ := ih _ (hm ▸ hlt) hIt rfl
    refine ⟨l :: ls, s', ?_, ?_, run_cons_eq_some.mpr ⟨t, ht, hrun⟩, hI', hdone'⟩
    · intro k hk
      obtain rfl | hk := List.mem_cons.mp hk
      · exact hl
      · exact hls k hk
    · rw [List.length_cons]
      omega

theorem along_cons {Q : S → L → Prop} {s s' : S} {l : L} {ls : List L} (h : step s l = some s') :
    Along step Q s (l :: ls) ↔ Q s l ∧ Along step Q s' ls := by
  simp only [Along, h, Option.some.injEq, forall_eq']

theorem along_of_forall {Q : S → L → Prop} {s : S} {ls : List L} (h : ∀ l ∈ ls, ∀ s, Q s l) :
    Along step Q s ls := by
  induction ls generalizing s with
  | nil => trivial
  | cons l ls ih =>
    intro s' _
    exact ⟨h l List.mem_cons_self s, ih fun m hm => h m (List.mem_cons_of_mem l hm)⟩

theorem along_of_forall_mem {P : L → Prop} {s : S} {ls : List L} (h : ∀ l ∈ ls, P l) :
    Along step (fun _ l => P l) s ls := along_of_forall fun l hl _ => h l hl

theorem Along.mono {Q R : S → L → Prop} (h : ∀ s l, Q s l → R s l) {s : S} {ls : List L}
    (hQ : Along step Q s ls) : Along step R s ls := by
  induction ls generalizing s with
  | nil => trivial
  | cons l ls ih =>
    intro s' hs'
    exact ⟨h s l (hQ s' hs').1, ih (hQ s' hs').2⟩

theorem Along.and {Q R : S → L → Prop} {s : S} {ls : List L}
    (hQ : Along step Q s ls) (hR : Along step R s ls) :
    Along step (fun s l => Q s l ∧ R s l) s ls := by
  induction ls generalizing s with
  | nil => trivial
  | cons l ls ih =>
    intro s' h
    exact ⟨⟨(hQ s' h).1, (hR s' h).1⟩, ih (hQ s' h).2 (hR s' h).2⟩

end

/-- The run goes through `s'` after at least one step. -/
def Passes (step : S → L → Option S) (s : S) (ls : List L) (s' : S) : Prop :=
  ∃ ms ns, ms ≠ [] ∧ ls = ms ++ ns ∧ run step s ms = some s'

section
variable {step : S → L → Option S}

theorem passes_cons {s t s' : S} {l : L} {ls : List L} (ht : step s l = some t) :
    Passes step s (l :: ls) s' ↔ s' = t ∨ Passes step t ls s' := by
  constructor
  · rintro ⟨ms, ns, hne, heq, hrun⟩
    cases ms with
    | nil => exact absurd rfl hne
    | cons m ms =>
      obtain ⟨rfl, rfl⟩ := List.cons.inj heq
      obtain ⟨t', ht', hrest⟩ := run_cons_eq_some.mp hrun
      rw [ht] at ht'
      cases ht'
      cases ms with
      | nil => exact .inl (Option.some.inj hrest).symm
      | cons m ms => exact .inr ⟨m :: ms, ns, List.cons_ne_nil _ _, rfl, hrest⟩
  · rintro (rfl | ⟨ms, ns, hne, rfl, hrun⟩)
    · exact ⟨[l], ls, List.cons_ne_nil _ _, rfl, run_cons_eq_some.mpr ⟨_, ht, rfl⟩⟩
    · exact ⟨l :: ms, ns, List.cons_ne_nil _ _, rfl, run_cons_eq_some.mpr ⟨_, ht, hrun⟩⟩

theorem passes_cons_of_none {s s' : S} {l : L} {ls : List L} (h : step s l = none) :
    ¬ Passes step s (l :: ls) s' := by
  rintro ⟨ms, ns, hne, heq, hrun⟩
  cases ms with
  | nil => exact hne rfl
  | cons m ms =>
    obtain ⟨rfl, rfl⟩ := List.cons.inj heq
    obtain ⟨t, ht, -⟩ := run_cons_eq_some.mp hrun
    rw [h] at ht
    cases ht

theorem Passes.after {s t s' : S} {ms ns : List L} (hrun : run step s ms = some t)
    (h : Passes step t ns s') : Passes step s (ms ++ ns) s' := by
  induction ms generalizing s with
  | nil =>
    cases hrun
    exact h
  | cons m ms ih =>
    obtain ⟨u, hu, hrest⟩ := run_cons_eq_some.mp hrun
    exact (passes_cons hu).mpr (.inr (ih hrest))

/-- A condition on each step that decides whether the step keeps `P` decides whether the run
keeps `P`. The steps may be known to meet `R`, and `I` is an invariant that may be used for
it. -/
theorem along_iff_passes {I P : S → Prop} {Q R : S → L → Prop}
    (hI : ∀ s l s', I s → step s l = some s' → I s')
    (hQ : ∀ s l s', I s → P s → R s l → step s l = some s' → (Q s l ↔ P s'))
    {s : S} {ls : List L} (hs : I s) (hP : P s) (hR : Along step R s ls) :
    Along step Q s ls ↔ ∀ s', Passes step s ls s' → P s' := by
  induction ls generalizing s with
  | nil =>
    refine ⟨fun _ s' => ?_, fun _ => trivial⟩
    rintro ⟨ms, ns, hne, heq, -⟩
    exact absurd (List.append_eq_nil_iff.mp heq.symm).1 hne
  | cons l ls ih =>
    cases hm : step s l with
    | none =>
      -- no run goes on from here, and `Along` asks nothing of a step not taken
      refine ⟨fun _ s' h => absurd h (passes_cons_of_none hm), fun _ s' h => ?_⟩
      rw [hm] at h
      cases h
    | some m =>
      obtain ⟨hr, hRm⟩ := hR m hm
      have hstep := hQ s l m hs hP hr hm
      have hrest := fun hPm => ih (hI s l m hs hm) hPm hRm
      simp only [along_cons hm, passes_cons hm, forall_eq_or_imp]
      constructor
      · rintro ⟨hq, hall⟩
        exact ⟨hstep.mp hq, (hrest (hstep.mp hq)).mp hall⟩
      · rintro ⟨hPm, hall⟩
        exact ⟨hstep.mpr hPm, (hrest hPm).mpr hall⟩

end

theorem final_iff_along {step : S → L → Option S} {I P : S → Prop} {Q : S → L → Prop}
    (hI : ∀ s l s', I s → step s l = some s' → I s')
    (hQ : ∀ s l s', I s → step s l = some s' → (P s' ↔ P s ∧ Q s l))
    {s s' : S} {ls : List L} (hs : I s) (hrun : run step s ls = some s') :
    P s' ↔ P s ∧ Along step Q s ls := by
  induction ls generalizing s with
  | nil =>
    cases hrun
    exact (and_iff_left trivial).symm
  | cons l ls ih =>
    obtain ⟨t, ht, hrest⟩ := run_cons_eq_some.mp hrun
    rw [ih (hI s l t hs ht) hrest, hQ s l t hs ht, and_assoc, along_cons ht]

theorem run_map {stepS : S → L → Option S} {stepT : T → L → Option T} (f : S → T)
    (h : ∀ s l, stepT (f s) l = (stepS s l).map f) (s : S) (ls : List L) :
    run stepT (f s) ls = (run stepS s ls).map f := by
  induction ls generalizing s with
  | nil => rfl
  | cons l ls ih =>
    simp only [run, h]
    cases stepS s l with
    | none => rfl
    | some s' => exact ih s'

/-- Unwinding. `R s t` says an observer cannot tell `s` from `t`. If the steps
the observer does not see keep `R`, and the steps it sees are enabled on both
sides or neither and keep `R`, then purging a run of the unseen steps leaves a
run with the same observation. -/
theorem unwinding {step : S → L → Option S} {R : S → S → Prop} (seen : L → Bool)
    (hunseen : ∀ s t l s', seen l = false → R s t → step s l = some s' → R s' t)
    (hseen : ∀ s t l s', seen l = true → R s t → step s l = some s' →
      ∃ t', step t l = some t' ∧ R s' t')
    {s t s' : S} {ls : List L} (hR : R s t) (hrun : run step s ls = some s') :
    ∃ t', run step t (ls.filter seen) = some t' ∧ R s' t' := by
  induction ls generalizing s t with
  | nil =>
    cases hrun
    exact ⟨t, rfl, hR⟩
  | cons l ls ih =>
    obtain ⟨m, hm, hrest⟩ := run_cons_eq_some.mp hrun
    cases hl : seen l with
    | false =>
      -- the purged run stands still
      rw [List.filter_cons_of_neg (by simp [hl])]
      exact ih (hunseen s t l m hl hR hm) hrest
    | true =>
      -- both runs take the step
      obtain ⟨t', ht', hR'⟩ := hseen s t l m hl hR hm
      obtain ⟨t'', ht'', hfin⟩ := ih hR' hrest
      rw [List.filter_cons_of_pos hl]
      exact ⟨t'', run_cons_eq_some.mpr ⟨t', ht', ht''⟩, hfin⟩

variable {ι P A E σ : Type}

structure Pool (ι P σ : Type) where
  shared : σ
  task : ι → P

inductive Label (ι A E : Type) where
  | task (i : ι) (a : A)
  | env (e : E)
  deriving DecidableEq, Repr

section
variable [DecidableEq ι]

/-- One task takes one atomic step on the shared state, the others stand still. -/
def Pool.step (taskStep : ι → P → A → σ → Option (P × σ)) (envStep : E → σ → σ)
    (s : Pool ι P σ) : Label ι A E → Option (Pool ι P σ)
  | .task i a => (taskStep i (s.task i) a s.shared).map fun r =>
      ⟨r.2, Function.update s.task i r.1⟩
  | .env e => some { s with shared := envStep e s.shared }

variable {taskStep : ι → P → A → σ → Option (P × σ)} {envStep : E → σ → σ}

theorem Pool.step_task {s s' : Pool ι P σ} {i : ι} {a : A}
    (h : s.step taskStep envStep (.task i a) = some s') :
    ∃ p sh, taskStep i (s.task i) a s.shared = some (p, sh) ∧
      s' = ⟨sh, Function.update s.task i p⟩ := by
  simp only [Pool.step, Option.map_eq_some_iff] at h
  obtain ⟨⟨p, sh⟩, h, rfl⟩ := h
  exact ⟨p, sh, h, rfl⟩

theorem Pool.run_map {Q : Type} {taskStep' : ι → Q → A → σ → Option (Q × σ)} (f : ι → P → Q)
    (h : ∀ i p a sh, taskStep' i (f i p) a sh =
      (taskStep i p a sh).map fun r => (f i r.1, r.2))
    (s : Pool ι P σ) (ls : List (Label ι A E)) :
    run (Pool.step taskStep' envStep) ⟨s.shared, fun i => f i (s.task i)⟩ ls =
      (run (Pool.step taskStep envStep) s ls).map fun s =>
        ⟨s.shared, fun i => f i (s.task i)⟩ := by
  apply Async.run_map (fun s : Pool ι P σ => (⟨s.shared, fun i => f i (s.task i)⟩ : Pool ι Q σ))
  intro s l
  cases l with
  | env e => rfl
  | task i a =>
    simp only [Pool.step, h, Option.map_map]
    congr 1
    funext r
    simp only [Function.comp, Pool.mk.injEq, true_and]
    funext j
    by_cases hj : j = i
    · subst hj
      simp
    · simp [hj]

end

end Async
