import PolyrepoTemplate.Async.Coroutine
import PolyrepoTemplate.Async.Runs

namespace Async

variable {Op : Type} {Res : Op → Type} {M ε ξ α σ ι E : Type}

namespace Coro

theorem run_scripted_ok (h : Handler Op Res M ε σ) (inject : ξ → ε) (c : Coro Op Res M ε α)
    (s : σ) (n : ℕ) : ∃ m, c.run (h.scripted inject fun _ => .ok) (s, n) =
      ((c.run h s).1, (c.run h s).2, m) := by
  induction c generalizing s n with
  | pure a => exact ⟨n, rfl⟩
  | throw e => exact ⟨n, rfl⟩
  | emit m c ih => exact ih _ n
  | await op k ih => exact ih _ _ (n + 1)

end Coro

/-- Entering task `i` and resuming it with the first `n` outcomes of a script. -/
def alone (i : ι) (script : ℕ → Outcome ξ) (n : ℕ) : List (Label ι (Action ξ) E) :=
  .task i .enter :: (List.range n).map fun m => .task i (.resume (script m))

section
variable [DecidableEq ι] (handler : ι → Handler Op Res M ε σ) (inject : ξ → ε)
  (envStep : E → σ → σ) (script : ℕ → Outcome ξ)

theorem Pool.run_resumed (i : ι) (c : Coro Op Res M ε α) (s : σ)
    (task : ι → Task Op Res M ε α) (n : ℕ) :
    ∃ k, run (Pool.step (fun i t a s => t.step (handler i) inject a s) envStep)
        ⟨(c.settle (handler i) s).2, Function.update task i (.active (c.settle (handler i) s).1)⟩
        ((List.range' n k).map fun m => .task i (.resume (script m))) =
      some ⟨(c.run ((handler i).scripted inject script) (s, n)).2.1, Function.update task i
        (.active (.ofAnswer (c.run ((handler i).scripted inject script) (s, n)).1))⟩ := by
  induction c generalizing s n with
  | pure a => exact ⟨0, rfl⟩
  | throw e => exact ⟨0, rfl⟩
  | emit m c ih => exact ih _ n
  | await op k ih =>
    obtain ⟨left, hleft⟩ := ih _ ((script n).answer inject ((handler i).exec op) s).2 (n + 1)
    -- the step that resumes the await, and then the rest of the script
    refine ⟨left + 1, ?_⟩
    rw [List.range'_succ, List.map_cons]
    refine run_cons_eq_some.mpr ⟨_, ?_, hleft⟩
    simp only [Pool.step, Coro.settle, Function.update_self, Task.step, Option.map_some,
      Function.update_idem]
    rfl

theorem Pool.run_alone {i : ι} {c : Coro Op Res M ε α}
    {s : Pool ι (Task Op Res M ε α) σ} (hi : s.task i = .idle c) :
    ∃ n, run (Pool.step (fun i t a s => t.step (handler i) inject a s) envStep) s
        (alone i script n) =
      some ⟨(c.run ((handler i).scripted inject script) (s.shared, 0)).2.1, Function.update s.task i
        (.active (.ofAnswer (c.run ((handler i).scripted inject script) (s.shared, 0)).1))⟩ := by
  obtain ⟨n, hn⟩ := Pool.run_resumed handler inject envStep script i c s.shared s.task 0
  refine ⟨n, run_cons_eq_some.mpr ⟨_, ?_, List.range_eq_range' ▸ hn⟩⟩
  simp only [Pool.step, hi, Task.step, Option.map_some]

end

end Async
