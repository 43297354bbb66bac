import PolyrepoTemplate.Async.Coroutine

namespace Async.Coro

variable {Op : Type} {Res : Op → Type} {M ε α β σ τ : Type} {h : Handler Op Res M ε σ}
  {view : σ → List τ} {c : Coro Op Res M ε α} {f : α → Coro Op Res M ε β}
  {fin : Coro Op Res M ε Unit} {xs ys : List τ}

/-- Every run appends `xs`, however it ends. -/
def Appends (h : Handler Op Res M ε σ) (view : σ → List τ) (c : Coro Op Res M ε α)
    (xs : List τ) : Prop :=
  ∀ s, view (c.run h s).2 = view s ++ xs

def Returns (h : Handler Op Res M ε σ) (c : Coro Op Res M ε α) : Prop :=
  ∀ s, ∃ a, (c.run h s).1 = .ok a

def Raises (h : Handler Op Res M ε σ) (c : Coro Op Res M ε α) : Prop :=
  ∀ s, ∃ e, (c.run h s).1 = .error e

theorem Appends.tell {m : M} (hlog : ∀ s, view (h.log m s) = view s) :
    (tell m : Coro Op Res M ε Unit).Appends h view [] := by
  intro s
  rw [List.append_nil]
  exact hlog s

theorem Returns.tell {m : M} : (tell m : Coro Op Res M ε Unit).Returns h := fun _ => ⟨(), rfl⟩

theorem Appends.call {op : Op} (hexec : ∀ s, view (h.exec op s).2 = view s ++ xs) :
    (call op : Coro Op Res M ε (Res op)).Appends h view xs := by
  intro s
  rw [run_call]
  exact hexec s

theorem Appends.bind (hc : c.Appends h view xs) (hret : c.Returns h)
    (hf : ∀ a, (f a).Appends h view ys) : (c.bind f).Appends h view (xs ++ ys) := by
  intro s
  obtain ⟨a, ha⟩ := hret s
  have hrun : c.run h s = (.ok a, (c.run h s).2) := Prod.ext ha rfl
  calc view ((c.bind f).run h s).2
      = view ((f a).run h (c.run h s).2).2 := by rw [run_bind, hrun]
    _ = view s ++ (xs ++ ys) := by rw [hf a, hc s, List.append_assoc]

theorem Appends.bind_nil (hc : c.Appends h view xs) (hf : ∀ a, (f a).Appends h view []) :
    (c.bind f).Appends h view xs := by
  intro s
  have hs := hc s
  rw [run_bind]
  rcases hrun : c.run h s with ⟨e | a, s'⟩ <;> rw [hrun] at hs
  · exact hs
  · exact (hf a s').trans (by rw [List.append_nil, hs])

theorem Returns.bind (hc : c.Returns h) (hf : ∀ a, (f a).Returns h) : (c.bind f).Returns h := by
  intro s
  obtain ⟨a, ha⟩ := hc s
  have hrun : c.run h s = (.ok a, (c.run h s).2) := Prod.ext ha rfl
  rw [run_bind, hrun]
  exact hf a _

theorem Appends.bind_raises (hc : c.Appends h view xs) (hraise : c.Raises h) :
    (c.bind f).Appends h view xs := by
  intro s
  obtain ⟨e, he⟩ := hraise s
  have hrun : c.run h s = (.error e, (c.run h s).2) := Prod.ext he rfl
  rw [run_bind, hrun]
  exact hc s

theorem Raises.bind (hc : c.Raises h) : (c.bind f).Raises h := by
  intro s
  obtain ⟨e, he⟩ := hc s
  have hrun : c.run h s = (.error e, (c.run h s).2) := Prod.ext he rfl
  rw [run_bind, hrun]
  exact ⟨e, rfl⟩

theorem Raises.bind_of_returns (hret : c.Returns h) (hf : ∀ a, (f a).Raises h) :
    (c.bind f).Raises h := by
  intro s
  obtain ⟨a, ha⟩ := hret s
  have hrun : c.run h s = (.ok a, (c.run h s).2) := Prod.ext ha rfl
  rw [run_bind, hrun]
  exact hf a _

theorem Appends.tryFinally (hc : c.Appends h view xs) (hfin : fin.Appends h view ys) :
    (c.tryFinally fin).Appends h view (xs ++ ys) := by
  intro s
  have hboth : view (fin.run h (c.run h s).2).2 = view s ++ (xs ++ ys) := by
    rw [hfin, hc, List.append_assoc]
  rw [run_tryFinally]
  split <;> simp_all

end Async.Coro
