import Mathlib.Data.Nat.Notation
import Mathlib.Logic.Function.Basic

namespace Async

/-- A computation that has ended, has raised, writes an output, or awaits. -/
inductive Coro (Op : Type) (Res : Op → Type) (M ε α : Type) where
  | pure (a : α)
  | throw (e : ε)
  | emit (m : M) (next : Coro Op Res M ε α)
  | await (op : Op) (k : Except ε (Res op) → Coro Op Res M ε α)

variable {Op : Type} {Res : Op → Type} {M ε ξ α β σ : Type}

namespace Coro

def bind : Coro Op Res M ε α → (α → Coro Op Res M ε β) → Coro Op Res M ε β
  | .pure a, f => f a
  | .throw e, _ => .throw e
  | .emit m c, f => .emit m (c.bind f)
  | .await op k, f => .await op fun r => (k r).bind f

instance : Monad (Coro Op Res M ε) where
  pure := .pure
  bind := bind

def ofAnswer : Except ε α → Coro Op Res M ε α
  | .ok a => .pure a
  | .error e => .throw e

/-- `await op`, letting its exception propagate. -/
def call (op : Op) : Coro Op Res M ε (Res op) := .await op ofAnswer

def tell (m : M) : Coro Op Res M ε Unit := .emit m (.pure ())

/-- `try: c` with `finally: fin`. An exception of `fin` replaces the pending one. -/
def tryFinally : Coro Op Res M ε α → Coro Op Res M ε Unit → Coro Op Res M ε α
  | .pure a, fin => fin.bind fun _ => .pure a
  | .throw e, fin => fin.bind fun _ => .throw e
  | .emit m c, fin => .emit m (c.tryFinally fin)
  | .await op k, fin => .await op fun r => (k r).tryFinally fin

/-- `try: c` with an `except` clause after it: the exception becomes a value. -/
def attempt : Coro Op Res M ε α → Coro Op Res M ε (Except ε α)
  | .pure a => .pure (.ok a)
  | .throw e => .pure (.error e)
  | .emit m c => .emit m c.attempt
  | .await op k => .await op fun r => (k r).attempt

@[simp] theorem pure_eq (a : α) : (Pure.pure a : Coro Op Res M ε α) = .pure a := rfl

@[simp] theorem bind_eq (c : Coro Op Res M ε α) (f : α → Coro Op Res M ε β) :
    c >>= f = c.bind f := rfl

theorem bind_assoc {γ : Type} (c : Coro Op Res M ε α) (f : α → Coro Op Res M ε β)
    (g : β → Coro Op Res M ε γ) : (c.bind f).bind g = c.bind fun a => (f a).bind g := by
  induction c with
  | pure a => rfl
  | throw e => rfl
  | emit m c ih => simp only [bind, ih]
  | await op k ih => simp only [bind, ih]

theorem tryFinally_throw_bind (e : ε) (fin : Coro Op Res M ε Unit)
    (f : α → Coro Op Res M ε β) :
    ((.throw e : Coro Op Res M ε α).tryFinally fin).bind f = fin.bind fun _ => .throw e := by
  rw [tryFinally, bind_assoc]
  rfl

theorem tryFinally_pure_bind (a : α) (fin : Coro Op Res M ε Unit)
    (f : α → Coro Op Res M ε β) :
    ((.pure a : Coro Op Res M ε α).tryFinally fin).bind f = fin.bind fun _ => f a := by
  rw [tryFinally, bind_assoc]
  rfl

end Coro

/-- What an operation answers and does to the state, and where outputs go. -/
structure Handler (Op : Type) (Res : Op → Type) (M ε σ : Type) where
  exec : (op : Op) → σ → Except ε (Res op) × σ
  log : M → σ → σ

namespace Coro

/-- The whole call, no other task running in between. -/
def run (h : Handler Op Res M ε σ) : Coro Op Res M ε α → σ → Except ε α × σ
  | .pure a, s => (.ok a, s)
  | .throw e, s => (.error e, s)
  | .emit m c, s => c.run h (h.log m s)
  | .await op k, s => (k (h.exec op s).1).run h (h.exec op s).2

theorem run_bind (h : Handler Op Res M ε σ) (c : Coro Op Res M ε α)
    (f : α → Coro Op Res M ε β) (s : σ) :
    (c.bind f).run h s = match c.run h s with
      | (.ok a, s') => (f a).run h s'
      | (.error e, s') => (.error e, s') := by
  induction c generalizing s with
  | pure a => rfl
  | throw e => rfl
  | emit m c ih => exact ih _
  | await op k ih => exact ih _ _

theorem run_tryFinally (h : Handler Op Res M ε σ) (c : Coro Op Res M ε α)
    (fin : Coro Op Res M ε Unit) (s : σ) :
    (c.tryFinally fin).run h s = match fin.run h (c.run h s).2 with
      | (.ok _, s') => ((c.run h s).1, s')
      | (.error e, s') => (.error e, s') := by
  induction c generalizing s with
  | pure a =>
    simp only [tryFinally, run_bind, run]
    rcases fin.run h s with ⟨_ | _, _⟩ <;> rfl
  | throw e =>
    simp only [tryFinally, run_bind, run]
    rcases fin.run h s with ⟨_ | _, _⟩ <;> rfl
  | emit m c ih => exact ih _
  | await op k ih => exact ih _ _

theorem run_attempt (h : Handler Op Res M ε σ) (c : Coro Op Res M ε α) (s : σ) :
    c.attempt.run h s = (.ok (c.run h s).1, (c.run h s).2) := by
  induction c generalizing s with
  | pure a => rfl
  | throw e => rfl
  | emit m c ih => exact ih _
  | await op k ih => exact ih _ _

theorem run_call (h : Handler Op Res M ε σ) (op : Op) (s : σ) :
    (call op : Coro Op Res M ε (Res op)).run h s = h.exec op s := by
  rw [call, run]
  cases hr : (h.exec op s).1 with
  | ok r => exact Prod.ext hr.symm rfl
  | error e => exact Prod.ext hr.symm rfl

end Coro

/-- How an awaited operation ends: normally, or with an exception thrown in at
the await, the operation itself having taken effect or not. -/
inductive Outcome (ξ : Type) where
  | ok
  | interrupted (x : ξ) (done : Bool)
  deriving DecidableEq, Repr

def Outcome.carriedOut : Outcome ξ → Bool
  | .ok => true
  | .interrupted _ done => done

def Outcome.answer (inject : ξ → ε) (f : σ → Except ε α × σ) : Outcome ξ → σ → Except ε α × σ
  | .ok, s => f s
  | .interrupted x done, s => (.error (inject x), if done then (f s).2 else s)

/-- A refused operation raises and changes nothing. -/
def Handler.guarded (h : Handler Op Res M ε σ) (accepts : Op → Bool) (refusal : ε) :
    Handler Op Res M ε σ where
  exec op s := if accepts op = true then h.exec op s else (.error refusal, s)
  log := h.log

theorem Handler.guarded_accepted {h : Handler Op Res M ε σ} {accepts : Op → Bool} {refusal : ε}
    {op : Op} (hop : accepts op = true) (s : σ) :
    (h.guarded accepts refusal).exec op s = h.exec op s :=
  if_pos hop

theorem Handler.guarded_refused {h : Handler Op Res M ε σ} {accepts : Op → Bool} {refusal : ε}
    {op : Op} (hop : ¬ accepts op = true) (s : σ) :
    (h.guarded accepts refusal).exec op s = (.error refusal, s) :=
  if_neg hop

namespace Coro

/-- Whatever it is answered, a coroutine awaits only operations that satisfy `P`. -/
def Only (P : Op → Prop) : Coro Op Res M ε α → Prop
  | .pure _ => True
  | .throw _ => True
  | .emit _ c => c.Only P
  | .await op k => P op ∧ ∀ r, (k r).Only P

variable {P : Op → Prop} {c : Coro Op Res M ε α}

theorem only_ofAnswer (r : Except ε α) : (ofAnswer r : Coro Op Res M ε α).Only P := by
  cases r <;> trivial

theorem only_call {op : Op} : (call op : Coro Op Res M ε (Res op)).Only P ↔ P op :=
  and_iff_left only_ofAnswer

theorem Only.bind {f : α → Coro Op Res M ε β} (h : c.Only P) (hf : ∀ a, (f a).Only P) :
    (c.bind f).Only P := by
  induction c with
  | pure a => exact hf a
  | throw e => trivial
  | emit m c ih => exact ih h
  | await op k ih => exact ⟨h.1, fun r => ih r (h.2 r)⟩

theorem Only.tryFinally {fin : Coro Op Res M ε Unit} (h : c.Only P) (hfin : fin.Only P) :
    (c.tryFinally fin).Only P := by
  induction c with
  | pure a => exact hfin.bind fun _ => trivial
  | throw e => exact hfin.bind fun _ => trivial
  | emit m c ih => exact ih h
  | await op k ih => exact ⟨h.1, fun r => ih r (h.2 r)⟩

theorem Only.of_bind {f : α → Coro Op Res M ε β} (h : (c.bind f).Only P)
    (handler : Handler Op Res M ε σ) {s : σ} {a : α} (hrun : (c.run handler s).1 = .ok a) :
    (f a).Only P := by
  induction c generalizing s with
  | pure b =>
    cases hrun
    exact h
  | throw e => cases hrun
  | emit m c ih => exact ih h hrun
  | await op k ih => exact ih _ (h.2 _) hrun

theorem Only.run_guarded {accepts : Op → Bool} (h : c.Only (accepts · = true))
    (handler : Handler Op Res M ε σ) (refusal : ε) (s : σ) :
    c.run (handler.guarded accepts refusal) s = c.run handler s := by
  induction c generalizing s with
  | pure a => rfl
  | throw e => rfl
  | emit m c ih => exact ih h _
  | await op k ih =>
    rw [run, run, Handler.guarded_accepted h.1]
    exact ih _ (h.2 _) _

end Coro

/-- The `n`-th awaited operation ends with the `n`-th outcome of a script; the
state counts the operations. -/
def Handler.scripted (h : Handler Op Res M ε σ) (inject : ξ → ε) (script : ℕ → Outcome ξ) :
    Handler Op Res M ε (σ × ℕ) where
  exec op s :=
    let (r, s') := (script s.2).answer inject (h.exec op) s.1
    (r, s', s.2 + 1)
  log m s := (h.log m s.1, s.2)

namespace Coro

def settle (h : Handler Op Res M ε σ) : Coro Op Res M ε α → σ → Coro Op Res M ε α × σ
  | .emit m c, s => c.settle h (h.log m s)
  | .pure a, s => (.pure a, s)
  | .throw e, s => (.throw e, s)
  | .await op k, s => (.await op k, s)

end Coro

/-- A task that has not been entered yet, or stands at an await or at its end. -/
inductive Task (Op : Type) (Res : Op → Type) (M ε α : Type) where
  | idle (c : Coro Op Res M ε α)
  | active (c : Coro Op Res M ε α)

inductive Action (ξ : Type) where
  | enter
  | resume (o : Outcome ξ)
  deriving DecidableEq, Repr

namespace Task

/-- One atomic step: the awaited operation and the code up to the next await. -/
def step (h : Handler Op Res M ε σ) (inject : ξ → ε) :
    Task Op Res M ε α → Action ξ → σ → Option (Task Op Res M ε α × σ)
  | .idle c, .enter, s => some (.active (c.settle h s).1, (c.settle h s).2)
  | .active (.await op k), .resume o, s =>
    let (r, s') := o.answer inject (h.exec op) s
    some (.active ((k r).settle h s').1, ((k r).settle h s').2)
  | _, _, _ => none

end Task

end Async
