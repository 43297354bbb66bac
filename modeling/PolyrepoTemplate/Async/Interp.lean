import PolyrepoTemplate.Async.Coroutine

namespace Async.Coro

variable {Op Op' : Type} {Res : Op → Type} {Res' : Op' → Type} {M M' ε α β : Type}

/-- `try: c` with `except` clauses: what each exception they catch is answered with. -/
def tryExcept (c : Coro Op Res M ε α) (clauses : ε → Option (Coro Op Res M ε α)) :
    Coro Op Res M ε α :=
  c.attempt.bind fun
    | .ok a => .pure a
    | .error e => (clauses e).getD (.throw e)

/-- Each operation is made by `f`, and each output written as `g` has it. -/
def interp (f : (op : Op) → Coro Op' Res' M' ε (Res op)) (g : M → M') :
    Coro Op Res M ε α → Coro Op' Res' M' ε α
  | .pure a => .pure a
  | .throw e => .throw e
  | .emit m c => .emit (g m) (c.interp f g)
  | .await op k => (f op).attempt.bind fun r => (k r).interp f g

variable (f : (op : Op) → Coro Op' Res' M' ε (Res op)) (g : M → M')

theorem interp_bind (c : Coro Op Res M ε α) (next : α → Coro Op Res M ε β) :
    (c.bind next).interp f g = (c.interp f g).bind fun a => (next a).interp f g := by
  induction c with
  | pure a => rfl
  | throw e => rfl
  | emit m c ih => exact congrArg (emit (g m)) ih
  | await op k ih =>
    rw [bind, interp, interp, bind_assoc]
    congr 1
    funext r
    exact ih r

theorem tryFinally_attempt_bind (c : Coro Op Res M ε α)
    (next : Except ε α → Coro Op Res M ε β) (fin : Coro Op Res M ε Unit) :
    (c.attempt.bind next).tryFinally fin = c.attempt.bind fun r => (next r).tryFinally fin := by
  induction c with
  | pure a => rfl
  | throw e => rfl
  | emit m c ih => exact congrArg (emit m) ih
  | await op k ih =>
    apply congrArg (await op)
    funext r
    exact ih r

theorem interp_tryFinally (c : Coro Op Res M ε α) (fin : Coro Op Res M ε Unit) :
    (c.tryFinally fin).interp f g = (c.interp f g).tryFinally (fin.interp f g) := by
  induction c with
  | pure a => exact interp_bind f g fin _
  | throw e => exact interp_bind f g fin _
  | emit m c ih => exact congrArg (emit (g m)) ih
  | await op k ih =>
    rw [tryFinally, interp, interp, tryFinally_attempt_bind]
    congr 1
    funext r
    exact ih r

theorem interp_call (op : Op) : (call op : Coro Op Res M ε (Res op)).interp f g = f op := by
  have hattempt (c : Coro Op' Res' M' ε (Res op)) :
      (c.attempt.bind fun r => (ofAnswer r : Coro Op Res M ε (Res op)).interp f g) = c := by
    induction c with
    | pure a => rfl
    | throw e => rfl
    | emit m c ih => exact congrArg (emit m) ih
    | await op k ih =>
      apply congrArg (await op)
      funext r
      exact ih r
  exact hattempt (f op)

end Async.Coro
