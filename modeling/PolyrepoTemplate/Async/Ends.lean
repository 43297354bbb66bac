import Mathlib.Data.List.Basic
import PolyrepoTemplate.Async.Interp
import PolyrepoTemplate.Async.Runs

namespace Async

variable {Op : Type} {Res : Op → Type} {M ε α β : Type}

abbrev Awaited (Op : Type) (Res : Op → Type) (ε : Type) := (op : Op) × Except ε (Res op)

namespace Coro

/-- Its awaits being answered by `events`, the coroutine writes `outputs` and ends in
`r`. -/
def Ends : Coro Op Res M ε α → List (Awaited Op Res ε) → List M → Except ε α → Prop
  | .pure a, events, outputs, r => events = [] ∧ outputs = [] ∧ r = .ok a
  | .throw e, events, outputs, r => events = [] ∧ outputs = [] ∧ r = .error e
  | .emit m c, events, outputs, r => ∃ rest, outputs = m :: rest ∧ c.Ends events rest r
  | .await op k, events, outputs, r =>
    ∃ answer rest, events = ⟨op, answer⟩ :: rest ∧ (k answer).Ends rest outputs r

variable {c : Coro Op Res M ε α} {f : α → Coro Op Res M ε β} {events : List (Awaited Op Res ε)}
  {outputs : List M}

theorem ends_ofAnswer {r r' : Except ε α} :
    (ofAnswer r' : Coro Op Res M ε α).Ends events outputs r ↔
      events = [] ∧ outputs = [] ∧ r = r' := by
  cases r' <;> rfl

def writes (outputs : List M) (r : Except ε α) : Coro Op Res M ε α :=
  outputs.foldr .emit (ofAnswer r)

theorem ends_writes {ms : List M} {r r' : Except ε α} :
    (writes ms r' : Coro Op Res M ε α).Ends events outputs r ↔
      events = [] ∧ outputs = ms ∧ r = r' := by
  induction ms generalizing outputs with
  | nil => exact ends_ofAnswer
  | cons m ms ih =>
    constructor
    · rintro ⟨rest, rfl, h⟩
      obtain ⟨rfl, rfl, rfl⟩ := ih.mp h
      exact ⟨rfl, rfl, rfl⟩
    · rintro ⟨rfl, rfl, rfl⟩
      exact ⟨ms, rfl, ih.mpr ⟨rfl, rfl, rfl⟩⟩

theorem ends_call {op : Op} {r : Except ε (Res op)} :
    (call op : Coro Op Res M ε (Res op)).Ends events outputs r ↔
      events = [⟨op, r⟩] ∧ outputs = [] := by
  simp only [call, Ends, ends_ofAnswer]
  constructor
  · rintro ⟨answer, rest, rfl, rfl, rfl, rfl⟩
    exact ⟨rfl, rfl⟩
  · rintro ⟨rfl, rfl⟩
    exact ⟨r, [], rfl, rfl, rfl, rfl⟩

/-- A construct that does what a part of it does, and goes on from how the part has
ended. -/
theorem ends_part (K : Coro Op Res M ε α → Coro Op Res M ε β)
    (hemit : ∀ m c, K (.emit m c) = .emit m (K c))
    (hawait : ∀ op k, K (.await op k) = .await op fun answer => K (k answer)) {r : Except ε β} :
    (K c).Ends events outputs r ↔ ∃ r' es es' ms ms', events = es ++ es' ∧ outputs = ms ++ ms' ∧
      c.Ends es ms r' ∧ (K (ofAnswer r')).Ends es' ms' r := by
  induction c generalizing events outputs with
  | pure a =>
    constructor
    · intro h
      exact ⟨.ok a, [], events, [], outputs, rfl, rfl, ⟨rfl, rfl, rfl⟩, h⟩
    · rintro ⟨r', es, es', ms, ms', rfl, rfl, ⟨rfl, rfl, rfl⟩, h⟩
      exact h
  | throw e =>
    constructor
    · intro h
      exact ⟨.error e, [], events, [], outputs, rfl, rfl, ⟨rfl, rfl, rfl⟩, h⟩
    · rintro ⟨r', es, es', ms, ms', rfl, rfl, ⟨rfl, rfl, rfl⟩, h⟩
      exact h
  | emit m c ih =>
    rw [hemit]
    constructor
    · rintro ⟨rest, rfl, h⟩
      obtain ⟨r', es, es', ms, ms', rfl, rfl, hc, hK⟩ := ih.mp h
      exact ⟨r', es, es', m :: ms, ms', rfl, rfl, ⟨ms, rfl, hc⟩, hK⟩
    · rintro ⟨r', es, es', _, ms', rfl, rfl, ⟨ms, rfl, hc⟩, hK⟩
      exact ⟨ms ++ ms', rfl, ih.mpr ⟨r', es, es', ms, ms', rfl, rfl, hc, hK⟩⟩
  | await op k ih =>
    rw [hawait]
    constructor
    · rintro ⟨answer, rest, rfl, h⟩
      obtain ⟨r', es, es', ms, ms', rfl, rfl, hc, hK⟩ := (ih answer).mp h
      exact ⟨r', ⟨op, answer⟩ :: es, es', ms, ms', rfl, rfl, ⟨answer, es, rfl, hc⟩, hK⟩
    · rintro ⟨r', _, es', ms, ms', rfl, rfl, ⟨answer, es, rfl, hc⟩, hK⟩
      exact ⟨answer, es ++ es', rfl, (ih answer).mpr ⟨r', es, es', ms, ms', rfl, rfl, hc, hK⟩⟩

theorem ends_bind {r : Except ε β} : (c.bind f).Ends events outputs r ↔
    ∃ r' es es' ms ms', events = es ++ es' ∧ outputs = ms ++ ms' ∧ c.Ends es ms r' ∧
      ((ofAnswer r').bind f).Ends es' ms' r :=
  ends_part (bind · f) (fun _ _ => rfl) fun _ _ => rfl

theorem ends_tryFinally {fin : Coro Op Res M ε Unit} {r : Except ε α} :
    (c.tryFinally fin).Ends events outputs r ↔
      ∃ r' es es' ms ms', events = es ++ es' ∧ outputs = ms ++ ms' ∧ c.Ends es ms r' ∧
        ((ofAnswer r').tryFinally fin).Ends es' ms' r :=
  ends_part (tryFinally · fin) (fun _ _ => rfl) fun _ _ => rfl

theorem tryFinally_ofAnswer (r : Except ε α) (fin : Coro Op Res M ε Unit) :
    (ofAnswer r : Coro Op Res M ε α).tryFinally fin = fin.bind fun _ => ofAnswer r := by
  cases r <;> rfl

theorem ends_attempt {r : Except ε (Except ε α)} :
    c.attempt.Ends events outputs r ↔ ∃ r', r = .ok r' ∧ c.Ends events outputs r' := by
  rw [ends_part attempt (fun _ _ => rfl) fun _ _ => rfl]
  constructor
  · rintro ⟨r', es, es', ms, ms', rfl, rfl, hc, h⟩
    obtain ⟨rfl, rfl, rfl⟩ : es' = [] ∧ ms' = [] ∧ r = .ok r' := by
      cases r' <;> exact h
    exact ⟨r', rfl, by simpa using hc⟩
  · rintro ⟨r', rfl, hc⟩
    refine ⟨r', events, [], outputs, [], by simp, by simp, hc, ?_⟩
    cases r' <;> exact ⟨rfl, rfl, rfl⟩

theorem ends_attempt_bind {next : Except ε α → Coro Op Res M ε β} {r : Except ε β} :
    (c.attempt.bind next).Ends events outputs r ↔
      ∃ r' es es' ms ms', events = es ++ es' ∧ outputs = ms ++ ms' ∧ c.Ends es ms r' ∧
        (next r').Ends es' ms' r := by
  rw [ends_bind]
  constructor
  · rintro ⟨tried, es, es', ms, ms', hes, hms, htried, hnext⟩
    obtain ⟨r', rfl, hends⟩ := ends_attempt.mp htried
    exact ⟨r', es, es', ms, ms', hes, hms, hends, hnext⟩
  · rintro ⟨r', es, es', ms, ms', hes, hms, hends, hnext⟩
    exact ⟨.ok r', es, es', ms, ms', hes, hms, ends_attempt.mpr ⟨r', rfl, hends⟩, hnext⟩

/-- Whatever the answers, each of them and each output is as `P` and `Q` say. -/
def Always (P : Awaited Op Res ε → Prop) (Q : M → Prop) (c : Coro Op Res M ε α) : Prop :=
  ∀ events outputs r, c.Ends events outputs r → (∀ e ∈ events, P e) ∧ ∀ m ∈ outputs, Q m

variable {P : Awaited Op Res ε → Prop} {Q : M → Prop}

theorem Always.ofAnswer (r : Except ε α) : (ofAnswer r : Coro Op Res M ε α).Always P Q := by
  intro events outputs r' h
  obtain ⟨rfl, rfl, -⟩ := ends_ofAnswer.mp h
  exact ⟨List.forall_mem_nil _, List.forall_mem_nil _⟩

theorem Always.call {op : Op} (h : ∀ answer, P ⟨op, answer⟩) :
    (call op : Coro Op Res M ε (Res op)).Always P Q := by
  intro events outputs r hends
  obtain ⟨rfl, rfl⟩ := ends_call.mp hends
  exact ⟨List.forall_mem_singleton.mpr (h r), List.forall_mem_nil _⟩

theorem Always.tell {m : M} (h : Q m) : (tell m : Coro Op Res M ε Unit).Always P Q := by
  rintro events outputs r ⟨rest, rfl, rfl, rfl, -⟩
  exact ⟨List.forall_mem_nil _, List.forall_mem_singleton.mpr h⟩

theorem Always.part {K : Coro Op Res M ε α → Coro Op Res M ε β}
    (hemit : ∀ m c, K (.emit m c) = .emit m (K c))
    (hawait : ∀ op k, K (.await op k) = .await op fun answer => K (k answer))
    (hc : c.Always P Q) (hK : ∀ r, (K (.ofAnswer r)).Always P Q) : (K c).Always P Q := by
  intro events outputs r h
  obtain ⟨r', es, es', ms, ms', rfl, rfl, hends, hrest⟩ := (ends_part K hemit hawait).mp h
  obtain ⟨hes, hms⟩ := hc es ms r' hends
  obtain ⟨hes', hms'⟩ := hK r' es' ms' r hrest
  exact ⟨List.forall_mem_append.mpr ⟨hes, hes'⟩, List.forall_mem_append.mpr ⟨hms, hms'⟩⟩

theorem Always.bind (hc : c.Always P Q) (hf : ∀ a, (f a).Always P Q) : (c.bind f).Always P Q := by
  apply Always.part (K := fun c => Coro.bind c f) (fun _ _ => rfl) (fun _ _ => rfl) hc
  rintro (e | a)
  · exact .ofAnswer (.error e)
  · exact hf a

theorem Always.tryFinally {fin : Coro Op Res M ε Unit} (hc : c.Always P Q)
    (hfin : fin.Always P Q) : (c.tryFinally fin).Always P Q := by
  apply Always.part (K := fun c => Coro.tryFinally c fin) (fun _ _ => rfl) (fun _ _ => rfl) hc
  rintro (e | a)
  · exact hfin.bind fun _ => .ofAnswer (.error e)
  · exact hfin.bind fun _ => .ofAnswer (.ok a)

theorem Always.attempt (hc : c.Always P Q) : c.attempt.Always P Q := by
  intro events outputs r h
  obtain ⟨r', -, hends⟩ := ends_attempt.mp h
  exact hc events outputs r' hends

theorem Always.interp {Op' : Type} {Res' : Op' → Type} {M' : Type}
    {f : (op : Op') → Coro Op Res M ε (Res' op)} {g : M' → M} {R : Op' → Prop}
    (hf : ∀ op, R op → (f op).Always P Q) (hg : ∀ m, Q (g m)) {c : Coro Op' Res' M' ε α}
    (hc : c.Only R) : (c.interp f g).Always P Q := by
  induction c with
  | pure a => exact .ofAnswer (.ok a)
  | throw e => exact .ofAnswer (.error e)
  | emit m c ih =>
    change ((Coro.tell (g m)).bind fun _ => c.interp f g).Always P Q
    exact (Always.tell (hg m)).bind fun _ => ih hc
  | await op k ih => exact (hf op hc.1).attempt.bind fun r => ih r (hc.2 r)

end Coro

/-- A task in a pool: the code it has left, and what it was answered and has written. -/
structure Journaled (Op : Type) (Res : Op → Type) (M ε α : Type) where
  code : Coro Op Res M ε α
  events : List (Awaited Op Res ε)
  outputs : List M

def Journaled.start (code : Coro Op Res M ε α) : Journaled Op Res M ε α := ⟨code, [], []⟩

def Journaled.step (t : Journaled Op Res M ε α) (answers : (op : Op) → Except ε (Res op)) :
    Option (Journaled Op Res M ε α) :=
  match t.code with
  | .emit m c => some ⟨c, t.events, t.outputs ++ [m]⟩
  | .await op k => some ⟨k (answers op), t.events ++ [⟨op, answers op⟩], t.outputs⟩
  | _ => none

def Journaled.Continues (c : Coro Op Res M ε α) (t : Journaled Op Res M ε α) : Prop :=
  ∀ events outputs r, t.code.Ends events outputs r →
    c.Ends (t.events ++ events) (t.outputs ++ outputs) r

theorem Journaled.step_continues {c : Coro Op Res M ε α} {t t' : Journaled Op Res M ε α}
    {answers : (op : Op) → Except ε (Res op)} (h : t.Continues c)
    (hstep : t.step answers = some t') : t'.Continues c := by
  obtain ⟨code, es, ms⟩ := t
  intro events outputs r hends
  unfold step at hstep
  cases code with
  | pure a => cases hstep
  | throw e => cases hstep
  | emit m code =>
    cases hstep
    simpa using h _ _ r ⟨outputs, rfl, hends⟩
  | await op k =>
    cases hstep
    simpa using h _ _ r ⟨answers op, events, rfl, hends⟩

section
variable {ι : Type} [DecidableEq ι]

/-- Tasks that step in any order, each getting any answer at each await. -/
def journaledStep : Pool ι (Journaled Op Res M ε α) Unit →
    Label ι ((op : Op) → Except ε (Res op)) Empty → Option (Pool ι (Journaled Op Res M ε α) Unit) :=
  Pool.step (fun _ t answers _ => (t.step answers).map fun t' => (t', ())) fun e _ => e.elim

theorem run_continues {code : ι → Coro Op Res M ε α} {s : Pool ι (Journaled Op Res M ε α) Unit}
    {ls : List (Label ι ((op : Op) → Except ε (Res op)) Empty)}
    (hrun : run journaledStep ⟨(), fun i => .start (code i)⟩ ls = some s) (i : ι) :
    (s.task i).Continues (code i) := by
  refine run_invariant (I := fun s => ∀ i, (s.task i).Continues (code i)) ?_ ?_ hrun i
  · intro s l s' hI hstep j
    cases l with
    | env e => exact e.elim
    | task k answers =>
      obtain ⟨t, u, ht, rfl⟩ := Pool.step_task hstep
      obtain ⟨t', ht', heq⟩ := Option.map_eq_some_iff.mp ht
      obtain ⟨rfl, -⟩ := Prod.mk.inj heq
      by_cases hj : j = k
      · subst hj
        simpa using Journaled.step_continues (hI j) ht'
      · simpa [hj] using hI j
  · exact fun j events outputs r h => h

/-- Whatever the other tasks do meanwhile, a task that has ended has done what its code
does with its answers. -/
theorem ends_of_run {code : ι → Coro Op Res M ε α} {s : Pool ι (Journaled Op Res M ε α) Unit}
    {ls : List (Label ι ((op : Op) → Except ε (Res op)) Empty)}
    (hrun : run journaledStep ⟨(), fun i => .start (code i)⟩ ls = some s) {i : ι} {r : Except ε α}
    (hend : (s.task i).code = .ofAnswer r) :
    (code i).Ends (s.task i).events (s.task i).outputs r := by
  have hends := run_continues hrun i [] [] r (hend ▸ Coro.ends_ofAnswer.mpr ⟨rfl, rfl, rfl⟩)
  simpa using hends

end

end Async
