import Mathlib.Data.List.TakeDrop

namespace Search

variable {ε α β : Type} {look : α → Except ε Bool} {p q : α → Bool}

theorem anyM_error {a : α} {e : ε} (h : look a = .error e) (l : List α) :
    (a :: l).anyM look = .error e := by
  rw [List.anyM_cons, h]
  rfl

theorem anyM_miss {a : α} (h : look a = .ok false) (l : List α) :
    (a :: l).anyM look = l.anyM look := by
  rw [List.anyM_cons, h]
  rfl

theorem anyM_hit {a : α} (h : look a = .ok true) (l : List α) :
    (a :: l).anyM look = .ok true := by
  rw [List.anyM_cons, h]
  rfl

theorem anyM_singleton (a : α) : [a].anyM look = look a := by
  match h : look a with
  | .error e => rw [anyM_error h]
  | .ok false =>
    rw [anyM_miss h]
    rfl
  | .ok true => rw [anyM_hit h]

theorem anyM_append (front back : List α) : (front ++ back).anyM look =
    front.anyM look >>= fun found => if found then .ok true else back.anyM look := by
  induction front with
  | nil => rfl
  | cons a front ih =>
    rw [List.cons_append]
    match ha : look a with
    | .error e =>
      rw [anyM_error ha, anyM_error ha]
      rfl
    | .ok false => rw [anyM_miss ha, anyM_miss ha, ih]
    | .ok true =>
      rw [anyM_hit ha, anyM_hit ha]
      rfl

theorem anyM_flatMap (l : List β) (f : β → List α) :
    (l.flatMap f).anyM look = l.anyM fun b => (f b).anyM look := by
  induction l with
  | nil => rfl
  | cons b l ih =>
    rw [List.flatMap_cons, anyM_append, ih, List.anyM_cons]
    refine congrArg (Bind.bind _) (funext fun found => ?_)
    cases found <;> rfl

theorem findM?_congr {l : List α} {look look' : α → Except ε Bool}
    (h : ∀ a ∈ l, look a = look' a) : l.findM? look = l.findM? look' := by
  induction l with
  | nil => rfl
  | cons a l ih =>
    rw [List.forall_mem_cons] at h
    rw [List.findM?, List.findM?, h.1, ih h.2]

/-- Where looking raises nothing, it answers `p`. -/
def LooksFor (look : α → Except ε Bool) (p : α → Bool) : Prop :=
  ∀ a found, look a = .ok found → found = p a

theorem LooksFor.anyM (h : LooksFor look p) : LooksFor (List.anyM look) (List.any · p) := by
  intro l found hfound
  show found = l.any p
  induction l with
  | nil => exact (Except.ok.inj hfound).symm
  | cons a l ih =>
    rw [List.any_cons]
    match ha : look a with
    | .error e =>
      rw [anyM_error ha] at hfound
      cases hfound
    | .ok false =>
      rw [anyM_miss ha] at hfound
      rw [← h a false ha, Bool.false_or, ih hfound]
    | .ok true =>
      rw [anyM_hit ha] at hfound
      rw [← h a true ha, Bool.true_or, Except.ok.inj hfound]

/-- The two searches find the same, unless something raises first. -/
theorem LooksFor.findM?_cases (h : LooksFor look p) (l : List α) :
    (l.findM? look = .ok (l.find? p) ∧ (l.anyM look).isOk = true) ∨
      ∃ e, l.findM? look = .error e ∧ l.anyM look = .error e := by
  induction l with
  | nil => exact .inl ⟨rfl, rfl⟩
  | cons a l ih =>
    rw [List.findM?, List.find?_cons]
    match ha : look a with
    | .error e =>
      rw [anyM_error ha]
      exact .inr ⟨e, rfl, rfl⟩
    | .ok false =>
      rw [anyM_miss ha, ← h a false ha]
      exact ih
    | .ok true =>
      rw [anyM_hit ha, ← h a true ha]
      exact .inl ⟨rfl, rfl⟩

def reached : List (Except ε α) → List α
  | .ok a :: met => a :: reached met
  | _ => []

def hit (p : α → Bool) : Except ε α → Bool
  | .ok a => p a
  | .error _ => false

theorem map_error (e : ε) : Except.map p (.error e : Except ε α) = .error e := rfl

theorem map_ok {a : α} {found : Bool} (h : p a = found) :
    Except.map p (.ok a : Except ε α) = .ok found := congrArg Except.ok h

theorem anyM_map_eq_true {met : List (Except ε α)} :
    met.anyM (Except.map p) = .ok true ↔ ∃ a ∈ reached met, p a = true := by
  induction met with
  | nil => exact iff_of_false (fun h => by cases h) fun ⟨_, ha, _⟩ => List.not_mem_nil ha
  | cons x met ih =>
    cases x with
    | error e =>
      rw [anyM_error (map_error _)]
      exact iff_of_false (fun h => by cases h) fun ⟨_, ha, _⟩ => List.not_mem_nil ha
    | ok a =>
      cases hp : p a with
      | false =>
        rw [anyM_miss (map_ok hp), ih]
        simp [reached, hp]
      | true =>
        rw [anyM_hit (map_ok hp)]
        exact iff_of_true rfl ⟨a, List.mem_cons_self, hp⟩

theorem anyM_map_isOk {met : List (Except ε α)} : (met.anyM (Except.map p)).isOk = true ↔
    ∀ x ∈ met.takeWhile (!hit p ·), x.isOk = true := by
  induction met with
  | nil => exact iff_of_true rfl fun _ h => absurd h List.not_mem_nil
  | cons x met ih =>
    cases x with
    | error e =>
      rw [anyM_error (map_error _), List.takeWhile_cons_of_pos rfl, List.forall_mem_cons]
      exact iff_of_false Bool.false_ne_true fun h => Bool.false_ne_true h.1
    | ok a =>
      cases hp : p a with
      | false =>
        rw [anyM_miss (map_ok hp), List.takeWhile_cons_of_pos (by rw [hit, hp]; rfl),
          List.forall_mem_cons, ih]
        exact (and_iff_right rfl).symm
      | true =>
        rw [anyM_hit (map_ok hp), List.takeWhile_cons_of_neg (by rw [hit, hp]; decide)]
        exact iff_of_true rfl fun _ h => absurd h List.not_mem_nil

theorem anyM_map_congr {met : List (Except ε α)} (hp : ∀ a ∈ reached met, p a = false)
    (hq : ∀ a ∈ reached met, q a = false) :
    met.anyM (Except.map p) = met.anyM (Except.map q) := by
  induction met with
  | nil => rfl
  | cons x met ih =>
    cases x with
    | error e => rw [anyM_error (map_error _), anyM_error (map_error _)]
    | ok a =>
      rw [reached, List.forall_mem_cons] at hp hq
      rw [anyM_miss (map_ok hp.1), anyM_miss (map_ok hq.1), ih hp.2 hq.2]

theorem anyM_map_eq_iff {met : List (Except ε α)} :
    met.anyM (Except.map p) = met.anyM (Except.map q) ↔
      ((∃ a ∈ reached met, p a = true) ↔ ∃ a ∈ reached met, q a = true) := by
  rw [← anyM_map_eq_true, ← anyM_map_eq_true]
  constructor
  · intro h
    rw [h]
  · intro h
    by_cases hp : met.anyM (Except.map p) = .ok true
    · rw [hp, h.mp hp]
    · -- neither has a hit, so both end in the same error, or in none
      have hq := mt h.mpr hp
      rw [anyM_map_eq_true] at hp hq
      apply anyM_map_congr
      · exact fun a ha => Bool.eq_false_iff.mpr fun hpa => hp ⟨a, ha, hpa⟩
      · exact fun a ha => Bool.eq_false_iff.mpr fun hqa => hq ⟨a, ha, hqa⟩

end Search
