import Mathlib.Data.List.Basic

namespace LengthPrefix

variable {α : Type} {sep : α} {num : ℕ → List α}

def encode (sep : α) (num : ℕ → List α) (words : List (List α)) : List α :=
  words.flatMap fun w => sep :: (num w.length ++ sep :: w)

@[simp] theorem encode_nil : encode sep num [] = [] := rfl

@[simp] theorem encode_cons (w : List α) (ws : List (List α)) :
    encode sep num (w :: ws) = sep :: (num w.length ++ sep :: (w ++ encode sep num ws)) := by
  simp [encode]

/-- The first separator is found at the same place on both sides. -/
theorem cut_at_separator {a b x y : List α} (ha : sep ∉ a) (hb : sep ∉ b)
    (h : a ++ sep :: x = b ++ sep :: y) : a = b ∧ x = y := by
  induction a generalizing b with
  | nil =>
    cases b with
    | nil => exact ⟨rfl, (List.cons.inj h).2⟩
    | cons c b => exact absurd ((List.cons.inj h).1 ▸ List.mem_cons_self) hb
  | cons c a ih =>
    cases b with
    | nil => exact absurd ((List.cons.inj h).1 ▸ List.mem_cons_self) ha
    | cons d b =>
      obtain ⟨rfl, htail⟩ := List.cons.inj h
      obtain ⟨rfl, rfl⟩ := ih (fun hm => ha (List.mem_cons_of_mem _ hm))
        (fun hm => hb (List.mem_cons_of_mem _ hm)) htail
      exact ⟨rfl, rfl⟩

/-- A numeral gives the length of the word after it, so the words are read off
one by one whatever they contain. -/
theorem encode_injective (hinj : Function.Injective num) (hsep : ∀ n, sep ∉ num n) :
    Function.Injective (encode sep num) := by
  intro xs ys h
  induction xs generalizing ys with
  | nil =>
    cases ys with
    | nil => rfl
    | cons y ys => simp at h
  | cons x xs ih =>
    cases ys with
    | nil => simp at h
    | cons y ys =>
      simp only [encode_cons, List.cons.injEq, true_and] at h
      -- equal numerals, so the two words end at the same place
      obtain ⟨hnum, hrest⟩ := cut_at_separator (hsep _) (hsep _) h
      obtain ⟨rfl, hwords⟩ := List.append_inj hrest (hinj hnum)
      rw [ih hwords]

theorem prefix_encode_injective (hinj : Function.Injective num) (hsep : ∀ n, sep ∉ num n)
    {p q : List α} (hp : sep ∉ p) (hq : sep ∉ q) {xs ys : List (List α)}
    (h : p ++ encode sep num xs = q ++ encode sep num ys) : p = q ∧ xs = ys := by
  cases xs with
  | nil =>
    cases ys with
    | nil => exact ⟨by simpa using h, rfl⟩
    | cons y ys =>
      have hmem : sep ∈ p := by
        rw [encode_nil, List.append_nil] at h
        simp [h]
      exact absurd hmem hp
  | cons x xs =>
    cases ys with
    | nil =>
      have hmem : sep ∈ q := by
        rw [encode_nil, List.append_nil] at h
        simp [← h]
      exact absurd hmem hq
    | cons y ys =>
      have hcut : p = q := by
        rw [encode_cons, encode_cons] at h
        exact (cut_at_separator hp hq h).1
      subst hcut
      exact ⟨rfl, encode_injective hinj hsep (List.append_cancel_left h)⟩

theorem decimal_injective : Function.Injective (Nat.toDigits 10) := by
  intro m n h
  rw [← Nat.ofDigitChars_ten_toDigits (n := m), h, Nat.ofDigitChars_ten_toDigits]

theorem decimal_no_separator {c : Char} (hc : c.isDigit = false) (n : ℕ) :
    c ∉ Nat.toDigits 10 n := by
  intro hm
  have := Nat.isDigit_of_mem_toDigits (by decide) (by decide) hm
  simp [hc] at this

end LengthPrefix
