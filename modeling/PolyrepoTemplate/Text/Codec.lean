import Mathlib.Algebra.Ring.Nat
import Mathlib.Data.List.TakeDrop

namespace Text

variable {α β γ : Type}

structure Codec (α : Type) where
  print : α → List Char
  parse : List Char → Option (α × List Char)
  parse_print : ∀ a rest, parse (print a ++ rest) = some (a, rest)

namespace Codec

def write (p : Codec α) (a : α) : String := String.ofList (p.print a)

/-- Read a text that holds one value and nothing after it. -/
def read (p : Codec α) (text : String) : Option α :=
  match p.parse text.toList with
  | some (a, []) => some a
  | _ => none

theorem read_write (p : Codec α) (a : α) : p.read (p.write a) = some a := by
  have h := p.parse_print a []
  rw [List.append_nil] at h
  simp [read, write, h]

def after (text : List Char) (p : Codec α) : Codec α where
  print a := text ++ p.print a
  parse cs := if text.isPrefixOf cs then p.parse (cs.drop text.length) else none
  parse_print a rest := by
    rw [List.append_assoc, if_pos (List.isPrefixOf_iff_prefix.mpr (List.prefix_append ..)),
      List.drop_left, p.parse_print]

def seq (p : Codec α) (q : Codec β) : Codec (α × β) where
  print a := p.print a.1 ++ q.print a.2
  parse cs := (p.parse cs).bind fun r => (q.parse r.2).map fun t => ((r.1, t.1), t.2)
  parse_print a rest := by
    rw [List.append_assoc, p.parse_print, Option.bind_some, q.parse_print, Option.map_some]

def via (p : Codec α) (f : β → α) (g : α → β) (hgf : ∀ b, g (f b) = b) : Codec β where
  print b := p.print (f b)
  parse cs := (p.parse cs).map fun r => (g r.1, r.2)
  parse_print b rest := by rw [p.parse_print, Option.map_some, hgf]

def choice (c : Char) (p : Codec α) (q : Codec β)
    (hq : ∀ b, ∃ d ds, q.print b = d :: ds ∧ d ≠ c) : Codec (α ⊕ β) where
  print
    | .inl a => c :: p.print a
    | .inr b => q.print b
  parse
    | [] => none
    | d :: ds =>
      if d = c then (p.parse ds).map fun r => (.inl r.1, r.2)
      else (q.parse (d :: ds)).map fun r => (.inr r.1, r.2)
  parse_print a rest := by
    cases a with
    | inl a => simp [p.parse_print]
    | inr b =>
      obtain ⟨d, ds, hb, hd⟩ := hq b
      have := q.parse_print b rest
      rw [hb] at this
      simp only [hb, List.cons_append, if_neg hd]
      rw [← List.cons_append, this, Option.map_some]

def unit : Codec Unit where
  print _ := []
  parse cs := some ((), cs)
  parse_print _ _ := rfl

/-- Decimal digits up to a stop character, zero-padded to a width. -/
def padded (width n : ℕ) : List Char :=
  List.replicate (width - (Nat.toDigits 10 n).length) '0' ++ Nat.toDigits 10 n

theorem isDigit_of_mem_padded {width n : ℕ} {c : Char} (h : c ∈ padded width n) :
    c.isDigit = true := by
  rcases List.mem_append.mp h with h | h
  · rw [(List.mem_replicate.mp h).2]
    decide
  · exact Nat.isDigit_of_mem_toDigits (by decide) (by decide) h

theorem ofDigitChars_padded (width n : ℕ) : Nat.ofDigitChars 10 (padded width n) 0 = n := by
  rw [padded, Nat.ofDigitChars_append, Nat.ofDigitChars_replicate_zero, Nat.mul_zero,
    Nat.ofDigitChars_ten_toDigits]

theorem span_digits {ds rest : List Char} {stop : Char} (hds : ∀ c ∈ ds, c.isDigit = true)
    (hstop : stop.isDigit = false) :
    (ds ++ stop :: rest).span Char.isDigit = (ds, stop :: rest) := by
  rw [List.span_eq_takeWhile_dropWhile, List.takeWhile_append_of_pos hds,
    List.dropWhile_append_of_pos hds]
  simp [hstop]

def numeral (width : ℕ) (stop : Char) (hstop : stop.isDigit = false) : Codec ℕ where
  print n := padded width n ++ [stop]
  parse cs :=
    match cs.span Char.isDigit with
    | (ds, c :: rest) => if c = stop then some (Nat.ofDigitChars 10 ds 0, rest) else none
    | _ => none
  parse_print n rest := by
    rw [List.append_assoc, List.singleton_append,
      span_digits (fun _ h => isDigit_of_mem_padded h) hstop]
    simp [ofDigitChars_padded]

def fixedDigits : ℕ → ℕ → List Char
  | 0, _ => []
  | k + 1, n => fixedDigits k (n / 10) ++ [Nat.digitChar (n % 10)]

theorem length_fixedDigits (k n : ℕ) : (fixedDigits k n).length = k := by
  induction k generalizing n with
  | zero => rfl
  | succ k ih => simp [fixedDigits, ih]

theorem ofDigitChars_fixedDigits (k n : ℕ) :
    Nat.ofDigitChars 10 (fixedDigits k n) 0 = n % 10 ^ k := by
  induction k generalizing n with
  | zero => simp [fixedDigits, Nat.mod_one]
  | succ k ih =>
    rw [fixedDigits, Nat.ofDigitChars_append, ih,
      Nat.ofDigitChars_cons_digitChar_of_lt_ten (Nat.mod_lt _ (by decide)),
      Nat.ofDigitChars_nil, Nat.pow_succ', Nat.mod_mul]
    omega

def fixed (k : ℕ) : Codec (Fin (10 ^ k)) where
  print n := fixedDigits k n
  parse cs :=
    let n := Nat.ofDigitChars 10 (cs.take k) 0
    if h : n < 10 ^ k then some (⟨n, h⟩, cs.drop k) else none
  parse_print n rest := by
    have hlen := length_fixedDigits k n
    rw [List.take_left' hlen, List.drop_left' hlen]
    simp [ofDigitChars_fixedDigits, Nat.mod_eq_of_lt n.isLt]

end Codec

end Text
