import PolyrepoTemplate.Text.Percent

namespace Text

theorem split_first {α : Type} (p : α → Bool) (l : List α) :
    (∀ a ∈ l, p a = false) ∨ ∃ front a back, l = front ++ a :: back ∧
      (∀ a ∈ front, p a = false) ∧ p a = true := by
  induction l with
  | nil => exact .inl fun a h => absurd h List.not_mem_nil
  | cons b l ih =>
    cases hb : p b with
    | true => exact .inr ⟨[], b, l, rfl, fun a h => absurd h List.not_mem_nil, hb⟩
    | false =>
      obtain hnone | ⟨front, a, back, rfl, hfront, ha⟩ := ih
      · exact .inl (List.forall_mem_cons.mpr ⟨hb, hnone⟩)
      · exact .inr ⟨b :: front, a, back, rfl, List.forall_mem_cons.mpr ⟨hb, hfront⟩, ha⟩

theorem cut_first {α : Type} {p : α → Bool} {front : List α} {a : α}
    (hfront : ∀ b ∈ front, p b = true) (ha : p a = false) (back : List α) :
    (front ++ a :: back).takeWhile p = front ∧ (front ++ a :: back).dropWhile p = a :: back := by
  rw [List.takeWhile_append_of_pos hfront, List.dropWhile_append_of_pos hfront]
  simp [ha]

theorem cut_unique {α : Type} {p : α → Bool} {front front' back back' : List α} {a a' : α}
    (hfront : ∀ b ∈ front, p b = false) (ha : p a = true) (hfront' : ∀ b ∈ front', p b = false)
    (ha' : p a' = true) (h : front ++ a :: back = front' ++ a' :: back') :
    front = front' ∧ a = a' ∧ back = back' := by
  obtain ⟨htake, hdrop⟩ := cut_first (p := fun b => !p b)
    (fun b hb => by simp [hfront b hb]) (show (!p a) = false by simp [ha]) back
  obtain ⟨htake', hdrop'⟩ := cut_first (p := fun b => !p b)
    (fun b hb => by simp [hfront' b hb]) (show (!p a') = false by simp [ha']) back'
  rw [h, htake'] at htake
  rw [h, hdrop'] at hdrop
  obtain ⟨ha, hback⟩ := List.cons.inj hdrop
  exact ⟨htake.symm, ha.symm, hback.symm⟩

theorem takeWhile_ne_cons {c d : Char} (h : c ≠ d) (rest : List Char) :
    (c :: rest).takeWhile (· ≠ d) = c :: rest.takeWhile (· ≠ d) :=
  List.takeWhile_cons_of_pos (decide_eq_true h)

theorem dropWhile_ne_cons {c d : Char} (h : c ≠ d) (rest : List Char) :
    (c :: rest).dropWhile (· ≠ d) = rest.dropWhile (· ≠ d) :=
  List.dropWhile_cons_of_pos (decide_eq_true h)

structure Url where
  scheme : List Char
  authority : List Char
  path : List Char
  query : List Char
  deriving DecidableEq, Repr

namespace Url

def endsAuthority (c : Char) : Bool := c == '/' || c == '?'

def parse (text : List Char) : Option Url :=
  match text.dropWhile (· ≠ ':') with
  | ':' :: '/' :: '/' :: rest =>
    let afterAuthority := rest.dropWhile fun c => !endsAuthority c
    some {
      scheme := text.takeWhile (· ≠ ':')
      authority := rest.takeWhile fun c => !endsAuthority c
      path := afterAuthority.takeWhile (· ≠ '?')
      query := (afterAuthority.dropWhile (· ≠ '?')).drop 1 }
  | _ => none

/-- A text that is put together of parts without their own delimiters is parsed into
these parts. -/
theorem parse_build {scheme authority path query : List Char} (hscheme : ':' ∉ scheme)
    (hauthority : ∀ c ∈ authority, endsAuthority c = false)
    (hslash : path = [] ∨ ∃ rest, path = '/' :: rest) (hpath : '?' ∉ path) :
    parse (scheme ++ ':' :: '/' :: '/' :: (authority ++ (path ++ '?' :: query))) =
      some ⟨scheme, authority, path, query⟩ := by
  have hcolon : ∀ c ∈ scheme, decide (c ≠ ':') = true := by
    intro c hc
    exact decide_eq_true fun h => hscheme (h ▸ hc)
  have hquestion : ∀ c ∈ path, decide (c ≠ '?') = true := by
    intro c hc
    exact decide_eq_true fun h => hpath (h ▸ hc)
  have hinside : ∀ c ∈ authority, (!endsAuthority c) = true := by
    intro c hc
    simp [hauthority c hc]
  obtain ⟨htake, hdrop⟩ := cut_first hcolon (decide_eq_false (not_not_intro rfl))
    ('/' :: '/' :: (authority ++ (path ++ '?' :: query)))
  -- what follows the authority starts with one of the characters that end it
  obtain ⟨c, rest, hrest, hc⟩ : ∃ c rest, path ++ '?' :: query = c :: rest ∧
      endsAuthority c = true := by
    obtain rfl | ⟨rest, rfl⟩ := hslash
    · exact ⟨'?', query, rfl, rfl⟩
    · exact ⟨'/', rest ++ '?' :: query, rfl, rfl⟩
  obtain ⟨htake', hdrop'⟩ := cut_first hinside (show (!endsAuthority c) = false by simp [hc]) rest
  obtain ⟨htake'', hdrop''⟩ := cut_first hquestion
    (decide_eq_false (not_not_intro rfl) : decide ('?' ≠ '?') = false) query
  rw [← hrest] at htake' hdrop'
  simp only [parse, htake, hdrop, htake', hdrop', htake'', hdrop'']
  rfl

theorem parse_authority {scheme authority : List Char} (hscheme : ':' ∉ scheme)
    (hauthority : ∀ c ∈ authority, endsAuthority c = false) (rest : List Char) :
    parse (scheme ++ ':' :: '/' :: '/' :: (authority ++ '/' :: rest)) =
      some ⟨scheme, authority, '/' :: rest.takeWhile (· ≠ '?'),
        (rest.dropWhile (· ≠ '?')).drop 1⟩ := by
  have hcolon : ∀ c ∈ scheme, decide (c ≠ ':') = true := by
    intro c hc
    exact decide_eq_true fun h => hscheme (h ▸ hc)
  have hinside : ∀ c ∈ authority, (!endsAuthority c) = true := by
    intro c hc
    simp [hauthority c hc]
  obtain ⟨htake, hdrop⟩ := cut_first hcolon (decide_eq_false (not_not_intro rfl))
    ('/' :: '/' :: (authority ++ '/' :: rest))
  obtain ⟨htake', hdrop'⟩ := cut_first hinside (show (!endsAuthority '/') = false from rfl) rest
  simp only [parse, htake, hdrop, htake', hdrop']
  rw [takeWhile_ne_cons (by decide), dropWhile_ne_cons (by decide)]

def parseReference (text : List Char) : Option Url := parse (text.takeWhile (· ≠ '#'))

theorem parseReference_authority {scheme authority : List Char} (hscheme : '#' ∉ scheme)
    (hauthority : '#' ∉ authority) (rest : List Char) :
    parseReference (scheme ++ ':' :: '/' :: '/' :: (authority ++ '/' :: rest)) =
      parse (scheme ++ ':' :: '/' :: '/' :: (authority ++ '/' :: rest.takeWhile (· ≠ '#'))) := by
  have hclear {text : List Char} (h : '#' ∉ text) : ∀ c ∈ text, decide (c ≠ '#') = true := by
    intro c hc
    exact decide_eq_true fun hne => h (hne ▸ hc)
  rw [parseReference, List.takeWhile_append_of_pos (hclear hscheme),
    takeWhile_ne_cons (by decide), takeWhile_ne_cons (by decide), takeWhile_ne_cons (by decide),
    List.takeWhile_append_of_pos (hclear hauthority), takeWhile_ne_cons (by decide)]

end Url

end Text
