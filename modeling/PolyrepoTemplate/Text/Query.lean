import Mathlib.Data.List.TakeWhile
import PolyrepoTemplate.Text.Url

namespace Text

/-- Where two lists meet, the last piece of the one and the first of the other are one. -/
theorem splitOn_append {α : Type} [BEq α] (sep : α) (front back : List α) :
    ∃ init last first rest, front.splitOn sep = init ++ [last] ∧ back.splitOn sep = first :: rest ∧
      (front ++ back).splitOn sep = init ++ (last ++ first) :: rest := by
  obtain ⟨first, rest, hback⟩ := List.exists_cons_of_ne_nil (List.splitOn_ne_nil sep back)
  induction front with
  | nil => exact ⟨[], [], first, rest, rfl, hback, hback⟩
  | cons a front ih =>
    obtain ⟨init, last, first', rest', hfront, hback', happend⟩ := ih
    obtain ⟨rfl, rfl⟩ := List.cons.inj (hback.symm.trans hback')
    by_cases ha : a == sep
    · refine ⟨[] :: init, last, first, rest, ?_, hback, ?_⟩
      · rw [List.splitOn_cons_eq_if_modifyHead, if_pos ha, hfront, List.cons_append]
      · rw [List.cons_append, List.splitOn_cons_eq_if_modifyHead, if_pos ha, happend,
          List.cons_append]
    · cases init with
      | nil =>
        refine ⟨[], a :: last, first, rest, ?_, hback, ?_⟩
        · rw [List.splitOn_cons_eq_if_modifyHead, if_neg ha, hfront]
          rfl
        · rw [List.cons_append, List.splitOn_cons_eq_if_modifyHead, if_neg ha, happend]
          rfl
      | cons head init =>
        refine ⟨(a :: head) :: init, last, first, rest, ?_, hback, ?_⟩
        · rw [List.splitOn_cons_eq_if_modifyHead, if_neg ha, hfront]
          rfl
        · rw [List.cons_append, List.splitOn_cons_eq_if_modifyHead, if_neg ha, happend]
          rfl

namespace Url

/-- A name or a value as it is sent: blanks are `+`, the rest is percent-encoded. -/
def formText (text : List Char) : List UInt8 :=
  Percent.unquoteToBytes (text.map fun c => if c = '+' then ' ' else c)

/-- `parse_qsl` of one piece: one without a value is passed over. -/
def param (piece : List Char) : Option (List UInt8 × List UInt8) :=
  match piece.dropWhile (· ≠ '=') with
  | '=' :: value =>
    if value = [] then none else some (formText (piece.takeWhile (· ≠ '=')), formText value)
  | _ => none

def assigned (name : String) (pieces : List (List Char)) : List (List UInt8) :=
  ((pieces.filterMap param).filter fun p => p.1 = utf8 name.toList).map Prod.snd

def valuesOf (name : String) (query : List Char) : List (List UInt8) :=
  assigned name (query.splitOn '&')

/-- The piece sets the name, whatever its value goes on with. -/
def Sets (name : String) (piece : List Char) : Prop :=
  '=' ∈ piece ∧ formText (piece.takeWhile (· ≠ '=')) = utf8 name.toList

@[simp] theorem assigned_append (name : String) (front back : List (List Char)) :
    assigned name (front ++ back) = assigned name front ++ assigned name back := by
  rw [assigned, List.filterMap_append, List.filter_append, List.map_append]
  rfl

@[simp] theorem assigned_nil (name : String) : assigned name [] = [] := rfl

theorem assigned_cons (name : String) (piece : List Char) (pieces : List (List Char)) :
    assigned name (piece :: pieces) = assigned name [piece] ++ assigned name pieces :=
  assigned_append name [piece] pieces

/-- Decoding neither makes nor removes the character, and the bytes do not have it. -/
structure Delimits (c : Char) (bytes : List UInt8) : Prop where
  hexValue : Percent.hexValue c = none
  special : c ∉ ['%', '+', '=', '&']
  absent : ∃ b ∈ String.utf8EncodeChar c, b ∉ bytes

theorem Delimits.formText_ne {c : Char} {bytes : List UInt8} (h : Delimits c bytes)
    {text : List Char} (hc : c ∈ text) : formText text ≠ bytes := by
  obtain ⟨hhex, hspecial, b, hb, habsent⟩ := h
  simp only [List.mem_cons, List.not_mem_nil, or_false, not_or] at hspecial
  obtain ⟨hpercent, hplus, -⟩ := hspecial
  have hmem : c ∈ text.map fun c => if c = '+' then ' ' else c :=
    List.mem_map.mpr ⟨c, hc, if_neg hplus⟩
  suffices b ∈ formText text from fun heq => habsent (heq ▸ this)
  rw [formText]
  generalize text.map (fun c => if c = '+' then ' ' else c) = text at hmem
  fun_induction Percent.unquoteToBytes text with
  | case1 x y rest m n hy hx ih =>
    simp only [List.mem_cons] at hmem
    obtain rfl | rfl | rfl | hrest := hmem
    · exact absurd rfl hpercent
    · rw [hhex] at hx
      cases hx
    · rw [hhex] at hy
      cases hy
    · exact List.mem_cons_of_mem _ (ih hrest)
  | case2 x y rest hxy ih =>
    obtain rfl | hrest := List.mem_cons.mp hmem
    · exact absurd rfl hpercent
    · exact List.mem_append_right _ (ih hrest)
  | case3 d rest hd ih =>
    obtain rfl | hrest := List.mem_cons.mp hmem
    · exact List.mem_append_left _ hb
    · exact List.mem_append_right _ (ih hrest)
  | case4 => exact absurd hmem List.not_mem_nil

theorem assigned_of_ne {name : String} {piece : List Char}
    (h : formText (piece.takeWhile (· ≠ '=')) ≠ utf8 name.toList) : assigned name [piece] = [] := by
  unfold assigned param
  rw [List.filterMap_cons, List.filterMap_nil]
  split
  · next hdrop => rfl
  · next p hp =>
    split at hp
    · next value hvalue =>
      split at hp
      · cases hp
      · obtain rfl := Option.some.inj hp
        rw [List.filter_cons_of_neg (by simpa using h), List.filter_nil, List.map_nil]
    · cases hp

theorem assigned_of_sets {name : String} {front : List Char} (h : Sets name front) (c : Char)
    (back : List Char) :
    ∃ value, assigned name [front ++ c :: back] = [formText (value ++ c :: back)] := by
  obtain ⟨hmem, hname⟩ := h
  obtain hnone | ⟨key, d, value, rfl, hkey, hd⟩ := split_first (· == '=') front
  · exact absurd (hnone '=' hmem) (by decide)
  obtain rfl : d = '=' := by simpa using hd
  have hbefore : ∀ d ∈ key, decide (d ≠ '=') = true := by
    intro d hd
    exact decide_eq_true (by simpa using hkey d hd)
  have hcut (rest : List Char) := cut_first (a := '=') hbefore (by decide) rest
  rw [(hcut value).1] at hname
  have hvalue : value ++ c :: back ≠ [] := by simp
  refine ⟨value, ?_⟩
  rw [List.append_assoc, List.cons_append, assigned, List.filterMap_cons, param,
    (hcut (value ++ c :: back)).1, (hcut (value ++ c :: back)).2]
  simp [hvalue, hname]

theorem assigned_of_not_sets {name : String} {front : List Char} (h : ¬ Sets name front) {c : Char}
    (hc : Delimits c (utf8 name.toList)) (back : List Char) :
    assigned name [front ++ c :: back] = [] := by
  have hequals : c ≠ '=' := fun heq => hc.special (by simp [heq])
  apply assigned_of_ne
  intro hset
  by_cases hmem : '=' ∈ front
  · refine h ⟨hmem, ?_⟩
    rwa [List.takeWhile_append, if_neg] at hset
    intro hlength
    have hwhole := List.takeWhile_eq_self_iff.mp
      ((List.takeWhile_prefix _).eq_of_length hlength) '=' hmem
    simp at hwhole
  · have hfront : ∀ d ∈ front, decide (d ≠ '=') = true := by
      intro d hd
      exact decide_eq_true fun heq => hmem (heq ▸ hd)
    rw [List.takeWhile_append_of_pos hfront, takeWhile_ne_cons hequals] at hset
    exact hc.formText_ne (by simp) hset

theorem assigned_eq_singleton_iff {name : String} {value : List UInt8} {c : Char}
    (hname : Delimits c (utf8 name.toList)) (hvalue : Delimits c value) (front back : List Char)
    (before after : List (List UInt8)) :
    before ++ (assigned name [front ++ c :: back] ++ after) = [value] ↔
      ¬ Sets name front ∧ before ++ after = [value] := by
  by_cases hsets : Sets name front
  · obtain ⟨rest, hglued⟩ := assigned_of_sets hsets c back
    refine iff_of_false (fun h => ?_) fun h => h.1 hsets
    have hmem : formText (rest ++ c :: back) ∈ [value] := by
      rw [← h, hglued]
      simp
    exact hvalue.formText_ne (by simp) (List.mem_singleton.mp hmem)
  · rw [assigned_of_not_sets hsets hname, List.nil_append]
    simp [hsets]

/-- When another text stands behind a query, and that text is followed by more, only the pieces
that end within the one or the other count as they are. -/
theorem valuesOf_continued {name : String} {value : List UInt8} {c d : Char}
    (hc : Delimits c (utf8 name.toList)) (hc' : Delimits c value)
    (hd : Delimits d (utf8 name.toList)) (hd' : Delimits d value) (query text : List Char)
    {between after : List Char} (hbetween : '&' ∉ between) (hafter : '&' ∉ after) :
    valuesOf name (query ++ c :: (between ++ (text ++ d :: after))) = [value] ↔
      (∀ piece ∈ (query.splitOn '&').getLast?, ¬ Sets name piece) ∧
      (∀ piece ∈ (text.splitOn '&').tail.getLast?, ¬ Sets name piece) ∧
      assigned name ((query.splitOn '&').dropLast ++ (text.splitOn '&').tail.dropLast) =
        [value] := by
  have hseparate {e : Char} {bytes : List UInt8} (he : Delimits e bytes) {rest : List Char}
      (hrest : '&' ∉ rest) : (e :: rest).splitOn '&' = [e :: rest] := by
    apply List.splitOn_eq_singleton
    rintro (- | ⟨-, hmem⟩)
    · exact he.special (by simp)
    · exact hrest hmem
  obtain ⟨init, last, first, rest, htext, hend, hwhole⟩ := splitOn_append '&' text (d :: after)
  obtain ⟨rfl, rfl⟩ := List.cons.inj ((hseparate hd hafter).symm.trans hend)
  obtain ⟨init', last', first', rest', hstart, hback, hmiddle⟩ :=
    splitOn_append '&' (c :: between) (text ++ d :: after)
  obtain ⟨rfl, rfl⟩ : init' = [] ∧ last' = c :: between := by
    have hone := hstart.symm.trans (hseparate hc hbetween)
    cases init' with
    | nil => exact ⟨rfl, (List.cons.inj hone).1⟩
    | cons _ _ => simp at hone
  obtain ⟨init'', last'', first'', rest'', hquery, hrest, hall⟩ :=
    splitOn_append '&' query (c :: between ++ (text ++ d :: after))
  obtain ⟨rfl, rfl⟩ := List.cons.inj (hmiddle.symm.trans hrest)
  rw [valuesOf, ← List.cons_append, hall, hquery, htext]
  simp only [List.getLast?_concat, Option.mem_some_iff, forall_eq', List.dropLast_concat]
  rw [hwhole] at hback
  cases init with
  | nil =>
    obtain ⟨rfl, rfl⟩ := List.cons.inj hback
    have hone := assigned_eq_singleton_iff hc hc' last'' (between ++ (last ++ d :: after))
      (assigned name init'') []
    simpa [assigned_append] using hone
  | cons head inner =>
    rw [List.cons_append] at hback
    obtain ⟨rfl, rfl⟩ := List.cons.inj hback
    have hfirst := assigned_eq_singleton_iff hc hc' last'' (between ++ head)
      (assigned name init'') (assigned name (inner ++ [last ++ d :: after]))
    have hlast := assigned_eq_singleton_iff hd hd' last after
      (assigned name init'' ++ assigned name inner) []
    rw [assigned_append, assigned_cons]
    have htail : (head :: inner ++ [last]).tail = inner ++ [last] := rfl
    rw [htail, List.cons_append, hfirst]
    refine and_congr_right fun _ => ?_
    simpa [assigned_append] using hlast

end Url

end Text
