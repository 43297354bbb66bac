import PolyrepoTemplate.Text.Codec

namespace Text

def hexDigit (n : ℕ) : Char := Nat.digitChar n

def hexValue (c : Char) : ℕ :=
  if c.isDigit then c.toNat - '0'.toNat else c.toNat - 'a'.toNat + 10

theorem hexValue_hexDigit {n : ℕ} (h : n < 16) : hexValue (hexDigit n) = n := by
  revert n
  decide

def escapeChar (c : Char) : List Char :=
  if c = '"' then ['\\', '"']
  else if c = '\\' then ['\\', '\\']
  else if c = '\x08' then ['\\', 'b']
  else if c = '\t' then ['\\', 't']
  else if c = '\n' then ['\\', 'n']
  else if c = '\x0c' then ['\\', 'f']
  else if c = '\r' then ['\\', 'r']
  else if c.toNat < 32 then
    ['\\', 'u', '0', '0', hexDigit (c.toNat / 16), hexDigit (c.toNat % 16)]
  else [c]

def shortEscape : Char → Option Char
  | '"' => some '"'
  | '\\' => some '\\'
  | 'b' => some '\x08'
  | 't' => some '\t'
  | 'n' => some '\n'
  | 'f' => some '\x0c'
  | 'r' => some '\r'
  | _ => none

def unescape : List Char → Option (List Char × List Char)
  | [] => none
  | '"' :: rest => some ([], rest)
  | '\\' :: 'u' :: a :: b :: c :: d :: rest =>
    let code := hexValue d + 16 * (hexValue c + 16 * (hexValue b + 16 * hexValue a))
    (unescape rest).map fun r => (Char.ofNat code :: r.1, r.2)
  | '\\' :: e :: rest =>
    (shortEscape e).bind fun c => (unescape rest).map fun r => (c :: r.1, r.2)
  | c :: rest => (unescape rest).map fun r => (c :: r.1, r.2)

theorem unescape_escapeChar (c : Char) (rest : List Char) :
    unescape (escapeChar c ++ rest) = (unescape rest).map fun r => (c :: r.1, r.2) := by
  unfold escapeChar
  split_ifs with hquote hback hb ht hn hf hr hcontrol
  · subst hquote; rfl
  · subst hback; rfl
  · subst hb; rfl
  · subst ht; rfl
  · subst hn; rfl
  · subst hf; rfl
  · subst hr; rfl
  · have hhigh : hexValue (hexDigit (c.toNat / 16)) = c.toNat / 16 := hexValue_hexDigit (by omega)
    have hlow : hexValue (hexDigit (c.toNat % 16)) = c.toNat % 16 := hexValue_hexDigit (by omega)
    have hcode : c.toNat % 16 + 16 * (c.toNat / 16 + 16 * (0 + 16 * 0)) = c.toNat := by omega
    simp only [List.cons_append, List.nil_append, unescape]
    rw [hhigh, hlow, show hexValue '0' = 0 from rfl, hcode, Char.ofNat_toNat]
  · simp only [List.cons_append, List.nil_append]
    rw [unescape.eq_def]
    split <;> simp_all

theorem unescape_flatMap (cs rest : List Char) :
    unescape (cs.flatMap escapeChar ++ '"' :: rest) = some (cs, rest) := by
  induction cs with
  | nil => rfl
  | cons c cs ih =>
    rw [List.flatMap_cons, List.append_assoc, unescape_escapeChar, ih, Option.map_some]

namespace Codec

def jsonString : Codec String where
  print s := '"' :: (s.toList.flatMap escapeChar ++ ['"'])
  parse
    | '"' :: cs => (unescape cs).map fun r => (String.ofList r.1, r.2)
    | _ => none
  parse_print s rest := by
    simp only [List.cons_append, List.append_assoc, List.nil_append]
    rw [unescape_flatMap, Option.map_some, String.ofList_toList]

end Codec

end Text
