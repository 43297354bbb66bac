import PolyrepoTemplate.Text.Utf8

namespace Text

namespace Percent

def unreserved (c : Char) : Bool := c.isAlphanum || c == '_' || c == '.' || c == '-' || c == '~'

def hexDigit (n : ℕ) : Char := if n < 10 then Char.ofNat (48 + n) else Char.ofNat (55 + n)

def hexValue (c : Char) : Option ℕ :=
  if c.isDigit then some (c.toNat - 48)
  else if 'A' ≤ c ∧ c ≤ 'F' then some (c.toNat - 55)
  else if 'a' ≤ c ∧ c ≤ 'f' then some (c.toNat - 87)
  else none

def quoteByte (b : UInt8) : List Char :=
  if b < 128 ∧ unreserved (Char.ofNat b.toNat) = true then [Char.ofNat b.toNat]
  else ['%', hexDigit (b.toNat / 16), hexDigit (b.toNat % 16)]

/-- `quote(text, safe="")`. -/
def quote (text : List Char) : List Char := (utf8 text).flatMap quoteByte

/-- `unquote_to_bytes`: a percent sign without two hex digits after it stays. -/
def unquoteToBytes : List Char → List UInt8
  | '%' :: a :: b :: rest =>
    match hexValue a, hexValue b with
    | some x, some y => UInt8.ofNat (16 * x + y) :: unquoteToBytes rest
    | _, _ => String.utf8EncodeChar '%' ++ unquoteToBytes (a :: b :: rest)
  | c :: rest => String.utf8EncodeChar c ++ unquoteToBytes rest
  | [] => []

theorem mem_quote {text : List Char} {c : Char} (h : c ∈ quote text) :
    c = '%' ∨ unreserved c = true := by
  obtain ⟨b, -, hc⟩ := List.mem_flatMap.mp h
  have hdigit : ∀ n < 16, unreserved (hexDigit n) = true := by decide
  have hlt := b.toNat_lt
  unfold quoteByte at hc
  split at hc
  · next hkeep =>
    rw [List.mem_singleton] at hc
    exact .inr (hc ▸ hkeep.2)
  · simp only [List.mem_cons, List.not_mem_nil, or_false] at hc
    obtain rfl | rfl | rfl := hc
    · exact .inl rfl
    · exact .inr (hdigit _ (by omega))
    · exact .inr (hdigit _ (by omega))

theorem hexValue_hexDigit : ∀ n < 16, hexValue (hexDigit n) = some n := by decide

theorem unquoteToBytes_cons {c : Char} (h : c ≠ '%') (rest : List Char) :
    unquoteToBytes (c :: rest) = String.utf8EncodeChar c ++ unquoteToBytes rest := by
  rw [unquoteToBytes]
  intro a b rest' hc
  exact absurd hc h

theorem unquoteToBytes_quoteByte (b : UInt8) (rest : List Char) :
    unquoteToBytes (quoteByte b ++ rest) = b :: unquoteToBytes rest := by
  have hlt := b.toNat_lt
  unfold quoteByte
  split
  · next hkeep =>
    have hascii : b.toNat < 128 := UInt8.lt_iff_toNat_lt.mp hkeep.1
    have hchar : (Char.ofNat b.toNat).toNat = b.toNat := by
      rw [Char.ofNat, dif_pos (.inl (by omega))]
      rfl
    have hpercent : Char.ofNat b.toNat ≠ '%' := by
      intro h
      have hunreserved := hkeep.2
      rw [h] at hunreserved
      exact absurd hunreserved (by decide)
    rw [List.singleton_append, unquoteToBytes_cons hpercent, utf8EncodeChar_eq, hchar,
      if_pos (by omega), UInt8.ofNat_toNat]
    rfl
  · have hhigh := hexValue_hexDigit (b.toNat / 16) (by omega)
    have hlow := hexValue_hexDigit (b.toNat % 16) (by omega)
    have hbyte : 16 * (b.toNat / 16) + b.toNat % 16 = b.toNat := by omega
    simp only [List.cons_append, List.nil_append, unquoteToBytes, hhigh, hlow, hbyte,
      UInt8.ofNat_toNat]

theorem unquoteToBytes_quote (text : List Char) : unquoteToBytes (quote text) = utf8 text := by
  have hbytes (bytes : List UInt8) : unquoteToBytes (bytes.flatMap quoteByte) = bytes := by
    induction bytes with
    | nil => rfl
    | cons b bytes ih => rw [List.flatMap_cons, unquoteToBytes_quoteByte, ih]
  exact hbytes (utf8 text)

/-- `unquote`: the bytes decoded, undecodable ones being replaced. -/
def unquote (text : List Char) : List Char := decodeReplacing [] 0 (unquoteToBytes text)

theorem unquote_quote (text : List Char) : unquote (quote text) = text := by
  rw [unquote, unquoteToBytes_quote, decodeReplacing_utf8]

end Percent

end Text
