import Mathlib.Data.List.Basic
import Mathlib.Data.Nat.Notation

namespace Text

/-- `str.encode()` of a text of scalar values. -/
def utf8 (text : List Char) : List UInt8 := text.flatMap String.utf8EncodeChar

@[simp] theorem utf8_nil : utf8 [] = [] := rfl

@[simp] theorem utf8_cons (c : Char) (text : List Char) :
    utf8 (c :: text) = String.utf8EncodeChar c ++ utf8 text := rfl

/-- A code point: a scalar value, or the surrogate `U+D800 + unit`. -/
inductive PyChar where
  | scalar (c : Char)
  | surrogate (unit : Fin 2048)
  deriving DecidableEq, Repr

abbrev PyStr := List PyChar

namespace PyStr

def ofChars (text : List Char) : PyStr := text.map .scalar

def ofString (s : String) : PyStr := ofChars s.toList

instance : Coe String PyStr := ⟨ofString⟩

def scalars : PyStr → Option (List Char)
  | [] => some []
  | .scalar c :: rest => (scalars rest).map (c :: ·)
  | .surrogate _ :: _ => none

theorem scalars_ofChars (text : List Char) : scalars (ofChars text) = some text := by
  induction text with
  | nil => rfl
  | cons c text ih => exact congrArg (Option.map (c :: ·)) ih

theorem scalars_eq_some {s : PyStr} {text : List Char} :
    scalars s = some text ↔ s = ofChars text := by
  constructor
  · intro h
    induction s generalizing text with
    | nil =>
      cases h
      rfl
    | cons p s ih =>
      cases p with
      | surrogate u => cases h
      | scalar c =>
        obtain ⟨rest, hrest, rfl⟩ := Option.map_eq_some_iff.mp h
        exact congrArg (PyChar.scalar c :: ·) (ih hrest)
  · rintro rfl
    exact scalars_ofChars text

def Encodable (s : PyStr) : Prop := ∀ p ∈ s, ∃ c, p = .scalar c

theorem encodable_iff {s : PyStr} : s.Encodable ↔ ∃ text, s = ofChars text := by
  constructor
  · intro h
    induction s with
    | nil => exact ⟨[], rfl⟩
    | cons p s ih =>
      obtain ⟨c, rfl⟩ := h p List.mem_cons_self
      obtain ⟨text, rfl⟩ := ih fun q hq => h q (List.mem_cons_of_mem _ hq)
      exact ⟨c :: text, rfl⟩
  · rintro ⟨text, rfl⟩ p hp
    obtain ⟨c, -, rfl⟩ := List.mem_map.mp hp
    exact ⟨c, rfl⟩

theorem encodable_ofString (s : String) : (ofString s).Encodable :=
  encodable_iff.mpr ⟨s.toList, rfl⟩

end PyStr

/-- The first run of surrogates of `object`, from `start` up to `stop`. -/
structure UnicodeEncodeError where
  object : PyStr
  start : ℕ
  stop : ℕ
  deriving DecidableEq, Repr

def UnicodeEncodeError.text (e : UnicodeEncodeError) : String :=
  let place :=
    match e.object.drop e.start with
    | .surrogate u :: _ =>
      if e.stop = e.start + 1 then
        "character '\\u" ++ String.ofList (Nat.toDigits 16 (0xD800 + u)) ++ "' in position " ++
          toString e.start
      else
        "characters in position " ++ toString e.start ++ "-" ++ toString (e.stop - 1)
    | _ => ""
  "'utf-8' codec can't encode " ++ place ++ ": surrogates not allowed"

namespace PyStr

def isSurrogate : PyChar → Bool
  | .scalar _ => false
  | .surrogate _ => true

def encode (s : PyStr) : Except UnicodeEncodeError (List UInt8) :=
  match scalars s with
  | some text => .ok (utf8 text)
  | none =>
    let start := (s.takeWhile fun p => !isSurrogate p).length
    .error ⟨s, start, start + ((s.drop start).takeWhile isSurrogate).length⟩

theorem encode_ofChars (text : List Char) : encode (ofChars text) = .ok (utf8 text) := by
  rw [encode, scalars_ofChars]

theorem encode_eq_ok {s : PyStr} {bytes : List UInt8} :
    encode s = .ok bytes ↔ ∃ text, s = ofChars text ∧ bytes = utf8 text := by
  unfold encode
  cases h : scalars s with
  | none =>
    simp only [reduceCtorEq, false_iff]
    rintro ⟨text, rfl, -⟩
    rw [scalars_ofChars] at h
    cases h
  | some text =>
    simp only [Except.ok.injEq]
    constructor
    · rintro rfl
      exact ⟨text, scalars_eq_some.mp h, rfl⟩
    · rintro ⟨text', htext, rfl⟩
      rw [htext, scalars_ofChars] at h
      cases h
      rfl

theorem encode_isOk (s : PyStr) : (∃ bytes, encode s = .ok bytes) ↔ s.Encodable := by
  rw [encodable_iff]
  constructor
  · rintro ⟨bytes, h⟩
    obtain ⟨text, htext, -⟩ := encode_eq_ok.mp h
    exact ⟨text, htext⟩
  · rintro ⟨text, rfl⟩
    exact ⟨utf8 text, encode_ofChars text⟩

def decode (bytes : List UInt8) : Option PyStr :=
  bytes.toByteArray.utf8Decode?.map fun text => ofChars text.toList

theorem decode_utf8 (text : List Char) : decode (utf8 text) = some (ofChars text) := by
  have hbytes : (utf8 text).toByteArray = text.utf8Encode := rfl
  rw [decode, hbytes, List.utf8Decode?_utf8Encode, Option.map_some]

end PyStr

theorem utf8EncodeChar_eq (c : Char) : String.utf8EncodeChar c =
    if c.toNat ≤ 0x7F then [UInt8.ofNat c.toNat]
    else if c.toNat ≤ 0x7FF then
      [UInt8.ofNat (c.toNat / 64 % 32 + 0xC0), UInt8.ofNat (c.toNat % 64 + 0x80)]
    else if c.toNat ≤ 0xFFFF then
      [UInt8.ofNat (c.toNat / 4096 % 16 + 0xE0), UInt8.ofNat (c.toNat / 64 % 64 + 0x80),
        UInt8.ofNat (c.toNat % 64 + 0x80)]
    else
      [UInt8.ofNat (c.toNat / 262144 % 8 + 0xF0), UInt8.ofNat (c.toNat / 4096 % 64 + 0x80),
        UInt8.ofNat (c.toNat / 64 % 64 + 0x80), UInt8.ofNat (c.toNat % 64 + 0x80)] := rfl

/-- A line feed is encoded by the one byte `0A`, and no other character has that byte. -/
theorem mem_utf8EncodeChar_lineFeed {c : Char} : 0x0A ∈ String.utf8EncodeChar c ↔ c = '\n' := by
  constructor
  · intro h
    have hbyte : ∀ n, 0x0A = UInt8.ofNat n → n % 256 = 10 := by
      intro n hn
      simpa using (congrArg UInt8.toNat hn).symm
    have hval : c.toNat = 10 := by
      rw [utf8EncodeChar_eq] at h
      -- a byte of a longer sequence is at least 80
      split_ifs at h <;> simp only [List.mem_cons, List.not_mem_nil, or_false] at h
      · have := hbyte _ h
        omega
      · rcases h with h | h <;> exact absurd (hbyte _ h) (by omega)
      · rcases h with h | h | h <;> exact absurd (hbyte _ h) (by omega)
      · rcases h with h | h | h | h <;> exact absurd (hbyte _ h) (by omega)
    rw [← Char.ofNat_toNat c, hval]
  · rintro rfl
    decide

theorem lineFeed_mem_utf8 {text : List Char} : 0x0A ∈ utf8 text ↔ '\n' ∈ text := by
  rw [utf8, List.mem_flatMap]
  constructor
  · rintro ⟨c, hc, hbyte⟩
    exact mem_utf8EncodeChar_lineFeed.mp hbyte ▸ hc
  · intro h
    exact ⟨'\n', h, mem_utf8EncodeChar_lineFeed.mpr rfl⟩

/-- What a first byte says: the bits it gives, and the ranges of the bytes that have
to follow it. -/
def leadByte (b : ℕ) : Option (ℕ × List (ℕ × ℕ)) :=
  if b ≤ 0x7F then some (b, [])
  else if b < 0xC2 then none
  else if b ≤ 0xDF then some (b - 0xC0, [(0x80, 0xBF)])
  else if b ≤ 0xEF then
    some (b - 0xE0, [(if b = 0xE0 then 0xA0 else 0x80, if b = 0xED then 0x9F else 0xBF),
      (0x80, 0xBF)])
  else if b ≤ 0xF4 then
    some (b - 0xF0, [(if b = 0xF0 then 0x90 else 0x80, if b = 0xF4 then 0x8F else 0xBF),
      (0x80, 0xBF), (0x80, 0xBF)])
  else none

/-- `bytes.decode("utf-8", "replace")`, with `code` the bits read so far and `ranges`
those of the bytes still to come. -/
def decodeReplacing : List (ℕ × ℕ) → ℕ → List UInt8 → List Char
  | [], _, [] => []
  | _ :: _, _, [] => ['\uFFFD']
  | [], _, b :: bytes =>
    match leadByte b.toNat with
    | none => '\uFFFD' :: decodeReplacing [] 0 bytes
    | some (code, []) => Char.ofNat code :: decodeReplacing [] 0 bytes
    | some (code, ranges) => decodeReplacing ranges code bytes
  | range :: ranges, code, b :: bytes =>
    if range.1 ≤ b.toNat ∧ b.toNat ≤ range.2 then
      let code := 64 * code + (b.toNat - 0x80)
      if ranges = [] then Char.ofNat code :: decodeReplacing [] 0 bytes
      else decodeReplacing ranges code bytes
    else
      -- the sequence is cut short, and this byte starts anew
      '\uFFFD' :: match leadByte b.toNat with
        | none => '\uFFFD' :: decodeReplacing [] 0 bytes
        | some (code, []) => Char.ofNat code :: decodeReplacing [] 0 bytes
        | some (code, ranges) => decodeReplacing ranges code bytes

section
variable {code : ℕ} {range : ℕ × ℕ} {ranges : List (ℕ × ℕ)} {b : UInt8} {bytes : List UInt8}

theorem decodeReplacing_lead (h : leadByte b.toNat = some (code, range :: ranges)) :
    decodeReplacing [] 0 (b :: bytes) = decodeReplacing (range :: ranges) code bytes := by
  rw [decodeReplacing, h]

theorem decodeReplacing_next {range' : ℕ × ℕ} (h : range.1 ≤ b.toNat ∧ b.toNat ≤ range.2) :
    decodeReplacing (range :: range' :: ranges) code (b :: bytes) =
      decodeReplacing (range' :: ranges) (64 * code + (b.toNat - 0x80)) bytes := by
  rw [decodeReplacing, if_pos h, if_neg (List.cons_ne_nil _ _)]

theorem decodeReplacing_last (h : range.1 ≤ b.toNat ∧ b.toNat ≤ range.2) :
    decodeReplacing [range] code (b :: bytes) =
      Char.ofNat (64 * code + (b.toNat - 0x80)) :: decodeReplacing [] 0 bytes := by
  rw [decodeReplacing, if_pos h, if_pos rfl]

end

theorem decodeReplacing_utf8EncodeChar (c : Char) (bytes : List UInt8) :
    decodeReplacing [] 0 (String.utf8EncodeChar c ++ bytes) =
      c :: decodeReplacing [] 0 bytes := by
  have hvalid : c.toNat < 0xD800 ∨ 0xDFFF < c.toNat ∧ c.toNat < 0x110000 := c.valid
  have hc : ∀ n, n = c.toNat → Char.ofNat n = c := by
    rintro n rfl
    exact Char.ofNat_toNat c
  have hbyte : ∀ n, n < 256 → (UInt8.ofNat n).toNat = n := fun n hn => by
    simp [Nat.mod_eq_of_lt hn]
  rw [utf8EncodeChar_eq]
  split_ifs with hone htwo hthree
  · have hlead : leadByte c.toNat = some (c.toNat, []) := if_pos hone
    rw [List.singleton_append, decodeReplacing, hbyte _ (by omega), hlead]
    exact congrArg (· :: _) (hc _ rfl)
  · have h₁ := hbyte (c.toNat / 64 % 32 + 0xC0) (by omega)
    have h₂ := hbyte (c.toNat % 64 + 0x80) (by omega)
    generalize UInt8.ofNat (c.toNat / 64 % 32 + 0xC0) = b₁ at h₁ ⊢
    generalize UInt8.ofNat (c.toNat % 64 + 0x80) = b₂ at h₂ ⊢
    have hlead : leadByte b₁.toNat = some (b₁.toNat - 0xC0, [(0x80, 0xBF)]) := by
      unfold leadByte
      rw [if_neg (by omega), if_neg (by omega), if_pos (by omega)]
    rw [List.cons_append, List.singleton_append, decodeReplacing_lead hlead,
      decodeReplacing_last ⟨by omega, by omega⟩, hc _ (by omega)]
  · have h₁ := hbyte (c.toNat / 4096 % 16 + 0xE0) (by omega)
    have h₂ := hbyte (c.toNat / 64 % 64 + 0x80) (by omega)
    have h₃ := hbyte (c.toNat % 64 + 0x80) (by omega)
    generalize UInt8.ofNat (c.toNat / 4096 % 16 + 0xE0) = b₁ at h₁ ⊢
    generalize UInt8.ofNat (c.toNat / 64 % 64 + 0x80) = b₂ at h₂ ⊢
    generalize UInt8.ofNat (c.toNat % 64 + 0x80) = b₃ at h₃ ⊢
    have hlead : leadByte b₁.toNat = some (b₁.toNat - 0xE0,
        [(if b₁.toNat = 0xE0 then 0xA0 else 0x80, if b₁.toNat = 0xED then 0x9F else 0xBF),
          (0x80, 0xBF)]) := by
      unfold leadByte
      rw [if_neg (by omega), if_neg (by omega), if_neg (by omega), if_pos (by omega)]
    rw [List.cons_append, List.cons_append, List.singleton_append, decodeReplacing_lead hlead,
      decodeReplacing_next ⟨by dsimp only; split <;> omega, by dsimp only; split <;> omega⟩,
      decodeReplacing_last ⟨by omega, by omega⟩, hc _ (by omega)]
  · have h₁ := hbyte (c.toNat / 262144 % 8 + 0xF0) (by omega)
    have h₂ := hbyte (c.toNat / 4096 % 64 + 0x80) (by omega)
    have h₃ := hbyte (c.toNat / 64 % 64 + 0x80) (by omega)
    have h₄ := hbyte (c.toNat % 64 + 0x80) (by omega)
    generalize UInt8.ofNat (c.toNat / 262144 % 8 + 0xF0) = b₁ at h₁ ⊢
    generalize UInt8.ofNat (c.toNat / 4096 % 64 + 0x80) = b₂ at h₂ ⊢
    generalize UInt8.ofNat (c.toNat / 64 % 64 + 0x80) = b₃ at h₃ ⊢
    generalize UInt8.ofNat (c.toNat % 64 + 0x80) = b₄ at h₄ ⊢
    have hlead : leadByte b₁.toNat = some (b₁.toNat - 0xF0,
        [(if b₁.toNat = 0xF0 then 0x90 else 0x80, if b₁.toNat = 0xF4 then 0x8F else 0xBF),
          (0x80, 0xBF), (0x80, 0xBF)]) := by
      unfold leadByte
      rw [if_neg (by omega), if_neg (by omega), if_neg (by omega), if_neg (by omega),
        if_pos (by omega)]
    rw [List.cons_append, List.cons_append, List.cons_append, List.singleton_append,
      decodeReplacing_lead hlead,
      decodeReplacing_next ⟨by dsimp only; split <;> omega, by dsimp only; split <;> omega⟩,
      decodeReplacing_next ⟨by omega, by omega⟩, decodeReplacing_last ⟨by omega, by omega⟩,
      hc _ (by omega)]

theorem decodeReplacing_utf8 (text : List Char) : decodeReplacing [] 0 (utf8 text) = text := by
  induction text with
  | nil => rfl
  | cons c text ih => rw [utf8_cons, decodeReplacing_utf8EncodeChar, ih]

end Text
