import PolyrepoTemplate.Store.Dict
import PolyrepoTemplate.Text.JsonString
import PolyrepoTemplate.Text.Percent

namespace Text

inductive Json where
  | null
  | bool (b : Bool)
  | int (n : ℤ)
  | str (s : PyStr)
  | arr (items : List Json)
  | obj (fields : List (PyStr × Json))

namespace Json

def escape : PyChar → PyStr
  | .scalar c => PyStr.ofChars (escapeChar c)
  | .surrogate u => [.surrogate u]

def quoted (s : PyStr) : PyStr := .scalar '"' :: (s.flatMap escape ++ [.scalar '"'])

mutual

/-- `json.dumps(value, ensure_ascii=False)`. -/
def dumps : Json → PyStr
  | .null => "null"
  | .bool true => "true"
  | .bool false => "false"
  | .int n => PyStr.ofString (toString n)
  | .str s => quoted s
  | .arr [] => "[]"
  | .arr (v :: vs) => .scalar '[' :: (dumps v ++ dumpsItems vs)
  | .obj [] => "\x7b\x7d"
  | .obj ((k, v) :: fs) =>
    .scalar '\x7b' :: (quoted k ++ .scalar ':' :: .scalar ' ' :: (dumps v ++ dumpsFields fs))

def dumpsItems : List Json → PyStr
  | [] => [.scalar ']']
  | v :: vs => .scalar ',' :: .scalar ' ' :: (dumps v ++ dumpsItems vs)

def dumpsFields : List (PyStr × Json) → PyStr
  | [] => [.scalar '\x7d']
  | (k, v) :: fs => .scalar ',' :: .scalar ' ' ::
    (quoted k ++ .scalar ':' :: .scalar ' ' :: (dumps v ++ dumpsFields fs))

end

example : dumps (.obj [("a\n", .arr [.int (-12), .bool true]), ("é", .null)]) =
    PyStr.ofString "\x7b\"a\\n\": [-12, true], \"é\": null\x7d" := by
  decide

def isBlank (p : PyChar) : Bool :=
  p == .scalar ' ' || p == .scalar '\n' || p == .scalar '\r' || p == .scalar '\t'

def skipSpace (text : PyStr) : PyStr := text.dropWhile isBlank

def hexUnit : PyChar → PyChar → PyChar → PyChar → Option ℕ
  | .scalar a, .scalar b, .scalar c, .scalar d =>
    match Percent.hexValue a, Percent.hexValue b, Percent.hexValue c, Percent.hexValue d with
    | some x, some y, some z, some w => some (w + 16 * (z + 16 * (y + 16 * x)))
    | _, _, _, _ => none
  | _, _, _, _ => none

def ofUnit (n : ℕ) : PyChar :=
  if h : 0xD800 ≤ n ∧ n < 0xE000 then .surrogate ⟨n - 0xD800, by omega⟩ else .scalar (Char.ofNat n)

/-- The rest of a string up to its closing quote. Two escaped surrogates that make a
pair are one character. -/
def parseString : PyStr → Option (PyStr × PyStr)
  | .scalar '"' :: rest => some ([], rest)
  | .scalar '\\' :: .scalar 'u' :: a :: b :: c :: d :: rest =>
    let single := parseString rest
    (hexUnit a b c d).bind fun high =>
      if 0xD800 ≤ high ∧ high < 0xDC00 then
        match rest with
        | .scalar '\\' :: .scalar 'u' :: e :: f :: g :: h :: rest =>
          (hexUnit e f g h).bind fun low =>
            if 0xDC00 ≤ low ∧ low < 0xE000 then
              (parseString rest).map fun r => (.scalar (Char.ofNat
                (0x10000 + 0x400 * (high - 0xD800) + (low - 0xDC00))) :: r.1, r.2)
            else single.map fun r => (ofUnit high :: r.1, r.2)
        | _ => single.map fun r => (ofUnit high :: r.1, r.2)
      else single.map fun r => (ofUnit high :: r.1, r.2)
  | .scalar '\\' :: .scalar e :: rest =>
    if e = '/' then (parseString rest).map fun r => (.scalar '/' :: r.1, r.2)
    else (shortEscape e).bind fun c => (parseString rest).map fun r => (.scalar c :: r.1, r.2)
  | .scalar c :: rest =>
    if c.toNat < 0x20 then none else (parseString rest).map fun r => (.scalar c :: r.1, r.2)
  | .surrogate u :: rest => (parseString rest).map fun r => (.surrogate u :: r.1, r.2)
  | [] => none

def digits : PyStr → List Char × PyStr
  | .scalar c :: rest =>
    if c.isDigit then (c :: (digits rest).1, (digits rest).2) else ([], .scalar c :: rest)
  | rest => ([], rest)

def natural (text : PyStr) : Option (ℕ × PyStr) :=
  let n := Nat.ofDigitChars 10 (digits text).1 0
  if (digits text).1 = Nat.toDigits 10 n then some (n, (digits text).2) else none

def parseInt : PyStr → Option (Json × PyStr)
  | .scalar c :: rest =>
    if c = '-' then (natural rest).map fun r => (.int (-r.1), r.2)
    else (natural (.scalar c :: rest)).map fun r => (.int r.1, r.2)
  | _ => none

def literal (word : String) (value : Json) (text : PyStr) : Option (Json × PyStr) :=
  if (PyStr.ofString word).isPrefixOf text then some (value, text.drop word.length) else none

mutual

/-- One value, with the text after it; each level of nesting and each item takes one
off the fuel. -/
def parseValue : ℕ → PyStr → Option (Json × PyStr)
  | n + 1, .scalar c :: rest =>
    if c = '"' then (parseString rest).map fun r => (.str r.1, r.2)
    else if c = '[' then
      if (skipSpace rest).head? = some (.scalar ']') then some (.arr [], (skipSpace rest).tail)
      else
        (parseValue n (skipSpace rest)).bind fun r =>
          (parseItems n (skipSpace r.2)).map fun t => (.arr (r.1 :: t.1), t.2)
    else if c = '\x7b' then
      if (skipSpace rest).head? = some (.scalar '\x7d') then
        some (.obj [], (skipSpace rest).tail)
      else
        (parseField n (skipSpace rest)).bind fun r =>
          (parseFields n (skipSpace r.2)).map fun t =>
            (.obj (Dict.ofList (r.1 :: t.1)).entries, t.2)
    else if c = 'n' then literal "null" .null (.scalar c :: rest)
    else if c = 't' then literal "true" (.bool true) (.scalar c :: rest)
    else if c = 'f' then literal "false" (.bool false) (.scalar c :: rest)
    else parseInt (.scalar c :: rest)
  | _, _ => none

def parseItems : ℕ → PyStr → Option (List Json × PyStr)
  | n + 1, .scalar c :: rest =>
    if c = ']' then some ([], rest)
    else if c = ',' then
      (parseValue n (skipSpace rest)).bind fun r =>
        (parseItems n (skipSpace r.2)).map fun t => (r.1 :: t.1, t.2)
    else none
  | _, _ => none

def parseField : ℕ → PyStr → Option ((PyStr × Json) × PyStr)
  | n + 1, .scalar c :: rest =>
    if c = '"' then
      (parseString rest).bind fun k =>
        if (skipSpace k.2).head? = some (.scalar ':') then
          (parseValue n (skipSpace (skipSpace k.2).tail)).map fun r => ((k.1, r.1), r.2)
        else none
    else none
  | _, _ => none

def parseFields : ℕ → PyStr → Option (List (PyStr × Json) × PyStr)
  | n + 1, .scalar c :: rest =>
    if c = '\x7d' then some ([], rest)
    else if c = ',' then
      (parseField n (skipSpace rest)).bind fun r =>
        (parseFields n (skipSpace r.2)).map fun t => (r.1 :: t.1, t.2)
    else none
  | _, _ => none

end

def loads (text : PyStr) : Option Json :=
  match parseValue (text.length + 1) (skipSpace text) with
  | some (value, rest) => if skipSpace rest = [] then some value else none
  | none => none

mutual

def WellFormed : Json → Prop
  | .arr items => WellFormedItems items
  | .obj fields => (fields.map Prod.fst).Nodup ∧ WellFormedFields fields
  | _ => True

def WellFormedItems : List Json → Prop
  | [] => True
  | v :: vs => WellFormed v ∧ WellFormedItems vs

def WellFormedFields : List (PyStr × Json) → Prop
  | [] => True
  | (_, v) :: fs => WellFormed v ∧ WellFormedFields fs

end

theorem wellFormedFields_iff {fs : List (PyStr × Json)} :
    WellFormedFields fs ↔ ∀ f ∈ fs, WellFormed f.2 := by
  induction fs with
  | nil => exact iff_of_true trivial (List.forall_mem_nil _)
  | cons f fs ih => rw [WellFormedFields, List.forall_mem_cons, ih]

theorem hexUnit_low {n : ℕ} (h : n < 256) :
    hexUnit (.scalar '0') (.scalar '0') (.scalar (hexDigit (n / 16)))
      (.scalar (hexDigit (n % 16))) = some n := by
  have hdigit : ∀ m < 16, Percent.hexValue (hexDigit m) = some m := by decide
  have hzero : Percent.hexValue '0' = some 0 := by decide
  simp only [hexUnit]
  rw [hzero, hdigit _ (by omega), hdigit _ (by omega)]
  have hvalue : n % 16 + 16 * (n / 16 + 16 * (0 + 16 * 0)) = n := by omega
  exact congrArg some hvalue

theorem parseString_plain {c : Char} (hquote : c ≠ '"') (hback : c ≠ '\\')
    (hcontrol : ¬ c.toNat < 0x20) (rest : PyStr) :
    parseString (.scalar c :: rest) =
      (parseString rest).map fun r => (.scalar c :: r.1, r.2) := by
  have hhead : ∀ {d : Char} {l : PyStr}, PyChar.scalar c :: rest = .scalar d :: l → c = d :=
    fun h => PyChar.scalar.inj (List.cons.inj h).1
  rw [parseString.eq_def]
  split
  · next h => exact absurd (hhead h) hquote
  · next h => exact absurd (hhead h) hback
  · next h => exact absurd (hhead h) hback
  · next h =>
    cases h
    exact if_neg hcontrol
  · next h => cases h
  · next h => cases h

theorem parseString_escape (p : PyChar) (rest : PyStr) :
    parseString (escape p ++ rest) = (parseString rest).map fun r => (p :: r.1, r.2) := by
  cases p with
  | surrogate u => rfl
  | scalar c =>
    simp only [escape]
    unfold escapeChar
    split_ifs with hquote hback hb ht hn hf hr hcontrol
    · subst hquote; rfl
    · subst hback; rfl
    · subst hb; rfl
    · subst ht; rfl
    · subst hn; rfl
    · subst hf; rfl
    · subst hr; rfl
    · simp only [PyStr.ofChars, List.map_cons, List.map_nil, List.cons_append, List.nil_append]
      rw [parseString, hexUnit_low (by omega), Option.bind_some, if_neg (by omega)]
      have hunit : ofUnit c.toNat = .scalar c := by
        unfold ofUnit
        rw [dif_neg (by omega), Char.ofNat_toNat]
      rw [hunit]
    · simp only [PyStr.ofChars, List.map_cons, List.map_nil, List.cons_append, List.nil_append]
      exact parseString_plain hquote hback (by omega) rest

theorem lineFeed_notMem_escapeChar (c : Char) : '\n' ∉ escapeChar c := by
  have hdigit : ∀ m < 16, '\n' ≠ hexDigit m := by decide
  unfold escapeChar
  split_ifs with hquote hback hb ht hn hf hr hcontrol
  all_goals try decide
  · have hhigh := hdigit (c.toNat / 16) (by omega)
    have hlow := hdigit (c.toNat % 16) (by omega)
    simp [hhigh, hlow]
  · rw [List.mem_singleton]
    exact fun h => hn h.symm

theorem parseString_flatMap (s rest : PyStr) :
    parseString (s.flatMap escape ++ .scalar '"' :: rest) = some (s, rest) := by
  induction s with
  | nil => rfl
  | cons p s ih =>
    rw [List.flatMap_cons, List.append_assoc, parseString_escape, ih, Option.map_some]

theorem parseValue_quoted (n : ℕ) (s rest : PyStr) :
    parseValue (n + 1) (quoted s ++ rest) = some (.str s, rest) := by
  unfold quoted
  rw [List.cons_append, List.append_assoc, List.singleton_append, parseValue, if_pos rfl,
    parseString_flatMap, Option.map_some]

def EndsNumber (rest : PyStr) : Prop :=
  ∀ c tail, rest = .scalar c :: tail → c.isDigit = false

theorem digits_append {ds : List Char} {rest : PyStr} (hds : ∀ c ∈ ds, c.isDigit = true)
    (hrest : EndsNumber rest) : digits (PyStr.ofChars ds ++ rest) = (ds, rest) := by
  induction ds with
  | nil =>
    cases rest with
    | nil => rfl
    | cons p tail =>
      cases p with
      | surrogate u => rfl
      | scalar c =>
        show digits (.scalar c :: tail) = ([], .scalar c :: tail)
        rw [digits, if_neg (by simp [hrest c tail rfl])]
  | cons c ds ih =>
    have htail := ih fun d hd => hds d (List.mem_cons_of_mem c hd)
    show digits (.scalar c :: (PyStr.ofChars ds ++ rest)) = (c :: ds, rest)
    rw [digits, if_pos (hds c List.mem_cons_self), htail]

theorem natural_toDigits (n : ℕ) {rest : PyStr} (hrest : EndsNumber rest) :
    natural (PyStr.ofChars (Nat.toDigits 10 n) ++ rest) = some (n, rest) := by
  have hall : ∀ c ∈ Nat.toDigits 10 n, c.isDigit = true := fun c hc =>
    Nat.isDigit_of_mem_toDigits (by decide) (by decide) hc
  have hdigits := digits_append hall hrest
  unfold natural
  rw [hdigits, Nat.ofDigitChars_ten_toDigits, if_pos rfl]

theorem toDigits_cons (n : ℕ) : ∃ d ds, Nat.toDigits 10 n = d :: ds ∧ d.isDigit = true := by
  obtain ⟨d, ds, h⟩ := List.exists_cons_of_ne_nil (Nat.toDigits_ne_nil (n := n) (b := 10))
  refine ⟨d, ds, h, Nat.isDigit_of_mem_toDigits (b := 10) (n := n) (by decide) (by decide) ?_⟩
  rw [h]
  exact List.mem_cons_self

theorem ofString_natRepr (n : ℕ) :
    PyStr.ofString (Nat.repr n) = PyStr.ofChars (Nat.toDigits 10 n) := by
  rw [PyStr.ofString, Nat.repr, String.toList_ofList]

theorem toString_ofNat (n : ℕ) : toString (Int.ofNat n) = Nat.repr n := rfl

theorem ofString_negSucc (n : ℕ) : PyStr.ofString (toString (Int.negSucc n)) =
    .scalar '-' :: PyStr.ofString (Nat.repr (n + 1)) := by
  have htext : toString (Int.negSucc n) = "-" ++ Nat.repr (n + 1) := rfl
  rw [htext, PyStr.ofString, PyStr.ofString, String.toList_append]
  rfl

theorem parseValue_int (m : ℕ) (n : ℤ) {rest : PyStr} (hrest : EndsNumber rest) :
    parseValue (m + 1) (PyStr.ofString (toString n) ++ rest) = some (.int n, rest) := by
  have hother : ∀ (c : Char) (tail : PyStr), c = '-' ∨ c.isDigit = true →
      parseValue (m + 1) (.scalar c :: tail) = parseInt (.scalar c :: tail) := by
    intro c tail hc
    have hne : ∀ d : Char, d ≠ '-' → d.isDigit = false → c ≠ d := by
      rintro d hminus hdigit rfl
      exact hc.elim hminus fun h => by simp [hdigit] at h
    rw [parseValue, if_neg (hne _ (by decide) (by decide)), if_neg (hne _ (by decide) (by decide)),
      if_neg (hne _ (by decide) (by decide)), if_neg (hne _ (by decide) (by decide)),
      if_neg (hne _ (by decide) (by decide)), if_neg (hne _ (by decide) (by decide))]
  cases n with
  | ofNat k =>
    obtain ⟨d, ds, hd, hdigit⟩ := toDigits_cons k
    have hnatural := natural_toDigits k hrest
    rw [toString_ofNat, ofString_natRepr]
    rw [hd] at hnatural ⊢
    have hminus : d ≠ '-' := by
      rintro rfl
      cases hdigit
    refine (hother d _ (.inr hdigit)).trans ?_
    show (if d = '-' then _ else _) = _
    rw [if_neg hminus]
    exact congrArg (Option.map fun r => (Json.int r.1, r.2)) hnatural
  | negSucc k =>
    rw [ofString_negSucc, ofString_natRepr, List.cons_append, hother _ _ (.inl rfl), parseInt,
      if_pos rfl, natural_toDigits (k + 1) hrest]
    rfl

theorem skipSpace_cons {c : Char} {rest : PyStr} (h : isBlank (.scalar c) = false) :
    skipSpace (.scalar c :: rest) = .scalar c :: rest := by
  unfold skipSpace
  rw [List.dropWhile_cons, h]
  rfl

theorem dumps_head (v : Json) : ∃ c rest, dumps v = .scalar c :: rest ∧
    isBlank (.scalar c) = false ∧ c ≠ ']' := by
  cases v with
  | null => exact ⟨'n', "ull", by decide, by decide, by decide⟩
  | bool b =>
    cases b
    · exact ⟨'f', "alse", by decide, by decide, by decide⟩
    · exact ⟨'t', "rue", by decide, by decide, by decide⟩
  | int n =>
    obtain ⟨c, rest, h, hc⟩ : ∃ c rest, dumps (.int n) = .scalar c :: rest ∧
        (c = '-' ∨ c.isDigit = true) := by
      cases n with
      | ofNat k =>
        obtain ⟨d, ds, hd, hdigit⟩ := toDigits_cons k
        refine ⟨d, PyStr.ofChars ds, ?_, .inr hdigit⟩
        rw [dumps, toString_ofNat, ofString_natRepr, hd]
        rfl
      | negSucc k => exact ⟨'-', _, ofString_negSucc k, .inl rfl⟩
    refine ⟨c, rest, h, ?_, ?_⟩
    · obtain rfl | hdigit := hc
      · decide
      · by_contra hblank
        simp only [isBlank, Bool.not_eq_false, Bool.or_eq_true, beq_iff_eq,
          PyChar.scalar.injEq] at hblank
        rcases hblank with ((rfl | rfl) | rfl) | rfl <;> cases hdigit
    · rintro rfl
      rcases hc with h | h <;> cases h
  | str s => exact ⟨'"', _, rfl, by decide, by decide⟩
  | arr items =>
    cases items with
    | nil => exact ⟨'[', "]", by decide, by decide, by decide⟩
    | cons v vs => exact ⟨'[', _, rfl, by decide, by decide⟩
  | obj fields =>
    cases fields with
    | nil => exact ⟨'\x7b', "\x7d", by decide, by decide, by decide⟩
    | cons f fs => exact ⟨'\x7b', _, rfl, by decide, by decide⟩

theorem skipSpace_dumps (v : Json) (rest : PyStr) :
    skipSpace (dumps v ++ rest) = dumps v ++ rest := by
  obtain ⟨c, tail, h, hblank, -⟩ := dumps_head v
  rw [h]
  exact skipSpace_cons hblank

theorem skipSpace_quoted (s rest : PyStr) :
    skipSpace (quoted s ++ rest) = quoted s ++ rest := by
  unfold quoted
  exact skipSpace_cons (by decide)

theorem dumpsItems_head (vs : List Json) (rest : PyStr) :
    EndsNumber (dumpsItems vs ++ rest) ∧
      skipSpace (dumpsItems vs ++ rest) = dumpsItems vs ++ rest := by
  cases vs with
  | nil => exact ⟨by rintro c tail ⟨⟩; rfl, skipSpace_cons (by decide)⟩
  | cons v vs => exact ⟨by rintro c tail ⟨⟩; rfl, skipSpace_cons (by decide)⟩

theorem dumpsFields_head (fs : List (PyStr × Json)) (rest : PyStr) :
    EndsNumber (dumpsFields fs ++ rest) ∧
      skipSpace (dumpsFields fs ++ rest) = dumpsFields fs ++ rest := by
  cases fs with
  | nil => exact ⟨by rintro c tail ⟨⟩; rfl, skipSpace_cons (by decide)⟩
  | cons f fs => exact ⟨by rintro c tail ⟨⟩; rfl, skipSpace_cons (by decide)⟩

section
variable {n : ℕ} {v : Json} {vs : List Json} {fs : List (PyStr × Json)} {k rest : PyStr}

theorem parseValue_arr (hvalue : parseValue n (dumps v ++ (dumpsItems vs ++ rest)) =
    some (v, dumpsItems vs ++ rest)) (hitems : parseItems n (dumpsItems vs ++ rest) =
    some (vs, rest)) : parseValue (n + 1) (dumps (.arr (v :: vs)) ++ rest) =
      some (.arr (v :: vs), rest) := by
  obtain ⟨c, tail, hv, -, hbracket⟩ := dumps_head v
  rw [dumps, List.cons_append, List.append_assoc, parseValue, if_neg (by decide), if_pos rfl,
    skipSpace_dumps, if_neg (by simp [hv, hbracket]), hvalue, Option.bind_some,
    (dumpsItems_head vs rest).2, hitems, Option.map_some]

theorem parseItems_cons (hvalue : parseValue n (dumps v ++ (dumpsItems vs ++ rest)) =
    some (v, dumpsItems vs ++ rest)) (hitems : parseItems n (dumpsItems vs ++ rest) =
    some (vs, rest)) : parseItems (n + 1) (dumpsItems (v :: vs) ++ rest) =
      some (v :: vs, rest) := by
  have hskip : skipSpace (.scalar ' ' :: (dumps v ++ (dumpsItems vs ++ rest))) =
      dumps v ++ (dumpsItems vs ++ rest) := skipSpace_dumps v _
  rw [dumpsItems, List.cons_append, List.cons_append, List.append_assoc, parseItems,
    if_neg (by decide), if_pos rfl, hskip, hvalue, Option.bind_some, (dumpsItems_head vs rest).2,
    hitems, Option.map_some]

theorem parseField_dumps (hvalue : parseValue n (dumps v ++ rest) = some (v, rest)) :
    parseField (n + 1) (quoted k ++ .scalar ':' :: .scalar ' ' :: (dumps v ++ rest)) =
      some ((k, v), rest) := by
  have hskip : skipSpace (.scalar ' ' :: (dumps v ++ rest)) = dumps v ++ rest :=
    skipSpace_dumps v rest
  have hcolon : skipSpace (.scalar ':' :: .scalar ' ' :: (dumps v ++ rest)) =
      .scalar ':' :: .scalar ' ' :: (dumps v ++ rest) := skipSpace_cons (by decide)
  rw [quoted, List.cons_append, List.append_assoc, List.singleton_append, parseField, if_pos rfl,
    parseString_flatMap, Option.bind_some, hcolon, List.head?_cons, if_pos rfl, List.tail_cons,
    hskip, hvalue, Option.map_some]

theorem parseValue_obj (hnodup : (((k, v) :: fs).map Prod.fst).Nodup)
    (hfield : parseField n (quoted k ++ .scalar ':' :: .scalar ' ' ::
      (dumps v ++ (dumpsFields fs ++ rest))) = some ((k, v), dumpsFields fs ++ rest))
    (hfields : parseFields n (dumpsFields fs ++ rest) = some (fs, rest)) :
    parseValue (n + 1) (dumps (.obj ((k, v) :: fs)) ++ rest) =
      some (.obj ((k, v) :: fs), rest) := by
  have hskip : ∀ text, skipSpace (quoted k ++ text) = quoted k ++ text := skipSpace_quoted k
  have hquote : ∀ text, (quoted k ++ text).head? ≠ some (.scalar '\x7d') := by
    intro text
    rw [quoted, List.cons_append, List.head?_cons]
    decide
  rw [dumps, List.cons_append, List.append_assoc, List.cons_append, List.cons_append,
    List.append_assoc, parseValue, if_neg (by decide), if_neg (by decide), if_pos rfl, hskip,
    if_neg (hquote _), hfield, Option.bind_some, (dumpsFields_head fs rest).2, hfields,
    Option.map_some, Dict.ofList_entries hnodup]

theorem parseFields_cons (hfield : parseField n (quoted k ++ .scalar ':' :: .scalar ' ' ::
      (dumps v ++ (dumpsFields fs ++ rest))) = some ((k, v), dumpsFields fs ++ rest))
    (hfields : parseFields n (dumpsFields fs ++ rest) = some (fs, rest)) :
    parseFields (n + 1) (dumpsFields ((k, v) :: fs) ++ rest) = some ((k, v) :: fs, rest) := by
  have hskip : ∀ text, skipSpace (.scalar ' ' :: (quoted k ++ text)) = quoted k ++ text :=
    skipSpace_quoted k
  rw [dumpsFields, List.cons_append, List.cons_append, List.append_assoc, List.cons_append,
    List.cons_append, List.append_assoc, parseFields, if_neg (by decide), if_pos rfl, hskip,
    hfield, Option.bind_some, (dumpsFields_head fs rest).2, hfields, Option.map_some]

end

mutual

/-- A value is read back, whatever follows it, unless a digit follows. -/
theorem parseValue_dumps : (v : Json) → v.WellFormed → ∀ (n : ℕ) (rest : PyStr),
    (dumps v).length ≤ n → EndsNumber rest → parseValue n (dumps v ++ rest) = some (v, rest)
  | v, _, 0, _, hn, _ => by
    rcases dumps_head v with ⟨c, tail, h, -⟩
    rw [h] at hn
    exact absurd hn (Nat.not_succ_le_zero _)
  | .null, _, n + 1, rest, _, _ => rfl
  | .bool true, _, n + 1, rest, _, _ => rfl
  | .bool false, _, n + 1, rest, _, _ => rfl
  | .int k, _, n + 1, rest, _, hrest => parseValue_int n k hrest
  | .str s, _, n + 1, rest, _, _ => parseValue_quoted n s rest
  | .arr [], _, n + 1, rest, _, _ => rfl
  | .arr (v :: vs), h, n + 1, rest, hn, _ => by
    rw [dumps, List.length_cons, List.length_append] at hn
    have hvalue := parseValue_dumps v h.1 n (dumpsItems vs ++ rest) (by omega)
      (dumpsItems_head vs rest).1
    exact parseValue_arr hvalue (parseItems_dumps vs h.2 n rest (by omega))
  | .obj [], _, n + 1, rest, _, _ => rfl
  | .obj ((k, v) :: fs), h, n + 1, rest, hn, _ => by
    rw [dumps, List.length_cons, List.length_append, List.length_cons, List.length_cons,
      List.length_append] at hn
    obtain ⟨m, rfl⟩ : ∃ m, n = m + 1 := ⟨n - 1, by omega⟩
    have hvalue := parseValue_dumps v h.2.1 m (dumpsFields fs ++ rest) (by omega)
      (dumpsFields_head fs rest).1
    exact parseValue_obj h.1 (parseField_dumps hvalue)
      (parseFields_dumps fs h.2.2 (m + 1) rest (by omega))

theorem parseItems_dumps : (vs : List Json) → WellFormedItems vs → ∀ (n : ℕ) (rest : PyStr),
    (dumpsItems vs).length ≤ n → parseItems n (dumpsItems vs ++ rest) = some (vs, rest)
  | [], _, 0, rest, hn => absurd hn (by decide)
  | [], _, n + 1, rest, _ => rfl
  | v :: vs, h, n, rest, hn => by
    rw [dumpsItems, List.length_cons, List.length_cons, List.length_append] at hn
    obtain ⟨m, rfl⟩ : ∃ m, n = m + 1 := ⟨n - 1, by omega⟩
    have hvalue := parseValue_dumps v h.1 m (dumpsItems vs ++ rest) (by omega)
      (dumpsItems_head vs rest).1
    exact parseItems_cons hvalue (parseItems_dumps vs h.2 m rest (by omega))

theorem parseFields_dumps : (fs : List (PyStr × Json)) → WellFormedFields fs →
    ∀ (n : ℕ) (rest : PyStr), (dumpsFields fs).length ≤ n →
      parseFields n (dumpsFields fs ++ rest) = some (fs, rest)
  | [], _, 0, rest, hn => absurd hn (by decide)
  | [], _, n + 1, rest, _ => rfl
  | (k, v) :: fs, h, n, rest, hn => by
    rw [dumpsFields, List.length_cons, List.length_cons, List.length_append, List.length_cons,
      List.length_cons, List.length_append] at hn
    obtain ⟨m, rfl⟩ : ∃ m, n = m + 2 := ⟨n - 2, by omega⟩
    have hvalue := parseValue_dumps v h.1 m (dumpsFields fs ++ rest) (by omega)
      (dumpsFields_head fs rest).1
    exact parseFields_cons (parseField_dumps hvalue)
      (parseFields_dumps fs h.2 (m + 1) rest (by omega))

end

theorem loads_dumps {v : Json} (h : v.WellFormed) : loads (dumps v) = some v := by
  have hskip := skipSpace_dumps v []
  have hparse := parseValue_dumps v h ((dumps v).length + 1) [] (Nat.le_succ _)
    (fun c tail heq => absurd heq (List.cons_ne_nil _ _).symm)
  rw [List.append_nil] at hskip hparse
  unfold loads
  rw [hskip, hparse]
  rfl

mutual

def strings : Json → List PyStr
  | .str s => [s]
  | .arr items => stringsItems items
  | .obj fields => stringsFields fields
  | _ => []

def stringsItems : List Json → List PyStr
  | [] => []
  | v :: vs => strings v ++ stringsItems vs

def stringsFields : List (PyStr × Json) → List PyStr
  | [] => []
  | (k, v) :: fs => k :: (strings v ++ stringsFields fs)

end

def Encodable (v : Json) : Prop := ∀ s ∈ strings v, s.Encodable

theorem encodable_obj {fs : List (PyStr × Json)} :
    (obj fs).Encodable ↔ ∀ f ∈ fs, f.1.Encodable ∧ f.2.Encodable := by
  induction fs with
  | nil => exact iff_of_true (List.forall_mem_nil _) (List.forall_mem_nil _)
  | cons f fs ih =>
    simp only [Encodable, strings, stringsFields] at ih ⊢
    rw [List.forall_mem_cons, List.forall_mem_append, List.forall_mem_cons, ih, and_assoc]

section
variable {Q : PyChar → Prop}

/-- The printable characters of ASCII, which are all that stands outside strings. -/
def Printable (Q : PyChar → Prop) : Prop :=
  ∀ c : Char, 0x20 ≤ c.toNat → c.toNat < 0x7F → Q (.scalar c)

theorem Printable.ofString (hQ : Printable Q) {s : String}
    (h : s.toList.all (fun c => 0x20 ≤ c.toNat ∧ c.toNat < 0x7F) = true) :
    ∀ p ∈ PyStr.ofString s, Q p := by
  intro p hp
  obtain ⟨c, hc, rfl⟩ := List.mem_map.mp hp
  have hprint := of_decide_eq_true (List.all_eq_true.mp h c hc)
  exact hQ c hprint.1 hprint.2

theorem Printable.toString (hQ : Printable Q) (n : ℤ) : ∀ p ∈ PyStr.ofString (toString n), Q p := by
  have hdigits : ∀ k : ℕ, ∀ p ∈ PyStr.ofString (Nat.repr k), Q p := by
    intro k p hp
    rw [ofString_natRepr] at hp
    obtain ⟨c, hc, rfl⟩ := List.mem_map.mp hp
    have hdigit := Nat.isDigit_of_mem_toDigits (by decide) (by decide) hc
    simp only [Char.isDigit, Bool.and_eq_true, decide_eq_true_eq, UInt32.le_iff_toNat_le] at hdigit
    exact hQ c (le_trans (by decide) hdigit.1) (lt_of_le_of_lt hdigit.2 (by decide))
  cases n with
  | ofNat k =>
    rw [toString_ofNat]
    exact hdigits k
  | negSucc k =>
    rw [ofString_negSucc]
    exact List.forall_mem_cons.mpr ⟨hQ '-' (by decide) (by decide), hdigits (k + 1)⟩

mutual

/-- What holds of the printable characters and of every string as it is written holds of
the whole text, and the other way round. -/
theorem forall_mem_dumps (hQ : Printable Q) : (v : Json) →
    ((∀ p ∈ dumps v, Q p) ↔ ∀ s ∈ strings v, ∀ p ∈ quoted s, Q p)
  | .null => iff_of_true (hQ.ofString (s := "null") (by decide)) (List.forall_mem_nil _)
  | .bool true => iff_of_true (hQ.ofString (s := "true") (by decide)) (List.forall_mem_nil _)
  | .bool false => iff_of_true (hQ.ofString (s := "false") (by decide)) (List.forall_mem_nil _)
  | .int n => iff_of_true (hQ.toString n) (List.forall_mem_nil _)
  | .str s => by rw [strings, List.forall_mem_singleton, dumps]
  | .arr [] => iff_of_true (hQ.ofString (s := "[]") (by decide)) (List.forall_mem_nil _)
  | .arr (v :: vs) => by
    rw [dumps, strings, stringsItems, List.forall_mem_cons, List.forall_mem_append,
      List.forall_mem_append, forall_mem_dumps hQ v, forall_mem_dumpsItems hQ vs]
    exact and_iff_right (hQ '[' (by decide) (by decide))
  | .obj [] => iff_of_true (hQ.ofString (s := "\x7b\x7d") (by decide)) (List.forall_mem_nil _)
  | .obj ((k, v) :: fs) => by
    have hcolon := hQ ':' (by decide) (by decide)
    have hblank := hQ ' ' (by decide) (by decide)
    rw [dumps, strings, stringsFields, List.forall_mem_cons, List.forall_mem_append,
      List.forall_mem_cons, List.forall_mem_cons, List.forall_mem_append, List.forall_mem_cons,
      List.forall_mem_append, forall_mem_dumps hQ v, forall_mem_dumpsFields hQ fs]
    simp only [hQ '\x7b' (by decide) (by decide), hcolon, hblank, true_and]

theorem forall_mem_dumpsItems (hQ : Printable Q) : (vs : List Json) →
    ((∀ p ∈ dumpsItems vs, Q p) ↔ ∀ s ∈ stringsItems vs, ∀ p ∈ quoted s, Q p)
  | [] => iff_of_true (List.forall_mem_singleton.mpr (hQ ']' (by decide) (by decide)))
      (List.forall_mem_nil _)
  | v :: vs => by
    have hcomma := hQ ',' (by decide) (by decide)
    have hblank := hQ ' ' (by decide) (by decide)
    rw [dumpsItems, stringsItems, List.forall_mem_cons, List.forall_mem_cons,
      List.forall_mem_append, List.forall_mem_append, forall_mem_dumps hQ v,
      forall_mem_dumpsItems hQ vs]
    simp only [hcomma, hblank, true_and]

theorem forall_mem_dumpsFields (hQ : Printable Q) : (fs : List (PyStr × Json)) →
    ((∀ p ∈ dumpsFields fs, Q p) ↔ ∀ s ∈ stringsFields fs, ∀ p ∈ quoted s, Q p)
  | [] => iff_of_true (List.forall_mem_singleton.mpr (hQ '\x7d' (by decide) (by decide)))
      (List.forall_mem_nil _)
  | (k, v) :: fs => by
    have hcomma := hQ ',' (by decide) (by decide)
    have hcolon := hQ ':' (by decide) (by decide)
    have hblank := hQ ' ' (by decide) (by decide)
    rw [dumpsFields, stringsFields, List.forall_mem_cons, List.forall_mem_cons,
      List.forall_mem_append, List.forall_mem_cons, List.forall_mem_cons,
      List.forall_mem_append, List.forall_mem_cons, List.forall_mem_append,
      forall_mem_dumps hQ v, forall_mem_dumpsFields hQ fs]
    simp only [hcomma, hcolon, hblank, true_and]

end

theorem forall_mem_quoted (hQ : Printable Q) (s : PyStr) :
    (∀ p ∈ quoted s, Q p) ↔ ∀ c ∈ s, ∀ p ∈ escape c, Q p := by
  rw [quoted, List.forall_mem_cons, List.forall_mem_append, List.forall_mem_singleton]
  simp only [hQ '"' (by decide) (by decide), true_and, and_true, List.mem_flatMap]
  exact ⟨fun h c hc p hp => h p ⟨c, hc, hp⟩, fun h p ⟨c, hc, hp⟩ => h c hc p hp⟩

end

theorem encodable_dumps (v : Json) : (dumps v).Encodable ↔ v.Encodable := by
  have hprintable : Printable fun p => ∃ c, p = .scalar c := fun c _ _ => ⟨c, rfl⟩
  refine (forall_mem_dumps hprintable v).trans (forall₂_congr fun s _ => ?_)
  rw [forall_mem_quoted hprintable]
  refine forall₂_congr fun p _ => ?_
  cases p with
  | scalar c =>
    refine iff_of_true (fun q hq => ?_) ⟨c, rfl⟩
    obtain ⟨d, -, rfl⟩ := List.mem_map.mp hq
    exact ⟨d, rfl⟩
  | surrogate u => exact List.forall_mem_singleton

theorem lineFeed_notMem_dumps (v : Json) : PyChar.scalar '\n' ∉ dumps v := by
  have hprintable : Printable fun p => p ≠ .scalar '\n' := by
    rintro c hc - heq
    cases heq
    exact absurd hc (by decide)
  refine fun hmem => (forall_mem_dumps hprintable v).mpr (fun s _ => ?_) _ hmem rfl
  refine (forall_mem_quoted hprintable s).mpr fun p _ q hq heq => ?_
  subst heq
  cases p with
  | surrogate u => cases List.mem_singleton.mp hq
  | scalar c =>
    obtain ⟨d, hd, heq⟩ := List.mem_map.mp hq
    cases heq
    exact lineFeed_notMem_escapeChar c hd

end Json

end Text
