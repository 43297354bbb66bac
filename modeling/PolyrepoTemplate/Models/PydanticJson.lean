import PolyrepoTemplate.Models
import PolyrepoTemplate.Text.Calendar
import PolyrepoTemplate.Text.JsonString

namespace PolyrepoTemplate

open Text

namespace PydanticJson

theorem numeral_head (width : ℕ) {stop : Char} (hstop : stop.isDigit = false) (n : ℕ) {c : Char}
    (hc : c.isDigit = false) :
    ∃ d ds, (Codec.numeral width stop hstop).print n = d :: ds ∧ d ≠ c := by
  have hne : Codec.padded width n ≠ [] := by
    simp [Codec.padded, Nat.toDigits_ne_nil]
  obtain ⟨d, ds, hd⟩ := List.exists_cons_of_ne_nil hne
  refine ⟨d, ds ++ [stop], by simp [Codec.numeral, hd], ?_⟩
  rintro rfl
  have := Codec.isDigit_of_mem_padded (hd ▸ List.mem_cons_self : d ∈ Codec.padded width n)
  simp [hc] at this

/-- At least four digits, and a sign before the year 0. -/
def year : Codec ℤ :=
  (Codec.choice '-' (.numeral 4 '-' rfl) (.numeral 4 '-' rfl)
    fun n => numeral_head 4 rfl n rfl).via
    (fun y => if y < 0 then .inl y.natAbs else .inr y.natAbs)
    (fun | .inl n => -n | .inr n => n)
    (by intro y; by_cases h : y < 0 <;> simp only [h, if_true, if_false] <;> omega)

def closing : Codec Unit := .after ['"'] .unit

/-- `HH:MM`. pydantic cuts the seconds of an offset, and they are kept here as `:SS`, so that
every flag comes back. -/
def offsetSize : Codec ℕ :=
  (Codec.seq (.numeral 2 ':' rfl) <| .seq (.fixed 2) <|
    .choice ':' (.seq (.fixed 2) closing) closing fun _ => ⟨'"', [], rfl, by decide⟩).via
    (fun n => (n / 3600, ⟨n / 60 % 60, by omega⟩,
      if n % 60 = 0 then .inr () else .inl (⟨n % 60, by omega⟩, ())))
    (fun | (h, m, .inr _) => 3600 * h + 60 * m
         | (h, m, .inl (s, _)) => 3600 * h + 60 * m + s)
    (by intro n; split <;> grind)

def offset : Codec ℤ :=
  (Codec.choice 'Z' closing (.choice '-' offsetSize (.after ['+'] offsetSize)
    fun _ => ⟨'+', _, rfl, by decide⟩)
    (by rintro (n | n) <;> exact ⟨_, _, rfl, by decide⟩)).via
    (fun o =>
      if o = 0 then .inl () else if o < 0 then .inr (.inl o.natAbs) else .inr (.inr o.natAbs))
    (fun | .inl _ => 0 | .inr (.inl n) => -n | .inr (.inr n) => n)
    (by intro o; split_ifs <;> simp only <;> omega)

theorem offset_head (o : ℤ) : ∃ d ds, offset.print o = d :: ds ∧ d ≠ '.' := by
  simp only [offset, Codec.via, Codec.choice]
  split_ifs
  · exact ⟨'Z', _, rfl, by decide⟩
  · exact ⟨'-', _, rfl, by decide⟩
  · exact ⟨'+', _, rfl, by decide⟩

def fraction : Codec (Fin (10 ^ 6) × ℤ) :=
  (Codec.choice '.' (.seq (.fixed 6) offset) offset offset_head).via
    (fun p => if p.1 = 0 then .inr p.2 else .inl p)
    (fun | .inl p => p | .inr o => (0, o))
    (by rintro ⟨us, o⟩; dsimp only; split_ifs with h <;> simp [h])

def datetime : Codec Datetime :=
  (Codec.after ['"'] <| .seq year <| .seq (.numeral 2 '-' rfl) <| .seq (.numeral 2 'T' rfl) <|
    .seq (.numeral 2 ':' rfl) <| .seq (.numeral 2 ':' rfl) <| .seq (.fixed 2) fraction).via
    (fun t =>
      let micros := t.instant + 1000000 * t.utcoffset
      let date := dateOfDays (micros / 86400000000)
      let time := (micros % 86400000000).toNat
      (date.year, date.month, date.day, time / 3600000000, time / 60000000 % 60,
        ⟨time / 1000000 % 60, by omega⟩, ⟨time % 1000000, by omega⟩, t.utcoffset))
    (fun (y, mo, d, h, mi, s, us, o) =>
      ⟨86400000000 * daysOfDate ⟨y, mo, d⟩ +
        ((3600 * h + 60 * mi + s.val) * 1000000 + us.val : ℕ) - 1000000 * o, o⟩)
    (by
      rintro ⟨instant, o⟩
      have hdate := daysOfDate_dateOfDays ((instant + 1000000 * o) / 86400000000)
      simp only [Datetime.mk.injEq, and_true]
      rw [hdate]
      omega)

def boolean : Codec Bool :=
  (Codec.choice 't' (.after "rue".toList .unit) (.after "false".toList .unit)
    fun _ => ⟨'f', _, rfl, by decide⟩).via
    (fun b => if b then .inl () else .inr ())
    (fun | .inl _ => true | .inr _ => false)
    (by decide)

def fields : Codec (String × Bool × Datetime × String) :=
  (Codec.after "\x7b\"name\":".toList <| .seq .jsonString <|
    .after ",\"enabled\":".toList <| .seq boolean <|
    .after ",\"updated_at\":".toList <| .seq datetime <|
    .after ",\"updated_by_user_id\":".toList <| .seq .jsonString <|
    .after "\x7d".toList .unit).via
    (fun (name, enabled, updatedAt, user) => (name, enabled, updatedAt, user, ()))
    (fun (name, enabled, updatedAt, user, _) => (name, enabled, updatedAt, user))
    (fun _ => rfl)

example : fields.write ("a\"b", true, ⟨1768478400000000, 0⟩, "u") =
    "\x7b\"name\":\"a\\\"b\",\"enabled\":true," ++
      "\"updated_at\":\"2026-01-15T12:00:00Z\",\"updated_by_user_id\":\"u\"\x7d" := by
  decide

end PydanticJson

/-- The text pydantic gives to a flag whose offset has no seconds. `validateJson` reads back the
texts of `dumpJson`, the only ones the service stores. -/
def pydanticJson : FlagJson where
  dumpJson flag :=
    PydanticJson.fields.write (flag.name, flag.enabled, flag.updatedAt, flag.updatedByUserId)
  validateJson text :=
    match PydanticJson.fields.read text with
    | some (name, enabled, updatedAt, user) => FeatureFlag.validate name enabled updatedAt user
    | none => .error ⟨"FeatureFlag", [⟨"", "json_invalid", "Invalid JSON"⟩]⟩
  validateJson_dumpJson flag := by
    rw [Codec.read_write]
    exact FeatureFlag.validate_ok flag.name_minLength flag.updatedByUserId_minLength

end PolyrepoTemplate
