import PolyrepoTemplate.Text.LengthPrefix

namespace PolyrepoTemplate

/-- `create_redis_key`: each part is written as `len(part):part`, the pieces are
joined with `:`. -/
def createRedisKey (pre : String) (parts : List String) : String :=
  ":".intercalate (pre :: parts.flatMap fun part => [toString part.length, part])

theorem toList_createRedisKey (pre : String) (parts : List String) :
    (createRedisKey pre parts).toList =
      pre.toList ++ LengthPrefix.encode ':' (Nat.toDigits 10) (parts.map String.toList) := by
  have hjoin : ∀ l : List String, ∀ w : List Char,
      [':'].intercalate (w :: l.map String.toList) =
        w ++ l.flatMap fun s => ':' :: s.toList := by
    intro l
    induction l with
    | nil => intro w; simp
    | cons s l ih => intro w; rw [List.map_cons, List.intercalate_cons_cons, ih]; simp
  rw [createRedisKey, String.toList_intercalate, List.map_cons,
    show ":".toList = [':'] from rfl, hjoin]
  congr 1
  induction parts with
  | nil => rfl
  | cons part parts ih =>
    simp only [List.flatMap_cons, List.map_cons, LengthPrefix.encode_cons, List.flatMap_append, ih]
    simp [String.length_toList]

theorem map_toList_injective : Function.Injective (List.map String.toList) :=
  List.map_injective_iff.mpr fun _ _ => String.toList_inj.mp

theorem createRedisKey_parts_injective (pre : String) :
    Function.Injective (createRedisKey pre) := by
  intro xs ys h
  have hl := congrArg String.toList h
  rw [toList_createRedisKey, toList_createRedisKey] at hl
  have hwords := LengthPrefix.encode_injective LengthPrefix.decimal_injective
    (LengthPrefix.decimal_no_separator (by decide)) (List.append_cancel_left hl)
  exact map_toList_injective hwords

theorem createRedisKey_prefix_injective {p q : String} (hp : ':' ∉ p.toList)
    (hq : ':' ∉ q.toList) {xs ys : List String}
    (h : createRedisKey p xs = createRedisKey q ys) : p = q ∧ xs = ys := by
  have hl := congrArg String.toList h
  rw [toList_createRedisKey, toList_createRedisKey] at hl
  obtain ⟨hpre, hwords⟩ := LengthPrefix.prefix_encode_injective LengthPrefix.decimal_injective
    (LengthPrefix.decimal_no_separator (by decide)) hp hq hl
  exact ⟨String.toList_inj.mp hpre, map_toList_injective hwords⟩

/-- Keys are equal only for equal prefixes and equal parts, whatever the parts
contain, if the prefixes have no colon or are known to be the same. -/
theorem createRedisKey_eq_iff (p q : String) (xs ys : List String)
    (h : (':' ∉ p.toList ∧ ':' ∉ q.toList) ∨ p = q) :
    createRedisKey p xs = createRedisKey q ys ↔ p = q ∧ xs = ys := by
  constructor
  · intro heq
    obtain ⟨hp, hq⟩ | rfl := h
    · exact createRedisKey_prefix_injective hp hq heq
    · exact ⟨rfl, createRedisKey_parts_injective p heq⟩
  · rintro ⟨rfl, rfl⟩
    rfl

theorem createRedisKey_colon_split :
    createRedisKey "flag" ["a", "b:c"] ≠ createRedisKey "flag" ["a:b", "c"] ∧
      createRedisKey "a:b" ["", "1:"] ≠ createRedisKey "a:b" ["1", ":"] := by
  have hsplit := createRedisKey_eq_iff "flag" "flag" ["a", "b:c"] ["a:b", "c"]
    (.inl ⟨by decide, by decide⟩)
  have hcolon := createRedisKey_eq_iff "a:b" "a:b" ["", "1:"] ["1", ":"] (.inr rfl)
  rw [Ne, hsplit, Ne, hcolon]
  decide

end PolyrepoTemplate
