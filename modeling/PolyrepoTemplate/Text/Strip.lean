import Mathlib.Data.List.DropRight

namespace Text

def isSpace (c : Char) : Bool :=
  (0x09 ≤ c.val && c.val ≤ 0x0D) || (0x1C ≤ c.val && c.val ≤ 0x20) || c.val == 0x85 ||
  c.val == 0xA0 || c.val == 0x1680 || (0x2000 ≤ c.val && c.val ≤ 0x200A) || c.val == 0x2028 ||
  c.val == 0x2029 || c.val == 0x202F || c.val == 0x205F || c.val == 0x3000

def strip (s : String) : String :=
  String.ofList ((s.toList.dropWhile isSpace).reverse.dropWhile isSpace).reverse

example : strip "\t id 7 " = "id 7" := by decide

theorem strip_strip (s : String) : strip (strip s) = strip s := by
  have hhead := List.head?_dropWhile_not isSpace s.toList
  show String.ofList (((strip s).toList.dropWhile isSpace).rdropWhile isSpace) = strip s
  have hstrip : (strip s).toList = (s.toList.dropWhile isSpace).rdropWhile isSpace :=
    String.toList_ofList
  rw [hstrip]
  generalize s.toList.dropWhile isSpace = front at hhead hstrip
  obtain ⟨blanks, hblanks⟩ := List.rdropWhile_prefix isSpace front
  have hfront : (front.rdropWhile isSpace).dropWhile isSpace = front.rdropWhile isSpace := by
    generalize front.rdropWhile isSpace = kept at hblanks
    cases kept with
    | nil => rfl
    | cons c cs =>
      rw [← hblanks, List.cons_append, List.head?_cons] at hhead
      exact List.dropWhile_cons_of_neg (by simpa using hhead)
  rw [hfront, List.rdropWhile_idempotent, ← hstrip, String.ofList_toList]

end Text
