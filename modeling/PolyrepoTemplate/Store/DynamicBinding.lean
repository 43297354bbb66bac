import PolyrepoTemplate.Store.Dict

namespace Dict

variable {K V : Type} [DecidableEq K]

def contains (d : Dict K V) (key : K) : Bool := (d.get? key).isSome

theorem get?_restrict_contains (d values : Dict K V) {key : K} (h : values.get? key = none) :
    (d.restrict values.contains).get? key = none := by
  rw [get?_restrict, contains, h]
  rfl

/-- An open block: what it binds, and what of that it puts back. -/
structure Block (K V : Type) [DecidableEq K] where
  values : Dict K V
  saved : Dict K V
  saves : ∀ key, values.get? key = none → saved.get? key = none

def enterBlock (d values : Dict K V) : Dict K V × Block K V :=
  (d.update values, ⟨values, d.restrict values.contains, fun _ => d.get?_restrict_contains values⟩)

/-- Unbind the keys of the block, and bind the values they had. -/
def exitBlock (d : Dict K V) (block : Block K V) : Dict K V :=
  (d.restrict fun key => !block.values.contains key).update block.saved

/-- The innermost block that binds the key, else the mapping outside all of them. -/
def deep (base : Dict K V) (blocks : List (Block K V)) (key : K) : Option V :=
  (blocks.findSome? (·.values.get? key)).or (base.get? key)

/-- The mapping `d` with `blocks` open over `base`, innermost first. -/
inductive Shallow (base : Dict K V) : Dict K V → List (Block K V) → Prop
  | outside {d : Dict K V} (h : ∀ key, d.get? key = base.get? key) : Shallow base d []
  | inside {d : Dict K V} {block : Block K V} {blocks : List (Block K V)}
      (h : Shallow base (d.exitBlock block) blocks)
      (hvalues : ∀ key value, block.values.get? key = some value → d.get? key = some value) :
      Shallow base d (block :: blocks)

section
variable {base d d' values : Dict K V} {block : Block K V} {blocks : List (Block K V)} {key : K}

theorem get?_exitBlock : (d.exitBlock block).get? key =
    (block.saved.get? key).or (if block.values.contains key then none else d.get? key) := by
  rw [exitBlock, get?_update, get?_restrict]
  cases block.values.contains key <;> simp

theorem get?_exitBlock_enterBlock :
    ((d.enterBlock values).1.exitBlock (d.enterBlock values).2).get? key = d.get? key := by
  rw [get?_exitBlock]
  simp only [enterBlock, get?_restrict, get?_update]
  cases hkey : values.contains key with
  | true => simp
  | false =>
    have hnone : values.get? key = none := by simpa [contains] using hkey
    simp [hnone]

theorem exitBlock_congr (h : ∀ key, d.get? key = d'.get? key) :
    ∀ key, (d.exitBlock block).get? key = (d'.exitBlock block).get? key := by
  intro key
  rw [get?_exitBlock, get?_exitBlock, h]

theorem Shallow.congr (hd : Shallow base d blocks) (h : ∀ key, d'.get? key = d.get? key) :
    Shallow base d' blocks := by
  induction hd generalizing d' with
  | outside hbase => exact .outside fun key => (h key).trans (hbase key)
  | inside _ hvalues ih =>
    refine .inside (ih (exitBlock_congr h)) fun key value hkey => ?_
    rw [h]
    exact hvalues key value hkey

theorem Shallow.enter (h : Shallow base d blocks) (values : Dict K V) :
    Shallow base (d.enterBlock values).1 ((d.enterBlock values).2 :: blocks) := by
  refine .inside (h.congr fun key => get?_exitBlock_enterBlock) fun key value hkey => ?_
  have hvalues : values.get? key = some value := hkey
  rw [enterBlock, get?_update, hvalues]
  rfl

theorem Shallow.exit (h : Shallow base d (block :: blocks)) :
    Shallow base (d.exitBlock block) blocks := by
  cases h with
  | inside h _ => exact h

/-- The mapping holds what deep binding finds. -/
theorem Shallow.get?_eq_deep (h : Shallow base d blocks) : d.get? key = deep base blocks key := by
  induction h with
  | outside h => exact h key
  | @inside d block blocks _ hvalues ih =>
    unfold deep at ih ⊢
    rw [List.findSome?_cons]
    cases hkey : block.values.get? key with
    | some value => exact hvalues key value hkey
    | none =>
      rw [get?_exitBlock, block.saves key hkey, contains, hkey] at ih
      exact ih

end

end Dict
