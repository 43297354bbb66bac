import Mathlib.Logic.Function.Basic

namespace CachedMap

variable {K V C E : Type} {encode : K → C} {Holds : K → V → E → Prop} {map : K → Option V}
  {cache cache' : C → Option E}

def Coupled (encode : K → C) (Holds : K → V → E → Prop) (map : K → Option V)
    (cache : C → Option E) : Prop :=
  ∀ k e, cache (encode k) = some e → ∃ v, map k = some v ∧ Holds k v e

theorem coupled_of_empty (h : ∀ k, cache (encode k) = none) : Coupled encode Holds map cache := by
  intro k e he
  rw [h k] at he
  cases he

theorem Coupled.lose (h : Coupled encode Holds map cache)
    (hsub : ∀ c e, cache' c = some e → cache c = some e) : Coupled encode Holds map cache' :=
  fun k e he => h k e (hsub _ e he)

variable [DecidableEq K] [DecidableEq C]

theorem Coupled.write (h : Coupled encode Holds map cache) (hinj : Function.Injective encode)
    {k : K} {v : V} {e : E} (he : Holds k v e) :
    Coupled encode Holds (Function.update map k (some v))
      (Function.update cache (encode k) (some e)) := by
  intro k' e' he'
  by_cases hk : k' = k
  · subst hk
    rw [Function.update_self] at he'
    cases he'
    exact ⟨v, Function.update_self .., he⟩
  · -- the new entry does not hide under the encoding of another key
    rw [Function.update_of_ne (hinj.ne hk)] at he'
    rw [Function.update_of_ne hk]
    exact h k' e' he'

theorem Coupled.fill (h : Coupled encode Holds map cache) (hinj : Function.Injective encode)
    {k : K} {v : V} {e : E} (hv : map k = some v) (he : Holds k v e) :
    Coupled encode Holds map (Function.update cache (encode k) (some e)) := by
  have hwrite := h.write hinj he
  rwa [← hv, Function.update_eq_self] at hwrite

end CachedMap
