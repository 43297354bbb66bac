import Mathlib.Data.List.Basic
import Mathlib.Data.List.Nodup

structure Dict (K V : Type) where
  entries : List (K × V)
  nodup : (entries.map Prod.fst).Nodup

namespace Dict

variable {K V W : Type} [DecidableEq K]

def setEntries (key : K) (value : V) : List (K × V) → List (K × V)
  | [] => [(key, value)]
  | e :: es => if e.1 = key then (key, value) :: es else e :: setEntries key value es

theorem lookup_cons_eq (e : K × V) (es : List (K × V)) (k : K) :
    (e :: es).lookup k = if k = e.1 then some e.2 else es.lookup k := by
  rw [List.lookup_cons]
  by_cases h : k = e.1
  · rw [if_pos h, h, beq_self_eq_true]
  · rw [if_neg h, beq_false_of_ne h]

theorem lookup_setEntries (key : K) (value : V) (es : List (K × V)) (k : K) :
    (setEntries key value es).lookup k = if k = key then some value else es.lookup k := by
  induction es with
  | nil => exact lookup_cons_eq (key, value) [] k
  | cons e es ih =>
    unfold setEntries
    by_cases hkey : e.1 = key
    · rw [if_pos hkey, lookup_cons_eq, lookup_cons_eq, hkey]
      split_ifs <;> rfl
    · rw [if_neg hkey, lookup_cons_eq, lookup_cons_eq, ih]
      by_cases hk : k = e.1
      · rw [if_pos hk, if_pos hk, if_neg (hk ▸ hkey)]
      · rw [if_neg hk, if_neg hk]

theorem lookup_filter (key : K) (es : List (K × V)) (k : K) :
    (es.filter (·.1 ≠ key)).lookup k = if k = key then none else es.lookup k := by
  induction es with
  | nil => simp
  | cons e es ih =>
    by_cases hkey : e.1 = key
    · rw [List.filter_cons_of_neg (by simpa using hkey), ih, lookup_cons_eq, hkey]
      split_ifs <;> rfl
    · rw [List.filter_cons_of_pos (by simpa using hkey), lookup_cons_eq, lookup_cons_eq, ih]
      by_cases hk : k = e.1
      · rw [if_pos hk, if_pos hk, if_neg (hk ▸ hkey)]
      · rw [if_neg hk, if_neg hk]

theorem lookup_restrict (p : K → Bool) (es : List (K × V)) (k : K) :
    (es.filter (p ·.1)).lookup k = if p k then es.lookup k else none := by
  induction es with
  | nil => simp
  | cons e es ih =>
    cases hp : p e.1 with
    | true =>
      rw [List.filter_cons_of_pos (p := fun e : K × V => p e.1) hp, lookup_cons_eq,
        lookup_cons_eq, ih]
      by_cases hk : k = e.1
      · rw [if_pos hk, if_pos hk, hk, if_pos hp]
      · rw [if_neg hk, if_neg hk]
    | false =>
      rw [List.filter_cons_of_neg (p := fun e : K × V => p e.1) (by simp [hp]), lookup_cons_eq, ih]
      by_cases hk : k = e.1
      · rw [hk, hp]
        rfl
      · rw [if_neg hk]

theorem lookup_map (f : V → W) (es : List (K × V)) (k : K) :
    (es.map fun e => (e.1, f e.2)).lookup k = (es.lookup k).map f := by
  induction es with
  | nil => rfl
  | cons e es ih =>
    rw [List.map_cons, lookup_cons_eq, lookup_cons_eq, ih]
    split_ifs <;> rfl

theorem lookup_of_notMem {es : List (K × V)} {k : K} (h : k ∉ es.map Prod.fst) :
    es.lookup k = none := by
  induction es with
  | nil => rfl
  | cons e es ih =>
    rw [List.map_cons, List.mem_cons, not_or] at h
    rw [lookup_cons_eq, if_neg h.1, ih h.2]

theorem mem_keys_setEntries {key : K} {value : V} {es : List (K × V)} {k : K} :
    k ∈ (setEntries key value es).map Prod.fst ↔ k = key ∨ k ∈ es.map Prod.fst := by
  induction es with
  | nil => simp [setEntries]
  | cons e es ih =>
    unfold setEntries
    split
    · next h => simp [h]
    · simp only [List.map_cons, List.mem_cons, ih]
      exact or_left_comm

theorem nodup_setEntries (key : K) (value : V) {es : List (K × V)}
    (h : (es.map Prod.fst).Nodup) : ((setEntries key value es).map Prod.fst).Nodup := by
  induction es with
  | nil => simp [setEntries]
  | cons e es ih =>
    obtain ⟨hmem, hrest⟩ := List.nodup_cons.mp h
    unfold setEntries
    split
    · next hkey => exact List.nodup_cons.mpr ⟨hkey ▸ hmem, hrest⟩
    · next hkey =>
      refine List.nodup_cons.mpr ⟨fun hset => ?_, ih hrest⟩
      exact (mem_keys_setEntries.mp hset).elim hkey hmem

theorem setEntries_of_notMem {key : K} {value : V} {es : List (K × V)}
    (h : key ∉ es.map Prod.fst) : setEntries key value es = es ++ [(key, value)] := by
  induction es with
  | nil => rfl
  | cons e es ih =>
    rw [List.map_cons, List.mem_cons, not_or] at h
    rw [setEntries, if_neg (Ne.symm h.1), ih h.2]
    rfl

def empty : Dict K V := ⟨[], List.nodup_nil⟩

def get? (d : Dict K V) (key : K) : Option V := d.entries.lookup key

/-- `d[key] = value`. -/
def set (d : Dict K V) (key : K) (value : V) : Dict K V :=
  ⟨setEntries key value d.entries, nodup_setEntries key value d.nodup⟩

/-- `d.pop(key, None)`, without the value. -/
def erase (d : Dict K V) (key : K) : Dict K V :=
  ⟨d.entries.filter (·.1 ≠ key), (List.filter_sublist.map Prod.fst).nodup d.nodup⟩

def restrict (p : K → Bool) (d : Dict K V) : Dict K V :=
  ⟨d.entries.filter (p ·.1), (List.filter_sublist.map Prod.fst).nodup d.nodup⟩

/-- `d.setdefault(key, value)`. -/
def setDefault (d : Dict K V) (key : K) (value : V) : Dict K V :=
  match d.get? key with
  | some _ => d
  | none => d.set key value

def update (d other : Dict K V) : Dict K V := other.entries.foldl (fun d e => d.set e.1 e.2) d

def setDefaults (d other : Dict K V) : Dict K V :=
  other.entries.foldl (fun d e => d.setDefault e.1 e.2) d

/-- `dict(entries)`: the last value of a key counts. -/
def ofList (entries : List (K × V)) : Dict K V := entries.foldl (fun d e => d.set e.1 e.2) empty

def mapValues (f : V → W) (d : Dict K V) : Dict K W :=
  ⟨d.entries.map fun e => (e.1, f e.2), by
    rw [List.map_map]
    exact d.nodup⟩

variable (d other : Dict K V) (key : K) (value : V) (k : K)

@[simp] theorem get?_empty : (empty : Dict K V).get? k = none := rfl

theorem get?_set : (d.set key value).get? k = if k = key then some value else d.get? k :=
  lookup_setEntries key value d.entries k

@[simp] theorem get?_set_self : (d.set key value).get? key = some value := by
  rw [get?_set, if_pos rfl]

theorem get?_set_of_ne {key k : K} (h : k ≠ key) : (d.set key value).get? k = d.get? k := by
  rw [get?_set, if_neg h]

theorem get?_erase : (d.erase key).get? k = if k = key then none else d.get? k :=
  lookup_filter key d.entries k

theorem get?_restrict (p : K → Bool) : (d.restrict p).get? k = if p k then d.get? k else none :=
  lookup_restrict p d.entries k

theorem get?_mapValues (f : V → W) : (d.mapValues f).get? k = (d.get? k).map f :=
  lookup_map f d.entries k

theorem get?_setDefault : (d.setDefault key value).get? k =
    (d.get? k <|> if k = key then some value else none) := by
  unfold setDefault
  cases h : d.get? key with
  | some v =>
    by_cases hk : k = key
    · subst hk
      simp [h]
    · simp [hk]
  | none =>
    by_cases hk : k = key
    · subst hk
      simp [h]
    · simp [get?_set, hk]

theorem get?_update : (d.update other).get? k = (other.get? k <|> d.get? k) := by
  have hentries : ∀ (es : List (K × V)) (d : Dict K V), (es.map Prod.fst).Nodup →
      (es.foldl (fun d e => d.set e.1 e.2) d).get? k = (es.lookup k <|> d.get? k) := by
    intro es
    induction es with
    | nil =>
      intro d _
      rfl
    | cons e es ih =>
      intro d hnodup
      obtain ⟨hmem, hrest⟩ := List.nodup_cons.mp hnodup
      rw [List.foldl_cons, ih _ hrest, get?_set, lookup_cons_eq]
      by_cases hk : k = e.1
      · rw [if_pos hk, if_pos hk, hk, lookup_of_notMem hmem]
        rfl
      · rw [if_neg hk, if_neg hk]
  exact hentries other.entries d other.nodup

theorem get?_setDefaults : (d.setDefaults other).get? k = (d.get? k <|> other.get? k) := by
  have hentries : ∀ (es : List (K × V)) (d : Dict K V),
      (es.foldl (fun d e => d.setDefault e.1 e.2) d).get? k = (d.get? k <|> es.lookup k) := by
    intro es
    induction es with
    | nil =>
      intro d
      simp
    | cons e es ih =>
      intro d
      rw [List.foldl_cons, ih, get?_setDefault, lookup_cons_eq]
      cases d.get? k with
      | some v => rfl
      | none => split_ifs <;> rfl
  exact hentries other.entries d

theorem mem_entries : (k, value) ∈ d.entries ↔ d.get? k = some value := by
  have hentries : ∀ es : List (K × V), (es.map Prod.fst).Nodup →
      ((k, value) ∈ es ↔ es.lookup k = some value) := by
    intro es
    induction es with
    | nil =>
      intro _
      simp
    | cons e es ih =>
      intro hnodup
      obtain ⟨hmem, hrest⟩ := List.nodup_cons.mp hnodup
      rw [List.mem_cons, lookup_cons_eq, ih hrest]
      by_cases hk : k = e.1
      · rw [if_pos hk, hk, lookup_of_notMem hmem]
        simp [Prod.ext_iff, eq_comm]
      · rw [if_neg hk]
        simp [Prod.ext_iff, hk]
  exact hentries d.entries d.nodup

def All (P : K → V → Prop) (d : Dict K V) : Prop := ∀ k v, d.get? k = some v → P k v

section
variable {P : K → V → Prop} {d other : Dict K V} {key : K} {value : V}

theorem All.set (h : d.All P) (hP : P key value) : (d.set key value).All P := by
  intro k v hv
  rw [get?_set] at hv
  split at hv
  · next hk =>
    cases hv
    exact hk ▸ hP
  · exact h k v hv

theorem All.erase (h : d.All P) : (d.erase key).All P := by
  intro k v hv
  rw [get?_erase] at hv
  split at hv
  · cases hv
  · exact h k v hv

theorem All.update (h : d.All P) (hother : other.All P) : (d.update other).All P := by
  intro k v hv
  rw [get?_update, Option.orElse_eq_orElse, Option.orElse_eq_or, Option.or_eq_some_iff] at hv
  rcases hv with hv | ⟨-, hv⟩
  · exact hother k v hv
  · exact h k v hv

theorem All.setDefaults (h : d.All P) (hother : other.All P) : (d.setDefaults other).All P := by
  intro k v hv
  rw [get?_setDefaults, Option.orElse_eq_orElse, Option.orElse_eq_or, Option.or_eq_some_iff] at hv
  rcases hv with hv | ⟨-, hv⟩
  · exact h k v hv
  · exact hother k v hv

theorem All.setDefault (h : d.All P) (hP : P key value) : (d.setDefault key value).All P := by
  intro k v hv
  rw [get?_setDefault, Option.orElse_eq_orElse, Option.orElse_eq_or, Option.or_eq_some_iff] at hv
  rcases hv with hv | ⟨-, hv⟩
  · exact h k v hv
  · split at hv
    · next hk =>
      cases hv
      exact hk ▸ hP
    · cases hv

theorem All.mapValues {Q : K → W → Prop} {f : V → W} (h : d.All P)
    (hf : ∀ k v, P k v → Q k (f v)) : (d.mapValues f).All Q := by
  intro k w hw
  rw [get?_mapValues, Option.map_eq_some_iff] at hw
  obtain ⟨v, hv, rfl⟩ := hw
  exact hf k v (h k v hv)

end

theorem ofList_entries {es : List (K × V)} (h : (es.map Prod.fst).Nodup) :
    (ofList es).entries = es := by
  have happend : ∀ (es : List (K × V)) (d : Dict K V),
      ((d.entries ++ es).map Prod.fst).Nodup →
      (es.foldl (fun d e => d.set e.1 e.2) d).entries = d.entries ++ es := by
    intro es
    induction es with
    | nil =>
      intro d _
      exact (List.append_nil _).symm
    | cons e es ih =>
      intro d hnodup
      have hmem : e.1 ∉ d.entries.map Prod.fst := by
        rw [List.map_append, List.nodup_append] at hnodup
        intro hmem
        exact hnodup.2.2 _ hmem _ List.mem_cons_self rfl
      have hset : (d.set e.1 e.2).entries = d.entries ++ [e] := setEntries_of_notMem hmem
      rw [List.foldl_cons, ih, hset, List.append_assoc]
      · rfl
      · rw [hset, List.append_assoc]
        exact hnodup
  exact happend es empty h

end Dict
