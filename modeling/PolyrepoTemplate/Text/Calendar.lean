import Mathlib.Algebra.Order.Ring.Int

namespace Text

def yearOfEra (r : ℕ) : ℕ × ℕ :=
  let century := min (r / 36524) 3
  let r := r - 36524 * century
  let four := r / 1461
  let r := r - 1461 * four
  let one := min (r / 365) 3
  (100 * century + 4 * four + one, r - 365 * one)

def dayOfEra (year day : ℕ) : ℕ :=
  36524 * (year / 100) + 1461 * (year % 100 / 4) + 365 * (year % 4) + day

theorem yearOfEra_spec {r : ℕ} (h : r < 146097) :
    (yearOfEra r).1 < 400 ∧ (yearOfEra r).2 ≤ 365 ∧
      dayOfEra (yearOfEra r).1 (yearOfEra r).2 = r := by
  obtain ⟨century, hcentury⟩ : ∃ n, min (r / 36524) 3 = n := ⟨_, rfl⟩
  obtain ⟨r₁, hr₁⟩ : ∃ n, r - 36524 * century = n := ⟨_, rfl⟩
  obtain ⟨four, hfour⟩ : ∃ n, r₁ / 1461 = n := ⟨_, rfl⟩
  obtain ⟨r₂, hr₂⟩ : ∃ n, r₁ - 1461 * four = n := ⟨_, rfl⟩
  obtain ⟨one, hone⟩ : ∃ n, min (r₂ / 365) 3 = n := ⟨_, rfl⟩
  have hyear : yearOfEra r = (100 * century + 4 * four + one, r₂ - 365 * one) := by
    simp only [yearOfEra, hcentury, hr₁, hfour, hr₂, hone]
  have hcentury' : century ≤ 3 ∧ 36524 * century + r₁ = r ∧ r₁ ≤ 36524 := by omega
  have hfour' : four ≤ 24 ∧ 1461 * four + r₂ = r₁ ∧ r₂ ≤ 1460 := by omega
  have hone' : one ≤ 3 ∧ 365 * one ≤ r₂ ∧ r₂ ≤ 365 * one + 365 := by omega
  rw [hyear, dayOfEra]
  have hdiv : (100 * century + 4 * four + one) / 100 = century := by omega
  have hmod : (100 * century + 4 * four + one) % 100 / 4 = four := by omega
  have hone'' : (100 * century + 4 * four + one) % 4 = one := by omega
  rw [hdiv, hmod, hone'']
  refine ⟨?_, ?_, ?_⟩ <;> omega

structure Date where
  year : ℤ
  month : ℕ
  day : ℕ
  deriving DecidableEq, Repr

def epochDays : ℤ := 719468

/-- The date of a day number counted from 1970-01-01. -/
def dateOfDays (z : ℤ) : Date :=
  let n := z + epochDays
  let y := yearOfEra (n % 146097).toNat
  let year := 400 * (n / 146097) + y.1
  let m := (5 * y.2 + 2) / 153
  let day := y.2 - (153 * m + 2) / 5 + 1
  if m < 10 then ⟨year, m + 3, day⟩ else ⟨year + 1, m - 9, day⟩

def daysOfDate (d : Date) : ℤ :=
  let year := if d.month < 3 then d.year - 1 else d.year
  let m := if d.month < 3 then d.month + 9 else d.month - 3
  146097 * (year / 400) + dayOfEra (year % 400).toNat ((153 * m + 2) / 5 + (d.day - 1)) - epochDays

theorem daysOfDate_dateOfDays (z : ℤ) : daysOfDate (dateOfDays z) = z := by
  have hn : ((z + epochDays) % 146097).toNat < 146097 := by omega
  obtain ⟨hlt, hday, hjoin⟩ := yearOfEra_spec hn
  generalize hy : yearOfEra ((z + epochDays) % 146097).toNat = y at hlt hday hjoin
  obtain ⟨m, hm⟩ : ∃ m, (5 * y.2 + 2) / 153 = m := ⟨_, rfl⟩
  have hm' : m ≤ 11 ∧ (153 * m + 2) / 5 ≤ y.2 := by omega
  have hera : (400 * ((z + epochDays) / 146097) + (y.1 : ℤ)) / 400 = (z + epochDays) / 146097 := by
    omega
  have hyear : ((400 * ((z + epochDays) / 146097) + (y.1 : ℤ)) % 400).toNat = y.1 := by omega
  have hdays : (153 * m + 2) / 5 + (y.2 - (153 * m + 2) / 5) = y.2 := by omega
  have hmonth : daysOfDate (dateOfDays z) =
      146097 * ((z + epochDays) / 146097) + dayOfEra y.1 y.2 - epochDays := by
    simp only [dateOfDays, daysOfDate, hy, hm]
    by_cases h : m < 10
    · rw [if_pos h]
      simp only [show ¬ m + 3 < 3 by omega, if_false, Nat.add_sub_cancel]
      rw [hera, hyear, hdays]
    · rw [if_neg h]
      simp only [show m - 9 < 3 by omega, if_true, Int.add_sub_cancel, Nat.add_sub_cancel]
      rw [hera, hyear, show m - 9 + 9 = m by omega, hdays]
  rw [hmonth, hjoin]
  omega

example : dateOfDays 20468 = ⟨2026, 1, 15⟩ := by decide

end Text
