import Mathlib.Logic.Function.Basic

/-!
# The proleptic Gregorian calendar

Days are numbered from January 1 of year 1, which is day 0.  Every number is that
of the date it is turned into, so that different days have different dates.

Main facts:
* `dayNumber_dateOf`: a day number is that of its date;
* `dayNumber_lt_iff`: dates are numbered in their order.
-/

namespace Lib
namespace Gregorian

/-- A calendar date. -/
structure Date where
  year : Nat
  month : Nat
  day : Nat
deriving DecidableEq, Repr

def isLeap (year : Nat) : Bool :=
  (year % 4 = 0 ∧ year % 100 ≠ 0) ∨ year % 400 = 0

/-- The number of days of a month. -/
def monthLength (leap : Bool) (month : Nat) : Nat :=
  if month = 2 then if leap then 29 else 28
  else if month = 4 ∨ month = 6 ∨ month = 9 ∨ month = 11 then 30
  else 31

/-- The days before January 1 of a year. -/
def daysBeforeYear (year : Nat) : Nat :=
  (year - 1) * 365 + (year - 1) / 4 - (year - 1) / 100 + (year - 1) / 400

/-- The days of a year before the first of a month. -/
def daysBeforeMonth (leap : Bool) : Nat → Nat
  | 0 => 0
  | 1 => 0
  | month + 2 => daysBeforeMonth leap (month + 1) + monthLength leap (month + 1)

/-- The number of a date. -/
def dayNumber (date : Date) : Nat :=
  daysBeforeYear date.year + daysBeforeMonth (isLeap date.year) date.month +
    (date.day - 1)

/-- The year of a day, and how many days of the year are before it.  A cycle of
400 years has 146097 days, a century 36524, a cycle of 4 years 1461; the last
day of a cycle would start a fifth year or century. -/
def yearOf (n : Nat) : Nat × Nat :=
  let n400 := n / 146097
  let n := n % 146097
  let n100 := n / 36524
  let n := n % 36524
  let n4 := n / 1461
  let n := n % 1461
  let n1 := n / 365
  let year := n400 * 400 + n100 * 100 + n4 * 4 + n1
  if n1 = 4 ∨ n100 = 4 then (year, 365) else (year + 1, n % 365)

/-- The month in which a day of the year lies, counted from `month` on, and how
many days of the month are before it. -/
def monthFrom (leap : Bool) : Nat → Nat → Nat → Nat × Nat
  | 0, month, n => (month, n)
  | months + 1, month, n =>
      if n < monthLength leap month then (month, n)
      else monthFrom leap months (month + 1) (n - monthLength leap month)

/-- The date of a day number. -/
def dateOf (n : Nat) : Date :=
  let year := (yearOf n).1
  let month := monthFrom (isLeap year) 11 1 (yearOf n).2
  { year := year, month := month.1, day := month.2 + 1 }

/-- The days before a year, by the cycles that are over when it begins. -/
theorem daysBeforeYear_cycles {a b c d : Nat} (hb : b ≤ 3) (hc : c ≤ 24)
    (hd : d ≤ 3) :
    daysBeforeYear (400 * a + 100 * b + 4 * c + d + 1) =
      146097 * a + 36524 * b + 1461 * c + 365 * d := by
  have hfour : (400 * a + 100 * b + 4 * c + d) / 4 = 100 * a + 25 * b + c := by
    omega
  have hcentury : (400 * a + 100 * b + 4 * c + d) / 100 = 4 * a + b := by
    omega
  have hcycle : (400 * a + 100 * b + 4 * c + d) / 400 = a := by
    omega
  simp only [daysBeforeYear, Nat.add_sub_cancel, hfour, hcentury, hcycle]
  omega

/-- A day is in its year. -/
theorem daysBeforeYear_yearOf (n : Nat) :
    daysBeforeYear (yearOf n).1 + (yearOf n).2 = n := by
  simp only [yearOf]
  have hn : 146097 * (n / 146097) + n % 146097 = n := Nat.div_add_mod n 146097
  have hr : n % 146097 < 146097 := Nat.mod_lt n (by omega)
  generalize n / 146097 = a at *
  generalize n % 146097 = r at *
  have hr₁ : 36524 * (r / 36524) + r % 36524 = r := Nat.div_add_mod r 36524
  have hr₂ : r % 36524 < 36524 := Nat.mod_lt r (by omega)
  generalize r / 36524 = b at *
  generalize r % 36524 = s at *
  have hs₁ : 1461 * (s / 1461) + s % 1461 = s := Nat.div_add_mod s 1461
  have hs₂ : s % 1461 < 1461 := Nat.mod_lt s (by omega)
  generalize s / 1461 = c at *
  generalize s % 1461 = t at *
  have ht₁ : 365 * (t / 365) + t % 365 = t := Nat.div_add_mod t 365
  have ht₂ : t % 365 < 365 := Nat.mod_lt t (by omega)
  generalize t / 365 = d at *
  generalize t % 365 = u at *
  split
  · rename_i hlast
    -- the last day of a leap year, at the end of a cycle of 4 or of 400 years
    rcases hlast with rfl | rfl
    · have hyear : a * 400 + b * 100 + c * 4 + 4 =
          400 * a + 100 * b + 4 * c + 3 + 1 := by
        omega
      have hdays := daysBeforeYear_cycles (a := a) (b := b) (c := c) (d := 3)
        (by omega) (by omega) (by omega)
      rw [hyear, hdays]
      omega
    · have hyear : a * 400 + 4 * 100 + c * 4 + d =
          400 * a + 100 * 3 + 4 * 24 + 3 + 1 := by
        omega
      have hdays := daysBeforeYear_cycles (a := a) (b := 3) (c := 24) (d := 3)
        (by omega) (by omega) (by omega)
      simp only [hyear]
      omega
  · have hyear : a * 400 + b * 100 + c * 4 + d + 1 =
        400 * a + 100 * b + 4 * c + d + 1 := by
      omega
    have hdays := daysBeforeYear_cycles (a := a) (b := b) (c := c) (d := d)
      (by omega) (by omega) (by omega)
    rw [hyear, hdays]
    omega

/-- The months that are passed over are before the day. -/
theorem daysBeforeMonth_monthFrom (leap : Bool) (months month n : Nat) :
    daysBeforeMonth leap (monthFrom leap months (month + 1) n).1 +
        (monthFrom leap months (month + 1) n).2 =
      daysBeforeMonth leap (month + 1) + n := by
  induction months generalizing month n with
  | zero => rfl
  | succ months ih =>
      unfold monthFrom
      by_cases h : n < monthLength leap (month + 1)
      · rw [if_pos h]
      · rw [if_neg h, ih, daysBeforeMonth]
        omega

/-- A day number is that of its date. -/
theorem dayNumber_dateOf (n : Nat) : dayNumber (dateOf n) = n := by
  have hyear := daysBeforeYear_yearOf n
  have hmonth := daysBeforeMonth_monthFrom (isLeap (yearOf n).1) 11 0 (yearOf n).2
  simp only [dayNumber, dateOf, daysBeforeMonth, Nat.zero_add] at hmonth ⊢
  omega

example : dateOf 739797 = ⟨2026, 7, 1⟩ := by
  decide

/-- A date of the calendar. -/
structure Date.Valid (date : Date) : Prop where
  year : 1 ≤ date.year
  month : 1 ≤ date.month ∧ date.month ≤ 12
  day : 1 ≤ date.day ∧ date.day ≤ monthLength (isLeap date.year) date.month

/-- Dates by year, month and day. -/
def Date.Before (d e : Date) : Prop :=
  d.year < e.year ∨ d.year = e.year ∧
    (d.month < e.month ∨ d.month = e.month ∧ d.day < e.day)

theorem isLeap_iff {year : Nat} :
    isLeap year = true ↔ (year % 4 = 0 ∧ year % 100 ≠ 0) ∨ year % 400 = 0 :=
  decide_eq_true_iff

/-- The length of a year. -/
theorem daysBeforeYear_succ {year : Nat} (h : 1 ≤ year) :
    daysBeforeYear (year + 1) =
      daysBeforeYear year + 365 + (if isLeap year = true then 1 else 0) := by
  obtain ⟨n, rfl⟩ := Nat.exists_eq_add_of_le' h
  simp only [daysBeforeYear, Nat.add_sub_cancel, isLeap_iff]
  have hdiv : ∀ k, 0 < k → (n + 1) / k = n / k + (if (n + 1) % k = 0 then 1 else 0) := by
    intro k hk
    rw [Nat.succ_div]
    simp only [Nat.dvd_iff_mod_eq_zero]
  rw [hdiv 4 (by omega), hdiv 100 (by omega), hdiv 400 (by omega)]
  have hle : n / 100 ≤ n / 4 := by
    omega
  by_cases h4 : (n + 1) % 4 = 0
  · by_cases h100 : (n + 1) % 100 = 0
    · by_cases h400 : (n + 1) % 400 = 0
      · simp only [h4, h100, h400, if_true, or_true]
        omega
      · simp only [h4, h100, h400, if_true, if_false, ne_eq, not_true, and_false,
          or_self]
        omega
    · have h400 : ¬ (n + 1) % 400 = 0 := by
        omega
      simp only [h4, h100, h400, if_true, if_false, ne_eq, not_false_iff, and_self,
        true_or]
      omega
  · have h100 : ¬ (n + 1) % 100 = 0 := by
      omega
    have h400 : ¬ (n + 1) % 400 = 0 := by
      omega
    simp only [h4, h100, h400, if_false, false_and, or_self]
    omega

theorem daysBeforeYear_mono {year later : Nat} (h : 1 ≤ year) (hle : year ≤ later) :
    daysBeforeYear year ≤ daysBeforeYear later := by
  induction hle with
  | refl => exact Nat.le_refl _
  | step hle ih =>
      rw [daysBeforeYear_succ (Nat.le_trans h hle)]
      omega

/-- A month is over before the next ones begin. -/
theorem daysBeforeMonth_add_le (leap : Bool) {month later : Nat} (h : 1 ≤ month)
    (hlt : month < later) :
    daysBeforeMonth leap month + monthLength leap month ≤ daysBeforeMonth leap later := by
  induction hlt with
  | refl =>
      obtain ⟨k, rfl⟩ := Nat.exists_eq_add_of_le' h
      exact Nat.le_refl _
  | @step later hlt ih =>
      obtain ⟨k, rfl⟩ := Nat.exists_eq_add_of_le' (Nat.le_trans h (Nat.le_of_lt hlt))
      exact Nat.le_trans ih (Nat.le_add_right _ _)

/-- A date is within its year. -/
theorem Date.Valid.dayNumber_lt {date : Date} (h : date.Valid) :
    dayNumber date < daysBeforeYear (date.year + 1) := by
  have hmonth := daysBeforeMonth_add_le (isLeap date.year) h.month.1
    (Nat.lt_succ_of_le h.month.2)
  have hyear : daysBeforeMonth (isLeap date.year) (Nat.succ 12) =
      365 + (if isLeap date.year = true then 1 else 0) := by
    cases isLeap date.year <;> rfl
  have hday := h.day
  rw [daysBeforeYear_succ h.year]
  unfold dayNumber
  omega

theorem Date.Before.dayNumber_lt {d e : Date} (hd : d.Valid) (h : d.Before e) :
    dayNumber d < dayNumber e := by
  rcases h with hyear | ⟨hyear, hmonth | ⟨hmonth, hday⟩⟩
  · have hstart := daysBeforeYear_mono (Nat.le_add_left 1 d.year) hyear
    calc
      dayNumber d < daysBeforeYear (d.year + 1) := hd.dayNumber_lt
      _ ≤ daysBeforeYear e.year := hstart
      _ ≤ dayNumber e := by
        unfold dayNumber
        omega
  · have hover := daysBeforeMonth_add_le (isLeap d.year) hd.month.1 hmonth
    have hlast := hd.day
    unfold dayNumber
    rw [← hyear]
    omega
  · have hfirst := hd.day.1
    unfold dayNumber
    rw [← hyear, ← hmonth]
    omega

/-- Two dates are one, or one is before the other. -/
theorem Date.before_trichotomy (d e : Date) : d.Before e ∨ d = e ∨ e.Before d := by
  unfold Date.Before
  rcases Nat.lt_trichotomy d.year e.year with hyear | hyear | hyear
  · exact Or.inl (Or.inl hyear)
  · rcases Nat.lt_trichotomy d.month e.month with hmonth | hmonth | hmonth
    · exact Or.inl (Or.inr ⟨hyear, Or.inl hmonth⟩)
    · rcases Nat.lt_trichotomy d.day e.day with hday | hday | hday
      · exact Or.inl (Or.inr ⟨hyear, Or.inr ⟨hmonth, hday⟩⟩)
      · refine Or.inr (Or.inl ?_)
        cases d
        cases e
        simp only [Date.mk.injEq]
        exact ⟨hyear, hmonth, hday⟩
      · exact Or.inr (Or.inr (Or.inr ⟨hyear.symm, Or.inr ⟨hmonth.symm, hday⟩⟩))
    · exact Or.inr (Or.inr (Or.inr ⟨hyear.symm, Or.inl hmonth⟩))
  · exact Or.inr (Or.inr (Or.inl hyear))

/-- Dates are numbered in their order. -/
theorem dayNumber_lt_iff {d e : Date} (hd : d.Valid) (he : e.Valid) :
    dayNumber d < dayNumber e ↔ d.Before e := by
  constructor
  · intro hlt
    rcases d.before_trichotomy e with h | rfl | h
    · exact h
    · exact absurd hlt (Nat.lt_irrefl _)
    · exact absurd hlt (Nat.lt_asymm (h.dayNumber_lt he))
  · exact fun h => h.dayNumber_lt hd

end Gregorian
end Lib
