import VectorMapChanges.Instants
import VectorMapChanges.Lib.Gregorian
import Mathlib.Data.String.Basic

/-!
# Datetimes

Python datetimes of whole seconds: a wall clock, the fold that tells a repeated
hour apart, and perhaps a time zone.  Adding a timedelta moves the wall clock and
forgets the fold.

Main facts:
* `Instant.seconds_ofSeconds`: an instant is numbered by its seconds;
* `formatInstant_injective`: different instants are rendered differently.
-/

namespace VectorMapChanges

open Lib

section Numbering

/-- The seconds of a day. -/
def daySeconds : Nat := 86400

/-- The seconds from the beginning of year 1 to the end of year 9999. -/
def endOfTime : Nat := 3652059 * daySeconds

/-- The seconds since the beginning of year 1. -/
def Instant.seconds (instant : Instant) : Nat :=
  Gregorian.dayNumber ⟨instant.year, instant.month, instant.day⟩ * daySeconds +
    instant.hour * 3600 + instant.minute * 60 + instant.second

/-- The instant so many seconds after the beginning of year 1. -/
def Instant.ofSeconds (n : Nat) : Instant where
  year := (Gregorian.dateOf (n / daySeconds)).year
  month := (Gregorian.dateOf (n / daySeconds)).month
  day := (Gregorian.dateOf (n / daySeconds)).day
  hour := n % daySeconds / 3600
  minute := n % 3600 / 60
  second := n % 60

/-- An instant is numbered by its seconds. -/
@[simp] theorem Instant.seconds_ofSeconds (n : Nat) :
    (Instant.ofSeconds n).seconds = n := by
  have hday : Gregorian.dayNumber
      ⟨(Gregorian.dateOf (n / daySeconds)).year,
        (Gregorian.dateOf (n / daySeconds)).month,
        (Gregorian.dateOf (n / daySeconds)).day⟩ = n / daySeconds :=
    Gregorian.dayNumber_dateOf _
  simp only [Instant.seconds, Instant.ofSeconds, hday]
  unfold daySeconds
  omega

theorem Instant.ofSeconds_injective : Function.Injective Instant.ofSeconds :=
  Function.LeftInverse.injective Instant.seconds_ofSeconds

/-- `(b - a).days`: whole days, rounded down. -/
def Instant.daysUntil (a b : Instant) : Int :=
  ((b.seconds : Int) - a.seconds) / daySeconds

end Numbering

section Rendering

/-- A separator splits a text in one way if it is not in the first part. -/
theorem append_cons_eq_iff {α : Type} {sep : α} {a a' rest rest' : List α}
    (ha : sep ∉ a) (ha' : sep ∉ a') :
    a ++ sep :: rest = a' ++ sep :: rest' ↔ a = a' ∧ rest = rest' := by
  induction a generalizing a' with
  | nil =>
      cases a' with
      | nil => simp
      | cons c a' =>
          have hne : sep ≠ c := fun h => ha' (by simp [h])
          simp [hne]
  | cons c a ih =>
      cases a' with
      | nil =>
          have hne : c ≠ sep := fun h => ha (by simp [h])
          simp [hne]
      | cons c' a' =>
          have htail := ih (fun h => ha (List.mem_cons_of_mem _ h))
            (fun h => ha' (List.mem_cons_of_mem _ h))
          simp [htail, and_assoc]

theorem isDigit_of_mem_toString {n : Nat} {c : Char}
    (h : c ∈ (toString n).toList) :
    c.isDigit = true := by
  rw [Nat.toString_eq_repr, Nat.toList_repr] at h
  exact Nat.isDigit_of_mem_toDigits (by decide) (by decide) h

theorem isDigit_of_mem_twoDigits {n : Nat} {c : Char}
    (h : c ∈ (twoDigits n).toList) :
    c.isDigit = true := by
  unfold twoDigits at h
  by_cases hn : n < 10
  · rw [if_pos hn, String.toList_append, List.mem_append] at h
    rcases h with h | h
    · rw [List.mem_singleton.mp h]
      decide
    · exact isDigit_of_mem_toString h
  · rw [if_neg hn] at h
    exact isDigit_of_mem_toString h

theorem toString_nat_injective :
    Function.Injective (fun n : Nat => toString n) := by
  intro n m h
  have hdigits : Nat.toDigits 10 n = Nat.toDigits 10 m := by
    simpa [Nat.toString_eq_repr] using congrArg String.toList h
  have hparsed := congrArg (fun ds => Nat.ofDigitChars 10 ds 0) hdigits
  simpa using hparsed

theorem twoDigits_injective : Function.Injective twoDigits := by
  have hvalue : ∀ n, Nat.ofDigitChars 10 (twoDigits n).toList 0 = n := by
    intro n
    have hn : Nat.ofDigitChars 10 (toString n).toList 0 = n := by
      simp [Nat.toString_eq_repr]
    unfold twoDigits
    by_cases h : n < 10
    · rw [if_pos h, String.toList_append]
      simpa [Nat.ofDigitChars] using hn
    · rw [if_neg h]
      exact hn
  intro n m h
  rw [← hvalue n, h, hvalue m]

theorem not_mem_toString {n : Nat} {c : Char} (hc : c.isDigit = false) :
    c ∉ (toString n).toList := by
  intro h
  rw [isDigit_of_mem_toString h] at hc
  cases hc

theorem not_mem_twoDigits {n : Nat} {c : Char} (hc : c.isDigit = false) :
    c ∉ (twoDigits n).toList := by
  intro h
  rw [isDigit_of_mem_twoDigits h] at hc
  cases hc

/-- A rendered instant, character by character. -/
theorem toList_formatInstant (i : Instant) :
    (formatInstant i).toList =
      (toString i.year).toList ++ '-' :: ((twoDigits i.month).toList ++
        '-' :: ((twoDigits i.day).toList ++ 'T' :: ((twoDigits i.hour).toList ++
          ':' :: ((twoDigits i.minute).toList ++
            ':' :: ((twoDigits i.second).toList ++ ['Z']))))) := by
  simp [formatInstant]

/-- A rendered instant has digits and the separators only. -/
theorem not_mem_formatInstant {i : Instant} {c : Char} (hc : c.isDigit = false)
    (hsep : c ∉ ['-', 'T', ':', 'Z']) :
    c ∉ (formatInstant i).toList := by
  simp only [List.mem_cons, List.not_mem_nil, or_false, not_or] at hsep
  rw [toList_formatInstant]
  simp only [List.mem_append, List.mem_cons, List.not_mem_nil,
    not_mem_toString hc, not_mem_twoDigits hc, hsep, or_self, not_false_eq_true]

/-- Different instants are rendered differently. -/
theorem formatInstant_injective : Function.Injective formatInstant := by
  intro i j h
  have hlist := congrArg String.toList h
  rw [toList_formatInstant, toList_formatInstant] at hlist
  obtain ⟨hyear, hlist⟩ := (append_cons_eq_iff (not_mem_toString rfl)
    (not_mem_toString rfl)).mp hlist
  obtain ⟨hmonth, hlist⟩ := (append_cons_eq_iff (not_mem_twoDigits rfl)
    (not_mem_twoDigits rfl)).mp hlist
  obtain ⟨hday, hlist⟩ := (append_cons_eq_iff (not_mem_twoDigits rfl)
    (not_mem_twoDigits rfl)).mp hlist
  obtain ⟨hhour, hlist⟩ := (append_cons_eq_iff (not_mem_twoDigits rfl)
    (not_mem_twoDigits rfl)).mp hlist
  obtain ⟨hminute, hlist⟩ := (append_cons_eq_iff (not_mem_twoDigits rfl)
    (not_mem_twoDigits rfl)).mp hlist
  obtain ⟨hsecond, -⟩ := (append_cons_eq_iff (not_mem_twoDigits rfl)
    (not_mem_twoDigits rfl)).mp hlist
  cases i
  cases j
  simp only [Instant.mk.injEq]
  exact ⟨toString_nat_injective (String.toList_inj.mp hyear),
    twoDigits_injective (String.toList_inj.mp hmonth),
    twoDigits_injective (String.toList_inj.mp hday),
    twoDigits_injective (String.toList_inj.mp hhour),
    twoDigits_injective (String.toList_inj.mp hminute),
    twoDigits_injective (String.toList_inj.mp hsecond)⟩

end Rendering

section Datetimes

/-- A `tzinfo`: the offset from UTC at a wall clock and a fold, in seconds. -/
structure Zone where
  utcoffset : Nat → Bool → Int
  bounded : ∀ wall fold,
    -daySeconds < utcoffset wall fold ∧ utcoffset wall fold < daySeconds

/-- A datetime of whole seconds. -/
structure DateTime where
  wall : Nat
  fold : Bool
  tzinfo : Option Zone
  wall_lt : wall < endOfTime

/-- `instant + timedelta(seconds=n)` -/
def DateTime.add (instant : DateTime) (n : Nat) : Except PyError DateTime :=
  if h : instant.wall + n < endOfTime then
    .ok { instant with wall := instant.wall + n, fold := false, wall_lt := h }
  else .error (.overflowError "date value out of range")

/-- The seconds of an aware datetime in UTC. -/
def DateTime.utcSeconds (instant : DateTime) (zone : Zone) : Int :=
  instant.wall - zone.utcoffset instant.wall instant.fold

/-- `instant.astimezone(UTC)` of an aware datetime. -/
def DateTime.astimezoneUtc (instant : DateTime) (zone : Zone) :
    Except PyError Instant :=
  let seconds := instant.utcSeconds zone
  if 0 ≤ seconds ∧ seconds < endOfTime then
    .ok (Instant.ofSeconds seconds.toNat)
  else .error (.overflowError "date value out of range")

theorem astimezoneUtc_eq_ok_iff {instant : DateTime} {zone : Zone}
    {utc : Instant} :
    instant.astimezoneUtc zone = .ok utc ↔
      0 ≤ instant.utcSeconds zone ∧ instant.utcSeconds zone < endOfTime ∧
        utc = Instant.ofSeconds (instant.utcSeconds zone).toNat := by
  simp only [DateTime.astimezoneUtc]
  by_cases h : 0 ≤ instant.utcSeconds zone ∧ instant.utcSeconds zone < endOfTime
  · rw [if_pos h]
    simp [h.1, h.2, eq_comm]
  · rw [if_neg h]
    constructor
    · intro he
      cases he
    · rintro ⟨hlo, hhi, -⟩
      exact absurd ⟨hlo, hhi⟩ h

end Datetimes

end VectorMapChanges
