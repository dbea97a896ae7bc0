import VectorMapChanges.Python

/-!
# Instants

Aware instants of whole seconds in UTC, the text that requests and object keys
use for them, and `strptime` for the one format of the pipeline.  As in Python,
numbers may lack their leading zero, a day may be padded by a blank, letters
match in either case, and the second digit of most numbers may be any decimal
digit of Unicode.
-/

namespace VectorMapChanges

/-- An aware instant of whole seconds, in UTC. -/
structure Instant where
  year : Nat
  month : Nat
  day : Nat
  hour : Nat
  minute : Nat
  second : Nat
deriving DecidableEq, Repr

/-- A number padded with zeros to two digits. -/
def twoDigits (n : Nat) : String :=
  if n < 10 then "0" ++ toString n else toString n

/-- `instant.astimezone(UTC).strftime("%Y-%m-%dT%H:%M:%SZ")` -/
def formatInstant (instant : Instant) : String :=
  toString instant.year ++ "-" ++ twoDigits instant.month ++ "-" ++
    twoDigits instant.day ++ "T" ++ twoDigits instant.hour ++ ":" ++
    twoDigits instant.minute ++ ":" ++ twoDigits instant.second ++ "Z"

/-- The zeros of the decimal digits of Unicode. -/
def decimalZeros : List Nat :=
  [0x30, 0x660, 0x6F0, 0x7C0, 0x966, 0x9E6, 0xA66, 0xAE6, 0xB66, 0xBE6, 0xC66,
    0xCE6, 0xD66, 0xDE6, 0xE50, 0xED0, 0xF20, 0x1040, 0x1090, 0x17E0, 0x1810,
    0x1946, 0x19D0, 0x1A80, 0x1A90, 0x1B50, 0x1BB0, 0x1C40, 0x1C50, 0xA620,
    0xA8D0, 0xA900, 0xA9D0, 0xA9F0, 0xAA50, 0xABF0, 0xFF10, 0x104A0, 0x10D30,
    0x11066, 0x110F0, 0x11136, 0x111D0, 0x112F0, 0x11450, 0x114D0, 0x11650,
    0x116C0, 0x11730, 0x118E0, 0x11950, 0x11C50, 0x11D50, 0x11DA0, 0x11F50,
    0x16A60, 0x16AC0, 0x16B50, 0x1D7CE, 0x1D7D8, 0x1D7E2, 0x1D7EC, 0x1D7F6,
    0x1E140, 0x1E2F0, 0x1E4F0, 0x1E950, 0x1FBF0]

/-- The value of a character that matches `\d`. -/
def decimalDigit (c : Char) : Option Nat :=
  (decimalZeros.find? (fun z => z ≤ c.toNat ∧ c.toNat < z + 10)).map
    (fun z => c.toNat - z)

/-- The value of a character that matches `[lo-hi]`. -/
def digitBetween (lo hi : Nat) (c : Char) : Option Nat :=
  if 48 + lo ≤ c.toNat ∧ c.toNat ≤ 48 + hi then some (c.toNat - 48) else none

/-- `%Y`: `\d\d\d\d` -/
def parseYear : List Char → Option Nat
  | [a, b, c, d] => do
      pure (1000 * (← decimalDigit a) + 100 * (← decimalDigit b) +
        10 * (← decimalDigit c) + (← decimalDigit d))
  | _ => none

/-- `%m`: `1[0-2]|0[1-9]|[1-9]` -/
def parseMonth : List Char → Option Nat
  | ['1', c] => (digitBetween 0 2 c).map (10 + ·)
  | ['0', c] => digitBetween 1 9 c
  | [c] => digitBetween 1 9 c
  | _ => none

/-- `%d`: `3[0-1]|[1-2]\d|0[1-9]|[1-9]| [1-9]` -/
def parseDay : List Char → Option Nat
  | ['3', c] => (digitBetween 0 1 c).map (30 + ·)
  | ['2', c] => (decimalDigit c).map (20 + ·)
  | ['1', c] => (decimalDigit c).map (10 + ·)
  | ['0', c] => digitBetween 1 9 c
  | [' ', c] => digitBetween 1 9 c
  | [c] => digitBetween 1 9 c
  | _ => none

/-- `%H`: `2[0-3]|[0-1]\d|\d` -/
def parseHour : List Char → Option Nat
  | ['2', c] => (digitBetween 0 3 c).map (20 + ·)
  | ['1', c] => (decimalDigit c).map (10 + ·)
  | ['0', c] => decimalDigit c
  | [c] => decimalDigit c
  | _ => none

section Literals

-- The three matches on literal characters are opened by hand: where the characters are
-- enumerable, to split such a match is to decide statements about all of them.
set_option linter.auxLemma false

/-- A month by the length of its text. -/
theorem parseMonth_eq (cs : List Char) :
    parseMonth cs =
      match cs with
      | [c] => digitBetween 1 9 c
      | [a, c] =>
          if a = '1' then (digitBetween 0 2 c).map (10 + ·)
          else if a = '0' then digitBetween 1 9 c
          else none
      | _ => none := by
  rcases cs with _ | ⟨a, cs⟩
  · rfl
  · by_cases h1 : a = '1'
    · subst h1
      rcases cs with _ | ⟨c, _ | ⟨d, cs⟩⟩ <;> rfl
    · by_cases h0 : a = '0'
      · subst h0
        rcases cs with _ | ⟨c, _ | ⟨d, cs⟩⟩ <;> rfl
      · unfold parseMonth parseMonth.match_1
        rcases cs with _ | ⟨c, _ | ⟨d, cs⟩⟩ <;>
          refine Eq.trans ((dif_neg h1).trans (dif_neg h0)) ?_
        · rfl
        · simp only [if_neg h1, if_neg h0]
        · rfl

/-- A day by the length of its text. -/
theorem parseDay_eq (cs : List Char) :
    parseDay cs =
      match cs with
      | [c] => digitBetween 1 9 c
      | [a, c] =>
          if a = '3' then (digitBetween 0 1 c).map (30 + ·)
          else if a = '2' then (decimalDigit c).map (20 + ·)
          else if a = '1' then (decimalDigit c).map (10 + ·)
          else if a = '0' ∨ a = ' ' then digitBetween 1 9 c
          else none
      | _ => none := by
  rcases cs with _ | ⟨a, cs⟩
  · rfl
  · by_cases ha : a = '3' ∨ a = '2' ∨ a = '1' ∨ a = '0' ∨ a = ' '
    · rcases ha with rfl | rfl | rfl | rfl | rfl <;>
        rcases cs with _ | ⟨c, _ | ⟨d, cs⟩⟩ <;> rfl
    · simp only [not_or] at ha
      obtain ⟨h3, h2, h1, h0, hb⟩ := ha
      unfold parseDay parseDay.match_1
      rcases cs with _ | ⟨c, _ | ⟨d, cs⟩⟩ <;>
        refine Eq.trans ((dif_neg h3).trans ((dif_neg h2).trans ((dif_neg h1).trans
          ((dif_neg h0).trans (dif_neg hb))))) ?_
      · rfl
      · simp only [if_neg h3, if_neg h2, if_neg h1, h0, hb, or_self, if_false]
      · rfl

/-- An hour by the length of its text. -/
theorem parseHour_eq (cs : List Char) :
    parseHour cs =
      match cs with
      | [c] => decimalDigit c
      | [a, c] =>
          if a = '2' then (digitBetween 0 3 c).map (20 + ·)
          else if a = '1' then (decimalDigit c).map (10 + ·)
          else if a = '0' then decimalDigit c
          else none
      | _ => none := by
  rcases cs with _ | ⟨a, cs⟩
  · rfl
  · by_cases ha : a = '2' ∨ a = '1' ∨ a = '0'
    · rcases ha with rfl | rfl | rfl <;>
        rcases cs with _ | ⟨c, _ | ⟨d, cs⟩⟩ <;> rfl
    · simp only [not_or] at ha
      obtain ⟨h2, h1, h0⟩ := ha
      unfold parseHour parseHour.match_1
      rcases cs with _ | ⟨c, _ | ⟨d, cs⟩⟩ <;>
        refine Eq.trans ((dif_neg h2).trans ((dif_neg h1).trans (dif_neg h0))) ?_
      · rfl
      · simp only [if_neg h2, if_neg h1, if_neg h0]
      · rfl

end Literals

/-- `%M`: `[0-5]\d|\d` -/
def parseMinute : List Char → Option Nat
  | [a, c] => do
      pure (10 * (← digitBetween 0 5 a) + (← decimalDigit c))
  | [c] => decimalDigit c
  | _ => none

/-- `%S`: `6[0-1]|[0-5]\d|\d` -/
def parseSecond : List Char → Option Nat
  | ['6', c] => (digitBetween 0 1 c).map (60 + ·)
  | cs => parseMinute cs

/-- The text before the first of the given separators, and the text after it. -/
def splitAtChar (separators : List Char) :
    List Char → Option (List Char × List Char)
  | [] => none
  | c :: cs =>
      if c ∈ separators then some ([], cs)
      else (splitAtChar separators cs).map (fun p => (c :: p.1, p.2))

/-- The fields of a text of the form `%Y-%m-%dT%H:%M:%SZ`, and what follows. -/
def matchInstant (cs : List Char) : Option (Instant × List Char) := do
  let (year, cs) ← splitAtChar ['-'] cs
  let (month, cs) ← splitAtChar ['-'] cs
  let (day, cs) ← splitAtChar ['T', 't'] cs
  let (hour, cs) ← splitAtChar [':'] cs
  let (minute, cs) ← splitAtChar [':'] cs
  let (second, cs) ← splitAtChar ['Z', 'z'] cs
  pure
    ({ year := ← parseYear year
       month := ← parseMonth month
       day := ← parseDay day
       hour := ← parseHour hour
       minute := ← parseMinute minute
       second := ← parseSecond second }, cs)

/-- The fields are split off from the first to the last, and then parsed. -/
theorem matchInstant_eq_some {cs rest : List Char} {t : Instant}
    (h : matchInstant cs = some (t, rest)) :
    ∃ year month day hour minute second : List Char × List Char,
      (splitAtChar ['-'] cs = some year ∧ splitAtChar ['-'] year.2 = some month ∧
        splitAtChar ['T', 't'] month.2 = some day ∧
        splitAtChar [':'] day.2 = some hour ∧ splitAtChar [':'] hour.2 = some minute ∧
        splitAtChar ['Z', 'z'] minute.2 = some second ∧ second.2 = rest) ∧
      parseYear year.1 = some t.year ∧ parseMonth month.1 = some t.month ∧
      parseDay day.1 = some t.day ∧ parseHour hour.1 = some t.hour ∧
      parseMinute minute.1 = some t.minute ∧ parseSecond second.1 = some t.second := by
  unfold matchInstant at h
  obtain ⟨year, h₁, h⟩ := Option.bind_eq_some_iff.mp h
  obtain ⟨month, h₂, h⟩ := Option.bind_eq_some_iff.mp h
  obtain ⟨day, h₃, h⟩ := Option.bind_eq_some_iff.mp h
  obtain ⟨hour, h₄, h⟩ := Option.bind_eq_some_iff.mp h
  obtain ⟨minute, h₅, h⟩ := Option.bind_eq_some_iff.mp h
  obtain ⟨second, h₆, h⟩ := Option.bind_eq_some_iff.mp h
  obtain ⟨_, hyear, h⟩ := Option.bind_eq_some_iff.mp h
  obtain ⟨_, hmonth, h⟩ := Option.bind_eq_some_iff.mp h
  obtain ⟨_, hday, h⟩ := Option.bind_eq_some_iff.mp h
  obtain ⟨_, hhour, h⟩ := Option.bind_eq_some_iff.mp h
  obtain ⟨_, hminute, h⟩ := Option.bind_eq_some_iff.mp h
  obtain ⟨_, hsecond, h⟩ := Option.bind_eq_some_iff.mp h
  obtain ⟨rfl, hrest⟩ := Prod.mk.inj (Option.some.inj h)
  exact ⟨year, month, day, hour, minute, second, ⟨h₁, h₂, h₃, h₄, h₅, h₆, hrest⟩,
    hyear, hmonth, hday, hhour, hminute, hsecond⟩

/-- The number of days of a month. -/
def daysInMonth (year month : Nat) : Nat :=
  if month = 2 then
    if (year % 4 = 0 ∧ year % 100 ≠ 0) ∨ year % 400 = 0 then 29 else 28
  else if month = 4 ∨ month = 6 ∨ month = 9 ∨ month = 11 then 30
  else 31

/-- Parse one of the instants of the inventory. -/
def parseInstant (iso : String) : Except PyError Instant :=
  match matchInstant iso.toList with
  | none =>
      .error (.valueError ("time data " ++ reprStr iso ++
        " does not match format '%Y-%m-%dT%H:%M:%SZ'"))
  | some (instant, rest) =>
      if rest ≠ [] then
        .error (.valueError ("unconverted data remains: " ++ String.ofList rest))
      else if instant.year = 0 then
        .error (.valueError "year 0 is out of range")
      else if daysInMonth instant.year instant.month < instant.day then
        .error (.valueError "day is out of range for month")
      else if 59 < instant.second then
        .error (.valueError "second must be in 0..59")
      else .ok instant

example : parseInstant "2026-7-1t0:0:0Z" = .ok ⟨2026, 7, 1, 0, 0, 0⟩ := by
  decide

/-- A text is accepted if all of it matches and `datetime` accepts the fields. -/
theorem parseInstant_eq_ok_iff {iso : String} {instant : Instant} :
    parseInstant iso = .ok instant ↔
      matchInstant iso.toList = some (instant, []) ∧ instant.year ≠ 0 ∧
        instant.day ≤ daysInMonth instant.year instant.month ∧ instant.second ≤ 59 := by
  unfold parseInstant
  cases hmatch : matchInstant iso.toList with
  | none => simp
  | some found =>
      obtain ⟨result, rest⟩ := found
      constructor
      · intro h
        dsimp only at h
        split_ifs at h with hrest hyear hday hsecond
        obtain rfl := Except.ok.inj h
        exact ⟨by rw [not_not.mp hrest], hyear, not_lt.mp hday, not_lt.mp hsecond⟩
      · rintro ⟨heq, hyear, hday, hsecond⟩
        obtain ⟨rfl, rfl⟩ := Prod.mk.inj (Option.some.inj heq)
        simp [hyear, not_lt.mpr hday, not_lt.mpr hsecond]

end VectorMapChanges
