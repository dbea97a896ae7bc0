import VectorMapChanges.Api.Main
import VectorMapChanges.Lib.Labelled
import Mathlib.Data.Prod.Lex
import Mathlib.Tactic.FinCases
import Mathlib.Tactic.Linarith
import Mathlib.Tactic.Positivity

/-!
# The label of an interval

`_span_label` picks a unit by two thresholds and rounds the number of days to it.  The
unit and the number rank the labels, and a longer interval never has a lower rank; the
text of a label gives both of them back.

Main facts:
* `spanRank_mono`: the rank of the label is monotone in the days;
* `spanLabel_eq_iff`: two intervals have the same label exactly if the ranks agree.
-/

namespace VectorMapChanges
namespace Api

open Lib

section Round

theorem round_le (q : ℚ) : (round q : ℚ) ≤ q + 1 / 2 := by
  have hle := Rat.floor_le q
  unfold round
  simp only
  split_ifs <;> push_cast <;> linarith

theorem le_round (q : ℚ) : q ≤ round q + 1 / 2 := by
  have hlt := Rat.lt_floor_add_one q
  push_cast at hlt
  unfold round
  simp only
  split_ifs <;> push_cast <;> linarith

theorem round_mono {p q : ℚ} (h : p ≤ q) : round p ≤ round q := by
  by_contra hlt
  rw [not_le, ← Int.add_one_le_iff] at hlt
  have hcast : (round q : ℚ) + 1 ≤ round p := by exact_mod_cast hlt
  -- both are half way between the two integers, and so the same number
  have heq : p = q := le_antisymm h (by linarith [round_le p, le_round q])
  rw [heq] at hlt
  omega

theorem one_le_round {q : ℚ} (h : 9 / 10 ≤ q) : 1 ≤ round q := by
  have hpos : (0 : ℚ) < round q := by linarith [le_round q]
  exact_mod_cast hpos

end Round

section Rank

/-- The unit of the label of an interval, days before months before years, and the
number in front of it. -/
def spanRank (days : Int) : Fin 3 ×ₗ Int :=
  let years : ℚ := days / (36525 / 100)
  if 9 / 10 ≤ years then toLex (2, round years)
  else
    let months : ℚ := days / (3044 / 100)
    if 9 / 10 ≤ months then toLex (1, round months) else toLex (0, max days 1)

/-- The label of a rank. -/
def rankLabel (rank : Fin 3 × Int) : String :=
  match rank.1 with
  | 0 => toString rank.2 ++ " days"
  | 1 => plural rank.2 "month"
  | 2 => plural rank.2 "year"

theorem spanLabel_eq_rankLabel (timeA timeB : Instant) :
    spanLabel timeA timeB = rankLabel (ofLex (spanRank (timeA.daysUntil timeB))) := by
  unfold spanLabel spanRank
  simp only
  split_ifs <;> rfl

theorem toLex_le_of_unit_lt {unit unit' : Fin 3} {n m : Int} (h : unit < unit') :
    (toLex (unit, n) : Fin 3 ×ₗ Int) ≤ toLex (unit', m) :=
  Prod.Lex.toLex_le_toLex.mpr (Or.inl h)

/-- A longer interval has no lower rank. -/
theorem spanRank_mono {d e : Int} (hde : d ≤ e) : spanRank d ≤ spanRank e := by
  have hcast : (d : ℚ) ≤ e := by exact_mod_cast hde
  have hyears : (d : ℚ) / (36525 / 100) ≤ e / (36525 / 100) :=
    div_le_div_of_nonneg_right hcast (by positivity)
  have hmonths : (d : ℚ) / (3044 / 100) ≤ e / (3044 / 100) :=
    div_le_div_of_nonneg_right hcast (by positivity)
  unfold spanRank
  simp only
  by_cases hd : (9 / 10 : ℚ) ≤ d / (36525 / 100)
  · have he : (9 / 10 : ℚ) ≤ e / (36525 / 100) := hd.trans hyears
    rw [if_pos hd, if_pos he, Prod.Lex.toLex_le_toLex]
    exact Or.inr ⟨rfl, round_mono hyears⟩
  · rw [if_neg hd]
    by_cases hd' : (9 / 10 : ℚ) ≤ d / (3044 / 100)
    · have he' : (9 / 10 : ℚ) ≤ e / (3044 / 100) := hd'.trans hmonths
      rw [if_pos hd', if_pos he']
      split_ifs
      · exact toLex_le_of_unit_lt (by decide)
      · exact Prod.Lex.toLex_le_toLex.mpr (Or.inr ⟨rfl, round_mono hmonths⟩)
    · rw [if_neg hd']
      split_ifs
      · exact toLex_le_of_unit_lt (by decide)
      · exact toLex_le_of_unit_lt (by decide)
      · exact Prod.Lex.toLex_le_toLex.mpr (Or.inr ⟨rfl, max_le_max_right 1 hde⟩)

/-- The number of a label is positive. -/
theorem one_le_spanRank (days : Int) : 1 ≤ (ofLex (spanRank days)).2 := by
  unfold spanRank
  simp only
  split_ifs with hyears hmonths
  · exact one_le_round hyears
  · exact one_le_round hmonths
  · exact le_max_right days 1

/-- What follows a number in a label: the unit, of one or of another number of it. -/
def unitText : Fin 3 → Bool → String
  | 0, _ => "days"
  | 1, one => if one then "month" else "months"
  | 2, one => if one then "year" else "years"

/-- The words tell the units apart. -/
theorem unit_eq_of_unitText_eq :
    ∀ unit unit' one one', unitText unit one = unitText unit' one' → unit = unit' := by
  decide

theorem toList_rankLabel (unit : Fin 3) (n : Int) :
    (rankLabel (unit, n)).toList =
      (toString n).toList ++ ' ' :: (unitText unit (decide (n = 1))).toList := by
  unfold rankLabel unitText plural
  fin_cases unit
  · simp
  · by_cases hn : n = 1 <;> simp [hn]
  · by_cases hn : n = 1 <;> simp [hn]

/-- A label names its rank. -/
theorem rankLabel_inj {r s : Fin 3 × Int} (hr : 1 ≤ r.2) (hs : 1 ≤ s.2)
    (h : rankLabel r = rankLabel s) :
    r = s := by
  obtain ⟨unit, n⟩ := r
  obtain ⟨unit', m⟩ := s
  have htext := congrArg String.toList h
  rw [toList_rankLabel, toList_rankLabel] at htext
  obtain ⟨k, rfl⟩ := Int.eq_ofNat_of_zero_le (le_trans zero_le_one hr)
  obtain ⟨j, rfl⟩ := Int.eq_ofNat_of_zero_le (le_trans zero_le_one hs)
  have hblank : ∀ i : Nat, ' ' ∉ (toString i).toList :=
    fun _ => not_mem_toString rfl
  obtain ⟨hnumber, hunit⟩ := (append_cons_eq_iff (hblank k) (hblank j)).mp htext
  have hkj : k = j := toString_nat_injective (String.toList_inj.mp hnumber)
  have hunits := unit_eq_of_unitText_eq _ _ _ _ (String.toList_inj.mp hunit)
  exact Prod.ext hunits (congrArg Int.ofNat hkj)

theorem spanLabel_eq_iff {timeA timeB timeA' timeB' : Instant} :
    spanLabel timeA timeB = spanLabel timeA' timeB' ↔
      spanRank (timeA.daysUntil timeB) = spanRank (timeA'.daysUntil timeB') := by
  rw [spanLabel_eq_rankLabel, spanLabel_eq_rankLabel]
  constructor
  · intro h
    exact ofLex_inj.mp (rankLabel_inj (one_le_spanRank _) (one_le_spanRank _) h)
  · intro h
    rw [h]

end Rank

end Api
end VectorMapChanges
