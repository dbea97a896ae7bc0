import Mathlib.Algebra.Order.Field.Basic
import Mathlib.Order.SymmDiff
import Mathlib.Tactic.FieldSimp
import Mathlib.Tactic.Linarith
import Mathlib.Tactic.Positivity
import Mathlib.Tactic.Ring

/-!
# Agreement of regions

The content of a region (an area, or a number of points) and the agreement of two
regions: the content that they share, as a part of all that they cover.  What two
regions disagree in is a distance, so that many small disagreements in a row add up
to at most their sum.

Main facts:
* `IsContent.sup_eq`: what two regions cover is what they share and what they do not;
* `jaccard_triangle`: disagreement over two steps is at most that of the steps.
-/

namespace Lib

universe u v

open scoped symmDiff

section Content

variable {α : Type u} {K : Type v} [GeneralizedBooleanAlgebra α] [Field K]
  [LinearOrder K] [IsStrictOrderedRing K]

/-- A content is not negative, and additive on regions apart. -/
structure IsContent (μ : α → K) : Prop where
  nonneg : ∀ a, 0 ≤ μ a
  sup_of_disjoint : ∀ a b, Disjoint a b → μ (a ⊔ b) = μ a + μ b

variable {μ : α → K} (h : IsContent μ) (a b c : α)

include h

omit [IsStrictOrderedRing K] in
/-- A region is what it shares with another one and the rest of it. -/
theorem IsContent.inf_add_sdiff : μ (a ⊓ b) + μ (a \ b) = μ a := by
  rw [← h.sup_of_disjoint _ _ disjoint_inf_sdiff, sup_inf_sdiff]

theorem IsContent.mono {a b : α} (hle : a ≤ b) : μ a ≤ μ b := by
  have hrest := h.inf_add_sdiff b a
  rw [inf_eq_right.mpr hle] at hrest
  linarith [h.nonneg (b \ a)]

omit [IsStrictOrderedRing K] in
/-- Two regions together. -/
theorem IsContent.sup_add_inf : μ (a ⊔ b) + μ (a ⊓ b) = μ a + μ b := by
  have hsup : μ (a ⊔ b) = μ (a \ b) + μ b := by
    rw [← h.sup_of_disjoint _ _ disjoint_sdiff_self_left, sdiff_sup_self]
  rw [hsup, ← h.inf_add_sdiff a b]
  ring

theorem IsContent.sup_le_add : μ (a ⊔ b) ≤ μ a + μ b := by
  linarith [h.sup_add_inf a b, h.nonneg (a ⊓ b)]

omit [IsStrictOrderedRing K] in
/-- What two regions cover is what they share and what they do not. -/
theorem IsContent.sup_eq : μ (a ⊔ b) = μ (a ⊓ b) + μ (a ∆ b) := by
  rw [← inf_sup_symmDiff a b, h.sup_of_disjoint _ _ (disjoint_symmDiff_inf a b).symm]

/-- Two regions and what they do not share cover both of them twice. -/
theorem IsContent.add_add_symmDiff : μ a + μ b + μ (a ∆ b) = 2 * μ (a ⊔ b) := by
  linarith [h.sup_add_inf a b, h.sup_eq a b]

/-- What is not shared with a third region is not shared with one between. -/
theorem IsContent.symmDiff_le_add : μ (a ∆ c) ≤ μ (a ∆ b) + μ (b ∆ c) :=
  (h.mono (symmDiff_triangle a b c)).trans (h.sup_le_add _ _)

/-- A region is not larger than another one and what they do not share. -/
theorem IsContent.le_add_symmDiff : μ a ≤ μ b + μ (a ∆ b) := by
  have hsup : μ a ≤ μ (a ⊔ b) := h.mono le_sup_left
  have hinf : μ (a ⊓ b) ≤ μ b := h.mono inf_le_right
  linarith [h.sup_eq a b]

end Content

section Jaccard

variable {α : Type u} {K : Type v} [GeneralizedBooleanAlgebra α] [Field K]
  [LinearOrder K] [IsStrictOrderedRing K] {μ : α → K}

/-- The agreement of two regions, 0 where they cover nothing. -/
def jaccard (μ : α → K) (a b : α) : K :=
  if μ (a ⊔ b) = 0 then 0 else μ (a ⊓ b) / μ (a ⊔ b)

omit [IsStrictOrderedRing K] in
theorem jaccard_of_eq_zero {a b : α} (hsup : μ (a ⊔ b) = 0) : jaccard μ a b = 0 :=
  if_pos hsup

variable (h : IsContent μ)

include h

omit [IsStrictOrderedRing K] in
/-- What is missing of full agreement is what the regions do not share. -/
theorem jaccard_eq {a b : α} (hsup : μ (a ⊔ b) ≠ 0) :
    jaccard μ a b = 1 - μ (a ∆ b) / μ (a ⊔ b) := by
  rw [jaccard, if_neg hsup, eq_sub_iff_add_eq, ← add_div, ← h.sup_eq]
  exact div_self hsup

theorem jaccard_le_one (a b : α) : jaccard μ a b ≤ 1 := by
  by_cases hsup : μ (a ⊔ b) = 0
  · rw [jaccard_of_eq_zero hsup]
    exact zero_le_one
  · rw [jaccard_eq h hsup, sub_le_self_iff]
    exact div_nonneg (h.nonneg _) (h.nonneg _)

theorem jaccard_nonneg (a b : α) : 0 ≤ jaccard μ a b := by
  unfold jaccard
  split_ifs
  · exact le_refl 0
  · exact div_nonneg (h.nonneg _) (h.nonneg _)

/-- A region without content agrees with nothing. -/
theorem jaccard_of_null_left {a b : α} (ha : μ a = 0) : jaccard μ a b = 0 := by
  have hinf : μ (a ⊓ b) = 0 :=
    le_antisymm (ha ▸ h.mono inf_le_left) (h.nonneg _)
  unfold jaccard
  rw [hinf, zero_div, ite_self]

/-- Of what two steps do not share, the part of the first in all that the three
regions cover. -/
theorem symmDiff_div_le {a b : α} {rest : K} (hsup : 0 < μ (a ⊔ b))
    (hrest : 2 * μ (a ⊔ b) ≤ rest) : 2 * μ (a ∆ b) / rest ≤ μ (a ∆ b) / μ (a ⊔ b) := by
  have hpos : 0 < rest := lt_of_lt_of_le (by linarith) hrest
  rw [div_le_div_iff₀ hpos hsup]
  nlinarith [h.nonneg (a ∆ b)]

/-- Agreement is lost over two steps at most as much as over the one and the
other. -/
theorem jaccard_triangle (a b c : α) :
    jaccard μ a b + jaccard μ b c ≤ 1 + jaccard μ a c := by
  have hac : 0 ≤ jaccard μ a c := jaccard_nonneg h a c
  by_cases hab : μ (a ⊔ b) = 0
  · rw [jaccard_of_eq_zero hab]
    linarith [jaccard_le_one h b c]
  by_cases hbc : μ (b ⊔ c) = 0
  · rw [jaccard_of_eq_zero hbc]
    linarith [jaccard_le_one h a b]
  by_cases hsup : μ (a ⊔ c) = 0
  · have ha : μ a = 0 := le_antisymm (hsup ▸ h.mono le_sup_left) (h.nonneg _)
    rw [jaccard_of_null_left h ha]
    linarith [jaccard_le_one h b c]
  -- Everything is measured against what all three regions take part in.
  have hpos : ∀ x y : α, μ (x ⊔ y) ≠ 0 → 0 < μ (x ⊔ y) :=
    fun x y hne => lt_of_le_of_ne (h.nonneg _) (Ne.symm hne)
  have htotal := h.add_add_symmDiff a c
  have htri := h.symmDiff_le_add a b c
  have hfirst : 2 * μ (a ⊔ b) ≤ μ a + μ c + (μ (a ∆ b) + μ (b ∆ c)) := by
    have hb := h.le_add_symmDiff b c
    linarith [h.add_add_symmDiff a b]
  have hsecond : 2 * μ (b ⊔ c) ≤ μ a + μ c + (μ (a ∆ b) + μ (b ∆ c)) := by
    have hb := h.le_add_symmDiff b a
    rw [symmDiff_comm b a] at hb
    linarith [h.add_add_symmDiff b c]
  have hlong : μ (a ∆ c) / μ (a ⊔ c) ≤
      2 * (μ (a ∆ b) + μ (b ∆ c)) / (μ a + μ c + (μ (a ∆ b) + μ (b ∆ c))) := by
    have hrest : 0 < μ a + μ c + (μ (a ∆ b) + μ (b ∆ c)) :=
      lt_of_lt_of_le (by linarith [hpos a b hab]) hfirst
    rw [div_le_div_iff₀ (hpos a c hsup) hrest]
    nlinarith [h.nonneg a, h.nonneg c, h.nonneg (a ∆ c)]
  have hsum : 2 * (μ (a ∆ b) + μ (b ∆ c)) / (μ a + μ c + (μ (a ∆ b) + μ (b ∆ c))) ≤
      μ (a ∆ b) / μ (a ⊔ b) + μ (b ∆ c) / μ (b ⊔ c) := by
    rw [mul_add, add_div]
    exact add_le_add (symmDiff_div_le h (hpos a b hab) hfirst)
      (symmDiff_div_le h (hpos b c hbc) hsecond)
  rw [jaccard_eq h hab, jaccard_eq h hbc, jaccard_eq h hsup]
  linarith

end Jaccard

end Lib
