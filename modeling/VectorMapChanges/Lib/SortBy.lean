import Mathlib.Data.List.NodupEquivFin
import Mathlib.Data.List.Sort

/-!
# Sorting by a key

A stable sort by a key in a linear order.  Where the keys are pairwise
different the sorted list is determined by the members alone, whatever order
they arrived in; this is what makes an output order part of a contract.

Main facts:
* `sortBy_perm`: sorting only reorders;
* `sortBy_eq_of_perm`: with different keys, the arrival order is invisible;
* `eq_of_mem_iff_of_pairwise`: strictly sorted lists with the same members are
  equal.
-/

namespace Lib

universe u v

variable {α : Type u} {κ : Type v} [LinearOrder κ]

/-- `sorted(l, key=key)`, a stable sort. -/
def sortBy (key : α → κ) (l : List α) : List α :=
  l.insertionSort (fun a b => key a ≤ key b)

theorem sortBy_perm (key : α → κ) (l : List α) : (sortBy key l).Perm l :=
  List.perm_insertionSort _ l

@[simp] theorem mem_sortBy {key : α → κ} {l : List α} {a : α} :
    a ∈ sortBy key l ↔ a ∈ l :=
  (sortBy_perm key l).mem_iff

theorem pairwise_le_sortBy (key : α → κ) (l : List α) :
    (sortBy key l).Pairwise (fun a b => key a ≤ key b) := by
  have : IsTrans α (fun a b => key a ≤ key b) := ⟨fun _ _ _ => le_trans⟩
  have : Std.Total (fun a b : α => key a ≤ key b) := ⟨fun a b => le_total _ _⟩
  exact List.pairwise_insertionSort _ l

/-- With pairwise different keys the sort is strict. -/
theorem pairwise_lt_sortBy {key : α → κ} {l : List α}
    (h : (l.map key).Nodup) :
    (sortBy key l).Pairwise (fun a b => key a < key b) := by
  have hnodup : ((sortBy key l).map key).Nodup :=
    (((sortBy_perm key l).map key).nodup_iff).mpr h
  have hne : (sortBy key l).Pairwise (fun a b => key a ≠ key b) :=
    List.pairwise_map.mp hnodup
  exact ((pairwise_le_sortBy key l).and hne).imp
    (fun hab => lt_of_le_of_ne hab.1 hab.2)

/-- Strictly sorted lists with the same members are equal. -/
theorem eq_of_mem_iff_of_pairwise {key : α → κ} {l₁ l₂ : List α}
    (h₁ : l₁.Pairwise (fun a b => key a < key b))
    (h₂ : l₂.Pairwise (fun a b => key a < key b))
    (hmem : ∀ a, a ∈ l₁ ↔ a ∈ l₂) :
    l₁ = l₂ := by
  have hirr : ∀ {l : List α}, l.Pairwise (fun a b => key a < key b) → l.Nodup :=
    fun h => h.imp (fun hab he => absurd hab (by rw [he]; exact lt_irrefl _))
  have hperm : l₁.Perm l₂ :=
    (List.perm_ext_iff_of_nodup (hirr h₁) (hirr h₂)).mpr hmem
  have hanti : ∀ a b, a ∈ l₁ → b ∈ l₂ → key a < key b → key b < key a → a = b :=
    fun a b _ _ hab hba => absurd hab (lt_asymm hba)
  exact hperm.eq_of_pairwise hanti h₁ h₂

/-- With pairwise different keys, the arrival order is invisible. -/
theorem sortBy_eq_of_perm {key : α → κ} {l₁ l₂ : List α}
    (hperm : l₁.Perm l₂) (h : (l₁.map key).Nodup) :
    sortBy key l₁ = sortBy key l₂ := by
  have h₂ : (l₂.map key).Nodup := ((hperm.map key).nodup_iff).mp h
  apply eq_of_mem_iff_of_pairwise (pairwise_lt_sortBy h) (pairwise_lt_sortBy h₂)
  intro a
  rw [mem_sortBy, mem_sortBy]
  exact hperm.mem_iff

/-- `sorted(xs)` for values that carry the order themselves. -/
abbrev sorted (xs : List κ) : List κ :=
  sortBy id xs

/-- The positions in a strictly sorted list are ordered as the values. -/
theorem idxOf_lt_idxOf_iff {xs : List κ} (h : xs.Pairwise (· < ·)) {x y : κ}
    (hx : x ∈ xs) (hy : y ∈ xs) : xs.idxOf x < xs.idxOf y ↔ x < y := by
  have hiso := (h.sortedLT.getIso xs).symm.lt_iff_lt (x := ⟨x, hx⟩) (y := ⟨y, hy⟩)
  rw [Subtype.mk_lt_mk, Fin.lt_def] at hiso
  exact hiso

end Lib
