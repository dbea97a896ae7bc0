import VectorMapChanges.Lib.SortBy

/-!
# Grouping by a label

The groups of a list are the items of each label, in the order in which the labels
first occur.  They may then be sorted by the key of any one of their items: where the
items of a label are neighbours in the order of the keys, the groups as a whole are in
that order, whichever item stands for its group.

Main facts:
* `exists_mem_groupsBy_iff`: every item is in the group of its label, and in no other;
* `pairwise_sortBy_groupsBy`: sorted groups are ordered item by item.
-/

namespace Lib

universe u v w

section Distinct

variable {α : Type u} [DecidableEq α]

/-- The values of a list, each where it first occurs. -/
def distinct : List α → List α
  | [] => []
  | x :: xs => x :: (distinct xs).filter (fun y => y ≠ x)

@[simp] theorem mem_distinct {x : α} {xs : List α} : x ∈ distinct xs ↔ x ∈ xs := by
  induction xs with
  | nil => simp [distinct]
  | cons y xs ih =>
      rw [distinct, List.mem_cons, List.mem_cons, List.mem_filter, ih]
      by_cases h : x = y
      · simp [h]
      · simp [h]

theorem nodup_distinct (xs : List α) : (distinct xs).Nodup := by
  induction xs with
  | nil => exact List.nodup_nil
  | cons x xs ih =>
      rw [distinct, List.nodup_cons]
      refine ⟨?_, ih.filter _⟩
      simp

end Distinct

section Convex

variable {α : Type u} {κ : Type v} {ν : Type w} [LinearOrder κ]

/-- The items of each label are neighbours in the order of the keys. -/
def Convex (label : α → ν) (key : α → κ) (l : List α) : Prop :=
  ∀ a ∈ l, ∀ b ∈ l, ∀ c ∈ l, key a ≤ key b → key b ≤ key c → label a = label c →
    label b = label a

end Convex

variable {α : Type u} {κ : Type v} {ν : Type w} [DecidableEq ν]

/-- The items of one label. -/
structure Labelled (ν : Type w) (α : Type u) where
  label : ν
  items : List α
deriving DecidableEq

/-- The groups of a list, one for each label. -/
def groupsBy (label : α → ν) (l : List α) : List (Labelled ν α) :=
  (distinct (l.map label)).map fun x => ⟨x, l.filter (fun a => label a = x)⟩

variable {label : α → ν} {l : List α}

theorem mem_items_groupsBy {group : Labelled ν α} (h : group ∈ groupsBy label l) (a : α) :
    a ∈ group.items ↔ a ∈ l ∧ label a = group.label := by
  obtain ⟨x, -, rfl⟩ := List.mem_map.mp h
  simp

/-- No group is empty. -/
theorem items_ne_nil_of_mem_groupsBy {group : Labelled ν α}
    (h : group ∈ groupsBy label l) :
    group.items ≠ [] := by
  obtain ⟨x, hx, rfl⟩ := List.mem_map.mp h
  obtain ⟨a, ha, rfl⟩ := List.mem_map.mp (mem_distinct.mp hx)
  exact List.ne_nil_of_mem (List.mem_filter.mpr ⟨ha, decide_eq_true rfl⟩)

/-- The groups have different labels. -/
theorem nodup_label_groupsBy (label : α → ν) (l : List α) :
    ((groupsBy label l).map Labelled.label).Nodup := by
  rw [groupsBy, List.map_map]
  exact (List.map_id' (distinct (l.map label))).symm ▸ nodup_distinct _

/-- An item is in the group of its label. -/
theorem exists_mem_groupsBy_iff {a : α} :
    (∃ group ∈ groupsBy label l, a ∈ group.items) ↔ a ∈ l := by
  constructor
  · rintro ⟨group, hgroup, ha⟩
    exact ((mem_items_groupsBy hgroup a).mp ha).1
  · intro ha
    have hlabel : label a ∈ distinct (l.map label) :=
      mem_distinct.mpr (List.mem_map_of_mem ha)
    exact ⟨_, List.mem_map_of_mem hlabel, List.mem_filter.mpr ⟨ha, decide_eq_true rfl⟩⟩

section Order

variable [LinearOrder κ] {key : α → κ}

/-- Groups sorted by the key of any one of their items are ordered item by item. -/
theorem pairwise_sortBy_groupsBy (hconvex : Convex label key l)
    {rep : Labelled ν α → κ}
    (hrep : ∀ group ∈ groupsBy label l, ∃ a ∈ group.items, rep group = key a) :
    (sortBy rep (groupsBy label l)).Pairwise fun g h =>
      ∀ a ∈ g.items, ∀ b ∈ h.items, key a ≤ key b := by
  have hnodup : ((sortBy rep (groupsBy label l)).map Labelled.label).Nodup :=
    (((sortBy_perm rep (groupsBy label l)).map Labelled.label).nodup_iff).mpr
      (nodup_label_groupsBy label l)
  have hne : (sortBy rep (groupsBy label l)).Pairwise (fun g h => g.label ≠ h.label) :=
    List.pairwise_map.mp hnodup
  refine ((pairwise_le_sortBy rep (groupsBy label l)).and hne).imp_of_mem ?_
  rintro g h hg hh ⟨hle, hlabels⟩ a ha b hb
  rw [mem_sortBy] at hg hh
  obtain ⟨a₀, ha₀, hrepg⟩ := hrep g hg
  obtain ⟨b₀, hb₀, hreph⟩ := hrep h hh
  rw [hrepg, hreph] at hle
  obtain ⟨hal, hag⟩ := (mem_items_groupsBy hg a).mp ha
  obtain ⟨hbl, hbh⟩ := (mem_items_groupsBy hh b).mp hb
  obtain ⟨ha₀l, ha₀g⟩ := (mem_items_groupsBy hg a₀).mp ha₀
  obtain ⟨hb₀l, hb₀h⟩ := (mem_items_groupsBy hh b₀).mp hb₀
  -- an item that were out of place would lie between two items of the other group
  by_contra hlt
  rw [not_le] at hlt
  rcases le_total (key a₀) (key b) with hcase | hcase
  · have hlabel := hconvex a₀ ha₀l b hbl a hal hcase hlt.le (ha₀g.trans hag.symm)
    exact hlabels (ha₀g.symm.trans (hlabel.symm.trans hbh))
  · have hlabel := hconvex b hbl a₀ ha₀l b₀ hb₀l hcase hle (hbh.trans hb₀h.symm)
    exact hlabels (ha₀g.symm.trans (hlabel.trans hbh))

end Order

end Lib
