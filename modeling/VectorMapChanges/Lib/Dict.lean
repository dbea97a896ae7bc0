import Mathlib.Data.List.Nodup
import Mathlib.Data.List.Perm.Basic

/-!
# Insertion-ordered dictionaries

A dictionary is a list of items whose keys are pairwise different; the list
order is the iteration order.  Assigning to a present key replaces the value in
place, assigning to a new key appends.  Key uniqueness is a field, so that no
later proof has to carry it along.

Main facts:
* `get?_eq_some_iff`: a lookup succeeds exactly on the items;
* `get?_set`: an assignment changes one key and nothing else;
* `get?_eq_of_perm`: lookups do not see the iteration order.
-/

namespace Lib

universe u v w

/-- A dictionary with pairwise different keys, in insertion order. -/
structure Dict (κ : Type u) (ν : Type v) where
  items : List (κ × ν)
  nodupKeys : (items.map Prod.fst).Nodup
deriving DecidableEq

namespace Dict

variable {κ : Type u} {ν : Type v}

/-- The keys in iteration order. -/
def keys (d : Dict κ ν) : List κ :=
  d.items.map Prod.fst

instance : Membership κ (Dict κ ν) :=
  ⟨fun d k => k ∈ d.keys⟩

theorem mem_def {d : Dict κ ν} {k : κ} :
    k ∈ d ↔ k ∈ d.keys := by
  rfl

theorem keys_nodup (d : Dict κ ν) : d.keys.Nodup :=
  d.nodupKeys

theorem mem_iff_exists_item {d : Dict κ ν} {k : κ} :
    k ∈ d ↔ ∃ v, (k, v) ∈ d.items := by
  simp [mem_def, keys]

theorem mem_of_item {d : Dict κ ν} {k : κ} {v : ν}
    (h : (k, v) ∈ d.items) :
    k ∈ d :=
  mem_iff_exists_item.mpr ⟨v, h⟩

/-- Two items under one key carry one value. -/
theorem value_unique {d : Dict κ ν} {k : κ} {v w : ν}
    (hv : (k, v) ∈ d.items) (hw : (k, w) ∈ d.items) :
    v = w := by
  have hpair : (k, v) = (k, w) :=
    List.inj_on_of_nodup_map d.nodupKeys hv hw rfl
  exact (Prod.mk.inj hpair).2

/-- The empty dictionary. -/
def empty : Dict κ ν where
  items := []
  nodupKeys := by simp

@[simp] theorem items_empty : (empty : Dict κ ν).items = [] := by
  rfl

@[simp] theorem not_mem_empty {k : κ} : k ∉ (empty : Dict κ ν) := by
  simp [mem_def, keys]

/-- The items whose key satisfies `p`, in the same order. -/
def filterKeys (d : Dict κ ν) (p : κ → Bool) : Dict κ ν where
  items := d.items.filter (fun item => p item.1)
  nodupKeys :=
    d.nodupKeys.sublist (List.filter_sublist.map Prod.fst)

@[simp] theorem mem_items_filterKeys {d : Dict κ ν} {p : κ → Bool}
    {item : κ × ν} :
    item ∈ (d.filterKeys p).items ↔ item ∈ d.items ∧ p item.1 = true := by
  simp [filterKeys]

@[simp] theorem keys_filterKeys (d : Dict κ ν) (p : κ → Bool) :
    (d.filterKeys p).keys = d.keys.filter p := by
  simp only [keys, filterKeys]
  rw [List.filter_map]
  rfl

@[simp] theorem mem_filterKeys {d : Dict κ ν} {p : κ → Bool} {k : κ} :
    k ∈ d.filterKeys p ↔ k ∈ d ∧ p k = true := by
  simp [mem_def]

section Lookup

variable [DecidableEq κ]

instance (d : Dict κ ν) (k : κ) : Decidable (k ∈ d) :=
  inferInstanceAs (Decidable (k ∈ d.keys))

/-- The value under `k`, if there is one. -/
def get? (d : Dict κ ν) (k : κ) : Option ν :=
  d.items.lookup k

theorem mem_items_of_lookup {k : κ} {v : ν} :
    ∀ {items : List (κ × ν)}, items.lookup k = some v → (k, v) ∈ items
  | [], h => by simp at h
  | (k', v') :: rest, h => by
      by_cases hk : k = k'
      · subst hk
        simp at h
        simp [h]
      · rw [List.lookup_cons, beq_false_of_ne hk] at h
        exact List.mem_cons_of_mem _ (mem_items_of_lookup h)

/-- A lookup succeeds exactly on the items. -/
theorem get?_eq_some_iff {d : Dict κ ν} {k : κ} {v : ν} :
    d.get? k = some v ↔ (k, v) ∈ d.items := by
  constructor
  · exact mem_items_of_lookup
  · intro h
    cases hk : d.get? k with
    | none =>
        have hne := List.lookup_eq_none_iff.mp hk (k, v) h
        simp at hne
    | some w =>
        rw [value_unique h (mem_items_of_lookup hk)]

theorem get?_eq_none_iff {d : Dict κ ν} {k : κ} :
    d.get? k = none ↔ k ∉ d := by
  rw [mem_iff_exists_item]
  constructor
  · rintro h ⟨v, hv⟩
    rw [get?_eq_some_iff.mpr hv] at h
    cases h
  · intro h
    cases hk : d.get? k with
    | none => rfl
    | some v => exact absurd ⟨v, get?_eq_some_iff.mp hk⟩ h

theorem exists_get?_of_mem {d : Dict κ ν} {k : κ} (h : k ∈ d) :
    ∃ v, d.get? k = some v := by
  obtain ⟨v, hv⟩ := mem_iff_exists_item.mp h
  exact ⟨v, get?_eq_some_iff.mpr hv⟩

theorem mem_of_get? {d : Dict κ ν} {k : κ} {v : ν} (h : d.get? k = some v) :
    k ∈ d :=
  mem_of_item (get?_eq_some_iff.mp h)

@[simp] theorem get?_empty (k : κ) : (empty : Dict κ ν).get? k = none := by
  rfl

theorem get?_filterKeys {d : Dict κ ν} {p : κ → Bool} {k : κ} {v : ν} :
    (d.filterKeys p).get? k = some v ↔ d.get? k = some v ∧ p k = true := by
  simp [get?_eq_some_iff]

/-- Lookups do not depend on the iteration order. -/
theorem get?_eq_of_perm {d e : Dict κ ν} (h : d.items.Perm e.items) (k : κ) :
    d.get? k = e.get? k := by
  apply Option.ext
  intro v
  rw [get?_eq_some_iff, get?_eq_some_iff]
  exact h.mem_iff

/-- The item list after `d[k] = v`. -/
def setItems (k : κ) (v : ν) : List (κ × ν) → List (κ × ν)
  | [] => [(k, v)]
  | item :: rest =>
      if item.1 = k then (k, v) :: rest else item :: setItems k v rest

theorem map_fst_setItems_of_mem (k : κ) (v : ν) :
    ∀ items : List (κ × ν), k ∈ items.map Prod.fst →
      (setItems k v items).map Prod.fst = items.map Prod.fst
  | [], h => by simp at h
  | item :: rest, h => by
      by_cases hk : item.1 = k
      · simp [setItems, hk]
      · have hrest : k ∈ rest.map Prod.fst := by
          rcases List.mem_cons.mp h with he | hr
          · exact absurd he.symm hk
          · exact hr
        simp [setItems, hk, map_fst_setItems_of_mem k v rest hrest]

theorem setItems_of_not_mem (k : κ) (v : ν) :
    ∀ items : List (κ × ν), k ∉ items.map Prod.fst →
      setItems k v items = items ++ [(k, v)]
  | [], _ => by rfl
  | item :: rest, h => by
      rw [List.map_cons, List.mem_cons, not_or] at h
      have hk : ¬ item.1 = k := fun he => h.1 he.symm
      simp [setItems, hk, setItems_of_not_mem k v rest h.2]

theorem map_fst_setItems (k : κ) (v : ν) (items : List (κ × ν)) :
    (setItems k v items).map Prod.fst =
      if k ∈ items.map Prod.fst then items.map Prod.fst
      else items.map Prod.fst ++ [k] := by
  split_ifs with h
  · exact map_fst_setItems_of_mem k v items h
  · simp [setItems_of_not_mem k v items h]

/-- `d[k] = v`: in place when `k` is present, appended otherwise. -/
def set (d : Dict κ ν) (k : κ) (v : ν) : Dict κ ν where
  items := setItems k v d.items
  nodupKeys := by
    rw [map_fst_setItems]
    split_ifs with h
    · exact d.nodupKeys
    · exact List.nodup_append.mpr
        ⟨d.nodupKeys, by simp, by
          rintro a ha b hb rfl
          rw [List.mem_singleton] at hb
          exact h (hb ▸ ha)⟩

@[simp] theorem mem_set {d : Dict κ ν} {k k' : κ} {v : ν} :
    k' ∈ d.set k v ↔ k' ∈ d ∨ k' = k := by
  have hkeys : (d.set k v).keys = if k ∈ d.keys then d.keys else d.keys ++ [k] :=
    map_fst_setItems k v d.items
  rw [mem_def, mem_def, hkeys]
  split_ifs with h
  · constructor
    · exact Or.inl
    · rintro (h' | rfl)
      · exact h'
      · exact h
  · simp

theorem lookup_setItems (k k' : κ) (v : ν) :
    ∀ items : List (κ × ν),
      (setItems k v items).lookup k' =
        if k' = k then some v else items.lookup k'
  | [] => by
      by_cases h : k' = k
      · simp [setItems, h]
      · simp [setItems, List.lookup_cons, beq_false_of_ne h, h]
  | (k₀, v₀) :: rest => by
      have ih := lookup_setItems k k' v rest
      by_cases h₀ : k₀ = k
      · subst h₀
        by_cases h : k' = k₀
        · simp [setItems, h]
        · simp [setItems, List.lookup_cons, beq_false_of_ne h, h]
      · by_cases h : k' = k₀
        · subst h
          simp [setItems, h₀]
        · simp [setItems, h₀, List.lookup_cons, beq_false_of_ne h, ih]

/-- An assignment changes one key and nothing else. -/
@[simp] theorem get?_set (d : Dict κ ν) (k k' : κ) (v : ν) :
    (d.set k v).get? k' = if k' = k then some v else d.get? k' :=
  lookup_setItems k k' v d.items

theorem mem_setItems {k : κ} {v : ν} {item : κ × ν} :
    ∀ {items : List (κ × ν)},
      item ∈ setItems k v items → item ∈ items ∨ item = (k, v)
  | [], h => Or.inr (by simpa [setItems] using h)
  | it :: rest, h => by
      unfold setItems at h
      split_ifs at h
      · rcases List.mem_cons.mp h with he | hr
        · exact Or.inr he
        · exact Or.inl (List.mem_cons_of_mem _ hr)
      · rcases List.mem_cons.mp h with he | hr
        · exact Or.inl (by simp [he])
        · rcases mem_setItems hr with hr | he
          · exact Or.inl (List.mem_cons_of_mem _ hr)
          · exact Or.inr he

theorem items_set_of_not_mem {d : Dict κ ν} {k : κ} {v : ν} (h : k ∉ d) :
    (d.set k v).items = d.items ++ [(k, v)] :=
  setItems_of_not_mem k v d.items h

/-- `dict(items)`: the items assigned one after the other. -/
def ofList (items : List (κ × ν)) : Dict κ ν :=
  items.foldl (fun d item => d.set item.1 item.2) empty

theorem items_foldl_set (items : List (κ × ν)) (d : Dict κ ν)
    (hnodup : (items.map Prod.fst).Nodup)
    (hfresh : ∀ item ∈ items, item.1 ∉ d) :
    (items.foldl (fun d item => d.set item.1 item.2) d).items =
      d.items ++ items := by
  induction items generalizing d with
  | nil =>
      simp
  | cons item rest ih =>
      rw [List.map_cons, List.nodup_cons] at hnodup
      have hitem : item.1 ∉ d := hfresh item (by simp)
      have hrest : ∀ it ∈ rest, it.1 ∉ d.set item.1 item.2 := by
        intro it hit hmem
        rcases mem_set.mp hmem with hd | he
        · exact hfresh it (List.mem_cons_of_mem _ hit) hd
        · exact hnodup.1 (he ▸ List.mem_map_of_mem hit)
      rw [List.foldl_cons, ih _ hnodup.2 hrest, items_set_of_not_mem hitem]
      simp

/-- With pairwise different keys, `ofList` keeps the list as it is. -/
@[simp] theorem items_ofList {items : List (κ × ν)}
    (hnodup : (items.map Prod.fst).Nodup) :
    (ofList items).items = items := by
  unfold ofList
  rw [items_foldl_set items empty hnodup (by simp)]
  simp

end Lookup

end Dict
end Lib
