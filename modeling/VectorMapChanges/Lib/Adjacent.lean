import VectorMapChanges.Lib.SortBy

/-!
# Neighbours in a list

The elements of a list, each with the one in front of it.  In a strictly sorted
list the neighbours are the elements that have no other between them.

Main facts:
* `map_snd_withPrevious`: each element occurs once, in its place;
* `mem_withPrevious_of_none_between`: elements of a strictly sorted list with
  none between them are neighbours.
-/

namespace Lib

universe u v

variable {α : Type u}

/-- Each element with the one in front of it, the first one with `previous`. -/
def withPrevious (previous : Option α) : List α → List (Option α × α)
  | [] => []
  | a :: rest => (previous, a) :: withPrevious (some a) rest

/-- Each element occurs once, in its place. -/
@[simp] theorem map_snd_withPrevious (previous : Option α) (l : List α) :
    (withPrevious previous l).map Prod.snd = l := by
  induction l generalizing previous with
  | nil => rfl
  | cons a rest ih => rw [withPrevious, List.map_cons, ih]

/-- What tells the elements apart tells the pairs apart. -/
theorem nodup_map_withPrevious {κ : Type v} {f : α → κ} (previous : Option α)
    {l : List α} (h : (l.map f).Nodup) :
    ((withPrevious previous l).map (fun pair => f pair.2)).Nodup := by
  have hmap := congrArg (List.map f) (map_snd_withPrevious previous l)
  rw [List.map_map] at hmap
  rw [← hmap] at h
  exact h

theorem snd_mem_of_mem_withPrevious {previous : Option α} {l : List α}
    {pair : Option α × α} (h : pair ∈ withPrevious previous l) : pair.2 ∈ l := by
  rw [← map_snd_withPrevious previous l]
  exact List.mem_map_of_mem h

/-- In front of an element is another one, or what is in front of the list. -/
theorem fst_mem_of_mem_withPrevious {previous : Option α} {l : List α} {x y : α}
    (h : (some x, y) ∈ withPrevious previous l) : previous = some x ∨ x ∈ l := by
  induction l generalizing previous with
  | nil => cases h
  | cons a rest ih =>
      rw [withPrevious, List.mem_cons] at h
      rcases h with heq | hrest
      · exact Or.inl (Prod.mk.inj heq).1.symm
      · rcases ih hrest with ha | hx
        · rw [Option.some.inj ha]
          exact Or.inr List.mem_cons_self
        · exact Or.inr (List.mem_cons_of_mem a hx)

section Sorted

variable {κ : Type v} [LinearOrder κ] {key : α → κ}

/-- Elements of a strictly sorted list with none between them are neighbours. -/
theorem mem_withPrevious_of_none_between {previous : Option α} {l : List α}
    {x y : α} (hsorted : l.Pairwise (fun a b => key a < key b))
    (hx : x ∈ l) (hy : y ∈ l) (hlt : key x < key y)
    (hnone : ∀ z ∈ l, ¬ (key x < key z ∧ key z < key y)) :
    (some x, y) ∈ withPrevious previous l := by
  induction l generalizing previous with
  | nil => cases hx
  | cons a rest ih =>
      obtain ⟨hhead, hrest⟩ := List.pairwise_cons.mp hsorted
      have hy' : y ∈ rest := by
        rcases List.mem_cons.mp hy with rfl | hy'
        · rcases List.mem_cons.mp hx with rfl | hx'
          · exact absurd hlt (lt_irrefl _)
          · exact absurd hlt (lt_asymm (hhead x hx'))
        · exact hy'
      rw [withPrevious, List.mem_cons]
      right
      rcases List.mem_cons.mp hx with rfl | hx'
      · -- `x` is the head, so `y` has to come next
        cases rest with
        | nil => cases hy'
        | cons b rest' =>
            rw [withPrevious, List.mem_cons]
            left
            rcases List.mem_cons.mp hy' with rfl | hlater
            · rfl
            · have hb : key b < key y := (List.pairwise_cons.mp hrest).1 y hlater
              exact absurd ⟨hhead b List.mem_cons_self, hb⟩
                (hnone b (List.mem_cons_of_mem _ List.mem_cons_self))
      · exact ih hrest hx' hy' (fun z hz => hnone z (List.mem_cons_of_mem a hz))

end Sorted

end Lib
