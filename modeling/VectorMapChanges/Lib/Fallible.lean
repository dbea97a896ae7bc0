import Mathlib.Data.List.Forall2

/-!
# Fallible loops

Inversion rules for loops in the `Except` monad: a comprehension that may raise
returns exactly when every one of its steps does, and its result lists the
results of the steps in order.

Main facts:
* `bind_eq_ok`: a sequence returns when both of its parts do;
* `mapM_eq_ok_iff`: a comprehension returns the list of its steps' results.
-/

namespace Lib

universe u v w

variable {ε : Type u} {α β γ : Type v}

@[simp] theorem ok_bind {a : α} {f : α → Except ε β} :
    (Except.ok a >>= f) = f a := by
  rfl

theorem bind_eq_ok {x : Except ε α} {f : α → Except ε β} {b : β} :
    x >>= f = .ok b ↔ ∃ a, x = .ok a ∧ f a = .ok b := by
  cases x with
  | error e =>
      constructor
      · intro h
        cases h
      · rintro ⟨a, h, -⟩
        cases h
  | ok a =>
      constructor
      · intro h
        exact ⟨a, rfl, h⟩
      · rintro ⟨a', h, h'⟩
        cases h
        exact h'

theorem pure_eq_ok {a b : α} :
    (pure a : Except ε α) = .ok b ↔ a = b := by
  constructor
  · intro h
    cases h
    rfl
  · rintro rfl
    rfl

theorem exists_eq_ok_of_isSome {x : Except ε α} (h : x.toOption.isSome = true) :
    ∃ a, x = .ok a := by
  cases x with
  | error e => simp [Except.toOption] at h
  | ok a => exact ⟨a, rfl⟩

theorem eq_ok_of_toOption {x : Except ε α} {a : α} (h : x.toOption = some a) :
    x = .ok a := by
  cases x with
  | error e => cases h
  | ok a' =>
      obtain rfl := Option.some.inj h
      rfl

/-- What a check of the result finds. -/
theorem exists_eq_ok_of_any {x : Except ε α} {p : α → Bool}
    (h : x.toOption.any p = true) :
    ∃ a, x = .ok a ∧ p a = true := by
  cases x with
  | error e => simp [Except.toOption] at h
  | ok a => exact ⟨a, rfl, by simpa [Except.toOption] using h⟩

section Comprehension

variable {f : α → Except ε β}

/-- A comprehension returns the list of its steps' results. -/
theorem mapM_eq_ok_iff {l : List α} {r : List β} :
    l.mapM f = .ok r ↔ List.Forall₂ (fun x y => f x = .ok y) l r := by
  induction l generalizing r with
  | nil =>
      rw [List.mapM_nil, pure_eq_ok, List.forall₂_nil_left_iff]
      exact eq_comm
  | cons x rest ih =>
      rw [List.mapM_cons, bind_eq_ok]
      constructor
      · rintro ⟨y, hy, h⟩
        obtain ⟨ys, hys, h⟩ := bind_eq_ok.mp h
        rw [← pure_eq_ok.mp h]
        exact List.Forall₂.cons hy (ih.mp hys)
      · intro h
        cases h with
        | cons hy hys =>
            exact ⟨_, hy, bind_eq_ok.mpr ⟨_, ih.mpr hys, rfl⟩⟩

/-- A comprehension whose steps all return does return. -/
theorem exists_mapM_eq_ok {l : List α} (h : ∀ x ∈ l, ∃ y, f x = .ok y) :
    ∃ r, l.mapM f = .ok r := by
  induction l with
  | nil =>
      exact ⟨[], rfl⟩
  | cons x rest ih =>
      obtain ⟨y, hy⟩ := h x (by simp)
      obtain ⟨ys, hys⟩ := ih (fun z hz => h z (List.mem_cons_of_mem _ hz))
      refine ⟨y :: ys, mapM_eq_ok_iff.mpr ?_⟩
      exact List.Forall₂.cons hy (mapM_eq_ok_iff.mp hys)

/-- Every step of a comprehension that returned has returned. -/
theorem step_of_mapM_eq_ok {l : List α} {r : List β} (h : l.mapM f = .ok r)
    {x : α} (hx : x ∈ l) :
    ∃ y ∈ r, f x = .ok y := by
  rw [mapM_eq_ok_iff] at h
  induction h with
  | nil => simp at hx
  | cons hy _ ih =>
      rcases List.mem_cons.mp hx with rfl | hx
      · exact ⟨_, by simp, hy⟩
      · obtain ⟨y, hmem, hf⟩ := ih hx
        exact ⟨y, List.mem_cons_of_mem _ hmem, hf⟩

theorem mem_iff_of_mapM_eq_ok {l : List α} {r : List β} (h : l.mapM f = .ok r)
    {y : β} :
    y ∈ r ↔ ∃ x ∈ l, f x = .ok y := by
  constructor
  · rw [mapM_eq_ok_iff] at h
    intro hy
    induction h with
    | nil => simp at hy
    | cons hf _ ih =>
        rcases List.mem_cons.mp hy with rfl | hy
        · exact ⟨_, by simp, hf⟩
        · obtain ⟨x, hx, hfx⟩ := ih hy
          exact ⟨x, List.mem_cons_of_mem _ hx, hfx⟩
  · rintro ⟨x, hx, hfx⟩
    obtain ⟨y', hy', hf'⟩ := step_of_mapM_eq_ok h hx
    rw [hfx] at hf'
    cases hf'
    exact hy'

/-- A view of the results that each step fixes from its own input. -/
theorem map_of_mapM_eq_ok {l : List α} {r : List β} (h : l.mapM f = .ok r)
    {out : β → γ} {view : α → γ}
    (hview : ∀ x ∈ l, ∀ y, f x = .ok y → out y = view x) :
    r.map out = l.map view := by
  rw [mapM_eq_ok_iff] at h
  induction h with
  | nil => rfl
  | @cons x y xs ys hf _ ih =>
      rw [List.map_cons, List.map_cons, hview x (by simp) y hf,
        ih (fun z hz => hview z (List.mem_cons_of_mem _ hz))]

/-- What the results list together, when each step fixes what its own result
lists up to order. -/
theorem flatMap_perm_of_mapM_eq_ok {l : List α} {r : List β}
    (h : l.mapM f = .ok r) {out : β → List γ} {view : α → List γ}
    (hview : ∀ x ∈ l, ∀ y, f x = .ok y → (out y).Perm (view x)) :
    (r.flatMap out).Perm (l.flatMap view) := by
  rw [mapM_eq_ok_iff] at h
  induction h with
  | nil => exact List.Perm.refl _
  | @cons x y xs ys hf _ ih =>
      rw [List.flatMap_cons, List.flatMap_cons]
      exact (hview x (by simp) y hf).append
        (ih (fun z hz => hview z (List.mem_cons_of_mem _ hz)))

/-- Two comprehensions one after the other, item by item. -/
theorem forall₂_of_mapM_eq_ok {l : List α} {m : List β} {r : List γ}
    {g : β → Except ε γ} (hf : l.mapM f = .ok m) (hg : m.mapM g = .ok r) :
    List.Forall₂ (fun x z => ∃ y, f x = .ok y ∧ g y = .ok z) l r := by
  rw [mapM_eq_ok_iff] at hf hg
  induction hf generalizing r with
  | nil =>
      cases hg
      exact List.Forall₂.nil
  | cons hy _ ih =>
      cases hg with
      | cons hz hrest => exact List.Forall₂.cons ⟨_, hy, hz⟩ (ih hrest)

/-- Two comprehensions over one list that agree step by step. -/
theorem mapM_congr {l : List α} {g : α → Except ε β}
    (h : ∀ x ∈ l, f x = g x) :
    l.mapM f = l.mapM g := by
  induction l with
  | nil => rfl
  | cons x rest ih =>
      rw [List.mapM_cons, List.mapM_cons, h x (by simp),
        ih (fun z hz => h z (List.mem_cons_of_mem _ hz))]

end Comprehension
end Lib
