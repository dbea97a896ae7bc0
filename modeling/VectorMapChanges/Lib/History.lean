import Mathlib.Data.List.Basic
import Mathlib.Data.List.Infix

/-!
# Histories

A history is the list of the inputs that a system has taken, oldest first, and
a predicate on histories speaks about the state that they lead to.

Main facts:
* `forall_prefix_iff`: a predicate holds all along a history exactly when every
  step of it meets the condition under which a step keeps the predicate;
* `Begins.unique`: what comes to hold begins at one step.
-/

namespace Lib

universe u

variable {ι : Type u}

/-- A predicate holds all along a history when each step meets its condition. -/
theorem forall_prefix_of_step {P : List ι → Prop} {C : List ι → ι → Prop}
    (hnil : P []) (hstep : ∀ before i, P before → C before i → P (before ++ [i]))
    {history : List ι}
    (h : ∀ before i, before ++ [i] <+: history → C before i) :
    ∀ before, before <+: history → P before := by
  intro before
  induction before using List.reverseRecOn with
  | nil =>
      intro _
      exact hnil
  | append_singleton before i ih =>
      intro hpre
      have hbefore : before <+: history :=
        (List.prefix_append before [i]).trans hpre
      exact hstep before i (ih hbefore) (h before i hpre)

/-- Where the condition of a step is exact, so is the condition of a history. -/
theorem forall_prefix_iff {P : List ι → Prop} {C : List ι → ι → Prop}
    (hnil : P []) (hstep : ∀ before i, P before → (P (before ++ [i]) ↔ C before i))
    (history : List ι) :
    (∀ before, before <+: history → P before) ↔
      ∀ before i, before ++ [i] <+: history → C before i := by
  constructor
  · intro h before i hpre
    have hbefore : before <+: history :=
      (List.prefix_append before [i]).trans hpre
    exact (hstep before i (h before hbefore)).mp (h _ hpre)
  · intro h
    exact forall_prefix_of_step hnil (fun before i hP => (hstep before i hP).mpr) h

/-- A condition on the steps of a history can be tested step by step. -/
theorem forall_step_iff {C : List ι → ι → Prop} {history : List ι} :
    (∀ before i, before ++ [i] <+: history → C before i) ↔
      ∀ n (hn : n < history.length), C (history.take n) history[n] := by
  constructor
  · intro h n hn
    apply h
    rw [List.take_append_getElem hn]
    exact List.take_prefix _ _
  · intro h before i hpre
    rcases hpre with ⟨after, rfl⟩
    have hstep := h before.length (by simp)
    simpa using hstep

/-- The step of a history at which a predicate begins to hold. -/
structure Begins (p : List ι → Prop) (history before : List ι) (i : ι) :
    Prop where
  step : before ++ [i] <+: history
  not_before : ¬ p before
  holds : p (before ++ [i])

section Begins

variable {p : List ι → Prop} {history : List ι}

theorem Begins.mono {before : List ι} {i : ι} {history' : List ι}
    (h : Begins p history before i) (hpre : history <+: history') :
    Begins p history' before i :=
  ⟨h.step.trans hpre, h.not_before, h.holds⟩

/-- What once holds still holds later. -/
theorem holds_later (hkeep : ∀ before i, p before → p (before ++ [i]))
    {before : List ι} (h : p before) (hpre : before <+: history) :
    p history := by
  rcases hpre with ⟨after, rfl⟩
  induction after using List.reverseRecOn with
  | nil =>
      rwa [List.append_nil]
  | append_singleton after i ih =>
      rw [← List.append_assoc]
      exact hkeep _ i ih

/-- What keeps holding once it does begins at one step only. -/
theorem Begins.unique (hkeep : ∀ before i, p before → p (before ++ [i]))
    {before before' : List ι} {i i' : ι} (h : Begins p history before i)
    (h' : Begins p history before' i') :
    before = before' ∧ i = i' := by
  have hshort : ∀ {b b' : List ι} {j j' : ι}, Begins p history b j →
      Begins p history b' j' → b'.length ≤ b.length := by
    intro b b' j j' hb hb'
    by_contra hlt
    have hle : (b ++ [j]).length ≤ b'.length := by
      rw [List.length_append, List.length_singleton]
      omega
    have hpre : b ++ [j] <+: b' :=
      List.prefix_of_prefix_length_le hb.step
        ((List.prefix_append b' [j']).trans hb'.step) hle
    exact hb'.not_before (holds_later hkeep hb.holds hpre)
  have hlength : (before ++ [i]).length = (before' ++ [i']).length := by
    have hle := hshort h h'
    have hge := hshort h' h
    simp only [List.length_append, List.length_singleton]
    omega
  have heq : before ++ [i] = before' ++ [i'] :=
    List.IsPrefix.eq_of_length
      (List.prefix_of_prefix_length_le h.step h'.step (le_of_eq hlength)) hlength
  obtain ⟨hbefore, hi⟩ := List.append_inj' heq rfl
  exact ⟨hbefore, List.singleton_inj.mp hi⟩

end Begins
end Lib
