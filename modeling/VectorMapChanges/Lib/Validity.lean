import Mathlib.Order.Lattice

/-!
# Validity intervals

Half-open intervals `[start, stop)` over any linear order, which may be
unbounded above, and their clipping to a range.

Main facts:
* `Validity.contains_of_le`: what holds later and has begun holds now;
* `Validity.clippedStart_eq_iff`: clipping to a range moves the start to the
  start of the range exactly for the intervals that contain it.
-/

namespace Lib

universe u

/-- A half-open interval; without a stop it does not end. -/
structure Validity (τ : Type u) where
  start : τ
  stop : Option τ
deriving DecidableEq

namespace Validity

variable {τ : Type u} [LinearOrder τ] {i : Validity τ} {a b t : τ}

/-- The interval contains the time. -/
def Contains (i : Validity τ) (t : τ) : Prop :=
  i.start ≤ t ∧ ∀ u ∈ i.stop, t < u

instance (i : Validity τ) (t : τ) : Decidable (i.Contains t) :=
  inferInstanceAs (Decidable (i.start ≤ t ∧ ∀ u ∈ i.stop, t < u))

/-- Two intervals have no time in common. -/
def Apart (i j : Validity τ) : Prop :=
  ∀ t, ¬ (i.Contains t ∧ j.Contains t)

/-- The start of what an interval has in common with a range from `a` on. -/
def clippedStart (i : Validity τ) (a : τ) : τ :=
  max i.start a

/-- The stop of what an interval has in common with a range up to `b`. -/
def clippedStop (i : Validity τ) (b : τ) : τ :=
  match i.stop with
  | none => b
  | some u => min u b

/-- What holds later and has begun holds now. -/
theorem contains_of_le (h : i.Contains t) (hstart : i.start ≤ a) (hle : a ≤ t) :
    i.Contains a :=
  ⟨hstart, fun u hu => lt_of_le_of_lt hle (h.2 u hu)⟩

theorem le_clippedStart : a ≤ i.clippedStart a :=
  le_max_right _ _

/-- Clipping moves the start to that of the range exactly for the intervals that
contain it. -/
theorem clippedStart_eq_iff (h : i.Contains t) (hle : a ≤ t) :
    i.clippedStart a = a ↔ i.Contains a := by
  rw [clippedStart, sup_eq_right]
  constructor
  · intro hstart
    exact contains_of_le h hstart hle
  · intro ha
    exact ha.1

end Validity
end Lib
