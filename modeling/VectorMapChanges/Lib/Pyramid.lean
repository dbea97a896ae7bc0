import Mathlib.Algebra.Order.Floor.Ring
import Mathlib.Algebra.Order.Field.Basic
import Mathlib.Order.Interval.Set.Defs
import Mathlib.Tactic.Linarith
import Mathlib.Tactic.Ring
import Mathlib.Tactic.FieldSimp
import Mathlib.Tactic.Positivity

/-!
# A pyramid of grids

An interval is cut into `2 ^ z` cells of one width on each level `z`, so that a cell
has two children on the next level.

Main facts:
* `mem_cell_iff`: every number is in one cell of a level;
* `index_mem`: the cells of a level are the interval;
* `edge_two_mul`, `parent_edges`: a cell is within its parent.
-/

namespace Lib
namespace Pyramid

universe u

variable {K : Type u} [Field K] [LinearOrder K] [IsStrictOrderedRing K]

/-- The width of a cell. -/
def width (side : K) (z : Nat) : K :=
  side / 2 ^ z

/-- The lower end of a cell, and the upper end of the one in front of it. -/
def edge (lo side : K) (z : Nat) (i : Int) : K :=
  lo + i * width side z

/-- The numbers in a cell. -/
def cell (lo side : K) (z : Nat) (i : Int) : Set K :=
  Set.Ico (edge lo side z i) (edge lo side z (i + 1))

variable {lo side : K}

theorem width_pos (h : 0 < side) (z : Nat) : 0 < width side z :=
  div_pos h (pow_pos two_pos z)

omit [LinearOrder K] [IsStrictOrderedRing K] in
theorem edge_zero (z : Nat) : edge lo side z 0 = lo := by
  rw [edge, Int.cast_zero, zero_mul, add_zero]

theorem edge_pow (z : Nat) : edge lo side z (2 ^ z) = lo + side := by
  have hne : (2 : K) ^ z ≠ 0 := pow_ne_zero z two_ne_zero
  rw [edge, width, Int.cast_pow, Int.cast_ofNat, mul_div_cancel₀ _ hne]

variable (lo) in
theorem edge_le_edge (h : 0 < side) (z : Nat) {i j : Int} (hij : i ≤ j) :
    edge lo side z i ≤ edge lo side z j := by
  have hcast : (i : K) ≤ j := Int.cast_le.mpr hij
  have hmul := mul_le_mul_of_nonneg_right hcast (width_pos h z).le
  unfold edge
  linarith

/-- Every second edge is one of the level above. -/
theorem edge_two_mul (z : Nat) (i : Int) :
    edge lo side (z + 1) (2 * i) = edge lo side z i := by
  have hne : (2 : K) ^ z ≠ 0 := pow_ne_zero z two_ne_zero
  rw [edge, edge, width, width, Int.cast_mul, Int.cast_ofNat, pow_succ]
  field_simp

variable (lo) in
/-- A cell is within its parent. -/
theorem parent_edges (h : 0 < side) (z : Nat) (i : Int) :
    edge lo side z (i / 2) ≤ edge lo side (z + 1) i ∧
      edge lo side (z + 1) (i + 1) ≤ edge lo side z (i / 2 + 1) := by
  rw [← edge_two_mul z (i / 2), ← edge_two_mul z (i / 2 + 1)]
  exact ⟨edge_le_edge lo h _ (by omega), edge_le_edge lo h _ (by omega)⟩

variable [FloorRing K]

/-- The cell that a number is in. -/
def index (lo side : K) (z : Nat) (p : K) : Int :=
  ⌊(p - lo) / width side z⌋

theorem mem_cell_iff (h : 0 < side) (z : Nat) (p : K) (i : Int) :
    p ∈ cell lo side z i ↔ i = index lo side z p := by
  have hwidth := width_pos h z
  rw [index, eq_comm, Int.floor_eq_iff, le_div_iff₀ hwidth, div_lt_iff₀ hwidth, cell,
    Set.mem_Ico, edge, edge, Int.cast_add, Int.cast_one]
  constructor
  · rintro ⟨hle, hlt⟩
    exact ⟨by linarith, by linarith⟩
  · rintro ⟨hle, hlt⟩
    exact ⟨by linarith, by linarith⟩

/-- The cells of a level are the interval. -/
theorem index_mem (h : 0 < side) (z : Nat) {p : K} (hp : p ∈ Set.Ico lo (lo + side)) :
    0 ≤ index lo side z p ∧ index lo side z p < 2 ^ z := by
  have hcell : p ∈ cell lo side z (index lo side z p) :=
    (mem_cell_iff h z p _).mpr rfl
  obtain ⟨hle, hlt⟩ := Set.mem_Ico.mp hcell
  obtain ⟨hlo, hhi⟩ := Set.mem_Ico.mp hp
  constructor
  · by_contra hneg
    have hedge := edge_le_edge lo h z (show index lo side z p + 1 ≤ 0 by omega)
    rw [edge_zero] at hedge
    linarith
  · by_contra hbig
    have hedge := edge_le_edge lo h z (not_lt.mp hbig)
    rw [edge_pow] at hedge
    linarith

end Pyramid
end Lib
