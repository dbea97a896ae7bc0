import VectorMapChanges.Api.SpanLabel

/-!
# The rows of the interval timeline

`ChangesetTimeline` has a row for each label and sorts the rows by the span of the
changeset that happens to be the first of its row.  The labels rank the intervals by
their length, and so the rows are ordered whichever changeset that is.  Instants are
whole seconds.

Main facts:
* `mem_rows_iff`: every changeset is in a row;
* `rows_longest_first`: the rows have every changeset, and none that is longer than
  one of an earlier row.
-/

namespace VectorMapChanges
namespace Web

open Lib Api

/-- The seconds from one instant to another. -/
def duration (interval : Instant × Instant) : Int :=
  (interval.2.seconds : Int) - interval.1.seconds

/-- The label of an interval. -/
def labelOf (interval : Instant × Instant) : String :=
  spanLabel interval.1 interval.2

/-- `spanMs` -/
def spanMs (cs : ChangesetPayload) : Int :=
  1000 * duration (cs.timeA, cs.timeB)

/-- A row of `rows` -/
abbrev IntervalRow := Labelled String ChangesetPayload

/-- `spanMs(row.items[0])`; no row is empty. -/
def firstSpan (row : IntervalRow) : Int :=
  (row.items.head?.map spanMs).getD 0

/-- `rows` -/
def rows (changesets : List ChangesetPayload) : List IntervalRow :=
  sortBy (fun row => -firstSpan row) (groupsBy (fun cs => cs.spanLabel) changesets)

/-- Every changeset is in a row. -/
theorem mem_rows_iff {changesets : List ChangesetPayload} {cs : ChangesetPayload} :
    (∃ row ∈ rows changesets, cs ∈ row.items) ↔ cs ∈ changesets := by
  unfold rows
  simp only [mem_sortBy]
  exact exists_mem_groupsBy_iff

/-- A longer interval has no fewer days. -/
theorem daysUntil_le {p q : Instant × Instant} (h : duration p ≤ duration q) :
    p.1.daysUntil p.2 ≤ q.1.daysUntil q.2 :=
  Int.ediv_le_ediv (by decide) h

/-- The durations with a label are neighbours. -/
theorem labelOf_eq_of_between {p q r : Instant × Instant} (hpq : duration p ≤ duration q)
    (hqr : duration q ≤ duration r) (hlabel : labelOf p = labelOf r) :
    labelOf q = labelOf p := by
  have hsame := spanLabel_eq_iff.mp hlabel
  refine spanLabel_eq_iff.mpr (le_antisymm ?_ (spanRank_mono (daysUntil_le hpq)))
  rw [hsame]
  exact spanRank_mono (daysUntil_le hqr)

/-- A row is sorted by the span of one of its changesets. -/
theorem exists_firstSpan {changesets : List ChangesetPayload} {row : IntervalRow}
    (h : row ∈ groupsBy (fun cs => cs.spanLabel) changesets) :
    ∃ cs ∈ row.items, -firstSpan row = -spanMs cs := by
  cases hitems : row.items with
  | nil => exact absurd hitems (items_ne_nil_of_mem_groupsBy h)
  | cons first rest =>
      refine ⟨first, List.mem_cons_self, ?_⟩
      unfold firstSpan
      rw [hitems, List.head?_cons, Option.map_some, Option.getD_some]

/-- The labels that the API gives are convex in the spans of the changesets. -/
theorem convex_spanLabel (selected : List ChangesetSelect) :
    Convex (fun cs : ChangesetPayload => cs.spanLabel) (fun cs => -spanMs cs)
      (selected.map changesetPayload) := by
  intro a ha b hb c hc hab hbc hlabel
  obtain ⟨a, -, rfl⟩ := List.mem_map.mp ha
  obtain ⟨b, -, rfl⟩ := List.mem_map.mp hb
  obtain ⟨c, -, rfl⟩ := List.mem_map.mp hc
  have hshorter : ∀ x y : ChangesetSelect,
      -spanMs (changesetPayload x) ≤ -spanMs (changesetPayload y) →
        duration (y.timeA, y.timeB) ≤ duration (x.timeA, x.timeB) := by
    intro x y h
    have hms := neg_le_neg_iff.mp h
    exact le_of_mul_le_mul_left hms (by decide)
  have hba := hshorter a b hab
  have hcb := hshorter b c hbc
  exact (labelOf_eq_of_between hcb hba hlabel.symm).trans hlabel.symm

/-- The labels are classes of neighbouring durations, and each row of the timeline has
the changesets of one of them: every changeset is in a row, and none is longer than one
of an earlier row. -/
theorem rows_longest_first :
    (∀ p q, duration p = duration q → labelOf p = labelOf q) ∧
      (∀ p q r, duration p ≤ duration q → duration q ≤ duration r →
        labelOf p = labelOf r → labelOf q = labelOf p) ∧
      ∀ selected : List ChangesetSelect,
        (∀ cs, (∃ row ∈ rows (selected.map changesetPayload), cs ∈ row.items) ↔
          cs ∈ selected.map changesetPayload) ∧
        (rows (selected.map changesetPayload)).Pairwise fun earlier later =>
          ∀ c ∈ earlier.items, ∀ d ∈ later.items, spanMs d ≤ spanMs c := by
  refine ⟨?_, fun p q r => labelOf_eq_of_between, ?_⟩
  · intro p q h
    exact (labelOf_eq_of_between h.le h.ge rfl).symm
  · intro selected
    refine ⟨fun cs => mem_rows_iff, ?_⟩
    refine (pairwise_sortBy_groupsBy (convex_spanLabel selected)
      fun row => exists_firstSpan).imp ?_
    intro earlier later h c hc d hd
    exact neg_le_neg_iff.mp (h c hc d hd)

end Web
end VectorMapChanges
