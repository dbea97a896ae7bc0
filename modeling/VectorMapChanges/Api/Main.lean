import VectorMapChanges.Datetimes
import VectorMapChanges.Db.Tables
import Mathlib.Data.Rat.Floor

/-!
# The API

The requests that the web client makes, as queries on the database.  Floats are
exact rationals.

Main facts:
* `getChangeset_eq_ok`: a returned changeset has the counts of its row;
* `changedCount_changesetPayload`: the changed count leaves out the `unchanged`
  records only.
-/

namespace VectorMapChanges
namespace Api

open Lib

/-- An `HTTPException`. -/
structure HttpError where
  status : Nat
  detail : String
deriving DecidableEq

section Changesets

/-- `round(q)`: the nearest integer, and of two the even one. -/
def round (q : ℚ) : Int :=
  let below := q.floor
  if q - below < 1 / 2 then below
  else if 1 / 2 < q - below then below + 1
  else if below % 2 = 0 then below
  else below + 1

/-- `f"{n} {unit}{'s' if n != 1 else ''}"` -/
def plural (n : Int) (unit : String) : String :=
  toString n ++ " " ++ unit ++ (if n ≠ 1 then "s" else "")

/-- `_span_label` -/
def spanLabel (timeA timeB : Instant) : String :=
  let days := timeA.daysUntil timeB
  let years : ℚ := days / (36525 / 100)
  if 9 / 10 ≤ years then plural (round years) "year"
  else
    let months : ℚ := days / (3044 / 100)
    if 9 / 10 ≤ months then plural (round months) "month"
    else toString (max days 1) ++ " days"

/-- A row of `_CHANGESET_SELECT`. -/
structure ChangesetSelect where
  id : Nat
  algorithmVersion : String
  snapshotAId : Nat
  snapshotBId : Nat
  timeA : Instant
  timeB : Instant
  unchangedCount : Nat
  modifiedGeometryCount : Nat
  modifiedAttributesCount : Nat
  modifiedGeometryAndAttributesCount : Nat
  addedCount : Nat
  removedCount : Nat
  ambiguousCount : Nat
deriving DecidableEq

/-- The column that counts the features of a classification. -/
def ChangesetSelect.count (row : ChangesetSelect) : Classification → Nat
  | .unchanged => row.unchangedCount
  | .modifiedGeometry => row.modifiedGeometryCount
  | .modifiedAttributes => row.modifiedAttributesCount
  | .modifiedGeometryAndAttributes => row.modifiedGeometryAndAttributesCount
  | .added => row.addedCount
  | .removed => row.removedCount
  | .ambiguous => row.ambiguousCount

/-- The selected row of a changeset and its two snapshots. -/
def selectChangeset (c : Nat × ChangesetRow) (sa sb : Nat × SnapshotRow) :
    ChangesetSelect where
  id := c.1
  algorithmVersion := c.2.algorithmVersion
  snapshotAId := sa.1
  snapshotBId := sb.1
  timeA := sa.2.requestedTime
  timeB := sb.2.requestedTime
  unchangedCount := c.2.unchangedCount
  modifiedGeometryCount := c.2.modifiedGeometryCount
  modifiedAttributesCount := c.2.modifiedAttributesCount
  modifiedGeometryAndAttributesCount := c.2.modifiedGeometryAndAttributesCount
  addedCount := c.2.addedCount
  removedCount := c.2.removedCount
  ambiguousCount := c.2.ambiguousCount

variable {G : Type}

/-- `_CHANGESET_SELECT` -/
def changesetSelect (db : Database G) : List ChangesetSelect :=
  db.changesets.rows.flatMap fun c =>
    (db.snapshots.rows.filter (fun s => s.1 = c.2.snapshotAId)).flatMap fun sa =>
      (db.snapshots.rows.filter (fun s => s.1 = c.2.snapshotBId)).map fun sb =>
        selectChangeset c sa sb

/-- What the API returns for a changeset. -/
structure ChangesetPayload extends ChangesetSelect where
  spanLabel : String
  changedCount : Nat
deriving DecidableEq

/-- `_changeset_payload` -/
def changesetPayload (row : ChangesetSelect) : ChangesetPayload where
  toChangesetSelect := row
  spanLabel := spanLabel row.timeA row.timeB
  changedCount :=
    row.modifiedGeometryCount + row.modifiedAttributesCount +
      row.modifiedGeometryAndAttributesCount + row.addedCount +
      row.removedCount + row.ambiguousCount

/-- `GET /api/changesets/{changeset_id}` -/
def getChangeset (db : Database G) (changesetId : Nat) :
    Except HttpError ChangesetPayload :=
  match (changesetSelect db).filter (fun row => row.id = changesetId) with
  | [] => .error ⟨404, "no changeset with id " ++ toString changesetId⟩
  | row :: _ => .ok (changesetPayload row)

/-- A selected row has the counts of the stored one. -/
theorem count_of_mem_changesetSelect {db : Database G} {row : ChangesetSelect}
    (h : row ∈ changesetSelect db) :
    ∃ stored, (row.id, stored) ∈ db.changesets.rows ∧
      row.count = stored.count := by
  unfold changesetSelect at h
  obtain ⟨c, hc, h⟩ := List.mem_flatMap.mp h
  obtain ⟨sa, -, h⟩ := List.mem_flatMap.mp h
  obtain ⟨sb, -, rfl⟩ := List.mem_map.mp h
  refine ⟨c.2, hc, ?_⟩
  funext k
  cases k <;> rfl

/-- A returned changeset is that of the stored row. -/
theorem getChangeset_eq_ok {db : Database G} {changesetId : Nat}
    {payload : ChangesetPayload}
    (h : getChangeset db changesetId = .ok payload) :
    ∃ row stored, payload = changesetPayload row ∧
      (changesetId, stored) ∈ db.changesets.rows ∧ row.count = stored.count := by
  unfold getChangeset at h
  cases hrows : (changesetSelect db).filter (fun row => row.id = changesetId) with
  | nil =>
      rw [hrows] at h
      cases h
  | cons row rest =>
      rw [hrows] at h
      have hmem : row ∈ (changesetSelect db).filter
          (fun row => row.id = changesetId) := by
        rw [hrows]
        exact List.mem_cons_self
      obtain ⟨hrow, hid⟩ := List.mem_filter.mp hmem
      rw [decide_eq_true_iff] at hid
      obtain ⟨stored, hstored, hcount⟩ := count_of_mem_changesetSelect hrow
      rw [hid] at hstored
      exact ⟨row, stored, (Except.ok.inj h).symm, hstored, hcount⟩

/-- The changed count is that of all classifications but `unchanged`. -/
theorem changedCount_changesetPayload (row : ChangesetSelect) :
    row.count .unchanged + (changesetPayload row).changedCount =
      (classifications.map row.count).sum := by
  simp only [classifications, List.map_cons, List.map_nil, List.sum_cons,
    List.sum_nil, changesetPayload, ChangesetSelect.count]
  omega

end Changesets

end Api
end VectorMapChanges
