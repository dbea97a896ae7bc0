import VectorMapChanges.Db.Tables

/-!
# Metadata persistence

The insert-if-absent-then-read-back pattern, and the two metadata tables that
follow it.

Main facts:
* `mem_upsertReturning`: an upsert keeps every row, and adds its own exactly when
  the natural key is new;
* `upsertReturning_returned`: it returns the id under which the natural key is
  stored afterwards.
-/

namespace VectorMapChanges

open Lib

section Upsert

variable {ρ κ : Type} {key : ρ → κ} [DecidableEq κ]

/-- Insert, and fall back to the existing row when the insert was a no-op: the
id of the row, and whether it was created. -/
def upsertReturning (table : KeyedTable key) (params : ρ) :
    (Option Nat × Bool) × KeyedTable key :=
  let (row, table) := table.insertOrIgnore params
  match row with
  | some id => ((some id, true), table)
  | none => (((table.get? (key params)).map Prod.fst, false), table)

variable {table : KeyedTable key} {params : ρ}

/-- A new natural key gets its row. -/
theorem upsertReturning_of_none (h : table.get? (key params) = none) :
    upsertReturning table params =
      ((some table.nextId, true), table.insertNew params h) := by
  simp only [upsertReturning, KeyedTable.insertOrIgnore, dif_pos h]

/-- A taken one uses up an id, and is read back. -/
theorem upsertReturning_of_ne_none (h : table.get? (key params) ≠ none) :
    upsertReturning table params =
      (((table.get? (key params)).map Prod.fst, false),
        { table with toSerialTable := table.toSerialTable.skipId }) := by
  simp only [upsertReturning, KeyedTable.insertOrIgnore, dif_neg h]
  rfl

theorem upsertReturning_snd :
    (upsertReturning table params).2 = (table.insertOrIgnore params).2 := by
  unfold upsertReturning
  obtain ⟨row, table'⟩ := table.insertOrIgnore params
  cases row with
  | none => rfl
  | some id => rfl

/-- An upsert keeps every row, and adds its own when the natural key is new. -/
theorem mem_upsertReturning {row : Nat × ρ} :
    row ∈ (upsertReturning table params).2.rows ↔
      row ∈ table.rows ∨
        table.get? (key params) = none ∧ row = (table.nextId, params) := by
  rw [upsertReturning_snd, KeyedTable.mem_insertOrIgnore]

/-- It returns the id under which the natural key is stored afterwards. -/
theorem upsertReturning_returned :
    ∃ row ∈ (upsertReturning table params).2.rows,
      (upsertReturning table params).1.1 = some row.1 ∧
      key row.2 = key params := by
  cases hget : table.get? (key params) with
  | none =>
      refine ⟨(table.nextId, params), mem_upsertReturning.mpr (.inr ⟨hget, rfl⟩),
        ?_, rfl⟩
      simp [upsertReturning, KeyedTable.insertOrIgnore, hget]
  | some row =>
      obtain ⟨hrow, hkey⟩ := KeyedTable.get?_eq_some_iff.mp hget
      refine ⟨row, mem_upsertReturning.mpr (.inl hrow), ?_, hkey⟩
      have hfound : table.rows.find? (fun row => key row.2 = key params) =
          some row := hget
      simp [upsertReturning, KeyedTable.insertOrIgnore, KeyedTable.get?,
        SerialTable.skipId, hfound]

end Upsert

section Metadata

variable {G : Type}

/-- What a lookup of a snapshot returns. -/
structure SnapshotLookup where
  id : Nat
  processedObjectUri : String
deriving DecidableEq

/-- What a lookup of a changeset returns. -/
structure ChangesetLookup where
  id : Nat
  changeLayerObjectUri : String
deriving DecidableEq

/-- Insert a snapshot row if its natural key is new. -/
def upsertSnapshot (db : Database G) (params : SnapshotRow) :
    (Option Nat × Bool) × Database G :=
  let (row, snapshots) := upsertReturning db.snapshots params
  (row, { db with snapshots := snapshots })

/-- Look up a snapshot by its natural key. -/
def getSnapshot (db : Database G) (params : SnapshotKey) :
    Option SnapshotLookup :=
  (db.snapshots.get? params).map
    (fun row => ⟨row.1, row.2.processedObjectUri⟩)

/-- Insert a changeset row if its natural key is new; both snapshots have to be
rows of `snapshots`. -/
def upsertChangeset (db : Database G) (params : ChangesetRow) :
    Except PyError ((Option Nat × Bool) × Database G) :=
  if ¬ db.snapshots.HasId params.snapshotAId then
    .error (.databaseError "changesets_snapshot_a_id_fkey")
  else if ¬ db.snapshots.HasId params.snapshotBId then
    .error (.databaseError "changesets_snapshot_b_id_fkey")
  else
    let (row, changesets) := upsertReturning db.changesets params
    .ok (row, { db with changesets := changesets })

/-- Look up a changeset by its natural key. -/
def getChangeset (db : Database G) (params : ChangesetKey) :
    Option ChangesetLookup :=
  (db.changesets.get? params).map
    (fun row => ⟨row.1, row.2.changeLayerObjectUri⟩)

/-- Upserting a changeset of stored snapshots touches the changesets only. -/
theorem upsertChangeset_of_hasId {db : Database G} {params : ChangesetRow}
    (hA : db.snapshots.HasId params.snapshotAId)
    (hB : db.snapshots.HasId params.snapshotBId) :
    upsertChangeset db params =
      .ok ((upsertReturning db.changesets params).1,
        { db with changesets := (upsertReturning db.changesets params).2 }) := by
  unfold upsertChangeset
  rw [if_neg (not_not.mpr hA), if_neg (not_not.mpr hB)]

/-- A lookup finds the row with the natural key. -/
theorem getSnapshot_eq_some_iff {db : Database G} {params : SnapshotKey}
    {lookup : SnapshotLookup} :
    getSnapshot db params = some lookup ↔
      ∃ row ∈ db.snapshots.rows, row.2.naturalKey = params ∧
        lookup = ⟨row.1, row.2.processedObjectUri⟩ := by
  unfold getSnapshot
  rw [Option.map_eq_some_iff]
  constructor
  · rintro ⟨row, hget, rfl⟩
    obtain ⟨hrow, hkey⟩ := KeyedTable.get?_eq_some_iff.mp hget
    exact ⟨row, hrow, hkey, rfl⟩
  · rintro ⟨row, hrow, hkey, rfl⟩
    exact ⟨row, KeyedTable.get?_eq_some_iff.mpr ⟨hrow, hkey⟩, rfl⟩

/-- A lookup finds the row with the natural key. -/
theorem getChangeset_eq_some_iff {db : Database G} {params : ChangesetKey}
    {lookup : ChangesetLookup} :
    getChangeset db params = some lookup ↔
      ∃ row ∈ db.changesets.rows, row.2.naturalKey = params ∧
        lookup = ⟨row.1, row.2.changeLayerObjectUri⟩ := by
  unfold getChangeset
  rw [Option.map_eq_some_iff]
  constructor
  · rintro ⟨row, hget, rfl⟩
    obtain ⟨hrow, hkey⟩ := KeyedTable.get?_eq_some_iff.mp hget
    exact ⟨row, hrow, hkey, rfl⟩
  · rintro ⟨row, hrow, hkey, rfl⟩
    exact ⟨row, KeyedTable.get?_eq_some_iff.mpr ⟨hrow, hkey⟩, rfl⟩

end Metadata

end VectorMapChanges
