import VectorMapChanges.Dags.BuildChangesets
import VectorMapChanges.Dags.PublishToPostgis

/-!
# Runs of the system

The tasks of the three DAGs on one object store and one database, in any order.
Ingestion and comparison add metadata rows and upload documents; publication replaces
the rows of one snapshot or changeset.  The API only reads.

Main facts:
* `databaseStep_after`: what one task may do to the database;
* `grows_afterAll`: metadata rows are never changed or removed, and no id is used
  for two rows, over any series of tasks;
* `referential_afterAll`: what a row refers to is there.
-/

namespace VectorMapChanges

open Lib

section Tasks

variable {G J : Type} (sh : Shapely G J) (pg : PostGis G) (aoi : Aoi J)
  (bucket : Bucket) {hit : G → G → Bool}

/-- A run of one task of a DAG. -/
inductive TaskRun (J : Type) (hit : G → G → Bool) where
  | ingest (run : IngestRun J)
  | build (run : ChangesetRun hit)
  | publishSnapshot (params : PublishParams) (requestedTimeStr : String)
  | publishChangeset (params : PublishParams) (pair : ComparisonPair)

/-- The world after a publication, which commits nothing if it raises. -/
def World.commit {α : Type} (w : World G J) : Except PyError (α × World G J) → World G J
  | .ok (_, w') => w'
  | .error _ => w

/-- The world after a task. -/
def World.after (w : World G J) : TaskRun J hit → World G J
  | .ingest run => VectorMapChanges.ingest sh aoi bucket w run
  | .build run => buildChangesets sh aoi bucket w run
  | .publishSnapshot params requestedTimeStr =>
      w.commit (VectorMapChanges.publishSnapshot sh pg params w requestedTimeStr)
  | .publishChangeset params pair =>
      w.commit (VectorMapChanges.publishChangeset sh pg params w pair)

/-- The world after a series of tasks. -/
def World.afterAll (w : World G J) (tasks : List (TaskRun J hit)) : World G J :=
  tasks.foldl (fun w task => w.after sh pg aoi bucket task) w

variable {sh pg aoi bucket}

theorem afterAll_append (w : World G J) (tasks more : List (TaskRun J hit)) :
    w.afterAll sh pg aoi bucket (tasks ++ more) =
      (w.afterAll sh pg aoi bucket tasks).afterAll sh pg aoi bucket more := by
  exact List.foldl_append

theorem afterAll_concat (w : World G J) (tasks : List (TaskRun J hit))
    (task : TaskRun J hit) :
    w.afterAll sh pg aoi bucket (tasks ++ [task]) =
      (w.afterAll sh pg aoi bucket tasks).after sh pg aoi bucket task :=
  afterAll_append w tasks [task]

/-- The world that a series of tasks leads to from an empty database. -/
def reached (sh : Shapely G J) (pg : PostGis G) (aoi : Aoi J) (bucket : Bucket)
    (objects : Objects J) (tasks : List (TaskRun J hit)) : World G J :=
  World.afterAll sh pg aoi bucket ⟨objects, .empty⟩ tasks

end Tasks

section Database

variable {G : Type}

/-- What one task may do to the database. -/
inductive DatabaseStep (db : Database G) : Database G → Prop
  | none : DatabaseStep db db
  | snapshot (row : SnapshotRow) :
      DatabaseStep db { db with snapshots := (upsertReturning db.snapshots row).2 }
  | changeset (row : ChangesetRow) (hA : db.snapshots.HasId row.snapshotAId)
      (hB : db.snapshots.HasId row.snapshotBId) :
      DatabaseStep db
        { db with changesets := (upsertReturning db.changesets row).2 }
  | features (snapshotId : Nat) (rows : List (SnapshotFeatureRow G))
      (table : KeyedTable (@SnapshotFeatureRow.naturalKey G))
      (hid : rows = [] ∨ db.snapshots.HasId snapshotId)
      (hown : ∀ row ∈ rows, row.snapshotId = snapshotId)
      (htable : (db.snapshotFeatures.deleteWhere
        (fun row => row.snapshotId = snapshotId)).insertAll rows = some table) :
      DatabaseStep db { db with snapshotFeatures := table }
  | changes (changesetId : Nat) (rows : List (ChangeFeatureRow G))
      (hid : rows = [] ∨ db.changesets.HasId changesetId)
      (hown : ∀ row ∈ rows, row.changesetId = changesetId) :
      DatabaseStep db
        { db with changeFeatures := (db.changeFeatures.deleteWhere
            (fun row => row.changesetId = changesetId)).insertAll rows }

/-- Metadata rows stay as they are, and no table uses an id for two rows. -/
structure Grows (db db' : Database G) : Prop where
  snapshots : ∀ row ∈ db.snapshots.rows, row ∈ db'.snapshots.rows
  changesets : ∀ row ∈ db.changesets.rows, row ∈ db'.changesets.rows
  snapshotIds : db.snapshots.toSerialTable.Later db'.snapshots.toSerialTable
  changesetIds : db.changesets.toSerialTable.Later db'.changesets.toSerialTable
  featureIds :
    db.snapshotFeatures.toSerialTable.Later db'.snapshotFeatures.toSerialTable
  changeIds : db.changeFeatures.Later db'.changeFeatures

theorem Grows.refl (db : Database G) : Grows db db :=
  ⟨fun _ h => h, fun _ h => h, .refl _, .refl _, .refl _, .refl _⟩

theorem Grows.trans {db₁ db₂ db₃ : Database G} (h : Grows db₁ db₂)
    (h' : Grows db₂ db₃) : Grows db₁ db₃ where
  snapshots row hrow := h'.snapshots row (h.snapshots row hrow)
  changesets row hrow := h'.changesets row (h.changesets row hrow)
  snapshotIds := h.snapshotIds.trans h'.snapshotIds
  changesetIds := h.changesetIds.trans h'.changesetIds
  featureIds := h.featureIds.trans h'.featureIds
  changeIds := h.changeIds.trans h'.changeIds

theorem later_upsertReturning {ρ κ : Type} {key : ρ → κ} [DecidableEq κ]
    (table : KeyedTable key) (params : ρ) :
    table.toSerialTable.Later (upsertReturning table params).2.toSerialTable := by
  rw [upsertReturning_snd]
  exact table.later_insertOrIgnore params

/-- One task. -/
theorem DatabaseStep.grows {db db' : Database G} (h : DatabaseStep db db') :
    Grows db db' := by
  cases h with
  | none => exact .refl db
  | snapshot row =>
      exact { Grows.refl db with
        snapshots := fun _ hrow => mem_upsertReturning.mpr (Or.inl hrow)
        snapshotIds := later_upsertReturning db.snapshots row }
  | changeset row hA hB =>
      exact { Grows.refl db with
        changesets := fun _ hrow => mem_upsertReturning.mpr (Or.inl hrow)
        changesetIds := later_upsertReturning db.changesets row }
  | features snapshotId rows table hid hown htable =>
      refine { Grows.refl db with featureIds := ?_ }
      show db.snapshotFeatures.toSerialTable.Later table.toSerialTable
      rw [KeyedTable.toSerialTable_insertAll htable]
      exact (db.snapshotFeatures.later_deleteWhere
        (fun row => row.snapshotId = snapshotId)).trans
          (SerialTable.later_insertAll _ rows)
  | changes changesetId rows hid hown =>
      exact { Grows.refl db with
        changeIds := (SerialTable.later_deleteWhere _ _).trans
          (SerialTable.later_insertAll _ rows) }

/-- What a row refers to is there. -/
structure Referential (db : Database G) : Prop where
  changesetA : ∀ row ∈ db.changesets.rows, db.snapshots.HasId row.2.snapshotAId
  changesetB : ∀ row ∈ db.changesets.rows, db.snapshots.HasId row.2.snapshotBId
  features : ∀ row ∈ db.snapshotFeatures.rows, db.snapshots.HasId row.2.snapshotId
  changes : ∀ row ∈ db.changeFeatures.rows, db.changesets.HasId row.2.changesetId

theorem Grows.hasSnapshot {db db' : Database G} (h : Grows db db') {id : Nat}
    (hid : db.snapshots.HasId id) : db'.snapshots.HasId id := by
  obtain ⟨row, hrow, rfl⟩ := List.mem_map.mp hid
  exact List.mem_map_of_mem (h.snapshots row hrow)

theorem Grows.hasChangeset {db db' : Database G} (h : Grows db db') {id : Nat}
    (hid : db.changesets.HasId id) : db'.changesets.HasId id := by
  obtain ⟨row, hrow, rfl⟩ := List.mem_map.mp hid
  exact List.mem_map_of_mem (h.changesets row hrow)

/-- A row of a table after a replacement is one from before or a new one. -/
theorem mem_rows_replace {ρ : Type} {t : SerialTable ρ} {p : ρ → Bool}
    {values : List ρ} {row : Nat × ρ}
    (h : row ∈ ((t.deleteWhere p).insertAll values).rows) :
    row ∈ t.rows ∨ row.2 ∈ values := by
  rw [((t.deleteWhere p).rows_insertAll values).1, List.mem_append] at h
  rcases h with h | h
  · exact Or.inl (List.mem_of_mem_filter h)
  · right
    rw [← SerialTable.map_snd_numbered (t.deleteWhere p).nextId values]
    exact List.mem_map_of_mem h

/-- One task. -/
theorem DatabaseStep.referential {db db' : Database G} (h : DatabaseStep db db')
    (href : Referential db) : Referential db' := by
  have hgrows := h.grows
  cases h with
  | none => exact href
  | snapshot row =>
      exact ⟨fun c hc => hgrows.hasSnapshot (href.changesetA c hc),
        fun c hc => hgrows.hasSnapshot (href.changesetB c hc),
        fun f hf => hgrows.hasSnapshot (href.features f hf), href.changes⟩
  | changeset row hA hB =>
      refine ⟨?_, ?_, href.features,
        fun f hf => hgrows.hasChangeset (href.changes f hf)⟩
      · intro c hc
        rcases mem_upsertReturning.mp hc with hc | ⟨-, rfl⟩
        · exact href.changesetA c hc
        · exact hA
      · intro c hc
        rcases mem_upsertReturning.mp hc with hc | ⟨-, rfl⟩
        · exact href.changesetB c hc
        · exact hB
  | features snapshotId rows table hid hown htable =>
      refine ⟨href.changesetA, href.changesetB, ?_, href.changes⟩
      intro f hf
      change f ∈ table.toSerialTable.rows at hf
      rw [KeyedTable.toSerialTable_insertAll htable] at hf
      rcases mem_rows_replace (t := db.snapshotFeatures.toSerialTable)
        (p := fun row => row.snapshotId = snapshotId) hf with hf | hf
      · exact href.features f hf
      · rw [hown f.2 hf]
        exact hid.resolve_left (List.ne_nil_of_mem hf)
  | changes changesetId rows hid hown =>
      refine ⟨href.changesetA, href.changesetB, href.features, ?_⟩
      intro f hf
      rcases mem_rows_replace hf with hf | hf
      · exact href.changes f hf
      · rw [hown f.2 hf]
        exact hid.resolve_left (List.ne_nil_of_mem hf)

theorem referential_empty : Referential (Database.empty : Database G) := by
  constructor
  all_goals
    intro row hrow
    cases hrow

end Database

section Runs

variable {G J : Type} {sh : Shapely G J} {pg : PostGis G} {aoi : Aoi J}
  {bucket : Bucket} {hit : G → G → Bool}

/-- What one task may do to the database. -/
theorem databaseStep_after (sh : Shapely G J) (pg : PostGis G) (aoi : Aoi J)
    (bucket : Bucket) (w : World G J) (task : TaskRun J hit) :
    DatabaseStep w.database (w.after sh pg aoi bucket task).database := by
  cases task with
  | ingest run =>
      change DatabaseStep w.database (ingest sh aoi bucket w run).database
      by_cases h : ∃ result, run.Uploads sh aoi result
      · obtain ⟨result, h⟩ := h
        rw [ingest_of_uploads h]
        by_cases hcompleted : 3 ≤ run.completed
        · simp only [if_pos hcompleted]
          exact .snapshot (run.row aoi bucket result)
        · simp only [if_neg hcompleted]
          exact .none
      · rw [ingest_of_not_uploads (not_exists.mp h)]
        exact .none
  | build run =>
      change DatabaseStep w.database (buildChangesets sh aoi bucket w run).database
      by_cases h : ∃ c, run.Uploads sh aoi w c
      · obtain ⟨c, h⟩ := h
        obtain ⟨hA, hB, -⟩ := compareSnapshots_eq_ok h.1
        rw [buildChangesets_of_uploads h]
        by_cases hcompleted : 2 ≤ run.completed
        · simp only [if_pos hcompleted]
          exact .changeset (run.row bucket c) hA.hasId hB.hasId
        · simp only [if_neg hcompleted]
          exact .none
      · rw [buildChangesets_of_not_uploads (not_exists.mp h)]
        exact .none
  | publishSnapshot params requestedTimeStr =>
      change DatabaseStep w.database
        (w.commit (publishSnapshot sh pg params w requestedTimeStr)).database
      cases h : publishSnapshot sh pg params w requestedTimeStr with
      | error e => exact .none
      | ok result =>
          obtain ⟨lookup, document, written, database, -, -, hpublish, rfl⟩ :=
            publishSnapshot_eq_ok_iff.mp h
          obtain ⟨staged, rows, table, -, hrows, hid, htable, -, rfl⟩ :=
            publishSnapshotFeatures_eq_ok_iff.mp hpublish
          refine .features lookup.id rows table hid ?_ htable
          intro row hrow
          obtain ⟨s, -, hs⟩ := (mem_iff_of_mapM_eq_ok hrows).mp hrow
          exact (selectSnapshotFeature_key hs).1
  | publishChangeset params pair =>
      change DatabaseStep w.database
        (w.commit (publishChangeset sh pg params w pair)).database
      cases h : publishChangeset sh pg params w pair with
      | error e => exact .none
      | ok result =>
          obtain ⟨snapA, snapB, changeset, document, written, database, -, -,
            hpublish, rfl⟩ := publishChangeset_eq_ok_iff.mp h
          obtain ⟨rows, hrows, hid, -, rfl⟩ :=
            publishChangeFeatures_eq_ok_iff.mp hpublish
          exact .changes changeset.id rows hid (changesetRows_view hrows).1

/-- Metadata rows are never changed or removed, and no id is used for two rows,
over any series of tasks. -/
theorem grows_afterAll (w : World G J) (tasks : List (TaskRun J hit)) :
    Grows w.database (w.afterAll sh pg aoi bucket tasks).database := by
  induction tasks using List.reverseRecOn with
  | nil => exact .refl _
  | append_singleton tasks task ih =>
      rw [afterAll_concat]
      exact ih.trans (databaseStep_after sh pg aoi bucket _ task).grows

/-- What a row refers to is there, after any series of tasks. -/
theorem referential_afterAll {w : World G J} (h : Referential w.database)
    (tasks : List (TaskRun J hit)) :
    Referential (w.afterAll sh pg aoi bucket tasks).database := by
  induction tasks using List.reverseRecOn with
  | nil => exact h
  | append_singleton tasks task ih =>
      rw [afterAll_concat]
      exact (databaseStep_after sh pg aoi bucket _ task).referential ih

theorem referential_reached (sh : Shapely G J) (pg : PostGis G) (aoi : Aoi J)
    (bucket : Bucket) (objects : Objects J) (tasks : List (TaskRun J hit)) :
    Referential (reached sh pg aoi bucket objects tasks).database :=
  referential_afterAll referential_empty tasks

/-- In every state that the system reaches what a row refers to is there, and from
there on metadata rows stay and ids stand for the same rows. -/
theorem system_history (sh : Shapely G J) (pg : PostGis G) (aoi : Aoi J)
    (bucket : Bucket) (objects : Objects J) (tasks more : List (TaskRun J hit)) :
    Referential (reached sh pg aoi bucket objects tasks).database ∧
      Grows (reached sh pg aoi bucket objects tasks).database
        (reached sh pg aoi bucket objects (tasks ++ more)).database := by
  refine ⟨referential_reached sh pg aoi bucket objects tasks, ?_⟩
  unfold reached
  rw [afterAll_append]
  exact grows_afterAll _ more

end Runs

end VectorMapChanges
