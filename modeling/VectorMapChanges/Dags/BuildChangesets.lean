import VectorMapChanges.Dags.IngestSnapshots
import VectorMapChanges.Matching.Determinism

/-!
# Building changesets

The row of a changeset is keyed by the ids of its two snapshots and is never
replaced; its change layer is keyed by the area and the texts of the two
instants, and every run replaces it.  A row therefore keeps its layer only as
long as the runs that upload under its key read the documents of its own
snapshots.

Main facts:
* `buildChangesets_of_uploads`: what one run does to the store and the tables;
* `World.Holds.build`: a run keeps the snapshots;
* `allAgree_build`: when one run keeps the rows and their layers in agreement;
* `changeset_agrees`: rows and layers agree along every history of runs that
  never replace a layer of other documents.
-/

namespace VectorMapChanges

open Lib

/-- `repr` of an aware instant. -/
def reprDatetime (instant : Instant) : String :=
  "datetime.datetime(" ++
    String.intercalate ", "
      ([instant.year, instant.month, instant.day, instant.hour,
          instant.minute].map toString ++
        (if instant.second = 0 then [] else [toString instant.second]) ++
        ["tzinfo=datetime.timezone.utc"]) ++ ")"

/-- `repr` of the natural key of a snapshot. -/
def reprNaturalKey (key : SnapshotKey) : String :=
  "\x7b'source': " ++ reprStr key.source ++ ", 'layer': " ++ reprStr key.layer ++
    ", 'aoi_id': " ++ reprStr key.aoiId ++ ", 'aoi_version': " ++
    reprStr key.aoiVersion ++ ", 'source_query_version': " ++
    reprStr key.sourceQueryVersion ++ ", 'requested_time': " ++
    reprDatetime key.requestedTime ++ "\x7d"

/-- `SnapshotRef(id=lookup.id, **key)` -/
def SnapshotKey.ref (key : SnapshotKey) (id : Nat) : SnapshotRef where
  id := id
  source := key.source
  layer := key.layer
  aoiId := key.aoiId
  aoiVersion := key.aoiVersion
  sourceQueryVersion := key.sourceQueryVersion
  requestedTime := key.requestedTime

section Task

variable {G J : Type}

/-- Look up a snapshot by its natural key and fetch its processed document. -/
def fetchSnapshot (w : World G J) (params : TaskParams)
    (requestedTimeStr : String) :
    Except PyError (SnapshotRef × ProcessedCollection J) := do
  let key ← naturalKey params requestedTimeStr
  match getSnapshot w.database key with
  | none =>
      .error (.valueError ("no ingested snapshot found for " ++
        reprNaturalKey key ++ " -- run " ++
        "ingest_osm_building_snapshots for this instant first"))
  | some lookup =>
      let geojson ← getJson w.objects lookup.processedObjectUri
      pure (key.ref lookup.id, geojson.asProcessed)

/-- One run of the task: its parameters, the pair of instants, the process that
it runs in, and how many of its writes it completes. -/
structure ChangesetRun (hit : G → G → Bool) where
  params : TaskParams
  requestedTimeA : String
  requestedTimeB : String
  rt : Runtime G
  hits : HitsBy hit rt
  completed : Nat

/-- What a run has read and computed before its first write. -/
structure Comparison (J : Type) where
  snapshotA : SnapshotRef
  geojsonA : ProcessedCollection J
  snapshotB : SnapshotRef
  geojsonB : ProcessedCollection J
  result : ChangesetResult J

variable (sh : Shapely G J) (aoi : Aoi J) {hit : G → G → Bool}

/-- Raise unless the requested area is the committed one. -/
def requireAoi (params : TaskParams) : Except PyError Unit :=
  if aoi.aoiId ≠ params.aoiId ∨ aoi.aoiVersion ≠ params.aoiVersion then
    .error (.valueError ("requested aoi_id/aoi_version " ++
      reprStr params.aoiId ++ "/" ++ reprStr params.aoiVersion ++
      " does not match committed AOI file's " ++ reprStr aoi.aoiId ++ "/" ++
      reprStr aoi.aoiVersion))
  else pure ()

/-- Fetch both snapshots, check the area, and compare. -/
def compareSnapshots (w : World G J) (run : ChangesetRun hit) :
    Except PyError (Comparison J) := do
  let (snapshotA, geojsonA) ← fetchSnapshot w run.params run.requestedTimeA
  let (snapshotB, geojsonB) ← fetchSnapshot w run.params run.requestedTimeB
  requireAoi aoi run.params
  let result ← buildChangesetResult sh run.rt snapshotA snapshotB geojsonA
    geojsonB (some aoi.geometry)
  pure ⟨snapshotA, geojsonA, snapshotB, geojsonB, result⟩

/-- The metadata row of a changeset; every classification is a key of the
counts. -/
def changesetParams (c : Comparison J) (changeLayerUri : String) :
    ChangesetRow where
  snapshotAId := c.snapshotA.id
  snapshotBId := c.snapshotB.id
  algorithmVersion := c.result.algorithmVersion
  changeLayerObjectUri := changeLayerUri
  unchangedCount := (c.result.counts.get? .unchanged).getD 0
  modifiedGeometryCount := (c.result.counts.get? .modifiedGeometry).getD 0
  modifiedAttributesCount := (c.result.counts.get? .modifiedAttributes).getD 0
  modifiedGeometryAndAttributesCount :=
    (c.result.counts.get? .modifiedGeometryAndAttributes).getD 0
  addedCount := (c.result.counts.get? .added).getD 0
  removedCount := (c.result.counts.get? .removed).getD 0
  ambiguousCount := (c.result.counts.get? .ambiguous).getD 0

variable (bucket : Bucket)

/-- Compare two snapshots and persist the changeset: the change layer and the
row. -/
def buildAndPersistChangeset (w : World G J) (run : ChangesetRun hit) :
    Except PyError (List (Write J)) := do
  let c ← compareSnapshots sh aoi w run
  let changeLayerKey := changesetObjectKey run.params.source run.params.layer
    run.params.aoiId run.params.aoiVersion c.result.algorithmVersion
    run.requestedTimeA run.requestedTimeB
  pure
    [.putJson changeLayerKey (.changeLayer c.result.changeLayerGeojson),
      .upsertChangeset (changesetParams c (objectUri bucket changeLayerKey))]

/-- The world after one run. -/
def buildChangesets (w : World G J) (run : ChangesetRun hit) : World G J :=
  w.runTask bucket (buildAndPersistChangeset sh aoi bucket w run) run.completed

/-- The world after a history of runs. -/
def buildAll (w : World G J) (history : List (ChangesetRun hit)) : World G J :=
  history.foldl (buildChangesets sh aoi bucket) w

/-- The key under which a run uploads. -/
def ChangesetRun.changeLayerKey (run : ChangesetRun hit) : String :=
  changesetObjectKey run.params.source run.params.layer run.params.aoiId
    run.params.aoiVersion algorithmVersion run.requestedTimeA run.requestedTimeB

/-- The row that a run upserts. -/
def ChangesetRun.row (run : ChangesetRun hit) (bucket : Bucket)
    (c : Comparison J) : ChangesetRow :=
  changesetParams c (objectUri bucket run.changeLayerKey)

/-- The run uploads the layer of this comparison. -/
def ChangesetRun.Uploads (run : ChangesetRun hit) (w : World G J)
    (c : Comparison J) : Prop :=
  compareSnapshots sh aoi w run = .ok c ∧ 0 < run.completed

end Task

section Snapshots

variable {G J : Type} {w : World G J}

/-- The snapshot is a row, and this is its processed document. -/
def World.Holds (w : World G J) (snapshot : SnapshotRef)
    (geojson : ProcessedCollection J) : Prop :=
  ∃ row ∈ w.database.snapshots.rows, snapshot = row.2.naturalKey.ref row.1 ∧
    ∃ document, getJson w.objects row.2.processedObjectUri = .ok document ∧
      geojson = document.asProcessed

/-- The id of a snapshot determines its document. -/
theorem World.Holds.unique {snapshot snapshot' : SnapshotRef}
    {geojson geojson' : ProcessedCollection J} (h : w.Holds snapshot geojson)
    (h' : w.Holds snapshot' geojson') (hid : snapshot.id = snapshot'.id) :
    snapshot = snapshot' ∧ geojson = geojson' := by
  rcases h with ⟨row, hrow, rfl, document, hdocument, rfl⟩
  rcases h' with ⟨row', hrow', rfl, document', hdocument', rfl⟩
  obtain rfl : row = row' := SerialTable.eq_of_id_eq hrow hrow' hid
  rw [Except.ok.inj (hdocument.symm.trans hdocument')]
  exact ⟨rfl, rfl⟩

theorem World.Holds.hasId {snapshot : SnapshotRef} {geojson : ProcessedCollection J}
    (h : w.Holds snapshot geojson) :
    w.database.snapshots.HasId snapshot.id := by
  rcases h with ⟨row, hrow, rfl, -⟩
  exact List.mem_map_of_mem hrow

/-- What a task fetches is stored. -/
theorem holds_of_fetchSnapshot {params : TaskParams} {requestedTimeStr : String}
    {snapshot : SnapshotRef} {geojson : ProcessedCollection J}
    (h : fetchSnapshot w params requestedTimeStr = .ok (snapshot, geojson)) :
    w.Holds snapshot geojson := by
  unfold fetchSnapshot at h
  obtain ⟨key, -, h⟩ := bind_eq_ok.mp h
  cases hlookup : getSnapshot w.database key with
  | none =>
      simp only [hlookup] at h
      cases h
  | some lookup =>
      simp only [hlookup] at h
      obtain ⟨document, hdocument, h⟩ := bind_eq_ok.mp h
      obtain ⟨rfl, rfl⟩ := Prod.mk.inj (pure_eq_ok.mp h)
      obtain ⟨row, hrow, rfl, rfl⟩ := getSnapshot_eq_some_iff.mp hlookup
      exact ⟨row, hrow, rfl, document, hdocument, rfl⟩

/-- The processed documents lie under the keys of snapshots, as ingestion places
them. -/
def Placed (w : World G J) : Prop :=
  ∀ row ∈ w.database.snapshots.rows, ∃ bucket key,
    row.2.processedObjectUri = objectUri bucket key ∧
      "snapshots/".toList <+: key.toList

/-- Ingestion places them there. -/
theorem Placed.ingest {sh : Shapely G J} {aoi : Aoi J} {bucket : Bucket}
    (h : Placed w) (run : IngestRun J) : Placed (ingest sh aoi bucket w run) := by
  by_cases huploads : ∃ result, run.Uploads sh aoi result
  · rcases huploads with ⟨result, huploads⟩
    intro row hrow
    rcases (mem_snapshots_ingest huploads).mp hrow with hrow | ⟨-, -, rfl⟩
    · exact h row hrow
    · exact ⟨bucket, _, rfl, prefix_snapshotKeyText _ _ _ _ _ _⟩
  · rw [ingest_of_not_uploads (not_exists.mp huploads)]
    exact h

theorem placed_ingestAll (sh : Shapely G J) (aoi : Aoi J) (bucket : Bucket)
    (objects : Objects J) (history : List (IngestRun J)) :
    Placed (ingestAll (G := G) sh aoi bucket objects history) := by
  induction history using List.reverseRecOn with
  | nil =>
      intro row hrow
      simp [ingestAll, Database.empty, KeyedTable.empty, SerialTable.empty] at hrow
  | append_singleton history run ih =>
      rw [ingestAll_append]
      exact ih.ingest run

end Snapshots

section Run

variable {G J : Type} {sh : Shapely G J} {aoi : Aoi J} {hit : G → G → Bool}
  {bucket : Bucket} {w : World G J} {run : ChangesetRun hit} {c : Comparison J}

/-- What a run compares is stored, and is what the comparison is of. -/
theorem compareSnapshots_eq_ok (h : compareSnapshots sh aoi w run = .ok c) :
    w.Holds c.snapshotA c.geojsonA ∧ w.Holds c.snapshotB c.geojsonB ∧
      buildChangesetResult sh run.rt c.snapshotA c.snapshotB c.geojsonA c.geojsonB
        (some aoi.geometry) = .ok c.result := by
  unfold compareSnapshots at h
  obtain ⟨⟨snapshotA, geojsonA⟩, hA, h⟩ := bind_eq_ok.mp h
  obtain ⟨⟨snapshotB, geojsonB⟩, hB, h⟩ := bind_eq_ok.mp h
  obtain ⟨-, -, h⟩ := bind_eq_ok.mp h
  obtain ⟨result, hresult, h⟩ := bind_eq_ok.mp h
  obtain rfl := pure_eq_ok.mp h
  exact ⟨holds_of_fetchSnapshot hA, holds_of_fetchSnapshot hB, hresult⟩

/-- A run that stops before its upload changes nothing. -/
theorem buildChangesets_of_not_uploads
    (h : ∀ c, ¬ run.Uploads sh aoi w c) :
    buildChangesets sh aoi bucket w run = w := by
  apply runTask_of_stopped
  intro writes hwrites
  obtain ⟨c, hc, -⟩ := bind_eq_ok.mp hwrites
  have hnot := h c
  rw [ChangesetRun.Uploads, hc] at hnot
  simpa using hnot

/-- The writes of a run that uploads. -/
theorem buildAndPersistChangeset_of_uploads (h : run.Uploads sh aoi w c) :
    buildAndPersistChangeset sh aoi bucket w run =
      .ok
        [.putJson run.changeLayerKey (.changeLayer c.result.changeLayerGeojson),
          .upsertChangeset (run.row bucket c)] := by
  obtain ⟨-, -, hresult⟩ := compareSnapshots_eq_ok h.1
  obtain ⟨-, _, _, _, _, _, -, -, -, -, -, hfields⟩ :=
    buildChangesetResult_eq_ok_iff.mp hresult
  have hversion : c.result.algorithmVersion = algorithmVersion := by
    rw [hfields]
  unfold buildAndPersistChangeset
  rw [h.1, ok_bind, hversion]
  rfl

/-- The world after a run that uploads. -/
theorem buildChangesets_of_uploads (h : run.Uploads sh aoi w c) :
    buildChangesets sh aoi bucket w run =
      { objects := w.objects.set (bucket.name, run.changeLayerKey)
          (.changeLayer c.result.changeLayerGeojson)
        database :=
          if 2 ≤ run.completed then
            { w.database with
              changesets :=
                (upsertReturning w.database.changesets (run.row bucket c)).2 }
          else w.database } := by
  obtain ⟨hA, hB, -⟩ := compareSnapshots_eq_ok h.1
  have hupsert : upsertChangeset w.database (run.row bucket c) = _ :=
    upsertChangeset_of_hasId hA.hasId hB.hasId
  have hpos := h.2
  unfold buildChangesets
  rw [buildAndPersistChangeset_of_uploads h]
  match hcompleted : run.completed, hpos with
  | 1, _ => rfl
  | n + 2, _ =>
      have htake : ∀ a b : Write J, [a, b].take (n + 2) = [a, b] := by
        intro a b
        simp
      simp only [World.runTask, htake, World.write, Write.apply, hupsert, ok_bind]
      rw [if_pos (by omega)]
      rfl

/-- A run leaves the other tables alone. -/
theorem snapshots_buildChangesets :
    (buildChangesets sh aoi bucket w run).database.snapshots =
      w.database.snapshots := by
  by_cases h : ∃ c, run.Uploads sh aoi w c
  · rcases h with ⟨c, h⟩
    rw [buildChangesets_of_uploads h]
    by_cases hcompleted : 2 ≤ run.completed
    · rw [if_pos hcompleted]
    · rw [if_neg hcompleted]
  · rw [buildChangesets_of_not_uploads (not_exists.mp h)]

/-- A run keeps every row, and adds its own when it completes and its natural key
is new. -/
theorem mem_changesets_buildChangesets (h : run.Uploads sh aoi w c)
    {row : Nat × ChangesetRow} :
    row ∈ (buildChangesets sh aoi bucket w run).database.changesets.rows ↔
      row ∈ w.database.changesets.rows ∨
        2 ≤ run.completed ∧
          w.database.changesets.get? (run.row bucket c).naturalKey = none ∧
          row = (w.database.changesets.nextId, run.row bucket c) := by
  rw [buildChangesets_of_uploads h]
  by_cases hcompleted : 2 ≤ run.completed
  · simp only [hcompleted, true_and, if_true]
    exact mem_upsertReturning
  · simp only [hcompleted, false_and, or_false, if_false]

/-- Uploading changes what the URI of the run gets, and nothing else. -/
theorem getJson_buildChangesets (h : run.Uploads sh aoi w c) (uri : String) :
    getJson (buildChangesets sh aoi bucket w run).objects uri =
      if uri = objectUri bucket run.changeLayerKey then
        .ok (.changeLayer c.result.changeLayerGeojson)
      else getJson w.objects uri := by
  rw [buildChangesets_of_uploads h]
  exact getJson_set w.objects bucket (changesetObjectKey_ne_empty _ _ _ _ _ _ _)
    _ uri

theorem Placed.build (h : Placed w) :
    Placed (buildChangesets sh aoi bucket w run) := by
  intro row hrow
  rw [snapshots_buildChangesets] at hrow
  exact h row hrow

/-- A run keeps the snapshots and their documents. -/
theorem World.Holds.build (hplaced : Placed w) {snapshot : SnapshotRef}
    {geojson : ProcessedCollection J} (h : w.Holds snapshot geojson) :
    (buildChangesets sh aoi bucket w run).Holds snapshot geojson := by
  rcases h with ⟨row, hrow, hsnapshot, document, hdocument, hgeojson⟩
  refine ⟨row, ?_, hsnapshot, document, ?_, hgeojson⟩
  · rwa [snapshots_buildChangesets]
  · by_cases huploads : ∃ c, run.Uploads sh aoi w c
    · rcases huploads with ⟨c, huploads⟩
      obtain ⟨bucket', key, huri, hpre⟩ := hplaced row hrow
      rw [getJson_buildChangesets huploads, if_neg, hdocument]
      intro heq
      have hparts := bucketAndKey_objectUri bucket run.changeLayerKey
      rw [← heq, huri, bucketAndKey_objectUri] at hparts
      rw [(Prod.mk.inj hparts).2] at hpre
      exact not_prefix_changesetObjectKey _ _ _ _ _ _ _ hpre
    · rwa [buildChangesets_of_not_uploads (not_exists.mp huploads)]

/-- The columns of the row of a run count the features of its layer. -/
theorem count_row (h : run.Uploads sh aoi w c) (k : Classification) :
    (run.row bucket c).count k = layerCount c.result.changeLayerGeojson k := by
  obtain ⟨-, -, hresult⟩ := compareSnapshots_eq_ok h.1
  have hcounts := get?_counts_eq_layerCount hresult
  cases k <;>
    simp [ChangesetRow.count, ChangesetRun.row, changesetParams, hcounts]

end Run

section Agreement

variable {G J : Type} (sh : Shapely G J) (aoi : Aoi J) (hit : G → G → Bool)
  (bucket : Bucket)

/-- The layer of a row is the one that comparing its two snapshots computes, in
every process, and the row counts the features of that layer. -/
structure Agrees (w : World G J) (row : ChangesetRow) (c : Comparison J) :
    Prop where
  holdsA : w.Holds c.snapshotA c.geojsonA
  holdsB : w.Holds c.snapshotB c.geojsonB
  idA : c.snapshotA.id = row.snapshotAId
  idB : c.snapshotB.id = row.snapshotBId
  computed : ∀ rt, HitsBy hit rt →
    buildChangesetResult sh rt c.snapshotA c.snapshotB c.geojsonA c.geojsonB
      (some aoi.geometry) = .ok c.result
  layer : getJson w.objects row.changeLayerObjectUri =
    .ok (.changeLayer c.result.changeLayerGeojson)
  counts : ∀ k, row.count k = layerCount c.result.changeLayerGeojson k

/-- Every row agrees with its layer. -/
def AllAgree (w : World G J) : Prop :=
  ∀ row ∈ w.database.changesets.rows, ∃ c, Agrees sh aoi hit w row.2 c

variable {hit}

/-- If the run uploads, the changesets whose layer it replaces are of snapshots
with the documents that the run reads. -/
def SameDocuments (w : World G J) (run : ChangesetRun hit) : Prop :=
  ∀ c, run.Uploads sh aoi w c → ∀ row ∈ w.database.changesets.rows,
    row.2.changeLayerObjectUri = objectUri bucket run.changeLayerKey →
      (∃ snapshot, w.Holds snapshot c.geojsonA ∧
        snapshot.id = row.2.snapshotAId) ∧
      ∃ snapshot, w.Holds snapshot c.geojsonB ∧
        snapshot.id = row.2.snapshotBId

variable {sh aoi bucket} {w : World G J} {run : ChangesetRun hit}
  {c : Comparison J} {row : Nat × ChangesetRow}

/-- The row that a run adds agrees. -/
theorem agrees_of_uploads (hplaced : Placed w) (h : run.Uploads sh aoi w c) :
    Agrees sh aoi hit (buildChangesets sh aoi bucket w run) (run.row bucket c)
      c := by
  obtain ⟨hA, hB, hresult⟩ := compareSnapshots_eq_ok h.1
  refine ⟨hA.build hplaced, hB.build hplaced, rfl, rfl, ?_, ?_, count_row h⟩
  · intro rt hhits
    exact buildChangesetResult_of_perm run.hits hhits (List.Perm.refl _)
      (List.Perm.refl _) hresult
  · exact (getJson_buildChangesets h _).trans (if_pos rfl)

/-- A row that agrees still does after a run that replaces no layer of other
documents. -/
theorem Agrees.build {c' : Comparison J} (hplaced : Placed w)
    (h : Agrees sh aoi hit w row.2 c') (hrow : row ∈ w.database.changesets.rows)
    (hsame : SameDocuments sh aoi bucket w run) (huploads : run.Uploads sh aoi w c) :
    Agrees sh aoi hit (buildChangesets sh aoi bucket w run) row.2 c' := by
  refine ⟨h.holdsA.build hplaced, h.holdsB.build hplaced, h.idA, h.idB,
    h.computed, ?_, h.counts⟩
  rw [getJson_buildChangesets huploads]
  split
  · rename_i huri
    -- the run has compared the documents that the row was computed from
    obtain ⟨⟨snapshotA, hA, hidA⟩, snapshotB, hB, hidB⟩ :=
      hsame c huploads row hrow huri
    obtain ⟨-, hgeojsonA⟩ := h.holdsA.unique hA (h.idA.trans hidA.symm)
    obtain ⟨-, hgeojsonB⟩ := h.holdsB.unique hB (h.idB.trans hidB.symm)
    have hrow := h.computed run.rt run.hits
    obtain ⟨hcomp, -⟩ := buildChangesetResult_eq_ok_iff.mp hrow
    obtain ⟨-, -, hrun⟩ := compareSnapshots_eq_ok huploads.1
    have hrun := buildChangesetResult_of_comparable hrun hcomp
    rw [hgeojsonA, hgeojsonB] at hrow
    rw [Except.ok.inj (hrun.symm.trans hrow)]
  · exact h.layer

/-- The step lemma. -/
theorem allAgree_build (hplaced : Placed w) (h : AllAgree sh aoi hit w)
    (hsame : SameDocuments sh aoi bucket w run) :
    AllAgree sh aoi hit (buildChangesets sh aoi bucket w run) := by
  by_cases huploads : ∃ c, run.Uploads sh aoi w c
  · rcases huploads with ⟨c, huploads⟩
    intro row hrow
    rcases (mem_changesets_buildChangesets huploads).mp hrow with
      hrow | ⟨-, -, rfl⟩
    · obtain ⟨c', hagrees⟩ := h row hrow
      exact ⟨c', hagrees.build hplaced hrow hsame huploads⟩
    · exact ⟨c, agrees_of_uploads hplaced huploads⟩
  · rw [buildChangesets_of_not_uploads (not_exists.mp huploads)]
    exact h

theorem buildAll_nil (w : World G J) :
    buildAll sh aoi bucket w ([] : List (ChangesetRun hit)) = w := by
  rfl

theorem buildAll_append (w : World G J) (before : List (ChangesetRun hit))
    (run : ChangesetRun hit) :
    buildAll sh aoi bucket w (before ++ [run]) =
      buildChangesets sh aoi bucket (buildAll sh aoi bucket w before) run := by
  simp [buildAll, List.foldl_append]

/-- Rows, layers and published rows agree in every state of a history of runs
that replace no layer of other documents. -/
theorem changeset_agrees (sh : Shapely G J) (pg : PostGis G) (aoi : Aoi J)
    (bucket : Bucket) {w : World G J}
    (hempty : w.database.changesets.rows = []) (hplaced : Placed w)
    {runs : List (ChangesetRun hit)}
    (h : ∀ before run, before ++ [run] <+: runs →
      SameDocuments sh aoi bucket (buildAll sh aoi bucket w before) run) :
    ∀ history, history <+: runs →
      ∀ row ∈ (buildAll sh aoi bucket w history).database.changesets.rows,
        ∃ c, Agrees sh aoi hit (buildAll sh aoi bucket w history) row.2 c ∧
          ∀ db written db',
            publishChangeFeatures sh pg db row.1 row.2.snapshotAId
              row.2.snapshotBId c.result.changeLayerGeojson =
                .ok (written, db') →
            ∀ k, k ≠ .unchanged →
              (db'.changeRows row.1).countP
                (fun changed => changed.classification = k.value) =
                  row.2.count k := by
  have hall : ∀ history, history <+: runs →
      Placed (buildAll sh aoi bucket w history) ∧
        AllAgree sh aoi hit (buildAll sh aoi bucket w history) := by
    refine forall_prefix_of_step ?_ ?_ h
    · refine ⟨hplaced, ?_⟩
      intro row hrow
      rw [buildAll_nil, hempty] at hrow
      cases hrow
    · intro before run ih hsame
      rw [buildAll_append]
      exact ⟨ih.1.build, allAgree_build ih.1 ih.2 hsame⟩
  intro history hhistory row hrow
  obtain ⟨c, hagrees⟩ := (hall history hhistory).2 row hrow
  refine ⟨c, hagrees, ?_⟩
  intro db written db' hpublish k hk
  rw [countP_changeRows_publishChangeFeatures hpublish hk, hagrees.counts]

end Agreement

namespace Raster

/-- A complete ingestion run for any spelling of an instant. -/
def ingestRunAt (version requestedTimeStr : String)
    (features : List (RawFeature Raster)) : IngestRun Raster :=
  { ingestRun version features with requestedTimeStr := requestedTimeStr }

/-- Two versions of the snapshots of two instants.  The second version spells one
instant differently, and has one more building there. -/
def ingested : World Raster Raster :=
  let june := { raw "way/1" (polygon {(0, 0)}) with
    properties := some (Dict.ofList
      [("@osmId", "way/1"), ("@validFrom", "2026-06-01T00:00:00Z"),
        ("building", "yes")]) }
  ingestAll shapely aoi bucket Dict.empty
    [ingestRunAt "v1" "2026-06-01T00:00:00Z" [june],
      ingestRunAt "v1" "2026-07-01T00:00:00Z" [raw "way/1" (polygon {(0, 0)})],
      ingestRunAt "v2" "2026-06-01T00:00:00Z" [june],
      ingestRunAt "v2" "2026-7-01T00:00:00Z"
        [raw "way/1" (polygon {(0, 0)}), raw "way/2" (polygon {(5, 5)})]]

/-- A complete run that compares the two instants in one version. -/
def changesetRun (version : String) : ChangesetRun shapely.intersects where
  params :=
    { source := ingestionSource
      layer := ingestionLayer
      aoiId := "tel-aviv-yafo"
      aoiVersion := "v1"
      sourceQueryVersion := version }
  requestedTimeA := "2026-06-01T00:00:00Z"
  requestedTimeB := "2026-07-01T00:00:00Z"
  rt := exact
  hits := exactIndex
  completed := 2

end Raster

/-- Comparing one version twice replaces the layer by itself: the row agrees. -/
theorem changeset_agrees_again :
    ∃ row ∈ (buildAll Raster.shapely Raster.aoi Raster.bucket Raster.ingested
        [Raster.changesetRun "v1", Raster.changesetRun "v1"]).database.changesets.rows,
      row.2.unchangedCount = 1 ∧
      ∃ c, Agrees Raster.shapely Raster.aoi Raster.shapely.intersects
        (buildAll Raster.shapely Raster.aoi Raster.bucket Raster.ingested
          [Raster.changesetRun "v1", Raster.changesetRun "v1"]) row.2 c := by
  -- both runs compare the snapshots 1 and 2, of which the only row is
  have hworld : Raster.ingested.database.changesets.rows = [] ∧
      (∃ row ∈ (buildAll Raster.shapely Raster.aoi Raster.bucket Raster.ingested
        [Raster.changesetRun "v1", Raster.changesetRun "v1"]).database.changesets.rows,
        row.2.unchangedCount = 1) ∧
      ∀ n < 2,
        (∀ row ∈ (buildAll Raster.shapely Raster.aoi Raster.bucket Raster.ingested
            ([Raster.changesetRun "v1",
              Raster.changesetRun "v1"].take n)).database.changesets.rows,
          row.2.snapshotAId = 1 ∧ row.2.snapshotBId = 2) ∧
        (compareSnapshots Raster.shapely Raster.aoi (buildAll Raster.shapely
            Raster.aoi Raster.bucket Raster.ingested ([Raster.changesetRun "v1",
              Raster.changesetRun "v1"].take n))
          (Raster.changesetRun "v1")).toOption.map
            (fun c => (c.snapshotA.id, c.snapshotB.id)) = some (1, 2) := by
    decide +kernel
  obtain ⟨hempty, hrow, hids⟩ := hworld
  have hsame : ∀ before run,
      before ++ [run] <+: [Raster.changesetRun "v1", Raster.changesetRun "v1"] →
      SameDocuments Raster.shapely Raster.aoi Raster.bucket
        (buildAll Raster.shapely Raster.aoi Raster.bucket Raster.ingested before)
        run := by
    refine forall_step_iff.mpr ?_
    intro n hn c huploads row' hrow' _
    obtain ⟨hrows, hcompared⟩ := hids n hn
    have hrun : [Raster.changesetRun "v1", Raster.changesetRun "v1"][n] =
        Raster.changesetRun "v1" := by
      rcases List.mem_pair.mp (List.getElem_mem hn) with heq | heq
      · exact heq
      · exact heq
    rw [hrun] at huploads
    obtain ⟨hA, hB, -⟩ := compareSnapshots_eq_ok huploads.1
    rw [huploads.1] at hcompared
    obtain ⟨hidA, hidB⟩ := Prod.mk.inj (Option.some.inj hcompared)
    obtain ⟨hrowA, hrowB⟩ := hrows row' hrow'
    exact ⟨⟨_, hA, hidA.trans hrowA.symm⟩, _, hB, hidB.trans hrowB.symm⟩
  obtain ⟨row, hrow, hone⟩ := hrow
  obtain ⟨c, hagrees, -⟩ := changeset_agrees Raster.shapely Raster.postgis
    Raster.aoi Raster.bucket hempty (placed_ingestAll _ _ _ _ _) hsame _
    List.prefix_rfl row hrow
  exact ⟨row, hrow, hone, c, hagrees⟩

/-- The comparison of the second version replaces the layer of the first: the two
rows point to one layer and count differently. -/
theorem changeset_disagrees_versions :
    ¬ ∀ history, history <+: [Raster.changesetRun "v1", Raster.changesetRun "v2"] →
      AllAgree Raster.shapely Raster.aoi Raster.shapely.intersects
        (buildAll Raster.shapely Raster.aoi Raster.bucket Raster.ingested
          history) := by
  intro h
  have hrows : ∃ first ∈ (buildAll Raster.shapely Raster.aoi Raster.bucket
      Raster.ingested [Raster.changesetRun "v1",
        Raster.changesetRun "v2"]).database.changesets.rows,
      ∃ second ∈ (buildAll Raster.shapely Raster.aoi Raster.bucket
        Raster.ingested [Raster.changesetRun "v1",
          Raster.changesetRun "v2"]).database.changesets.rows,
      first.2.changeLayerObjectUri = second.2.changeLayerObjectUri ∧
      first.2.count .added = 0 ∧ second.2.count .added = 1 := by
    decide +kernel
  rcases hrows with ⟨first, hfirst, second, hsecond, huri, hzero, hone⟩
  obtain ⟨c, hc⟩ := h _ List.prefix_rfl first hfirst
  obtain ⟨c', hc'⟩ := h _ List.prefix_rfl second hsecond
  have hlayer := hc.layer
  rw [huri, hc'.layer] at hlayer
  rw [hc.counts, ← Document.changeLayer.inj (Except.ok.inj hlayer), ← hc'.counts,
    hone] at hzero
  exact absurd hzero (by decide)

end VectorMapChanges
