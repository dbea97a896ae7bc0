import VectorMapChanges.Dags.Common
import VectorMapChanges.Lib.History
import VectorMapChanges.Raster

/-!
# Ingesting snapshots

The object keys of a snapshot name its instant but not its
`source_query_version`, and putting replaces; the metadata row is keyed by both
and never replaced.  A row therefore keeps its objects only as long as every
later upload under its keys repeats them.

Main facts:
* `getJson_raw_ingest`, `getJson_processed_ingest`, `mem_snapshots_ingest`: what
  one run does to the store and to the table;
* `Creates.unique`, `Creates.row_eq`: a row has one creator, and is its row;
* `allIntact_append_iff`: when one run keeps all rows intact;
* `ingest_intact_iff`: rows keep the objects of the runs that created them exactly
  when every upload under the keys of an earlier row repeats its raw response.
-/

namespace VectorMapChanges

open Lib

/-- The parameters of the ingestion DAG. -/
structure IngestParams where
  aoiVersion : String
  sourceQueryVersion : String
deriving DecidableEq

section Task

variable {G J : Type} (sh : Shapely G J) (aoi : Aoi J)

/-- What a task computes before its first write. -/
def ingestResult (params : IngestParams) (requestedTimeStr : String)
    (response : Except PyError (RawCollection J)) :
    Except PyError (SnapshotResult J) := do
  if aoi.aoiVersion ≠ params.aoiVersion then
    .error (.valueError ("Requested aoi_version=" ++ reprStr params.aoiVersion ++
      " does not match committed AOI file's aoi_version=" ++
      reprStr aoi.aoiVersion))
  let requestedTime ← parseInstant requestedTimeStr
  buildSnapshot sh response aoi requestedTime params.sourceQueryVersion

/-- The metadata row of a snapshot. -/
def snapshotParams (result : SnapshotResult J)
    (rawUri processedUri : String) : SnapshotRow where
  source := result.source
  sourceQueryVersion := result.sourceQueryVersion
  layer := result.layer
  aoiId := result.aoiId
  aoiVersion := result.aoiVersion
  requestedTime := result.requestedTime
  crs := result.crs
  rawObjectUri := rawUri
  processedObjectUri := processedUri
  featureCount := result.featureCount
  invalidGeometryCount := result.invalidGeometryCount
  repairedGeometryCount := result.repairedGeometryCount

/-- Fetch one snapshot and persist it: the raw object, the processed object, and
the row. -/
def fetchAndPersistSnapshot (bucket : Bucket) (params : IngestParams)
    (requestedTimeStr : String) (response : Except PyError (RawCollection J)) :
    Except PyError (List (Write J)) := do
  let result ← ingestResult sh aoi params requestedTimeStr response
  let rawKey ← snapshotObjectKey result.source result.layer result.aoiId
    result.aoiVersion requestedTimeStr "raw"
  let processedKey ← snapshotObjectKey result.source result.layer result.aoiId
    result.aoiVersion requestedTimeStr "processed"
  pure
    [.putJson rawKey (.raw result.rawGeojson),
      .putJson processedKey (.processed result.processedGeojson),
      .upsertSnapshot (snapshotParams result (objectUri bucket rawKey)
        (objectUri bucket processedKey))]

/-- One run of the task: its inputs, what upstream answers, and how many of its
writes it completes. -/
structure IngestRun (J : Type) where
  params : IngestParams
  requestedTimeStr : String
  response : Except PyError (RawCollection J)
  completed : Nat

variable (bucket : Bucket)

/-- The world after one run. -/
def ingest (w : World G J) (run : IngestRun J) : World G J :=
  w.runTask bucket
    (fetchAndPersistSnapshot sh aoi bucket run.params run.requestedTimeStr
      run.response)
    run.completed

/-- The world after a history of runs over an empty database. -/
def ingestAll (objects : Objects J) (history : List (IngestRun J)) :
    World G J :=
  history.foldl (ingest sh aoi bucket) ⟨objects, .empty⟩

/-- The key of the object of the given kind for an instant. -/
def ingestKey (iso kind : String) : String :=
  snapshotKeyText ingestionSource ingestionLayer aoi.aoiId aoi.aoiVersion iso kind

/-- The URI of that object. -/
def ingestUri (iso kind : String) : String :=
  objectUri bucket (ingestKey aoi iso kind)

/-- The run uploads this snapshot, or at least its raw object. -/
def IngestRun.Uploads (run : IngestRun J) (result : SnapshotResult J) : Prop :=
  ingestResult sh aoi run.params run.requestedTimeStr run.response =
    .ok result ∧ 0 < run.completed

variable {sh aoi bucket}

/-- What a run uploads. -/
theorem ingestResult_eq_ok_iff {params : IngestParams}
    {requestedTimeStr : String} {response : Except PyError (RawCollection J)}
    {result : SnapshotResult J} :
    ingestResult sh aoi params requestedTimeStr response = .ok result ↔
      aoi.aoiVersion = params.aoiVersion ∧
      ∃ requestedTime rawGeojson,
        parseInstant requestedTimeStr = .ok requestedTime ∧
        response = .ok rawGeojson ∧
        buildSnapshotFromRaw sh rawGeojson aoi requestedTime
          params.sourceQueryVersion = .ok result := by
  unfold ingestResult buildSnapshot
  by_cases hversion : aoi.aoiVersion = params.aoiVersion
  · simp [hversion, bind_eq_ok]
  · simp [hversion, bind_eq_ok]

/-- Two runs for one instant text with one response upload the same documents. -/
theorem ingestResult_documents {params params' : IngestParams}
    {requestedTimeStr : String}
    {response response' : Except PyError (RawCollection J)}
    {result result' : SnapshotResult J}
    (h : ingestResult sh aoi params requestedTimeStr response = .ok result)
    (h' : ingestResult sh aoi params' requestedTimeStr response' = .ok result')
    (hraw : result.rawGeojson = result'.rawGeojson) :
    result.processedGeojson = result'.processedGeojson := by
  obtain ⟨-, time, raw, htime, -, hbuild⟩ := ingestResult_eq_ok_iff.mp h
  obtain ⟨-, time', raw', htime', -, hbuild'⟩ := ingestResult_eq_ok_iff.mp h'
  obtain rfl := Except.ok.inj (htime.symm.trans htime')
  obtain ⟨features, hfeatures, rfl⟩ := buildSnapshotFromRaw_eq_ok_iff.mp hbuild
  obtain ⟨features', hfeatures', rfl⟩ :=
    buildSnapshotFromRaw_eq_ok_iff.mp hbuild'
  obtain rfl : raw = raw' := hraw
  exact Except.ok.inj (hfeatures.symm.trans hfeatures')

/-- The documents and the row that a run uploads. -/
theorem result_fields {params : IngestParams} {requestedTimeStr : String}
    {response : Except PyError (RawCollection J)} {result : SnapshotResult J}
    (h : ingestResult sh aoi params requestedTimeStr response = .ok result) :
    (result.source = ingestionSource ∧ result.layer = ingestionLayer ∧
      result.aoiId = aoi.aoiId ∧ result.aoiVersion = aoi.aoiVersion) ∧
    result.sourceQueryVersion = params.sourceQueryVersion ∧
    parseInstant requestedTimeStr = .ok result.requestedTime ∧
    response = .ok result.rawGeojson := by
  obtain ⟨-, time, raw, htime, hresponse, hbuild⟩ :=
    ingestResult_eq_ok_iff.mp h
  obtain ⟨features, -, rfl⟩ := buildSnapshotFromRaw_eq_ok_iff.mp hbuild
  exact ⟨⟨rfl, rfl, rfl, rfl⟩, rfl, htime, hresponse⟩

variable {w : World G J} {run : IngestRun J} {result : SnapshotResult J}

/-- A run that stops before its first upload changes nothing. -/
theorem ingest_of_not_uploads (h : ∀ result, ¬ run.Uploads sh aoi result) :
    ingest sh aoi bucket w run = w := by
  apply runTask_of_stopped
  intro writes hwrites
  obtain ⟨result, hresult, -⟩ := bind_eq_ok.mp hwrites
  have hnot := h result
  rw [IngestRun.Uploads, hresult] at hnot
  simpa using hnot

/-- The row that a run upserts. -/
def IngestRun.row (run : IngestRun J) (aoi : Aoi J) (bucket : Bucket)
    (result : SnapshotResult J) : SnapshotRow :=
  snapshotParams result (ingestUri aoi bucket run.requestedTimeStr "raw")
    (ingestUri aoi bucket run.requestedTimeStr "processed")

/-- The writes of a run that uploads. -/
theorem fetchAndPersistSnapshot_of_uploads
    (h : run.Uploads sh aoi result) :
    fetchAndPersistSnapshot sh aoi bucket run.params run.requestedTimeStr
        run.response =
      .ok
        [.putJson (ingestKey aoi run.requestedTimeStr "raw")
            (.raw result.rawGeojson),
          .putJson (ingestKey aoi run.requestedTimeStr "processed")
            (.processed result.processedGeojson),
          .upsertSnapshot (run.row aoi bucket result)] := by
  obtain ⟨⟨hsource, hlayer, hid, hversion⟩, -⟩ := result_fields h.1
  unfold fetchAndPersistSnapshot
  rw [h.1, ok_bind, hsource, hlayer, hid, hversion]
  rfl

/-- The world after a run that uploads. -/
theorem ingest_of_uploads (h : run.Uploads sh aoi result) :
    ingest sh aoi bucket w run =
      { objects :=
          if 2 ≤ run.completed then
            (w.objects.set (bucket.name, ingestKey aoi run.requestedTimeStr "raw")
              (.raw result.rawGeojson)).set
              (bucket.name, ingestKey aoi run.requestedTimeStr "processed")
              (.processed result.processedGeojson)
          else
            w.objects.set (bucket.name, ingestKey aoi run.requestedTimeStr "raw")
              (.raw result.rawGeojson)
        database :=
          if 3 ≤ run.completed then
            (upsertSnapshot w.database (run.row aoi bucket result)).2
          else w.database } := by
  have hpos := h.2
  unfold ingest
  rw [fetchAndPersistSnapshot_of_uploads h]
  match hcompleted : run.completed, hpos with
  | 1, _ => rfl
  | 2, _ => rfl
  | n + 3, _ =>
      have htake : ∀ a b c : Write J, [a, b, c].take (n + 3) = [a, b, c] := by
        intro a b c
        simp
      simp only [World.runTask, htake]
      rw [if_pos (by omega), if_pos (by omega)]
      rfl

theorem ingestUri_inj {iso iso' kind : String} :
    ingestUri aoi bucket iso kind = ingestUri aoi bucket iso' kind ↔
      iso = iso' :=
  objectUri_inj.trans snapshotKeyText_inj

theorem ingestUri_raw_ne_processed {iso iso' : String} :
    ingestUri aoi bucket iso "raw" ≠ ingestUri aoi bucket iso' "processed" :=
  fun h => snapshotKeyText_raw_ne_processed (objectUri_inj.mp h)

theorem getJson_set_ingestKey (objects : Objects J) (iso kind : String)
    (data : Document J) (uri : String) :
    getJson (objects.set (bucket.name, ingestKey aoi iso kind) data) uri =
      if uri = ingestUri aoi bucket iso kind then .ok data
      else getJson objects uri :=
  getJson_set objects bucket (snapshotKeyText_ne_empty _ _ _ _ _ _) data uri

/-- Uploading changes the raw object of the instant of the run only. -/
theorem getJson_raw_ingest (h : run.Uploads sh aoi result) (iso : String) :
    getJson (ingest sh aoi bucket w run).objects (ingestUri aoi bucket iso "raw") =
      if iso = run.requestedTimeStr then .ok (.raw result.rawGeojson)
      else getJson w.objects (ingestUri aoi bucket iso "raw") := by
  have hset : getJson (w.objects.set
        (bucket.name, ingestKey aoi run.requestedTimeStr "raw")
        (.raw result.rawGeojson)) (ingestUri aoi bucket iso "raw") =
      if iso = run.requestedTimeStr then .ok (.raw result.rawGeojson)
      else getJson w.objects (ingestUri aoi bucket iso "raw") := by
    rw [getJson_set_ingestKey]
    exact if_congr ingestUri_inj rfl rfl
  rw [ingest_of_uploads h]
  by_cases hcompleted : 2 ≤ run.completed
  · simp only [if_pos hcompleted]
    rw [getJson_set_ingestKey, if_neg ingestUri_raw_ne_processed, hset]
  · simp only [if_neg hcompleted]
    exact hset

/-- The processed object follows once the run gets that far. -/
theorem getJson_processed_ingest (h : run.Uploads sh aoi result) (iso : String) :
    getJson (ingest sh aoi bucket w run).objects
        (ingestUri aoi bucket iso "processed") =
      if iso = run.requestedTimeStr ∧ 2 ≤ run.completed then
        .ok (.processed result.processedGeojson)
      else getJson w.objects (ingestUri aoi bucket iso "processed") := by
  have hraw : getJson (w.objects.set
        (bucket.name, ingestKey aoi run.requestedTimeStr "raw")
        (.raw result.rawGeojson)) (ingestUri aoi bucket iso "processed") =
      getJson w.objects (ingestUri aoi bucket iso "processed") := by
    rw [getJson_set_ingestKey]
    exact if_neg fun h => ingestUri_raw_ne_processed h.symm
  rw [ingest_of_uploads h]
  by_cases hcompleted : 2 ≤ run.completed
  · simp only [hcompleted, and_true, if_true]
    rw [getJson_set_ingestKey, hraw]
    exact if_congr ingestUri_inj rfl rfl
  · simp only [hcompleted, and_false, if_false]
    exact hraw

/-- A run keeps every row, and adds its own when it completes and its natural key
is new. -/
theorem mem_snapshots_ingest (h : run.Uploads sh aoi result)
    {row : Nat × SnapshotRow} :
    row ∈ (ingest sh aoi bucket w run).database.snapshots.rows ↔
      row ∈ w.database.snapshots.rows ∨ 3 ≤ run.completed ∧
        w.database.snapshots.get? (run.row aoi bucket result).naturalKey = none ∧
        row = (w.database.snapshots.nextId, run.row aoi bucket result) := by
  rw [ingest_of_uploads h]
  by_cases hcompleted : 3 ≤ run.completed
  · simp only [hcompleted, true_and, if_true]
    exact mem_upsertReturning
  · simp only [hcompleted, false_and, or_false, if_false]

/-- Rows stay. -/
theorem mem_snapshots_ingest_of_mem {row : Nat × SnapshotRow}
    (hrow : row ∈ w.database.snapshots.rows) :
    row ∈ (ingest sh aoi bucket w run).database.snapshots.rows := by
  by_cases h : ∃ result, run.Uploads sh aoi result
  · rcases h with ⟨result, h⟩
    exact (mem_snapshots_ingest h).mpr (Or.inl hrow)
  · rw [ingest_of_not_uploads (not_exists.mp h)]
    exact hrow

end Task

section Histories

variable {G J : Type} (sh : Shapely G J) (aoi : Aoi J) (bucket : Bucket)
  (objects : Objects J)

/-- The run of a history that created a row. -/
def Creates (history : List (IngestRun J)) (row : Nat × SnapshotRow)
    (before : List (IngestRun J)) (run : IngestRun J) : Prop :=
  Begins (fun h => row ∈
    (ingestAll sh aoi bucket objects h).database.snapshots.rows) history before run

/-- The objects of a row are those of the run that created it, and the row agrees
with them. -/
structure Intact (history : List (IngestRun J)) (row : Nat × SnapshotRow)
    (run : IngestRun J) (result : SnapshotResult J) : Prop where
  created : ∃ before, Creates sh aoi bucket objects history row before run
  ingested : ingestResult sh aoi run.params run.requestedTimeStr run.response =
    .ok result
  ownKey : naturalKey ⟨ingestionSource, ingestionLayer, aoi.aoiId,
      run.params.aoiVersion, run.params.sourceQueryVersion⟩
    run.requestedTimeStr = .ok row.2.naturalKey
  raw : getJson (ingestAll sh aoi bucket objects history).objects
    row.2.rawObjectUri = .ok (.raw result.rawGeojson)
  processed : getJson (ingestAll sh aoi bucket objects history).objects
    row.2.processedObjectUri = .ok (.processed result.processedGeojson)
  featureCount : row.2.featureCount = result.processedGeojson.length
  invalidCount : row.2.invalidGeometryCount =
    (result.processedGeojson.filter isInvalid).length
  repairedCount : row.2.repairedGeometryCount =
    (result.processedGeojson.filter isRepaired).length

/-- Every row is intact. -/
def AllIntact (history : List (IngestRun J)) : Prop :=
  ∀ row ∈ (ingestAll sh aoi bucket objects history).database.snapshots.rows,
    ∃ run result, Intact sh aoi bucket objects history row run result

/-- If the run uploads, it repeats the raw response that is stored under the keys
of every row for its instant. -/
def Repeats (w : World G J) (run : IngestRun J) : Prop :=
  ∀ result, run.Uploads sh aoi result → ∀ row ∈ w.database.snapshots.rows,
    row.2.rawObjectUri = ingestUri aoi bucket run.requestedTimeStr "raw" →
    ∀ raw, run.response = .ok raw →
      getJson w.objects row.2.rawObjectUri = .ok (.raw raw)

variable {sh aoi bucket objects} {history : List (IngestRun J)}
  {row : Nat × SnapshotRow}

theorem ingestAll_append (before : List (IngestRun J)) (run : IngestRun J) :
    ingestAll sh aoi bucket objects (before ++ [run]) =
      ingest sh aoi bucket (ingestAll sh aoi bucket objects before) run := by
  simp [ingestAll, List.foldl_append]

theorem mem_ingestAll_append {before : List (IngestRun J)} (run : IngestRun J)
    (h : row ∈
      (ingestAll sh aoi bucket objects before).database.snapshots.rows) :
    row ∈ (ingestAll sh aoi bucket objects
      (before ++ [run])).database.snapshots.rows := by
  rw [ingestAll_append]
  exact mem_snapshots_ingest_of_mem h

/-- Every row was created by one run. -/
theorem Creates.unique {before before' : List (IngestRun J)}
    {run run' : IngestRun J}
    (h : Creates sh aoi bucket objects history row before run)
    (h' : Creates sh aoi bucket objects history row before' run') :
    run = run' :=
  (Begins.unique (fun _ run => mem_ingestAll_append run) h h').2

/-- A run that creates a row uploads everything and writes that row. -/
theorem Creates.row_eq {before : List (IngestRun J)} {run : IngestRun J}
    (h : Creates sh aoi bucket objects history row before run) :
    ∃ result, run.Uploads sh aoi result ∧ 3 ≤ run.completed ∧
      row.2 = run.row aoi bucket result := by
  have hafter := h.holds
  have hbefore := h.not_before
  rw [ingestAll_append] at hafter
  by_cases huploads : ∃ result, run.Uploads sh aoi result
  · rcases huploads with ⟨result, huploads⟩
    rcases (mem_snapshots_ingest huploads).mp hafter with hrow | ⟨hthree, -, hrow⟩
    · exact absurd hrow hbefore
    · exact ⟨result, huploads, hthree, by rw [hrow]⟩
  · rw [ingest_of_not_uploads (not_exists.mp huploads)] at hafter
    exact absurd hafter hbefore

/-- A row agrees with the run that created it; what can go wrong later is only
that its objects are replaced. -/
theorem Creates.intact {before : List (IngestRun J)} {run : IngestRun J}
    {result : SnapshotResult J}
    (h : Creates sh aoi bucket objects history row before run)
    (huploads : run.Uploads sh aoi result)
    (hrow : row.2 = run.row aoi bucket result)
    (hraw : getJson (ingestAll sh aoi bucket objects history).objects
      row.2.rawObjectUri = .ok (.raw result.rawGeojson))
    (hprocessed : getJson (ingestAll sh aoi bucket objects history).objects
      row.2.processedObjectUri = .ok (.processed result.processedGeojson)) :
    Intact sh aoi bucket objects history row run result := by
  obtain ⟨haoi, time, raw, htime, -, hbuild⟩ :=
    ingestResult_eq_ok_iff.mp huploads.1
  obtain ⟨hcount, hinvalid, hrepaired⟩ := counts_of_buildSnapshotFromRaw hbuild
  refine ⟨⟨before, h⟩, huploads.1, ?_, hraw, hprocessed, ?_, ?_, ?_⟩
  · obtain ⟨features, -, rfl⟩ := buildSnapshotFromRaw_eq_ok_iff.mp hbuild
    rw [hrow, naturalKey, htime, ← haoi]
    rfl
  · rw [hrow]
    exact hcount
  · rw [hrow]
    exact hinvalid
  · rw [hrow]
    exact hrepaired

theorem Creates.mono {before : List (IngestRun J)} {run : IngestRun J}
    (h : Creates sh aoi bucket objects history row before run)
    (next : IngestRun J) :
    Creates sh aoi bucket objects (history ++ [next]) row before run :=
  Begins.mono h (List.prefix_append history [next])

/-- An intact row is the row that its creator uploaded. -/
theorem Intact.creator {creator : IngestRun J} {result : SnapshotResult J}
    (h : Intact sh aoi bucket objects history row creator result) :
    ∃ before, Creates sh aoi bucket objects history row before creator ∧
      creator.Uploads sh aoi result ∧ row.2 = creator.row aoi bucket result := by
  rcases h.created with ⟨before, hcreated⟩
  rcases hcreated.row_eq with ⟨result', huploads, -, hrow⟩
  obtain rfl := Except.ok.inj (h.ingested.symm.trans huploads.1)
  exact ⟨before, hcreated, huploads, hrow⟩

/-- Under the keys of an intact row, a run that repeats uploads the documents of
the row. -/
theorem Intact.same_documents {creator run : IngestRun J}
    {result uploaded : SnapshotResult J}
    (h : Intact sh aoi bucket objects history row creator result)
    (hrow : row ∈
      (ingestAll sh aoi bucket objects history).database.snapshots.rows)
    (hrepeats : Repeats sh aoi bucket
      (ingestAll sh aoi bucket objects history) run)
    (huploads : run.Uploads sh aoi uploaded)
    (hiso : creator.requestedTimeStr = run.requestedTimeStr) :
    uploaded.rawGeojson = result.rawGeojson ∧
      uploaded.processedGeojson = result.processedGeojson := by
  rcases h.creator with ⟨-, -, -, hrow'⟩
  obtain ⟨-, -, -, hresponse⟩ := result_fields huploads.1
  have huri : row.2.rawObjectUri =
      ingestUri aoi bucket run.requestedTimeStr "raw" := by
    rw [hrow', ← hiso]
    rfl
  have hstored := hrepeats uploaded huploads row hrow huri _ hresponse
  rw [h.raw] at hstored
  have hraw : uploaded.rawGeojson = result.rawGeojson :=
    (Document.raw.inj (Except.ok.inj hstored)).symm
  have hingested := h.ingested
  rw [hiso] at hingested
  exact ⟨hraw, ingestResult_documents huploads.1 hingested hraw⟩

/-- A run that repeats leaves an intact row intact. -/
theorem Intact.append {creator run : IngestRun J} {result : SnapshotResult J}
    (h : Intact sh aoi bucket objects history row creator result)
    (hrow : row ∈
      (ingestAll sh aoi bucket objects history).database.snapshots.rows)
    (hrepeats : Repeats sh aoi bucket
      (ingestAll sh aoi bucket objects history) run) :
    Intact sh aoi bucket objects (history ++ [run]) row creator result := by
  rcases h.creator with ⟨before, hcreated, hcreator, hrow'⟩
  have hraw := h.raw
  have hprocessed := h.processed
  by_cases huploads : ∃ result, run.Uploads sh aoi result
  · rcases huploads with ⟨uploaded, huploads⟩
    have hsame := h.same_documents hrow hrepeats huploads
    rw [hrow'] at hraw hprocessed
    refine (hcreated.mono run).intact hcreator hrow' ?_ ?_
    · rw [ingestAll_append, hrow']
      refine (getJson_raw_ingest huploads _).trans ?_
      split
      · rename_i hiso
        rw [(hsame hiso).1]
      · exact hraw
    · rw [ingestAll_append, hrow']
      refine (getJson_processed_ingest huploads _).trans ?_
      split
      · rename_i hiso
        rw [(hsame hiso.1).2]
      · exact hprocessed
  · have hsame : ingestAll sh aoi bucket objects (history ++ [run]) =
        ingestAll sh aoi bucket objects history := by
      rw [ingestAll_append, ingest_of_not_uploads (not_exists.mp huploads)]
    rw [← hsame] at hraw hprocessed
    exact (hcreated.mono run).intact hcreator hrow' hraw hprocessed

/-- The row that a run creates is intact. -/
theorem exists_intact_of_new {run : IngestRun J}
    (hnew : row ∉
      (ingestAll sh aoi bucket objects history).database.snapshots.rows)
    (hrow : row ∈ (ingestAll sh aoi bucket objects
      (history ++ [run])).database.snapshots.rows) :
    ∃ result,
      Intact sh aoi bucket objects (history ++ [run]) row run result := by
  have hcreated : Creates sh aoi bucket objects (history ++ [run]) row history
      run := ⟨List.prefix_rfl, hnew, hrow⟩
  rcases hcreated.row_eq with ⟨result, huploads, hthree, hrow'⟩
  refine ⟨result, hcreated.intact huploads hrow' ?_ ?_⟩
  · rw [hrow', ingestAll_append]
    exact (getJson_raw_ingest huploads _).trans (if_pos rfl)
  · rw [hrow', ingestAll_append]
    exact (getJson_processed_ingest huploads _).trans (if_pos ⟨rfl, by omega⟩)

/-- A run after which the rows are still intact repeats. -/
theorem repeats_of_allIntact {run : IngestRun J}
    (h : AllIntact sh aoi bucket objects history)
    (h' : AllIntact sh aoi bucket objects (history ++ [run])) :
    Repeats sh aoi bucket (ingestAll sh aoi bucket objects history) run := by
  intro uploaded huploads row hrow huri raw hraw
  obtain ⟨creator, result, hbefore⟩ := h row hrow
  obtain ⟨creator', result', hafter⟩ := h' row (mem_ingestAll_append run hrow)
  -- both are the run that created the row
  rcases hbefore.created with ⟨b, hcreated⟩
  rcases hafter.created with ⟨b', hcreated'⟩
  obtain rfl := Creates.unique (hcreated.mono run) hcreated'
  obtain rfl := Except.ok.inj (hbefore.ingested.symm.trans hafter.ingested)
  have hnow := hafter.raw
  rw [ingestAll_append, huri, getJson_raw_ingest huploads, if_pos rfl] at hnow
  obtain ⟨-, -, -, hresponse⟩ := result_fields huploads.1
  rw [hresponse] at hraw
  rw [hbefore.raw, ← Except.ok.inj hnow, Except.ok.inj hraw]

/-- The step lemma. -/
theorem allIntact_append_iff {run : IngestRun J}
    (h : AllIntact sh aoi bucket objects history) :
    AllIntact sh aoi bucket objects (history ++ [run]) ↔
      Repeats sh aoi bucket (ingestAll sh aoi bucket objects history) run := by
  constructor
  · exact repeats_of_allIntact h
  · intro hrepeats row hrow
    by_cases hold : row ∈
        (ingestAll sh aoi bucket objects history).database.snapshots.rows
    · obtain ⟨creator, result, hbefore⟩ := h row hold
      exact ⟨creator, result, hbefore.append hold hrepeats⟩
    · exact ⟨run, exists_intact_of_new hold hrow⟩

/-- The rows are intact in every state of a history exactly when every run that
uploads under the keys of an earlier row repeats the raw response stored there. -/
theorem ingest_intact_iff (sh : Shapely G J) (aoi : Aoi J) (bucket : Bucket)
    (objects : Objects J) (runs : List (IngestRun J)) :
    (∀ history, history <+: runs →
      AllIntact sh aoi bucket objects history) ↔
    ∀ before run, before ++ [run] <+: runs →
      Repeats sh aoi bucket (ingestAll sh aoi bucket objects before) run := by
  refine forall_prefix_iff ?_ (fun _ _ => allIntact_append_iff) runs
  intro row hrow
  simp [ingestAll, Database.empty, KeyedTable.empty, SerialTable.empty] at hrow

end Histories

/-- The bucket of the samples. -/
def Raster.bucket : Bucket where
  name := "gis-vector-map-changes"
  noSlash := by decide

/-- A complete run for the instant of the samples. -/
def Raster.ingestRun (version : String) (features : List (RawFeature Raster)) :
    IngestRun Raster where
  params := { aoiVersion := "v1", sourceQueryVersion := version }
  requestedTimeStr := "2026-07-01T00:00:00Z"
  response := .ok { features := features, members := Dict.empty }
  completed := 3

/-- Two versions of one instant; for the second, upstream returns one more
building. -/
def Raster.twoVersions : List (IngestRun Raster) :=
  [Raster.ingestRun "v1" [Raster.raw "way/1" (Raster.polygon {(0, 0)})],
    Raster.ingestRun "v2" [Raster.raw "way/1" (Raster.polygon {(0, 0)}),
      Raster.raw "way/2" (Raster.polygon {(5, 5)})]]

/-- The row of the first version still counts one feature, and its object is that
of the second version. -/
theorem ingest_not_intact_versions :
    ¬ ∀ history, history <+: Raster.twoVersions →
      AllIntact Raster.shapely Raster.aoi Raster.bucket Dict.empty history := by
  intro h
  have hstored : ∃ row ∈ (ingestAll Raster.shapely Raster.aoi Raster.bucket
      Dict.empty Raster.twoVersions).database.snapshots.rows,
      row.2.featureCount = 1 ∧
      ((getJson (ingestAll Raster.shapely Raster.aoi Raster.bucket Dict.empty
          Raster.twoVersions).objects row.2.processedObjectUri).toOption.map
        (fun document => document.asProcessed.length)) = some 2 := by
    decide +kernel
  rcases hstored with ⟨row, hrow, hone, htwo⟩
  obtain ⟨run, result, hintact⟩ := h _ List.prefix_rfl row hrow
  rw [hintact.processed] at htwo
  have hlength : result.processedGeojson.length = 2 := Option.some.inj htwo
  have hcount := hintact.featureCount
  omega

end VectorMapChanges
