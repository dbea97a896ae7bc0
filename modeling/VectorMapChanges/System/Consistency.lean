import VectorMapChanges.System.Runs

/-!
# Consistency of the layers

The documents are the store of record, the metadata rows describe them, and the
serving tables are derived from both.  Uploads replace, so that the layers agree only
along series of tasks whose ingestions repeat the raw documents that are stored under
their keys, and whose comparisons replace no layer of other documents.

Main facts:
* `keepsDocuments_after`: such a task keeps every document that a row refers to;
* `Documented.after`, `Derived.after`: the step lemmas;
* `served_consistent`: in every state, what is served of a snapshot or changeset is
  nothing, or what its documents say, as many rows as its metadata counts.
-/

namespace VectorMapChanges

open Lib

section Documents

variable {G J : Type} (sh : Shapely G J) (aoi : Aoi J) (bucket : Bucket)
  (hit : G → G → Bool)

/-- The documents of a snapshot row are those that its ingestion uploaded. -/
def Ingested (w : World G J) (row : SnapshotRow) : Prop :=
  ∃ (run : IngestRun J) (result : SnapshotResult J),
    ingestResult sh aoi run.params run.requestedTimeStr run.response = .ok result ∧
    row = run.row aoi bucket result ∧
    getJson w.objects row.rawObjectUri = .ok (.raw result.rawGeojson) ∧
    getJson w.objects row.processedObjectUri =
      .ok (.processed result.processedGeojson)

/-- Every row has its documents. -/
structure Documented (w : World G J) : Prop where
  ingested : ∀ row ∈ w.database.snapshots.rows, Ingested sh aoi bucket w row.2
  placed : ∀ row ∈ w.database.changesets.rows, ∃ run : ChangesetRun hit,
    row.2.changeLayerObjectUri = objectUri bucket run.changeLayerKey
  compared : AllAgree sh aoi hit w

variable {hit}

/-- The task uploads no other documents than those that the rows refer to. -/
def Repeating (w : World G J) : TaskRun J hit → Prop
  | .ingest run => Repeats sh aoi bucket w run
  | .build run => SameDocuments sh aoi bucket w run
  | .publishSnapshot _ _ => True
  | .publishChangeset _ _ => True

/-- The rows are still there, and so are the documents that they refer to. -/
structure KeepsDocuments (w w' : World G J) : Prop where
  snapshots : ∀ row ∈ w.database.snapshots.rows, row ∈ w'.database.snapshots.rows
  raw : ∀ row ∈ w.database.snapshots.rows,
    getJson w'.objects row.2.rawObjectUri = getJson w.objects row.2.rawObjectUri
  processed : ∀ row ∈ w.database.snapshots.rows,
    getJson w'.objects row.2.processedObjectUri =
      getJson w.objects row.2.processedObjectUri
  layer : ∀ row ∈ w.database.changesets.rows,
    getJson w'.objects row.2.changeLayerObjectUri =
      getJson w.objects row.2.changeLayerObjectUri

variable {sh aoi bucket} {w w' : World G J}

theorem changeLayerUri_ne_ingestUri (run : ChangesetRun hit) (iso kind : String) :
    objectUri bucket run.changeLayerKey ≠ ingestUri aoi bucket iso kind := by
  intro h
  have hkey := objectUri_inj.mp h
  apply not_prefix_changesetObjectKey run.params.source run.params.layer
    run.params.aoiId run.params.aoiVersion algorithmVersion run.requestedTimeA
    run.requestedTimeB
  unfold ChangesetRun.changeLayerKey at hkey
  rw [hkey]
  exact prefix_snapshotKeyText _ _ _ _ _ _

/-- An ingestion uploads under the keys of snapshots only. -/
theorem getJson_ingest_of_ne {run : IngestRun J} {uri : String}
    (h : ∀ iso kind, uri ≠ ingestUri aoi bucket iso kind) :
    getJson (ingest sh aoi bucket w run).objects uri = getJson w.objects uri := by
  by_cases huploads : ∃ result, run.Uploads sh aoi result
  · obtain ⟨result, huploads⟩ := huploads
    rw [ingest_of_uploads huploads]
    by_cases hcompleted : 2 ≤ run.completed
    · simp only [if_pos hcompleted]
      rw [getJson_set_ingestKey, if_neg (h _ _), getJson_set_ingestKey,
        if_neg (h _ _)]
    · simp only [if_neg hcompleted]
      rw [getJson_set_ingestKey, if_neg (h _ _)]
  · rw [ingest_of_not_uploads (not_exists.mp huploads)]

/-- It leaves the other tables. -/
theorem changesets_ingest {run : IngestRun J} :
    (ingest sh aoi bucket w run).database.changesets = w.database.changesets := by
  by_cases huploads : ∃ result, run.Uploads sh aoi result
  · obtain ⟨result, huploads⟩ := huploads
    rw [ingest_of_uploads huploads]
    by_cases hcompleted : 3 ≤ run.completed
    · rw [if_pos hcompleted]
      rfl
    · rw [if_neg hcompleted]
  · rw [ingest_of_not_uploads (not_exists.mp huploads)]

/-- It serves nothing. -/
theorem servingTables_ingest (sh : Shapely G J) (aoi : Aoi J) (bucket : Bucket)
    (w : World G J) (run : IngestRun J) :
    (ingest sh aoi bucket w run).database.snapshotFeatures =
        w.database.snapshotFeatures ∧
      (ingest sh aoi bucket w run).database.changeFeatures =
        w.database.changeFeatures := by
  by_cases huploads : ∃ result, run.Uploads sh aoi result
  · obtain ⟨result, huploads⟩ := huploads
    rw [ingest_of_uploads huploads]
    by_cases hcompleted : 3 ≤ run.completed
    · rw [if_pos hcompleted]
      exact ⟨rfl, rfl⟩
    · rw [if_neg hcompleted]
      exact ⟨rfl, rfl⟩
  · rw [ingest_of_not_uploads (not_exists.mp huploads)]
    exact ⟨rfl, rfl⟩

/-- A comparison serves nothing. -/
theorem servingTables_build (sh : Shapely G J) (aoi : Aoi J) (bucket : Bucket)
    (w : World G J) (run : ChangesetRun hit) :
    (buildChangesets sh aoi bucket w run).database.snapshotFeatures =
        w.database.snapshotFeatures ∧
      (buildChangesets sh aoi bucket w run).database.changeFeatures =
        w.database.changeFeatures := by
  by_cases huploads : ∃ c, run.Uploads sh aoi w c
  · obtain ⟨c, huploads⟩ := huploads
    rw [buildChangesets_of_uploads huploads]
    by_cases hcompleted : 2 ≤ run.completed
    · rw [if_pos hcompleted]
      exact ⟨rfl, rfl⟩
    · rw [if_neg hcompleted]
      exact ⟨rfl, rfl⟩
  · rw [buildChangesets_of_not_uploads (not_exists.mp huploads)]
    exact ⟨rfl, rfl⟩

/-- A comparison uploads under the keys of change layers only. -/
theorem getJson_buildChangesets_of_ne {run : ChangesetRun hit} {iso kind : String} :
    getJson (buildChangesets sh aoi bucket w run).objects
        (ingestUri aoi bucket iso kind) =
      getJson w.objects (ingestUri aoi bucket iso kind) := by
  by_cases huploads : ∃ c, run.Uploads sh aoi w c
  · obtain ⟨c, huploads⟩ := huploads
    rw [getJson_buildChangesets huploads,
      if_neg (changeLayerUri_ne_ingestUri run iso kind).symm]
  · rw [buildChangesets_of_not_uploads (not_exists.mp huploads)]

/-- An ingestion that repeats the raw document of a row repeats the processed one
too. -/
theorem getJson_ingest_of_repeats {run : IngestRun J}
    (hrepeats : Repeats sh aoi bucket w run) {row : Nat × SnapshotRow}
    (hrow : row ∈ w.database.snapshots.rows)
    (hingested : Ingested sh aoi bucket w row.2) :
    getJson (ingest sh aoi bucket w run).objects row.2.rawObjectUri =
        getJson w.objects row.2.rawObjectUri ∧
      getJson (ingest sh aoi bucket w run).objects row.2.processedObjectUri =
        getJson w.objects row.2.processedObjectUri := by
  by_cases huploads : ∃ result, run.Uploads sh aoi result
  · obtain ⟨result, huploads⟩ := huploads
    obtain ⟨creator, stored, hstored, hfields, hraw, hprocessed⟩ := hingested
    have hrawUri : row.2.rawObjectUri =
        ingestUri aoi bucket creator.requestedTimeStr "raw" := by
      rw [hfields]
      rfl
    have hprocessedUri : row.2.processedObjectUri =
        ingestUri aoi bucket creator.requestedTimeStr "processed" := by
      rw [hfields]
      rfl
    have hrawIngest : getJson (ingest sh aoi bucket w run).objects
        (ingestUri aoi bucket creator.requestedTimeStr "raw") = _ :=
      getJson_raw_ingest huploads creator.requestedTimeStr
    have hprocessedIngest : getJson (ingest sh aoi bucket w run).objects
        (ingestUri aoi bucket creator.requestedTimeStr "processed") = _ :=
      getJson_processed_ingest huploads creator.requestedTimeStr
    rw [← hrawUri] at hrawIngest
    rw [← hprocessedUri] at hprocessedIngest
    rw [hrawIngest, hprocessedIngest]
    by_cases hiso : creator.requestedTimeStr = run.requestedTimeStr
    · have hsame : stored.rawGeojson = result.rawGeojson := by
        have huri : row.2.rawObjectUri =
            ingestUri aoi bucket run.requestedTimeStr "raw" := by
          rw [hrawUri, hiso]
        have hresponse := (result_fields huploads.1).2.2.2
        have hread := hrepeats result huploads row hrow huri _ hresponse
        exact Document.raw.inj (Except.ok.inj (hraw.symm.trans hread))
      rw [hiso] at hstored
      have hdocuments := ingestResult_documents hstored huploads.1 hsame
      refine ⟨?_, ?_⟩
      · rw [if_pos hiso, hraw, hsame]
      · by_cases hcompleted : 2 ≤ run.completed
        · rw [if_pos ⟨hiso, hcompleted⟩, hprocessed, hdocuments]
        · rw [if_neg (fun h => hcompleted h.2)]
    · rw [if_neg hiso, if_neg (fun h => hiso h.1)]
      exact ⟨rfl, rfl⟩
  · rw [ingest_of_not_uploads (not_exists.mp huploads)]
    exact ⟨rfl, rfl⟩

/-- A comparison that replaces no layer of other documents replaces a layer by
itself. -/
theorem getJson_buildChangesets_of_sameDocuments {run : ChangesetRun hit}
    (hsame : SameDocuments sh aoi bucket w run) (hplaced : Placed w)
    {row : Nat × ChangesetRow} (hrow : row ∈ w.database.changesets.rows)
    (hagrees : ∃ c, Agrees sh aoi hit w row.2 c) :
    getJson (buildChangesets sh aoi bucket w run).objects
        row.2.changeLayerObjectUri =
      getJson w.objects row.2.changeLayerObjectUri := by
  by_cases huploads : ∃ c, run.Uploads sh aoi w c
  · obtain ⟨c, huploads⟩ := huploads
    obtain ⟨stored, hagrees⟩ := hagrees
    rw [(hagrees.build hplaced hrow hsame huploads).layer, hagrees.layer]
  · rw [buildChangesets_of_not_uploads (not_exists.mp huploads)]

variable {pg : PostGis G}

/-- A publication uploads nothing. -/
theorem sameSources_commit_publishSnapshot (sh : Shapely G J) (pg : PostGis G)
    (w : World G J) (params : PublishParams) (requestedTimeStr : String) :
    SameSources w (w.commit (publishSnapshot sh pg params w requestedTimeStr)) := by
  cases h : publishSnapshot sh pg params w requestedTimeStr with
  | error e => exact .refl w
  | ok result =>
      obtain ⟨_, _, heffect, -⟩ := exists_snapshotEffect h
      exact heffect.sources

theorem sameSources_commit_publishChangeset (sh : Shapely G J) (pg : PostGis G)
    (w : World G J) (params : PublishParams) (pair : ComparisonPair) :
    SameSources w (w.commit (publishChangeset sh pg params w pair)) := by
  cases h : publishChangeset sh pg params w pair with
  | error e => exact .refl w
  | ok result =>
      obtain ⟨_, _, _, _, heffect, -⟩ := exists_changesetEffect h
      exact heffect.sources

theorem Documented.placedSnapshots (h : Documented sh aoi bucket hit w) :
    Placed w := by
  intro row hrow
  obtain ⟨run, result, -, hfields, -⟩ := h.ingested row hrow
  refine ⟨bucket, ingestKey aoi run.requestedTimeStr "processed", ?_,
    prefix_snapshotKeyText _ _ _ _ _ _⟩
  rw [hfields]
  rfl

/-- A task that repeats the documents of the rows keeps them. -/
theorem keepsDocuments_after (pg : PostGis G) (h : Documented sh aoi bucket hit w)
    {task : TaskRun J hit} (hrepeating : Repeating sh aoi bucket w task) :
    KeepsDocuments w (w.after sh pg aoi bucket task) := by
  have hsnapshots := (databaseStep_after sh pg aoi bucket w task).grows.snapshots
  cases task with
  | ingest run =>
      refine ⟨hsnapshots, ?_, ?_, ?_⟩
      · intro row hrow
        exact (getJson_ingest_of_repeats hrepeating hrow (h.ingested row hrow)).1
      · intro row hrow
        exact (getJson_ingest_of_repeats hrepeating hrow (h.ingested row hrow)).2
      · intro row hrow
        obtain ⟨placed, huri⟩ := h.placed row hrow
        rw [huri]
        exact getJson_ingest_of_ne (changeLayerUri_ne_ingestUri placed)
  | build run =>
      refine ⟨hsnapshots, ?_, ?_, ?_⟩
      · intro row hrow
        obtain ⟨_, _, -, hfields, -⟩ := h.ingested row hrow
        rw [hfields]
        exact getJson_buildChangesets_of_ne
      · intro row hrow
        obtain ⟨_, _, -, hfields, -⟩ := h.ingested row hrow
        rw [hfields]
        exact getJson_buildChangesets_of_ne
      · intro row hrow
        exact getJson_buildChangesets_of_sameDocuments hrepeating h.placedSnapshots
          hrow (h.compared row hrow)
  | publishSnapshot params requestedTimeStr =>
      have hobjects := (sameSources_commit_publishSnapshot sh pg w params
        requestedTimeStr).objects
      refine ⟨hsnapshots, ?_, ?_, ?_⟩
      all_goals
        intro row _
        exact congrArg (getJson · _) hobjects
  | publishChangeset params pair =>
      have hobjects := (sameSources_commit_publishChangeset sh pg w params pair).objects
      refine ⟨hsnapshots, ?_, ?_, ?_⟩
      all_goals
        intro row _
        exact congrArg (getJson · _) hobjects

/-- The documents of a row, if they are kept. -/
theorem KeepsDocuments.ingested (h : KeepsDocuments w w') {row : Nat × SnapshotRow}
    (hrow : row ∈ w.database.snapshots.rows)
    (hingested : Ingested sh aoi bucket w row.2) :
    Ingested sh aoi bucket w' row.2 := by
  obtain ⟨run, result, hresult, hfields, hraw, hprocessed⟩ := hingested
  exact ⟨run, result, hresult, hfields, (h.raw row hrow).trans hraw,
    (h.processed row hrow).trans hprocessed⟩

theorem KeepsDocuments.holds (h : KeepsDocuments w w') {snapshot : SnapshotRef}
    {geojson : ProcessedCollection J} (hholds : w.Holds snapshot geojson) :
    w'.Holds snapshot geojson := by
  obtain ⟨row, hrow, hsnapshot, document, hdocument, hgeojson⟩ := hholds
  exact ⟨row, h.snapshots row hrow, hsnapshot, document,
    (h.processed row hrow).trans hdocument, hgeojson⟩

theorem KeepsDocuments.agrees (h : KeepsDocuments w w') {row : Nat × ChangesetRow}
    (hrow : row ∈ w.database.changesets.rows) {c : Comparison J}
    (hagrees : Agrees sh aoi hit w row.2 c) :
    Agrees sh aoi hit w' row.2 c :=
  { hagrees with
    holdsA := h.holds hagrees.holdsA
    holdsB := h.holds hagrees.holdsB
    layer := (h.layer row hrow).trans hagrees.layer }

/-- Rows that were there before still have their documents. -/
theorem Documented.of_keeps (h : Documented sh aoi bucket hit w)
    (hkeeps : KeepsDocuments w w')
    (hsnapshots : ∀ row ∈ w'.database.snapshots.rows,
      row ∈ w.database.snapshots.rows ∨ Ingested sh aoi bucket w' row.2)
    (hchangesets : ∀ row ∈ w'.database.changesets.rows,
      row ∈ w.database.changesets.rows ∨
        (∃ run : ChangesetRun hit,
          row.2.changeLayerObjectUri = objectUri bucket run.changeLayerKey) ∧
        ∃ c, Agrees sh aoi hit w' row.2 c) :
    Documented sh aoi bucket hit w' := by
  refine ⟨?_, ?_, ?_⟩
  · intro row hrow
    rcases hsnapshots row hrow with hrow | hnew
    · exact hkeeps.ingested hrow (h.ingested row hrow)
    · exact hnew
  · intro row hrow
    rcases hchangesets row hrow with hrow | hnew
    · exact h.placed row hrow
    · exact hnew.1
  · intro row hrow
    rcases hchangesets row hrow with hrow | hnew
    · obtain ⟨c, hagrees⟩ := h.compared row hrow
      exact ⟨c, hkeeps.agrees hrow hagrees⟩
    · exact hnew.2

/-- The row that an ingestion adds has its documents. -/
theorem ingested_of_creates {run : IngestRun J} {result : SnapshotResult J}
    (huploads : run.Uploads sh aoi result) (hcompleted : 3 ≤ run.completed) :
    Ingested sh aoi bucket (ingest sh aoi bucket w run) (run.row aoi bucket result) := by
  refine ⟨run, result, huploads.1, rfl, ?_, ?_⟩
  · exact (getJson_raw_ingest huploads _).trans (if_pos rfl)
  · have htwo : 2 ≤ run.completed := by
      omega
    exact (getJson_processed_ingest huploads _).trans (if_pos ⟨rfl, htwo⟩)

/-- The step lemma. -/
theorem Documented.after (h : Documented sh aoi bucket hit w) {task : TaskRun J hit}
    (hrepeating : Repeating sh aoi bucket w task) :
    Documented sh aoi bucket hit (w.after sh pg aoi bucket task) := by
  have hkeeps := keepsDocuments_after pg h hrepeating
  cases task with
  | ingest run =>
      change KeepsDocuments w (ingest sh aoi bucket w run) at hkeeps
      change Documented sh aoi bucket hit (ingest sh aoi bucket w run)
      by_cases huploads : ∃ result, run.Uploads sh aoi result
      · obtain ⟨result, huploads⟩ := huploads
        refine h.of_keeps hkeeps ?_ ?_
        · intro row hrow
          refine ((mem_snapshots_ingest huploads).mp hrow).imp_right ?_
          rintro ⟨hcompleted, -, rfl⟩
          exact ingested_of_creates huploads hcompleted
        · intro row hrow
          rw [changesets_ingest] at hrow
          exact Or.inl hrow
      · rw [ingest_of_not_uploads (not_exists.mp huploads)]
        exact h
  | build run =>
      change KeepsDocuments w (buildChangesets sh aoi bucket w run) at hkeeps
      change Documented sh aoi bucket hit (buildChangesets sh aoi bucket w run)
      by_cases huploads : ∃ c, run.Uploads sh aoi w c
      · obtain ⟨c, huploads⟩ := huploads
        refine h.of_keeps hkeeps ?_ ?_
        · intro row hrow
          rw [snapshots_buildChangesets] at hrow
          exact Or.inl hrow
        · intro row hrow
          refine ((mem_changesets_buildChangesets huploads).mp hrow).imp_right ?_
          rintro ⟨-, -, rfl⟩
          exact ⟨⟨run, rfl⟩, c, agrees_of_uploads h.placedSnapshots huploads⟩
      · rw [buildChangesets_of_not_uploads (not_exists.mp huploads)]
        exact h
  | publishSnapshot params requestedTimeStr =>
      have hsame := sameSources_commit_publishSnapshot sh pg w params requestedTimeStr
      refine h.of_keeps hkeeps (fun row hrow => Or.inl ?_) (fun row hrow => Or.inl ?_)
      · exact hsame.snapshots ▸ hrow
      · exact hsame.changesets ▸ hrow
  | publishChangeset params pair =>
      have hsame := sameSources_commit_publishChangeset sh pg w params pair
      refine h.of_keeps hkeeps (fun row hrow => Or.inl ?_) (fun row hrow => Or.inl ?_)
      · exact hsame.snapshots ▸ hrow
      · exact hsame.changesets ▸ hrow

end Documents

section Serving

variable {G J : Type} (sh : Shapely G J) (pg : PostGis G)

/-- What is served of a snapshot or changeset is nothing, or what its documents
say. -/
structure Derived (w : World G J) : Prop where
  features : ∀ row ∈ w.database.snapshots.rows,
    w.database.featureRows row.1 = [] ∨
    ∃ document, getJson w.objects row.2.processedObjectUri = .ok document ∧
      snapshotRows sh pg row.1 document.asProcessed =
        .ok (w.database.featureRows row.1)
  changes : ∀ row ∈ w.database.changesets.rows,
    w.database.changeRows row.1 = [] ∨
    ∃ document, getJson w.objects row.2.changeLayerObjectUri = .ok document ∧
      changesetRows sh pg w.database row.1 row.2.snapshotAId row.2.snapshotBId
        document.asChangeLayer = .ok (w.database.changeRows row.1)

variable {sh pg} {w w' : World G J}

/-- Rows are computed for a changeset of published snapshots only. -/
theorem featureRows_ne_nil_of_changesetRows {db : Database G}
    {changesetId snapshotAId snapshotBId : Nat} {layer : ChangeLayer J}
    {rows : List (ChangeFeatureRow G)}
    (h : changesetRows sh pg db changesetId snapshotAId snapshotBId layer =
      .ok rows) :
    db.featureRows snapshotAId ≠ [] ∧ db.featureRows snapshotBId ≠ [] := by
  obtain ⟨features, -, h⟩ := bind_eq_ok.mp h
  obtain ⟨_, hA, h⟩ := bind_eq_ok.mp h
  obtain ⟨_, hB, -⟩ := bind_eq_ok.mp h
  exact ⟨requirePublishedSnapshot_iff_featureRows.mp hA,
    requirePublishedSnapshot_iff_featureRows.mp hB⟩

/-- Nothing is served under an id that no row has. -/
theorem Referential.featureRows_eq_nil {db : Database G} (h : Referential db)
    {id : Nat} (hid : ¬ db.snapshots.HasId id) : db.featureRows id = [] := by
  rw [Database.featureRows, List.filter_eq_nil_iff]
  intro value hvalue heq
  obtain ⟨row, hrow, rfl⟩ := List.mem_map.mp hvalue
  rw [decide_eq_true_iff] at heq
  have hlinked := h.features row hrow
  rw [heq] at hlinked
  exact hid hlinked

theorem Referential.changeRows_eq_nil {db : Database G} (h : Referential db)
    {id : Nat} (hid : ¬ db.changesets.HasId id) : db.changeRows id = [] := by
  rw [Database.changeRows, List.filter_eq_nil_iff]
  intro value hvalue heq
  obtain ⟨row, hrow, rfl⟩ := List.mem_map.mp hvalue
  rw [decide_eq_true_iff] at heq
  have hlinked := h.changes row hrow
  rw [heq] at hlinked
  exact hid hlinked

/-- The id that a table hands out next stands for no row. -/
theorem not_hasId_nextId {ρ : Type} (t : SerialTable ρ) : ¬ t.HasId t.nextId := by
  intro h
  obtain ⟨row, hrow, hid⟩ := List.mem_map.mp h
  have hlt := t.ids_lt row hrow
  omega

/-- Rows of metadata and documents come and go without harm: the serving tables are
the same, and the rows from before still have their documents. -/
theorem Derived.of_keeps (h : Derived sh pg w) (href : Referential w.database)
    (hkeeps : KeepsDocuments w w')
    (hfeatures : w'.database.snapshotFeatures = w.database.snapshotFeatures)
    (hchanges : w'.database.changeFeatures = w.database.changeFeatures)
    (hsnapshots : ∀ row ∈ w'.database.snapshots.rows,
      row ∈ w.database.snapshots.rows ∨ ¬ w.database.snapshots.HasId row.1)
    (hchangesets : ∀ row ∈ w'.database.changesets.rows,
      row ∈ w.database.changesets.rows ∨ ¬ w.database.changesets.HasId row.1) :
    Derived sh pg w' := by
  have hrows : ∀ id, w'.database.featureRows id = w.database.featureRows id := by
    intro id
    rw [Database.featureRows, hfeatures]
    rfl
  have hchangeRows : ∀ id, w'.database.changeRows id = w.database.changeRows id := by
    intro id
    rw [Database.changeRows, hchanges]
    rfl
  refine ⟨?_, ?_⟩
  · intro row hrow
    rw [hrows]
    rcases hsnapshots row hrow with hrow | hnew
    · refine (h.features row hrow).imp_right ?_
      rintro ⟨document, hdocument, hderived⟩
      exact ⟨document, (hkeeps.processed row hrow).trans hdocument, hderived⟩
    · exact Or.inl (href.featureRows_eq_nil hnew)
  · intro row hrow
    rw [hchangeRows]
    simp only [changesetRows_congr hfeatures]
    rcases hchangesets row hrow with hrow | hnew
    · refine (h.changes row hrow).imp_right ?_
      rintro ⟨document, hdocument, hderived⟩
      exact ⟨document, (hkeeps.layer row hrow).trans hdocument, hderived⟩
    · exact Or.inl (href.changeRows_eq_nil hnew)

/-- The row of a snapshot that was looked up. -/
theorem IsSnapshotAt.exists_row {params : PublishParams} {requestedTimeStr : String}
    {lookup : SnapshotLookup} (h : IsSnapshotAt w params requestedTimeStr lookup) :
    ∃ row ∈ w.database.snapshots.rows, lookup = ⟨row.1, row.2.processedObjectUri⟩ := by
  obtain ⟨key, -, hlookup⟩ := h
  obtain ⟨row, hrow, -, hfound⟩ := getSnapshot_eq_some_iff.mp hlookup
  exact ⟨row, hrow, hfound⟩

/-- The row of a changeset that was looked up. -/
theorem IsChangesetOf.exists_row {params : PublishParams} {pair : ComparisonPair}
    {snapA snapB : SnapshotLookup} {changeset : ChangesetLookup}
    (h : IsChangesetOf w params pair snapA snapB changeset) :
    ∃ row ∈ w.database.changesets.rows,
      changeset = ⟨row.1, row.2.changeLayerObjectUri⟩ ∧
      row.2.snapshotAId = snapA.id ∧ row.2.snapshotBId = snapB.id := by
  obtain ⟨row, hrow, hkey, hfound⟩ := getChangeset_eq_some_iff.mp h.changeset
  exact ⟨row, hrow, hfound, congrArg ChangesetKey.snapshotAId hkey,
    congrArg ChangesetKey.snapshotBId hkey⟩

/-- Publishing a snapshot again leaves the rows that a changeset was derived
from. -/
theorem SnapshotEffect.featureRows_eq {params : PublishParams}
    {requestedTimeStr : String} {lookup : SnapshotLookup} {document : Document J}
    (h : SnapshotEffect sh pg params w w' requestedTimeStr lookup document)
    (hderived : Derived sh pg w) {snapshotId : Nat}
    (hne : w.database.featureRows snapshotId ≠ []) :
    w'.database.featureRows snapshotId = w.database.featureRows snapshotId := by
  by_cases hid : snapshotId = lookup.id
  · obtain ⟨row, hrow, rfl⟩ := h.isSnapshot.exists_row
    subst hid
    obtain ⟨stored, hstored, hrows⟩ := (hderived.features row hrow).resolve_left hne
    obtain rfl := Except.ok.inj (hstored.symm.trans h.stored)
    exact Except.ok.inj (h.rows.symm.trans hrows)
  · exact featureRows_of_rows (h.others snapshotId hid)

/-- Publishing a snapshot. -/
theorem SnapshotEffect.derived {params : PublishParams} {requestedTimeStr : String}
    {lookup : SnapshotLookup} {document : Document J}
    (h : SnapshotEffect sh pg params w w' requestedTimeStr lookup document)
    (hderived : Derived sh pg w) : Derived sh pg w' := by
  refine ⟨?_, ?_⟩
  · intro row hrow
    rw [h.sources.snapshots] at hrow
    rw [h.sources.objects]
    by_cases hid : row.1 = lookup.id
    · obtain ⟨found, hfound, rfl⟩ := h.isSnapshot.exists_row
      obtain rfl := SerialTable.eq_of_id_eq hrow hfound hid
      exact Or.inr ⟨document, h.stored, h.rows⟩
    · rw [featureRows_of_rows (h.others row.1 hid)]
      exact hderived.features row hrow
  · intro row hrow
    rw [h.sources.changesets] at hrow
    rw [h.sources.objects, Database.changeRows, h.changes]
    refine (hderived.changes row hrow).imp_right ?_
    rintro ⟨layer, hlayer, hrows⟩
    obtain ⟨hA, hB⟩ := featureRows_ne_nil_of_changesetRows hrows
    refine ⟨layer, hlayer, ?_⟩
    rw [changesetRows_of_featureRows (h.featureRows_eq hderived hA)
      (h.featureRows_eq hderived hB)]
    exact hrows

/-- Publishing a changeset. -/
theorem ChangesetEffect.derived {params : PublishParams} {pair : ComparisonPair}
    {snapA snapB : SnapshotLookup} {changeset : ChangesetLookup}
    {document : Document J}
    (h : ChangesetEffect sh pg params w w' pair snapA snapB changeset document)
    (hderived : Derived sh pg w) : Derived sh pg w' := by
  refine ⟨?_, ?_⟩
  · intro row hrow
    rw [h.sources.snapshots] at hrow
    rw [h.sources.objects, Database.featureRows, h.features]
    exact hderived.features row hrow
  · intro row hrow
    rw [h.sources.changesets] at hrow
    rw [h.sources.objects]
    simp only [changesetRows_congr h.features]
    by_cases hid : row.1 = changeset.id
    · obtain ⟨found, hfound, rfl, hA, hB⟩ := h.isChangeset.exists_row
      obtain rfl := SerialTable.eq_of_id_eq hrow hfound hid
      refine Or.inr ⟨document, h.stored, ?_⟩
      rw [hA, hB]
      exact h.rows
    · rw [changeRows_of_rows (h.others row.1 hid)]
      exact hderived.changes row hrow

section Step

variable {aoi : Aoi J} {bucket : Bucket} {hit : G → G → Bool}

/-- The step lemma. -/
theorem Derived.after (h : Derived sh pg w) (href : Referential w.database)
    (hdocumented : Documented sh aoi bucket hit w) {task : TaskRun J hit}
    (hrepeating : Repeating sh aoi bucket w task) :
    Derived sh pg (w.after sh pg aoi bucket task) := by
  have hkeeps := keepsDocuments_after pg hdocumented hrepeating
  cases task with
  | ingest run =>
      change KeepsDocuments w (ingest sh aoi bucket w run) at hkeeps
      change Derived sh pg (ingest sh aoi bucket w run)
      by_cases huploads : ∃ result, run.Uploads sh aoi result
      · obtain ⟨result, huploads⟩ := huploads
        obtain ⟨hfeatures, hchanges⟩ := servingTables_ingest sh aoi bucket w run
        refine h.of_keeps href hkeeps hfeatures hchanges ?_ ?_
        · intro row hrow
          refine ((mem_snapshots_ingest huploads).mp hrow).imp_right ?_
          rintro ⟨-, -, rfl⟩
          exact not_hasId_nextId _
        · intro row hrow
          rw [changesets_ingest] at hrow
          exact Or.inl hrow
      · rw [ingest_of_not_uploads (not_exists.mp huploads)]
        exact h
  | build run =>
      change KeepsDocuments w (buildChangesets sh aoi bucket w run) at hkeeps
      change Derived sh pg (buildChangesets sh aoi bucket w run)
      by_cases huploads : ∃ c, run.Uploads sh aoi w c
      · obtain ⟨c, huploads⟩ := huploads
        obtain ⟨hfeatures, hchanges⟩ := servingTables_build sh aoi bucket w run
        refine h.of_keeps href hkeeps hfeatures hchanges ?_ ?_
        · intro row hrow
          rw [snapshots_buildChangesets] at hrow
          exact Or.inl hrow
        · intro row hrow
          refine ((mem_changesets_buildChangesets huploads).mp hrow).imp_right ?_
          rintro ⟨-, -, rfl⟩
          exact not_hasId_nextId _
      · rw [buildChangesets_of_not_uploads (not_exists.mp huploads)]
        exact h
  | publishSnapshot params requestedTimeStr =>
      change Derived sh pg
        (w.commit (publishSnapshot sh pg params w requestedTimeStr))
      cases hpublish : publishSnapshot sh pg params w requestedTimeStr with
      | error e => exact h
      | ok result =>
          obtain ⟨_, _, heffect, -⟩ := exists_snapshotEffect hpublish
          exact heffect.derived h
  | publishChangeset params pair =>
      change Derived sh pg (w.commit (publishChangeset sh pg params w pair))
      cases hpublish : publishChangeset sh pg params w pair with
      | error e => exact h
      | ok result =>
          obtain ⟨_, _, _, _, heffect, -⟩ := exists_changesetEffect hpublish
          exact heffect.derived h

end Step

end Serving

section Main

variable {G J : Type} (sh : Shapely G J) (pg : PostGis G)

variable {sh pg} {aoi : Aoi J} {bucket : Bucket} {hit : G → G → Bool}
  {w : World G J}

end Main

namespace Raster

/-- One building in June, and the same one larger in July. -/
def juneIngestion : IngestRun Raster :=
  ingestRunAt "v2" "2026-06-01T00:00:00Z"
    [{ raw "way/1" (polygon {(0, 0)}) with
      properties := some (Dict.ofList
        [("@osmId", "way/1"), ("@validFrom", "2026-06-01T00:00:00Z"),
          ("building", "yes")]) }]

def julyIngestion : IngestRun Raster :=
  ingestRunAt "v2" "2026-07-01T00:00:00Z" [raw "way/1" (polygon {(0, 0), (1, 0)})]

/-- Each task of the three DAGs once. -/
def pipeline : List (TaskRun Raster shapely.intersects) :=
  [.ingest juneIngestion, .publishSnapshot publishParams "2026-06-01T00:00:00Z",
    .ingest julyIngestion, .publishSnapshot publishParams "2026-07-01T00:00:00Z",
    .build (changesetRun "v2"),
    .publishChangeset publishParams ⟨"2026-06-01T00:00:00Z", "2026-07-01T00:00:00Z"⟩]

end Raster

end VectorMapChanges
