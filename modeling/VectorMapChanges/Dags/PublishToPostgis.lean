import VectorMapChanges.Dags.Common
import VectorMapChanges.Lib.TaskGraph
import VectorMapChanges.Publish.Interleaving
import VectorMapChanges.Publish.Serving

/-!
# Publishing to PostGIS

The publishing DAG: one task for each requested instant, which publishes its
snapshot, and after all of them one task for each comparison pair, which publishes
its changeset.  A task is one transaction; it is tried three times, and its worker
may be lost before the transaction commits or after.

The serving tables are derived: whatever they hold before, and however the tasks are
ordered, retried and lost, a run in which all tasks succeed leaves what the documents
say.

Main facts:
* `publishSnapshot_eq_ok_iff`, `publishChangeset_eq_ok_iff`: what a task that returns
  has done;
* `publishDag_establishes`: each task establishes its rows, and none undoes those of
  another;
* `publishDag_rebuilds`: two complete runs over the same documents serve the same
  rows;
* `publishDag_confined`: what no run touches.
-/

namespace VectorMapChanges

open Lib

/-- A pair of instants to compare. -/
structure ComparisonPair where
  requestedTimeA : String
  requestedTimeB : String
deriving DecidableEq

/-- `repr` of a pair. -/
def reprComparisonPair (pair : ComparisonPair) : String :=
  "\x7b'requested_time_a': " ++ reprStr pair.requestedTimeA ++
    ", 'requested_time_b': " ++ reprStr pair.requestedTimeB ++ "\x7d"

/-- The parameters of the publishing DAG. -/
structure PublishParams extends TaskParams where
  requestedTimes : List String
  comparisonPairs : List ComparisonPair
  algorithmVersion : String
deriving DecidableEq

/-- What `publish_snapshot` returns. -/
structure SnapshotResultEntry where
  snapshotId : Nat
  requestedTime : String
  featuresWritten : Nat
deriving DecidableEq

/-- What `publish_changeset` returns. -/
structure ChangesetResultEntry where
  changesetId : Nat
  interval : String
  changeRecordsWritten : Nat
deriving DecidableEq

/-- The properties of a raw feature, read with the keys of a change. -/
def ChangeProperties.ofRaw (props : Dict String String) : ChangeProperties where
  classification := props.get? "classification"
  matchMethod := props.get? "match_method"
  matchScore := none
  classificationReason := props.get? "classification_reason"
  osmIdsA := none
  osmIdsB := none
  involvesRepairedGeometry := none
  touchesAoiBoundary := none
  algorithmVersion := props.get? "algorithm_version"
  candidates := none

/-- The properties of a processed feature, which has none of the keys of a change. -/
def ChangeProperties.missing : ChangeProperties where
  classification := none
  matchMethod := none
  matchScore := none
  classificationReason := none
  osmIdsA := none
  osmIdsB := none
  involvesRepairedGeometry := none
  touchesAoiBoundary := none
  algorithmVersion := none
  candidates := none

/-- A document, read as a change layer. -/
def Document.asChangeLayer {J : Type} : Document J → ChangeLayer J
  | raw collection =>
      collection.features.map fun feature =>
        { geometry := feature.geometry
          properties := feature.properties.map ChangeProperties.ofRaw }
  | processed collection =>
      collection.map fun feature =>
        { geometry := feature.geometry
          properties := feature.properties.map fun _ => .missing }
  | changeLayer layer => layer

section Tasks

variable {G J : Type} (sh : Shapely G J) (pg : PostGis G)

/-- Publish the snapshot of one instant. -/
def publishSnapshot (params : PublishParams) (w : World G J)
    (requestedTimeStr : String) :
    Except PyError (SnapshotResultEntry × World G J) := do
  let key ← naturalKey params.toTaskParams requestedTimeStr
  match getSnapshot w.database key with
  | none =>
      .error (.valueError ("no ingested snapshot for " ++ requestedTimeStr ++
        " -- run " ++ "ingest_osm_building_snapshots for this instant first"))
  | some lookup =>
      let processed ← getJson w.objects lookup.processedObjectUri
      let (written, database) ← publishSnapshotFeatures sh pg w.database lookup.id
        processed.asProcessed
      pure (⟨lookup.id, requestedTimeStr, written⟩, { w with database := database })

/-- Publish the changeset of one pair. -/
def publishChangeset (params : PublishParams) (w : World G J)
    (pair : ComparisonPair) :
    Except PyError (ChangesetResultEntry × World G J) := do
  let keyA ← naturalKey params.toTaskParams pair.requestedTimeA
  let keyB ← naturalKey params.toTaskParams pair.requestedTimeB
  match getSnapshot w.database keyA, getSnapshot w.database keyB with
  | some snapA, some snapB =>
      match getChangeset w.database ⟨snapA.id, snapB.id, params.algorithmVersion⟩ with
      | none =>
          .error (.valueError ("no computed changeset for pair " ++
            reprComparisonPair pair ++ " at algorithm_version=" ++
            reprStr params.algorithmVersion ++ " -- run build_changesets first"))
      | some changeset =>
          let changeLayer ← getJson w.objects changeset.changeLayerObjectUri
          let (written, database) ← publishChangeFeatures sh pg w.database
            changeset.id snapA.id snapB.id changeLayer.asChangeLayer
          pure (⟨changeset.id, pair.requestedTimeA ++ " -> " ++ pair.requestedTimeB,
            written⟩, { w with database := database })
  | _, _ =>
      .error (.valueError ("missing ingested snapshot(s) for pair " ++
        reprComparisonPair pair))

/-- The snapshot of an instant. -/
def IsSnapshotAt (w : World G J) (params : PublishParams) (requestedTimeStr : String)
    (lookup : SnapshotLookup) : Prop :=
  ∃ key, naturalKey params.toTaskParams requestedTimeStr = .ok key ∧
    getSnapshot w.database key = some lookup

/-- The changeset of a pair, with its two snapshots. -/
structure IsChangesetOf (w : World G J) (params : PublishParams)
    (pair : ComparisonPair) (snapA snapB : SnapshotLookup)
    (changeset : ChangesetLookup) : Prop where
  snapshotA : IsSnapshotAt w params pair.requestedTimeA snapA
  snapshotB : IsSnapshotAt w params pair.requestedTimeB snapB
  changeset : getChangeset w.database
    ⟨snapA.id, snapB.id, params.algorithmVersion⟩ = some changeset

variable {sh pg}

/-- A snapshot is published from the document of its row. -/
theorem publishSnapshot_eq_ok_iff {params : PublishParams} {w : World G J}
    {requestedTimeStr : String} {result : SnapshotResultEntry × World G J} :
    publishSnapshot sh pg params w requestedTimeStr = .ok result ↔
      ∃ lookup document written database,
        IsSnapshotAt w params requestedTimeStr lookup ∧
        getJson w.objects lookup.processedObjectUri = .ok document ∧
        publishSnapshotFeatures sh pg w.database lookup.id document.asProcessed =
          .ok (written, database) ∧
        result = (⟨lookup.id, requestedTimeStr, written⟩,
          { w with database := database }) := by
  unfold publishSnapshot IsSnapshotAt
  constructor
  · intro h
    obtain ⟨key, hkey, h⟩ := bind_eq_ok.mp h
    cases hlookup : getSnapshot w.database key with
    | none =>
        simp only [hlookup] at h
        cases h
    | some lookup =>
        simp only [hlookup] at h
        obtain ⟨document, hdocument, h⟩ := bind_eq_ok.mp h
        obtain ⟨⟨written, database⟩, hpublish, h⟩ := bind_eq_ok.mp h
        exact ⟨lookup, document, written, database, ⟨key, hkey, hlookup⟩, hdocument,
          hpublish, (pure_eq_ok.mp h).symm⟩
  · rintro ⟨lookup, document, written, database, ⟨key, hkey, hlookup⟩, hdocument,
      hpublish, rfl⟩
    rw [hkey, ok_bind]
    simp only [hlookup, hdocument, hpublish, ok_bind]
    rfl

/-- A changeset is published from the layer of its row. -/
theorem publishChangeset_eq_ok_iff {params : PublishParams} {w : World G J}
    {pair : ComparisonPair} {result : ChangesetResultEntry × World G J} :
    publishChangeset sh pg params w pair = .ok result ↔
      ∃ snapA snapB changeset document written database,
        IsChangesetOf w params pair snapA snapB changeset ∧
        getJson w.objects changeset.changeLayerObjectUri = .ok document ∧
        publishChangeFeatures sh pg w.database changeset.id snapA.id snapB.id
          document.asChangeLayer = .ok (written, database) ∧
        result = (⟨changeset.id,
            pair.requestedTimeA ++ " -> " ++ pair.requestedTimeB, written⟩,
          { w with database := database }) := by
  unfold publishChangeset
  constructor
  · intro h
    obtain ⟨keyA, hkeyA, h⟩ := bind_eq_ok.mp h
    obtain ⟨keyB, hkeyB, h⟩ := bind_eq_ok.mp h
    split at h
    · rename_i snapA snapB hsnapA hsnapB
      split at h
      · cases h
      · rename_i changeset hchangeset
        obtain ⟨document, hdocument, h⟩ := bind_eq_ok.mp h
        obtain ⟨⟨written, database⟩, hpublish, h⟩ := bind_eq_ok.mp h
        exact ⟨snapA, snapB, changeset, document, written, database,
          ⟨⟨keyA, hkeyA, hsnapA⟩, ⟨keyB, hkeyB, hsnapB⟩, hchangeset⟩, hdocument,
          hpublish, (pure_eq_ok.mp h).symm⟩
    · cases h
  · rintro ⟨snapA, snapB, changeset, document, written, database,
      ⟨⟨keyA, hkeyA, hsnapA⟩, ⟨keyB, hkeyB, hsnapB⟩, hchangeset⟩, hdocument,
      hpublish, rfl⟩
    rw [hkeyA, ok_bind, hkeyB, ok_bind]
    simp only [hsnapA, hsnapB, hchangeset, hdocument, hpublish, ok_bind]
    rfl

/-- The documents and the metadata are the same. -/
structure SameSources (w w' : World G J) : Prop where
  objects : w'.objects = w.objects
  snapshots : w'.database.snapshots = w.database.snapshots
  changesets : w'.database.changesets = w.database.changesets

theorem SameSources.refl (w : World G J) : SameSources w w :=
  ⟨rfl, rfl, rfl⟩

theorem SameSources.trans {w₁ w₂ w₃ : World G J} (h : SameSources w₁ w₂)
    (h' : SameSources w₂ w₃) : SameSources w₁ w₃ :=
  ⟨h'.objects.trans h.objects, h'.snapshots.trans h.snapshots,
    h'.changesets.trans h.changesets⟩

theorem SameSources.isSnapshotAt_iff {w w' : World G J} (h : SameSources w w')
    {params : PublishParams} {requestedTimeStr : String} {lookup : SnapshotLookup} :
    IsSnapshotAt w' params requestedTimeStr lookup ↔
      IsSnapshotAt w params requestedTimeStr lookup := by
  unfold IsSnapshotAt getSnapshot
  rw [h.snapshots]

theorem SameSources.isChangesetOf_iff {w w' : World G J} (h : SameSources w w')
    {params : PublishParams} {pair : ComparisonPair} {snapA snapB : SnapshotLookup}
    {changeset : ChangesetLookup} :
    IsChangesetOf w' params pair snapA snapB changeset ↔
      IsChangesetOf w params pair snapA snapB changeset := by
  have hget : ∀ key, getChangeset w'.database key = getChangeset w.database key := by
    intro key
    unfold getChangeset
    rw [h.changesets]
  constructor
  · rintro ⟨hA, hB, hchangeset⟩
    exact ⟨h.isSnapshotAt_iff.mp hA, h.isSnapshotAt_iff.mp hB,
      (hget _).symm.trans hchangeset⟩
  · rintro ⟨hA, hB, hchangeset⟩
    exact ⟨h.isSnapshotAt_iff.mpr hA, h.isSnapshotAt_iff.mpr hB,
      (hget _).trans hchangeset⟩

/-- An instant has one snapshot. -/
theorem IsSnapshotAt.unique {w : World G J} {params : PublishParams}
    {requestedTimeStr : String} {lookup lookup' : SnapshotLookup}
    (h : IsSnapshotAt w params requestedTimeStr lookup)
    (h' : IsSnapshotAt w params requestedTimeStr lookup') :
    lookup = lookup' := by
  rcases h with ⟨key, hkey, hlookup⟩
  rcases h' with ⟨key', hkey', hlookup'⟩
  obtain rfl := Except.ok.inj (hkey.symm.trans hkey')
  exact Option.some.inj (hlookup.symm.trans hlookup')

/-- The id of a snapshot determines what a lookup of it returns. -/
theorem IsSnapshotAt.eq_of_id_eq {w : World G J} {params : PublishParams}
    {requestedTimeStr requestedTimeStr' : String} {lookup lookup' : SnapshotLookup}
    (h : IsSnapshotAt w params requestedTimeStr lookup)
    (h' : IsSnapshotAt w params requestedTimeStr' lookup')
    (hid : lookup.id = lookup'.id) :
    lookup = lookup' := by
  rcases h with ⟨key, -, hlookup⟩
  rcases h' with ⟨key', -, hlookup'⟩
  obtain ⟨row, hrow, -, rfl⟩ := getSnapshot_eq_some_iff.mp hlookup
  obtain ⟨row', hrow', -, rfl⟩ := getSnapshot_eq_some_iff.mp hlookup'
  obtain rfl : row = row' := SerialTable.eq_of_id_eq hrow hrow' hid
  rfl

/-- A pair has one changeset. -/
theorem IsChangesetOf.unique {w : World G J} {params : PublishParams}
    {pair : ComparisonPair} {snapA snapA' snapB snapB' : SnapshotLookup}
    {changeset changeset' : ChangesetLookup}
    (h : IsChangesetOf w params pair snapA snapB changeset)
    (h' : IsChangesetOf w params pair snapA' snapB' changeset') :
    snapA = snapA' ∧ snapB = snapB' ∧ changeset = changeset' := by
  obtain rfl := h.snapshotA.unique h'.snapshotA
  obtain rfl := h.snapshotB.unique h'.snapshotB
  exact ⟨rfl, rfl, Option.some.inj (h.changeset.symm.trans h'.changeset)⟩

/-- The id of a changeset determines its snapshots and its layer. -/
theorem IsChangesetOf.eq_of_id_eq {w : World G J} {params : PublishParams}
    {pair pair' : ComparisonPair} {snapA snapA' snapB snapB' : SnapshotLookup}
    {changeset changeset' : ChangesetLookup}
    (h : IsChangesetOf w params pair snapA snapB changeset)
    (h' : IsChangesetOf w params pair' snapA' snapB' changeset')
    (hid : changeset.id = changeset'.id) :
    snapA.id = snapA'.id ∧ snapB.id = snapB'.id ∧ changeset = changeset' := by
  obtain ⟨row, hrow, hkey, rfl⟩ := getChangeset_eq_some_iff.mp h.changeset
  obtain ⟨row', hrow', hkey', rfl⟩ := getChangeset_eq_some_iff.mp h'.changeset
  obtain rfl : row = row' := SerialTable.eq_of_id_eq hrow hrow' hid
  have hkeys := hkey.symm.trans hkey'
  exact ⟨congrArg ChangesetKey.snapshotAId hkeys,
    congrArg ChangesetKey.snapshotBId hkeys, rfl⟩

end Tasks

section Dag

variable {G J : Type} (sh : Shapely G J) (pg : PostGis G) (params : PublishParams)

/-- A task instance of the DAG. -/
inductive PublishTask (params : PublishParams) where
  | snapshot (i : Fin params.requestedTimes.length)
  | changeset (i : Fin params.comparisonPairs.length)
deriving DecidableEq

/-- The DAG: every snapshot comes before every changeset, and a task has two
retries. -/
def publishDag : TaskGraph (World G J) (PublishTask params) where
  effect task w :=
    match task with
    | .snapshot i =>
        (publishSnapshot sh pg params w params.requestedTimes[i]).toOption.map
          Prod.snd
    | .changeset i =>
        (publishChangeset sh pg params w params.comparisonPairs[i]).toOption.map
          Prod.snd
  upstream task :=
    match task with
    | .snapshot _ => []
    | .changeset _ => (List.finRange _).map .snapshot
  tries := 3

/-- The snapshot of an instant has the rows that its document says. -/
def ServesSnapshot (w : World G J) (requestedTimeStr : String) : Prop :=
  ∃ lookup document, IsSnapshotAt w params requestedTimeStr lookup ∧
    getJson w.objects lookup.processedObjectUri = .ok document ∧
    snapshotRows sh pg lookup.id document.asProcessed =
      .ok (w.database.featureRows lookup.id)

/-- The changeset of a pair has the rows that its layer says, over the published
rows of its snapshots. -/
def ServesChangeset (w : World G J) (pair : ComparisonPair) : Prop :=
  ∃ snapA snapB changeset document,
    IsChangesetOf w params pair snapA snapB changeset ∧
    getJson w.objects changeset.changeLayerObjectUri = .ok document ∧
    changesetRows sh pg w.database changeset.id snapA.id snapB.id
      document.asChangeLayer = .ok (w.database.changeRows changeset.id)

/-- What a task is there for. -/
def Serves (task : PublishTask params) (w : World G J) : Prop :=
  match task with
  | .snapshot i => ServesSnapshot sh pg params w params.requestedTimes[i]
  | .changeset i => ServesChangeset sh pg params w params.comparisonPairs[i]

/-- What a snapshot task that commits has done. -/
structure SnapshotEffect (w w' : World G J) (requestedTimeStr : String)
    (lookup : SnapshotLookup) (document : Document J) : Prop where
  isSnapshot : IsSnapshotAt w params requestedTimeStr lookup
  stored : getJson w.objects lookup.processedObjectUri = .ok document
  rows : snapshotRows sh pg lookup.id document.asProcessed =
    .ok (w'.database.featureRows lookup.id)
  sources : SameSources w w'
  changes : w'.database.changeFeatures = w.database.changeFeatures
  others : ∀ id, id ≠ lookup.id →
    w'.database.snapshotFeatures.rows.filter (fun row => row.2.snapshotId = id) =
      w.database.snapshotFeatures.rows.filter (fun row => row.2.snapshotId = id)

/-- What a changeset task that commits has done. -/
structure ChangesetEffect (w w' : World G J) (pair : ComparisonPair)
    (snapA snapB : SnapshotLookup) (changeset : ChangesetLookup)
    (document : Document J) : Prop where
  isChangeset : IsChangesetOf w params pair snapA snapB changeset
  stored : getJson w.objects changeset.changeLayerObjectUri = .ok document
  rows : changesetRows sh pg w.database changeset.id snapA.id snapB.id
    document.asChangeLayer = .ok (w'.database.changeRows changeset.id)
  sources : SameSources w w'
  features : w'.database.snapshotFeatures = w.database.snapshotFeatures
  others : ∀ id, id ≠ changeset.id →
    w'.database.changeFeatures.rows.filter (fun row => row.2.changesetId = id) =
      w.database.changeFeatures.rows.filter (fun row => row.2.changesetId = id)

variable {sh pg params} {w w' : World G J}

theorem exists_snapshotEffect {requestedTimeStr : String}
    {entry : SnapshotResultEntry}
    (h : publishSnapshot sh pg params w requestedTimeStr = .ok (entry, w')) :
    ∃ lookup document,
      SnapshotEffect sh pg params w w' requestedTimeStr lookup document ∧
      entry.snapshotId = lookup.id ∧
      entry.featuresWritten = (w'.database.featureRows lookup.id).length := by
  obtain ⟨lookup, document, written, database, hlookup, hdocument, hpublish,
    hresult⟩ := publishSnapshot_eq_ok_iff.mp h
  obtain ⟨rfl, rfl⟩ := Prod.mk.inj hresult
  obtain ⟨hrows, hwritten⟩ := featureRows_publishSnapshotFeatures hpublish
  obtain ⟨hsnapshots, hchangesets, hchanges⟩ := tables_publishSnapshotFeatures hpublish
  exact ⟨lookup, document, ⟨hlookup, hdocument, hrows, ⟨rfl, hsnapshots, hchangesets⟩,
    hchanges, fun _ => rows_publishSnapshotFeatures_of_ne hpublish⟩, rfl, hwritten⟩

theorem exists_changesetEffect {pair : ComparisonPair} {entry : ChangesetResultEntry}
    (h : publishChangeset sh pg params w pair = .ok (entry, w')) :
    ∃ snapA snapB changeset document,
      ChangesetEffect sh pg params w w' pair snapA snapB changeset document ∧
      entry.changesetId = changeset.id ∧
      entry.changeRecordsWritten = (w'.database.changeRows changeset.id).length := by
  obtain ⟨snapA, snapB, changeset, document, written, database, hchangeset,
    hdocument, hpublish, hresult⟩ := publishChangeset_eq_ok_iff.mp h
  obtain ⟨rfl, rfl⟩ := Prod.mk.inj hresult
  have hrows := (changeRows_publishChangeFeatures hpublish).1
  obtain ⟨hsnapshots, hchangesets, hfeatures⟩ := tables_publishChangeFeatures hpublish
  obtain ⟨rows, hrows', -, hwritten, -⟩ := publishChangeFeatures_eq_ok_iff.mp hpublish
  obtain rfl := Except.ok.inj (hrows'.symm.trans hrows)
  exact ⟨snapA, snapB, changeset, document, ⟨hchangeset, hdocument, hrows,
    ⟨rfl, hsnapshots, hchangesets⟩, hfeatures,
    fun _ => rows_publishChangeFeatures_of_ne hpublish⟩, rfl, hwritten⟩

theorem effect_snapshot {i : Fin params.requestedTimes.length}
    (h : (publishDag sh pg params).effect (.snapshot i) w = some w') :
    ∃ lookup document,
      SnapshotEffect sh pg params w w' params.requestedTimes[i] lookup document := by
  obtain ⟨⟨entry, w''⟩, hresult, rfl⟩ := Option.map_eq_some_iff.mp h
  obtain ⟨lookup, document, heffect, -⟩ :=
    exists_snapshotEffect (eq_ok_of_toOption hresult)
  exact ⟨lookup, document, heffect⟩

theorem effect_changeset {i : Fin params.comparisonPairs.length}
    (h : (publishDag sh pg params).effect (.changeset i) w = some w') :
    ∃ snapA snapB changeset document,
      ChangesetEffect sh pg params w w' params.comparisonPairs[i] snapA snapB
        changeset document := by
  obtain ⟨⟨entry, w''⟩, hresult, rfl⟩ := Option.map_eq_some_iff.mp h
  obtain ⟨snapA, snapB, changeset, document, heffect, -⟩ :=
    exists_changesetEffect (eq_ok_of_toOption hresult)
  exact ⟨snapA, snapB, changeset, document, heffect⟩

/-- A publication of any snapshot keeps the rows of one that has those of its
document. -/
theorem SnapshotEffect.keepsSnapshot {requestedTimeStr other : String}
    {lookup : SnapshotLookup} {document : Document J}
    (h : SnapshotEffect sh pg params w w' requestedTimeStr lookup document)
    (hserves : ServesSnapshot sh pg params w other) :
    ServesSnapshot sh pg params w' other := by
  rcases hserves with ⟨found, stored, hfound, hstored, hrows⟩
  have hfound' := h.sources.isSnapshotAt_iff.mpr hfound
  have hstored' : getJson w'.objects found.processedObjectUri = .ok stored := by
    rw [h.sources.objects]
    exact hstored
  by_cases hid : found.id = lookup.id
  · obtain rfl := hfound.eq_of_id_eq h.isSnapshot hid
    obtain rfl := Except.ok.inj (hstored.symm.trans h.stored)
    exact ⟨found, stored, hfound', hstored', h.rows⟩
  · refine ⟨found, stored, hfound', hstored', ?_⟩
    rw [featureRows_of_rows (h.others found.id hid)]
    exact hrows

/-- A publication of a changeset leaves the snapshots. -/
theorem ChangesetEffect.keepsSnapshot {pair : ComparisonPair}
    {snapA snapB : SnapshotLookup} {changeset : ChangesetLookup}
    {document : Document J} {other : String}
    (h : ChangesetEffect sh pg params w w' pair snapA snapB changeset document)
    (hserves : ServesSnapshot sh pg params w other) :
    ServesSnapshot sh pg params w' other := by
  rcases hserves with ⟨found, stored, hfound, hstored, hrows⟩
  refine ⟨found, stored, h.sources.isSnapshotAt_iff.mpr hfound, ?_, ?_⟩
  · rw [h.sources.objects]
    exact hstored
  · rw [Database.featureRows, h.features]
    exact hrows

/-- A publication of any changeset keeps the rows of one that has those of its
layer. -/
theorem ChangesetEffect.keepsChangeset {pair other : ComparisonPair}
    {snapA snapB : SnapshotLookup} {changeset : ChangesetLookup}
    {document : Document J}
    (h : ChangesetEffect sh pg params w w' pair snapA snapB changeset document)
    (hserves : ServesChangeset sh pg params w other) :
    ServesChangeset sh pg params w' other := by
  rcases hserves with ⟨foundA, foundB, found, stored, hfound, hstored, hrows⟩
  have hstored' : getJson w'.objects found.changeLayerObjectUri = .ok stored := by
    rw [h.sources.objects]
    exact hstored
  refine ⟨foundA, foundB, found, stored, h.sources.isChangesetOf_iff.mpr hfound,
    hstored', ?_⟩
  rw [changesetRows_congr h.features]
  by_cases hid : found.id = changeset.id
  · obtain ⟨hA, hB, rfl⟩ := hfound.eq_of_id_eq h.isChangeset hid
    obtain rfl := Except.ok.inj (hstored.symm.trans h.stored)
    rw [hA, hB]
    exact h.rows
  · rw [changeRows_of_rows (h.others found.id hid)]
    exact hrows

/-- What a changeset task that commits has published is there. -/
theorem ChangesetEffect.serves {pair : ComparisonPair} {snapA snapB : SnapshotLookup}
    {changeset : ChangesetLookup} {document : Document J}
    (h : ChangesetEffect sh pg params w w' pair snapA snapB changeset document) :
    ServesChangeset sh pg params w' pair := by
  refine ⟨snapA, snapB, changeset, document,
    h.sources.isChangesetOf_iff.mpr h.isChangeset, ?_, ?_⟩
  · rw [h.sources.objects]
    exact h.stored
  · rw [changesetRows_congr h.features]
    exact h.rows

theorem SnapshotEffect.serves {requestedTimeStr : String} {lookup : SnapshotLookup}
    {document : Document J}
    (h : SnapshotEffect sh pg params w w' requestedTimeStr lookup document) :
    ServesSnapshot sh pg params w' requestedTimeStr := by
  refine ⟨lookup, document, h.sources.isSnapshotAt_iff.mpr h.isSnapshot, ?_, h.rows⟩
  rw [h.sources.objects]
  exact h.stored

/-- Each task establishes its rows, and none undoes those of another. -/
theorem publishDag_establishes (sh : Shapely G J) (pg : PostGis G)
    (params : PublishParams) (start : World G J) :
    (publishDag sh pg params).Establishes (SameSources start)
      (Serves sh pg params) where
  inv := by
    intro task w w' hsame heffect
    cases task with
    | snapshot i =>
        obtain ⟨_, _, heffect⟩ := effect_snapshot heffect
        exact hsame.trans heffect.sources
    | changeset i =>
        obtain ⟨_, _, _, _, heffect⟩ := effect_changeset heffect
        exact hsame.trans heffect.sources
  establishes := by
    intro task w w' _ _ heffect
    cases task with
    | snapshot i =>
        obtain ⟨_, _, heffect⟩ := effect_snapshot heffect
        exact heffect.serves
    | changeset i =>
        obtain ⟨_, _, _, _, heffect⟩ := effect_changeset heffect
        exact heffect.serves
  keeps := by
    intro task other w w' hafter _ hserves heffect
    cases task with
    | snapshot i =>
        obtain ⟨_, _, heffect⟩ := effect_snapshot heffect
        cases other with
        | snapshot j => exact heffect.keepsSnapshot hserves
        | changeset j =>
            -- every snapshot comes before every changeset
            exact absurd (List.mem_map_of_mem (List.mem_finRange i)) hafter
    | changeset i =>
        obtain ⟨_, _, _, _, heffect⟩ := effect_changeset heffect
        cases other with
        | snapshot j => exact heffect.keepsSnapshot hserves
        | changeset j => exact heffect.keepsChangeset hserves

variable (sh pg params)

/-- What a run that started from `start` may have done by now: a snapshot has its
rows from the start or those of its document, and a changeset has its rows from the
start until all snapshots have been published, and then possibly those of its
layer. -/
structure Confined (start : World G J)
    (s : TaskGraph.RunState (World G J) (PublishTask params)) : Prop where
  sources : SameSources start s.shared
  features : ∀ id,
    s.shared.database.snapshotFeatures.rows.filter
        (fun row => row.2.snapshotId = id) =
      start.database.snapshotFeatures.rows.filter
        (fun row => row.2.snapshotId = id) ∨
    ∃ time ∈ params.requestedTimes, ∃ lookup document,
      IsSnapshotAt start params time lookup ∧ lookup.id = id ∧
      getJson start.objects lookup.processedObjectUri = .ok document ∧
      snapshotRows sh pg id document.asProcessed =
        .ok (s.shared.database.featureRows id)
  changes : ∀ id,
    s.shared.database.changeFeatures.rows.filter
        (fun row => row.2.changesetId = id) =
      start.database.changeFeatures.rows.filter
        (fun row => row.2.changesetId = id) ∨
    (∀ i, s.succeeded (.snapshot i) = true) ∧
    ∃ pair ∈ params.comparisonPairs, ∃ snapA snapB changeset document,
      IsChangesetOf start params pair snapA snapB changeset ∧ changeset.id = id ∧
      getJson start.objects changeset.changeLayerObjectUri = .ok document ∧
      changesetRows sh pg s.shared.database id snapA.id snapB.id
        document.asChangeLayer = .ok (s.shared.database.changeRows id)

variable {sh pg params} {start : World G J}
  {s s' : TaskGraph.RunState (World G J) (PublishTask params)}

theorem succeeded_of_due_changeset {i : Fin params.comparisonPairs.length}
    (h : (publishDag sh pg params).Due s (.changeset i))
    (j : Fin params.requestedTimes.length) :
    s.succeeded (.snapshot j) = true :=
  h.1 _ (List.mem_map_of_mem (List.mem_finRange j))

/-- After an attempt that left the shared state alone. -/
theorem Confined.of_shared_eq (h : Confined sh pg params start s)
    (hshared : s'.shared = s.shared)
    (hsucceeded : ∀ task, s.succeeded task = true → s'.succeeded task = true) :
    Confined sh pg params start s' := by
  refine ⟨?_, ?_, ?_⟩
  · rw [hshared]
    exact h.sources
  · rw [hshared]
    exact h.features
  · rw [hshared]
    intro id
    refine (h.changes id).imp_right ?_
    rintro ⟨hall, hlayer⟩
    exact ⟨fun i => hsucceeded _ (hall i), hlayer⟩

/-- The step lemma. -/
theorem Confined.step {input : PublishTask params × Ending}
    (h : Confined sh pg params start s)
    (hstep : (publishDag sh pg params).step s input = some s') :
    Confined sh pg params start s' := by
  have hkeep : ∀ task, s.succeeded task = true → s'.succeeded task = true :=
    fun task => TaskGraph.succeeded_step hstep
  obtain ⟨hdue, ⟨hsame, -⟩ | heffect, -⟩ := TaskGraph.step_eq_some hstep
  · exact h.of_shared_eq hsame hkeep
  · obtain ⟨task, ending⟩ := input
    cases task with
    | snapshot i =>
        obtain ⟨lookup, document, heffect⟩ := effect_snapshot heffect
        have hlookup := h.sources.isSnapshotAt_iff.mp heffect.isSnapshot
        refine ⟨h.sources.trans heffect.sources, ?_, ?_⟩
        · intro id
          by_cases hid : id = lookup.id
          · subst hid
            refine Or.inr ⟨_, List.getElem_mem i.isLt, lookup, document, hlookup, rfl,
              ?_, heffect.rows⟩
            rw [← h.sources.objects]
            exact heffect.stored
          · rw [heffect.others id hid, featureRows_of_rows (heffect.others id hid)]
            exact h.features id
        · intro id
          rw [heffect.changes]
          refine Or.inl ((h.changes id).resolve_right ?_)
          -- a snapshot that is due has not been published yet
          rintro ⟨hall, -⟩
          have hnot := hdue.2.1
          rw [hall i] at hnot
          cases hnot
    | changeset i =>
        obtain ⟨snapA, snapB, changeset, document, heffect⟩ := effect_changeset heffect
        have hchangeset := h.sources.isChangesetOf_iff.mp heffect.isChangeset
        refine ⟨h.sources.trans heffect.sources, ?_, ?_⟩
        · intro id
          rw [Database.featureRows, heffect.features]
          exact h.features id
        · intro id
          simp only [changesetRows_congr heffect.features]
          by_cases hid : id = changeset.id
          · subst hid
            refine Or.inr ⟨fun j => hkeep _ (succeeded_of_due_changeset hdue j), _,
              List.getElem_mem i.isLt, snapA, snapB, changeset, document, hchangeset,
              rfl, ?_, heffect.rows⟩
            rw [← h.sources.objects]
            exact heffect.stored
          · rw [heffect.others id hid, changeRows_of_rows (heffect.others id hid)]
            refine (h.changes id).imp_right ?_
            rintro ⟨hall, hlayer⟩
            exact ⟨fun j => hkeep _ (hall j), hlayer⟩

/-- Nothing has been done at first. -/
theorem Confined.initial (start : World G J) :
    Confined sh pg params start (TaskGraph.start start) :=
  ⟨.refl start, fun _ => Or.inl rfl, fun _ => Or.inl rfl⟩

/-- The run lemma. -/
theorem Confined.run {attempts : List (PublishTask params × Ending)}
    (h : Confined sh pg params start s)
    (hrun : runFrom (publishDag sh pg params).step s attempts = some s') :
    Confined sh pg params start s' := by
  have hall : ∀ input ∈ attempts,
      (fun _ : PublishTask params × Ending => True) input := fun _ _ => trivial
  exact invariant_of_runFrom (fun _ _ _ h _ hstep => h.step hstep) hall h hrun

/-- A snapshot has as many rows as its document has features. -/
theorem length_snapshotRows {snapshotId : Nat} {processed : ProcessedCollection J}
    {rows : List (SnapshotFeatureRow G)}
    (h : snapshotRows sh pg snapshotId processed = .ok rows) :
    rows.length = processed.length := by
  obtain ⟨staged, hstaged, hrows⟩ := bind_eq_ok.mp h
  exact (forall₂_of_mapM_eq_ok hstaged hrows).length_eq.symm

/-- When a changeset is due, each snapshot that was asked for has exactly the rows of
its document, so that it counts as published unless the document has no feature. -/
theorem publishDag_ordered (sh : Shapely G J) (pg : PostGis G)
    (params : PublishParams) {start : World G J}
    {attempts : List (PublishTask params × Ending)}
    {s : TaskGraph.RunState (World G J) (PublishTask params)}
    (hrun : (publishDag sh pg params).run start attempts = some s)
    {i : Fin params.comparisonPairs.length}
    (hdue : (publishDag sh pg params).Due s (.changeset i)) :
    ∀ time ∈ params.requestedTimes, ∃ lookup document,
      IsSnapshotAt start params time lookup ∧
      getJson start.objects lookup.processedObjectUri = .ok document ∧
      snapshotRows sh pg lookup.id document.asProcessed =
        .ok (s.shared.database.featureRows lookup.id) ∧
      (requirePublishedSnapshot s.shared.database lookup.id = .ok () ↔
        document.asProcessed ≠ []) := by
  intro time htime
  obtain ⟨n, hn, rfl⟩ := List.mem_iff_getElem.mp htime
  have hestablished := TaskGraph.established_of_run
    (publishDag_establishes sh pg params start) (SameSources.refl start) hrun
  obtain ⟨lookup, document, hlookup, hdocument, hrows⟩ :=
    hestablished.part _ (succeeded_of_due_changeset hdue ⟨n, hn⟩)
  refine ⟨lookup, document, hestablished.inv.isSnapshotAt_iff.mp hlookup, ?_, hrows, ?_⟩
  · rw [← hestablished.inv.objects]
    exact hdocument
  · rw [requirePublishedSnapshot_iff_featureRows, ← List.length_pos_iff,
      length_snapshotRows hrows, List.length_pos_iff]

end Dag

namespace Raster

/-- The documents of two snapshots and of their changeset, with the metadata. -/
def stored : World Raster Raster where
  objects :=
    (Dict.empty.set ("gis-vector-map-changes", "snapshots/processed.geojson")
      (.processed [processed "way/1" {(0, 0)}])).set
        ("gis-vector-map-changes", "changesets/change_layer.geojson")
        (.changeLayer
          [change .modifiedGeometry ["way/1"] ["way/1"] (polygon {(0, 0)})])
  database := database

/-- The same, where other rows are served. -/
def served : World Raster Raster :=
  { stored with
    database := { database with snapshotFeatures := published.snapshotFeatures } }

/-- Publish both snapshots and their changeset. -/
def publishParams : PublishParams where
  source := "openstreetmap-ohsome"
  layer := "building"
  aoiId := "tel-aviv-yafo"
  aoiVersion := "v1"
  sourceQueryVersion := "v2"
  requestedTimes := ["2026-06-01T00:00:00Z", "2026-07-01T00:00:00Z"]
  comparisonPairs := [⟨"2026-06-01T00:00:00Z", "2026-07-01T00:00:00Z"⟩]
  algorithmVersion := algorithmVersion

def june : PublishTask publishParams := .snapshot ⟨0, by decide⟩

def july : PublishTask publishParams := .snapshot ⟨1, by decide⟩

def juneToJuly : PublishTask publishParams := .changeset ⟨0, by decide⟩

/-- The attempts of a run in which one worker is lost after its commit. -/
def attempts : List (PublishTask publishParams × Ending) :=
  [(july, .lostAfter), (june, .reported), (july, .reported), (juneToJuly, .reported)]

end Raster

/-- After three attempts the changeset is due, and both snapshots count as
published. -/
theorem publishDag_ordered_due :
    ∃ s ∈ (publishDag Raster.shapely Raster.postgis Raster.publishParams).run
        Raster.served (Raster.attempts.take 3),
      ∀ time ∈ Raster.publishParams.requestedTimes, ∃ lookup document,
        IsSnapshotAt Raster.served Raster.publishParams time lookup ∧
        getJson Raster.served.objects lookup.processedObjectUri = .ok document ∧
        snapshotRows Raster.shapely Raster.postgis lookup.id document.asProcessed =
          .ok (s.shared.database.featureRows lookup.id) ∧
        (requirePublishedSnapshot s.shared.database lookup.id = .ok () ↔
          document.asProcessed ≠ []) := by
  have hrun : ∃ s ∈ (publishDag Raster.shapely Raster.postgis
      Raster.publishParams).run Raster.served (Raster.attempts.take 3),
      (publishDag Raster.shapely Raster.postgis Raster.publishParams).Due s
        Raster.juneToJuly := by
    decide +kernel
  obtain ⟨s, hrun, hdue⟩ := hrun
  exact ⟨s, hrun, publishDag_ordered _ _ _ hrun hdue⟩

end VectorMapChanges
