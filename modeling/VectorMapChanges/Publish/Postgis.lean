import VectorMapChanges.Db.Tables

/-!
# Publishing

Snapshot features and change records are loaded into the serving tables by
atomic replacement: the rows of one snapshot or changeset are deleted, the new
rows are staged, and an INSERT with a SELECT over the staging table writes them.
Everything happens in one transaction; a call that raises commits nothing.

PostGIS is not part of the repository and is a parameter.  Geometries travel as
WKB, which keeps them as they are.

Main facts:
* `publishSnapshotFeatures_eq_ok_iff`, `publishChangeFeatures_eq_ok_iff`: what a
  call that commits has replaced;
* `publishedIds_publishSnapshotFeatures`: the ids that a snapshot publishes;
* `changeRows_publishChangeFeatures`: the rows of a changeset name what the
  features of its change layer do;
* `countP_changeRows_publishChangeFeatures`: there are as many of each changed
  classification.
-/

namespace VectorMapChanges

open Lib

/-- The PostGIS operations that the INSERTs use. -/
structure PostGis (G : Type) where
  /-- `ST_Union` over the geometries of one or more rows -/
  union : List G → G
  /-- `ST_Multi` -/
  multi : G → G
  /-- `ST_Transform(geom, 3857)`, which raises outside of its domain -/
  transform3857 : G → Except PyError G

section Geometry

variable {G J : Type} (sh : Shapely G J)

/-- Normalize to MultiPolygon. -/
def asMultipolygon (geometry : G) : Except PyError G :=
  match sh.geomType geometry with
  | .multiPolygon => .ok geometry
  | .polygon => .ok (sh.multiPolygon geometry)
  | other =>
      .error (.valueError ("expected ('Polygon', 'MultiPolygon'), got " ++
        reprStr other.name ++
        " -- snapshots should contain only polygonal geometry (see " ++
        "src/ingestion/validate.py)"))

/-- `_geom_hex` -/
def geomHex (geojsonGeometry : J) : Except PyError G := do
  let geometry ← sh.shape geojsonGeometry
  asMultipolygon sh geometry

/-- A value of a `geometry(MultiPolygon, …)` column. -/
def multiPolygonColumn (column : String) (geometry : G) : Except PyError G :=
  if sh.geomType geometry = .multiPolygon then .ok geometry
  else .error (.databaseError column)

end Geometry

/-- Atomic replace-by-staging: delete the rows in scope, stage the new rows, and
insert from the staging table.  Returns the number of rows that the INSERT
wrote, with the database to commit. -/
def loadViaStaging {G σ : Type} (db : Database G)
    (delete : Database G → Database G) (rows : Except PyError (List σ))
    (insert : Database G → List σ → Except PyError (Nat × Database G)) :
    Except PyError (Nat × Database G) := do
  let db := delete db
  let staged ← rows
  insert db staged

/-- Rows are inserted only if the row that they refer to is present. -/
def foreignKey {ρ : Type} (constraint : String) (rows : List ρ)
    (present : Prop) [Decidable present] : Except PyError Unit :=
  if rows = [] ∨ present then pure () else .error (.databaseError constraint)

theorem foreignKey_eq_ok_iff {ρ : Type} {constraint : String} {rows : List ρ}
    {present : Prop} [Decidable present] :
    foreignKey constraint rows present = .ok () ↔ rows = [] ∨ present := by
  unfold foreignKey
  by_cases h : rows = [] ∨ present
  · rw [if_pos h, pure_eq_ok]
    exact iff_of_true rfl h
  · rw [if_neg h]
    exact iff_of_false (fun he => by cases he) h

section Snapshots

/-- A row of `staging_snapshot_features`. -/
structure StagedSnapshotFeature (G : Type) where
  osmId : String
  osmType : String
  building : Option String
  category : Option String
  name : Option String
  rawTags : Dict String String
  originalValid : Bool
  repairMethod : Option String
  geomHex : G

variable {G J : Type} (sh : Shapely G J) (pg : PostGis G)

/-- The staging row of one processed feature. -/
def snapshotFeatureRow (feature : ProcessedFeature J) :
    Except PyError (StagedSnapshotFeature G) := do
  let props ← required "properties" feature.properties
  let osmId ← required "osm_id" props.osmId
  let osmType ← required "osm_type" props.osmType
  let originalValid ← required "original_valid" props.originalValid
  let geometry ← required "geometry" feature.geometry
  let hex ← geomHex sh geometry
  pure
    { osmId := osmId
      osmType := osmType
      building := props.building
      category := props.category
      name := props.name
      rawTags := props.rawTags
      originalValid := originalValid
      repairMethod := props.repairMethod
      geomHex := hex }

/-- `_snapshot_feature_rows` -/
def snapshotFeatureRows (features : ProcessedCollection J) :
    Except PyError (List (StagedSnapshotFeature G)) :=
  features.mapM (snapshotFeatureRow sh)

/-- The row that the SELECT over the staging table makes of a staging row. -/
def selectSnapshotFeature (snapshotId : Nat) (s : StagedSnapshotFeature G) :
    Except PyError (SnapshotFeatureRow G) := do
  let geom ← multiPolygonColumn sh "snapshot_features.geom" s.geomHex
  let projected ← pg.transform3857 s.geomHex
  let geom3857 ← multiPolygonColumn sh "snapshot_features.geom_3857" projected
  pure
    { snapshotId := snapshotId
      osmId := s.osmId
      osmType := s.osmType
      building := s.building
      category := s.category
      name := s.name
      rawTags := s.rawTags
      originalValid := s.originalValid
      repairMethod := s.repairMethod
      geom := geom
      geom3857 := geom3857 }

/-- `_INSERT_SNAPSHOT_FEATURES` -/
def insertSnapshotFeatures (snapshotId : Nat) (db : Database G)
    (staged : List (StagedSnapshotFeature G)) :
    Except PyError (Nat × Database G) := do
  let rows ← staged.mapM (selectSnapshotFeature sh pg snapshotId)
  foreignKey "snapshot_features_snapshot_id_fkey" rows
    (db.snapshots.HasId snapshotId)
  match db.snapshotFeatures.insertAll rows with
  | some snapshotFeatures =>
      pure (rows.length, { db with snapshotFeatures := snapshotFeatures })
  | none => .error (.databaseError "snapshot_features_natural_key")

/-- Replace the feature rows of a snapshot. -/
def publishSnapshotFeatures (db : Database G) (snapshotId : Nat)
    (processedGeojson : ProcessedCollection J) :
    Except PyError (Nat × Database G) :=
  loadViaStaging db
    (fun db => { db with
      snapshotFeatures := db.snapshotFeatures.deleteWhere
        (fun row => row.snapshotId = snapshotId) })
    (snapshotFeatureRows sh processedGeojson)
    (insertSnapshotFeatures sh pg snapshotId)

variable {sh pg}

/-- A call that commits has replaced the rows of its snapshot. -/
theorem publishSnapshotFeatures_eq_ok_iff {db db' : Database G}
    {snapshotId written : Nat} {processed : ProcessedCollection J} :
    publishSnapshotFeatures sh pg db snapshotId processed =
        .ok (written, db') ↔
      ∃ staged rows table,
        snapshotFeatureRows sh processed = .ok staged ∧
        staged.mapM (selectSnapshotFeature sh pg snapshotId) = .ok rows ∧
        (rows = [] ∨ db.snapshots.HasId snapshotId) ∧
        (db.snapshotFeatures.deleteWhere
          (fun row => row.snapshotId = snapshotId)).insertAll rows =
            some table ∧
        written = rows.length ∧
        db' = { db with snapshotFeatures := table } := by
  unfold publishSnapshotFeatures loadViaStaging insertSnapshotFeatures
  simp only [bind_eq_ok]
  constructor
  · rintro ⟨staged, hstaged, rows, hrows, ⟨⟩, hid, h⟩
    cases htable : (db.snapshotFeatures.deleteWhere
        (fun row => row.snapshotId = snapshotId)).insertAll rows with
    | none =>
        simp only [htable] at h
        cases h
    | some table =>
        simp only [htable] at h
        obtain ⟨rfl, rfl⟩ := Prod.mk.inj (pure_eq_ok.mp h)
        exact ⟨staged, rows, table, hstaged, hrows, foreignKey_eq_ok_iff.mp hid,
          htable, rfl, rfl⟩
  · rintro ⟨staged, rows, table, hstaged, hrows, hid, htable, rfl, rfl⟩
    refine ⟨staged, hstaged, rows, hrows, (), foreignKey_eq_ok_iff.mpr hid, ?_⟩
    simp only [htable]
    rfl

/-- The ids that are published for a snapshot. -/
def Database.publishedIds (db : Database G) (snapshotId : Nat) : List String :=
  (db.snapshotFeatures.values.filter (fun row => row.snapshotId = snapshotId)).map
    (·.osmId)

/-- A feature is staged when its required keys are there and its geometry is
polygonal. -/
theorem snapshotFeatureRow_eq_ok_iff {feature : ProcessedFeature J}
    {staged : StagedSnapshotFeature G} :
    snapshotFeatureRow sh feature = .ok staged ↔
      ∃ props, feature.properties = some props ∧
      ∃ osmId, props.osmId = some osmId ∧
      ∃ osmType, props.osmType = some osmType ∧
      ∃ originalValid, props.originalValid = some originalValid ∧
      ∃ geometry, feature.geometry = some geometry ∧
      ∃ hex, geomHex sh geometry = .ok hex ∧
        { osmId := osmId
          osmType := osmType
          building := props.building
          category := props.category
          name := props.name
          rawTags := props.rawTags
          originalValid := originalValid
          repairMethod := props.repairMethod
          geomHex := hex } = staged := by
  unfold snapshotFeatureRow
  simp only [bind_eq_ok, required_eq_ok_iff, pure_eq_ok]

theorem snapshotFeatureRow_osmId {feature : ProcessedFeature J}
    {staged : StagedSnapshotFeature G}
    (h : snapshotFeatureRow sh feature = .ok staged) :
    some staged.osmId = feature.properties.bind (·.osmId) := by
  obtain ⟨props, hprops, osmId, hosmId, osmType, -, originalValid, -, geometry,
    -, hex, -, rfl⟩ := snapshotFeatureRow_eq_ok_iff.mp h
  rw [hprops, Option.bind_some, hosmId]

/-- A staging row is inserted when its geometries fit their columns. -/
theorem selectSnapshotFeature_eq_ok_iff {snapshotId : Nat}
    {staged : StagedSnapshotFeature G} {row : SnapshotFeatureRow G} :
    selectSnapshotFeature sh pg snapshotId staged = .ok row ↔
      ∃ geom, multiPolygonColumn sh "snapshot_features.geom" staged.geomHex =
          .ok geom ∧
      ∃ projected, pg.transform3857 staged.geomHex = .ok projected ∧
      ∃ geom3857, multiPolygonColumn sh "snapshot_features.geom_3857" projected =
          .ok geom3857 ∧
        { snapshotId := snapshotId
          osmId := staged.osmId
          osmType := staged.osmType
          building := staged.building
          category := staged.category
          name := staged.name
          rawTags := staged.rawTags
          originalValid := staged.originalValid
          repairMethod := staged.repairMethod
          geom := geom
          geom3857 := geom3857 } = row := by
  unfold selectSnapshotFeature
  simp only [bind_eq_ok, pure_eq_ok]

theorem selectSnapshotFeature_key {snapshotId : Nat}
    {staged : StagedSnapshotFeature G} {row : SnapshotFeatureRow G}
    (h : selectSnapshotFeature sh pg snapshotId staged = .ok row) :
    row.snapshotId = snapshotId ∧ row.osmId = staged.osmId := by
  obtain ⟨geom, -, projected, -, geom3857, -, rfl⟩ :=
    selectSnapshotFeature_eq_ok_iff.mp h
  exact ⟨rfl, rfl⟩

/-- Publishing a snapshot publishes the ids of its features, in order. -/
theorem publishedIds_publishSnapshotFeatures {db db' : Database G}
    {snapshotId written : Nat} {processed : ProcessedCollection J}
    (h : publishSnapshotFeatures sh pg db snapshotId processed =
      .ok (written, db')) :
    (db'.publishedIds snapshotId).map some =
      processed.map (fun feature => feature.properties.bind (·.osmId)) := by
  obtain ⟨staged, rows, table, hstaged, hrows, -, htable, -, rfl⟩ :=
    publishSnapshotFeatures_eq_ok_iff.mp h
  have hown : ∀ row ∈ rows, row.snapshotId = snapshotId := by
    intro row hrow
    obtain ⟨s, -, hs⟩ := (mem_iff_of_mapM_eq_ok hrows).mp hrow
    exact (selectSnapshotFeature_key hs).1
  have hvalues : table.values.filter (fun row => row.snapshotId = snapshotId) =
      rows := by
    rw [KeyedTable.values_insertAll htable, KeyedTable.deleteWhere,
      SerialTable.values_deleteWhere]
    exact filter_replace (by simpa using hown)
  calc
    _ = rows.map (fun row => some row.osmId) := by
      rw [Database.publishedIds, hvalues, List.map_map]
      rfl
    _ = staged.map (fun s => some s.osmId) :=
      map_of_mapM_eq_ok hrows
        (fun _ _ _ h => congrArg some (selectSnapshotFeature_key h).2)
    _ = processed.map (fun feature => feature.properties.bind (·.osmId)) :=
      map_of_mapM_eq_ok hstaged (fun _ _ _ h => snapshotFeatureRow_osmId h)

/-- It leaves the other snapshots alone. -/
theorem publishedIds_publishSnapshotFeatures_of_ne {db db' : Database G}
    {snapshotId other written : Nat} {processed : ProcessedCollection J}
    (h : publishSnapshotFeatures sh pg db snapshotId processed =
      .ok (written, db')) (hne : other ≠ snapshotId) :
    db'.publishedIds other = db.publishedIds other := by
  obtain ⟨staged, rows, table, -, hrows, -, htable, -, rfl⟩ :=
    publishSnapshotFeatures_eq_ok_iff.mp h
  have hown : ∀ row ∈ rows, row.snapshotId ≠ other := by
    intro row hrow
    obtain ⟨s, -, hs⟩ := (mem_iff_of_mapM_eq_ok hrows).mp hrow
    rw [(selectSnapshotFeature_key hs).1]
    exact hne.symm
  have hvalues : table.values.filter (fun row => row.snapshotId = other) =
      db.snapshotFeatures.values.filter (fun row => row.snapshotId = other) := by
    rw [KeyedTable.values_insertAll htable, KeyedTable.deleteWhere,
      SerialTable.values_deleteWhere]
    apply filter_replace_of_disjoint (by simpa using hown)
    intro row hrow
    rw [decide_eq_true_iff] at hrow
    simp [hrow, hne]
  rw [Database.publishedIds, Database.publishedIds, hvalues]

end Snapshots

section Changes

/-- A row of `staging_change_features`. -/
structure StagedChangeFeature (G : Type) where
  classification : String
  matchMethod : Option String
  matchScore : Option ℚ
  classificationReason : String
  osmIdsA : List String
  osmIdsB : List String
  involvesRepairedGeometry : Bool
  touchesAoiBoundary : Bool
  iou : Option ℚ
  iouCentroidAligned : Option ℚ
  centroidShiftM : Option ℚ
  areaRatio : Option ℚ
  hausdorffM : Option ℚ
  attrsChanged : List String
  candidates : List CandidateEntry
  geomHex : G

variable {G J : Type} (sh : Shapely G J) (pg : PostGis G)

/-- `f["properties"]["classification"]` -/
def classificationOf (feature : ChangeFeature J) : Except PyError String := do
  let props ← required "properties" feature.properties
  required "classification" props.classification

/-- `[f for f in … if f["properties"]["classification"] != "unchanged"]` -/
def changedFeatures (layer : ChangeLayer J) :
    Except PyError (List (ChangeFeature J)) := do
  let tagged ← layer.mapM fun feature => do
    let classification ← classificationOf feature
    pure (classification, feature)
  pure ((tagged.filter (fun p => p.1 ≠ "unchanged")).map Prod.snd)

/-- Raise unless the snapshot has rows. -/
def requirePublishedSnapshot (db : Database G) (snapshotId : Nat) :
    Except PyError Unit :=
  if db.snapshotFeatures.values.any (fun row => row.snapshotId = snapshotId) then
    pure ()
  else
    .error (.valueError ("snapshot " ++ toString snapshotId ++
      " has no published features -- publish both of a " ++
      "changeset's snapshots before publishing the changeset itself " ++
      "(before/after geometry is derived from them)"))

/-- `candidates[0] if len(candidates) == 1 else {}` -/
def promotedMetrics (candidates : List CandidateEntry) : CandidateEntry :=
  match candidates with
  | [metrics] => metrics
  | _ => ⟨none, none, none, none, none, none, none, none⟩

/-- The staging row of one change feature. -/
def changeFeatureRow (feature : ChangeFeature J) :
    Except PyError (StagedChangeFeature G) := do
  let props ← required "properties" feature.properties
  let candidates := props.candidates.getD []
  let metrics := promotedMetrics candidates
  let classification ← required "classification" props.classification
  let classificationReason ←
    required "classification_reason" props.classificationReason
  let involvesRepairedGeometry ←
    required "involves_repaired_geometry" props.involvesRepairedGeometry
  let touchesAoiBoundary ←
    required "touches_aoi_boundary" props.touchesAoiBoundary
  let geometry ← required "geometry" feature.geometry
  let hex ← geomHex sh geometry
  pure
    { classification := classification
      matchMethod := props.matchMethod
      matchScore := props.matchScore
      classificationReason := classificationReason
      osmIdsA := props.osmIdsA.getD []
      osmIdsB := props.osmIdsB.getD []
      involvesRepairedGeometry := involvesRepairedGeometry
      touchesAoiBoundary := touchesAoiBoundary
      iou := metrics.iou
      iouCentroidAligned := metrics.iouCentroidAligned
      centroidShiftM := metrics.centroidShiftM
      areaRatio := metrics.areaRatio
      hausdorffM := metrics.hausdorffM
      attrsChanged := metrics.attrsChanged.getD []
      candidates := candidates
      geomHex := hex }

/-- `_change_feature_rows` -/
def changeFeatureRows (features : List (ChangeFeature J)) :
    Except PyError (List (StagedChangeFeature G)) :=
  features.mapM (changeFeatureRow sh)

/-- `SELECT ST_Multi(ST_Union(sf.geom))` over the named features of a published
snapshot, which is NULL over no rows. -/
def unionOfFeatures (db : Database G) (column : String) (snapshotId : Nat)
    (osmIds : List String) : Except PyError (Option G) :=
  match db.snapshotFeatures.values.filter
      (fun row => row.snapshotId = snapshotId ∧ row.osmId ∈ osmIds) with
  | [] => pure none
  | rows => do
      let geometry ← multiPolygonColumn sh column
        (pg.multi (pg.union (rows.map (·.geom))))
      pure (some geometry)

/-- The row that the SELECT over the staging table makes of a staging row; the
CHECK constraints are evaluated as the row is inserted. -/
def selectChangeFeature (db : Database G)
    (changesetId snapshotAId snapshotBId : Nat) (s : StagedChangeFeature G) :
    Except PyError (ChangeFeatureRow G) := do
  let geomA ← unionOfFeatures sh pg db "change_features.geom_a" snapshotAId
    s.osmIdsA
  let geomB ← unionOfFeatures sh pg db "change_features.geom_b" snapshotBId
    s.osmIdsB
  let projected ← pg.transform3857 s.geomHex
  let geomRender3857 ←
    multiPolygonColumn sh "change_features.geom_render_3857" projected
  if noUnchanged : s.classification ≠ "unchanged" then
    if addedHasB : s.classification ≠ "added" ∨ geomB.isSome = true then
      if removedHasA : s.classification ≠ "removed" ∨ geomA.isSome = true then
        pure
          { changesetId := changesetId
            classification := s.classification
            matchMethod := s.matchMethod
            matchScore := s.matchScore
            classificationReason := s.classificationReason
            osmIdsA := s.osmIdsA
            osmIdsB := s.osmIdsB
            involvesRepairedGeometry := s.involvesRepairedGeometry
            touchesAoiBoundary := s.touchesAoiBoundary
            iou := s.iou
            iouCentroidAligned := s.iouCentroidAligned
            centroidShiftM := s.centroidShiftM
            areaRatio := s.areaRatio
            hausdorffM := s.hausdorffM
            attrsChanged := s.attrsChanged
            candidates := s.candidates
            geomA := geomA
            geomB := geomB
            geomRender3857 := geomRender3857
            noUnchanged := noUnchanged
            addedHasB := addedHasB
            removedHasA := removedHasA }
      else .error (.databaseError "change_features_removed_has_a")
    else .error (.databaseError "change_features_added_has_b")
  else .error (.databaseError "change_features_no_unchanged")

/-- `_INSERT_CHANGE_FEATURES` -/
def insertChangeFeatures (changesetId snapshotAId snapshotBId : Nat)
    (db : Database G) (staged : List (StagedChangeFeature G)) :
    Except PyError (Nat × Database G) := do
  let rows ← staged.mapM
    (selectChangeFeature sh pg db changesetId snapshotAId snapshotBId)
  foreignKey "change_features_changeset_id_fkey" rows
    (db.changesets.HasId changesetId)
  pure (rows.length,
    { db with changeFeatures := db.changeFeatures.insertAll rows })

/-- The rows that publishing a change layer writes, given the published
snapshots. -/
def changesetRows (db : Database G) (changesetId snapshotAId snapshotBId : Nat)
    (layer : ChangeLayer J) : Except PyError (List (ChangeFeatureRow G)) := do
  let features ← changedFeatures layer
  requirePublishedSnapshot db snapshotAId
  requirePublishedSnapshot db snapshotBId
  let staged ← changeFeatureRows sh features
  staged.mapM (selectChangeFeature sh pg db changesetId snapshotAId snapshotBId)

/-- Replace the change rows of a changeset, skipping `unchanged` records. -/
def publishChangeFeatures (db : Database G)
    (changesetId snapshotAId snapshotBId : Nat)
    (changeLayerGeojson : ChangeLayer J) : Except PyError (Nat × Database G) := do
  let features ← changedFeatures changeLayerGeojson
  requirePublishedSnapshot db snapshotAId
  requirePublishedSnapshot db snapshotBId
  loadViaStaging db
    (fun db => { db with
      changeFeatures := db.changeFeatures.deleteWhere
        (fun row => row.changesetId = changesetId) })
    (changeFeatureRows sh features)
    (insertChangeFeatures sh pg changesetId snapshotAId snapshotBId)

variable {sh pg}

/-- A call that commits has replaced the rows of its changeset. -/
theorem publishChangeFeatures_eq_ok_iff {db db' : Database G}
    {changesetId snapshotAId snapshotBId written : Nat}
    {layer : ChangeLayer J} :
    publishChangeFeatures sh pg db changesetId snapshotAId snapshotBId layer =
        .ok (written, db') ↔
      ∃ rows, changesetRows sh pg db changesetId snapshotAId snapshotBId layer =
          .ok rows ∧
        (rows = [] ∨ db.changesets.HasId changesetId) ∧
        written = rows.length ∧
        db' = { db with
          changeFeatures := (db.changeFeatures.deleteWhere
            (fun row => row.changesetId = changesetId)).insertAll rows } := by
  unfold publishChangeFeatures loadViaStaging insertChangeFeatures changesetRows
  simp only [bind_eq_ok]
  constructor
  · rintro ⟨features, hfeatures, ⟨⟩, hA, ⟨⟩, hB, staged, hstaged, rows, hrows,
      ⟨⟩, hid, h⟩
    obtain ⟨rfl, rfl⟩ := Prod.mk.inj (pure_eq_ok.mp h)
    exact ⟨rows, ⟨features, hfeatures, (), hA, (), hB, staged, hstaged, hrows⟩,
      foreignKey_eq_ok_iff.mp hid, rfl, rfl⟩
  · rintro ⟨rows, ⟨features, hfeatures, ⟨⟩, hA, ⟨⟩, hB, staged, hstaged, hrows⟩,
      hid, rfl, rfl⟩
    exact ⟨features, hfeatures, (), hA, (), hB, staged, hstaged, rows, hrows, (),
      foreignKey_eq_ok_iff.mpr hid, rfl⟩

/-- What a change row says it is and which ids it names. -/
def ChangeFeatureRow.view (row : ChangeFeatureRow G) :
    Option String × List String × List String :=
  (some row.classification, row.osmIdsA, row.osmIdsB)

/-- The features that are published are those of another classification than
`unchanged`. -/
theorem changedFeatures_eq_ok {layer features : List (ChangeFeature J)}
    (h : changedFeatures layer = .ok features) :
    features = layer.filter (fun f => f.view.1 ≠ some "unchanged") := by
  unfold changedFeatures at h
  obtain ⟨tagged, htagged, hpure⟩ := bind_eq_ok.mp h
  rw [← pure_eq_ok.mp hpure]
  rw [mapM_eq_ok_iff] at htagged
  clear h hpure
  induction htagged with
  | nil => rfl
  | @cons feature tag rest tags htag _ ih =>
      obtain ⟨classification, hclass, htag⟩ := bind_eq_ok.mp htag
      obtain ⟨props, hprops, hclass⟩ := bind_eq_ok.mp hclass
      rw [required_eq_ok_iff] at hprops hclass
      have hview : feature.view.1 = some classification := by
        simp [ChangeFeature.view, hprops, hclass]
      rw [← pure_eq_ok.mp htag]
      by_cases hunchanged : classification = "unchanged"
      · rw [List.filter_cons_of_neg (by simp [hunchanged]),
          List.filter_cons_of_neg (by simp [hview, hunchanged]), ih]
      · rw [List.filter_cons_of_pos (by simp [hunchanged]), List.map_cons,
          List.filter_cons_of_pos (by simp [hview, hunchanged]), ih]

/-- The features of a layer whose every feature has a classification can be
told apart. -/
theorem exists_changedFeatures {layer : ChangeLayer J}
    (h : ∀ feature ∈ layer, ∃ c, feature.view.1 = some c) :
    ∃ features, changedFeatures layer = .ok features := by
  have htagged : ∀ feature ∈ layer, ∃ tag : String × ChangeFeature J,
      (do
        let classification ← classificationOf feature
        pure (classification, feature)) = Except.ok (ε := PyError) tag := by
    intro feature hfeature
    obtain ⟨c, hc⟩ := h feature hfeature
    obtain ⟨props, hprops, hclass⟩ := Option.bind_eq_some_iff.mp hc
    refine ⟨(c, feature), bind_eq_ok.mpr ⟨c, ?_, rfl⟩⟩
    exact bind_eq_ok.mpr ⟨props, required_eq_ok_iff.mpr hprops,
      required_eq_ok_iff.mpr hclass⟩
  obtain ⟨tagged, htagged⟩ := exists_mapM_eq_ok htagged
  exact ⟨_, bind_eq_ok.mpr ⟨tagged, htagged, rfl⟩⟩

/-- A change feature is staged when its required keys are there and its geometry
is polygonal. -/
theorem changeFeatureRow_eq_ok_iff {feature : ChangeFeature J}
    {staged : StagedChangeFeature G} :
    changeFeatureRow sh feature = .ok staged ↔
      ∃ props, feature.properties = some props ∧
      ∃ classification, props.classification = some classification ∧
      ∃ reason, props.classificationReason = some reason ∧
      ∃ repaired, props.involvesRepairedGeometry = some repaired ∧
      ∃ touches, props.touchesAoiBoundary = some touches ∧
      ∃ geometry, feature.geometry = some geometry ∧
      ∃ hex, geomHex sh geometry = .ok hex ∧
        { classification := classification
          matchMethod := props.matchMethod
          matchScore := props.matchScore
          classificationReason := reason
          osmIdsA := props.osmIdsA.getD []
          osmIdsB := props.osmIdsB.getD []
          involvesRepairedGeometry := repaired
          touchesAoiBoundary := touches
          iou := (promotedMetrics (props.candidates.getD [])).iou
          iouCentroidAligned :=
            (promotedMetrics (props.candidates.getD [])).iouCentroidAligned
          centroidShiftM :=
            (promotedMetrics (props.candidates.getD [])).centroidShiftM
          areaRatio := (promotedMetrics (props.candidates.getD [])).areaRatio
          hausdorffM := (promotedMetrics (props.candidates.getD [])).hausdorffM
          attrsChanged :=
            (promotedMetrics (props.candidates.getD [])).attrsChanged.getD []
          candidates := props.candidates.getD []
          geomHex := hex } = staged := by
  unfold changeFeatureRow
  simp only [bind_eq_ok, required_eq_ok_iff, pure_eq_ok]

/-- The staging row of a feature names what the feature does. -/
theorem changeFeatureRow_view {feature : ChangeFeature J}
    {staged : StagedChangeFeature G}
    (h : changeFeatureRow sh feature = .ok staged) :
    (some staged.classification, staged.osmIdsA, staged.osmIdsB) =
      feature.view := by
  obtain ⟨props, hprops, classification, hclass, reason, -, repaired, -, touches,
    -, geometry, -, hex, -, rfl⟩ := changeFeatureRow_eq_ok_iff.mp h
  simp [ChangeFeature.view, hprops, hclass]

/-- The inserted row names what the staging row does, under its changeset, and
has the geometries that the published snapshots give. -/
theorem selectChangeFeature_spec {db : Database G}
    {changesetId snapshotAId snapshotBId : Nat} {staged : StagedChangeFeature G}
    {row : ChangeFeatureRow G}
    (h : selectChangeFeature sh pg db changesetId snapshotAId snapshotBId staged =
      .ok row) :
    row.changesetId = changesetId ∧
    row.view = (some staged.classification, staged.osmIdsA, staged.osmIdsB) ∧
    unionOfFeatures sh pg db "change_features.geom_a" snapshotAId
      staged.osmIdsA = .ok row.geomA ∧
    unionOfFeatures sh pg db "change_features.geom_b" snapshotBId
      staged.osmIdsB = .ok row.geomB := by
  unfold selectChangeFeature at h
  obtain ⟨geomA, hgeomA, h⟩ := bind_eq_ok.mp h
  obtain ⟨geomB, hgeomB, h⟩ := bind_eq_ok.mp h
  obtain ⟨projected, -, h⟩ := bind_eq_ok.mp h
  obtain ⟨render, -, h⟩ := bind_eq_ok.mp h
  split at h
  · split at h
    · split at h
      · rw [← pure_eq_ok.mp h]
        exact ⟨rfl, rfl, hgeomA, hgeomB⟩
      · cases h
    · cases h
  · cases h

/-- A staging row is inserted when its geometries fit their columns and it meets
the CHECK constraints. -/
theorem exists_selectChangeFeature_iff {db : Database G}
    {changesetId snapshotAId snapshotBId : Nat}
    {staged : StagedChangeFeature G} :
    (∃ row, selectChangeFeature sh pg db changesetId snapshotAId snapshotBId
      staged = .ok row) ↔
      ∃ geomA, unionOfFeatures sh pg db "change_features.geom_a" snapshotAId
          staged.osmIdsA = .ok geomA ∧
      ∃ geomB, unionOfFeatures sh pg db "change_features.geom_b" snapshotBId
          staged.osmIdsB = .ok geomB ∧
      ∃ projected, pg.transform3857 staged.geomHex = .ok projected ∧
      ∃ render, multiPolygonColumn sh "change_features.geom_render_3857"
          projected = .ok render ∧
        staged.classification ≠ "unchanged" ∧
        (staged.classification ≠ "added" ∨ geomB.isSome = true) ∧
        (staged.classification ≠ "removed" ∨ geomA.isSome = true) := by
  unfold selectChangeFeature
  constructor
  · rintro ⟨row, h⟩
    obtain ⟨geomA, hgeomA, h⟩ := bind_eq_ok.mp h
    obtain ⟨geomB, hgeomB, h⟩ := bind_eq_ok.mp h
    obtain ⟨projected, hprojected, h⟩ := bind_eq_ok.mp h
    obtain ⟨render, hrender, h⟩ := bind_eq_ok.mp h
    refine ⟨geomA, hgeomA, geomB, hgeomB, projected, hprojected, render, hrender,
      ?_⟩
    split at h
    · split at h
      · split at h
        · exact ⟨‹_›, ‹_›, ‹_›⟩
        · cases h
      · cases h
    · cases h
  · rintro ⟨geomA, hgeomA, geomB, hgeomB, projected, hprojected, render, hrender,
      hunchanged, hadded, hremoved⟩
    simp only [hgeomA, hgeomB, hprojected, hrender, ok_bind]
    rw [dif_pos hunchanged, dif_pos hadded, dif_pos hremoved]
    exact ⟨_, rfl⟩

/-- The rows of a change layer name, in order, what its features of another
classification than `unchanged` do. -/
theorem changesetRows_view {db : Database G}
    {changesetId snapshotAId snapshotBId : Nat} {layer : ChangeLayer J}
    {rows : List (ChangeFeatureRow G)}
    (h : changesetRows sh pg db changesetId snapshotAId snapshotBId layer =
      .ok rows) :
    (∀ row ∈ rows, row.changesetId = changesetId) ∧
    rows.map ChangeFeatureRow.view =
      (layer.map ChangeFeature.view).filter
        (fun view => view.1 ≠ some "unchanged") := by
  unfold changesetRows at h
  obtain ⟨features, hfeatures, h⟩ := bind_eq_ok.mp h
  obtain ⟨-, -, h⟩ := bind_eq_ok.mp h
  obtain ⟨-, -, h⟩ := bind_eq_ok.mp h
  obtain ⟨staged, hstaged, hrows⟩ := bind_eq_ok.mp h
  constructor
  · intro row hrow
    obtain ⟨s, -, hs⟩ := (mem_iff_of_mapM_eq_ok hrows).mp hrow
    exact (selectChangeFeature_spec hs).1
  · calc
      rows.map ChangeFeatureRow.view =
          staged.map (fun s => (some s.classification, s.osmIdsA, s.osmIdsB)) :=
        map_of_mapM_eq_ok hrows (fun _ _ _ h => (selectChangeFeature_spec h).2.1)
      _ = features.map ChangeFeature.view :=
        map_of_mapM_eq_ok hstaged (fun _ _ _ h => changeFeatureRow_view h)
      _ = (layer.map ChangeFeature.view).filter
          (fun view => view.1 ≠ some "unchanged") := by
        rw [changedFeatures_eq_ok hfeatures, List.filter_map]
        rfl

/-- The rows of a changeset. -/
def Database.changeRows (db : Database G) (changesetId : Nat) :
    List (ChangeFeatureRow G) :=
  db.changeFeatures.values.filter (fun row => row.changesetId = changesetId)

/-- A call that commits leaves exactly the rows of its change layer. -/
theorem changeRows_publishChangeFeatures {db db' : Database G}
    {changesetId snapshotAId snapshotBId written : Nat} {layer : ChangeLayer J}
    (h : publishChangeFeatures sh pg db changesetId snapshotAId snapshotBId
      layer = .ok (written, db')) :
    changesetRows sh pg db changesetId snapshotAId snapshotBId layer =
        .ok (db'.changeRows changesetId) ∧
      (db'.changeRows changesetId).map ChangeFeatureRow.view =
        (layer.map ChangeFeature.view).filter
          (fun view => view.1 ≠ some "unchanged") := by
  obtain ⟨rows, hrows, -, -, rfl⟩ := publishChangeFeatures_eq_ok_iff.mp h
  obtain ⟨hown, hview⟩ := changesetRows_view hrows
  have hvalues : ({ db with
      changeFeatures := (db.changeFeatures.deleteWhere
        (fun row => row.changesetId = changesetId)).insertAll rows } :
          Database G).changeRows changesetId = rows := by
    rw [Database.changeRows, SerialTable.values_insertAll,
      SerialTable.values_deleteWhere]
    exact filter_replace (by simpa using hown)
  rw [hvalues]
  exact ⟨hrows, hview⟩

/-- The published rows of a changed classification are as many as the features
of the layer. -/
theorem countP_changeRows_publishChangeFeatures {db db' : Database G}
    {changesetId snapshotAId snapshotBId written : Nat} {layer : ChangeLayer J}
    (h : publishChangeFeatures sh pg db changesetId snapshotAId snapshotBId
      layer = .ok (written, db')) {c : Classification} (hc : c ≠ .unchanged) :
    (db'.changeRows changesetId).countP (fun row => row.classification = c.value) =
      layerCount layer c := by
  have hvalue : c.value ≠ Classification.unchanged.value :=
    Classification.value_injective.ne hc
  have hview := (changeRows_publishChangeFeatures h).2
  calc
    _ = ((db'.changeRows changesetId).map ChangeFeatureRow.view).countP
          (fun view => view.1 = some c.value) := by
      rw [List.countP_map]
      apply List.countP_congr
      intro row _
      simp [ChangeFeatureRow.view]
    _ = (layer.map ChangeFeature.view).countP
          (fun view => view.1 = some c.value) := by
      rw [hview, List.countP_filter]
      apply List.countP_congr
      intro view _
      simp only [Bool.and_eq_true, decide_eq_true_eq]
      constructor
      · intro hboth
        exact hboth.1
      · intro heq
        refine ⟨heq, ?_⟩
        rw [heq]
        exact fun h => hvalue (Option.some.inj h)
    _ = layerCount layer c := by
      rw [List.countP_map]
      rfl

end Changes

end VectorMapChanges
