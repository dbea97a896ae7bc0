import VectorMapChanges.Api.Main
import VectorMapChanges.Matching.Pipeline

/-!
# The change tiles

`change_tile` checks the coordinates and the requested classifications, and
encodes the features that `CHANGE_TILE` selects.

Main facts:
* `changeTile_of_valid`: at the coordinates of a tile, the answer depends on the
  requested classifications only;
* `requestedClassifications_intercalate`: a comma-separated list of valid
  classifications requests these;
* `mem_changeTileQuery`, `nodup_changeTileQuery`: the answer has each feature of
  the requested classifications in the tile once, and no other.
-/

namespace VectorMapChanges
namespace Api

open Lib

/-- `MAX_ZOOM` -/
def maxZoom : Int := 22

/-- The coordinates of a tile. -/
structure Tile where
  z : Nat
  x : Nat
  y : Nat
  z_le : (z : Int) ≤ maxZoom
  x_lt : x < 2 ^ z
  y_lt : y < 2 ^ z

/-- `_validate_tile` -/
def validateTile (z x y : Int) : Except HttpError Unit :=
  if ¬ (0 ≤ z ∧ z ≤ maxZoom) then
    .error ⟨400, "zoom must be between 0 and " ++ toString maxZoom ++ ", got " ++
      toString z⟩
  else
    let limit : Int := 2 ^ z.toNat
    if ¬ ((0 ≤ x ∧ x < limit) ∧ (0 ≤ y ∧ y < limit)) then
      .error ⟨400, "x and y must be within [0, " ++ toString limit ++
        ") at zoom " ++ toString z⟩
    else .ok ()

theorem validateTile_tile (tile : Tile) :
    validateTile tile.z tile.x tile.y = .ok () := by
  have hz : (0 : Int) ≤ tile.z ∧ (tile.z : Int) ≤ maxZoom :=
    ⟨Int.natCast_nonneg _, tile.z_le⟩
  have hx : (tile.x : Int) < 2 ^ tile.z := by
    exact_mod_cast tile.x_lt
  have hy : (tile.y : Int) < 2 ^ tile.z := by
    exact_mod_cast tile.y_lt
  unfold validateTile
  rw [if_neg (not_not.mpr hz), Int.toNat_natCast]
  exact if_neg (not_not.mpr
    ⟨⟨Int.natCast_nonneg _, hx⟩, ⟨Int.natCast_nonneg _, hy⟩⟩)

section Classifications

/-- `VALID_CLASSIFICATIONS` -/
def validClassifications : List String :=
  ["added", "removed", "modified_geometry", "modified_attributes",
    "modified_geometry_and_attributes", "ambiguous"]

/-- The classifications that the `classifications` parameter asks for. -/
def requestedClassifications : Option String → Except HttpError (List String)
  | none => .ok (sorted validClassifications)
  | some text =>
      let requested := ((split ',' text).map strip).filter (· ≠ "")
      let unknown := (requested.filter (· ∉ validClassifications)).dedup
      if unknown ≠ [] then
        .error ⟨400, "unknown classification(s): " ++
          reprList ((sorted unknown).map reprStr) ++ ". Valid: " ++
          reprList ((sorted validClassifications).map reprStr) ++
          ". Note that 'unchanged' is derived from absence and never stored."⟩
      else .ok requested

/-- Without the parameter every classification is asked for. -/
theorem requestedClassifications_none :
    ∃ requested, requestedClassifications none = .ok requested ∧
      ∀ name, name ∈ requested ↔ name ∈ validClassifications :=
  ⟨_, rfl, fun _ => mem_sortBy⟩

/-- A valid classification is a plain word. -/
theorem plain_of_mem_validClassifications {name : String}
    (h : name ∈ validClassifications) :
    name ≠ "" ∧ ∀ c ∈ name.toList, c.isAlpha = true ∨ c = '_' := by
  have hplain : ∀ name ∈ validClassifications,
      name ≠ "" ∧ name.toList.all (fun c => c.isAlpha || c == '_') = true := by
    decide
  obtain ⟨hne, hall⟩ := hplain name h
  refine ⟨hne, ?_⟩
  intro c hc
  simpa using List.all_eq_true.mp hall c hc

theorem comma_not_mem_of_mem_validClassifications {name : String}
    (h : name ∈ validClassifications) : ',' ∉ name.toList := by
  intro hcomma
  have hplain := (plain_of_mem_validClassifications h).2 ',' hcomma
  revert hplain
  decide

theorem strip_of_mem_validClassifications {name : String}
    (h : name ∈ validClassifications) : strip name = name := by
  revert name
  decide

/-- A comma-separated list of valid classifications asks for these. -/
theorem requestedClassifications_intercalate {names : List String}
    (hvalid : ∀ name ∈ names, name ∈ validClassifications) (hne : names ≠ []) :
    requestedClassifications (some (String.intercalate "," names)) = .ok names := by
  have hsplit : split ',' (String.intercalate "," names) = names :=
    split_intercalate
      (fun name hname =>
        comma_not_mem_of_mem_validClassifications (hvalid name hname)) hne
  have hstrip : names.map strip = names := by
    conv_rhs => rw [← List.map_id names]
    exact List.map_congr_left
      (fun name hname => strip_of_mem_validClassifications (hvalid name hname))
  have hfilter : names.filter (· ≠ "") = names := by
    apply List.filter_eq_self.mpr
    intro name hname
    exact decide_eq_true (plain_of_mem_validClassifications (hvalid name hname)).1
  have hunknown : names.filter (· ∉ validClassifications) = [] := by
    apply List.filter_eq_nil_iff.mpr
    intro name hname
    simp [hvalid name hname]
  simp only [requestedClassifications, hsplit, hstrip, hfilter, hunknown]
  rfl

end Classifications

/-- The tile functions of PostGIS. -/
structure TileGis (G E M : Type) where
  /-- `ST_TileEnvelope(z, x, y)` -/
  tileEnvelope : Int → Int → Int → E
  /-- `geom && env` -/
  overlaps : G → E → Bool
  /-- `ST_AsMVTGeom(geom, env, 4096, 64, true)`, which is NULL for a geometry
  that leaves nothing in the tile -/
  asMvtGeom : G → E → Option M

/-- A feature of the `changes` layer of a tile. -/
structure TileFeature (M : Type) where
  changeFeatureId : Nat
  classification : String
  classificationReason : String
  iou : Option ℚ
  centroidShiftM : Option ℚ
  geom : M
deriving DecidableEq

/-- The response of `_mvt_response`.  Its content is the encoded layer. -/
structure TileResponse (M : Type) where
  content : List (TileFeature M)
  mediaType : String
  cacheControl : String
  dataVersion : String
  attribution : String
deriving DecidableEq

/-- The arguments of `change_tile`. -/
structure ChangeTileRequest where
  changesetId : Int
  z : Int
  x : Int
  y : Int
  classifications : Option String
deriving DecidableEq

section Tiles

variable {G E M : Type} (gis : TileGis G E M)

/-- The encoded feature of a row, if it is in the tile.  `ST_AsMVT` leaves out
the rows without a geometry. -/
def tileFeature (env : E) (row : Nat × ChangeFeatureRow G) :
    Option (TileFeature M) :=
  if gis.overlaps row.2.geomRender3857 env then
    (gis.asMvtGeom row.2.geomRender3857 env).map fun geom =>
      { changeFeatureId := row.1
        classification := row.2.classification
        classificationReason := row.2.classificationReason
        iou := row.2.iou
        centroidShiftM := row.2.centroidShiftM
        geom := geom }
  else none

/-- `CHANGE_TILE` -/
def changeTileQuery (table : SerialTable (ChangeFeatureRow G))
    (changesetId z x y : Int) (classifications : List String) :
    List (TileFeature M) :=
  (table.rows.filter fun row =>
    decide ((row.2.changesetId : Int) = changesetId) &&
      decide (row.2.classification ∈ classifications)).filterMap
    (tileFeature gis (gis.tileEnvelope z x y))

/-- `_mvt_response` -/
def mvtResponse (mvt : List (TileFeature M)) (cacheKey : String) :
    TileResponse M where
  content := mvt
  mediaType := "application/vnd.mapbox-vector-tile"
  cacheControl := "public, max-age=300"
  dataVersion := cacheKey
  attribution := "(c) OpenStreetMap contributors (ODbL)"

/-- `GET /tiles/changes/…` -/
def changeTile (table : SerialTable (ChangeFeatureRow G))
    (request : ChangeTileRequest) : Except HttpError (TileResponse M) := do
  validateTile request.z request.x request.y
  let requested ← requestedClassifications request.classifications
  pure (mvtResponse
    (changeTileQuery gis table request.changesetId request.z request.x request.y
      requested)
    ("changeset-" ++ toString request.changesetId))

/-- The selected features are those of the changeset in the tile that have one
of the classifications. -/
theorem mem_changeTileQuery {table : SerialTable (ChangeFeatureRow G)}
    {changesetId z x y : Int} {names : List String} {feature : TileFeature M} :
    feature ∈ changeTileQuery gis table changesetId z x y names ↔
      ∃ row ∈ table.rows, (row.2.changesetId : Int) = changesetId ∧
        row.2.classification ∈ names ∧
        tileFeature gis (gis.tileEnvelope z x y) row = some feature := by
  unfold changeTileQuery
  rw [List.mem_filterMap]
  constructor
  · rintro ⟨row, hrow, hfeature⟩
    obtain ⟨hmem, hwhere⟩ := List.mem_filter.mp hrow
    rw [Bool.and_eq_true, decide_eq_true_iff, decide_eq_true_iff] at hwhere
    exact ⟨row, hmem, hwhere.1, hwhere.2, hfeature⟩
  · rintro ⟨row, hmem, hid, hname, hfeature⟩
    refine ⟨row, List.mem_filter.mpr ⟨hmem, ?_⟩, hfeature⟩
    rw [Bool.and_eq_true, decide_eq_true_iff, decide_eq_true_iff]
    exact ⟨hid, hname⟩

/-- An encoded feature has the id, the classification and the clipped outline of
its row. -/
theorem tileFeature_eq_some {env : E} {row : Nat × ChangeFeatureRow G}
    {feature : TileFeature M} (h : tileFeature gis env row = some feature) :
    feature.changeFeatureId = row.1 ∧
      feature.classification = row.2.classification ∧
      gis.asMvtGeom row.2.geomRender3857 env = some feature.geom := by
  unfold tileFeature at h
  split at h
  · obtain ⟨geom, hgeom, rfl⟩ := Option.map_eq_some_iff.mp h
    exact ⟨rfl, rfl, hgeom⟩
  · cases h

/-- No feature is selected twice. -/
theorem nodup_changeTileQuery (table : SerialTable (ChangeFeatureRow G))
    (changesetId z x y : Int) (names : List String) :
    ((changeTileQuery gis table changesetId z x y names).map
      TileFeature.changeFeatureId).Nodup := by
  have hids : ∀ {rows : List (Nat × ChangeFeatureRow G)},
      ((rows.filterMap (tileFeature gis (gis.tileEnvelope z x y))).map
        TileFeature.changeFeatureId).Sublist (rows.map Prod.fst) := by
    intro rows
    induction rows with
    | nil => exact List.Sublist.refl _
    | cons row rest ih =>
        cases hrow : tileFeature gis (gis.tileEnvelope z x y) row with
        | none =>
            rw [List.filterMap_cons_none hrow, List.map_cons]
            exact ih.cons _
        | some feature =>
            rw [List.filterMap_cons_some hrow, List.map_cons, List.map_cons,
              (tileFeature_eq_some gis hrow).1]
            exact ih.cons_cons _
  exact (table.nodupIds.sublist (List.filter_sublist.map Prod.fst)).sublist hids

/-- At the coordinates of a tile only the classifications can be refused. -/
theorem changeTile_of_valid (table : SerialTable (ChangeFeatureRow G))
    (changesetId : Int) (tile : Tile) {text : Option String}
    {requested : List String}
    (h : requestedClassifications text = .ok requested) :
    (changeTile gis table ⟨changesetId, tile.z, tile.x, tile.y, text⟩).map
        TileResponse.content =
      .ok (changeTileQuery gis table changesetId tile.z tile.x tile.y
        requested) := by
  unfold changeTile
  rw [validateTile_tile, h]
  rfl

end Tiles

end Api
end VectorMapChanges
