import VectorMapChanges.Api.Lookups
import VectorMapChanges.Lib.Pyramid

/-!
# The building tiles

`building_tile` serves the grey context layer: every building of one snapshot, and on
the lower zooms its simplified footprint.  Floats are exact rationals.

Main facts:
* `buildingTile_eq_ok_iff`, `mem_buildingTileQuery`: which requests are answered, and
  with what;
* `exists_tile`, `Tile.selects_parent`: the tiles of a zoom are the whole square, and
  a tile selects what its children do;
* `buildingTile_complete`, `building_on_every_zoom`: the two in every state that the
  system reaches.
-/

namespace VectorMapChanges
namespace Api

open Lib

section Query

/-- PostGIS, with `ST_SimplifyPreserveTopology`. -/
structure BuildingGis (G E M : Type) extends TileGis G E M where
  simplify : G → ℚ → G

/-- A feature of the `buildings` layer of a tile. -/
structure BuildingFeature (M : Type) where
  osmId : String
  geom : M
deriving DecidableEq

/-- The response of `_mvt_response` with a `buildings` layer. -/
structure BuildingResponse (M : Type) where
  content : List (BuildingFeature M)
  mediaType : String
  cacheControl : String
  dataVersion : String
  attribution : String
deriving DecidableEq

variable {G E M : Type} (gis : BuildingGis G E M)

/-- `40075016.686 / (256 * (1 << z)) * 2` -/
def tolerance (z : Int) : ℚ :=
  40075016686 / 1000 / (256 * 2 ^ z.toNat) * 2

/-- `CASE WHEN z >= 16 THEN … ELSE … END` -/
def servedShape (z : Int) (geom3857 : G) : G :=
  if 16 ≤ z then geom3857 else gis.simplify geom3857 (tolerance z)

/-- The encoded feature of a row that the tile selects. -/
def buildingFeature (z : Int) (env : E) (row : SnapshotFeatureRow G) :
    Option (BuildingFeature M) :=
  if gis.overlaps row.geom3857 env then
    (gis.asMvtGeom (servedShape gis z row.geom3857) env).map fun geom =>
      ⟨row.osmId, geom⟩
  else none

/-- `BUILDING_TILE` -/
def buildingTileQuery (db : Database G) (snapshotId z x y : Int) :
    List (BuildingFeature M) :=
  (db.snapshotFeatures.values.filter
    (fun row => (row.snapshotId : Int) = snapshotId)).filterMap
      (buildingFeature gis z (gis.tileEnvelope z x y))

/-- `GET /tiles/buildings/…` -/
def buildingTile (db : Database G) (snapshotId z x y : Int) :
    Except HttpError (BuildingResponse M) := do
  validateTile z x y
  pure
    { content := buildingTileQuery gis db snapshotId z x y
      mediaType := "application/vnd.mapbox-vector-tile"
      cacheControl := "public, max-age=300"
      dataVersion := "snapshot-" ++ toString snapshotId
      attribution := "(c) OpenStreetMap contributors (ODbL)" }

/-- The coordinates that are accepted are those of tiles. -/
theorem validateTile_eq_ok_iff {z x y : Int} :
    validateTile z x y = .ok () ↔
      ∃ tile : Tile, (tile.z : Int) = z ∧ (tile.x : Int) = x ∧ (tile.y : Int) = y := by
  constructor
  · intro h
    unfold validateTile at h
    split at h
    · cases h
    · rename_i hz
      rw [not_not] at hz
      dsimp only at h
      split at h
      · cases h
      · rename_i hxy
        rw [not_not] at hxy
        obtain ⟨⟨hx, hxlt⟩, hy, hylt⟩ := hxy
        have hcast : ((2 ^ z.toNat : Nat) : Int) = 2 ^ z.toNat := by
          push_cast
          rfl
        refine ⟨⟨z.toNat, x.toNat, y.toNat, ?_, ?_, ?_⟩, Int.toNat_of_nonneg hz.1,
          Int.toNat_of_nonneg hx, Int.toNat_of_nonneg hy⟩
        · rw [Int.toNat_of_nonneg hz.1]
          exact hz.2
        · rw [← Int.ofNat_lt, Int.toNat_of_nonneg hx, hcast]
          exact hxlt
        · rw [← Int.ofNat_lt, Int.toNat_of_nonneg hy, hcast]
          exact hylt
  · rintro ⟨tile, rfl, rfl, rfl⟩
    exact validateTile_tile tile

/-- The requests for tiles are answered, and no others. -/
theorem buildingTile_eq_ok_iff {db : Database G} {snapshotId z x y : Int} :
    (∃ response, buildingTile gis db snapshotId z x y = .ok response) ↔
      ∃ tile : Tile, (tile.z : Int) = z ∧ (tile.x : Int) = x ∧ (tile.y : Int) = y := by
  rw [← validateTile_eq_ok_iff]
  constructor
  · rintro ⟨response, h⟩
    obtain ⟨⟨⟩, hvalid, -⟩ := bind_eq_ok.mp h
    exact hvalid
  · intro hvalid
    exact ⟨_, bind_eq_ok.mpr ⟨(), hvalid, rfl⟩⟩

variable {gis}

/-- The tile selects the building. -/
def Tile.Selects (gis : BuildingGis G E M) (tile : Tile) (row : SnapshotFeatureRow G) :
    Prop :=
  gis.overlaps row.geom3857 (gis.tileEnvelope tile.z tile.x tile.y) = true

theorem filter_snapshotId (db : Database G) (snapshotId : Nat) :
    db.snapshotFeatures.values.filter
        (fun row => (row.snapshotId : Int) = snapshotId) =
      db.featureRows snapshotId := by
  apply List.filter_congr
  intro row _
  rw [decide_eq_decide]
  exact Int.natCast_inj

/-- A tile has the buildings of the snapshot that it selects, in so far as clipping
leaves something of them. -/
theorem mem_buildingTileQuery {db : Database G} {snapshotId : Nat} {tile : Tile}
    {feature : BuildingFeature M} :
    feature ∈ buildingTileQuery gis db snapshotId tile.z tile.x tile.y ↔
      ∃ row ∈ db.featureRows snapshotId, tile.Selects gis row ∧
        feature.osmId = row.osmId ∧
        gis.asMvtGeom (servedShape gis tile.z row.geom3857)
          (gis.tileEnvelope tile.z tile.x tile.y) = some feature.geom := by
  rw [buildingTileQuery, filter_snapshotId, List.mem_filterMap]
  refine exists_congr fun row => and_congr_right fun _ => ?_
  unfold buildingFeature Tile.Selects
  split
  · rename_i hselects
    rw [Option.map_eq_some_iff]
    constructor
    · rintro ⟨geom, hgeom, rfl⟩
      exact ⟨hselects, rfl, hgeom⟩
    · rintro ⟨-, hid, hgeom⟩
      exact ⟨feature.geom, hgeom, by rw [← hid]⟩
  · rename_i hnot
    exact iff_of_false (fun h => by cases h) (fun h => hnot h.1)

/-- No building is in a tile twice. -/
theorem nodup_buildingTileQuery (gis : BuildingGis G E M) (db : Database G)
    (snapshotId : Nat) (tile : Tile) :
    ((buildingTileQuery gis db snapshotId tile.z tile.x tile.y).map
      (·.osmId)).Nodup := by
  rw [buildingTileQuery, filter_snapshotId]
  refine nodup_map_filterMap ?_ (db.nodup_osmIds snapshotId)
  intro row feature hfeature
  unfold buildingFeature at hfeature
  split at hfeature
  · obtain ⟨geom, -, rfl⟩ := Option.map_eq_some_iff.mp hfeature
    rfl
  · cases hfeature

end Query

section Pyramid

/-- A box of the plane. -/
structure Box where
  minX : ℚ
  maxX : ℚ
  minY : ℚ
  maxY : ℚ
  x_le : minX ≤ maxX
  y_le : minY ≤ maxY
deriving DecidableEq

/-- The boxes have a common point. -/
def Box.Meets (b e : Box) : Prop :=
  (b.minX ≤ e.maxX ∧ e.minX ≤ b.maxX) ∧ b.minY ≤ e.maxY ∧ e.minY ≤ b.maxY

instance (b e : Box) : Decidable (b.Meets e) :=
  inferInstanceAs (Decidable ((_ ∧ _) ∧ _ ∧ _))

/-- The square that the tiles divide. -/
structure Square where
  lo : ℚ
  side : ℚ
  side_pos : 0 < side

/-- A point of the box is in the square, whose upper edges do not belong to it. -/
def Square.Meets (sq : Square) (b : Box) : Prop :=
  (b.minX < sq.lo + sq.side ∧ sq.lo ≤ b.maxX) ∧
    b.minY < sq.lo + sq.side ∧ sq.lo ≤ b.maxY

/-- The row of a tile, counted from below. -/
def Tile.row (tile : Tile) : Int :=
  2 ^ tile.z - 1 - tile.y

/-- The part of the square that a tile shows. -/
def tileBox (sq : Square) (tile : Tile) : Box where
  minX := Pyramid.edge sq.lo sq.side tile.z tile.x
  maxX := Pyramid.edge sq.lo sq.side tile.z (tile.x + 1)
  minY := Pyramid.edge sq.lo sq.side tile.z tile.row
  maxY := Pyramid.edge sq.lo sq.side tile.z (tile.row + 1)
  x_le := Pyramid.edge_le_edge sq.lo sq.side_pos _ (by omega)
  y_le := Pyramid.edge_le_edge sq.lo sq.side_pos _ (by omega)

/-- The tile that shows a tile on the zoom above. -/
def Tile.parent (tile : Tile) : Tile where
  z := tile.z - 1
  x := tile.x / 2
  y := tile.y / 2
  z_le := by
    have hz := tile.z_le
    omega
  x_lt := by
    have hx := tile.x_lt
    cases hz : tile.z with
    | zero =>
        rw [hz] at hx
        omega
    | succ z =>
        rw [hz, pow_succ] at hx
        rw [Nat.add_sub_cancel]
        omega
  y_lt := by
    have hy := tile.y_lt
    cases hz : tile.z with
    | zero =>
        rw [hz] at hy
        omega
    | succ z =>
        rw [hz, pow_succ] at hy
        rw [Nat.add_sub_cancel]
        omega

/-- PostGIS divides a square into tiles, and finds overlaps by the boxes of
geometries. -/
structure GridEnvelopes {G M : Type} (gis : BuildingGis G Box M) (bounds : G → Box)
    (sq : Square) : Prop where
  envelope : ∀ tile : Tile, gis.tileEnvelope tile.z tile.x tile.y = tileBox sq tile
  overlaps : ∀ g e, gis.overlaps g e = true ↔ (bounds g).Meets e

/-- A tile is within its parent. -/
theorem tileBox_parent (sq : Square) (tile : Tile) :
    ((tileBox sq tile.parent).minX ≤ (tileBox sq tile).minX ∧
      (tileBox sq tile).maxX ≤ (tileBox sq tile.parent).maxX) ∧
    (tileBox sq tile.parent).minY ≤ (tileBox sq tile).minY ∧
      (tileBox sq tile).maxY ≤ (tileBox sq tile.parent).maxY := by
  obtain ⟨z, x, y, hz, hx, hy⟩ := tile
  cases z with
  | zero =>
      obtain rfl : x = 0 := by omega
      obtain rfl : y = 0 := by omega
      have hparent : Tile.parent ⟨0, 0, 0, hz, hx, hy⟩ = ⟨0, 0, 0, hz, hx, hy⟩ := by
        simp [Tile.parent]
      rw [hparent]
      exact ⟨⟨le_rfl, le_rfl⟩, le_rfl, le_rfl⟩
  | succ z =>
      have hrow : (2 ^ (z + 1) - 1 - (y : Int)) / 2 = 2 ^ z - 1 - ((y / 2 : Nat) : Int) := by
        rw [pow_succ]
        omega
      have hcolumn : (x : Int) / 2 = ((x / 2 : Nat) : Int) := by
        omega
      have hX := Pyramid.parent_edges sq.lo sq.side_pos z x
      have hY := Pyramid.parent_edges sq.lo sq.side_pos z (2 ^ (z + 1) - 1 - (y : Int))
      rw [hcolumn] at hX
      rw [hrow] at hY
      exact ⟨hX, hY⟩

variable {G M : Type} {gis : BuildingGis G Box M} {bounds : G → Box} {sq : Square}

theorem GridEnvelopes.selects_iff (h : GridEnvelopes gis bounds sq) {tile : Tile}
    {row : SnapshotFeatureRow G} :
    tile.Selects gis row ↔ (bounds row.geom3857).Meets (tileBox sq tile) := by
  rw [Tile.Selects, h.envelope, h.overlaps]

/-- A building that a tile selects is selected on the zoom above too. -/
theorem Tile.selects_parent (h : GridEnvelopes gis bounds sq) {tile : Tile}
    {row : SnapshotFeatureRow G} (hselects : tile.Selects gis row) :
    tile.parent.Selects gis row := by
  rw [h.selects_iff] at hselects ⊢
  obtain ⟨⟨hminX, hmaxX⟩, hminY, hmaxY⟩ := hselects
  obtain ⟨⟨hleft, hright⟩, hbelow, habove⟩ := tileBox_parent sq tile
  exact ⟨⟨hminX.trans hright, hleft.trans hmaxX⟩, hminY.trans habove,
    hbelow.trans hmaxY⟩

/-- A number that an interval of the square has, and the cell that it is in. -/
theorem exists_cell (sq : Square) (z : Nat) {least greatest : ℚ}
    (hle : least ≤ greatest) (hmeets : least < sq.lo + sq.side ∧ sq.lo ≤ greatest) :
    ∃ i : Int, (0 ≤ i ∧ i < 2 ^ z) ∧
      least ≤ Pyramid.edge sq.lo sq.side z (i + 1) ∧
      Pyramid.edge sq.lo sq.side z i ≤ greatest := by
  have hpoint : max least sq.lo ∈ Set.Ico sq.lo (sq.lo + sq.side) := by
    refine Set.mem_Ico.mpr ⟨le_max_right _ _, max_lt hmeets.1 ?_⟩
    linarith [sq.side_pos]
  have hcell := (Pyramid.mem_cell_iff sq.side_pos z (max least sq.lo)
    (Pyramid.index sq.lo sq.side z (max least sq.lo))).mpr rfl
  obtain ⟨hfrom, hto⟩ := Set.mem_Ico.mp hcell
  refine ⟨_, Pyramid.index_mem sq.side_pos z hpoint, ?_, ?_⟩
  · exact (le_max_left _ _).trans hto.le
  · exact hfrom.trans (max_le hle hmeets.2)

/-- On every zoom some tile selects a building of the square. -/
theorem exists_tile (h : GridEnvelopes gis bounds sq) {row : SnapshotFeatureRow G}
    (hmeets : sq.Meets (bounds row.geom3857)) {z : Nat} (hz : (z : Int) ≤ maxZoom) :
    ∃ tile : Tile, tile.z = z ∧ tile.Selects gis row := by
  obtain ⟨i, ⟨hi, hilt⟩, hminX, hmaxX⟩ :=
    exists_cell sq z (bounds row.geom3857).x_le hmeets.1
  obtain ⟨j, ⟨hj, hjlt⟩, hminY, hmaxY⟩ :=
    exists_cell sq z (bounds row.geom3857).y_le hmeets.2
  have hpow : ((2 ^ z : Nat) : Int) = 2 ^ z := by
    push_cast
    rfl
  have hx : ((i.toNat : Nat) : Int) = i := Int.toNat_of_nonneg hi
  have hy : (((2 ^ z - 1 - j).toNat : Nat) : Int) = 2 ^ z - 1 - j :=
    Int.toNat_of_nonneg (by omega)
  let tile : Tile :=
    { z := z, x := i.toNat, y := (2 ^ z - 1 - j).toNat, z_le := hz,
      x_lt := by omega, y_lt := by omega }
  have hrow : tile.row = j := by
    show (2 : Int) ^ z - 1 - ((2 ^ z - 1 - j).toNat : Nat) = j
    omega
  refine ⟨tile, rfl, h.selects_iff.mpr ⟨⟨?_, ?_⟩, ?_, ?_⟩⟩
  · show _ ≤ Pyramid.edge sq.lo sq.side z ((i.toNat : Nat) + 1)
    rw [hx]
    exact hminX
  · show Pyramid.edge sq.lo sq.side z (i.toNat : Nat) ≤ _
    rw [hx]
    exact hmaxX
  · show _ ≤ Pyramid.edge sq.lo sq.side z (tile.row + 1)
    rw [hrow]
    exact hminY
  · show Pyramid.edge sq.lo sq.side z tile.row ≤ _
    rw [hrow]
    exact hmaxY

end Pyramid

section Main

variable {G J E M : Type} {hit : G → G → Bool}

/-- In every state that the system reaches, a building tile has each building of the
snapshot that it selects once, and each of them can be looked up. -/
theorem buildingTile_complete (sh : Shapely G J) (pg : PostGis G) (aoi : Aoi J)
    (bucket : Bucket) (objects : Objects J) (tasks : List (TaskRun J hit))
    (gis : BuildingGis G E M) (history : HistoryGis G J) (snapshotId : Nat)
    (tile : Tile) :
    ∃ response, buildingTile gis (reached sh pg aoi bucket objects tasks).database
        snapshotId tile.z tile.x tile.y = .ok response ∧
      (response.content.map (·.osmId)).Nodup ∧
      (∀ row ∈ (reached sh pg aoi bucket objects tasks).database.featureRows snapshotId,
        tile.Selects gis row → ∀ geom,
          gis.asMvtGeom (servedShape gis tile.z row.geom3857)
              (gis.tileEnvelope tile.z tile.x tile.y) = some geom →
            (⟨row.osmId, geom⟩ : BuildingFeature M) ∈ response.content) ∧
      ∀ feature ∈ response.content, ∃ detail,
        getSnapshotFeature history (reached sh pg aoi bucket objects tasks).database
          snapshotId feature.osmId = .ok detail ∧
        detail.osmId = feature.osmId ∧ detail.snapshotId = snapshotId := by
  have href : Referential (reached sh pg aoi bucket objects tasks).database :=
    referential_reached sh pg aoi bucket objects tasks
  refine ⟨_, bind_eq_ok.mpr ⟨(), validateTile_tile tile, rfl⟩,
    nodup_buildingTileQuery gis _ snapshotId tile, ?_, ?_⟩
  · intro row hrow hselects geom hgeom
    exact mem_buildingTileQuery.mpr ⟨row, hrow, hselects, rfl, hgeom⟩
  · intro feature hfeature
    obtain ⟨row, hrow, -, hosmId, -⟩ := mem_buildingTileQuery.mp hfeature
    obtain ⟨hvalue, hid⟩ := List.mem_filter.mp hrow
    obtain rfl := of_decide_eq_true hid
    obtain ⟨sf, hsf, rfl⟩ := List.mem_map.mp hvalue
    obtain ⟨s, hs, hsid⟩ := List.mem_map.mp (href.features sf hsf)
    refine ⟨snapshotFeatureDetail history sf s, ?_, hosmId.symm, rfl⟩
    unfold getSnapshotFeature
    rw [hosmId, snapshotFeatureQuery_eq hsf hs hsid]

/-- A published building of the square is selected by some tile of every zoom, which
serves what clipping leaves of it, and a tile that selects it is shown by one that
does. -/
theorem building_on_every_zoom {gis : BuildingGis G Box M} {bounds : G → Box}
    {sq : Square} (h : GridEnvelopes gis bounds sq) (db : Database G)
    (snapshotId : Nat) {row : SnapshotFeatureRow G}
    (hrow : row ∈ db.featureRows snapshotId)
    (hmeets : sq.Meets (bounds row.geom3857)) :
    (∀ z : Nat, (z : Int) ≤ maxZoom → ∃ tile : Tile, tile.z = z ∧
      tile.Selects gis row ∧
      ∀ geom, gis.asMvtGeom (servedShape gis tile.z row.geom3857)
          (gis.tileEnvelope tile.z tile.x tile.y) = some geom →
        ∃ response, buildingTile gis db snapshotId tile.z tile.x tile.y =
            .ok response ∧
          (⟨row.osmId, geom⟩ : BuildingFeature M) ∈ response.content) ∧
    ∀ tile : Tile, tile.Selects gis row → tile.parent.Selects gis row := by
  refine ⟨?_, fun tile hselects => Tile.selects_parent h hselects⟩
  intro z hz
  obtain ⟨tile, htile, hselects⟩ := exists_tile h hmeets hz
  refine ⟨tile, htile, hselects, ?_⟩
  intro geom hgeom
  exact ⟨_, bind_eq_ok.mpr ⟨(), validateTile_tile tile, rfl⟩,
    mem_buildingTileQuery.mpr ⟨row, hrow, hselects, rfl, hgeom⟩⟩

end Main

section Samples

theorem inf'_le_sup'_add_one {squares : Finset (ℤ × ℤ)} (h : squares.Nonempty)
    (f : ℤ × ℤ → ℚ) : squares.inf' h f ≤ squares.sup' h f + 1 := by
  obtain ⟨p, hp⟩ := h
  have hle := (Finset.inf'_le f hp).trans (Finset.le_sup' f hp)
  linarith

/-- The box around the squares of a footprint. -/
def rasterBounds (g : Raster) : Box :=
  if h : g.squares.Nonempty then
    { minX := g.squares.inf' h (fun p => (p.1 : ℚ))
      maxX := g.squares.sup' h (fun p => (p.1 : ℚ)) + 1
      minY := g.squares.inf' h (fun p => (p.2 : ℚ))
      maxY := g.squares.sup' h (fun p => (p.2 : ℚ)) + 1
      x_le := inf'_le_sup'_add_one h _
      y_le := inf'_le_sup'_add_one h _ }
  else ⟨0, 0, 0, 0, le_rfl, le_rfl⟩

/-- A square of 2048 unit squares, around the origin. -/
def rasterSquare : Square where
  lo := -1024
  side := 2048
  side_pos := by norm_num

/-- Tiles of that square. -/
def rasterTiles : BuildingGis Raster Box Raster where
  tileEnvelope z x y :=
    if h : ((z.toNat : Int) ≤ maxZoom ∧ x.toNat < 2 ^ z.toNat) ∧ y.toNat < 2 ^ z.toNat
    then tileBox rasterSquare ⟨z.toNat, x.toNat, y.toNat, h.1.1, h.1.2, h.2⟩
    else ⟨0, 0, 0, 0, le_rfl, le_rfl⟩
  overlaps g e := decide ((rasterBounds g).Meets e)
  asMvtGeom g _ := if g.squares = ∅ then none else some g
  simplify g _ := g

theorem gridEnvelopes_rasterTiles :
    GridEnvelopes rasterTiles rasterBounds rasterSquare where
  envelope tile := by
    have htile : ((tile.z : Int) ≤ maxZoom ∧ tile.x < 2 ^ tile.z) ∧
        tile.y < 2 ^ tile.z := ⟨⟨tile.z_le, tile.x_lt⟩, tile.y_lt⟩
    simp only [rasterTiles, Int.toNat_natCast]
    exact dif_pos htile
  overlaps g e := decide_eq_true_iff

/-- A building at the origin, on the lowest and on the highest zoom. -/
theorem building_on_every_zoom_footprint :
    (∃ tile : Tile, tile.z = 0 ∧ ∃ response,
      buildingTile rasterTiles shown.database 1 tile.z tile.x tile.y = .ok response ∧
        (⟨"way/1", Raster.region {(0, 0)}⟩ : BuildingFeature Raster) ∈
          response.content) ∧
    ∃ tile : Tile, tile.z = 22 ∧
      tile.Selects rasterTiles (footprint 1 {(0, 0)}) ∧
      tile.parent.Selects rasterTiles (footprint 1 {(0, 0)}) := by
  have hrow : footprint 1 {(0, 0)} ∈ shown.database.featureRows 1 := by
    decide +kernel
  have hmeets : rasterSquare.Meets (rasterBounds (footprint 1 {(0, 0)}).geom3857) := by
    unfold Square.Meets
    decide +kernel
  obtain ⟨hzooms, hparent⟩ := building_on_every_zoom gridEnvelopes_rasterTiles
    shown.database 1 hrow hmeets
  obtain ⟨low, hlow, -, hserved⟩ := hzooms 0 (by decide)
  obtain ⟨high, hhigh, hselects, -⟩ := hzooms 22 (by decide)
  refine ⟨⟨low, hlow, hserved _ ?_⟩, high, hhigh, hselects, hparent high hselects⟩
  rw [hlow]
  rfl

end Samples

end Api
end VectorMapChanges
