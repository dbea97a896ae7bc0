import VectorMapChanges.Api.Tiles
import VectorMapChanges.Datetimes
import VectorMapChanges.Raster

/-!
# The classification filter

The ticked change types of the map travel from the checkboxes through the tile
URL to `change_tile`.  The URL names them, except that without any it has no
query at all, and then the server takes every change type for requested.

MapLibre fills the coordinates of a tile into the URL, and the web framework
reads the arguments of `change_tile` off the request.  Both are parameters, with
what is promised for the URLs of the change tiles as a hypothesis.

Main facts:
* `mem_visibleAfter_iff`: a box is ticked after an even number of clicks;
* `route_changeTileUrl`: the arguments with which `change_tile` is called;
* `changeTile_filter_iff`: when the map shows exactly the ticked types.
-/

namespace VectorMapChanges
namespace Web

open Lib Api

section Toggles

/-- `Classification` of the web client -/
inductive ChangeType where
  | added
  | removed
  | modifiedGeometry
  | modifiedAttributes
  | modifiedGeometryAndAttributes
  | ambiguous
deriving DecidableEq

/-- The text of a change type. -/
def ChangeType.name : ChangeType → String
  | added => "added"
  | removed => "removed"
  | modifiedGeometry => "modified_geometry"
  | modifiedAttributes => "modified_attributes"
  | modifiedGeometryAndAttributes => "modified_geometry_and_attributes"
  | ambiguous => "ambiguous"

/-- `CLASSIFICATIONS` of the web client -/
def changeTypes : List ChangeType :=
  [.added, .removed, .modifiedGeometry, .modifiedAttributes,
    .modifiedGeometryAndAttributes, .ambiguous]

/-- `toggleClassification` -/
def toggleClassification (current : List ChangeType) (c : ChangeType) :
    List ChangeType :=
  if c ∈ current then current.filter (· ≠ c) else current ++ [c]

/-- `visible` after clicks on the boxes of these change types. -/
def visibleAfter (toggles : List ChangeType) : List ChangeType :=
  toggles.foldl toggleClassification changeTypes

theorem mem_changeTypes (c : ChangeType) : c ∈ changeTypes := by
  cases c <;> decide

/-- A click changes its own box and no other. -/
theorem mem_toggleClassification {current : List ChangeType} {c d : ChangeType} :
    d ∈ toggleClassification current c ↔ (d ∈ current ↔ d ≠ c) := by
  unfold toggleClassification
  by_cases hc : c ∈ current
  · rw [if_pos hc, List.mem_filter, decide_eq_true_iff]
    by_cases hd : d = c
    · simp [hd, hc]
    · simp [hd]
  · rw [if_neg hc, List.mem_append, List.mem_singleton]
    by_cases hd : d = c
    · simp [hd, hc]
    · simp [hd]

/-- Clicks leave a box as it was when they hit it an even number of times. -/
theorem mem_foldl_toggleClassification {current toggles : List ChangeType}
    {c : ChangeType} :
    c ∈ toggles.foldl toggleClassification current ↔
      (c ∈ current ↔ Even (toggles.count c)) := by
  induction toggles generalizing current with
  | nil => simp
  | cons d rest ih =>
      rw [List.foldl_cons, ih, mem_toggleClassification]
      by_cases hd : d = c
      · rw [hd, List.count_cons_self, Nat.even_add_one]
        tauto
      · have hne : c ≠ d := fun h => hd h.symm
        rw [List.count_cons_of_ne hd]
        tauto

/-- A box is ticked after an even number of clicks. -/
theorem mem_visibleAfter_iff {toggles : List ChangeType} {c : ChangeType} :
    c ∈ visibleAfter toggles ↔ Even (toggles.count c) := by
  rw [visibleAfter, mem_foldl_toggleClassification]
  simp [mem_changeTypes c]

/-- The server knows the names of the change types, and no others. -/
theorem mem_validClassifications {name : String} :
    name ∈ validClassifications ↔ ∃ c : ChangeType, c.name = name := by
  have hnames : validClassifications = changeTypes.map ChangeType.name := rfl
  rw [hnames, List.mem_map]
  constructor
  · rintro ⟨c, -, hc⟩
    exact ⟨c, hc⟩
  · rintro ⟨c, hc⟩
    exact ⟨c, mem_changeTypes c, hc⟩

end Toggles

section Urls

/-- `changeTileUrl` -/
def changeTileUrl (origin : String) (changesetId : Nat)
    (classifications : List String) : String :=
  let query :=
    if classifications.length ≠ 0 then
      "?classifications=" ++ String.intercalate "," classifications
    else ""
  origin ++ "/tiles/changes/" ++ toString changesetId ++
    "/\x7bz\x7d/\x7bx\x7d/\x7by\x7d.mvt" ++ query

/-- How a tile is requested: MapLibre fills its coordinates into a URL, and the web
framework reads the arguments of `change_tile` off the request for the URL. -/
structure TileRequests where
  fill : String → Tile → String
  route : String → Option ChangeTileRequest

/-- The address of a tile, without a query. -/
def tileAddress (origin : String) (changesetId : Nat) (tile : Tile) : String :=
  origin ++ "/tiles/changes/" ++ toString changesetId ++ "/" ++ toString tile.z ++
    "/" ++ toString tile.x ++ "/" ++ toString tile.y ++ ".mvt"

/-- What MapLibre and the web framework do with the URLs of a tile. -/
structure ReadsTileUrls (requests : TileRequests) (origin : String)
    (changesetId : Nat) (tile : Tile) : Prop where
  /-- The coordinates are filled in, and text without braces is kept. -/
  fill : ∀ before after : String, '{' ∉ before.toList → '{' ∉ after.toList →
    requests.fill (before ++ "/\x7bz\x7d/\x7bx\x7d/\x7by\x7d.mvt" ++ after) tile =
      before ++ "/" ++ toString tile.z ++ "/" ++ toString tile.x ++ "/" ++
        toString tile.y ++ ".mvt" ++ after
  /-- Numbers in the path are read, and a parameter without a value is `None`. -/
  path : requests.route (tileAddress origin changesetId tile) =
    some ⟨changesetId, tile.z, tile.x, tile.y, none⟩
  /-- A value of letters, underscores and commas is read as it is written. -/
  query : ∀ value : String, value ≠ "" →
    (∀ c ∈ value.toList, c.isAlpha = true ∨ c = '_' ∨ c = ',') →
    requests.route
        (tileAddress origin changesetId tile ++ "?classifications=" ++ value) =
      some ⟨changesetId, tile.z, tile.x, tile.y, some value⟩

/-- The characters of joined classifications. -/
theorem plain_intercalate {names : List String}
    (hvalid : ∀ name ∈ names, name ∈ validClassifications) :
    ∀ c ∈ (String.intercalate "," names).toList,
      c.isAlpha = true ∨ c = '_' ∨ c = ',' := by
  have hword : ∀ name ∈ names, ∀ c ∈ name.toList,
      c.isAlpha = true ∨ c = '_' ∨ c = ',' := by
    intro name hname c hc
    rcases (plain_of_mem_validClassifications (hvalid name hname)).2 c hc with h | h
    · exact Or.inl h
    · exact Or.inr (Or.inl h)
  clear hvalid
  induction names with
  | nil => simp
  | cons name rest ih =>
      have hhead := hword name List.mem_cons_self
      have htail := ih (fun n hn => hword n (List.mem_cons_of_mem _ hn))
      cases rest with
      | nil =>
          rw [String.intercalate_singleton]
          exact hhead
      | cons next rest =>
          intro c hc
          rw [String.intercalate_cons_cons, String.toList_append,
            String.toList_append, List.mem_append, List.mem_append] at hc
          rcases hc with (hc | hc) | hc
          · exact hhead c hc
          · exact Or.inr (Or.inr (List.mem_singleton.mp hc))
          · exact htail c hc

/-- Joined classifications have no character that is special in a URL. -/
theorem not_mem_intercalate {names : List String}
    (hvalid : ∀ name ∈ names, name ∈ validClassifications) {c : Char}
    (hc : (c.isAlpha || c == '_' || c == ',') = false) :
    c ∉ (String.intercalate "," names).toList := by
  intro hmem
  rcases plain_intercalate hvalid c hmem with h | h | h
  · simp [h] at hc
  · simp [h] at hc
  · simp [h] at hc

theorem intercalate_ne_empty {names : List String}
    (hvalid : ∀ name ∈ names, name ∈ validClassifications) (hne : names ≠ []) :
    String.intercalate "," names ≠ "" := by
  intro hempty
  have hrequested := requestedClassifications_intercalate hvalid hne
  have hnone : requestedClassifications (some "") = .ok [] := by decide
  rw [hempty, hnone] at hrequested
  exact hne (Except.ok.inj hrequested).symm

/-- The arguments with which `change_tile` is called: without classifications
the URL has no query, and the server gets no parameter. -/
theorem route_changeTileUrl {requests : TileRequests} {origin : String}
    (horigin : '{' ∉ origin.toList) {changesetId : Nat} {tile : Tile}
    (hreads : ReadsTileUrls requests origin changesetId tile) {names : List String}
    (hvalid : ∀ name ∈ names, name ∈ validClassifications) :
    requests.route
        (requests.fill (changeTileUrl origin changesetId names) tile) =
      some ⟨changesetId, tile.z, tile.x, tile.y,
        if names = [] then none else some (String.intercalate "," names)⟩ := by
  have hbefore : '{' ∉ (origin ++ "/tiles/changes/" ++ toString changesetId).toList := by
    have hnumber : '{' ∉ (toString changesetId).toList := not_mem_toString (by decide)
    simp [-Nat.toString_eq_repr, horigin, hnumber]
  cases names with
  | nil =>
      have hfill := hreads.fill _ "" hbefore (by simp)
      have hurl := congrArg requests.route (hfill.trans String.append_empty)
      exact hurl.trans hreads.path
  | cons name rest =>
      have hplain := plain_intercalate hvalid
      have hbrace := not_mem_intercalate hvalid (c := '{') (by decide)
      have hne := intercalate_ne_empty hvalid (by simp)
      rw [if_neg (List.cons_ne_nil _ _)]
      generalize hvalue : String.intercalate "," (name :: rest) = value
        at hplain hbrace hne ⊢
      have hafter : '{' ∉ ("?classifications=" ++ value).toList := by
        simp [hbrace]
      have hfill := hreads.fill _ _ hbefore hafter
      have hurl : changeTileUrl origin changesetId (name :: rest) =
          origin ++ "/tiles/changes/" ++ toString changesetId ++
            "/\x7bz\x7d/\x7bx\x7d/\x7by\x7d.mvt" ++
            ("?classifications=" ++ value) := by
        simp [changeTileUrl, hvalue]
      rw [hurl, hfill, ← String.append_assoc]
      exact hreads.query value hne hplain

end Urls

section Filter

variable {G E M : Type} (gis : TileGis G E M)

/-- A geometry is in a tile: its box meets the envelope of the tile, and clipping
leaves something of it on the grid of the tile. -/
def InTile (tile : Tile) (geometry : G) : Prop :=
  gis.overlaps geometry (gis.tileEnvelope tile.z tile.x tile.y) = true ∧
    gis.asMvtGeom geometry (gis.tileEnvelope tile.z tile.x tile.y) ≠ none

/-- A response content has exactly the features of a changeset in a tile whose
classification is one of the names. -/
structure ShowsExactly (table : SerialTable (ChangeFeatureRow G)) (changesetId : Nat)
    (tile : Tile) (names : List String) (content : List (TileFeature M)) : Prop where
  /-- No feature is there twice. -/
  once : (content.map TileFeature.changeFeatureId).Nodup
  /-- What is there is such a feature, with its classification and its outline. -/
  only : ∀ feature ∈ content, ∃ row ∈ table.rows,
    row.1 = feature.changeFeatureId ∧ row.2.changesetId = changesetId ∧
      InTile gis tile row.2.geomRender3857 ∧ row.2.classification ∈ names ∧
      feature.classification = row.2.classification ∧
      gis.asMvtGeom row.2.geomRender3857
        (gis.tileEnvelope tile.z tile.x tile.y) = some feature.geom
  /-- Every such feature is there. -/
  all : ∀ row ∈ table.rows, row.2.changesetId = changesetId →
    InTile gis tile row.2.geomRender3857 → row.2.classification ∈ names →
    ∃ feature ∈ content, feature.changeFeatureId = row.1

/-- The response content that answers the tile URL. -/
def tileContent (requests : TileRequests)
    (table : SerialTable (ChangeFeatureRow G)) (origin : String)
    (changesetId : Nat) (tile : Tile) (visible : List ChangeType) :
    Option (Except HttpError (List (TileFeature M))) :=
  (requests.route (requests.fill
    (changeTileUrl origin changesetId (visible.map ChangeType.name)) tile)).map
    fun request => (changeTile gis table request).map TileResponse.content

/-- The features that `CHANGE_TILE` encodes are those of the geometries in the
tile. -/
theorem tileFeature_eq_some_iff {tile : Tile} {row : Nat × ChangeFeatureRow G} :
    (∃ feature, tileFeature gis (gis.tileEnvelope tile.z tile.x tile.y) row =
        some feature) ↔ InTile gis tile row.2.geomRender3857 := by
  unfold tileFeature InTile
  by_cases hbox : gis.overlaps row.2.geomRender3857
      (gis.tileEnvelope tile.z tile.x tile.y) = true
  · simp [hbox, Option.ne_none_iff_exists']
  · simp [hbox]

/-- The query answers with the features of the requested names. -/
theorem showsExactly_changeTileQuery (table : SerialTable (ChangeFeatureRow G))
    (changesetId : Nat) (tile : Tile) (names : List String) :
    ShowsExactly gis table changesetId tile names
      (changeTileQuery gis table changesetId tile.z tile.x tile.y names) where
  once := nodup_changeTileQuery gis table _ _ _ _ _
  only := by
    intro feature hfeature
    obtain ⟨row, hrow, hid, hname, hencoded⟩ :=
      (mem_changeTileQuery gis).mp hfeature
    obtain ⟨hfeatureId, hclass, hgeom⟩ := tileFeature_eq_some gis hencoded
    exact ⟨row, hrow, hfeatureId.symm, Int.ofNat_inj.mp hid,
      (tileFeature_eq_some_iff gis).mp ⟨feature, hencoded⟩, hname, hclass, hgeom⟩
  all := by
    intro row hrow hid htile hname
    obtain ⟨feature, hencoded⟩ := (tileFeature_eq_some_iff gis).mpr htile
    exact ⟨feature, (mem_changeTileQuery gis).mpr
      ⟨row, hrow, congrArg Nat.cast hid, hname, hencoded⟩,
      (tileFeature_eq_some gis hencoded).1⟩

/-- A content that shows exactly some names shows exactly other ones when no
feature in the tile tells them apart. -/
theorem ShowsExactly.other_iff {table : SerialTable (ChangeFeatureRow G)}
    {changesetId : Nat} {tile : Tile} {names shown : List String}
    {content : List (TileFeature M)}
    (h : ShowsExactly gis table changesetId tile names content) :
    ShowsExactly gis table changesetId tile shown content ↔
      ∀ row ∈ table.rows, row.2.changesetId = changesetId →
        InTile gis tile row.2.geomRender3857 →
        (row.2.classification ∈ names ↔ row.2.classification ∈ shown) := by
  -- ids are unique, so a content has a row only under a name it shows
  have hname : ∀ {some : List String},
      ShowsExactly gis table changesetId tile some content →
      ∀ row ∈ table.rows,
        (∃ feature ∈ content, feature.changeFeatureId = row.1) →
        row.2.classification ∈ some := by
    rintro some hsome row hrow ⟨feature, hfeature, hid⟩
    obtain ⟨row', hrow', hid', -, -, hclass, -⟩ := hsome.only feature hfeature
    have heq : row' = row := table.eq_of_id_eq hrow' hrow (hid'.trans hid)
    rwa [heq] at hclass
  constructor
  · intro hshown row hrow hid htile
    constructor
    · exact fun hin => hname hshown row hrow (h.all row hrow hid htile hin)
    · exact fun hin => hname h row hrow (hshown.all row hrow hid htile hin)
  · intro hsame
    refine ⟨h.once, ?_, ?_⟩
    · intro feature hfeature
      obtain ⟨row, hrow, hfeatureId, hid, htile, hclass, hrest⟩ :=
        h.only feature hfeature
      exact ⟨row, hrow, hfeatureId, hid, htile,
        (hsame row hrow hid htile).mp hclass, hrest⟩
    · intro row hrow hid htile hclass
      exact h.all row hrow hid htile ((hsame row hrow hid htile).mpr hclass)

/-- The answer has the features of the requested classifications: the ticked
ones, or all of them when none is ticked. -/
theorem tileContent_eq (table : SerialTable (ChangeFeatureRow G))
    {requests : TileRequests} {origin : String} (horigin : '{' ∉ origin.toList)
    {changesetId : Nat} {tile : Tile}
    (hreads : ReadsTileUrls requests origin changesetId tile)
    (visible : List ChangeType) :
    ∃ requested, tileContent gis requests table origin changesetId tile visible =
        some (.ok (changeTileQuery gis table changesetId tile.z tile.x tile.y
          requested)) ∧
      ∀ name, name ∈ requested ↔ if visible = [] then name ∈ validClassifications
        else name ∈ visible.map ChangeType.name := by
  have hvalid : ∀ name ∈ visible.map ChangeType.name,
      name ∈ validClassifications := by
    intro name hname
    obtain ⟨c, -, hc⟩ := List.mem_map.mp hname
    exact mem_validClassifications.mpr ⟨c, hc⟩
  unfold tileContent
  rw [route_changeTileUrl horigin hreads hvalid]
  cases visible with
  | nil =>
      obtain ⟨requested, hrequested, hmem⟩ := requestedClassifications_none
      exact ⟨requested, congrArg some (changeTile_of_valid gis table _ tile
        hrequested), hmem⟩
  | cons c rest =>
      have hrequested := requestedClassifications_intercalate hvalid (by simp)
      exact ⟨_, congrArg some (changeTile_of_valid gis table _ tile hrequested),
        fun _ => Iff.rfl⟩

/-- After any clicks on the boxes the map shows exactly the ticked change types
if and only if some box has been clicked an even number of times, or the tile has
no feature of the changeset to hide. -/
theorem changeTile_filter_iff (table : SerialTable (ChangeFeatureRow G))
    {requests : TileRequests} {origin : String} (horigin : '{' ∉ origin.toList)
    {changesetId : Nat} {tile : Tile}
    (hreads : ReadsTileUrls requests origin changesetId tile)
    (toggles : List ChangeType) :
    (∃ content, tileContent gis requests table origin changesetId tile
          (visibleAfter toggles) = some (.ok content) ∧
        ShowsExactly gis table changesetId tile
          ((visibleAfter toggles).map ChangeType.name) content) ↔
      (∃ c, Even (toggles.count c)) ∨
        ∀ row ∈ table.rows, row.2.changesetId = changesetId →
          InTile gis tile row.2.geomRender3857 →
          ∀ c : ChangeType, row.2.classification ≠ c.name := by
  obtain ⟨requested, hcontent, hrequested⟩ :=
    tileContent_eq gis table horigin hreads (visibleAfter toggles)
  have hticked : (∃ c, Even (toggles.count c)) ↔ visibleAfter toggles ≠ [] := by
    simp only [← mem_visibleAfter_iff]
    exact ⟨fun ⟨_, hc⟩ => List.ne_nil_of_mem hc, List.exists_mem_of_ne_nil _⟩
  rw [hticked, hcontent]
  simp only [Option.some.injEq, Except.ok.injEq, exists_eq_left']
  rw [(showsExactly_changeTileQuery gis table changesetId tile requested).other_iff]
  by_cases hnone : visibleAfter toggles = []
  · simp only [hnone, if_true] at hrequested
    simp only [hnone, hrequested, mem_validClassifications, List.map_nil,
      List.not_mem_nil, iff_false, not_exists, ne_eq, not_true_eq_false, false_or]
    constructor
    · exact fun h row hrow hid htile c hc => h row hrow hid htile c hc.symm
    · exact fun h row hrow hid htile c hc => h row hrow hid htile c hc.symm
  · simp only [hnone, if_false] at hrequested
    simp [hnone, hrequested]

end Filter

section Samples

/-- The coordinates of a tile are written into a text. -/
def fillTemplate (tile : Tile) : List Char → List Char
  | '{' :: 'z' :: '}' :: rest =>
      (toString tile.z).toList ++ fillTemplate tile rest
  | '{' :: 'x' :: '}' :: rest =>
      (toString tile.x).toList ++ fillTemplate tile rest
  | '{' :: 'y' :: '}' :: rest =>
      (toString tile.y).toList ++ fillTemplate tile rest
  | c :: rest => c :: fillTemplate tile rest
  | [] => []

/-- A decimal number in a path. -/
def pathNat (s : String) : Option Nat :=
  if s.toList ≠ [] ∧ s.toList.all Char.isDigit then
    some (Nat.ofDigitChars 10 s.toList 0)
  else none

/-- The route of a plain request: decimal numbers, and no parameter besides
`classifications`.  The framework reads more texts than these. -/
def plainRoute (target : List Char) : Option ChangeTileRequest :=
  let (path, query) := partitionChars '?' target
  let (key, value) := partition '=' query
  match split '/' path with
  | [root, tiles, changes, changesetId, z, x, file] =>
      let (y, suffix) := partition '.' file
      if [root, tiles, changes, suffix] = ["", "tiles", "changes", "mvt"] then do
        pure ⟨← pathNat changesetId, ← pathNat z, ← pathNat x, ← pathNat y,
          if key = "classifications" then some value else none⟩
      else none
  | _ => none

/-- The requests for the tiles of an origin. -/
def plainRequests (origin : String) : TileRequests where
  fill url tile := String.ofList (fillTemplate tile url.toList)
  route url := plainRoute (url.toList.drop origin.length)

theorem fillTemplate_cons {tile : Tile} {c : Char} {rest : List Char}
    (hc : c ≠ '{') :
    fillTemplate tile (c :: rest) = c :: fillTemplate tile rest := by
  rw [fillTemplate]
  · exact fun _ h _ => hc h
  · exact fun _ h _ => hc h
  · exact fun _ h _ => hc h

/-- Text without a brace is kept. -/
theorem fillTemplate_append {tile : Tile} {before : List Char}
    (h : '{' ∉ before) (rest : List Char) :
    fillTemplate tile (before ++ rest) = before ++ fillTemplate tile rest := by
  induction before with
  | nil => rfl
  | cons c before ih =>
      have hc : c ≠ '{' := fun hc => h (by simp [hc])
      have hbefore : '{' ∉ before := fun hmem => h (List.mem_cons_of_mem _ hmem)
      rw [List.cons_append, List.cons_append, fillTemplate_cons hc, ih hbefore]

theorem fillTemplate_of_not_mem {tile : Tile} {text : List Char}
    (h : '{' ∉ text) : fillTemplate tile text = text := by
  have happend : fillTemplate tile (text ++ []) = text ++ fillTemplate tile [] :=
    fillTemplate_append h []
  rw [List.append_nil] at happend
  rw [happend]
  exact List.append_nil _

theorem pathNat_toString (n : Nat) : pathNat (toString n) = some n := by
  have hne : (toString n).toList ≠ [] := by
    simp [Nat.toString_eq_repr, Nat.toDigits_ne_nil]
  have hdigits : (toString n).toList.all Char.isDigit = true :=
    List.all_eq_true.mpr (fun _ hc => isDigit_of_mem_toString hc)
  unfold pathNat
  rw [if_pos ⟨hne, hdigits⟩]
  simp [Nat.toString_eq_repr]

/-- The path of a tile. -/
def tilePath (changesetId : Nat) (tile : Tile) : String :=
  String.intercalate "/" ["", "tiles", "changes", toString changesetId,
    toString tile.z, toString tile.x, toString tile.y ++ ".mvt"]

/-- The parts of the path are free of separators. -/
theorem split_tilePath (changesetId : Nat) (tile : Tile) :
    split '/' (tilePath changesetId tile) =
      ["", "tiles", "changes", toString changesetId, toString tile.z,
        toString tile.x, toString tile.y ++ ".mvt"] := by
  refine split_intercalate ?_ (by simp)
  intro part hpart
  have hnumber : ∀ n : Nat, '/' ∉ (toString n).toList :=
    fun n => not_mem_toString (by decide)
  simp only [List.mem_cons, List.not_mem_nil, or_false] at hpart
  rcases hpart with rfl | rfl | rfl | rfl | rfl | rfl | rfl
  · decide
  · decide
  · decide
  · exact hnumber _
  · exact hnumber _
  · exact hnumber _
  · rw [String.toList_append, List.mem_append]
    rintro (h | h)
    · exact hnumber _ h
    · revert h
      decide

theorem toList_tileAddress (origin : String) (changesetId : Nat) (tile : Tile) :
    (tileAddress origin changesetId tile).toList =
      origin.toList ++ (tilePath changesetId tile).toList := by
  simp [tileAddress, tilePath]

/-- What the route reads off a path and a query. -/
theorem plainRoute_eq {changesetId : Nat} {tile : Tile} {target : List Char}
    {query key value : String}
    (h : partitionChars '?' target = (tilePath changesetId tile, query))
    (hquery : partition '=' query = (key, value)) :
    plainRoute target =
      some ⟨changesetId, tile.z, tile.x, tile.y,
        if key = "classifications" then some value else none⟩ := by
  have hfile : partition '.' (toString tile.y ++ ".mvt") =
      (toString tile.y, "mvt") := by
    have hsuffix : ".mvt".toList = '.' :: "mvt".toList := by decide
    unfold partition
    rw [String.toList_append, hsuffix]
    exact partitionChars_append (not_mem_toString (by decide))
  unfold plainRoute
  rw [h]
  simp only [hquery, split_tilePath, hfile, if_true, pathNat_toString]
  rfl

/-- The plain requests meet what is assumed of requests. -/
theorem readsTileUrls_plain (origin : String) (changesetId : Nat) (tile : Tile) :
    ReadsTileUrls (plainRequests origin) origin changesetId tile := by
  have hdrop : ∀ target : List Char,
      (origin.toList ++ target).drop origin.length = target := by
    intro target
    rw [← String.length_toList]
    exact List.drop_left
  have hquestion : '?' ∉ (tilePath changesetId tile).toList := by
    have hnumber : ∀ n : Nat, '?' ∉ (toString n).toList :=
      fun n => not_mem_toString (by decide)
    simp [tilePath, -Nat.toString_eq_repr, hnumber]
  constructor
  case fill =>
    intro before after hbefore hafter
    apply String.toList_inj.mp
    simp only [plainRequests, String.toList_ofList, String.toList_append,
      List.append_assoc]
    rw [fillTemplate_append hbefore]
    simp [fillTemplate, fillTemplate_of_not_mem hafter]
  case path =>
    have hparts := partitionChars_of_not_mem hquestion
    have hempty : partition '=' "" = ("", "") := by decide
    simp only [plainRequests, toList_tileAddress, hdrop]
    rw [plainRoute_eq hparts hempty]
    rfl
  case query =>
    intro value _ _
    have hparts : partitionChars '?' ((tilePath changesetId tile).toList ++
        '?' :: ("classifications=" ++ value).toList) =
        (tilePath changesetId tile, "classifications=" ++ value) :=
      partitionChars_append hquestion
    have hpair : partition '=' ("classifications=" ++ value) =
        ("classifications", value) := by
      have hkey : "classifications=".toList = "classifications".toList ++ ['='] := by
        decide
      unfold partition
      rw [String.toList_append, hkey, List.append_assoc, List.singleton_append]
      exact partitionChars_append (by decide)
    have htarget : (tileAddress origin changesetId tile ++ "?classifications=" ++
        value).toList = origin.toList ++ ((tilePath changesetId tile).toList ++
          '?' :: ("classifications=" ++ value).toList) := by
      simp [toList_tileAddress]
    simp only [plainRequests, htarget, hdrop]
    rw [plainRoute_eq hparts hpair, if_pos rfl]

/-- A rectangle of the map, in metres. -/
structure Envelope where
  left : ℚ
  right : ℚ
  bottom : ℚ
  top : ℚ

namespace Envelope

/-- `ST_TileEnvelope` -/
def ofTile (z x y : Int) : Envelope :=
  let half : ℚ := 20037508.342789244
  let size := 2 * half / 2 ^ z.toNat
  { left := x * size - half
    right := (x + 1) * size - half
    bottom := half - (y + 1) * size
    top := half - y * size }

/-- The envelope with a margin on every side. -/
def widened (env : Envelope) (margin : ℚ) : Envelope where
  left := env.left - margin
  right := env.right + margin
  bottom := env.bottom - margin
  top := env.top + margin

/-- A square of ten metres meets the envelope. -/
def Meets (env : Envelope) (square : ℤ × ℤ) : Prop :=
  (env.left ≤ 10 * square.1 + 10 ∧ 10 * square.1 ≤ env.right) ∧
    (env.bottom ≤ 10 * square.2 + 10 ∧ 10 * square.2 ≤ env.top)

instance (env : Envelope) (square : ℤ × ℤ) : Decidable (env.Meets square) :=
  inferInstanceAs (Decidable (_ ∧ _))

end Envelope

/-- The tiles of rasters with squares of ten metres.  A raster smaller than half
a cell of the grid of a tile is not in the tile. -/
def mercatorTiles : TileGis Raster Envelope Raster where
  tileEnvelope := Envelope.ofTile
  overlaps geometry env :=
    decide ((∃ p ∈ geometry.squares, ∃ q ∈ geometry.squares,
        env.left ≤ 10 * p.1 + 10 ∧ 10 * q.1 ≤ env.right) ∧
      ∃ p ∈ geometry.squares, ∃ q ∈ geometry.squares,
        env.bottom ≤ 10 * p.2 + 10 ∧ 10 * q.2 ≤ env.top)
  asMvtGeom geometry env :=
    let cell := (env.right - env.left) / 4096
    let kept := geometry.squares.filter (env.widened (64 * cell)).Meets
    if kept = ∅ ∨ ∀ p ∈ geometry.squares, ∀ q ∈ geometry.squares,
        10 * (|p.1 - q.1| + 1 : ℚ) < cell / 2 ∧
          10 * (|p.2 - q.2| + 1 : ℚ) < cell / 2 then none
    else some { geometry with squares := kept }

/-- A tile of Tel Aviv. -/
def cityTile : Tile where
  z := 16
  x := 39097
  y := 26598
  z_le := by decide
  x_lt := by decide
  y_lt := by decide

/-- A retraced building of changeset 1, in that tile. -/
def retraced : ChangeFeatureRow Raster where
  changesetId := 1
  classification := "modified_geometry"
  matchMethod := some "osm_id"
  matchScore := none
  classificationReason := "geometry"
  osmIdsA := ["way/1"]
  osmIdsB := ["way/1"]
  involvesRepairedGeometry := false
  touchesAoiBoundary := false
  iou := none
  iouCentroidAligned := none
  centroidShiftM := none
  areaRatio := none
  hausdorffM := none
  attrsChanged := []
  candidates := []
  geomA := none
  geomB := none
  geomRender3857 := Raster.region {(387050, 377250), (387051, 377250)}
  noUnchanged := by decide
  addedHasB := by decide
  removedHasA := by decide

/-- A table with that change only. -/
def retracedTable : SerialTable (ChangeFeatureRow Raster) :=
  SerialTable.empty.insert retraced

/-- The requests of the samples. -/
def localRequests : TileRequests :=
  plainRequests "http://localhost:5173"

/-- With one box unticked the map shows the others. -/
theorem changeTile_filter_oneUnticked :
    ∃ content, tileContent mercatorTiles localRequests retracedTable
          "http://localhost:5173" 1 cityTile (visibleAfter [.added]) =
        some (.ok content) ∧
      ShowsExactly mercatorTiles retracedTable 1 cityTile
        ((visibleAfter [.added]).map ChangeType.name) content :=
  (changeTile_filter_iff mercatorTiles retracedTable (by decide)
    (readsTileUrls_plain "http://localhost:5173" 1 cityTile) [.added]).mpr
    (Or.inl ⟨.removed, by decide⟩)

/-- With every box unticked the map shows every change. -/
theorem changeTile_filter_allUnticked :
    visibleAfter changeTypes = [] ∧
    (tileContent mercatorTiles localRequests retracedTable "http://localhost:5173" 1
        cityTile (visibleAfter changeTypes)).map
      (fun answer => answer.map (List.map TileFeature.classification)) =
      some (.ok ["modified_geometry"]) ∧
    ¬ ∃ content, tileContent mercatorTiles localRequests retracedTable
          "http://localhost:5173" 1 cityTile (visibleAfter changeTypes) =
        some (.ok content) ∧
      ShowsExactly mercatorTiles retracedTable 1 cityTile
        ((visibleAfter changeTypes).map ChangeType.name) content := by
  have hcontent : (tileContent mercatorTiles localRequests retracedTable
      "http://localhost:5173" 1 cityTile (visibleAfter changeTypes)).map
      (fun answer => answer.map (List.map TileFeature.classification)) =
      some (.ok ["modified_geometry"]) := by
    decide +kernel
  refine ⟨by decide, hcontent, ?_⟩
  rintro ⟨content, hok, hshows⟩
  rw [hok] at hcontent
  cases content with
  | nil =>
      revert hcontent
      decide
  | cons feature rest =>
      obtain ⟨row, -, -, -, -, hnone, -⟩ := hshows.only feature List.mem_cons_self
      revert hnone
      exact List.not_mem_nil

end Samples

end Web
end VectorMapChanges
