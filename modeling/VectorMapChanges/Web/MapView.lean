import VectorMapChanges.Web.App
import VectorMapChanges.Web.Filter

/-!
# The map

`MapView` keeps a MapLibre map in step with its props.  React renders it with some
props and then runs the effects of its hooks in order, each only if one of its
dependencies is another than in the render before.  A new style drops all sources and
layers and is loaded some time later; until then MapLibre refuses new ones.

Sources and layers are those that the hooks add; a basemap has its own under other
ids.

Main facts:
* `boundsOf_covers`: the map flies to all that is drawn of a selection.
-/

namespace VectorMapChanges
namespace Web

open Lib

section Theme

/-- `PaletteMode` -/
inductive PaletteMode where
  | light
  | dark
deriving DecidableEq

/-- `BasemapChoice` -/
inductive BasemapChoice where
  | map
  | satellite
deriving DecidableEq

def PaletteMode.value : PaletteMode → String
  | light => "light"
  | dark => "dark"

def BasemapChoice.value : BasemapChoice → String
  | map => "map"
  | satellite => "satellite"

/-- A style that MapLibre is given: the URL of one, or `SATELLITE_STYLE`. -/
inductive Style where
  | url (url : String)
  | satellite
deriving DecidableEq

/-- `basemapStyleUrl` -/
def basemapStyleUrl : PaletteMode → String
  | .dark => "https://tiles.openfreemap.org/styles/dark"
  | .light => "https://tiles.openfreemap.org/styles/positron"

/-- `styleFor` -/
def styleFor (mode : PaletteMode) : BasemapChoice → Style
  | .satellite => .satellite
  | .map => .url (basemapStyleUrl mode)

/-- The key of `appliedStyleKey`. -/
def styleKey (mode : PaletteMode) (basemap : BasemapChoice) : String :=
  mode.value ++ ":" ++ basemap.value

/-- The key tells themes and basemaps apart. -/
theorem styleKey_eq_iff {mode mode' : PaletteMode} {basemap basemap' : BasemapChoice} :
    styleKey mode basemap = styleKey mode' basemap' ↔
      mode = mode' ∧ basemap = basemap' := by
  cases mode <;> cases mode' <;> cases basemap <;> cases basemap' <;> decide

end Theme

section Outlines

/-- A longitude and a latitude. -/
abbrev Position := ℚ × ℚ

/-- `GeoJsonGeometry` -/
inductive GeoJsonGeometry where
  | polygon (coordinates : List (List Position))
  | multiPolygon (coordinates : List (List (List Position)))
deriving DecidableEq

/-- What the overlay reads of a `ChangeDetail`. -/
structure ChangeOutlines where
  geomA : Option GeoJsonGeometry
  geomB : Option GeoJsonGeometry
deriving DecidableEq

/-- The side of an overlay feature. -/
inductive OverlaySide where
  | before
  | after
deriving DecidableEq

/-- `OverlayFeature` -/
structure OverlayFeature where
  side : OverlaySide
  geometry : GeoJsonGeometry
deriving DecidableEq

/-- `positionsOf` -/
def positionsOf : GeoJsonGeometry → List Position
  | .polygon coordinates => coordinates.flatten
  | .multiPolygon coordinates => coordinates.flatten.flatten

/-- `LngLatBounds` -/
structure LngLatBounds where
  west : ℚ
  south : ℚ
  east : ℚ
  north : ℚ
deriving DecidableEq

/-- `bounds.extend(position)` -/
def LngLatBounds.extend (bounds : LngLatBounds) (position : Position) : LngLatBounds where
  west := min bounds.west position.1
  south := min bounds.south position.2
  east := max bounds.east position.1
  north := max bounds.north position.2

/-- `boundsOf` -/
def boundsOf (geometries : List GeoJsonGeometry) : Option LngLatBounds :=
  match geometries.flatMap positionsOf with
  | [] => none
  | first :: rest =>
      some ((first :: rest).foldl LngLatBounds.extend
        ⟨first.1, first.2, first.1, first.2⟩)

/-- A position within bounds. -/
def LngLatBounds.Contains (bounds : LngLatBounds) (position : Position) : Prop :=
  bounds.west ≤ position.1 ∧ bounds.south ≤ position.2 ∧
    position.1 ≤ bounds.east ∧ position.2 ≤ bounds.north

theorem contains_extend_self (bounds : LngLatBounds) (position : Position) :
    (bounds.extend position).Contains position :=
  ⟨min_le_right _ _, min_le_right _ _, le_max_right _ _, le_max_right _ _⟩

theorem contains_extend {bounds : LngLatBounds} {position : Position}
    (h : bounds.Contains position) (further : Position) :
    (bounds.extend further).Contains position :=
  ⟨(min_le_left _ _).trans h.1, (min_le_left _ _).trans h.2.1,
    h.2.2.1.trans (le_max_left _ _), h.2.2.2.trans (le_max_left _ _)⟩

theorem contains_foldl_extend {positions : List Position} {bounds : LngLatBounds}
    {position : Position} (h : bounds.Contains position ∨ position ∈ positions) :
    (positions.foldl LngLatBounds.extend bounds).Contains position := by
  induction positions generalizing bounds with
  | nil =>
      rcases h with h | h
      · exact h
      · cases h
  | cons further rest ih =>
      rw [List.foldl_cons]
      apply ih
      rcases h with h | h
      · exact Or.inl (contains_extend h further)
      · rcases List.mem_cons.mp h with rfl | h
        · exact Or.inl (contains_extend_self bounds position)
        · exact Or.inr h

/-- The bounds of some geometries contain all of their positions. -/
theorem boundsOf_covers {geometries : List GeoJsonGeometry} {bounds : LngLatBounds}
    (h : boundsOf geometries = some bounds) {geometry : GeoJsonGeometry}
    (hgeometry : geometry ∈ geometries) {position : Position}
    (hposition : position ∈ positionsOf geometry) :
    bounds.Contains position := by
  have hmem : position ∈ geometries.flatMap positionsOf :=
    List.mem_flatMap.mpr ⟨geometry, hgeometry, hposition⟩
  unfold boundsOf at h
  cases hpositions : geometries.flatMap positionsOf with
  | nil =>
      rw [hpositions] at hmem
      cases hmem
  | cons first rest =>
      rw [hpositions] at h hmem
      rw [← Option.some.inj h]
      exact contains_foldl_extend (Or.inr hmem)

/-- The features of a selected change: its outline before in front of that after. -/
def overlayFeatures (selectedChange : ChangeOutlines) : List OverlayFeature :=
  (selectedChange.geomA.map fun geometry => ⟨.before, geometry⟩).toList ++
    (selectedChange.geomB.map fun geometry => ⟨.after, geometry⟩).toList

end Outlines

section MapLibre

/-- The `data` of a GeoJSON source, or what a vector source needs to request tiles. -/
inductive Source where
  | vector (tiles : List String) (minzoom maxzoom : Nat)
  | geojson (features : List OverlayFeature)
deriving DecidableEq

/-- A layer, but for how it is painted. -/
structure Layer where
  id : String
  source : String
  sourceLayer : Option String
  minzoom : Option Nat
  side : Option OverlaySide
deriving DecidableEq

/-- What MapLibre throws. -/
inductive MapError where
  | styleNotLoaded
  | sourceExists (id : String)
  | layerExists (id : String)
  | noSource (id : String)
deriving DecidableEq

/-- A map: its current style and whether that has loaded, the listeners that wait for
`style.load`, its sources and layers, and the bounds that it was made to fit last. -/
structure MapInstance where
  style : Style
  styleLoaded : Bool
  waiting : Nat
  sources : Dict String Source
  layers : Dict String Layer
  fitted : Option LngLatBounds
deriving DecidableEq

namespace MapInstance

/-- A new map -/
def ofStyle (style : Style) : MapInstance where
  style := style
  styleLoaded := false
  waiting := 0
  sources := .empty
  layers := .empty
  fitted := none

variable (m : MapInstance)

/-- `setStyle(style, { diff: false })` -/
def setStyle (style : Style) : MapInstance :=
  { m with style := style, styleLoaded := false, sources := .empty, layers := .empty }

/-- `once("style.load", listener)` -/
def once : MapInstance :=
  { m with waiting := m.waiting + 1 }

/-- `addSource` -/
def addSource (id : String) (source : Source) : Except MapError MapInstance :=
  if m.styleLoaded = false then .error .styleNotLoaded
  else if id ∈ m.sources then .error (.sourceExists id)
  else .ok { m with sources := m.sources.set id source }

/-- `addLayer` -/
def addLayer (layer : Layer) : Except MapError MapInstance :=
  if m.styleLoaded = false then .error .styleNotLoaded
  else if layer.id ∈ m.layers then .error (.layerExists layer.id)
  else if layer.source ∉ m.sources then .error (.noSource layer.source)
  else .ok { m with layers := m.layers.set layer.id layer }

/-- `if (source !== null && !getSource(id)) { addSource(id, source); addLayer(..); .. }` -/
def ensure (id : String) (source : Option Source) (layers : List Layer) :
    Except MapError MapInstance :=
  match source with
  | some source =>
      if id ∈ m.sources then .ok m
      else do layers.foldlM addLayer (← m.addSource id source)
  | none => .ok m

/-- `getSource(id)?.setTiles(tiles)` -/
def setTiles (id : String) (tiles : List String) : MapInstance :=
  match m.sources.get? id with
  | some (.vector _ minzoom maxzoom) =>
      { m with sources := m.sources.set id (.vector tiles minzoom maxzoom) }
  | _ => m

/-- `getSource(id).setData(..)` -/
def setData (id : String) (features : List OverlayFeature) : MapInstance :=
  match m.sources.get? id with
  | some (.geojson _) => { m with sources := m.sources.set id (.geojson features) }
  | _ => m

/-- `fitBounds(bounds)`, if there are any. -/
def fitBounds : Option LngLatBounds → MapInstance
  | some bounds => { m with fitted := some bounds }
  | none => m

end MapInstance

end MapLibre

section Hooks

/-- An object of JavaScript, which is compared by its address. -/
structure Obj (α : Type) where
  address : Nat
  value : α
deriving DecidableEq

/-- The props of `MapView`. -/
structure MapViewProps where
  mode : PaletteMode
  basemap : BasemapChoice
  changesetId : Option Nat
  contextSnapshotId : Option Nat
  visibleClassifications : Obj (List ChangeType)
  selectedChange : Option (Obj ChangeOutlines)
deriving DecidableEq

/-- The key of the style that the props ask for. -/
def MapViewProps.key (props : MapViewProps) : String :=
  styleKey props.mode props.basemap

/-- A render of `MapView`: its props, the address of the object `style` that it makes,
and the `version` in it. -/
structure Render where
  props : MapViewProps
  style : Nat
  version : Nat
deriving DecidableEq

/-- `MapView` between two events: its refs and its state, the number of renders so
far, and the last of them. -/
structure MapView where
  map : Option MapInstance
  appliedStyleKey : Option String
  styleReady : Bool
  styleVersion : Nat
  renders : Nat
  committed : Option Render
deriving DecidableEq

namespace MapView

/-- Before the first render. -/
def initial : MapView where
  map := none
  appliedStyleKey := none
  styleReady := false
  styleVersion := 0
  renders := 0
  committed := none

variable (s : MapView) (r : Render)

/-- React runs an effect if one of its dependencies is not that of the last render. -/
def due {δ : Type} [DecidableEq δ] (deps : Render → δ) : Bool :=
  s.committed.map deps ≠ some (deps r)

/-- `markStyleLoaded` -/
def markStyleLoaded : MapView :=
  { s with styleReady := true, styleVersion := s.styleVersion + 1 }

/-- The effect of `useMapInstance` that creates the map. -/
def createMap : MapView :=
  match s.map with
  | some _ => s
  | none =>
      { s with
        map := some (MapInstance.ofStyle (styleFor r.props.mode r.props.basemap)).once
        appliedStyleKey := some r.props.key }

/-- The effect of `useMapInstance` that swaps the style. -/
def swapStyle : MapView :=
  match s.map with
  | some m =>
      if s.appliedStyleKey = some r.props.key then s
      else
        { s with
          map := some (m.setStyle (styleFor r.props.mode r.props.basemap)).once
          appliedStyleKey := some r.props.key
          styleReady := false }
  | none => s

/-- `useMapInstance` -/
def useMapInstance : MapView :=
  let created := if s.due r (fun _ => ()) then createMap s r else s
  if created.due r (fun r => (r.props.mode, r.props.basemap)) then swapStyle created r
  else created

end MapView

/-- `CONTEXT_MIN_ZOOM` -/
def contextMinZoom : Nat := 15

/-- `CHANGE_SOURCE` -/
def changeSource : String := "changes"

/-- `CONTEXT_SOURCE` -/
def contextSource : String := "buildings"

/-- `OVERLAY_SOURCE` -/
def overlaySource : String := "selected-outline"

/-- The layers on the context source. -/
def contextLayers : List Layer :=
  [⟨contextSource, contextSource, some "buildings", some contextMinZoom, none⟩]

/-- The layers on the change source. -/
def changeLayers : List Layer :=
  [⟨changeSource ++ "-fill", changeSource, some "changes", none, none⟩,
    ⟨changeSource ++ "-outline", changeSource, some "changes", none, none⟩]

/-- The layers on the overlay source. -/
def overlayLayers : List Layer :=
  [⟨overlaySource ++ "-before", overlaySource, none, none, some .before⟩,
    ⟨overlaySource ++ "-after", overlaySource, none, none, some .after⟩]

/-- `buildingTileUrl` -/
def buildingTileUrl (origin : String) (snapshotId : Nat) : String :=
  origin ++ "/tiles/buildings/" ++ toString snapshotId ++
    "/\x7bz\x7d/\x7bx\x7d/\x7by\x7d.mvt"

/-- The tiles of the change layer. -/
def changeTiles (origin : String) (changesetId : Nat) (visible : List ChangeType) :
    List String :=
  [changeTileUrl origin changesetId (visible.map ChangeType.name)]

/-- The source of a context layer. -/
def contextTileSource (origin : String) (snapshotId : Nat) : Source :=
  .vector [buildingTileUrl origin snapshotId] contextMinZoom 18

/-- The source of a change layer. -/
def changeTileSource (origin : String) (changesetId : Nat) (visible : List ChangeType) :
    Source :=
  .vector (changeTiles origin changesetId visible) 0 18

namespace MapView

variable (origin : String) (s : MapView) (r : Render)

/-- The effect of `useChangeLayers` that builds the layers. -/
def buildLayers : Except MapError MapView :=
  match s.map with
  | some m =>
      if s.styleReady then do
        let context ← m.ensure contextSource
          (r.props.contextSnapshotId.map (contextTileSource origin)) contextLayers
        let built ← context.ensure changeSource
          (r.props.changesetId.map fun changesetId =>
            changeTileSource origin changesetId r.props.visibleClassifications.value)
          changeLayers
        return { s with map := some built }
      else pure s
  | none => pure s

/-- The effect of `useChangeLayers` that sets the tile URL. -/
def retile : MapView :=
  match s.map, r.props.changesetId with
  | some m, some changesetId =>
      let tiles := changeTiles origin changesetId r.props.visibleClassifications.value
      { s with map := some (m.setTiles changeSource tiles) }
  | _, _ => s

/-- `useChangeLayers` -/
def useChangeLayers : Except MapError MapView := do
  let built ←
    if s.due r (fun r => (r.style, r.version, r.props.mode, r.props.changesetId,
        r.props.contextSnapshotId, r.props.visibleClassifications.address)) then
      s.buildLayers origin r
    else pure s
  return if built.due r
      (fun r => (r.props.changesetId, r.props.visibleClassifications.address)) then
    built.retile origin r
  else built

/-- The effect of `useSelectionOverlay` that creates the overlay. -/
def createOverlay : Except MapError MapView :=
  match s.map with
  | some m =>
      if s.styleReady then do
        let created ← m.ensure overlaySource (some (.geojson [])) overlayLayers
        return { s with map := some created }
      else pure s
  | none => pure s

/-- The effect of `useSelectionOverlay` that fills the overlay. -/
def fillOverlay : MapView :=
  match s.map with
  | some m =>
      if overlaySource ∈ m.sources then
        match r.props.selectedChange with
        | some selectedChange =>
            let features := overlayFeatures selectedChange.value
            let bounds := boundsOf (features.map OverlayFeature.geometry)
            { s with map := some ((m.setData overlaySource features).fitBounds bounds) }
        | none => { s with map := some (m.setData overlaySource []) }
      else s
  | none => s

/-- `useSelectionOverlay` -/
def useSelectionOverlay : Except MapError MapView := do
  let created ←
    if s.due r (fun r => (r.style, r.version, r.props.mode)) then s.createOverlay
    else pure s
  return if created.due r (fun r => r.props.selectedChange.map Obj.address) then
    created.fillOverlay r
  else created

/-- React renders `MapView` and runs its effects. -/
def commit (props : MapViewProps) : Except MapError MapView := do
  let r : Render := ⟨props, s.renders, s.styleVersion⟩
  let layered ← (s.useMapInstance r).useChangeLayers origin r
  let drawn ← layered.useSelectionOverlay r
  return { drawn with renders := s.renders + 1, committed := some r }

end MapView

/-- `selectedChangeset?.snapshot_b_id ?? null` -/
def contextSnapshotId (view : View) : Option Nat :=
  (view.changesets.find? fun c => some c.id = view.selectedChangesetId).map
    fun c => c.snapshotBId

/-- The props that `App` hands to `MapView`. -/
def mapViewProps (mode : PaletteMode) (basemap : BasemapChoice) (view : View)
    (visible : Obj (List ChangeType)) (change : Option (Obj ChangeOutlines)) :
    MapViewProps where
  mode := mode
  basemap := basemap
  changesetId := view.selectedChangesetId
  contextSnapshotId := contextSnapshotId view
  visibleClassifications := visible
  selectedChange := change

end Hooks

section Events

/-- What can happen to `MapView`. -/
inductive MapEvent where
  | commit (props : MapViewProps)
  | styleLoad
deriving DecidableEq

/-- Nobody writes to an object that is handed over as a prop. -/
def MapViewProps.Unmutated (last next : MapViewProps) : Prop :=
  (last.visibleClassifications.address = next.visibleClassifications.address →
    last.visibleClassifications.value = next.visibleClassifications.value) ∧
  (last.selectedChange.map Obj.address = next.selectedChange.map Obj.address →
    last.selectedChange.map Obj.value = next.selectedChange.map Obj.value)

instance (last next : MapViewProps) : Decidable (last.Unmutated next) :=
  inferInstanceAs (Decidable (_ ∧ _))

namespace MapView

variable (origin : String) (s : MapView)

/-- `style.load` fires: the style has loaded, and the listeners that wait are called. -/
def styleLoad : MapView :=
  match s.map with
  | some m =>
      markStyleLoaded^[m.waiting]
        { s with map := some { m with styleLoaded := true, waiting := 0 } }
  | none => s

/-- When an event can happen: a style loads once. -/
def Enabled : MapEvent → Prop
  | .commit props => (s.committed.all fun last => last.props.Unmutated props) = true
  | .styleLoad => (s.map.any fun m => !m.styleLoaded) = true

instance : DecidablePred s.Enabled
  | .commit _ => inferInstanceAs (Decidable (_ = _))
  | .styleLoad => inferInstanceAs (Decidable (_ = _))

/-- What an event does, unless an effect throws. -/
def take : MapEvent → Except MapError MapView
  | .commit props => s.commit origin props
  | .styleLoad => .ok s.styleLoad

/-- An event happens to `MapView`; nothing does after an error. -/
def step : Except MapError MapView → MapEvent → Option (Except MapError MapView)
  | .ok s, event => if s.Enabled event then some (s.take origin event) else none
  | .error _, _ => none

/-- What some events lead to. -/
def run (events : List MapEvent) : Option (Except MapError MapView) :=
  runFrom (step origin) (.ok initial) events

end MapView

end Events

end Web
end VectorMapChanges
