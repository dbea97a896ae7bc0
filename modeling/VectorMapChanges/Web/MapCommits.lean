import VectorMapChanges.Web.MapSources

/-!
# Commits on the map

What the effects of a render do to the three sources of the hooks.  On a style that
stays loaded they add what is missing, set the tiles of the change layer if the
changeset or the filter is another, and fill the overlay if the selection is.  A
render that asks for another style, as the first one does, leaves the map without
sources until the style has loaded, and no effect after it touches the map.

Main facts:
* `exists_commit`: no effect throws, and what the sources are after it;
* `synced_step`: between two events readiness and the style key are those of the map.
-/

namespace VectorMapChanges
namespace Web

open Lib

section Synced

namespace MapInstance

/-- A style that has not loaded yet: nothing is on it, and a listener waits. -/
structure Reloading (m : MapInstance) : Prop where
  loaded : m.styleLoaded = false
  waiting : 0 < m.waiting
  sources : m.sources = .empty
  layers : m.layers = .empty

theorem reloading_ofStyle (style : Style) : (ofStyle style).once.Reloading :=
  ⟨rfl, Nat.one_pos, rfl, rfl⟩

theorem reloading_setStyle (m : MapInstance) (style : Style) :
    (m.setStyle style).once.Reloading :=
  ⟨rfl, Nat.succ_pos _, rfl, rfl⟩

end MapInstance

namespace MapView

/-- Between two events: the style key is that of the last render, and readiness is
that of the map. -/
structure Synced (s : MapView) : Prop where
  fresh : ∀ last, s.committed = some last → last.style < s.renders
  mounted : s.map.isSome = s.committed.isSome
  applied : s.appliedStyleKey = s.committed.map fun last => last.props.key
  ready : s.styleReady = true → ∃ m, s.map = some m ∧ m.Ready
  reloading : s.styleReady = false → ∀ m, s.map = some m → m.Reloading

/-- The current style has loaded. -/
def Loaded (s : MapView) : Prop :=
  ∃ m, s.map = some m ∧ m.styleLoaded = true

/-- The source of the map under an id. -/
def source (s : MapView) (id : String) : Option Source :=
  s.map.bind fun m => m.sources.get? id

variable {s : MapView} {r : Render} {m : MapInstance}

theorem source_of_map (h : s.map = some m) (id : String) :
    s.source id = m.sources.get? id := by
  unfold source
  rw [h, Option.bind_some]

/-- What a loaded style has under an id. -/
theorem forall_loaded_iff (hloaded : s.Loaded) {id : String} {source : Option Source} :
    (∀ m, s.map = some m → m.styleLoaded = true → m.sources.get? id = source) ↔
      s.source id = source := by
  obtain ⟨m, hmap, hm⟩ := hloaded
  rw [source_of_map hmap]
  constructor
  · intro h
    exact h m hmap hm
  · intro h m' hmap' _
    obtain rfl := Option.some.inj (hmap.symm.trans hmap')
    exact h

theorem synced_initial : Synced initial where
  fresh := by
    intro last h
    cases h
  mounted := rfl
  applied := rfl
  ready := by
    intro h
    cases h
  reloading := by
    intro _ m h
    cases h

/-- The ref tells whether the current style has loaded. -/
theorem loaded_iff (h : s.Synced) : s.Loaded ↔ s.styleReady = true := by
  constructor
  · rintro ⟨m, hmap, hloaded⟩
    by_contra hready
    have hreloading := h.reloading (Bool.eq_false_of_not_eq_true hready) m hmap
    rw [hreloading.loaded] at hloaded
    cases hloaded
  · intro hready
    obtain ⟨m, hmap, hm⟩ := h.ready hready
    exact ⟨m, hmap, hm.loaded⟩

/-- A style loads after a first render. -/
theorem exists_committed (h : s.Synced) (hloaded : s.Loaded) :
    ∃ last, s.committed = some last := by
  obtain ⟨m, hmap, -⟩ := hloaded
  have hmounted := h.mounted
  rw [hmap] at hmounted
  exact Option.isSome_iff_exists.mp hmounted.symm

/-- There is a map after a first render. -/
theorem exists_map (h : s.Synced) {last : Render} (hlast : s.committed = some last) :
    ∃ m, s.map = some m := by
  have hmounted := h.mounted
  rw [hlast] at hmounted
  exact Option.isSome_iff_exists.mp hmounted

/-- Nothing is drawn before the style has loaded. -/
theorem source_eq_none (h : s.Synced) (hloaded : ¬ s.Loaded) (id : String) :
    s.source id = none := by
  rw [loaded_iff h, Bool.not_eq_true] at hloaded
  cases hmap : s.map with
  | none =>
      unfold source
      rw [hmap, Option.bind_none]
  | some m =>
      rw [source_of_map hmap, (h.reloading hloaded m hmap).sources]
      exact Dict.get?_empty id

/-- What is drawn is on a loaded style. -/
theorem loaded_of_source (h : s.Synced) {id : String} {source : Source}
    (hsource : s.source id = some source) :
    s.Loaded := by
  by_contra hnot
  rw [source_eq_none h hnot] at hsource
  cases hsource

/-- The object `style` is another one in each render. -/
theorem due_of_style {δ : Type} [DecidableEq δ] (h : s.Synced) (hr : r.style = s.renders)
    (rest : Render → δ) :
    s.due r (fun r => (r.style, rest r)) = true := by
  unfold due
  rw [decide_eq_true_iff]
  intro heq
  obtain ⟨last, hlast, hdeps⟩ := Option.map_eq_some_iff.mp heq
  have hlt := h.fresh last hlast
  have hstyle : last.style = r.style := (Prod.mk.inj hdeps).1
  omega

/-- The first render makes the map. -/
theorem useMapInstance_first (h : s.Synced) (hfirst : s.committed = none)
    (r : Render) :
    s.useMapInstance r =
      { s with
        map := some (MapInstance.ofStyle (styleFor r.props.mode r.props.basemap)).once
        appliedStyleKey := some r.props.key } := by
  have hmap : s.map = none := by
    have hmounted := h.mounted
    rw [hfirst] at hmounted
    simpa using hmounted
  have hdue : s.due r (fun _ => ()) = true := by
    simp [due, hfirst]
  unfold useMapInstance
  rw [if_pos hdue]
  unfold createMap
  rw [hmap]
  -- the map has been built with the style of this render
  have hskip : ∀ created : MapView, created.appliedStyleKey = some r.props.key →
      swapStyle created r = created := by
    intro created hkey
    unfold swapStyle
    cases created.map with
    | none => rfl
    | some m => exact if_pos hkey
  simp only
  rw [hskip _ rfl, ite_self]

/-- An effect runs again if its dependencies are others. -/
theorem due_iff {δ : Type} [DecidableEq δ] {last : Render}
    (hlast : s.committed = some last) (deps : Render → δ) :
    s.due r deps = true ↔ deps last ≠ deps r := by
  unfold due
  rw [hlast, decide_eq_true_iff, Option.map_some, ne_eq, Option.some.injEq]

/-- A later render swaps the style if it asks for another theme or basemap. -/
theorem useMapInstance_later (h : s.Synced) {last : Render}
    (hlast : s.committed = some last) (hmap : s.map = some m) (r : Render) :
    s.useMapInstance r =
      if s.appliedStyleKey = some r.props.key then s
      else
        { s with
          map := some (m.setStyle (styleFor r.props.mode r.props.basemap)).once
          appliedStyleKey := some r.props.key
          styleReady := false } := by
  have hfirst : ¬ s.due r (fun _ => ()) = true := by
    rw [due_iff hlast]
    exact fun hne => hne rfl
  have hkey : s.due r (fun r => (r.props.mode, r.props.basemap)) = true ↔
      s.appliedStyleKey ≠ some r.props.key := by
    rw [due_iff hlast, h.applied, hlast, Option.map_some, ne_eq, ne_eq, Prod.mk.injEq,
      Option.some.injEq, ← styleKey_eq_iff]
    exact Iff.rfl
  unfold useMapInstance
  rw [if_neg hfirst]
  by_cases hdue : s.due r (fun r => (r.props.mode, r.props.basemap)) = true
  · refine (if_pos hdue).trans ?_
    unfold swapStyle
    rw [hmap]
  · rw [if_pos (not_not.mp (mt hkey.mpr hdue))]
    exact if_neg hdue

/-- The first render and one with another theme or basemap load a style; the others
leave the map alone. -/
theorem useMapInstance_cases (h : s.Synced) (r : Render) :
    (s.appliedStyleKey = some r.props.key ∧ s.useMapInstance r = s) ∨
      (s.appliedStyleKey ≠ some r.props.key ∧ ∃ m, m.Reloading ∧
        s.useMapInstance r =
          { s with
            map := some m
            appliedStyleKey := some r.props.key
            styleReady := false }) := by
  rcases Option.eq_none_or_eq_some s.committed with hfirst | ⟨last, hlast⟩
  · have hready : s.styleReady = false := by
      by_contra hready
      have hloaded := (loaded_iff h).mpr (Bool.eq_true_of_not_eq_false hready)
      obtain ⟨last, hlast⟩ := exists_committed h hloaded
      rw [hfirst] at hlast
      cases hlast
    have hnew := MapInstance.reloading_ofStyle (styleFor r.props.mode r.props.basemap)
    refine Or.inr ⟨?_, _, hnew, ?_⟩
    · rw [h.applied, hfirst]
      exact nofun
    · rw [useMapInstance_first h hfirst, ← hready]
  · obtain ⟨m, hmap⟩ := exists_map h hlast
    rw [useMapInstance_later h hlast hmap]
    by_cases hkey : s.appliedStyleKey = some r.props.key
    · exact Or.inl ⟨hkey, if_pos hkey⟩
    · exact Or.inr ⟨hkey, _, m.reloading_setStyle _, if_neg hkey⟩

end MapView

end Synced

section Effects

/-- The features of the selected change, if there is one. -/
def MapViewProps.features (props : MapViewProps) : List OverlayFeature :=
  match props.selectedChange with
  | some change => overlayFeatures change.value
  | none => []

namespace MapView

variable {origin : String} {s : MapView} {r : Render} {m : MapInstance}

/-- While a style loads, `useChangeLayers` does nothing. -/
theorem useChangeLayers_reloading (hmap : s.map = some m) (hm : m.Reloading)
    (hready : s.styleReady = false) :
    s.useChangeLayers origin r = .ok s := by
  have hbuild : s.buildLayers origin r = pure s := by
    unfold buildLayers
    rw [hmap, hready]
    rfl
  have hretile : s.retile origin r = s := by
    have htiles : ∀ tiles, m.setTiles changeSource tiles = m := by
      intro tiles
      unfold MapInstance.setTiles
      rw [hm.sources]
      rfl
    unfold retile
    cases r.props.changesetId with
    | none => rw [hmap]
    | some changesetId =>
        rw [hmap]
        simp only
        rw [htiles, ← hmap]
  unfold useChangeLayers
  rw [hbuild, ite_self, pure_bind]
  simp only [hretile, ite_self]
  rfl

/-- While a style loads, `useSelectionOverlay` does nothing. -/
theorem useSelectionOverlay_reloading (hmap : s.map = some m) (hm : m.Reloading)
    (hready : s.styleReady = false) :
    s.useSelectionOverlay r = .ok s := by
  have hcreate : s.createOverlay = pure s := by
    unfold createOverlay
    rw [hmap, hready]
    rfl
  have hfill : s.fillOverlay r = s := by
    unfold fillOverlay
    rw [hmap]
    refine if_neg ?_
    rw [hm.sources]
    exact Dict.not_mem_empty
  unfold useSelectionOverlay
  rw [hcreate, ite_self, pure_bind]
  simp only [hfill, ite_self]
  rfl

/-- The layers are built if they are missing. -/
theorem buildLayers_ready (hmap : s.map = some m) (hm : m.Ready)
    (hready : s.styleReady = true) :
    ∃ m', s.buildLayers origin r = .ok { s with map := some m' } ∧ m'.Ready ∧
      m'.sources.get? =
        Function.update
          (Function.update m.sources.get? contextSource
            ((m.sources.get? contextSource).or
              (r.props.contextSnapshotId.map (contextTileSource origin))))
          changeSource
          ((m.sources.get? changeSource).or
            (r.props.changesetId.map fun changesetId => changeTileSource origin
              changesetId r.props.visibleClassifications.value)) := by
  have hcontext : ∀ layer ∈ contextLayers,
      layer ∈ mapLayers ∧ layer.source = contextSource := by decide
  have hchange : ∀ layer ∈ changeLayers,
      layer ∈ mapLayers ∧ layer.source = changeSource := by decide
  have hcontextFits : ∀ new ∈ r.props.contextSnapshotId.map (contextTileSource origin),
      MapInstance.Fits contextSource new := by
    intro new hnew
    obtain ⟨snapshotId, -, rfl⟩ := Option.mem_map.mp hnew
    exact ⟨by decide, by decide⟩
  have hchangeFits : ∀ new ∈ r.props.changesetId.map fun changesetId =>
      changeTileSource origin changesetId r.props.visibleClassifications.value,
      MapInstance.Fits changeSource new := by
    intro new hnew
    obtain ⟨changesetId, -, rfl⟩ := Option.mem_map.mp hnew
    exact ⟨by decide, fun _ => ⟨rfl, rfl⟩⟩
  obtain ⟨context, hfirst, hreadyContext, hgetContext⟩ :=
    MapInstance.ensure_eq_ok hm hcontextFits hcontext (by decide)
  obtain ⟨built, hsecond, hreadyBuilt, hgetBuilt⟩ :=
    MapInstance.ensure_eq_ok hreadyContext hchangeFits hchange (by decide)
  refine ⟨built, ?_, hreadyBuilt, ?_⟩
  · unfold buildLayers
    rw [hmap, hready]
    simp only [if_true]
    rw [hfirst, ok_bind, hsecond, ok_bind]
    rfl
  · rw [hgetBuilt, hgetContext,
      Function.update_of_ne (show changeSource ≠ contextSource by decide)]

/-- On a loaded style the change source is there for the selected changeset, with the
tiles of this render if the changeset or the filter is another. -/
theorem useChangeLayers_ready (hmap : s.map = some m) (hm : m.Ready)
    (hready : s.styleReady = true)
    (hdue : s.due r (fun r => (r.style, r.version, r.props.mode, r.props.changesetId,
      r.props.contextSnapshotId, r.props.visibleClassifications.address)) = true) :
    ∃ m', s.useChangeLayers origin r = .ok { s with map := some m' } ∧ m'.Ready ∧
      m'.sources.get? contextSource = (m.sources.get? contextSource).or
        (r.props.contextSnapshotId.map (contextTileSource origin)) ∧
      m'.sources.get? overlaySource = m.sources.get? overlaySource ∧
      ∀ changesetId, r.props.changesetId = some changesetId →
        m'.sources.get? changeSource =
          (if s.due r
              (fun r => (r.props.changesetId, r.props.visibleClassifications.address))
            then none else m.sources.get? changeSource).or
            (some (changeTileSource origin changesetId
              r.props.visibleClassifications.value)) := by
  obtain ⟨built, hbuild, hbuilt, hget⟩ := buildLayers_ready hmap hm hready
  have hrun : s.useChangeLayers origin r =
      .ok (if s.due r
          (fun r => (r.props.changesetId, r.props.visibleClassifications.address)) then
        retile origin { s with map := some built } r
      else { s with map := some built }) := by
    unfold useChangeLayers
    rw [if_pos hdue, hbuild, ok_bind]
    rfl
  have hcontext : built.sources.get? contextSource =
      (m.sources.get? contextSource).or
        (r.props.contextSnapshotId.map (contextTileSource origin)) := by
    rw [hget, Function.update_of_ne (show contextSource ≠ changeSource by decide),
      Function.update_self]
  have hoverlay : built.sources.get? overlaySource = m.sources.get? overlaySource := by
    rw [hget, Function.update_of_ne overlay_ne_change,
      Function.update_of_ne (show overlaySource ≠ contextSource by decide)]
  have hchange : ∀ changesetId, r.props.changesetId = some changesetId →
      built.sources.get? changeSource = (m.sources.get? changeSource).or
        (some (changeTileSource origin changesetId
          r.props.visibleClassifications.value)) := by
    intro changesetId hid
    rw [hget, Function.update_self, hid, Option.map_some]
  by_cases hretile : s.due r
      (fun r => (r.props.changesetId, r.props.visibleClassifications.address)) = true
  · cases hid : r.props.changesetId with
    | none =>
        refine ⟨built, ?_, hbuilt, hcontext, hoverlay, nofun⟩
        rw [hrun, if_pos hretile]
        unfold retile
        rw [hid]
    | some changesetId =>
        obtain ⟨hretiled, hgetRetiled⟩ := MapInstance.ready_setTiles hbuilt
          (changeTiles origin changesetId r.props.visibleClassifications.value)
        refine ⟨_, ?_, hretiled, ?_, ?_, ?_⟩
        · rw [hrun, if_pos hretile]
          unfold retile
          rw [hid]
        · rw [hgetRetiled,
            Function.update_of_ne (show contextSource ≠ changeSource by decide), hcontext]
        · rw [hgetRetiled, Function.update_of_ne overlay_ne_change, hoverlay]
        · intro changesetId' hid'
          obtain rfl := Option.some.inj hid'
          rw [hgetRetiled, Function.update_self, if_pos hretile, Option.none_or,
            hchange changesetId hid]
          cases m.sources.get? changeSource <;> rfl
  · refine ⟨built, ?_, hbuilt, hcontext, hoverlay, ?_⟩
    · rw [hrun, if_neg hretile]
    · intro changesetId hid
      rw [if_neg hretile]
      exact hchange changesetId hid

/-- The overlay that is there is filled with the features of the selection. -/
theorem exists_fillOverlay (hmap : s.map = some m) (hmem : overlaySource ∈ m.sources) :
    ∃ bounds, s.fillOverlay r =
      { s with
        map := some ((m.setData overlaySource r.props.features).fitBounds bounds) } := by
  unfold fillOverlay MapViewProps.features
  rw [hmap]
  simp only
  rw [if_pos hmem]
  cases r.props.selectedChange with
  | none => exact ⟨none, rfl⟩
  | some change => exact ⟨_, rfl⟩

/-- On a loaded style the overlay is there: with the features of the selection if the
selection is another, and without any if it had been missing. -/
theorem useSelectionOverlay_ready (hmap : s.map = some m) (hm : m.Ready)
    (hready : s.styleReady = true)
    (hdue : s.due r (fun r => (r.style, r.version, r.props.mode)) = true) :
    ∃ m', s.useSelectionOverlay r = .ok { s with map := some m' } ∧ m'.Ready ∧
      (∀ id, id ≠ overlaySource → m'.sources.get? id = m.sources.get? id) ∧
      m'.sources.get? overlaySource =
        if s.due r (fun r => r.props.selectedChange.map Obj.address) then
          some (.geojson r.props.features)
        else (m.sources.get? overlaySource).or (some (.geojson [])) := by
  have hlayers : ∀ layer ∈ overlayLayers,
      layer ∈ mapLayers ∧ layer.source = overlaySource := by decide
  have hfits : ∀ new ∈ some (Source.geojson []), MapInstance.Fits overlaySource new := by
    intro new hnew
    obtain rfl := Option.some.inj hnew
    exact overlay_ne_change
  obtain ⟨created, hensure, hcreated, hget⟩ :=
    MapInstance.ensure_eq_ok hm hfits hlayers (by decide)
  have hcreate : s.createOverlay = .ok { s with map := some created } := by
    unfold createOverlay
    rw [hmap, hready]
    simp only [if_true]
    rw [hensure, ok_bind]
    rfl
  have hrun : s.useSelectionOverlay r =
      .ok (if s.due r (fun r => r.props.selectedChange.map Obj.address) then
        fillOverlay { s with map := some created } r
      else { s with map := some created }) := by
    unfold useSelectionOverlay
    rw [if_pos hdue, hcreate, ok_bind]
    rfl
  have hother : ∀ id, id ≠ overlaySource →
      created.sources.get? id = m.sources.get? id := by
    intro id hid
    rw [hget, Function.update_of_ne hid]
  have hoverlay : created.sources.get? overlaySource =
      (m.sources.get? overlaySource).or (some (.geojson [])) := by
    rw [hget, Function.update_self]
  by_cases hfill : s.due r (fun r => r.props.selectedChange.map Obj.address) = true
  · obtain ⟨there, hthere⟩ : ∃ there,
        created.sources.get? overlaySource = some there := by
      rw [hoverlay]
      cases m.sources.get? overlaySource with
      | none => exact ⟨_, rfl⟩
      | some there => exact ⟨there, rfl⟩
    obtain ⟨bounds, hfilled⟩ := exists_fillOverlay (s := { s with map := some created })
      (r := r) rfl (Dict.mem_of_get? hthere)
    obtain ⟨hdata, hgetData⟩ := MapInstance.ready_setData hcreated r.props.features
    obtain ⟨hfit, hsources⟩ := MapInstance.ready_fitBounds hdata bounds
    refine ⟨_, ?_, hfit, ?_, ?_⟩
    · rw [hrun, if_pos hfill, hfilled]
    · intro id hid
      rw [hsources, hgetData, Function.update_of_ne hid, hother id hid]
    · rw [hsources, hgetData, Function.update_self, if_pos hfill, hthere, Option.map_some]
  · refine ⟨created, ?_, hcreated, hother, ?_⟩
    · rw [hrun, if_neg hfill]
    · rw [if_neg hfill]
      exact hoverlay

/-- What a commit does: whether the style is then loaded, and what the sources of a
loaded style are. -/
structure Commits (origin : String) (s : MapView) (props : MapViewProps)
    (s' : MapView) : Prop where
  committed : s'.committed = some ⟨props, s.renders, s.styleVersion⟩
  loaded : s'.Loaded ↔ s.Loaded ∧ s.appliedStyleKey = some props.key
  context : s'.Loaded → s'.source contextSource =
    (s.source contextSource).or (props.contextSnapshotId.map (contextTileSource origin))
  change : s'.Loaded → ∀ changesetId, props.changesetId = some changesetId →
    s'.source changeSource =
      (if s.due ⟨props, s.renders, s.styleVersion⟩
          (fun r => (r.props.changesetId, r.props.visibleClassifications.address))
        then none else s.source changeSource).or
        (some (changeTileSource origin changesetId props.visibleClassifications.value))
  overlay : s'.Loaded → s'.source overlaySource =
    if s.due ⟨props, s.renders, s.styleVersion⟩
        (fun r => r.props.selectedChange.map Obj.address) then
      some (.geojson props.features)
    else (s.source overlaySource).or (some (.geojson []))

/-- A commit that leaves the map without a loaded style. -/
theorem commit_reloading {t : MapView} {props : MapViewProps}
    (huse : s.useMapInstance ⟨props, s.renders, s.styleVersion⟩ = t)
    (hmap : t.map = some m) (hm : m.Reloading) (hready : t.styleReady = false)
    (hkey : t.appliedStyleKey = some props.key)
    (hloaded : ¬ (s.Loaded ∧ s.appliedStyleKey = some props.key)) :
    ∃ s', s.commit origin props = .ok s' ∧ s'.Synced ∧ Commits origin s props s' := by
  let after : MapView :=
    { t with
      renders := s.renders + 1
      committed := some ⟨props, s.renders, s.styleVersion⟩ }
  have hrun : s.commit origin props = .ok after := by
    unfold commit
    simp only
    rw [huse, useChangeLayers_reloading hmap hm hready, ok_bind,
      useSelectionOverlay_reloading hmap hm hready, ok_bind]
    rfl
  have hsynced : after.Synced :=
    { fresh := by
        intro last hlast
        obtain rfl := Option.some.inj hlast
        exact Nat.lt_succ_self s.renders
      mounted := congrArg Option.isSome hmap
      applied := hkey
      ready := by
        intro h
        rw [show after.styleReady = false from hready] at h
        cases h
      reloading := by
        intro _ m' hmap'
        obtain rfl := Option.some.inj (hmap.symm.trans hmap')
        exact hm }
  have hafter : ¬ after.Loaded := by
    rw [loaded_iff hsynced, show after.styleReady = false from hready]
    exact Bool.false_ne_true
  exact ⟨after, hrun, hsynced,
    { committed := rfl
      loaded := iff_of_false hafter hloaded
      context := fun h => absurd h hafter
      change := fun h => absurd h hafter
      overlay := fun h => absurd h hafter }⟩

/-- A commit on a loaded style that it leaves alone. -/
theorem commit_ready {props : MapViewProps} (h : s.Synced)
    (huse : s.useMapInstance ⟨props, s.renders, s.styleVersion⟩ = s)
    (hready : s.styleReady = true) (hkey : s.appliedStyleKey = some props.key) :
    ∃ s', s.commit origin props = .ok s' ∧ s'.Synced ∧ Commits origin s props s' := by
  obtain ⟨m, hmap, hm⟩ := h.ready hready
  obtain ⟨layered, hlayers, hlayered, hcontext, hoverlay, hchange⟩ :=
    useChangeLayers_ready hmap hm hready
      (due_of_style (r := ⟨props, s.renders, s.styleVersion⟩) h rfl _)
  have hsource := source_of_map hmap
  let between : MapView := { s with map := some layered }
  have hbetween : between.due ⟨props, s.renders, s.styleVersion⟩
      (fun r => (r.style, r.version, r.props.mode)) = true :=
    due_of_style h rfl _
  obtain ⟨drawn, hdraw, hdrawn, hothers, hfilled⟩ :=
    useSelectionOverlay_ready (s := between) rfl hlayered hready hbetween
  let after : MapView :=
    { s with
      map := some drawn
      renders := s.renders + 1
      committed := some ⟨props, s.renders, s.styleVersion⟩ }
  have hafter := source_of_map (s := after) rfl
  have hrun : s.commit origin props = .ok after := by
    unfold commit
    simp only
    rw [huse, hlayers, ok_bind, hdraw, ok_bind]
    rfl
  have hsynced : after.Synced :=
    { fresh := by
        intro last hlast
        obtain rfl := Option.some.inj hlast
        exact Nat.lt_succ_self s.renders
      mounted := rfl
      applied := hkey
      ready := fun _ => ⟨drawn, rfl, hdrawn⟩
      reloading := by
        intro hfalse
        rw [show after.styleReady = true from hready] at hfalse
        cases hfalse }
  have hloaded : after.Loaded := ⟨drawn, rfl, hdrawn.loaded⟩
  refine ⟨after, hrun, hsynced, ?_⟩
  exact
    { committed := rfl
      loaded := iff_of_true hloaded ⟨(loaded_iff h).mpr hready, hkey⟩
      context := by
        intro _
        rw [hafter, hothers contextSource (by decide), hcontext, hsource]
      change := by
        intro _ changesetId hid
        rw [hafter, hothers changeSource (by decide), hchange changesetId hid, hsource]
      overlay := by
        intro _
        rw [hafter, hfilled, hoverlay, hsource]
        rfl }

variable (origin) in
/-- No effect of a commit throws. -/
theorem exists_commit (h : s.Synced) (props : MapViewProps) :
    ∃ s', s.commit origin props = .ok s' ∧ s'.Synced ∧ Commits origin s props s' := by
  rcases useMapInstance_cases h ⟨props, s.renders, s.styleVersion⟩ with
    ⟨hkey, huse⟩ | ⟨hkey, m, hm, huse⟩
  · cases hready : s.styleReady with
    | true => exact commit_ready h huse hready hkey
    | false =>
        obtain ⟨last, hlast, -⟩ := Option.map_eq_some_iff.mp (h.applied.symm.trans hkey)
        obtain ⟨m, hmap⟩ := exists_map h hlast
        refine commit_reloading huse hmap (h.reloading hready m hmap) hready hkey ?_
        rintro ⟨hloaded, -⟩
        rw [loaded_iff h, hready] at hloaded
        cases hloaded
  · exact commit_reloading huse rfl hm rfl rfl fun hboth => hkey hboth.2

end MapView

end Effects

section Runs

namespace MapView

variable {origin : String} {s s' : MapView}

/-- What the loading of the style does. -/
structure Loads (s s' : MapView) : Prop where
  committed : s'.committed = s.committed
  applied : s'.appliedStyleKey = s.appliedStyleKey
  before : ¬ s.Loaded
  loaded : s'.Loaded
  source : ∀ id, s'.source id = none

/-- What an event does. -/
inductive Does (origin : String) (s : MapView) : MapEvent → MapView → Prop
  | commit {props : MapViewProps} {s' : MapView}
      (hunmutated : ∀ last, s.committed = some last → last.props.Unmutated props)
      (hcommits : Commits origin s props s') :
      Does origin s (.commit props) s'
  | styleLoad {s' : MapView} (hloads : Loads s s') : Does origin s .styleLoad s'

/-- The listeners that wait make the style ready. -/
theorem iterate_markStyleLoaded (n : Nat) (s : MapView) :
    markStyleLoaded^[n + 1] s =
      { s with styleReady := true, styleVersion := s.styleVersion + (n + 1) } := by
  induction n generalizing s with
  | zero => rfl
  | succ n ih =>
      rw [Function.iterate_succ_apply, ih]
      simp only [markStyleLoaded, MapView.mk.injEq, true_and, and_true]
      omega

/-- The style of a map loads once, and the hooks hear of it. -/
theorem styleLoad_loads (h : s.Synced) (henabled : s.Enabled .styleLoad) :
    s.styleLoad.Synced ∧ Loads s s.styleLoad := by
  have hany : (s.map.any fun m => !m.styleLoaded) = true := henabled
  obtain ⟨m, hmap, hnot⟩ := (Option.any_eq_true _ _).mp hany
  have hbefore : ¬ s.Loaded := by
    rintro ⟨m', hmap', hloaded⟩
    obtain rfl := Option.some.inj (hmap.symm.trans hmap')
    rw [hloaded] at hnot
    cases hnot
  have hready : s.styleReady = false := by
    rw [loaded_iff h] at hbefore
    exact Bool.eq_false_of_not_eq_true hbefore
  have hm := h.reloading hready m hmap
  obtain ⟨n, hn⟩ := Nat.exists_eq_succ_of_ne_zero hm.waiting.ne'
  let loaded : MapInstance := { m with styleLoaded := true, waiting := 0 }
  have hload : s.styleLoad =
      { s with
        map := some loaded
        styleReady := true
        styleVersion := s.styleVersion + (n + 1) } := by
    unfold styleLoad
    rw [hmap]
    simp only
    rw [hn]
    exact iterate_markStyleLoaded n _
  have hloaded : loaded.Ready :=
    { loaded := rfl
      layered := by
        intro id layer hget
        rw [show loaded.layers = .empty from hm.layers] at hget
        cases hget
      fits := by
        intro id source hget
        rw [show loaded.sources = .empty from hm.sources] at hget
        cases hget }
  rw [hload]
  refine ⟨?_, ?_⟩
  · exact
      { fresh := h.fresh
        mounted := (congrArg Option.isSome hmap).symm.trans h.mounted
        applied := h.applied
        ready := fun _ => ⟨loaded, rfl, hloaded⟩
        reloading := nofun }
  · exact
      { committed := rfl
        applied := rfl
        before := hbefore
        loaded := ⟨loaded, rfl, rfl⟩
        source := by
          intro id
          rw [source_of_map (m := loaded) rfl,
            show loaded.sources = .empty from hm.sources]
          exact Dict.get?_empty id }

/-- An event throws no error. -/
theorem synced_step (h : s.Synced) {event : MapEvent}
    {outcome : Except MapError MapView}
    (hstep : step origin (.ok s) event = some outcome) :
    ∃ s', outcome = .ok s' ∧ s'.Synced ∧ Does origin s event s' := by
  unfold step at hstep
  rw [Option.ite_none_right_eq_some, Option.some.injEq] at hstep
  obtain ⟨henabled, rfl⟩ := hstep
  cases event with
  | commit props =>
      obtain ⟨s', hrun, hsynced, hcommits⟩ := exists_commit origin h props
      refine ⟨s', hrun, hsynced, .commit ?_ hcommits⟩
      intro last hlast
      have hall : (s.committed.all fun last => decide (last.props.Unmutated props)) =
        true := henabled
      rw [hlast, Option.all_some, decide_eq_true_iff] at hall
      exact hall
  | styleLoad =>
      obtain ⟨hsynced, hloads⟩ := styleLoad_loads h henabled
      exact ⟨s.styleLoad, rfl, hsynced, .styleLoad hloads⟩

/-- What every event keeps holds after every run, and no effect of it has thrown. -/
theorem exists_of_run {P : MapView → Prop} (hinitial : P initial)
    (hstep : ∀ s event s', s.Synced → P s → s'.Synced → Does origin s event s' → P s')
    {events : List MapEvent} {outcome : Except MapError MapView}
    (hrun : run origin events = some outcome) :
    ∃ s, outcome = .ok s ∧ s.Synced ∧ P s := by
  have hall : ∀ event ∈ events, (fun _ : MapEvent => True) event :=
    fun _ _ => trivial
  refine invariant_of_runFrom
    (P := fun outcome => ∃ s, outcome = Except.ok s ∧ s.Synced ∧ P s)
    ?_ hall ⟨initial, rfl, synced_initial, hinitial⟩ hrun
  rintro _ event outcome' ⟨s, rfl, hsynced, hP⟩ _ hgo
  obtain ⟨s', rfl, hsynced', hdoes⟩ := synced_step hsynced hgo
  exact ⟨s', rfl, hsynced', hstep s event s' hsynced hP hsynced' hdoes⟩

/-- A run with one more event is a run and a step. -/
theorem run_concat {before : List MapEvent} {event : MapEvent}
    {outcome : Except MapError MapView}
    (hrun : run origin (before ++ [event]) = some outcome) :
    ∃ s s', run origin before = some (.ok s) ∧ outcome = .ok s' ∧ s.Synced ∧
      s'.Synced ∧ Does origin s event s' := by
  obtain ⟨between, hbefore, hgo⟩ := runFrom_concat.mp hrun
  obtain ⟨s, rfl, hsynced, -⟩ := exists_of_run (P := fun _ => True) trivial
    (fun _ _ _ _ _ _ _ => trivial) hbefore
  obtain ⟨s', rfl, hsynced', hdoes⟩ := synced_step hsynced hgo
  exact ⟨s, s', hbefore, rfl, hsynced, hsynced', hdoes⟩

/-- A run up to a commit is a run and what the commit does. -/
theorem commit_of_run {before : List MapEvent} {props : MapViewProps}
    (hrun : run origin (before ++ [.commit props]) = some (.ok s')) :
    ∃ s, run origin before = some (.ok s) ∧ s'.Synced ∧
      (∀ last, s.committed = some last → last.props.Unmutated props) ∧
      Commits origin s props s' := by
  obtain ⟨s, s'', hbefore, hs'', -, hsynced', hdoes⟩ := run_concat hrun
  obtain rfl := Except.ok.inj hs''
  cases hdoes with
  | commit hunmutated hcommits => exact ⟨s, hbefore, hsynced', hunmutated, hcommits⟩

/-- What a run has led to, as evaluating it finds. -/
theorem exists_of_run_any {events : List MapEvent} {p : MapInstance → Bool}
    (h : ((run origin events).any fun outcome =>
      outcome.toOption.any fun s => s.map.any p) = true) :
    ∃ s m, run origin events = some (.ok s) ∧ s.map = some m ∧ p m = true := by
  obtain ⟨outcome, hrun, hsome⟩ := (Option.any_eq_true _ _).mp h
  obtain ⟨s, rfl, hmap⟩ := exists_eq_ok_of_any hsome
  obtain ⟨m, hm, hp⟩ := (Option.any_eq_true _ _).mp hmap
  exact ⟨s, m, hrun, hm, hp⟩

end MapView

end Runs

end Web
end VectorMapChanges
