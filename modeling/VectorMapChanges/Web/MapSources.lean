import VectorMapChanges.Web.MapView

/-!
# The sources and layers of the hooks

Every layer stands on a source of the same hook, and no two layers have the same id:
where a source is missing, so are its layers, and both can be added without an error.

Main facts:
* `ensure_eq_ok`: a source is added with its layers unless it is there;
* `ready_setTiles`, `ready_setData`: other tiles or features change one source only.
-/

namespace VectorMapChanges
namespace Web

open Lib

section Layers

/-- All layers of the hooks. -/
def mapLayers : List Layer :=
  contextLayers ++ changeLayers ++ overlayLayers

theorem overlay_ne_change : overlaySource ≠ changeSource := by
  decide

theorem layer_unique {layer layer' : Layer} (h : layer ∈ mapLayers)
    (h' : layer' ∈ mapLayers) (hid : layer.id = layer'.id) :
    layer = layer' := by
  have hnodup : (mapLayers.map Layer.id).Nodup := by decide
  exact List.inj_on_of_nodup_map hnodup h h' hid

namespace MapInstance

/-- Every layer is one of the hooks, on a source that is there. -/
def Layered (m : MapInstance) : Prop :=
  ∀ id layer, m.layers.get? id = some layer →
    layer ∈ mapLayers ∧ layer.id = id ∧ layer.source ∈ m.sources

/-- A source is of the kind, and at the zooms, that the hooks give its id. -/
def Fits (id : String) : Source → Prop
  | .vector _ minzoom maxzoom =>
      id ≠ overlaySource ∧ (id = changeSource → minzoom = 0 ∧ maxzoom = 18)
  | .geojson _ => id ≠ changeSource

/-- A loaded style with sources and layers of the hooks. -/
structure Ready (m : MapInstance) : Prop where
  loaded : m.styleLoaded = true
  layered : m.Layered
  fits : ∀ id source, m.sources.get? id = some source → Fits id source

variable {m : MapInstance}

theorem ensure_of_not_mem {id : String} {source : Source} {layers : List Layer}
    (h : id ∉ m.sources) :
    m.ensure id (some source) layers =
      m.addSource id source >>= fun added => layers.foldlM addLayer added :=
  if_neg h

/-- Layers are added to a source that is there, each once. -/
theorem addLayers_eq_ok {id : String} {layers : List Layer}
    (hloaded : m.styleLoaded = true) (hlayered : m.Layered) (hid : id ∈ m.sources)
    (hlayers : ∀ layer ∈ layers, layer ∈ mapLayers ∧ layer.source = id)
    (hnodup : (layers.map Layer.id).Nodup)
    (hfresh : ∀ layer ∈ layers, layer.id ∉ m.layers) :
    ∃ after, layers.foldlM addLayer m = .ok { m with layers := after } ∧
      Layered { m with layers := after } := by
  induction layers generalizing m with
  | nil => exact ⟨m.layers, rfl, hlayered⟩
  | cons layer rest ih =>
      obtain ⟨hmem, hsource⟩ := hlayers layer List.mem_cons_self
      rw [List.map_cons, List.nodup_cons] at hnodup
      let next : MapInstance := { m with layers := m.layers.set layer.id layer }
      have hadd : m.addLayer layer = .ok next := by
        unfold addLayer
        rw [if_neg (by simp [hloaded]), if_neg (hfresh layer List.mem_cons_self),
          if_neg (by rw [hsource]; exact not_not_intro hid)]
      have hnext : next.Layered := by
        intro id' layer' hget
        rw [Dict.get?_set] at hget
        split_ifs at hget with heq
        · obtain rfl := Option.some.inj hget
          exact ⟨hmem, heq.symm, hsource ▸ hid⟩
        · exact hlayered id' layer' hget
      have hrest : ∀ layer' ∈ rest, layer'.id ∉ next.layers := by
        intro layer' hlayer' hin
        rcases Dict.mem_set.mp hin with hin | heq
        · exact hfresh layer' (List.mem_cons_of_mem _ hlayer') hin
        · exact hnodup.1 (heq ▸ List.mem_map_of_mem hlayer')
      obtain ⟨after, hrun, hafter⟩ := ih (m := next) hloaded hnext hid
        (fun layer' h => hlayers layer' (List.mem_cons_of_mem _ h)) hnodup.2 hrest
      refine ⟨after, ?_, hafter⟩
      rw [List.foldlM_cons, hadd, ok_bind]
      exact hrun

theorem get?_set_eq_update (sources : Dict String Source) (id : String)
    (source : Source) :
    (sources.set id source).get? = Function.update sources.get? id (some source) := by
  funext other
  rw [Dict.get?_set, Function.update_apply]

/-- A source that fits keeps what is there. -/
theorem ready_set {id : String} {source : Source} (h : m.Ready)
    (hfits : Fits id source) :
    Ready { m with sources := m.sources.set id source } where
  loaded := h.loaded
  layered := by
    intro id' layer hget
    obtain ⟨hmem, hid, hsource⟩ := h.layered id' layer hget
    exact ⟨hmem, hid, Dict.mem_set.mpr (Or.inl hsource)⟩
  fits := by
    intro id' source' hget
    rw [Dict.get?_set] at hget
    split_ifs at hget with heq
    · obtain rfl := Option.some.inj hget
      exact heq ▸ hfits
    · exact h.fits id' source' hget

/-- A source is added with its layers unless it is there. -/
theorem ensure_eq_ok {id : String} {source : Option Source} {layers : List Layer}
    (h : m.Ready) (hfits : ∀ new ∈ source, Fits id new)
    (hlayers : ∀ layer ∈ layers, layer ∈ mapLayers ∧ layer.source = id)
    (hnodup : (layers.map Layer.id).Nodup) :
    ∃ m', m.ensure id source layers = .ok m' ∧ m'.Ready ∧
      m'.sources.get? =
        Function.update m.sources.get? id ((m.sources.get? id).or source) := by
  cases source with
  | none =>
      refine ⟨m, rfl, h, ?_⟩
      rw [Option.or_none, Function.update_eq_self]
  | some source =>
      by_cases hid : id ∈ m.sources
      · obtain ⟨there, hthere⟩ := Dict.exists_get?_of_mem hid
        refine ⟨m, if_pos hid, h, ?_⟩
        rw [hthere, Option.some_or, ← hthere, Function.update_eq_self]
      · let added : MapInstance := { m with sources := m.sources.set id source }
        have hadd : m.addSource id source = .ok added := by
          unfold addSource
          rw [if_neg (by simp [h.loaded]), if_neg hid]
        have hadded : added.Ready := ready_set h (hfits source rfl)
        -- a layer with such an id would be on the source that is not there
        have hfresh : ∀ layer ∈ layers, layer.id ∉ m.layers := by
          intro layer hlayer hin
          obtain ⟨layer', hget⟩ := Dict.exists_get?_of_mem hin
          obtain ⟨hmem, heq, hsource⟩ := h.layered layer.id layer' hget
          obtain ⟨hmem', hsource'⟩ := hlayers layer hlayer
          obtain rfl := layer_unique hmem hmem' heq
          exact hid (hsource' ▸ hsource)
        obtain ⟨after, hrun, hafter⟩ := addLayers_eq_ok (m := added) hadded.loaded
          hadded.layered (Dict.mem_set.mpr (Or.inr rfl)) hlayers hnodup hfresh
        refine ⟨{ added with layers := after }, ?_, ⟨h.loaded, hafter, hadded.fits⟩, ?_⟩
        · rw [ensure_of_not_mem hid, hadd, ok_bind]
          exact hrun
        · rw [Dict.get?_eq_none_iff.mpr hid, Option.none_or]
          exact get?_set_eq_update m.sources id source

/-- The tiles of the change source are others. -/
theorem ready_setTiles (h : m.Ready) (tiles : List String) :
    (m.setTiles changeSource tiles).Ready ∧
      (m.setTiles changeSource tiles).sources.get? =
        Function.update m.sources.get? changeSource
          ((m.sources.get? changeSource).map fun _ => .vector tiles 0 18) := by
  unfold setTiles
  cases hget : m.sources.get? changeSource with
  | none =>
      have hsame := Function.update_eq_self changeSource m.sources.get?
      rw [hget] at hsame
      exact ⟨h, hsame.symm⟩
  | some source =>
      have hfits := h.fits changeSource source hget
      cases source with
      | vector before minzoom maxzoom =>
          obtain ⟨rfl, rfl⟩ := hfits.2 rfl
          exact ⟨ready_set h ⟨hfits.1, fun _ => ⟨rfl, rfl⟩⟩,
            get?_set_eq_update m.sources changeSource _⟩
      | geojson features => exact absurd rfl hfits

/-- The features of the overlay source are others. -/
theorem ready_setData (h : m.Ready) (features : List OverlayFeature) :
    (m.setData overlaySource features).Ready ∧
      (m.setData overlaySource features).sources.get? =
        Function.update m.sources.get? overlaySource
          ((m.sources.get? overlaySource).map fun _ => .geojson features) := by
  unfold setData
  cases hget : m.sources.get? overlaySource with
  | none =>
      have hsame := Function.update_eq_self overlaySource m.sources.get?
      rw [hget] at hsame
      exact ⟨h, hsame.symm⟩
  | some source =>
      have hfits := h.fits overlaySource source hget
      cases source with
      | vector before minzoom maxzoom => exact absurd rfl hfits.1
      | geojson before =>
          exact ⟨ready_set h overlay_ne_change, get?_set_eq_update m.sources overlaySource _⟩

theorem ready_fitBounds (h : m.Ready) (bounds : Option LngLatBounds) :
    (m.fitBounds bounds).Ready ∧ (m.fitBounds bounds).sources = m.sources := by
  cases bounds with
  | none => exact ⟨h, rfl⟩
  | some bounds => exact ⟨⟨h.loaded, h.layered, h.fits⟩, rfl⟩

end MapInstance
end Layers

end Web
end VectorMapChanges
