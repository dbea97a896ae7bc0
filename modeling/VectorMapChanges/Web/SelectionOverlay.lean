import VectorMapChanges.Web.ChangeLayers

/-!
# The overlay of the selected change

One effect creates the overlay without features, and another fills it, which runs only
if the selection is another than in the render before.  A style that loads anew has no
overlay; the commit that creates it again fills it only if it happens to change the
selection as well.

Main facts:
* `overlay_shown_iff`: the overlay is that of the selection after every commit exactly
  if no commit creates it under a selection that stays.
-/

namespace VectorMapChanges
namespace Web

open Lib

/-- The selected change, if any, has an outline to draw. -/
def MapViewProps.Outlined (props : MapViewProps) : Prop :=
  ∃ change, props.selectedChange = some change ∧
    (change.value.geomA ≠ none ∨ change.value.geomB ≠ none)

theorem features_eq_nil_iff {props : MapViewProps} :
    props.features = [] ↔ ¬ props.Outlined := by
  unfold MapViewProps.features MapViewProps.Outlined
  cases props.selectedChange with
  | none => simp
  | some change =>
      cases hbefore : change.value.geomA <;> cases hafter : change.value.geomB <;>
        simp [overlayFeatures, hbefore, hafter]

/-- The same object of a selected change has the same features. -/
theorem features_of_unmutated {last next : MapViewProps} (h : last.Unmutated next)
    (hsame : last.selectedChange.map Obj.address =
      next.selectedChange.map Obj.address) :
    last.features = next.features := by
  have hfeatures : ∀ props : MapViewProps, props.features =
      ((props.selectedChange.map Obj.value).map overlayFeatures).getD [] := by
    intro props
    unfold MapViewProps.features
    cases props.selectedChange <;> rfl
  rw [hfeatures, hfeatures, h.2 hsame]

namespace MapView

variable {origin : String} {s s' : MapView} {events : List MapEvent}

/-- On a loaded style the overlay has the outlines of the selected change: that before
and that after, as far as it has them, and none if nothing is selected. -/
def OverlayShown (props : MapViewProps) (s : MapView) : Prop :=
  ∀ m, s.map = some m → m.styleLoaded = true →
    m.sources.get? "selected-outline" = some (.geojson props.features)

/-- A commit that finds the style loaded and no overlay on it selects another change,
or one without an outline, or none. -/
def RefillsWith (s : MapView) (props : MapViewProps) : Prop :=
  s.Loaded → s.appliedStyleKey = some props.key → s.source overlaySource = none →
    (∃ last, s.committed = some last ∧ last.props.selectedChange.map Obj.address ≠
      props.selectedChange.map Obj.address) ∨ ¬ props.Outlined

/-- The overlay, if there is one, has the features of the last render. -/
def OverlayCurrent (s : MapView) : Prop :=
  ∀ last source, s.committed = some last → s.source overlaySource = some source →
    source = .geojson last.props.features

theorem overlayShown_iff {props : MapViewProps} (hloaded : s.Loaded) :
    OverlayShown props s ↔ s.source overlaySource = some (.geojson props.features) :=
  forall_loaded_iff hloaded

theorem overlayShown_of_not_loaded {props : MapViewProps} (hloaded : ¬ s.Loaded) :
    OverlayShown props s :=
  fun m hmap hm => absurd ⟨m, hmap, hm⟩ hloaded

/-- Where the last render was right, this one is if it fills what it creates. -/
theorem overlayShown_commits_iff {props : MapViewProps} (hP : s.OverlayCurrent)
    (hsynced : s.Synced)
    (hunmutated : ∀ last, s.committed = some last → last.props.Unmutated props)
    (h : Commits origin s props s') :
    OverlayShown props s' ↔ RefillsWith s props := by
  by_cases hstays : s.Loaded ∧ s.appliedStyleKey = some props.key
  · have hloaded' : s'.Loaded := h.loaded.mpr hstays
    obtain ⟨last, hlast⟩ := exists_committed hsynced hstays.1
    have hdue := due_iff (r := ⟨props, s.renders, s.styleVersion⟩) hlast
      (fun r => r.props.selectedChange.map Obj.address)
    rw [overlayShown_iff hloaded', h.overlay hloaded']
    by_cases hfills : s.due ⟨props, s.renders, s.styleVersion⟩
        (fun r => r.props.selectedChange.map Obj.address) = true
    · rw [if_pos hfills]
      exact iff_of_true rfl fun _ _ _ => Or.inl ⟨last, hlast, hdue.mp hfills⟩
    · rw [if_neg hfills]
      have hsame : last.props.selectedChange.map Obj.address =
          props.selectedChange.map Obj.address :=
        not_not.mp (mt hdue.mpr hfills)
      cases hthere : s.source overlaySource with
      | none =>
          rw [Option.none_or, Option.some.injEq, Source.geojson.injEq, eq_comm,
            features_eq_nil_iff]
          constructor
          · exact fun hnot _ _ _ => Or.inr hnot
          · intro hrefills
            rcases hrefills hstays.1 hstays.2 hthere with ⟨last', hlast', hne⟩ | hnot
            · obtain rfl := Option.some.inj (hlast.symm.trans hlast')
              exact absurd hsame hne
            · exact hnot
      | some source =>
          have hfeatures := features_of_unmutated (hunmutated last hlast) hsame
          rw [Option.some_or, hP last source hlast hthere, hfeatures]
          refine iff_of_true rfl ?_
          intro _ _ hnone
          rw [hthere] at hnone
          cases hnone
  · have hloaded' : ¬ s'.Loaded := fun hloaded => hstays (h.loaded.mp hloaded)
    refine iff_of_true (overlayShown_of_not_loaded hloaded') ?_
    exact fun hloaded hkey _ => absurd ⟨hloaded, hkey⟩ hstays

/-- An overlay that is right after a commit is that of the last render. -/
theorem overlayCurrent_of_shown {props : MapViewProps} (hsynced' : s'.Synced)
    (h : Commits origin s props s') (hshown : OverlayShown props s') :
    s'.OverlayCurrent := by
  intro last source hlast hsource
  obtain rfl := Option.some.inj (h.committed.symm.trans hlast)
  have hloaded : s'.Loaded := loaded_of_source hsynced' hsource
  rw [(overlayShown_iff hloaded).mp hshown] at hsource
  exact (Option.some.inj hsource).symm

/-- What the overlay is after an event. -/
def Shown : MapEvent → Except MapError MapView → Prop
  | .commit props, .ok s => OverlayShown props s
  | _, _ => True

/-- An event fills the overlay that it creates. -/
def Refills : Except MapError MapView → MapEvent → Prop
  | .ok s, .commit props => s.RefillsWith props
  | _, _ => True

/-- The overlay has the outlines of the selected change after each commit on a loaded
style exactly if each commit that creates the overlay changes the selection as well,
or has nothing to draw. -/
theorem overlay_shown_iff (origin : String) (events : List MapEvent) :
    (∀ before props s, before ++ [.commit props] <+: events →
      run origin (before ++ [.commit props]) = some (.ok s) → OverlayShown props s) ↔
      EachStep (step origin) Refills (.ok initial) events := by
  have hafter : (∀ before props s, before ++ [.commit props] <+: events →
      run origin (before ++ [.commit props]) = some (.ok s) → OverlayShown props s) ↔
        AfterEach (step origin) Shown (.ok initial) events := by
    constructor
    · intro h before event hpre outcome hrun
      cases event with
      | styleLoad => trivial
      | commit props =>
          cases outcome with
          | error e => trivial
          | ok s => exact h before props s hpre hrun
    · intro h before props s hpre hrun
      exact h before (.commit props) hpre (.ok s) hrun
  rw [hafter]
  refine afterEach_iff
    (P := fun outcome => ∃ s, outcome = Except.ok s ∧ s.Synced ∧ s.OverlayCurrent)
    ⟨initial, rfl, synced_initial, nofun⟩ ?_ ?_ events
  · rintro _ event outcome' ⟨s, rfl, hsynced, hcurrent⟩ hstep
    obtain ⟨s', rfl, -, hdoes⟩ := synced_step hsynced hstep
    cases hdoes with
    | styleLoad hloads => exact Iff.rfl
    | commit hunmutated hcommits =>
        exact overlayShown_commits_iff hcurrent hsynced hunmutated hcommits
  · rintro _ event outcome' ⟨s, rfl, hsynced, hcurrent⟩ hstep hshown
    obtain ⟨s', rfl, hsynced', hdoes⟩ := synced_step hsynced hstep
    refine ⟨s', rfl, hsynced', ?_⟩
    cases hdoes with
    | styleLoad hloads =>
        intro last source _ hsource
        rw [hloads.source] at hsource
        cases hsource
    | commit hunmutated hcommits =>
        exact overlayCurrent_of_shown hsynced' hcommits hshown

/-- A change, drawn as a triangle before and a larger one after. -/
def redrawn : Obj ChangeOutlines where
  address := 1
  value :=
    { geomA := some (.polygon [[(0, 0), (1, 0), (0, 1), (0, 0)]])
      geomB := some (.polygon [[(0, 0), (2, 0), (0, 2), (0, 0)]]) }

/-- `App` with a selected change of the first interval, on a basemap. -/
def selecting (basemap : BasemapChoice) : MapViewProps :=
  { showing 1 with basemap := basemap, selectedChange := some redrawn }

/-- The basemap is swapped under a selected change, which is drawn until then. -/
def swapped : List MapEvent :=
  firstShown ++ [.commit (selecting .map), .commit (selecting .satellite), .styleLoad]

theorem overlay_lost :
    ¬ ∀ before props s,
      before ++ [.commit props] <+: swapped ++ [.commit (selecting .satellite)] →
        run "" (before ++ [.commit props]) = some (.ok s) → OverlayShown props s := by
  intro h
  have hany : ((run "" (swapped ++ [.commit (selecting .satellite)])).any fun outcome =>
      outcome.toOption.any fun s => s.map.any fun m => m.styleLoaded &&
        decide (m.sources.get? "selected-outline" = some (.geojson []))) = true := by
    decide
  obtain ⟨s, m, hrun, hmap, hm⟩ := exists_of_run_any hany
  rw [Bool.and_eq_true, decide_eq_true_iff] at hm
  have hshown := h swapped (selecting .satellite) s (List.prefix_refl _) hrun m hmap hm.1
  rw [hm.2] at hshown
  have hfeatures : (selecting .satellite).features = [] :=
    (Source.geojson.inj (Option.some.inj hshown)).symm
  cases hfeatures

end MapView

end Web
end VectorMapChanges
