import VectorMapChanges.Web.MapCommits

/-!
# The layers of the selected interval

The change layer follows the selected changeset and the filter: its source is built
for them, or gets their tiles when they change.  The context layer is built for the
snapshot that is selected when the style has loaded, and nothing sets its tiles
later: it follows the interval only as long as the later snapshot stays the same.

Main facts:
* `changes_synchronised`: no effect throws, and the change layer is that of the last
  commit;
* `context_follows_iff`: when the context layer is that of every commit.
-/

namespace VectorMapChanges
namespace Web

open Lib

namespace MapView

variable {origin : String} {s s' : MapView} {events : List MapEvent}

section Changes

/-- The change source, if there is one, has the tiles of the last render. -/
def ChangesCurrent (origin : String) (s : MapView) : Prop :=
  ∀ last changesetId source, s.committed = some last →
    last.props.changesetId = some changesetId → s.source changeSource = some source →
    source = changeTileSource origin changesetId last.props.visibleClassifications.value

/-- After a commit on a loaded style the change source is that of its props. -/
theorem change_of_commits {props : MapViewProps} (hP : s.ChangesCurrent origin)
    (hunmutated : ∀ last, s.committed = some last → last.props.Unmutated props)
    (h : Commits origin s props s') (hloaded : s'.Loaded) {changesetId : Nat}
    (hid : props.changesetId = some changesetId) :
    s'.source changeSource =
      some (changeTileSource origin changesetId props.visibleClassifications.value) := by
  rw [h.change hloaded changesetId hid]
  split_ifs with hdue
  · exact Option.none_or
  · cases hthere : s.source changeSource with
    | none => exact Option.none_or
    | some source =>
        rw [Option.some_or]
        -- the source has the tiles of the last render, which are those of this one
        rcases Option.eq_none_or_eq_some s.committed with hfirst | ⟨last, hlast⟩
        · exact absurd (by simp [due, hfirst]) hdue
        · rw [due_iff hlast, not_not] at hdue
          obtain ⟨hsameId, hsameAddress⟩ := Prod.mk.inj hdue
          have hvalue := (hunmutated last hlast).1 hsameAddress
          rw [hP last changesetId source hlast (hsameId.trans hid) hthere, hvalue]

/-- Every event keeps the change source at the tiles of the last render. -/
theorem changesCurrent_step {event : MapEvent} (hP : s.ChangesCurrent origin)
    (hsynced' : s'.Synced) (hdoes : Does origin s event s') :
    s'.ChangesCurrent origin := by
  intro last changesetId source hlast hid hsource
  cases hdoes with
  | styleLoad hloads =>
      rw [hloads.source] at hsource
      cases hsource
  | commit hunmutated hcommits =>
      obtain rfl := Option.some.inj (hcommits.committed.symm.trans hlast)
      have hloaded : s'.Loaded := loaded_of_source hsynced' hsource
      rw [change_of_commits hP hunmutated hcommits hloaded hid] at hsource
      exact (Option.some.inj hsource).symm

/-- However props and styles change, no call of `addSource` or `addLayer` throws, be it
for a style that has not loaded or for an id that is there, and after a commit on a
loaded style the change layer is that of the selected changeset and the filter. -/
theorem changes_synchronised {outcome : Except MapError MapView}
    (hrun : run origin events = some outcome) :
    ∃ s, outcome = .ok s ∧
      ∀ before props, events = before ++ [.commit props] →
        ∀ m, s.map = some m → m.styleLoaded = true →
          ∀ changesetId, props.changesetId = some changesetId →
            m.sources.get? "changes" =
              some (.vector [changeTileUrl origin changesetId
                (props.visibleClassifications.value.map ChangeType.name)] 0 18) := by
  have hinitial : initial.ChangesCurrent origin := nofun
  have hkeep : ∀ s event s', s.Synced → s.ChangesCurrent origin → s'.Synced →
      Does origin s event s' → s'.ChangesCurrent origin :=
    fun s event s' _ hP hsynced' hdoes => changesCurrent_step hP hsynced' hdoes
  obtain ⟨s, rfl, -, -⟩ := exists_of_run hinitial hkeep hrun
  refine ⟨s, rfl, ?_⟩
  rintro before props rfl m hmap hm changesetId hid
  obtain ⟨s₀, hbefore, -, hunmutated, hcommits⟩ := commit_of_run hrun
  obtain ⟨_, hs₀, -, hcurrent⟩ := exists_of_run hinitial hkeep hbefore
  obtain rfl := Except.ok.inj hs₀
  rw [← source_of_map hmap]
  exact change_of_commits hcurrent hunmutated hcommits ⟨m, hmap, hm⟩ hid

/-- The changeset of two years, from one snapshot to the next. -/
def yearly (id year : Nat) : Api.ChangesetPayload :=
  Api.changesetPayload
    { id := id, algorithmVersion := "1", snapshotAId := id, snapshotBId := id + 1,
      timeA := ⟨year, 7, 1, 0, 0, 0⟩, timeB := ⟨year + 1, 7, 1, 0, 0, 0⟩,
      unchangedCount := 0, modifiedGeometryCount := 0, modifiedAttributesCount := 0,
      modifiedGeometryAndAttributesCount := 0, addedCount := 0, removedCount := 0,
      ambiguousCount := 0 }

/-- `App` with two intervals, the second of them selected or the first. -/
def showing (selected : Nat) : MapViewProps :=
  mapViewProps .light .map
    ⟨[yearly 1 2024, yearly 2 2025], some selected, none, none, false, none⟩
    ⟨0, changeTypes⟩ none

/-- The first interval is shown once the style has loaded. -/
def firstShown : List MapEvent :=
  [.commit (mapViewProps .light .map AppState.initial.view ⟨0, changeTypes⟩ none),
    .commit (showing 1), .styleLoad, .commit (showing 1)]

theorem changes_synchronised_switch :
    ∃ s m, run "" (firstShown ++ [.commit (showing 2)]) = some (.ok s) ∧
      s.map = some m ∧ m.sources.get? "changes" =
        some (.vector [changeTileUrl "" 2 (changeTypes.map ChangeType.name)] 0 18) := by
  have hany : ((run "" (firstShown ++ [.commit (showing 2)])).any fun outcome =>
      outcome.toOption.any fun s => s.map.any MapInstance.styleLoaded) = true := by
    decide
  obtain ⟨s, m, hrun, hmap, hloaded⟩ := exists_of_run_any hany
  obtain ⟨s', hs', h⟩ := changes_synchronised hrun
  obtain rfl := Except.ok.inj hs'
  exact ⟨s, m, hrun, hmap, h firstShown (showing 2) rfl m hmap hloaded 2 rfl⟩

end Changes

section Context

/-- On a loaded style the context source is that of the selected snapshot. -/
def ContextShown (origin : String) (props : MapViewProps) (s : MapView) : Prop :=
  ∀ m, s.map = some m → m.styleLoaded = true →
    ∀ snapshotId, props.contextSnapshotId = some snapshotId →
      m.sources.get? "buildings" =
        some (.vector [buildingTileUrl origin snapshotId] 15 18)

/-- The commits all ask for one theme and basemap. -/
def SameStyle (key : String) (events : List MapEvent) : Prop :=
  ∀ props, .commit props ∈ events → props.key = key

/-- While a loaded style stays, all commits hand the map the same snapshot, or none. -/
def ContextKept (origin : String) (events : List MapEvent) : Prop :=
  ∀ (before : List MapEvent) (p : MapViewProps) (between : List MapEvent)
    (q : MapViewProps), before ++ [.commit p] ++ (between ++ [.commit q]) <+: events →
    ∀ s, run origin (before ++ [.commit p]) = some (.ok s) → s.Loaded →
      SameStyle p.key (between ++ [.commit q]) →
        ∀ a b, p.contextSnapshotId = some a → q.contextSnapshotId = some b → a = b

theorem contextTileSource_inj {a b : Nat}
    (h : contextTileSource origin a = contextTileSource origin b) :
    a = b := by
  unfold contextTileSource buildingTileUrl at h
  simp only [Source.vector.injEq, List.cons.injEq, String.append_left_inj,
    String.append_right_inj, and_true] at h
  exact toString_nat_injective h

theorem contextShown_iff {props : MapViewProps} {snapshotId : Nat}
    (hid : props.contextSnapshotId = some snapshotId) (hloaded : s.Loaded) :
    ContextShown origin props s ↔
      s.source contextSource = some (contextTileSource origin snapshotId) := by
  rw [← forall_loaded_iff hloaded]
  constructor
  · intro h m hmap hm
    exact h m hmap hm snapshotId hid
  · intro h m hmap hm snapshotId' hid'
    obtain rfl := Option.some.inj (hid.symm.trans hid')
    exact h m hmap hm

theorem applied_of_commits {props : MapViewProps} (hsynced' : s'.Synced)
    (h : Commits origin s props s') :
    s'.appliedStyleKey = some props.key := by
  rw [hsynced'.applied, h.committed, Option.map_some]

/-- While a loaded style stays, so does its context source. -/
theorem context_stays {source : Source} {key : String} {more : List MapEvent}
    {outcome : Except MapError MapView} (hsynced : s.Synced) (hloaded : s.Loaded)
    (hkey : s.appliedStyleKey = some key)
    (hsource : s.source contextSource = some source) (hsame : SameStyle key more)
    (hrun : runFrom (step origin) (.ok s) more = some outcome) :
    ∃ s', outcome = .ok s' ∧ s'.Loaded ∧ s'.source contextSource = some source := by
  induction more generalizing s with
  | nil =>
      obtain rfl := Option.some.inj hrun
      exact ⟨s, rfl, hloaded, hsource⟩
  | cons event rest ih =>
      obtain ⟨between, hfirst, hrest⟩ := runFrom_cons.mp hrun
      obtain ⟨s₁, rfl, hsynced₁, hdoes⟩ := synced_step hsynced hfirst
      cases hdoes with
      | styleLoad hloads => exact absurd hloaded hloads.before
      | @commit props _ hunmutated hcommits =>
          have hprops : props.key = key := hsame props List.mem_cons_self
          have hloaded₁ : s₁.Loaded :=
            hcommits.loaded.mpr ⟨hloaded, by rw [hkey, hprops]⟩
          have hkey₁ := applied_of_commits hsynced₁ hcommits
          rw [hprops] at hkey₁
          refine ih hsynced₁ hloaded₁ hkey₁ ?_ ?_ hrest
          · rw [hcommits.context hloaded₁, hsource, Option.some_or]
          · exact fun props' hmem => hsame props' (List.mem_cons_of_mem _ hmem)

/-- The context source has been built by a commit on the style that is there. -/
theorem context_origin {source : Source} (hrun : run origin events = some (.ok s))
    (hsource : s.source contextSource = some source) :
    ∃ before p between s₀ snapshotId, events = before ++ [.commit p] ++ between ∧
      run origin (before ++ [.commit p]) = some (.ok s₀) ∧ s₀.Loaded ∧
      SameStyle p.key between ∧ s.appliedStyleKey = some p.key ∧
      p.contextSnapshotId = some snapshotId ∧
      source = contextTileSource origin snapshotId := by
  induction events using List.reverseRecOn generalizing s with
  | nil =>
      obtain rfl := Except.ok.inj (Option.some.inj hrun)
      cases hsource
  | append_singleton before event ih =>
      obtain ⟨s₁, s₂, hbefore, hs₂, hsynced₁, hsynced₂, hdoes⟩ := run_concat hrun
      obtain rfl := Except.ok.inj hs₂
      cases hdoes with
      | styleLoad hloads =>
          rw [hloads.source] at hsource
          cases hsource
      | @commit props _ hunmutated hcommits =>
          have hloaded : s.Loaded := loaded_of_source hsynced₂ hsource
          have hkey := applied_of_commits hsynced₂ hcommits
          rw [hcommits.context hloaded] at hsource
          cases hthere : s₁.source contextSource with
          | none =>
              rw [hthere, Option.none_or, Option.map_eq_some_iff] at hsource
              obtain ⟨snapshotId, hid, rfl⟩ := hsource
              exact ⟨before, props, [], s, snapshotId, (List.append_nil _).symm, hrun,
                hloaded, nofun, hkey, hid, rfl⟩
          | some there =>
              rw [hthere, Option.some_or] at hsource
              obtain rfl := Option.some.inj hsource
              obtain ⟨before', p, between, s₀, snapshotId, rfl, hrun₀, hloaded₀, hsame,
                happlied, hid, rfl⟩ := ih hbefore hthere
              have hprops : props.key = p.key :=
                Option.some.inj ((hcommits.loaded.mp hloaded).2.symm.trans happlied)
              refine ⟨before', p, between ++ [.commit props], s₀, snapshotId,
                List.append_assoc _ _ _, hrun₀, hloaded₀, ?_, ?_, hid, rfl⟩
              · intro props' hmem
                rcases List.mem_append.mp hmem with hmem | hmem
                · exact hsame props' hmem
                · obtain rfl := MapEvent.commit.inj (List.mem_singleton.mp hmem)
                  exact hprops
              · rw [hkey, hprops]

/-- The map draws the later snapshot of the selected interval after each commit on a
loaded style exactly if that snapshot stays the same while the style does. -/
theorem context_follows_iff {outcome : Except MapError MapView}
    (hrun : run origin events = some outcome) :
    (∀ before props s, before ++ [.commit props] <+: events →
      run origin (before ++ [.commit props]) = some (.ok s) →
        ContextShown origin props s) ↔ ContextKept origin events := by
  constructor
  · intro hshown before p between q hpre s hs hloaded hsame a b ha hb
    have hpreP : before ++ [.commit p] <+: events :=
      (List.prefix_append _ _).trans hpre
    have hsource := (contextShown_iff ha hloaded).mp (hshown before p s hpreP hs)
    obtain ⟨_, -, hsynced, -, hcommits⟩ := commit_of_run hs
    have hkey := applied_of_commits hsynced hcommits
    -- the run goes on from the first commit to the second one
    obtain ⟨rest, hrest⟩ := hpre
    have hall := hrun
    rw [← hrest] at hall
    obtain ⟨after, hafter, -⟩ := runFrom_append.mp hall
    obtain ⟨s₃, hs₃, hgo⟩ := runFrom_append.mp hafter
    obtain rfl := Option.some.inj (hs.symm.trans hs₃)
    obtain ⟨s', rfl, hloaded', hstays⟩ :=
      context_stays hsynced hloaded hkey hsource hsame hgo
    have hassoc : before ++ [.commit p] ++ (between ++ [.commit q]) =
        (before ++ [.commit p] ++ between) ++ [.commit q] :=
      (List.append_assoc _ _ _).symm
    rw [hassoc] at hafter hrest
    have hnext := hshown _ q s' ⟨rest, hrest⟩ hafter
    have hsource' := (contextShown_iff hb hloaded').mp hnext
    exact contextTileSource_inj (Option.some.inj (hstays.symm.trans hsource'))
  · intro hkept before props s hpre hs m hmap hm snapshotId hid
    obtain ⟨s₁, -, -, -, hcommits⟩ := commit_of_run hs
    have hloaded : s.Loaded := ⟨m, hmap, hm⟩
    refine (contextShown_iff hid hloaded).mpr ?_ m hmap hm snapshotId hid
    obtain ⟨source, hsource⟩ : ∃ source, s.source contextSource = some source := by
      rw [hcommits.context hloaded, hid]
      cases s₁.source contextSource with
      | none => exact ⟨_, rfl⟩
      | some there => exact ⟨there, rfl⟩
    obtain ⟨before', p, between, s₀, first, hevents, hrun₀, hloaded₀, hsame, -, hfirst,
      rfl⟩ := context_origin hs hsource
    rw [hsource]
    rcases List.eq_nil_or_concat between with rfl | ⟨between, event, rfl⟩
    · rw [List.append_nil] at hevents
      obtain rfl := MapEvent.commit.inj
        (List.singleton_inj.mp (List.append_inj' hevents rfl).2)
      rw [Option.some.inj (hid.symm.trans hfirst)]
    · rw [List.concat_eq_append] at hevents hsame
      rw [← List.append_assoc] at hevents
      obtain ⟨hbefore, hlast⟩ := List.append_inj' hevents rfl
      obtain rfl := List.singleton_inj.mp hlast
      rw [hbefore, List.append_assoc] at hpre
      rw [hkept before' p between props hpre s₀ hrun₀ hloaded₀ hsame first snapshotId
        hfirst hid]

/-- The second interval ends at another snapshot than the first. -/
theorem context_stale :
    ¬ ∀ before props s,
      before ++ [.commit props] <+: firstShown ++ [.commit (showing 2)] →
        run "" (before ++ [.commit props]) = some (.ok s) → ContextShown "" props s := by
  intro h
  have hany : ((run "" (firstShown ++ [.commit (showing 2)])).any fun outcome =>
      outcome.toOption.any fun s => s.map.any fun m => m.styleLoaded &&
        decide (m.sources.get? "buildings" ≠
          some (.vector [buildingTileUrl "" 3] 15 18))) = true := by
    decide
  obtain ⟨s, m, hrun, hmap, hm⟩ := exists_of_run_any hany
  rw [Bool.and_eq_true, decide_eq_true_iff] at hm
  exact hm.2 (h firstShown (showing 2) s (List.prefix_refl _) hrun m hmap hm.1 3 rfl)

/-- The commits of the first interval hand over one snapshot. -/
theorem contextKept_firstShown : ContextKept "" firstShown := by
  have hshowing : (showing 1).contextSnapshotId = some 2 := by decide
  have htwo : ∀ props, .commit props ∈ firstShown → ∀ snapshotId,
      props.contextSnapshotId = some snapshotId → snapshotId = 2 := by
    intro props hmem snapshotId hid
    rcases List.mem_cons.mp hmem with hfirst | hmem
    · obtain rfl := MapEvent.commit.inj hfirst
      cases hid
    · have hprops : props = showing 1 := by simpa using hmem
      rw [hprops, hshowing] at hid
      exact (Option.some.inj hid).symm
  intro before p between q hpre _ _ _ _ a b ha hb
  have hp : .commit p ∈ firstShown := hpre.subset (by simp)
  have hq : .commit q ∈ firstShown := hpre.subset (by simp)
  rw [htwo p hp a ha, htwo q hq b hb]

/-- Without another interval the context layer is right. -/
theorem context_follows_first :
    ∃ s m, run "" firstShown = some (.ok s) ∧ s.map = some m ∧
      m.sources.get? "buildings" = some (.vector [buildingTileUrl "" 2] 15 18) := by
  have hany : ((run "" firstShown).any fun outcome =>
      outcome.toOption.any fun s => s.map.any MapInstance.styleLoaded) = true := by
    decide
  obtain ⟨s, m, hrun, hmap, hloaded⟩ := exists_of_run_any hany
  have hshown := (context_follows_iff hrun).mpr contextKept_firstShown
    (firstShown.take 3) (showing 1) s (List.prefix_refl _) hrun
  exact ⟨s, m, hrun, hmap, hshown m hmap hloaded 2 rfl⟩

end Context

end MapView

end Web
end VectorMapChanges
