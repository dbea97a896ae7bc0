import VectorMapChanges.Api.History
import VectorMapChanges.Lib.Adjacent

/-!
# The timeline of a building

`FeatureTimeline` lists the snapshots that hold a building, and under each of
them the changes of the interval that ends there and begins at the entry in front
of it.  A changeset compares consecutive snapshots; the entry in front of a
snapshot is the last one that holds the building.  The two differ where the
building is not there.

Main facts:
* `filter_chips_featureTimeline`: the chips of one change, row by row;
* `chips_eq_singleton_iff`: a change has one chip exactly if its interval is that
  of two neighbouring entries;
* `exists_interval_iff`: consecutive snapshots are neighbouring entries exactly
  if both hold the building.
-/

namespace VectorMapChanges
namespace Web

open Lib Api

section Rendering

variable {J : Type}

/-- `isoDate` -/
def isoDate (iso : String) : String :=
  String.ofList (iso.toList.take 10)

example : isoDate "2026-07-01T00:00:00Z" = "2026-07-01" := by
  decide

/-- `x.toFixed(0)`: the nearest integer, and of two the one farther from zero. -/
def toFixed0 (x : ℚ) : String :=
  if x < 0 then "-" ++ toString (-x + 1 / 2).floor
  else toString (x + 1 / 2).floor

/-- `CLASSIFICATION_LABELS` -/
def classificationLabels : Dict String String :=
  Dict.ofList
    [("added", "Added"),
      ("removed", "Removed"),
      ("modified_geometry", "Geometry changed"),
      ("modified_attributes", "Attributes changed"),
      ("modified_geometry_and_attributes", "Geometry + attributes"),
      ("ambiguous", "Ambiguous")]

/-- `CLASSIFICATION_COLORS` -/
def classificationColors : Dict String String :=
  Dict.ofList
    [("added", "#2e7d32"),
      ("removed", "#c62828"),
      ("modified_geometry", "#ed6c02"),
      ("modified_attributes", "#0288d1"),
      ("modified_geometry_and_attributes", "#7b1fa2"),
      ("ambiguous", "#f9a825")]

/-- The chip of a change. -/
structure ClassificationChip where
  key : Nat
  label : Option String
  bgcolor : Option String
deriving DecidableEq

/-- The chip of the change with the given id and classification. -/
def classificationChip (changeFeatureId : Nat) (classification : String) :
    ClassificationChip where
  key := changeFeatureId
  label := classificationLabels.get? classification
  bgcolor := classificationColors.get? classification

/-- The text beside an area that changed. -/
structure AreaDelta where
  text : String
  color : String
deriving DecidableEq

/-- What the timeline shows of an entry. -/
structure TimelineRow where
  key : Nat
  divider : Bool
  date : String
  area : String
  areaDelta : Option AreaDelta
  building : Option String
  chips : List ClassificationChip
deriving DecidableEq

/-- The change of the area since the entry in front, if it is over half a square
metre. -/
def areaDelta (previous : Option (HistoryEntry J)) (entry : HistoryEntry J) :
    Option AreaDelta :=
  let delta := match previous with
    | some before => entry.areaM2 - before.areaM2
    | none => 0
  if previous.isSome ∧ 1 / 2 < |delta| then
    some
      { text := (if 0 < delta then "+" else "") ++ toFixed0 delta ++ " m²"
        color := if 0 < delta then "success.main" else "warning.main" }
  else none

/-- The interval of the change is that between the entry in front and this one. -/
def intervalMatches (iso : Instant → String)
    (pair : Option (HistoryEntry J) × HistoryEntry J) (c : ChangeParticipation) :
    Bool :=
  match pair.1 with
  | some previous =>
      isoDate (iso c.timeA) = isoDate (iso previous.requestedTime) &&
        isoDate (iso c.timeB) = isoDate (iso pair.2.requestedTime)
  | none => false

theorem intervalMatches_iff {iso : Instant → String}
    {pair : Option (HistoryEntry J) × HistoryEntry J} {c : ChangeParticipation} :
    intervalMatches iso pair c = true ↔
      ∃ previous, pair.1 = some previous ∧
        isoDate (iso c.timeA) = isoDate (iso previous.requestedTime) ∧
        isoDate (iso c.timeB) = isoDate (iso pair.2.requestedTime) := by
  unfold intervalMatches
  cases pair.1 with
  | none => simp
  | some previous => simp

/-- The row of an entry, given with the one in front of it. -/
def timelineRow (iso : Instant → String) (changes : List ChangeParticipation)
    (pair : Option (HistoryEntry J) × HistoryEntry J) : TimelineRow where
  key := pair.2.snapshotId
  divider := pair.1.isSome
  date := isoDate (iso pair.2.requestedTime)
  area := toFixed0 pair.2.areaM2 ++ " m²"
  areaDelta := areaDelta pair.1 pair.2
  building := pair.2.building.filter (· ≠ "")
  chips := (changes.filter (intervalMatches iso pair)).map
    (fun c => classificationChip c.changeFeatureId c.classification)

/-- What `FeatureTimeline` shows. -/
structure Timeline where
  rows : List TimelineRow
  note : Option String
deriving DecidableEq

/-- All chips, from top to bottom. -/
def Timeline.chips (timeline : Timeline) : List ClassificationChip :=
  timeline.rows.flatMap TimelineRow.chips

/-- `FeatureTimeline`; the answer has instants in the form `iso`. -/
def featureTimeline (iso : Instant → String) (history : Api.FeatureHistory J) :
    Timeline where
  rows := (withPrevious none history.history).map (timelineRow iso history.changes)
  note :=
    if history.history = [] then some "Not present in any snapshot." else none

end Rendering

section Chips

variable {J : Type} (iso : Instant → String) (history : Api.FeatureHistory J)
  {p : ChangeParticipation}

/-- The chips of a change that takes part once: one for each row that matches. -/
theorem filter_chips_featureTimeline
    (hone : history.changes.filter
      (fun c => c.changeFeatureId = p.changeFeatureId) = [p]) :
    (featureTimeline iso history).chips.filter
        (fun chip => chip.key = p.changeFeatureId) =
      ((withPrevious none history.history).filter
        (fun pair => intervalMatches iso pair p)).map
          (fun _ => classificationChip p.changeFeatureId p.classification) := by
  have hrow : ∀ pair : Option (HistoryEntry J) × HistoryEntry J,
      (timelineRow iso history.changes pair).chips.filter
          (fun chip => chip.key = p.changeFeatureId) =
        if intervalMatches iso pair p = true then
          [classificationChip p.changeFeatureId p.classification]
        else [] := by
    intro pair
    have hcomp : (fun chip : ClassificationChip =>
          decide (chip.key = p.changeFeatureId)) ∘
          (fun c : ChangeParticipation =>
            classificationChip c.changeFeatureId c.classification) =
        fun c => decide (c.changeFeatureId = p.changeFeatureId) := rfl
    rw [timelineRow, List.filter_map, hcomp, List.filter_comm, hone]
    cases hmatch : intervalMatches iso pair p <;> simp [hmatch]
  rw [Timeline.chips, featureTimeline, List.flatMap_map]
  induction withPrevious none history.history with
  | nil => rfl
  | cons pair rest ih =>
      rw [List.flatMap_cons, List.filter_append, hrow, ih, List.filter_cons]
      split <;> simp

/-- With different dates, a change has one chip exactly if its interval is that
of two neighbouring entries. -/
theorem chips_eq_singleton_iff
    (hone : history.changes.filter
      (fun c => c.changeFeatureId = p.changeFeatureId) = [p])
    (hdates : (history.history.map
      (fun e => isoDate (iso e.requestedTime))).Nodup) :
    (featureTimeline iso history).chips.filter
        (fun chip => chip.key = p.changeFeatureId) =
      [classificationChip p.changeFeatureId p.classification] ↔
    ∃ pair ∈ withPrevious none history.history,
      intervalMatches iso pair p = true := by
  rw [filter_chips_featureTimeline iso history hone]
  constructor
  · intro hchips
    have hne : (withPrevious none history.history).filter
        (fun pair => intervalMatches iso pair p) ≠ [] := by
      intro hnil
      rw [hnil] at hchips
      cases hchips
    obtain ⟨pair, hpair⟩ := List.exists_mem_of_ne_nil _ hne
    exact ⟨pair, List.mem_filter.mp hpair⟩
  · rintro ⟨pair, hpair, hmatch⟩
    have hsnd := nodup_map_withPrevious none hdates
    rw [filter_eq_singleton (List.Nodup.of_map _ hsnd) hpair hmatch,
      List.map_singleton]
    intro pair' hpair' hmatch'
    obtain ⟨-, -, -, hdate⟩ := intervalMatches_iff.mp hmatch
    obtain ⟨-, -, -, hdate'⟩ := intervalMatches_iff.mp hmatch'
    exact List.inj_on_of_nodup_map hsnd hpair' hpair (hdate'.symm.trans hdate)

end Chips

section Intervals

variable {G J : Type} {db : Database G} {sourceQueryVersion : String}
  {iso : Instant → String} {a b : Nat × SnapshotRow}

/-- Snapshots of the version, one after the other. -/
structure Consecutive (db : Database G) (sourceQueryVersion : String)
    (a b : Nat × SnapshotRow) : Prop where
  snapshotA : IsSnapshotOf db sourceQueryVersion a
  snapshotB : IsSnapshotOf db sourceQueryVersion b
  earlier : a.2.requestedTime.seconds < b.2.requestedTime.seconds
  none_between : ∀ s ∈ db.snapshots.rows,
    s.2.sourceQueryVersion = sourceQueryVersion →
      ¬ (a.2.requestedTime.seconds < s.2.requestedTime.seconds ∧
        s.2.requestedTime.seconds < b.2.requestedTime.seconds)

instance (db : Database G) (sourceQueryVersion : String)
    (a b : Nat × SnapshotRow) : Decidable (Consecutive db sourceQueryVersion a b) :=
  decidable_of_iff
    ((IsSnapshotOf db sourceQueryVersion a ∧ IsSnapshotOf db sourceQueryVersion b) ∧
      a.2.requestedTime.seconds < b.2.requestedTime.seconds ∧
      ∀ s ∈ db.snapshots.rows, s.2.sourceQueryVersion = sourceQueryVersion →
        ¬ (a.2.requestedTime.seconds < s.2.requestedTime.seconds ∧
          s.2.requestedTime.seconds < b.2.requestedTime.seconds))
    ⟨fun ⟨⟨h₁, h₂⟩, h₃, h₄⟩ => ⟨h₁, h₂, h₃, h₄⟩,
      fun ⟨h₁, h₂, h₃, h₄⟩ => ⟨⟨h₁, h₂⟩, h₃, h₄⟩⟩

/-- Consecutive snapshots are neighbouring entries exactly if both hold the
building. -/
theorem exists_interval_iff (gis : HistoryGis G J) (osmId : String)
    (hab : Consecutive db sourceQueryVersion a b)
    (hinstants : Separates Instant.seconds db sourceQueryVersion)
    (hdates : Separates (fun t => isoDate (iso t)) db sourceQueryVersion)
    (p : ChangeParticipation) (ha : p.timeA = a.2.requestedTime)
    (hb : p.timeB = b.2.requestedTime) :
    (∃ pair ∈ withPrevious none
        (featureHistory gis db osmId sourceQueryVersion),
      intervalMatches iso pair p = true) ↔
      HeldIn db osmId a.1 ∧ HeldIn db osmId b.1 := by
  constructor
  · -- an entry with the date of a snapshot is the entry of that snapshot
    have hheld : ∀ s, IsSnapshotOf db sourceQueryVersion s →
        ∀ e ∈ featureHistory gis db osmId sourceQueryVersion,
          isoDate (iso s.2.requestedTime) = isoDate (iso e.requestedTime) →
            HeldIn db osmId s.1 := by
      intro s hs e he hdate
      obtain ⟨sf, hsf, hosm, s', hs', hsid, rfl⟩ := mem_featureHistory.mp he
      have heq : s = s' := hdates s hs.1 s' hs'.1 hs.2 hs'.2 hdate
      exact ⟨sf, hsf, by rw [heq, hsid], hosm⟩
    rintro ⟨⟨_, entry⟩, hpair, hmatch⟩
    obtain ⟨previous, rfl, hdateA, hdateB⟩ := intervalMatches_iff.mp hmatch
    rw [ha] at hdateA
    rw [hb] at hdateB
    have hprevious : previous ∈ featureHistory gis db osmId sourceQueryVersion := by
      rcases fst_mem_of_mem_withPrevious hpair with hnone | hmem
      · cases hnone
      · exact hmem
    exact ⟨hheld a hab.snapshotA previous hprevious hdateA,
      hheld b hab.snapshotB entry (snd_mem_of_mem_withPrevious hpair) hdateB⟩
  · rintro ⟨hheldA, hheldB⟩
    obtain ⟨x, hx, -, hxa⟩ :=
      (exists_mem_featureHistory_iff gis osmId hab.snapshotA).mpr hheldA
    obtain ⟨y, hy, -, hyb⟩ :=
      (exists_mem_featureHistory_iff gis osmId hab.snapshotB).mpr hheldB
    have hsorted := pairwise_lt_featureHistory gis osmId hinstants
    refine ⟨(some x, y), mem_withPrevious_of_none_between hsorted hx hy ?_ ?_, ?_⟩
    · rw [hxa, hyb]
      exact hab.earlier
    · intro z hz
      obtain ⟨sf, -, -, s, hs, -, rfl⟩ := mem_featureHistory.mp hz
      rw [hxa, hyb]
      exact hab.none_between s hs.1 hs.2
    · exact intervalMatches_iff.mpr ⟨x, rfl, by rw [ha, hxa], by rw [hb, hyb]⟩

/-- The page of the building shows the chip of the change exactly once. -/
def ShowsOnce (gis : HistoryGis G J) (iso : Instant → String) (db : Database G)
    (osmId sourceQueryVersion : String) (cf : Nat × ChangeFeatureRow G) : Prop :=
  ∃ answer, getFeatureHistory gis db osmId sourceQueryVersion = .ok answer ∧
    (featureTimeline iso answer).chips.filter (fun chip => chip.key = cf.1) =
      [classificationChip cf.1 cf.2.classification]

/-- The change of a building between consecutive snapshots is shown once exactly
if both snapshots hold the building. -/
theorem showsOnce_iff (gis : HistoryGis G J) (iso : Instant → String)
    (db : Database G) (osmId sourceQueryVersion : String)
    (hinstants : Separates Instant.seconds db sourceQueryVersion)
    (hdates : Separates (fun t => isoDate (iso t)) db sourceQueryVersion)
    (a b : Nat × SnapshotRow) (hab : Consecutive db sourceQueryVersion a b)
    (cf : Nat × ChangeFeatureRow G) (c : Nat × ChangesetRow)
    (h : NamedBetween db osmId cf c a b) :
    ShowsOnce gis iso db osmId sourceQueryVersion cf ↔
      HeldIn db osmId a.1 ∧ HeldIn db osmId b.1 := by
  let p := participation cf a b
  have hone : (featureChangeParticipation db osmId).filter
      (fun q => q.changeFeatureId = p.changeFeatureId) = [p] :=
    filter_featureChangeParticipation h.change h.names h.joined
  have hchips := chips_eq_singleton_iff iso
    ⟨osmId, featureHistory gis db osmId sourceQueryVersion,
      featureChangeParticipation db osmId⟩ hone
    (nodup_featureHistory gis osmId hdates)
  have hinterval := exists_interval_iff gis osmId hab hinstants hdates p rfl rfl
  constructor
  · rintro ⟨answer, hanswer, hshown⟩
    obtain ⟨-, rfl⟩ := getFeatureHistory_eq_ok_iff.mp hanswer
    exact hinterval.mp (hchips.mp hshown)
  · intro hheld
    refine ⟨_, getFeatureHistory_eq_ok_iff.mpr
      ⟨⟨a, hab.snapshotA, hheld.1⟩, rfl⟩, ?_⟩
    exact hchips.mpr (hinterval.mpr hheld)

/-- A change without a chip is not shown. -/
theorem not_showsOnce_of_chips_eq_nil {gis : HistoryGis G J} {osmId : String}
    {cf : Nat × ChangeFeatureRow G}
    (h : (featureTimeline iso
      ⟨osmId, featureHistory gis db osmId sourceQueryVersion,
        featureChangeParticipation db osmId⟩).chips = []) :
    ¬ ShowsOnce gis iso db osmId sourceQueryVersion cf := by
  rintro ⟨answer, hanswer, hshown⟩
  obtain ⟨-, rfl⟩ := getFeatureHistory_eq_ok_iff.mp hanswer
  rw [h] at hshown
  cases hshown

end Intervals

section Samples

/-- A stored snapshot of the first day of a month. -/
def monthly (id month : Nat) : Nat × SnapshotRow :=
  (id, Raster.snapshotRow ⟨2026, month, 1, 0, 0, 0⟩)

/-- The comparison of two snapshots. -/
def comparison (id snapshotAId snapshotBId : Nat) : Nat × ChangesetRow :=
  (id, { Raster.changesetRow with
    snapshotAId := snapshotAId, snapshotBId := snapshotBId })

/-- A building that is there throughout shows what changed. -/
theorem showsOnce_retraced :
    ShowsOnce rasterHistory formatInstant reingested "way/1" "v2"
      (2, changeOf 2 .modifiedGeometry (by decide)) :=
  (showsOnce_iff rasterHistory formatInstant reingested "way/1" "v2"
    (by decide +kernel) (by decide +kernel) (monthly 3 6) (monthly 4 7)
    (by decide +kernel) (2, changeOf 2 .modifiedGeometry (by decide))
    (comparison 2 3 4) (by decide +kernel)).mpr (by decide +kernel)

/-- A building that is not there in June. -/
def reappearing : Database Raster where
  snapshots := stored [(monthly 1 5).2, (monthly 2 6).2, (monthly 3 7).2]
  changesets := stored [(comparison 1 1 2).2, (comparison 2 2 3).2]
  snapshotFeatures := stored [footprint 1 {(0, 0)}, footprint 3 {(0, 0)}]
  changeFeatures := SerialTable.empty.insertAll
    [changeOf 1 .removed (by decide), changeOf 2 .added (by decide)]

/-- Neither the removal nor the return of a building is shown. -/
theorem reappearance_not_shown :
    (Separates Instant.seconds reappearing "v2" ∧
      Separates (fun t => isoDate (formatInstant t)) reappearing "v2" ∧
      HeldIn reappearing "way/1" 1) ∧
    (Consecutive reappearing "v2" (monthly 1 5) (monthly 2 6) ∧
      NamedBetween reappearing "way/1" (1, changeOf 1 .removed (by decide))
        (comparison 1 1 2) (monthly 1 5) (monthly 2 6)) ∧
    (Consecutive reappearing "v2" (monthly 2 6) (monthly 3 7) ∧
      NamedBetween reappearing "way/1" (2, changeOf 2 .added (by decide))
        (comparison 2 2 3) (monthly 2 6) (monthly 3 7)) ∧
    ¬ ShowsOnce rasterHistory formatInstant reappearing "way/1" "v2"
        (1, changeOf 1 .removed (by decide)) ∧
    ¬ ShowsOnce rasterHistory formatInstant reappearing "way/1" "v2"
        (2, changeOf 2 .added (by decide)) := by
  have hnone : (featureTimeline formatInstant
      ⟨"way/1", featureHistory rasterHistory reappearing "way/1" "v2",
        featureChangeParticipation reappearing "way/1"⟩).chips = [] := by
    decide +kernel
  exact ⟨by decide +kernel, by decide +kernel, by decide +kernel,
    not_showsOnce_of_chips_eq_nil hnone, not_showsOnce_of_chips_eq_nil hnone⟩

end Samples

end Web
end VectorMapChanges
