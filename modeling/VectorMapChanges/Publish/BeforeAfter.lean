import VectorMapChanges.Publish.Polygonal
import VectorMapChanges.Raster
import Mathlib.Control.Monad.Basic

/-!
# Before and after

The geometries of a change row are unions over the published features that it
names.  Publishing tests that each snapshot has some published feature, not that
it has the named ones, and a union over fewer rows is a smaller geometry, or NULL
over none.

Main facts:
* `typed_publishSnapshotFeatures`: published geometries are MultiPolygons;
* `exists_publishChangeFeatures_iff`: when a change layer can be published;
* `beforeAfter_iff`: no geometry is silently missing or partial exactly when the
  named features are published, or the call is rejected for another reason.
-/

namespace VectorMapChanges

open Lib

section Footprints

variable {G J : Type} (pg : PostGis G)

/-- The published rows of the named features. -/
def Database.named (db : Database G) (snapshotId : Nat) (osmIds : List String) :
    List (SnapshotFeatureRow G) :=
  db.snapshotFeatures.values.filter
    (fun row => row.snapshotId = snapshotId ∧ row.osmId ∈ osmIds)

/-- The union of the published footprints of the named features, which is NULL
over none. -/
def Database.footprint (db : Database G) (snapshotId : Nat)
    (osmIds : List String) : Option G :=
  match db.named snapshotId osmIds with
  | [] => none
  | rows => some (pg.multi (pg.union (rows.map (·.geom))))

/-- The column type of `snapshot_features.geom`. -/
def Database.Typed (sh : Shapely G J) (db : Database G) : Prop :=
  ∀ row ∈ db.snapshotFeatures.values, sh.geomType row.geom = .multiPolygon

variable {pg} {sh : Shapely G J} {db : Database G} {snapshotId : Nat}
  {osmIds : List String}

/-- A table without rows has the type of its column. -/
theorem typed_of_values_eq_nil (sh : Shapely G J)
    (h : db.snapshotFeatures.values = []) :
    db.Typed sh := by
  intro row hrow
  rw [h] at hrow
  cases hrow

/-- Published geometries are MultiPolygons. -/
theorem typed_publishSnapshotFeatures {db' : Database G} {written : Nat}
    {processed : ProcessedCollection J} (htyped : db.Typed sh)
    (h : publishSnapshotFeatures sh pg db snapshotId processed =
      .ok (written, db')) :
    db'.Typed sh := by
  obtain ⟨staged, rows, table, -, hrows, -, htable, -, rfl⟩ :=
    publishSnapshotFeatures_eq_ok_iff.mp h
  intro row hrow
  have hmem : row ∈ (db.snapshotFeatures.deleteWhere
      (fun row => row.snapshotId = snapshotId)).values ++ rows := by
    rw [← KeyedTable.values_insertAll htable]
    exact hrow
  rcases List.mem_append.mp hmem with hold | hnew
  · rw [KeyedTable.deleteWhere, SerialTable.values_deleteWhere] at hold
    exact htyped row (List.mem_of_mem_filter hold)
  · obtain ⟨s, -, hs⟩ := (mem_iff_of_mapM_eq_ok hrows).mp hnew
    obtain ⟨geom, hgeom, projected, -, geom3857, -, rfl⟩ :=
      selectSnapshotFeature_eq_ok_iff.mp hs
    unfold multiPolygonColumn at hgeom
    split at hgeom
    · cases hgeom
      assumption
    · cases hgeom

/-- The SELECT over the published features gives their footprint. -/
theorem unionOfFeatures_eq_ok (hserve : ServesPolygons sh pg)
    (htyped : db.Typed sh) (column : String) :
    unionOfFeatures sh pg db column snapshotId osmIds =
      .ok (db.footprint pg snapshotId osmIds) := by
  have hmatch : unionOfFeatures sh pg db column snapshotId osmIds =
      (match db.named snapshotId osmIds with
      | [] => pure none
      | rows => do
          let geometry ← multiPolygonColumn sh column
            (pg.multi (pg.union (rows.map (·.geom))))
          pure (some geometry)) := rfl
  have hall : ∀ row ∈ db.named snapshotId osmIds,
      sh.geomType row.geom = .multiPolygon :=
    fun row hrow => htyped row (List.mem_of_mem_filter hrow)
  rw [hmatch, Database.footprint]
  cases hrows : db.named snapshotId osmIds with
  | nil => rfl
  | cons row rest =>
      have htype : sh.geomType (pg.multi
          (pg.union ((row :: rest).map (·.geom)))) = .multiPolygon := by
        apply hserve.multiUnion
        · simp
        · intro g hg
          obtain ⟨row', hrow', rfl⟩ := List.mem_map.mp hg
          exact hall row' (by rw [hrows]; exact hrow')
      simp only [multiPolygonColumn_of_geomType htype]
      rfl

theorem mem_publishedIds {osmId : String} :
    osmId ∈ db.publishedIds snapshotId ↔
      ∃ row ∈ db.snapshotFeatures.values, row.snapshotId = snapshotId ∧
        row.osmId = osmId := by
  simp [Database.publishedIds, and_assoc]

theorem footprint_isSome_iff :
    (db.footprint pg snapshotId osmIds).isSome = true ↔
      ∃ osmId ∈ osmIds, osmId ∈ db.publishedIds snapshotId := by
  have hne : (db.footprint pg snapshotId osmIds).isSome = true ↔
      db.named snapshotId osmIds ≠ [] := by
    unfold Database.footprint
    cases db.named snapshotId osmIds <;> simp
  rw [hne]
  constructor
  · intro hnonempty
    obtain ⟨row, hrow⟩ := List.exists_mem_of_ne_nil _ hnonempty
    obtain ⟨hmem, hnamed⟩ := List.mem_filter.mp hrow
    rw [decide_eq_true_iff] at hnamed
    exact ⟨row.osmId, hnamed.2, mem_publishedIds.mpr ⟨row, hmem, hnamed.1, rfl⟩⟩
  · rintro ⟨osmId, hid, hpublished⟩
    obtain ⟨row, hmem, hsnapshot, rfl⟩ := mem_publishedIds.mp hpublished
    exact List.ne_nil_of_mem
      (List.mem_filter.mpr ⟨hmem, decide_eq_true ⟨hsnapshot, hid⟩⟩)

end Footprints

section Rejection

variable {G J : Type} {sh : Shapely G J} {pg : PostGis G} {db : Database G}
  {changesetId snapshotAId snapshotBId : Nat} {layer : ChangeLayer J}

/-- The feature is one of those that are published. -/
def ChangeFeature.Changed (feature : ChangeFeature J) : Prop :=
  feature.view.1 ≠ some "unchanged"

instance (feature : ChangeFeature J) : Decidable feature.Changed :=
  inferInstanceAs (Decidable (feature.view.1 ≠ some "unchanged"))

/-- Why a change layer is rejected, other than for features that it names: a
feature without classification, a snapshot without published features, a
malformed or non-polygonal feature, an added or removed building that is not
published at all, or no row of the changeset. -/
inductive Rejected (sh : Shapely G J) (db : Database G)
    (changesetId snapshotAId snapshotBId : Nat) (layer : ChangeLayer J) : Prop
  | unclassified (feature : ChangeFeature J) (h : feature ∈ layer)
      (hnone : feature.view.1 = none)
  | unpublishedA (h : db.publishedIds snapshotAId = [])
  | unpublishedB (h : db.publishedIds snapshotBId = [])
  | malformed (feature : ChangeFeature J) (h : feature ∈ layer)
      (hchanged : feature.Changed) (hnot : ¬ ChangeStageable sh feature)
  | addedHasB (feature : ChangeFeature J) (h : feature ∈ layer)
      (hadded : feature.view.1 = some "added")
      (hnone : ∀ osmId ∈ feature.view.2.2, osmId ∉ db.publishedIds snapshotBId)
  | removedHasA (feature : ChangeFeature J) (h : feature ∈ layer)
      (hremoved : feature.view.1 = some "removed")
      (hnone : ∀ osmId ∈ feature.view.2.1, osmId ∉ db.publishedIds snapshotAId)
  | noChangeset (feature : ChangeFeature J) (h : feature ∈ layer)
      (hchanged : feature.Changed) (hnone : ¬ db.changesets.HasId changesetId)

/-- Every feature that the changes name is published. -/
def NamesPublished (db : Database G) (snapshotAId snapshotBId : Nat)
    (layer : ChangeLayer J) : Prop :=
  ∀ feature ∈ layer, feature.Changed →
    (∀ osmId ∈ feature.view.2.1, osmId ∈ db.publishedIds snapshotAId) ∧
    ∀ osmId ∈ feature.view.2.2, osmId ∈ db.publishedIds snapshotBId

theorem requirePublishedSnapshot_eq_ok_iff {snapshotId : Nat} :
    requirePublishedSnapshot db snapshotId = .ok () ↔
      db.publishedIds snapshotId ≠ [] := by
  have hany : db.snapshotFeatures.values.any
      (fun row => row.snapshotId = snapshotId) = true ↔
        db.publishedIds snapshotId ≠ [] := by
    rw [Database.publishedIds, Ne, List.map_eq_nil_iff, List.filter_eq_nil_iff]
    simp
  unfold requirePublishedSnapshot
  by_cases h : db.snapshotFeatures.values.any
      (fun row => row.snapshotId = snapshotId) = true
  · rw [if_pos h, pure_eq_ok]
    exact iff_of_true rfl (hany.mp h)
  · rw [if_neg h]
    exact iff_of_false (fun he => by cases he) (fun hne => h (hany.mpr hne))

/-- A staged change is inserted unless it is an added or removed building that is
not published at all. -/
theorem exists_selectChangeFeature_of_typed (hkeep : KeepsPolygons sh)
    (hserve : ServesPolygons sh pg) (htyped : db.Typed sh)
    {feature : ChangeFeature J} {staged : StagedChangeFeature G}
    (hchanged : feature.Changed)
    (hstaged : changeFeatureRow sh feature = .ok staged) :
    (∃ row, selectChangeFeature sh pg db changesetId snapshotAId snapshotBId
      staged = .ok row) ↔
      (feature.view.1 = some "added" →
        ∃ osmId ∈ feature.view.2.2, osmId ∈ db.publishedIds snapshotBId) ∧
      (feature.view.1 = some "removed" →
        ∃ osmId ∈ feature.view.2.1, osmId ∈ db.publishedIds snapshotAId) := by
  have hview := changeFeatureRow_view hstaged
  have htype : sh.geomType staged.geomHex = .multiPolygon := by
    obtain ⟨-, -, -, -, -, -, -, -, -, -, json, -, hex, hhex, rfl⟩ :=
      changeFeatureRow_eq_ok_iff.mp hstaged
    exact geomType_geomHex hkeep hhex
  obtain ⟨projected, hprojected, hptype⟩ := hserve.transform3857 _ htype
  have hunchanged : staged.classification ≠ "unchanged" := by
    intro h
    apply hchanged
    rw [← hview, h]
  rw [exists_selectChangeFeature_iff]
  simp only [unionOfFeatures_eq_ok hserve htyped, hprojected,
    multiPolygonColumn_of_geomType hptype, Except.ok.injEq, exists_eq_left',
    footprint_isSome_iff, ← hview, Option.some.injEq]
  tauto

/-- In a change layer that has been published nothing is rejected. -/
theorem not_rejected_of_publishChangeFeatures (hkeep : KeepsPolygons sh)
    (hserve : ServesPolygons sh pg) (htyped : db.Typed sh) {written : Nat}
    {db' : Database G}
    (h : publishChangeFeatures sh pg db changesetId snapshotAId snapshotBId layer =
      .ok (written, db')) :
    ¬ Rejected sh db changesetId snapshotAId snapshotBId layer := by
  intro hrejected
  obtain ⟨rows, hrows, hid, -, -⟩ := publishChangeFeatures_eq_ok_iff.mp h
  obtain ⟨features, hfeatures, hrows⟩ := bind_eq_ok.mp hrows
  obtain ⟨⟨⟩, hA, hrows⟩ := bind_eq_ok.mp hrows
  obtain ⟨⟨⟩, hB, hrows⟩ := bind_eq_ok.mp hrows
  obtain ⟨staged, hstaged, hrows⟩ := bind_eq_ok.mp hrows
  have hfilter := changedFeatures_eq_ok hfeatures
  have hstage : ∀ feature ∈ layer, feature.Changed →
      ∃ s ∈ staged, changeFeatureRow sh feature = .ok s := by
    intro feature hfeature hchanged
    refine step_of_mapM_eq_ok hstaged ?_
    rw [hfilter]
    exact List.mem_filter.mpr ⟨hfeature, decide_eq_true hchanged⟩
  have hselect : ∀ feature ∈ layer, feature.Changed →
      (feature.view.1 = some "added" →
        ∃ osmId ∈ feature.view.2.2, osmId ∈ db.publishedIds snapshotBId) ∧
      (feature.view.1 = some "removed" →
        ∃ osmId ∈ feature.view.2.1, osmId ∈ db.publishedIds snapshotAId) := by
    intro feature hfeature hchanged
    obtain ⟨s, hs, hrow⟩ := hstage feature hfeature hchanged
    obtain ⟨row, -, hinsert⟩ := step_of_mapM_eq_ok hrows hs
    exact (exists_selectChangeFeature_of_typed hkeep hserve htyped hchanged
      hrow).mp ⟨row, hinsert⟩
  cases hrejected with
  | unclassified feature hmem hnone =>
      have hchanged : feature.Changed := by
        rw [ChangeFeature.Changed, hnone]
        simp
      obtain ⟨s, -, hrow⟩ := hstage feature hmem hchanged
      have hview := congrArg Prod.fst (changeFeatureRow_view hrow)
      rw [hnone] at hview
      cases hview
  | unpublishedA hnone =>
      exact requirePublishedSnapshot_eq_ok_iff.mp hA hnone
  | unpublishedB hnone =>
      exact requirePublishedSnapshot_eq_ok_iff.mp hB hnone
  | malformed feature hmem hchanged hnot =>
      obtain ⟨s, -, hrow⟩ := hstage feature hmem hchanged
      exact hnot (exists_changeFeatureRow_iff.mp ⟨s, hrow⟩)
  | addedHasB feature hmem hadded hnone =>
      have hchanged : feature.Changed := by
        rw [ChangeFeature.Changed, hadded]
        decide
      obtain ⟨osmId, hid, hpublished⟩ :=
        (hselect feature hmem hchanged).1 hadded
      exact hnone osmId hid hpublished
  | removedHasA feature hmem hremoved hnone =>
      have hchanged : feature.Changed := by
        rw [ChangeFeature.Changed, hremoved]
        decide
      obtain ⟨osmId, hid, hpublished⟩ :=
        (hselect feature hmem hchanged).2 hremoved
      exact hnone osmId hid hpublished
  | noChangeset feature hmem hchanged hnone =>
      obtain ⟨s, hs, hrow⟩ := hstage feature hmem hchanged
      obtain ⟨row, hrow, -⟩ := step_of_mapM_eq_ok hrows hs
      rcases hid with rfl | hid
      · cases hrow
      · exact hnone hid

/-- A change layer in which nothing is rejected can be published. -/
theorem exists_publishChangeFeatures (hkeep : KeepsPolygons sh)
    (hserve : ServesPolygons sh pg) (htyped : db.Typed sh)
    (hnot : ¬ Rejected sh db changesetId snapshotAId snapshotBId layer) :
    ∃ result, publishChangeFeatures sh pg db changesetId snapshotAId snapshotBId
      layer = .ok result := by
  have hnamed : ∀ feature ∈ layer, ∃ c, feature.view.1 = some c := by
    intro feature hmem
    cases hc : feature.view.1 with
    | none => exact absurd (.unclassified feature hmem hc) hnot
    | some c => exact ⟨c, rfl⟩
  obtain ⟨features, hfeatures⟩ := exists_changedFeatures hnamed
  have hmem : ∀ feature ∈ features, feature ∈ layer ∧ feature.Changed := by
    intro feature hfeature
    rw [changedFeatures_eq_ok hfeatures] at hfeature
    obtain ⟨hlayer, hchanged⟩ := List.mem_filter.mp hfeature
    exact ⟨hlayer, of_decide_eq_true hchanged⟩
  have hA : requirePublishedSnapshot db snapshotAId = .ok () :=
    requirePublishedSnapshot_eq_ok_iff.mpr (fun h => hnot (.unpublishedA h))
  have hB : requirePublishedSnapshot db snapshotBId = .ok () :=
    requirePublishedSnapshot_eq_ok_iff.mpr (fun h => hnot (.unpublishedB h))
  have hstage : ∀ feature ∈ features,
      ∃ staged, changeFeatureRow sh feature = .ok staged := by
    intro feature hfeature
    obtain ⟨hlayer, hchanged⟩ := hmem feature hfeature
    rw [exists_changeFeatureRow_iff]
    by_contra hmalformed
    exact hnot (.malformed feature hlayer hchanged hmalformed)
  obtain ⟨staged, hstaged⟩ := exists_mapM_eq_ok hstage
  have hselect : ∀ s ∈ staged, ∃ row,
      selectChangeFeature sh pg db changesetId snapshotAId snapshotBId s =
        .ok row := by
    intro s hs
    obtain ⟨feature, hfeature, hrow⟩ := (mem_iff_of_mapM_eq_ok hstaged).mp hs
    obtain ⟨hlayer, hchanged⟩ := hmem feature hfeature
    rw [exists_selectChangeFeature_of_typed hkeep hserve htyped hchanged hrow]
    constructor
    · intro hadded
      by_contra hnone
      push Not at hnone
      exact hnot (.addedHasB feature hlayer hadded hnone)
    · intro hremoved
      by_contra hnone
      push Not at hnone
      exact hnot (.removedHasA feature hlayer hremoved hnone)
  obtain ⟨rows, hrows⟩ := exists_mapM_eq_ok hselect
  have hid : rows = [] ∨ db.changesets.HasId changesetId := by
    rcases List.eq_nil_or_concat features with rfl | ⟨rest, feature, rfl⟩
    · have hlength := (mapM_eq_ok_iff.mp hstaged).length_eq.trans
        (mapM_eq_ok_iff.mp hrows).length_eq
      exact Or.inl (List.length_eq_zero_iff.mp hlength.symm)
    · obtain ⟨hlayer, hchanged⟩ := hmem feature (by simp)
      by_contra hno
      rw [not_or] at hno
      exact hnot (.noChangeset feature hlayer hchanged hno.2)
  exact ⟨_, publishChangeFeatures_eq_ok_iff.mpr ⟨rows, bind_eq_ok.mpr
    ⟨features, hfeatures, bind_eq_ok.mpr ⟨(), hA, bind_eq_ok.mpr ⟨(), hB,
      bind_eq_ok.mpr ⟨staged, hstaged, hrows⟩⟩⟩⟩, hid, rfl, rfl⟩⟩

/-- A change layer can be published exactly when nothing in it is rejected. -/
theorem exists_publishChangeFeatures_iff (hkeep : KeepsPolygons sh)
    (hserve : ServesPolygons sh pg) (htyped : db.Typed sh) :
    (∃ result, publishChangeFeatures sh pg db changesetId snapshotAId snapshotBId
      layer = .ok result) ↔
      ¬ Rejected sh db changesetId snapshotAId snapshotBId layer := by
  constructor
  · rintro ⟨⟨written, db'⟩, h⟩
    exact not_rejected_of_publishChangeFeatures hkeep hserve htyped h
  · exact exists_publishChangeFeatures hkeep hserve htyped

end Rejection

section BeforeAfter

variable {G J : Type} {sh : Shapely G J} {pg : PostGis G} {db : Database G}
  {changesetId snapshotAId snapshotBId : Nat} {layer : ChangeLayer J}

/-- The geometry of a side: NULL if the row names nothing on it, and else the union
of the footprints of everything that it names, all of which is published. -/
def IsGeometryOf (pg : PostGis G) (db : Database G) (snapshotId : Nat)
    (osmIds : List String) (geom : Option G) : Prop :=
  if osmIds = [] then geom = none
  else
    (∀ osmId ∈ osmIds, osmId ∈ db.publishedIds snapshotId) ∧
    geom = some (pg.multi (pg.union ((db.named snapshotId osmIds).map (·.geom))))

/-- A footprint is the geometry of a side of which everything is published. -/
theorem isGeometryOf_footprint {snapshotId : Nat} {osmIds : List String}
    (h : ∀ osmId ∈ osmIds, osmId ∈ db.publishedIds snapshotId) :
    IsGeometryOf pg db snapshotId osmIds (db.footprint pg snapshotId osmIds) := by
  unfold IsGeometryOf
  by_cases hnil : osmIds = []
  · rw [if_pos hnil, ← Option.not_isSome_iff_eq_none, footprint_isSome_iff, hnil]
    simp
  · rw [if_neg hnil]
    refine ⟨h, ?_⟩
    obtain ⟨osmId, hid⟩ := List.exists_mem_of_ne_nil _ hnil
    have hsome : (db.footprint pg snapshotId osmIds).isSome = true :=
      footprint_isSome_iff.mpr ⟨osmId, hid, h osmId hid⟩
    unfold Database.footprint at hsome ⊢
    cases hrows : db.named snapshotId osmIds with
    | nil =>
        rw [hrows] at hsome
        cases hsome
    | cons row rest => rfl

/-- The rows that a call writes have the footprints of what they name. -/
theorem geoms_of_publishChangeFeatures (hserve : ServesPolygons sh pg)
    (htyped : db.Typed sh) {written : Nat} {db' : Database G}
    (h : publishChangeFeatures sh pg db changesetId snapshotAId snapshotBId layer =
      .ok (written, db')) {row : ChangeFeatureRow G}
    (hrow : row ∈ db'.changeRows changesetId) :
    row.geomA = db.footprint pg snapshotAId row.osmIdsA ∧
    row.geomB = db.footprint pg snapshotBId row.osmIdsB ∧
    ∃ feature ∈ layer, feature.Changed ∧ row.view = feature.view := by
  obtain ⟨hrows, hview⟩ := changeRows_publishChangeFeatures h
  obtain ⟨features, -, hrows⟩ := bind_eq_ok.mp hrows
  obtain ⟨-, -, hrows⟩ := bind_eq_ok.mp hrows
  obtain ⟨-, -, hrows⟩ := bind_eq_ok.mp hrows
  obtain ⟨staged, -, hrows⟩ := bind_eq_ok.mp hrows
  obtain ⟨s, -, hs⟩ := (mem_iff_of_mapM_eq_ok hrows).mp hrow
  obtain ⟨-, hsview, hgeomA, hgeomB⟩ := selectChangeFeature_spec hs
  obtain ⟨-, hids⟩ := Prod.mk.inj hsview
  obtain ⟨hidsA, hidsB⟩ := Prod.mk.inj hids
  rw [unionOfFeatures_eq_ok hserve htyped, ← hidsA] at hgeomA
  rw [unionOfFeatures_eq_ok hserve htyped, ← hidsB] at hgeomB
  refine ⟨(Except.ok.inj hgeomA).symm, (Except.ok.inj hgeomB).symm, ?_⟩
  have hmem : row.view ∈ (layer.map ChangeFeature.view).filter
      (fun view => view.1 ≠ some "unchanged") := by
    rw [← hview]
    exact List.mem_map_of_mem hrow
  obtain ⟨hmem, hchanged⟩ := List.mem_filter.mp hmem
  obtain ⟨feature, hfeature, heq⟩ := List.mem_map.mp hmem
  refine ⟨feature, hfeature, ?_, heq.symm⟩
  rw [← heq] at hchanged
  exact of_decide_eq_true hchanged

/-- Every row of a call that commits has the whole geometry of what it names, and a
call that names what is not published raises, exactly when everything that is
named is published or the call is rejected for another reason. -/
theorem beforeAfter_iff (hkeep : KeepsPolygons sh) (hserve : ServesPolygons sh pg)
    (htyped : db.Typed sh) :
    ((∀ written db', publishChangeFeatures sh pg db changesetId snapshotAId
          snapshotBId layer = .ok (written, db') →
        ∀ row ∈ db'.changeRows changesetId,
          IsGeometryOf pg db snapshotAId row.osmIdsA row.geomA ∧
          IsGeometryOf pg db snapshotBId row.osmIdsB row.geomB) ∧
      (¬ NamesPublished db snapshotAId snapshotBId layer →
        ∃ e, publishChangeFeatures sh pg db changesetId snapshotAId snapshotBId
          layer = .error e)) ↔
    NamesPublished db snapshotAId snapshotBId layer ∨
      Rejected sh db changesetId snapshotAId snapshotBId layer := by
  have hiff : (∃ result, publishChangeFeatures sh pg db changesetId snapshotAId
      snapshotBId layer = .ok result) ↔
        ¬ Rejected sh db changesetId snapshotAId snapshotBId layer :=
    exists_publishChangeFeatures_iff hkeep hserve htyped
  constructor
  · rintro ⟨-, hraises⟩
    by_contra hnot
    rw [not_or] at hnot
    obtain ⟨result, hok⟩ := hiff.mpr hnot.2
    obtain ⟨e, herror⟩ := hraises hnot.1
    rw [hok] at herror
    cases herror
  · rintro (hnames | hrejected)
    · refine ⟨?_, fun h => absurd hnames h⟩
      intro written db' hok row hrow
      obtain ⟨hgeomA, hgeomB, feature, hfeature, hchanged, hview⟩ :=
        geoms_of_publishChangeFeatures hserve htyped hok hrow
      obtain ⟨hA, hB⟩ := hnames feature hfeature hchanged
      rw [← hview] at hA hB
      rw [hgeomA, hgeomB]
      exact ⟨isGeometryOf_footprint hA, isGeometryOf_footprint hB⟩
    · constructor
      · intro written db' hok
        exact absurd hrejected (hiff.mp ⟨_, hok⟩)
      · intro _
        cases hrun : publishChangeFeatures sh pg db changesetId snapshotAId
            snapshotBId layer with
        | ok result => exact absurd hrejected (hiff.mp ⟨result, hrun⟩)
        | error e => exact ⟨e, rfl⟩

end BeforeAfter

/-- A building that both snapshots publish keeps its whole geometry. -/
theorem beforeAfter_published :
    ∃ db : Database Raster, db.publishedIds 1 = ["way/1"] ∧
      db.publishedIds 2 = ["way/1"] ∧
      ∀ written db', publishChangeFeatures Raster.shapely Raster.postgis db 1 1 2
          [Raster.change .modifiedGeometry ["way/1"] ["way/1"]
            (Raster.polygon {(0, 0), (1, 0)})] = .ok (written, db') →
        ∀ row ∈ db'.changeRows 1,
          IsGeometryOf Raster.postgis db 1 row.osmIdsA row.geomA ∧
          IsGeometryOf Raster.postgis db 2 row.osmIdsB row.geomB := by
  have hchain : (do
      let p₁ ← publishSnapshotFeatures Raster.shapely Raster.postgis
        Raster.database 1 [Raster.processed "way/1" {(0, 0)}]
      publishSnapshotFeatures Raster.shapely Raster.postgis p₁.2 2
        [Raster.processed "way/1" {(0, 0), (1, 0)}]).toOption.isSome = true := by
    decide +kernel
  obtain ⟨⟨writtenB, db₂⟩, hchain⟩ := exists_eq_ok_of_isSome hchain
  obtain ⟨⟨writtenA, db₁⟩, hpublishA, hpublishB⟩ := bind_eq_ok.mp hchain
  have hnone : Raster.database.Typed Raster.shapely :=
    typed_of_values_eq_nil Raster.shapely rfl
  have htyped : db₂.Typed Raster.shapely :=
    typed_publishSnapshotFeatures (typed_publishSnapshotFeatures hnone hpublishA)
      hpublishB
  have hB : db₂.publishedIds 2 = ["way/1"] := by
    have hids := publishedIds_publishSnapshotFeatures hpublishB
    exact List.map_injective_iff.mpr (Option.some_injective String) hids
  have hA : db₂.publishedIds 1 = ["way/1"] := by
    have hids := publishedIds_publishSnapshotFeatures hpublishA
    rw [publishedIds_publishSnapshotFeatures_of_ne hpublishB (by decide)]
    exact List.map_injective_iff.mpr (Option.some_injective String) hids
  have hnames : NamesPublished db₂ 1 2
      [Raster.change .modifiedGeometry ["way/1"] ["way/1"]
        (Raster.polygon {(0, 0), (1, 0)})] := by
    intro feature hfeature _
    rw [List.mem_singleton.mp hfeature, hA, hB]
    exact ⟨fun osmId h => h, fun osmId h => h⟩
  exact ⟨db₂, hA, hB, ((beforeAfter_iff Raster.keepsPolygons Raster.servesPolygons
    htyped).mpr (Or.inl hnames)).1⟩

/-- Snapshots that publish one building, and a change layer that also names another
one, which was in the document that it was computed from: the call commits a row
without any geometry. -/
theorem beforeAfter_missing :
    (do
      let (_, db) ← publishSnapshotFeatures Raster.shapely Raster.postgis
        Raster.database 1 [Raster.processed "way/1" {(0, 0)}]
      let (_, db) ← publishSnapshotFeatures Raster.shapely Raster.postgis db 2
        [Raster.processed "way/1" {(0, 0)}]
      let (written, db) ← publishChangeFeatures Raster.shapely Raster.postgis db
        1 1 2 [Raster.change .modifiedGeometry ["way/9"] ["way/9"]
          (Raster.polygon {(5, 5)})]
      pure (written, (db.changeRows 1).map
        (fun row => (row.osmIdsA, row.geomA, row.geomB)))) =
      Except.ok (1, [(["way/9"], none, none)]) := by
  decide +kernel

end VectorMapChanges
