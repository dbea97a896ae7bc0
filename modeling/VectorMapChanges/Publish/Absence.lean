import VectorMapChanges.Matching.Resolution
import VectorMapChanges.Publish.Postgis

/-!
# Unchanged by absence

Publishing stores nothing for `unchanged` records: a building that is in both
published snapshots and in no row of the changeset counts as unchanged.  That
finds the records of ids that persist.  It misses a building that was mapped
anew under another id, since neither of its two ids is in both snapshots.

Main facts:
* `classification_groupRecord_eq_unchanged_iff`: which groups are unchanged;
* `mem_unchangedFromAbsence_iff`: absence finds the unchanged records of shared
  ids;
* `publish_absence_iff`: absence finds all unchanged records exactly when no
  isolated pair of different ids agrees.
-/

namespace VectorMapChanges

open Lib

section Query

variable {G : Type}

/-- The ids that are in both published snapshots and in no row of the
changeset. -/
def unchangedFromAbsence (db : Database G)
    (snapshotAId snapshotBId changesetId : Nat) : List String :=
  (db.publishedIds snapshotBId).filter fun osmId =>
    osmId ∈ db.publishedIds snapshotAId ∧
      ∀ row ∈ db.changeRows changesetId,
        osmId ∉ row.osmIdsA ∧ osmId ∉ row.osmIdsB

theorem mem_unchangedFromAbsence {db : Database G}
    {snapshotAId snapshotBId changesetId : Nat} {osmId : String} :
    osmId ∈ unchangedFromAbsence db snapshotAId snapshotBId changesetId ↔
      osmId ∈ db.publishedIds snapshotAId ∧
      osmId ∈ db.publishedIds snapshotBId ∧
      ∀ row ∈ db.changeRows changesetId,
        osmId ∉ row.osmIdsA ∧ osmId ∉ row.osmIdsB := by
  rw [unchangedFromAbsence, List.mem_filter, decide_eq_true_iff]
  exact and_left_comm

end Query

section Match

variable {G J : Type} {sh : Shapely G J}

/-- A group is unchanged when it is one pair of that kind. -/
theorem classification_groupRecord_eq_unchanged_iff
    {pair : LoadedFeature G → LoadedFeature G → Bool} {aoiBoundary : Option G}
    {as bs : List (LoadedFeature G)} :
    (groupRecord sh pair aoiBoundary as bs).classification = .unchanged ↔
      ∃ f g, as = [f] ∧ bs = [g] ∧
        tUnchangedIou ≤ iou sh f.geometry g.geometry ∧
        attrsChanged f g = [] := by
  by_cases hshape : as.length = 1 ∧ bs.length = 1
  · obtain ⟨f, rfl⟩ := List.length_eq_one_iff.mp hshape.1
    obtain ⟨g, rfl⟩ := List.length_eq_one_iff.mp hshape.2
    by_cases hiou : tCrossIdMatch ≤ iou sh f.geometry g.geometry
    · rw [groupRecord_of_iou_ge hiou]
      simp [classifyMatched, classifyPair_eq_unchanged_iff]
    · rw [groupRecord_of_iou_lt hiou]
      have hlt : ¬ tUnchangedIou ≤ iou sh f.geometry g.geometry := by
        intro hle
        refine hiou (le_trans ?_ hle)
        norm_num [tCrossIdMatch, tUnchangedIou]
      simp [ambiguous, hlt]
  · rw [(groupRecord_unresolved sh pair aoiBoundary hshape).1]
    constructor
    · intro h
      cases h
    · rintro ⟨f, g, rfl, rfl, -, -⟩
      exact absurd ⟨rfl, rfl⟩ hshape

end Match

section MappedAnew

variable {G J : Type} {sh : Shapely G J} {featuresA featuresB : FeatureDict G}
  {records : List ChangeRecord} {aoiBoundary : Option G}

/-- A building that was mapped anew under another id: the two features overlap
each other only, agree, and have equal attributes. -/
structure MappedAnew (sh : Shapely G J) (featuresA featuresB : FeatureDict G)
    (f g : LoadedFeature G) : Prop where
  before : (onlyIn featuresA featuresB).get? f.osmId = some f
  after : (onlyIn featuresB featuresA).get? g.osmId = some g
  overlaps : overlaps sh f.geometry g.geometry
  onlyAfter : ∀ y, (overlapGraph sh featuresA featuresB).Adj f.osmId y →
    y = g.osmId
  onlyBefore : ∀ y, (overlapGraph sh featuresA featuresB).Adj g.osmId y →
    y = f.osmId
  agrees : 99 / 100 ≤ iou sh f.geometry g.geometry
  sameAttributes : attrsChanged f g = []

/-- The two features of a group of two overlap each other only. -/
theorem mappedAnew_of_isGroup {root : String} {f g : LoadedFeature G}
    (h : IsGroup (overlapPair sh) (onlyIn featuresA featuresB)
      (onlyIn featuresB featuresA) root [f] [g])
    (hiou : tUnchangedIou ≤ iou sh f.geometry g.geometry)
    (hattrs : attrsChanged f g = []) :
    MappedAnew sh featuresA featuresB f g := by
  obtain ⟨hf, hconnF⟩ := (h.memA f).mp (by simp)
  obtain ⟨hg, hconnG⟩ := (h.memB g).mp (by simp)
  have hpair : decide (VectorMapChanges.overlaps sh f.geometry g.geometry) =
      true := h.pair_of_single f g rfl rfl
  have hids : ∀ y, Connected (Edge (overlapPair sh)
      (onlyIn featuresA featuresB) (onlyIn featuresB featuresA)) root y →
      (y ∈ (onlyIn featuresA featuresB).toDict → y = f.osmId) ∧
      (y ∈ (onlyIn featuresB featuresA).toDict → y = g.osmId) := by
    intro y hy
    constructor
    · intro hmem
      have hids := (h.mem_ids.1 y).mpr ⟨hmem, hy⟩
      simpa using hids
    · intro hmem
      have hids := (h.mem_ids.2 y).mpr ⟨hmem, hy⟩
      simpa using hids
  refine ⟨hf, hg, of_decide_eq_true hpair, ?_, ?_, hiou, hattrs⟩
  · intro y hy
    obtain ⟨hyA, hyB⟩ := hids y (hconnF.tail hy)
    rcases mem_or_of_linked hy with hmem | hmem
    · exact absurd (hyA hmem).symm hy.ne
    · exact hyB hmem
  · intro y hy
    obtain ⟨hyA, hyB⟩ := hids y (hconnG.tail hy)
    rcases mem_or_of_linked hy with hmem | hmem
    · exact hyA hmem
    · exact absurd (hyB hmem).symm hy.ne

/-- An unchanged record is that of an id that persists, or of a building that was
mapped anew. -/
theorem IsChangeset.shared_or_mappedAnew
    (h : IsChangeset sh (overlapPair sh) aoiBoundary featuresA featuresB
      records) {r : ChangeRecord} (hr : r ∈ records)
    (hunchanged : r.classification = .unchanged) :
    (∃ osmId, r.osmIdsA = [osmId] ∧ r.osmIdsB = [osmId]) ∨
      ∃ f g, MappedAnew sh featuresA featuresB f g := by
  cases (h.mem r).mp hr with
  | shared osmId a b ha hb =>
      exact Or.inl ⟨osmId, rfl, rfl⟩
  | group root as bs hgroup =>
      obtain ⟨f, g, rfl, rfl, hiou, hattrs⟩ :=
        classification_groupRecord_eq_unchanged_iff.mp hunchanged
      exact Or.inr ⟨f, g, mappedAnew_of_isGroup hgroup hiou hattrs⟩
  | removed a ha hnone =>
      cases hunchanged
  | added b hb hnone =>
      cases hunchanged

/-- A building that was mapped anew has an unchanged record. -/
theorem IsChangeset.exists_unchanged_of_mappedAnew
    (hunion : UnionCoversIntersection sh)
    (h : IsChangeset sh (overlapPair sh) aoiBoundary featuresA featuresB
      records) {f g : LoadedFeature G}
    (hanew : MappedAnew sh featuresA featuresB f g) :
    ∃ r ∈ records, r.classification = .unchanged ∧ r.Names f.osmId := by
  obtain ⟨r, hr, hidsA, -, -, hmatch, -⟩ := h.oneToOne hunion hanew.before
    hanew.after hanew.overlaps hanew.onlyAfter hanew.onlyBefore
  have hhalf : 1 / 2 ≤ iou sh f.geometry g.geometry :=
    le_trans (by norm_num) hanew.agrees
  obtain ⟨-, -, hclass⟩ := hmatch hhalf
  refine ⟨r, hr, ?_, Or.inl (by rw [hidsA]; simp)⟩
  rw [hclass]
  simp [decisionTable, hanew.sameAttributes, not_lt.mpr hanew.agrees]

end MappedAnew

section Served

variable {G J : Type} {sh : Shapely G J} {pg : PostGis G}
  {featuresA featuresB : FeatureDict G} {records : List ChangeRecord}
  {aoiBoundary : Option G} {db : Database G}
  {snapshotAId snapshotBId changesetId : Nat}

/-- The tables serve the two snapshots and the records between them. -/
structure Served (db : Database G) (snapshotAId snapshotBId changesetId : Nat)
    (featuresA featuresB : FeatureDict G) (records : List ChangeRecord) :
    Prop where
  idsA : db.publishedIds snapshotAId = featuresA.keys
  idsB : db.publishedIds snapshotBId = featuresB.keys
  rows : (db.changeRows changesetId).map ChangeFeatureRow.view =
    (records.map ChangeRecord.view).filter
      (fun view => view.1 ≠ some "unchanged")

/-- The rows name what the records that are not unchanged do. -/
theorem Served.exists_row_iff
    (h : Served db snapshotAId snapshotBId changesetId featuresA featuresB
      records) {osmId : String} :
    (∃ row ∈ db.changeRows changesetId,
      osmId ∈ row.osmIdsA ∨ osmId ∈ row.osmIdsB) ↔
      ∃ r ∈ records, r.classification ≠ .unchanged ∧ r.Names osmId := by
  have hvalue : ∀ c : Classification,
      c.value ≠ "unchanged" ↔ c ≠ .unchanged := by
    intro c
    cases c <;> decide
  have hview : ∀ view, view ∈ (db.changeRows changesetId).map
      ChangeFeatureRow.view ↔ view ∈ (records.map ChangeRecord.view).filter
        (fun view => view.1 ≠ some "unchanged") := by
    intro view
    rw [h.rows]
  constructor
  · rintro ⟨row, hrow, hnames⟩
    obtain ⟨hmem, hchanged⟩ := List.mem_filter.mp
      ((hview _).mp (List.mem_map_of_mem hrow))
    obtain ⟨r, hr, heq⟩ := List.mem_map.mp hmem
    rw [← heq] at hchanged
    obtain ⟨-, hids⟩ := Prod.mk.inj heq
    obtain ⟨hidsA, hidsB⟩ := Prod.mk.inj hids
    rw [← hidsA, ← hidsB] at hnames
    exact ⟨r, hr, (hvalue _).mp (by simpa [ChangeRecord.view] using hchanged),
      hnames⟩
  · rintro ⟨r, hr, hchanged, hnames⟩
    have hmem : r.view ∈ (records.map ChangeRecord.view).filter
        (fun view => view.1 ≠ some "unchanged") := by
      refine List.mem_filter.mpr ⟨List.mem_map_of_mem hr, ?_⟩
      simpa [ChangeRecord.view] using (hvalue _).mpr hchanged
    obtain ⟨row, hrow, heq⟩ := List.mem_map.mp ((hview _).mpr hmem)
    obtain ⟨-, hids⟩ := Prod.mk.inj heq
    obtain ⟨hidsA, hidsB⟩ := Prod.mk.inj hids
    rw [ChangeRecord.Names, ← hidsA, ← hidsB] at hnames
    exact ⟨row, hrow, hnames⟩

/-- Absence finds the ids that an unchanged record names on both sides. -/
theorem mem_unchangedFromAbsence_iff
    {pair : LoadedFeature G → LoadedFeature G → Bool}
    (hserved : Served db snapshotAId snapshotBId changesetId featuresA featuresB
      records)
    (h : IsChangeset sh pair aoiBoundary featuresA featuresB records)
    {osmId : String} :
    osmId ∈ unchangedFromAbsence db snapshotAId snapshotBId changesetId ↔
      ∃ r ∈ records, r.classification = .unchanged ∧ osmId ∈ r.osmIdsA ∧
        osmId ∈ r.osmIdsB := by
  have habsent : (∀ row ∈ db.changeRows changesetId,
        osmId ∉ row.osmIdsA ∧ osmId ∉ row.osmIdsB) ↔
      ∀ r ∈ records, r.Names osmId → r.classification = .unchanged := by
    rw [← not_iff_not]
    simpa [not_and_or, and_comm, imp_iff_not_or] using hserved.exists_row_iff
  rw [mem_unchangedFromAbsence, hserved.idsA, hserved.idsB, habsent]
  constructor
  · rintro ⟨hA, hB, hall⟩
    obtain ⟨a, ha⟩ := Dict.exists_get?_of_mem hA
    obtain ⟨b, hb⟩ := Dict.exists_get?_of_mem hB
    have hr := (h.mem _).mpr (.shared osmId a b ha hb)
    have hidsA : osmId ∈ [osmId] := List.mem_singleton_self osmId
    exact ⟨_, hr, hall _ hr (Or.inl hidsA), hidsA, hidsA⟩
  · rintro ⟨r, hr, hunchanged, hidA, hidB⟩
    obtain ⟨hkeysA, hkeysB⟩ := h.mem_keys r hr
    obtain ⟨a, ha⟩ := Dict.exists_get?_of_mem (hkeysA osmId hidA)
    obtain ⟨b, hb⟩ := Dict.exists_get?_of_mem (hkeysB osmId hidB)
    refine ⟨hkeysA osmId hidA, hkeysB osmId hidB, ?_⟩
    intro s hs hnames
    rw [((h.mem s).mp hs).eq_of_names_shared ha hb hnames,
      ← ((h.mem r).mp hr).eq_of_names_shared ha hb (Or.inl hidA)]
    exact hunchanged

/-- Where no building is mapped anew, absence finds one id for each unchanged
record. -/
theorem length_unchangedFromAbsence
    (hserved : Served db snapshotAId snapshotBId changesetId featuresA featuresB
      records)
    (h : IsChangeset sh (overlapPair sh) aoiBoundary featuresA featuresB records)
    (hnone : ∀ f g, ¬ MappedAnew sh featuresA featuresB f g) :
    (unchangedFromAbsence db snapshotAId snapshotBId changesetId).length =
      records.countP (fun r => r.classification = .unchanged) := by
  have hshared : ∀ r ∈ records.filter (fun r => r.classification = .unchanged),
      ∃ osmId, r.osmIdsA = [osmId] ∧ r.osmIdsB = [osmId] := by
    intro r hr
    obtain ⟨hr, hunchanged⟩ := List.mem_filter.mp hr
    rcases h.shared_or_mappedAnew hr (of_decide_eq_true hunchanged) with
      hids | ⟨f, g, hanew⟩
    · exact hids
    · exact absurd hanew (hnone f g)
  have hperm : (unchangedFromAbsence db snapshotAId snapshotBId changesetId).Perm
      ((records.filter (fun r => r.classification = .unchanged)).flatMap
        (·.osmIdsB)) := by
    refine (List.perm_ext_iff_of_nodup ?_ ?_).mpr ?_
    · rw [unchangedFromAbsence, hserved.idsB]
      exact featuresB.keys_nodup.filter _
    · exact (h.idsB.nodup_iff.mpr featuresB.keys_nodup).sublist
        (List.filter_sublist.flatMap _)
    · intro osmId
      rw [mem_unchangedFromAbsence_iff hserved h, List.mem_flatMap]
      constructor
      · rintro ⟨r, hr, hunchanged, -, hidB⟩
        exact ⟨r, List.mem_filter.mpr ⟨hr, decide_eq_true hunchanged⟩, hidB⟩
      · rintro ⟨r, hr, hidB⟩
        obtain ⟨x, hidsA, hidsB⟩ := hshared r hr
        obtain ⟨hr, hunchanged⟩ := List.mem_filter.mp hr
        refine ⟨r, hr, of_decide_eq_true hunchanged, ?_, hidB⟩
        rwa [hidsA, ← hidsB]
  have hone : ∀ r ∈ records.filter (fun r => r.classification = .unchanged),
      r.osmIdsB.length = 1 := by
    intro r hr
    obtain ⟨x, -, hidsB⟩ := hshared r hr
    rw [hidsB, List.length_singleton]
  rw [hperm.length_eq, List.length_flatMap, List.countP_eq_length_filter,
    List.map_congr_left hone]
  simp

/-- The ids that publishing a snapshot publishes are those that matching
loads. -/
theorem publishedIds_eq_keys {db db' : Database G} {snapshotId written : Nat}
    {processed : ProcessedCollection J} {features : FeatureDict G}
    (hpublish : publishSnapshotFeatures sh pg db snapshotId processed =
      .ok (written, db'))
    (hload : loadFeatures sh processed = .ok features) :
    db'.publishedIds snapshotId = features.keys := by
  obtain ⟨fs, hfs, -, hitems⟩ := loadFeatures_eq_ok_iff.mp hload
  have hkeys : features.keys = fs.map (·.osmId) := by
    rw [Dict.keys, hitems, List.map_map]
    rfl
  apply List.map_injective_iff.mpr (Option.some_injective String)
  calc
    _ = processed.map (fun feature => feature.properties.bind (·.osmId)) :=
      publishedIds_publishSnapshotFeatures hpublish
    _ = fs.map (fun f => some f.osmId) :=
      (map_of_mapM_eq_ok hfs (fun _ _ _ h => loadFeature_osmId h)).symm
    _ = features.keys.map some := by
      rw [hkeys, List.map_map]
      rfl

/-- After both snapshots are published, each publishes the ids that matching
loads. -/
theorem publishedIds_publishBoth {db₀ db₁ db₂ : Database G}
    {writtenA writtenB : Nat} {processedA processedB : ProcessedCollection J}
    (hloadA : loadFeatures sh processedA = .ok featuresA)
    (hloadB : loadFeatures sh processedB = .ok featuresB)
    (hid : snapshotAId = snapshotBId → processedA = processedB)
    (hpublishA : publishSnapshotFeatures sh pg db₀ snapshotAId processedA =
      .ok (writtenA, db₁))
    (hpublishB : publishSnapshotFeatures sh pg db₁ snapshotBId processedB =
      .ok (writtenB, db₂)) :
    db₂.publishedIds snapshotAId = featuresA.keys ∧
    db₂.publishedIds snapshotBId = featuresB.keys := by
  have hB : db₂.publishedIds snapshotBId = featuresB.keys :=
    publishedIds_eq_keys hpublishB hloadB
  refine ⟨?_, hB⟩
  by_cases hne : snapshotAId = snapshotBId
  · rw [hid hne] at hloadA
    obtain rfl := Except.ok.inj (hloadA.symm.trans hloadB)
    rw [hne]
    exact hB
  · rw [publishedIds_publishSnapshotFeatures_of_ne hpublishB hne]
    exact publishedIds_eq_keys hpublishA hloadA

/-- After both snapshots and the changeset are published, the tables serve
them. -/
theorem served_of_publish {db₀ db₁ db₂ db₃ : Database G}
    {writtenA writtenB written : Nat} {rt : Runtime G}
    {snapshotA snapshotB : SnapshotRef}
    {processedA processedB : ProcessedCollection J} {aoiGeometry : Option J}
    {result : ChangesetResult J}
    (hloadA : loadFeatures sh processedA = .ok featuresA)
    (hloadB : loadFeatures sh processedB = .ok featuresB)
    (hid : snapshotA.id = snapshotB.id → processedA = processedB)
    (hpublishA : publishSnapshotFeatures sh pg db₀ snapshotA.id processedA =
      .ok (writtenA, db₁))
    (hpublishB : publishSnapshotFeatures sh pg db₁ snapshotB.id processedB =
      .ok (writtenB, db₂))
    (hrun : buildChangesetResult sh rt snapshotA snapshotB processedA processedB
      aoiGeometry = .ok result)
    (hpublish : publishChangeFeatures sh pg db₂ changesetId snapshotA.id
      snapshotB.id result.changeLayerGeojson = .ok (written, db₃)) :
    Served db₃ snapshotA.id snapshotB.id changesetId featuresA featuresB
      result.records := by
  have hsame : ∀ id, db₃.publishedIds id = db₂.publishedIds id := by
    obtain ⟨rows, -, -, -, rfl⟩ := publishChangeFeatures_eq_ok_iff.mp hpublish
    intro id
    rfl
  obtain ⟨hA, hB⟩ :=
    publishedIds_publishBoth hloadA hloadB hid hpublishA hpublishB
  refine ⟨?_, ?_, ?_⟩
  · rw [hsame]
    exact hA
  · rw [hsame]
    exact hB
  · obtain ⟨-, featuresA', featuresB', aoiBoundary, records, layer, -, -, -, -,
      hlayer, rfl⟩ := buildChangesetResult_eq_ok_iff.mp hrun
    rw [(changeRows_publishChangeFeatures hpublish).2,
      renderChangeLayer_view hlayer]

/-- Absence derives exactly the unchanged records, exactly when no building was
mapped anew under another id. -/
theorem publish_absence_iff (sh : Shapely G J) (pg : PostGis G) (rt : Runtime G)
    (hindex : ExactIndex sh rt) (hint : OverlapIntersects sh)
    (hunion : UnionCoversIntersection sh) {db₀ db₁ db₂ db₃ : Database G}
    {writtenA writtenB written : Nat} {snapshotA snapshotB : SnapshotRef}
    {processedA processedB : ProcessedCollection J} {aoiGeometry : Option J}
    {result : ChangesetResult J}
    (hloadA : loadFeatures sh processedA = .ok featuresA)
    (hloadB : loadFeatures sh processedB = .ok featuresB)
    (hid : snapshotA.id = snapshotB.id → processedA = processedB)
    (hpublishA : publishSnapshotFeatures sh pg db₀ snapshotA.id processedA =
      .ok (writtenA, db₁))
    (hpublishB : publishSnapshotFeatures sh pg db₁ snapshotB.id processedB =
      .ok (writtenB, db₂))
    (hrun : buildChangesetResult sh rt snapshotA snapshotB processedA processedB
      aoiGeometry = .ok result)
    (hpublish : publishChangeFeatures sh pg db₂ changesetId snapshotA.id
      snapshotB.id result.changeLayerGeojson = .ok (written, db₃)) :
    ((∀ osmId,
        osmId ∈ unchangedFromAbsence db₃ snapshotA.id snapshotB.id changesetId ↔
          ∃ r ∈ result.records, r.classification = .unchanged ∧
            r.Names osmId) ∧
      result.counts.get? .unchanged = some
        (unchangedFromAbsence db₃ snapshotA.id snapshotB.id
          changesetId).length) ↔
    ∀ f g, ¬ MappedAnew sh featuresA featuresB f g := by
  have hserved := served_of_publish hloadA hloadB hid hpublishA hpublishB hrun
    hpublish
  obtain ⟨-, featuresA', featuresB', aoiBoundary, records, layer, hloadA',
    hloadB', -, hrecords, -, rfl⟩ := buildChangesetResult_eq_ok_iff.mp hrun
  obtain rfl := Except.ok.inj (hloadA.symm.trans hloadA')
  obtain rfl := Except.ok.inj (hloadB.symm.trans hloadB')
  obtain ⟨records', hrecords', h⟩ :=
    buildChangeset_overlaps hindex hint featuresA featuresB aoiBoundary
  obtain rfl := Except.ok.inj (hrecords.symm.trans hrecords')
  constructor
  · rintro ⟨hall, -⟩ f g hanew
    obtain ⟨r, hr, hunchanged, hnames⟩ :=
      h.exists_unchanged_of_mappedAnew hunion hanew
    obtain ⟨-, hidB, -⟩ := mem_unchangedFromAbsence.mp
      ((hall f.osmId).mpr ⟨r, hr, hunchanged, hnames⟩)
    rw [hserved.idsB] at hidB
    exact (mem_onlyIn.mp (Dict.mem_of_get? hanew.before)).2 hidB
  · intro hnone
    constructor
    · intro osmId
      rw [mem_unchangedFromAbsence_iff hserved h]
      constructor
      · rintro ⟨r, hr, hunchanged, hidA, -⟩
        exact ⟨r, hr, hunchanged, Or.inl hidA⟩
      · rintro ⟨r, hr, hunchanged, hnames⟩
        rcases h.shared_or_mappedAnew hr hunchanged with
          ⟨x, hidsA, hidsB⟩ | ⟨f, g, hanew⟩
        · rw [ChangeRecord.Names, hidsA, hidsB, or_self] at hnames
          exact ⟨r, hr, hunchanged, by rwa [hidsA], by rwa [hidsB]⟩
        · exact absurd hanew (hnone f g)
    · rw [length_unchangedFromAbsence hserved h hnone]
      exact get?_counts records .unchanged

end Served

/-- One building keeps its id, one goes and one comes: absence derives the one
that stays. -/
theorem publish_absence_kept :
    ∃ result db,
      buildChangesetResult Raster.shapely Raster.exact (Raster.ref 1)
          (Raster.ref 2)
          [Raster.processed "way/1" {(0, 0)}, Raster.processed "way/2" {(5, 5)}]
          [Raster.processed "way/1" {(0, 0)}, Raster.processed "way/3" {(9, 9)}]
          none = .ok result ∧
      (∀ osmId, osmId ∈ unchangedFromAbsence (db : Database Raster) 1 2 1 ↔
        ∃ r ∈ result.records, r.classification = .unchanged ∧ r.Names osmId) ∧
      result.counts.get? .unchanged =
        some (unchangedFromAbsence db 1 2 1).length := by
  have hchain : (do
      let p₁ ← publishSnapshotFeatures Raster.shapely Raster.postgis
        Raster.database (Raster.ref 1).id
        [Raster.processed "way/1" {(0, 0)}, Raster.processed "way/2" {(5, 5)}]
      let p₂ ← publishSnapshotFeatures Raster.shapely Raster.postgis p₁.2
        (Raster.ref 2).id
        [Raster.processed "way/1" {(0, 0)}, Raster.processed "way/3" {(9, 9)}]
      let result ← buildChangesetResult Raster.shapely Raster.exact
        (Raster.ref 1) (Raster.ref 2)
        [Raster.processed "way/1" {(0, 0)}, Raster.processed "way/2" {(5, 5)}]
        [Raster.processed "way/1" {(0, 0)}, Raster.processed "way/3" {(9, 9)}]
        none
      publishChangeFeatures Raster.shapely Raster.postgis p₂.2 1 (Raster.ref 1).id
        (Raster.ref 2).id result.changeLayerGeojson).toOption.isSome = true := by
    decide +kernel
  obtain ⟨⟨written, db₃⟩, hchain⟩ := exists_eq_ok_of_isSome hchain
  obtain ⟨⟨writtenA, db₁⟩, hpublishA, hchain⟩ := bind_eq_ok.mp hchain
  obtain ⟨⟨writtenB, db₂⟩, hpublishB, hchain⟩ := bind_eq_ok.mp hchain
  obtain ⟨result, hrun, hpublish⟩ := bind_eq_ok.mp hchain
  obtain ⟨-, featuresA, featuresB, -, -, -, hloadA, hloadB, -⟩ :=
    buildChangesetResult_eq_ok_iff.mp hrun
  have hnone : ((do
      let featuresA ← loadFeatures Raster.shapely
        [Raster.processed "way/1" {(0, 0)}, Raster.processed "way/2" {(5, 5)}]
      let featuresB ← loadFeatures Raster.shapely
        [Raster.processed "way/1" {(0, 0)}, Raster.processed "way/3" {(9, 9)}]
      pure (decide (∀ f ∈ (onlyIn featuresA featuresB).items,
        ∀ g ∈ (onlyIn featuresB featuresA).items,
          ¬ overlaps Raster.shapely f.2.geometry g.2.geometry))) :
        Except PyError Bool) = .ok true := by
    decide +kernel
  rw [hloadA, ok_bind, hloadB, ok_bind, pure_eq_ok, decide_eq_true_iff] at hnone
  have hanew : ∀ f g, ¬ MappedAnew Raster.shapely featuresA featuresB f g := by
    intro f g h
    exact hnone _ (Dict.get?_eq_some_iff.mp h.before) _
      (Dict.get?_eq_some_iff.mp h.after) h.overlaps
  obtain ⟨hall, hcount⟩ := (publish_absence_iff Raster.shapely Raster.postgis
    Raster.exact Raster.exactIndex Raster.overlapIntersects
    Raster.unionCoversIntersection hloadA hloadB (fun h => absurd h (by decide))
    hpublishA hpublishB hrun hpublish).mpr hanew
  exact ⟨result, db₃, hrun, hall, hcount⟩

/-- One building is mapped anew under another id: the comparison reports one
unchanged record, and absence derives none. -/
theorem publish_absence_mappedAnew :
    (do
      let (_, db) ← publishSnapshotFeatures Raster.shapely Raster.postgis
        Raster.database 1 [Raster.processed "way/1" {(0, 0)}]
      let (_, db) ← publishSnapshotFeatures Raster.shapely Raster.postgis db 2
        [Raster.processed "way/2" {(0, 0)}]
      let result ← buildChangesetResult Raster.shapely Raster.exact
        (Raster.ref 1) (Raster.ref 2) [Raster.processed "way/1" {(0, 0)}]
        [Raster.processed "way/2" {(0, 0)}] none
      let (_, db) ← publishChangeFeatures Raster.shapely Raster.postgis db 1 1 2
        result.changeLayerGeojson
      pure (result.records.map (fun r => (r.classification, r.osmIdsA, r.osmIdsB)),
        result.counts.get? .unchanged, unchangedFromAbsence db 1 2 1)) =
      Except.ok ([(Classification.unchanged, ["way/1"], ["way/2"])], some 1,
        []) := by
  decide +kernel

end VectorMapChanges
