import VectorMapChanges.Raster

/-!
# Independence of iteration orders

The order of the features in a document, the iteration orders of sets and the
order of the hits of the index differ from run to run; the result does not.
The records are determined by lookups, their order by the ids they name.

Main facts:
* `isRecord_of_perm`: the records do not see the order of the features;
* `renderChangeLayer_of_perm`: neither does the change layer;
* `buildChangesetResult_toOption_eq`: two runs on reordered documents return the
  same result.
-/

namespace VectorMapChanges

open Lib

section Perm

variable {G J : Type} {sh : Shapely G J}
  {pair : LoadedFeature G → LoadedFeature G → Bool}
  {featuresA featuresB featuresA' featuresB' : FeatureDict G}
  {aoiBoundary : Option G}

theorem onlyIn_perm (hA : featuresA.items.Perm featuresA'.items)
    (hB : featuresB.items.Perm featuresB'.items) :
    (onlyIn featuresA featuresB).items.Perm
      (onlyIn featuresA' featuresB').items := by
  have hkeys : ∀ k, k ∈ featuresB.keys ↔ k ∈ featuresB'.keys :=
    fun k => (hB.map Prod.fst).mem_iff
  have hfilter : (onlyIn featuresA' featuresB').items =
      featuresA'.items.filter (fun item => decide (item.1 ∉ featuresB.keys)) := by
    apply List.filter_congr
    intro item _
    simp only [hkeys]
  rw [hfilter]
  exact hA.filter _

variable (hA : featuresA.items.Perm featuresA'.items)
  (hB : featuresB.items.Perm featuresB'.items)

include hA hB

theorem get?_onlyIn_of_perm (k : String) :
    (onlyIn featuresA featuresB).get? k =
      (onlyIn featuresA' featuresB').get? k :=
  Dict.get?_eq_of_perm (onlyIn_perm hA hB) k

theorem edge_of_perm :
    Edge pair (onlyIn featuresA featuresB) (onlyIn featuresB featuresA) =
      Edge pair (onlyIn featuresA' featuresB') (onlyIn featuresB' featuresA') := by
  funext a b
  simp only [Edge, get?_onlyIn_of_perm hA hB, get?_onlyIn_of_perm hB hA]

/-- The records do not see the order of the features. -/
theorem isRecord_of_perm {r : ChangeRecord}
    (h : IsRecord sh pair aoiBoundary featuresA featuresB r) :
    IsRecord sh pair aoiBoundary featuresA' featuresB' r := by
  cases h with
  | shared osmId a b ha hb =>
      rw [Dict.get?_eq_of_perm hA] at ha
      rw [Dict.get?_eq_of_perm hB] at hb
      exact .shared osmId a b ha hb
  | group root as bs hgroup =>
      refine .group root as bs ⟨hgroup.sortedA, hgroup.sortedB, ?_, ?_, ?_⟩
      · rw [← edge_of_perm hA hB]
        intro f
        rw [hgroup.memA, get?_onlyIn_of_perm hA hB]
      · rw [← edge_of_perm hA hB]
        intro g
        rw [hgroup.memB, get?_onlyIn_of_perm hB hA]
      · rw [← edge_of_perm hA hB]
        exact hgroup.linked
  | removed a ha hnone =>
      rw [get?_onlyIn_of_perm hA hB] at ha
      rw [edge_of_perm hA hB] at hnone
      exact .removed a ha hnone
  | added b hb hnone =>
      rw [get?_onlyIn_of_perm hB hA] at hb
      rw [edge_of_perm hA hB] at hnone
      exact .added b hb hnone

/-- Reordered snapshots have the same changeset. -/
theorem IsChangeset.eq_of_perm {records records' : List ChangeRecord}
    (h : IsChangeset sh pair aoiBoundary featuresA featuresB records)
    (h' : IsChangeset sh pair aoiBoundary featuresA' featuresB' records') :
    records = records' := by
  refine h.eq h'.sorted ?_
  intro r
  rw [h'.mem]
  exact ⟨isRecord_of_perm hA.symm hB.symm, isRecord_of_perm hA hB⟩

omit hB in
theorem geometryOf_of_perm : geometryOf featuresA = geometryOf featuresA' := by
  funext oid
  unfold geometryOf
  rw [getItem_congr (Dict.get?_eq_of_perm hA oid)]

/-- The change layer does not see the order of the features. -/
theorem renderChangeLayer_of_perm (records : List ChangeRecord) :
    renderChangeLayer sh records featuresA featuresB =
      renderChangeLayer sh records featuresA' featuresB' := by
  unfold renderChangeLayer
  apply mapM_congr
  intro record _
  simp only [renderRecord, recordGeometry, geometryOf_of_perm hA,
    geometryOf_of_perm hB]

end Perm

section Determinism

variable {G J : Type} {sh : Shapely G J} {hit : G → G → Bool}
  {rt rt' : Runtime G} {snapshotA snapshotB : SnapshotRef}
  {processedA processedA' processedB processedB' : ProcessedCollection J}
  {aoiGeometry : Option J}

/-- What one run returns, every run on reordered documents returns. -/
theorem buildChangesetResult_of_perm (hhits : HitsBy hit rt)
    (hhits' : HitsBy hit rt') (hA : processedA.Perm processedA')
    (hB : processedB.Perm processedB') {result : ChangesetResult J}
    (h : buildChangesetResult sh rt snapshotA snapshotB processedA processedB
      aoiGeometry = .ok result) :
    buildChangesetResult sh rt' snapshotA snapshotB processedA' processedB'
      aoiGeometry = .ok result := by
  obtain ⟨hcomp, featuresA, featuresB, aoiBoundary, records, layer, hloadA,
    hloadB, haoi, hrecords, hlayer, rfl⟩ := buildChangesetResult_eq_ok_iff.mp h
  obtain ⟨featuresA', hloadA', hpermA⟩ := loadFeatures_perm hA hloadA
  obtain ⟨featuresB', hloadB', hpermB⟩ := loadFeatures_perm hB hloadB
  obtain ⟨records₀, hrun₀, h₀⟩ := exists_buildChangeset rt aoiBoundary
    (lists_hitPair sh hhits (onlyIn featuresA featuresB)
      (onlyIn featuresB featuresA))
  obtain ⟨records', hrun', h'⟩ := exists_buildChangeset rt' aoiBoundary
    (lists_hitPair sh hhits' (onlyIn featuresA' featuresB')
      (onlyIn featuresB' featuresA'))
  obtain rfl := Except.ok.inj (hrun₀.symm.trans hrecords)
  obtain rfl := h₀.eq_of_perm hpermA hpermB h'
  rw [renderChangeLayer_of_perm hpermA hpermB] at hlayer
  exact buildChangesetResult_eq_ok_iff.mpr ⟨hcomp, featuresA', featuresB',
    aoiBoundary, records₀, layer, hloadA', hloadB', haoi, hrun', hlayer, rfl⟩

/-- The result does not depend on any iteration order: not on the order of the
features in the documents, not on how sets are walked, not on the order of the
hits of the index. -/
theorem buildChangesetResult_toOption_eq (sh : Shapely G J)
    (hit : G → G → Bool) (rt rt' : Runtime G) (hhits : HitsBy hit rt)
    (hhits' : HitsBy hit rt') (snapshotA snapshotB : SnapshotRef)
    (hA : processedA.Perm processedA') (hB : processedB.Perm processedB')
    (aoiGeometry : Option J) :
    (buildChangesetResult sh rt snapshotA snapshotB processedA processedB
        aoiGeometry).toOption =
      (buildChangesetResult sh rt' snapshotA snapshotB processedA' processedB'
        aoiGeometry).toOption := by
  have htoOption : ∀ (x : Except PyError (ChangesetResult J)) (result),
      x.toOption = some result ↔ x = .ok result := by
    intro x result
    cases x <;> simp [Except.toOption]
  apply Option.ext
  intro result
  rw [htoOption, htoOption]
  exact ⟨buildChangesetResult_of_perm hhits hhits' hA hB,
    buildChangesetResult_of_perm hhits' hhits hA.symm hB.symm⟩

end Determinism

/-- A split seen by two processes that walk sets in opposite orders. -/
theorem buildChangesetResult_toOption_eq_split :
    (buildChangesetResult Raster.shapely Raster.exact (Raster.ref 1) (Raster.ref 2)
        [Raster.processed "way/1" {(0, 0), (0, 1)},
          Raster.processed "way/4" {(7, 7)}]
        [Raster.processed "way/2" {(0, 0)}, Raster.processed "way/3" {(0, 1)}]
        none).toOption =
      (buildChangesetResult Raster.shapely
        (Runtime.bruteForce Raster.shapely .reversed) (Raster.ref 1) (Raster.ref 2)
        [Raster.processed "way/4" {(7, 7)},
          Raster.processed "way/1" {(0, 0), (0, 1)}]
        [Raster.processed "way/3" {(0, 1)}, Raster.processed "way/2" {(0, 0)}]
        none).toOption ∧
    (buildChangesetResult Raster.shapely Raster.exact (Raster.ref 1) (Raster.ref 2)
        [Raster.processed "way/1" {(0, 0), (0, 1)},
          Raster.processed "way/4" {(7, 7)}]
        [Raster.processed "way/2" {(0, 0)}, Raster.processed "way/3" {(0, 1)}]
        none).toOption.isSome = true :=
  ⟨buildChangesetResult_toOption_eq Raster.shapely Raster.shapely.intersects
      Raster.exact (Runtime.bruteForce Raster.shapely .reversed)
      Raster.exactIndex (exactIndex_bruteForce Raster.shapely .reversed)
      (Raster.ref 1) (Raster.ref 2) (List.Perm.swap _ _ _) (List.Perm.swap _ _ _)
      none,
    by decide +kernel⟩

end VectorMapChanges
