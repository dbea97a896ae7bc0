import VectorMapChanges.Matching.Coherence
import VectorMapChanges.Publish.Postgis

/-!
# Promoted metrics

A staging row takes its metric columns from the list of candidates where that
list has one entry.  The list has one entry exactly when the record names one
id on each side: a component with more ids has more than one edge.

Main facts:
* `row_of_renderRecord`: the columns are read off the candidates alone;
* `promoted_metrics`: they are the metrics of the single pair of a record, and
  NULL in every other case.
-/

namespace VectorMapChanges

open Lib

/-- The metrics of an entry, apart from the differing tags. -/
def CandidateEntry.metricColumns (entry : CandidateEntry) : List (Option ℚ) :=
  [entry.iou, entry.iouCentroidAligned, entry.centroidShiftM, entry.areaRatio,
    entry.hausdorffM]

/-- The metric columns of a staging row. -/
def StagedChangeFeature.metricColumns {G : Type} (row : StagedChangeFeature G) :
    List (Option ℚ) :=
  [row.iou, row.iouCentroidAligned, row.centroidShiftM, row.areaRatio,
    row.hausdorffM]

/-- The record names one id on each side. -/
def ChangeRecord.Single (r : ChangeRecord) : Prop :=
  r.osmIdsA.length = 1 ∧ r.osmIdsB.length = 1

/-- The pair was considered for the record: it is what the record matches, or a
candidate pair of its group. -/
def Considered (candidates : Dict String (List String)) (r : ChangeRecord)
    (a b : String) : Prop :=
  (r.osmIdsA = [a] ∧ r.osmIdsB = [b]) ∨
    (a ∈ r.osmIdsA ∧ b ∈ r.osmIdsB ∧ Candidate candidates a b)

section Promoted

variable {G J : Type} (sh : Shapely G J)

/-- The entry of a pair of features. -/
def entryOf (p : LoadedFeature G × LoadedFeature G) : CandidateEntry :=
  candidateEntry ((p.1.osmId, p.2.osmId), computeMetrics sh p.1 p.2)

/-- The metric columns of the row are the metrics of the single pair of the
record, or NULL, and its candidates are the considered pairs in order. -/
structure Promotes (candidates : Dict String (List String))
    (featuresA featuresB : FeatureDict G) (r : ChangeRecord)
    (row : StagedChangeFeature G) : Prop where
  notNull : ∀ column ∈ row.metricColumns, column ≠ none ↔ r.Single
  single : r.Single → ∃ a b, featuresA.get? a.osmId = some a ∧
    featuresB.get? b.osmId = some b ∧
    r.osmIdsA = [a.osmId] ∧ r.osmIdsB = [b.osmId] ∧
    row.metricColumns = (entryOf sh (a, b)).metricColumns ∧
    row.attrsChanged = (computeMetrics sh a b).attrsChanged
  other : ¬ r.Single →
    row.metricColumns = [none, none, none, none, none] ∧ row.attrsChanged = []
  candidates : ∃ pairs : List (LoadedFeature G × LoadedFeature G),
    row.candidates = pairs.map (entryOf sh) ∧
    pairs.Pairwise (fun p q => pairKey p < pairKey q) ∧
    ∀ a b, (a, b) ∈ pairs ↔ featuresA.get? a.osmId = some a ∧
      featuresB.get? b.osmId = some b ∧ Considered candidates r a.osmId b.osmId

variable {sh}

/-- The columns of a row are read off the candidates of its record. -/
theorem row_of_renderRecord {featuresA featuresB : FeatureDict G}
    {r : ChangeRecord} {feature : ChangeFeature J} {row : StagedChangeFeature G}
    (hfeature : renderRecord sh featuresA featuresB r = .ok feature)
    (hrow : changeFeatureRow sh feature = .ok row) :
    row.candidates = r.pairMetrics.items.map candidateEntry ∧
    row.metricColumns = (promotedMetrics row.candidates).metricColumns ∧
    row.attrsChanged = (promotedMetrics row.candidates).attrsChanged.getD [] := by
  obtain ⟨geometry, -, hfeature⟩ := bind_eq_ok.mp hfeature
  obtain rfl := pure_eq_ok.mp hfeature
  obtain ⟨props, hprops, classification, -, reason, -, repaired, -, touches, -,
    json, -, hex, -, rfl⟩ := changeFeatureRow_eq_ok_iff.mp hrow
  obtain rfl := Option.some.inj hprops
  exact ⟨rfl, rfl, rfl⟩

/-- Other lists than those of one entry promote nothing. -/
theorem promotedMetrics_of_length_ne {entries : List CandidateEntry}
    (h : entries.length ≠ 1) :
    promotedMetrics entries = ⟨none, none, none, none, none, none, none, none⟩ := by
  match entries, h with
  | [], _ => rfl
  | [_], h => exact absurd rfl h
  | _ :: _ :: _, _ => rfl

section Record

variable {pair : LoadedFeature G → LoadedFeature G → Bool}
  {aoiBoundary : Option G} {featuresA featuresB : FeatureDict G}
  {candidates : Dict String (List String)} {r : ChangeRecord}
  {as bs : List (LoadedFeature G)}

theorem Describes.single_iff
    (h : Describes sh pair aoiBoundary featuresA featuresB r as bs) :
    r.Single ↔ as.length = 1 ∧ bs.length = 1 := by
  rw [ChangeRecord.Single, h.idsA, h.idsB, List.length_map, List.length_map]

/-- The pairs of a record are those considered for it. -/
theorem Describes.mem_candidatePairs_iff
    (h : Describes sh pair aoiBoundary featuresA featuresB r as bs)
    (hagrees : AgreesOn (listedPair candidates) pair as bs)
    (a b : LoadedFeature G) :
    (a, b) ∈ candidatePairs pair as bs ↔ featuresA.get? a.osmId = some a ∧
      featuresB.get? b.osmId = some b ∧ Considered candidates r a.osmId b.osmId := by
  rw [mem_candidatePairs]
  constructor
  · rintro ⟨⟨ha, hb⟩, hpair⟩
    refine ⟨h.storedA a ha, h.storedB b hb, ?_⟩
    rcases hagrees a ha b hb with heq | ⟨rfl, rfl⟩
    · rw [heq, listedPair, isCandidate_iff] at hpair
      refine Or.inr ⟨?_, ?_, hpair⟩
      · rw [h.idsA]
        exact List.mem_map_of_mem ha
      · rw [h.idsB]
        exact List.mem_map_of_mem hb
    · exact Or.inl ⟨h.idsA, h.idsB⟩
  · rintro ⟨hgetA, hgetB, hcons⟩
    rcases hcons with ⟨hidsA, hidsB⟩ | ⟨hidA, hidB, hcand⟩
    · have ha : a ∈ as :=
        h.storedA.mem_of_osmId_mem h.idsA hgetA (by rw [hidsA]; simp)
      have hb : b ∈ bs :=
        h.storedB.mem_of_osmId_mem h.idsB hgetB (by rw [hidsB]; simp)
      have hlen := h.single_iff.mp ⟨by rw [hidsA]; rfl, by rw [hidsB]; rfl⟩
      obtain ⟨a', rfl⟩ := List.length_eq_one_iff.mp hlen.1
      obtain ⟨b', rfl⟩ := List.length_eq_one_iff.mp hlen.2
      obtain rfl := List.mem_singleton.mp ha
      obtain rfl := List.mem_singleton.mp hb
      have hmem : (a, b) ∈ candidatePairs pair [a] [b] := by
        rw [h.candidatePairs_single]
        simp
      exact mem_candidatePairs.mp hmem
    · have ha := h.storedA.mem_of_osmId_mem h.idsA hgetA hidA
      have hb := h.storedB.mem_of_osmId_mem h.idsB hgetB hidB
      refine ⟨⟨ha, hb⟩, ?_⟩
      rcases hagrees a ha b hb with heq | ⟨rfl, rfl⟩
      · rw [heq, listedPair, isCandidate_iff]
        exact hcand
      · have hmem : (a, b) ∈ candidatePairs pair [a] [b] := by
          rw [h.candidatePairs_single]
          simp
        exact (mem_candidatePairs.mp hmem).2

/-- The row of a record that is about features of the two snapshots. -/
theorem Describes.promotes
    (h : Describes sh pair aoiBoundary featuresA featuresB r as bs)
    (hagrees : AgreesOn (listedPair candidates) pair as bs)
    {feature : ChangeFeature J} {row : StagedChangeFeature G}
    (hfeature : renderRecord sh featuresA featuresB r = .ok feature)
    (hrow : changeFeatureRow sh feature = .ok row) :
    Promotes sh candidates featuresA featuresB r row := by
  obtain ⟨hcandidates, hcolumns, hattrs⟩ := row_of_renderRecord hfeature hrow
  have hentries : row.candidates = (candidatePairs pair as bs).map (entryOf sh) := by
    rw [hcandidates, h.metrics, items_pairMetricsOf h.sortedA h.sortedB,
      List.map_map]
    rfl
  have hother : ¬ r.Single → promotedMetrics row.candidates =
      ⟨none, none, none, none, none, none, none, none⟩ := by
    intro hsingle
    apply promotedMetrics_of_length_ne
    rw [hcandidates, List.length_map, ne_eq, h.length_items_eq_one_iff,
      ← h.single_iff]
    exact hsingle
  have hsingle : r.Single → ∃ a b, as = [a] ∧ bs = [b] ∧
      promotedMetrics row.candidates = entryOf sh (a, b) := by
    intro hsingle
    have hlen := h.single_iff.mp hsingle
    obtain ⟨a, rfl⟩ := List.length_eq_one_iff.mp hlen.1
    obtain ⟨b, rfl⟩ := List.length_eq_one_iff.mp hlen.2
    refine ⟨a, b, rfl, rfl, ?_⟩
    rw [hentries, h.candidatePairs_single]
    rfl
  refine ⟨?_, ?_, ?_, _, hentries,
    pairwise_candidatePairs h.sortedA h.sortedB, h.mem_candidatePairs_iff hagrees⟩
  · intro column hcolumn
    rw [hcolumns] at hcolumn
    by_cases hcase : r.Single
    · obtain ⟨a, b, -, -, hpromoted⟩ := hsingle hcase
      rw [hpromoted] at hcolumn
      refine iff_of_true ?_ hcase
      rintro rfl
      simp [CandidateEntry.metricColumns, entryOf, candidateEntry] at hcolumn
    · rw [hother hcase] at hcolumn
      refine iff_of_false (not_not.mpr ?_) hcase
      simpa [CandidateEntry.metricColumns] using hcolumn
  · intro hcase
    obtain ⟨a, b, rfl, rfl, hpromoted⟩ := hsingle hcase
    rw [hcolumns, hattrs, hpromoted]
    exact ⟨a, b, h.storedA a (by simp), h.storedB b (by simp), h.idsA, h.idsB, rfl,
      rfl⟩
  · intro hcase
    rw [hcolumns, hattrs, hother hcase]
    exact ⟨rfl, rfl⟩

end Record

/-- Every record is rendered, and a row made of its feature promotes the metrics
of a single pair and nothing else. -/
theorem promoted_metrics {G J : Type} (sh : Shapely G J) (rt : Runtime G)
    (featuresA featuresB : FeatureDict G) (aoiBoundary : Option G) :
    ∃ records layer,
      buildChangeset sh rt featuresA featuresB aoiBoundary = .ok records ∧
      renderChangeLayer sh records featuresA featuresB = .ok layer ∧
      List.Forall₂ (fun r feature => ∀ row,
        changeFeatureRow sh feature = .ok row →
          Promotes sh (generateCandidates sh rt (onlyIn featuresA featuresB)
            (onlyIn featuresB featuresA)) featuresA featuresB r row)
        records layer := by
  apply exists_rendered
  intro r feature pair as bs h hagrees hfeature row hrow
  exact h.promotes hagrees hfeature hrow

/-- The row of a split has both pairs among its candidates, and no metrics. -/
example :
    (do
      let records ← buildChangeset Raster.shapely Raster.exact Raster.undivided
        Raster.divided none
      let layer ← renderChangeLayer Raster.shapely records Raster.undivided
        Raster.divided
      layer.mapM (changeFeatureRow Raster.shapely) :
        Except PyError (List (StagedChangeFeature Raster))).toOption.map
      (List.map fun row =>
        (row.metricColumns, row.candidates.map (fun entry => entry.iou))) =
      some [([none, none, none, none, none], [some (1 / 2), some (1 / 2)])] := by
  decide +kernel

end Promoted

end VectorMapChanges
