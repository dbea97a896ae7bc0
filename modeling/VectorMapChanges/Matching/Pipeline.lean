import VectorMapChanges.Instants
import VectorMapChanges.Matching.Records
import VectorMapChanges.Matching.Render

/-!
# One changeset run

Validate, load, match, render, summarize.

Main facts:
* `get?_counts`: the counts are those of the records;
* `buildChangesetResult_eq_ok_iff`: a run returns when each of its steps does;
* `exists_buildChangesetResult`: matching and rendering never keep it from
  returning.
-/

namespace VectorMapChanges

open Lib

/-- The columns of a `snapshots` row that a comparison needs. -/
structure SnapshotRef where
  id : Nat
  source : String
  layer : String
  aoiId : String
  aoiVersion : String
  sourceQueryVersion : String
  requestedTime : Instant
deriving DecidableEq

/-- `_COMPARABLE_FIELDS`, with the values of one reference. -/
def comparableFields (ref : SnapshotRef) : List (String × String) :=
  [("source", ref.source), ("layer", ref.layer), ("aoi_id", ref.aoiId),
    ("aoi_version", ref.aoiVersion),
    ("source_query_version", ref.sourceQueryVersion)]

/-- `str` of a list whose entries have the given representations. -/
def reprList (entries : List String) : String :=
  "[" ++ String.intercalate ", " entries ++ "]"

/-- Raise unless the two snapshots can be compared. -/
def validateComparable (snapshotA snapshotB : SnapshotRef) :
    Except PyError Unit :=
  let mismatches := ((comparableFields snapshotA).zip
    (comparableFields snapshotB)).filter (fun p => p.1.2 ≠ p.2.2)
  if mismatches = [] then pure ()
  else
    .error (.valueError
      ("snapshots are not comparable -- differ in " ++
        reprList (mismatches.map (fun p => reprStr p.1.1)) ++ ": a=(id=" ++
        toString snapshotA.id ++ ", " ++
        reprList (mismatches.map (fun p => PyKey.render p.1)) ++ ") b=(id=" ++
        toString snapshotB.id ++ ", " ++
        reprList (mismatches.map (fun p => PyKey.render p.2)) ++ ")"))

/-- What one changeset run returns. -/
structure ChangesetResult (J : Type) where
  algorithmVersion : String
  records : List ChangeRecord
  counts : Dict Classification Nat
  changeLayerGeojson : ChangeLayer J
deriving DecidableEq

/-- `counts = dict.fromkeys(CLASSIFICATIONS, 0)` -/
def zeroCounts : Dict Classification Nat :=
  Dict.ofList (classifications.map (fun c => (c, 0)))

/-- `counts[record.classification] += 1`; every classification is a key. -/
def countRecord (counts : Dict Classification Nat) (record : ChangeRecord) :
    Dict Classification Nat :=
  counts.set record.classification
    ((counts.get? record.classification).getD 0 + 1)

theorem get?_zeroCounts (c : Classification) : zeroCounts.get? c = some 0 := by
  cases c <;> decide

/-- Counting adds the records of each classification. -/
theorem get?_foldl_countRecord (records : List ChangeRecord)
    {counts : Dict Classification Nat} {c : Classification} {n : Nat}
    (h : counts.get? c = some n) :
    (records.foldl countRecord counts).get? c =
      some (n + records.countP (fun r => r.classification = c)) := by
  induction records generalizing counts n with
  | nil =>
      exact h
  | cons r rest ih =>
      rw [List.foldl_cons]
      by_cases hc : r.classification = c
      · have hnext : (countRecord counts r).get? c = some (n + 1) := by
          simp [countRecord, hc, h]
        rw [ih hnext, List.countP_cons_of_pos (by simp [hc])]
        congr 1
        omega
      · have hnext : (countRecord counts r).get? c = some n := by
          rw [countRecord, Dict.get?_set, if_neg (fun he => hc he.symm)]
          exact h
        rw [ih hnext, List.countP_cons_of_neg (by simp [hc])]

/-- The counts of a run are those of its records. -/
theorem get?_counts (records : List ChangeRecord) (c : Classification) :
    (records.foldl countRecord zeroCounts).get? c =
      some (records.countP (fun r => r.classification = c)) := by
  rw [get?_foldl_countRecord records (get?_zeroCounts c), Nat.zero_add]

section Pipeline

variable {G J : Type} (sh : Shapely G J)

/-- The boundary of the AOI in the metric CRS. -/
def aoiBoundaryInMetricCrs : Option J → Except PyError (Option G)
  | none => pure none
  | some aoiGeometry => do
      let geometry ← sh.shape aoiGeometry
      pure (some (sh.boundary (toMetric sh geometry)))

/-- Validate, load, match, render, summarize. -/
def buildChangesetResult (rt : Runtime G) (snapshotA snapshotB : SnapshotRef)
    (processedGeojsonA processedGeojsonB : ProcessedCollection J)
    (aoiGeometry : Option J) : Except PyError (ChangesetResult J) := do
  validateComparable snapshotA snapshotB
  let featuresA ← loadFeatures sh processedGeojsonA
  let featuresB ← loadFeatures sh processedGeojsonB
  let aoiBoundary ← aoiBoundaryInMetricCrs sh aoiGeometry
  let records ← buildChangeset sh rt featuresA featuresB aoiBoundary
  let counts := records.foldl countRecord zeroCounts
  let changeLayerGeojson ← renderChangeLayer sh records featuresA featuresB
  pure
    { algorithmVersion := algorithmVersion
      records := records
      counts := counts
      changeLayerGeojson := changeLayerGeojson }

variable {sh}

/-- A run returns exactly when each of its steps does. -/
theorem buildChangesetResult_eq_ok_iff {rt : Runtime G}
    {snapshotA snapshotB : SnapshotRef}
    {processedGeojsonA processedGeojsonB : ProcessedCollection J}
    {aoiGeometry : Option J} {result : ChangesetResult J} :
    buildChangesetResult sh rt snapshotA snapshotB processedGeojsonA
        processedGeojsonB aoiGeometry = .ok result ↔
      validateComparable snapshotA snapshotB = .ok () ∧
      ∃ featuresA featuresB aoiBoundary records changeLayerGeojson,
        loadFeatures sh processedGeojsonA = .ok featuresA ∧
        loadFeatures sh processedGeojsonB = .ok featuresB ∧
        aoiBoundaryInMetricCrs sh aoiGeometry = .ok aoiBoundary ∧
        buildChangeset sh rt featuresA featuresB aoiBoundary = .ok records ∧
        renderChangeLayer sh records featuresA featuresB =
          .ok changeLayerGeojson ∧
        result =
          { algorithmVersion := algorithmVersion
            records := records
            counts := records.foldl countRecord zeroCounts
            changeLayerGeojson := changeLayerGeojson } := by
  unfold buildChangesetResult
  simp only [bind_eq_ok, pure_eq_ok]
  constructor
  · rintro ⟨⟨⟩, hcomp, featuresA, hA, featuresB, hB, aoiBoundary, haoi, records,
      hrecords, layer, hlayer, rfl⟩
    exact ⟨hcomp, featuresA, featuresB, aoiBoundary, records, layer, hA, hB,
      haoi, hrecords, hlayer, rfl⟩
  · rintro ⟨hcomp, featuresA, featuresB, aoiBoundary, records, layer, hA, hB,
      haoi, hrecords, hlayer, rfl⟩
    exact ⟨(), hcomp, featuresA, hA, featuresB, hB, aoiBoundary, haoi, records,
      hrecords, layer, hlayer, rfl⟩

/-- The counts of a run are those of its layer. -/
theorem get?_counts_eq_layerCount {rt : Runtime G}
    {snapshotA snapshotB : SnapshotRef}
    {processedGeojsonA processedGeojsonB : ProcessedCollection J}
    {aoiGeometry : Option J} {result : ChangesetResult J}
    (h : buildChangesetResult sh rt snapshotA snapshotB processedGeojsonA
      processedGeojsonB aoiGeometry = .ok result) (c : Classification) :
    result.counts.get? c = some (layerCount result.changeLayerGeojson c) := by
  obtain ⟨-, featuresA, featuresB, aoiBoundary, records, layer, -, -, -, -,
    hlayer, rfl⟩ := buildChangesetResult_eq_ok_iff.mp h
  rw [layerCount_renderChangeLayer hlayer]
  exact get?_counts records c

/-- The documents alone determine the result, once the snapshots can be
compared. -/
theorem buildChangesetResult_of_comparable {rt : Runtime G}
    {snapshotA snapshotB snapshotA' snapshotB' : SnapshotRef}
    {processedGeojsonA processedGeojsonB : ProcessedCollection J}
    {aoiGeometry : Option J} {result : ChangesetResult J}
    (h : buildChangesetResult sh rt snapshotA snapshotB processedGeojsonA
      processedGeojsonB aoiGeometry = .ok result)
    (hcomp : validateComparable snapshotA' snapshotB' = .ok ()) :
    buildChangesetResult sh rt snapshotA' snapshotB' processedGeojsonA
      processedGeojsonB aoiGeometry = .ok result := by
  obtain ⟨-, hsteps⟩ := buildChangesetResult_eq_ok_iff.mp h
  exact buildChangesetResult_eq_ok_iff.mpr ⟨hcomp, hsteps⟩

theorem validateComparable_self (ref : SnapshotRef) :
    validateComparable ref ref = .ok () := by
  simp [validateComparable, comparableFields]
  rfl

/-- Comparable snapshots that load have a result. -/
theorem exists_buildChangesetResult (rt : Runtime G)
    {snapshotA snapshotB : SnapshotRef}
    {processedGeojsonA processedGeojsonB : ProcessedCollection J}
    {aoiGeometry : Option J} {featuresA featuresB : FeatureDict G}
    {aoiBoundary : Option G}
    (hcomp : validateComparable snapshotA snapshotB = .ok ())
    (hA : loadFeatures sh processedGeojsonA = .ok featuresA)
    (hB : loadFeatures sh processedGeojsonB = .ok featuresB)
    (haoi : aoiBoundaryInMetricCrs sh aoiGeometry = .ok aoiBoundary) :
    ∃ result,
      buildChangesetResult sh rt snapshotA snapshotB processedGeojsonA
        processedGeojsonB aoiGeometry = .ok result ∧
      IsChangeset sh
        (listedPair (generateCandidates sh rt (onlyIn featuresA featuresB)
          (onlyIn featuresB featuresA)))
        aoiBoundary featuresA featuresB result.records := by
  obtain ⟨records, hrecords, h⟩ :=
    buildChangeset_listed sh rt featuresA featuresB aoiBoundary
  obtain ⟨layer, hlayer⟩ := exists_renderChangeLayer sh h.mem_keys
  exact ⟨_, buildChangesetResult_eq_ok_iff.mpr ⟨hcomp, featuresA, featuresB,
    aoiBoundary, records, layer, hA, hB, haoi, hrecords, hlayer, rfl⟩, h⟩

end Pipeline

end VectorMapChanges
