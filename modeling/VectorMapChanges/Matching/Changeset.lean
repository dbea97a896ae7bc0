import VectorMapChanges.Lib.SortBy
import VectorMapChanges.Matching.Components
import VectorMapChanges.Matching.Metrics
import Mathlib.Data.List.Lex
import Mathlib.Data.List.ProdSigma
import Mathlib.Data.Prod.Lex
import Mathlib.Data.String.Basic

/-!
# The matching pipeline

Stage 1 matches features by id.  For the rest, stages 2 and 3 generate and
score spatial candidates, stage 4 resolves the connected components of the
candidate graph, and stage 5 classifies what was matched.
-/

namespace VectorMapChanges

open Lib

/-- The classification of a change record. -/
inductive Classification where
  | unchanged
  | modifiedGeometry
  | modifiedAttributes
  | modifiedGeometryAndAttributes
  | added
  | removed
  | ambiguous
deriving DecidableEq, Repr

namespace Classification

/-- The name under which a classification is stored. -/
def value : Classification → String
  | unchanged => "unchanged"
  | modifiedGeometry => "modified_geometry"
  | modifiedAttributes => "modified_attributes"
  | modifiedGeometryAndAttributes => "modified_geometry_and_attributes"
  | added => "added"
  | removed => "removed"
  | ambiguous => "ambiguous"

end Classification

/-- `CLASSIFICATIONS` -/
def classifications : List Classification :=
  [.unchanged, .modifiedGeometry, .modifiedAttributes,
    .modifiedGeometryAndAttributes, .added, .removed, .ambiguous]

theorem Classification.value_injective :
    Function.Injective Classification.value := by
  intro c d h
  cases c <;> cases d <;> first | rfl | (revert h; decide)

/-- How the two features of a resolved pair were matched. -/
inductive MatchMethod where
  | osmId
  | geometry
deriving DecidableEq, Repr

/-- The name under which a match method is stored. -/
def MatchMethod.value : MatchMethod → String
  | osmId => "osm_id"
  | geometry => "geometry"

/-- One change between two snapshots. -/
structure ChangeRecord where
  classification : Classification
  matchMethod : Option MatchMethod
  matchScore : Option ℚ
  osmIdsA : List String
  osmIdsB : List String
  classificationReason : String
  pairMetrics : Dict (String × String) MatchMetrics
  involvesRepairedGeometry : Bool
  touchesAoiBoundary : Bool
deriving DecidableEq

/-- The key that the output is sorted by. -/
def recordKey (r : ChangeRecord) : List String ×ₗ List String :=
  toLex (r.osmIdsA, r.osmIdsB)

section Records

variable {G J : Type} (sh : Shapely G J)

def involvesRepaired (feats : List (LoadedFeature G)) : Bool :=
  feats.any (·.repaired)

def touchesAoiBoundary (feats : List (LoadedFeature G))
    (aoiBoundary : Option G) : Bool :=
  match aoiBoundary with
  | none => false
  | some boundary =>
      feats.any (fun f => sh.distance f.geometry boundary < aoiBoundaryDistanceM)

/-- The classification of a matched pair. -/
def classifyPair (metrics : MatchMetrics) : Classification :=
  let geometryChanged := metrics.iou < tUnchangedIou
  let attrsChanged := metrics.attrsChanged ≠ []
  if geometryChanged ∧ attrsChanged then .modifiedGeometryAndAttributes
  else if geometryChanged then .modifiedGeometry
  else if attrsChanged then .modifiedAttributes
  else .unchanged

/-- A pair is unchanged when its footprints agree and its attributes are
equal. -/
theorem classifyPair_eq_unchanged_iff {metrics : MatchMetrics} :
    classifyPair metrics = .unchanged ↔
      tUnchangedIou ≤ metrics.iou ∧ metrics.attrsChanged = [] := by
  unfold classifyPair
  by_cases hgeom : metrics.iou < tUnchangedIou <;>
    by_cases hattrs : metrics.attrsChanged = [] <;>
      simp [hgeom, hattrs, not_le.mpr, not_lt.mp]

/-- Stage 5: the record of a resolved pair. -/
def classifyMatched (osmIdA osmIdB : String) (matchMethod : MatchMethod)
    (metrics : MatchMetrics) (featureA featureB : LoadedFeature G)
    (aoiBoundary : Option G) : ChangeRecord :=
  let classification := classifyPair metrics
  { classification := classification
    matchMethod := some matchMethod
    matchScore := some metrics.iou
    osmIdsA := [osmIdA]
    osmIdsB := [osmIdB]
    classificationReason :=
      matchMethod.value ++ "_match_" ++ classification.value
    pairMetrics := Dict.ofList [((osmIdA, osmIdB), metrics)]
    involvesRepairedGeometry := involvesRepaired [featureA, featureB]
    touchesAoiBoundary :=
      touchesAoiBoundary sh [featureA, featureB] aoiBoundary }

/-- The record of a group that is not resolved. -/
def ambiguous (aIds bIds : List String)
    (pairMetrics : Dict (String × String) MatchMetrics) (reason : String)
    (feats : List (LoadedFeature G)) (aoiBoundary : Option G) : ChangeRecord where
  classification := .ambiguous
  matchMethod := none
  matchScore := none
  osmIdsA := sorted aIds
  osmIdsB := sorted bIds
  classificationReason := reason
  pairMetrics := pairMetrics
  involvesRepairedGeometry := involvesRepaired feats
  touchesAoiBoundary := touchesAoiBoundary sh feats aoiBoundary

/-- The record of a feature without a spatial counterpart. -/
def addedOrRemoved (classification : Classification)
    (feature : LoadedFeature G) (aoiBoundary : Option G) : ChangeRecord where
  classification := classification
  matchMethod := none
  matchScore := none
  osmIdsA := if classification = .removed then [feature.osmId] else []
  osmIdsB := if classification = .added then [feature.osmId] else []
  classificationReason := "no_spatial_counterpart"
  pairMetrics := Dict.empty
  involvesRepairedGeometry := involvesRepaired [feature]
  touchesAoiBoundary := touchesAoiBoundary sh [feature] aoiBoundary

end Records

section Pipeline

variable {G J : Type} (sh : Shapely G J)

/-- Stage 1: the record of an id that is in both snapshots. -/
def matchShared (featuresA featuresB : FeatureDict G) (aoiBoundary : Option G)
    (osmId : String) : Except PyError ChangeRecord := do
  let a ← getItem featuresA.toDict osmId
  let b ← getItem featuresB.toDict osmId
  let metrics := computeMetrics sh a b
  pure (classifyMatched sh osmId osmId .osmId metrics a b aoiBoundary)

/-- `b_id in candidate_sets.get(a_id, ())` -/
def isCandidate (candidates : Dict String (List String)) (aId bId : String) :
    Bool :=
  bId ∈ (candidates.get? aId).getD []

/-- The metrics of every candidate pair of a group, by sorted A-id and then by
sorted B-id. -/
def groupMetrics (onlyInA onlyInB : FeatureDict G)
    (candidates : Dict String (List String)) (sortedA sortedB : List String) :
    Except PyError (Dict (String × String) MatchMetrics) := do
  let pairs := (sortedA.product sortedB).filter
    (fun pair => isCandidate candidates pair.1 pair.2)
  let entries ← pairs.mapM fun pair => do
    let a ← getItem onlyInA.toDict pair.1
    let b ← getItem onlyInB.toDict pair.2
    pure (pair, computeMetrics sh a b)
  pure (Dict.ofList entries)

/-- Stage 4: the record of one group. -/
def resolveGroup (order : HashOrder) (onlyInA onlyInB : FeatureDict G)
    (candidates : Dict String (List String)) (aoiBoundary : Option G)
    (group : List String × List String) : Except PyError ChangeRecord := do
  let aIds := order.iter .groupA group.1
  let bIds := order.iter .groupB group.2
  let sortedA := sorted aIds
  let sortedB := sorted bIds
  let pairMetrics ← groupMetrics sh onlyInA onlyInB candidates sortedA sortedB
  let featsA ← sortedA.mapM (getItem onlyInA.toDict)
  let featsB ← sortedB.mapM (getItem onlyInB.toDict)
  let feats := featsA ++ featsB
  match aIds, bIds with
  | [aId], [bId] => do
      let metrics ← getItem pairMetrics (aId, bId)
      if tCrossIdMatch ≤ metrics.iou then do
        let featureA ← getItem onlyInA.toDict aId
        let featureB ← getItem onlyInB.toDict bId
        pure (classifyMatched sh aId bId .geometry metrics featureA featureB
          aoiBoundary)
      else
        pure (ambiguous sh aIds bIds pairMetrics "partial_overlap" feats
          aoiBoundary)
  | [_], _ =>
      pure (ambiguous sh aIds bIds pairMetrics "split_candidate" feats
        aoiBoundary)
  | _, [_] =>
      pure (ambiguous sh aIds bIds pairMetrics "merge_candidate" feats
        aoiBoundary)
  | _, _ =>
      pure (ambiguous sh aIds bIds pairMetrics "complex_cluster" feats
        aoiBoundary)

/-- The record of an id that no group contains. -/
def leftover (classification : Classification) (onlyIn : FeatureDict G)
    (aoiBoundary : Option G) (osmId : String) : Except PyError ChangeRecord := do
  let feature ← getItem onlyIn.toDict osmId
  pure (addedOrRemoved sh classification feature aoiBoundary)

/-- The change records between two snapshots. -/
def buildChangeset (rt : Runtime G) (featuresA featuresB : FeatureDict G)
    (aoiBoundary : Option G) : Except PyError (List ChangeRecord) := do
  let sharedIds := featuresA.keys.filter (· ∈ featuresB.keys)
  let onlyInA := featuresA.filterIds (· ∉ sharedIds)
  let onlyInB := featuresB.filterIds (· ∉ sharedIds)
  let matched ← (rt.iter .sharedIds sharedIds).mapM
    (matchShared sh featuresA featuresB aoiBoundary)
  let candidates := generateCandidates sh rt onlyInA onlyInB
  let groups := connectedComponents rt.toHashOrder candidates
  let resolved ← groups.mapM
    (resolveGroup sh rt.toHashOrder onlyInA onlyInB candidates aoiBoundary)
  let matchedA := groups.flatMap Prod.fst
  let matchedB := groups.flatMap Prod.snd
  let removed ← (rt.iter .leftA (onlyInA.keys.filter (· ∉ matchedA))).mapM
    (leftover sh .removed onlyInA aoiBoundary)
  let added ← (rt.iter .leftB (onlyInB.keys.filter (· ∉ matchedB))).mapM
    (leftover sh .added onlyInB aoiBoundary)
  pure (sortBy recordKey (matched ++ resolved ++ removed ++ added))

end Pipeline

end VectorMapChanges
