import VectorMapChanges.Matching.Records

/-!
# No loss, no duplication

Every feature of either snapshot is in exactly one change record, whatever the
geometry operations return.

Main facts:
* `namedOnce_of_nodup`: what a list of records names without repetition, it
  names in one of its records;
* `buildChangeset_partition`: the records name the ids of both snapshots once.
-/

namespace VectorMapChanges

open Lib

/-- Exactly one of the records names the id on the given side, and once. -/
def NamedOnce (side : ChangeRecord → List String) (records : List ChangeRecord)
    (osmId : String) : Prop :=
  ∃ before r after, records = before ++ r :: after ∧
    (side r).count osmId = 1 ∧ ∀ s ∈ before ++ after, osmId ∉ side s

theorem namedOnce_of_nodup {side : ChangeRecord → List String}
    {records : List ChangeRecord} {osmId : String}
    (hnodup : (records.flatMap side).Nodup)
    (hmem : osmId ∈ records.flatMap side) :
    NamedOnce side records osmId := by
  obtain ⟨r, hr, hid⟩ := List.mem_flatMap.mp hmem
  obtain ⟨before, after, rfl⟩ := List.append_of_mem hr
  obtain ⟨heach, hdisj⟩ := List.nodup_flatMap.mp hnodup
  obtain ⟨-, hafter, hbefore⟩ := List.pairwise_append.mp hdisj
  refine ⟨before, r, after, rfl,
    List.count_eq_one_of_mem (heach r (by simp)) hid, ?_⟩
  intro s hs hids
  rcases List.mem_append.mp hs with hs | hs
  · exact hbefore s hs r (by simp) hids hid
  · exact (List.pairwise_cons.mp hafter).1 s hs hid hids

section Partition

variable {G J : Type}

/-- No loss and no duplication: each id of a snapshot is named in one record,
once, on the side of its snapshot; nothing else is named; and an id of both
snapshots is named on both sides of one record. -/
theorem buildChangeset_partition (sh : Shapely G J) (rt : Runtime G)
    (featuresA featuresB : FeatureDict G) (aoiBoundary : Option G) :
    ∃ records,
      buildChangeset sh rt featuresA featuresB aoiBoundary = .ok records ∧
      (∀ osmId ∈ featuresA.keys, NamedOnce (·.osmIdsA) records osmId) ∧
      (∀ osmId ∈ featuresB.keys, NamedOnce (·.osmIdsB) records osmId) ∧
      (∀ r ∈ records, (∀ osmId ∈ r.osmIdsA, osmId ∈ featuresA.keys) ∧
        ∀ osmId ∈ r.osmIdsB, osmId ∈ featuresB.keys) ∧
      ∀ osmId, osmId ∈ featuresA.keys → osmId ∈ featuresB.keys →
        ∃ r ∈ records, osmId ∈ r.osmIdsA ∧ osmId ∈ r.osmIdsB := by
  obtain ⟨records, hrun, h⟩ :=
    buildChangeset_listed sh rt featuresA featuresB aoiBoundary
  refine ⟨records, hrun, ?_, ?_, h.mem_keys, ?_⟩
  · intro osmId hid
    exact namedOnce_of_nodup (h.idsA.nodup_iff.mpr featuresA.keys_nodup)
      (h.idsA.mem_iff.mpr hid)
  · intro osmId hid
    exact namedOnce_of_nodup (h.idsB.nodup_iff.mpr featuresB.keys_nodup)
      (h.idsB.mem_iff.mpr hid)
  · intro osmId hA hB
    obtain ⟨a, ha⟩ := Dict.exists_get?_of_mem hA
    obtain ⟨b, hb⟩ := Dict.exists_get?_of_mem hB
    refine ⟨_, (h.mem _).mpr (.shared osmId a b ha hb), ?_, ?_⟩
    · simp [classifyMatched]
    · simp [classifyMatched]

end Partition

end VectorMapChanges
