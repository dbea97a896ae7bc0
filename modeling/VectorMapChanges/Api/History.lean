import VectorMapChanges.Api.Main
import VectorMapChanges.Lib.SortBy
import VectorMapChanges.Raster
import Mathlib.Data.Prod.Lex

/-!
# The history of a building

`get_feature_history` answers with two queries.  The history joins the footprints
of a building with the snapshots of one source query version; the participation
joins the changes that name it with their changesets and snapshots, and asks for
no version.

Rows that a query leaves in no order are in that of their tables.

Main facts:
* `mem_featureHistory`, `mem_featureChangeParticipation`: the rows of the two
  queries;
* `filter_featureChangeParticipation`: a change takes part once;
* `nodup_featureHistory`: what tells the snapshots of a version apart tells the
  entries of a history apart;
* `participation_ofVersion_iff`: when the participation speaks of the version of
  the history;
* `interval_of_one_version`: when no interval is reported for two versions.
-/

namespace VectorMapChanges
namespace Api

open Lib

section Queries

variable {G J : Type}

/-- What PostGIS computes for the history from a stored footprint. -/
structure HistoryGis (G J : Type) where
  asGeoJson : G → J
  /-- `ST_Area(ST_Transform(geom, 2039))` -/
  area2039 : G → ℚ

/-- A row of `GET_FEATURE_HISTORY`. -/
structure HistoryEntry (J : Type) where
  snapshotId : Nat
  requestedTime : Instant
  building : Option String
  category : Option String
  name : Option String
  rawTags : Dict String String
  originalValid : Bool
  repairMethod : Option String
  geometry : J
  areaM2 : ℚ
deriving DecidableEq

/-- The selected row of a footprint and its snapshot. -/
def historyEntry (gis : HistoryGis G J) (sf : SnapshotFeatureRow G)
    (s : Nat × SnapshotRow) : HistoryEntry J where
  snapshotId := s.1
  requestedTime := s.2.requestedTime
  building := sf.building
  category := sf.category
  name := sf.name
  rawTags := sf.rawTags
  originalValid := sf.originalValid
  repairMethod := sf.repairMethod
  geometry := gis.asGeoJson sf.geom
  areaM2 := gis.area2039 sf.geom

/-- The footprints of a building, joined with the snapshots of a version. -/
def joinedHistory (gis : HistoryGis G J) (db : Database G)
    (osmId sourceQueryVersion : String) : List (HistoryEntry J) :=
  (db.snapshotFeatures.rows.filter (fun sf => sf.2.osmId = osmId)).flatMap fun sf =>
    (db.snapshots.rows.filter (fun s =>
      s.1 = sf.2.snapshotId ∧ s.2.sourceQueryVersion = sourceQueryVersion)).map
        fun s => historyEntry gis sf.2 s

/-- `GET_FEATURE_HISTORY` -/
def featureHistory (gis : HistoryGis G J) (db : Database G)
    (osmId sourceQueryVersion : String) : List (HistoryEntry J) :=
  sortBy (fun e => e.requestedTime.seconds)
    (joinedHistory gis db osmId sourceQueryVersion)

/-- A row of `GET_FEATURE_CHANGE_PARTICIPATION`. -/
structure ChangeParticipation where
  changeFeatureId : Nat
  changesetId : Nat
  classification : String
  timeA : Instant
  timeB : Instant
deriving DecidableEq

/-- `osm_id = ANY(osm_ids_a) OR osm_id = ANY(osm_ids_b)` -/
def NamesBuilding (osmId : String) (cf : ChangeFeatureRow G) : Prop :=
  osmId ∈ cf.osmIdsA ∨ osmId ∈ cf.osmIdsB

instance (osmId : String) (cf : ChangeFeatureRow G) :
    Decidable (NamesBuilding osmId cf) :=
  inferInstanceAs (Decidable (osmId ∈ cf.osmIdsA ∨ osmId ∈ cf.osmIdsB))

/-- The selected row of a change between two snapshots. -/
def participation (cf : Nat × ChangeFeatureRow G) (sa sb : Nat × SnapshotRow) :
    ChangeParticipation where
  changeFeatureId := cf.1
  changesetId := cf.2.changesetId
  classification := cf.2.classification
  timeA := sa.2.requestedTime
  timeB := sb.2.requestedTime

/-- A change, joined with its changeset and the two snapshots. -/
def joinedParticipation (db : Database G) (cf : Nat × ChangeFeatureRow G) :
    List ChangeParticipation :=
  (db.changesets.rows.filter (fun c => c.1 = cf.2.changesetId)).flatMap fun c =>
    (db.snapshots.rows.filter (fun s => s.1 = c.2.snapshotAId)).flatMap fun sa =>
      (db.snapshots.rows.filter (fun s => s.1 = c.2.snapshotBId)).map fun sb =>
        participation cf sa sb

/-- `GET_FEATURE_CHANGE_PARTICIPATION` -/
def featureChangeParticipation (db : Database G) (osmId : String) :
    List ChangeParticipation :=
  sortBy (fun p => toLex (p.timeA.seconds, p.timeB.seconds))
    ((db.changeFeatures.rows.filter (fun cf => NamesBuilding osmId cf.2)).flatMap
      (joinedParticipation db))

/-- `FeatureHistory` -/
structure FeatureHistory (J : Type) where
  osmId : String
  history : List (HistoryEntry J)
  changes : List ChangeParticipation
deriving DecidableEq

/-- `GET /api/history/{osm_id:path}` -/
def getFeatureHistory (gis : HistoryGis G J) (db : Database G)
    (osmId sourceQueryVersion : String) : Except HttpError (FeatureHistory J) :=
  let history := featureHistory gis db osmId sourceQueryVersion
  if history = [] then
    .error ⟨404, "no snapshot contains feature " ++ reprStr osmId⟩
  else
    .ok ⟨osmId, history, featureChangeParticipation db osmId⟩

end Queries

section Rows

variable {G J : Type} {gis : HistoryGis G J} {db : Database G}
  {osmId sourceQueryVersion : String}

/-- The building has a footprint in the snapshot. -/
def HeldIn (db : Database G) (osmId : String) (snapshotId : Nat) : Prop :=
  ∃ sf ∈ db.snapshotFeatures.rows,
    sf.2.snapshotId = snapshotId ∧ sf.2.osmId = osmId

instance (db : Database G) (osmId : String) (snapshotId : Nat) :
    Decidable (HeldIn db osmId snapshotId) :=
  inferInstanceAs (Decidable (∃ sf ∈ db.snapshotFeatures.rows,
    sf.2.snapshotId = snapshotId ∧ sf.2.osmId = osmId))

/-- A stored snapshot of the version. -/
def IsSnapshotOf (db : Database G) (sourceQueryVersion : String)
    (s : Nat × SnapshotRow) : Prop :=
  s ∈ db.snapshots.rows ∧ s.2.sourceQueryVersion = sourceQueryVersion

instance (db : Database G) (sourceQueryVersion : String) (s : Nat × SnapshotRow) :
    Decidable (IsSnapshotOf db sourceQueryVersion s) :=
  inferInstanceAs (Decidable
    (s ∈ db.snapshots.rows ∧ s.2.sourceQueryVersion = sourceQueryVersion))

theorem mem_featureHistory {e : HistoryEntry J} :
    e ∈ featureHistory gis db osmId sourceQueryVersion ↔
      ∃ sf ∈ db.snapshotFeatures.rows, sf.2.osmId = osmId ∧
        ∃ s, IsSnapshotOf db sourceQueryVersion s ∧ s.1 = sf.2.snapshotId ∧
          e = historyEntry gis sf.2 s := by
  simp only [featureHistory, mem_sortBy, joinedHistory, List.mem_flatMap,
    List.mem_map, List.mem_filter, decide_eq_true_eq, IsSnapshotOf]
  constructor
  · rintro ⟨sf, ⟨hsf, hid⟩, s, ⟨hs, hsid, hv⟩, rfl⟩
    exact ⟨sf, hsf, hid, s, ⟨hs, hv⟩, hsid, rfl⟩
  · rintro ⟨sf, hsf, hid, s, ⟨hs, hv⟩, hsid, rfl⟩
    exact ⟨sf, ⟨hsf, hid⟩, s, ⟨hs, hsid, hv⟩, rfl⟩

/-- An entry for each snapshot of the version that holds the building. -/
theorem exists_mem_featureHistory_iff (gis : HistoryGis G J) (osmId : String)
    {s : Nat × SnapshotRow} (hs : IsSnapshotOf db sourceQueryVersion s) :
    (∃ e ∈ featureHistory gis db osmId sourceQueryVersion,
      e.snapshotId = s.1 ∧ e.requestedTime = s.2.requestedTime) ↔
      HeldIn db osmId s.1 := by
  constructor
  · rintro ⟨e, he, hid, -⟩
    obtain ⟨sf, hsf, hosm, s', hs', hsid, rfl⟩ := mem_featureHistory.mp he
    have heq : s' = s := db.snapshots.eq_of_id_eq hs'.1 hs.1 hid
    rw [heq] at hsid
    exact ⟨sf, hsf, hsid.symm, hosm⟩
  · rintro ⟨sf, hsf, hsid, hosm⟩
    exact ⟨historyEntry gis sf.2 s,
      mem_featureHistory.mpr ⟨sf, hsf, hosm, s, hs, hsid.symm, rfl⟩, rfl, rfl⟩

/-- The request is answered when some snapshot of the version holds the
building. -/
theorem getFeatureHistory_eq_ok_iff {answer : FeatureHistory J} :
    getFeatureHistory gis db osmId sourceQueryVersion = .ok answer ↔
      (∃ s, IsSnapshotOf db sourceQueryVersion s ∧ HeldIn db osmId s.1) ∧
        answer = ⟨osmId, featureHistory gis db osmId sourceQueryVersion,
          featureChangeParticipation db osmId⟩ := by
  have hheld : featureHistory gis db osmId sourceQueryVersion ≠ [] ↔
      ∃ s, IsSnapshotOf db sourceQueryVersion s ∧ HeldIn db osmId s.1 := by
    constructor
    · intro hne
      obtain ⟨e, he⟩ := List.exists_mem_of_ne_nil _ hne
      obtain ⟨sf, hsf, hosm, s, hs, hsid, -⟩ := mem_featureHistory.mp he
      exact ⟨s, hs, sf, hsf, hsid.symm, hosm⟩
    · rintro ⟨s, hs, hin⟩
      obtain ⟨e, he, -⟩ := (exists_mem_featureHistory_iff gis osmId hs).mpr hin
      exact List.ne_nil_of_mem he
  rw [← hheld, getFeatureHistory]
  by_cases hnil : featureHistory gis db osmId sourceQueryVersion = []
  · rw [if_pos hnil]
    constructor
    · intro h
      cases h
    · rintro ⟨hne, -⟩
      exact absurd hnil hne
  · rw [if_neg hnil]
    constructor
    · intro h
      exact ⟨hnil, (Except.ok.inj h).symm⟩
    · rintro ⟨-, rfl⟩
      rfl

/-- A change whose changeset and snapshots are stored is joined once. -/
theorem joinedParticipation_eq {cf : Nat × ChangeFeatureRow G}
    {c : Nat × ChangesetRow} {sa sb : Nat × SnapshotRow}
    (hc : c ∈ db.changesets.rows) (hcid : c.1 = cf.2.changesetId)
    (hsa : sa ∈ db.snapshots.rows) (hsaid : sa.1 = c.2.snapshotAId)
    (hsb : sb ∈ db.snapshots.rows) (hsbid : sb.1 = c.2.snapshotBId) :
    joinedParticipation db cf = [participation cf sa sb] := by
  rw [joinedParticipation, ← hcid, db.changesets.filter_id hc,
    List.flatMap_singleton, ← hsaid, db.snapshots.filter_id hsa,
    List.flatMap_singleton, ← hsbid, db.snapshots.filter_id hsb,
    List.map_singleton]

/-- The rows of a query carry the id of the change that they join. -/
theorem changeFeatureId_of_mem_joinedParticipation
    {cf : Nat × ChangeFeatureRow G} {p : ChangeParticipation}
    (h : p ∈ joinedParticipation db cf) : p.changeFeatureId = cf.1 := by
  simp only [joinedParticipation, List.mem_flatMap, List.mem_map] at h
  obtain ⟨c, -, sa, -, sb, -, rfl⟩ := h
  rfl

/-- A change that names the building takes part once. -/
theorem filter_featureChangeParticipation {cf : Nat × ChangeFeatureRow G}
    {p : ChangeParticipation} (hcf : cf ∈ db.changeFeatures.rows)
    (hnames : NamesBuilding osmId cf.2) (hp : joinedParticipation db cf = [p]) :
    (featureChangeParticipation db osmId).filter
      (fun q => q.changeFeatureId = cf.1) = [p] := by
  have hjoin : ∀ x ∈ db.changeFeatures.rows.filter
      (fun cf => NamesBuilding osmId cf.2), ∀ q ∈ joinedParticipation db x,
        decide (q.changeFeatureId = cf.1) = decide (x.1 = cf.1) := by
    intro x _ q hq
    rw [changeFeatureId_of_mem_joinedParticipation hq]
  have hone : (db.changeFeatures.rows.filter
      (fun cf => NamesBuilding osmId cf.2)).filter (fun x => x.1 = cf.1) = [cf] := by
    rw [List.filter_comm, db.changeFeatures.filter_id hcf]
    exact List.filter_cons_of_pos (decide_eq_true hnames)
  have hperm := (sortBy_perm (fun p => toLex (p.timeA.seconds, p.timeB.seconds))
    ((db.changeFeatures.rows.filter (fun cf => NamesBuilding osmId cf.2)).flatMap
      (joinedParticipation db))).filter (fun q => q.changeFeatureId = cf.1)
  rw [filter_flatMap_of_forall hjoin, hone, List.flatMap_singleton, hp] at hperm
  exact List.perm_singleton.mp hperm

/-- No two snapshots of the version have the same value of `f`. -/
def Separates {κ : Type} (f : Instant → κ) (db : Database G)
    (sourceQueryVersion : String) : Prop :=
  ∀ s ∈ db.snapshots.rows, ∀ s' ∈ db.snapshots.rows,
    s.2.sourceQueryVersion = sourceQueryVersion →
      s'.2.sourceQueryVersion = sourceQueryVersion →
        f s.2.requestedTime = f s'.2.requestedTime → s = s'

instance {κ : Type} [DecidableEq κ] (f : Instant → κ) (db : Database G)
    (sourceQueryVersion : String) : Decidable (Separates f db sourceQueryVersion) :=
  inferInstanceAs (Decidable (∀ s ∈ db.snapshots.rows, ∀ s' ∈ db.snapshots.rows,
    s.2.sourceQueryVersion = sourceQueryVersion →
      s'.2.sourceQueryVersion = sourceQueryVersion →
        f s.2.requestedTime = f s'.2.requestedTime → s = s'))

/-- What tells the snapshots of a version apart tells the entries apart. -/
theorem nodup_featureHistory (gis : HistoryGis G J) (osmId : String) {κ : Type}
    {f : Instant → κ} (hf : Separates f db sourceQueryVersion) :
    ((featureHistory gis db osmId sourceQueryVersion).map
      (fun e => f e.requestedTime)).Nodup := by
  rw [featureHistory, ((sortBy_perm _ _).map _).nodup_iff]
  rw [List.Nodup, List.pairwise_map, joinedHistory, List.pairwise_flatMap]
  constructor
  · -- one footprint: the snapshots joined to it have its id
    intro sf _
    have hnodup : db.snapshots.rows.Nodup :=
      List.Nodup.of_map Prod.fst db.snapshots.nodupIds
    rw [List.pairwise_map]
    refine List.Pairwise.imp_of_mem ?_ (hnodup.filter _)
    intro s s' hs hs' hne heq
    simp only [List.mem_filter, decide_eq_true_eq] at hs hs'
    exact hne (hf s hs.1 s' hs'.1 hs.2.2 hs'.2.2 heq)
  · -- two footprints of one building are in different snapshots
    have hkeys := List.pairwise_map.mp db.snapshotFeatures.nodupKeys
    refine List.Pairwise.imp_of_mem ?_ (hkeys.sublist List.filter_sublist)
    intro sf sf' hsf hsf' hkey e he e' he' heq
    simp only [List.mem_filter, List.mem_map, decide_eq_true_eq] at hsf hsf' he he'
    obtain ⟨s, ⟨hs, hsid, hv⟩, rfl⟩ := he
    obtain ⟨s', ⟨hs', hsid', hv'⟩, rfl⟩ := he'
    have hsame : s = s' := hf s hs s' hs' hv hv' heq
    apply hkey
    rw [SnapshotFeatureRow.naturalKey, SnapshotFeatureRow.naturalKey, ← hsid,
      ← hsid', hsame, hsf.2, hsf'.2]

/-- The entries of snapshots of different instants are strictly sorted. -/
theorem pairwise_lt_featureHistory (gis : HistoryGis G J) (osmId : String)
    (h : Separates Instant.seconds db sourceQueryVersion) :
    (featureHistory gis db osmId sourceQueryVersion).Pairwise
      (fun e e' => e.requestedTime.seconds < e'.requestedTime.seconds) := by
  have hnodup := nodup_featureHistory gis osmId h
  rw [featureHistory, ((sortBy_perm _ _).map _).nodup_iff] at hnodup
  exact pairwise_lt_sortBy hnodup

end Rows

section Versions

variable {G J : Type}

/-- The reported interval is that of a stored changeset, both of whose snapshots
are of the version. -/
def OfVersion (db : Database G) (sourceQueryVersion : String)
    (p : ChangeParticipation) : Prop :=
  ∃ c ∈ db.changesets.rows, c.1 = p.changesetId ∧
    ∃ sa ∈ db.snapshots.rows, ∃ sb ∈ db.snapshots.rows,
      (sa.1 = c.2.snapshotAId ∧ sb.1 = c.2.snapshotBId) ∧
      (sa.2.sourceQueryVersion = sourceQueryVersion ∧
        sb.2.sourceQueryVersion = sourceQueryVersion) ∧
      p.timeA = sa.2.requestedTime ∧ p.timeB = sb.2.requestedTime

instance (db : Database G) (sourceQueryVersion : String)
    (p : ChangeParticipation) : Decidable (OfVersion db sourceQueryVersion p) :=
  inferInstanceAs (Decidable (∃ c ∈ db.changesets.rows, c.1 = p.changesetId ∧
    ∃ sa ∈ db.snapshots.rows, ∃ sb ∈ db.snapshots.rows,
      (sa.1 = c.2.snapshotAId ∧ sb.1 = c.2.snapshotBId) ∧
      (sa.2.sourceQueryVersion = sourceQueryVersion ∧
        sb.2.sourceQueryVersion = sourceQueryVersion) ∧
      p.timeA = sa.2.requestedTime ∧ p.timeB = sb.2.requestedTime))

/-- A stored change that names the building, with its changeset and the two
snapshots of that. -/
structure NamedBetween (db : Database G) (osmId : String)
    (cf : Nat × ChangeFeatureRow G) (c : Nat × ChangesetRow)
    (sa sb : Nat × SnapshotRow) : Prop where
  change : cf ∈ db.changeFeatures.rows
  names : NamesBuilding osmId cf.2
  changeset : c ∈ db.changesets.rows
  changesetId : c.1 = cf.2.changesetId
  snapshotA : sa ∈ db.snapshots.rows
  snapshotAId : sa.1 = c.2.snapshotAId
  snapshotB : sb ∈ db.snapshots.rows
  snapshotBId : sb.1 = c.2.snapshotBId

instance [DecidableEq G] (db : Database G) (osmId : String)
    (cf : Nat × ChangeFeatureRow G) (c : Nat × ChangesetRow)
    (sa sb : Nat × SnapshotRow) : Decidable (NamedBetween db osmId cf c sa sb) :=
  decidable_of_iff
    ((cf ∈ db.changeFeatures.rows ∧ NamesBuilding osmId cf.2) ∧
      (c ∈ db.changesets.rows ∧ c.1 = cf.2.changesetId) ∧
      (sa ∈ db.snapshots.rows ∧ sa.1 = c.2.snapshotAId) ∧
      sb ∈ db.snapshots.rows ∧ sb.1 = c.2.snapshotBId)
    ⟨fun ⟨⟨h₁, h₂⟩, ⟨h₃, h₄⟩, ⟨h₅, h₆⟩, h₇, h₈⟩ => ⟨h₁, h₂, h₃, h₄, h₅, h₆, h₇, h₈⟩,
      fun ⟨h₁, h₂, h₃, h₄, h₅, h₆, h₇, h₈⟩ => ⟨⟨h₁, h₂⟩, ⟨h₃, h₄⟩, ⟨h₅, h₆⟩, h₇, h₈⟩⟩

variable {db : Database G} {osmId : String} {cf : Nat × ChangeFeatureRow G}
  {c : Nat × ChangesetRow} {sa sb : Nat × SnapshotRow}

theorem NamedBetween.joined (h : NamedBetween db osmId cf c sa sb) :
    joinedParticipation db cf = [participation cf sa sb] :=
  joinedParticipation_eq h.changeset h.changesetId h.snapshotA h.snapshotAId
    h.snapshotB h.snapshotBId

/-- The participation reports the changes that name the building. -/
theorem mem_featureChangeParticipation {p : ChangeParticipation} :
    p ∈ featureChangeParticipation db osmId ↔
      ∃ cf c sa sb, NamedBetween db osmId cf c sa sb ∧
        p = participation cf sa sb := by
  simp only [featureChangeParticipation, mem_sortBy, List.mem_flatMap,
    List.mem_filter, decide_eq_true_eq]
  constructor
  · rintro ⟨cf, ⟨hcf, hnames⟩, hp⟩
    simp only [joinedParticipation, List.mem_flatMap, List.mem_map,
      List.mem_filter, decide_eq_true_eq] at hp
    obtain ⟨c, ⟨hc, hcid⟩, sa, ⟨hsa, hsaid⟩, sb, ⟨hsb, hsbid⟩, rfl⟩ := hp
    exact ⟨cf, c, sa, sb, ⟨hcf, hnames, hc, hcid, hsa, hsaid, hsb, hsbid⟩, rfl⟩
  · rintro ⟨cf, c, sa, sb, h, rfl⟩
    refine ⟨cf, ⟨h.change, h.names⟩, ?_⟩
    rw [h.joined]
    exact List.mem_singleton_self _

/-- A reported change is of the version of its own snapshots. -/
theorem NamedBetween.ofVersion_iff (h : NamedBetween db osmId cf c sa sb)
    (sourceQueryVersion : String) :
    OfVersion db sourceQueryVersion (participation cf sa sb) ↔
      sa.2.sourceQueryVersion = sourceQueryVersion ∧
        sb.2.sourceQueryVersion = sourceQueryVersion := by
  constructor
  · rintro ⟨c', hc', hcid', sa', hsa', sb', hsb', ⟨hsaid', hsbid'⟩, hversions, -⟩
    have hc : c' = c :=
      db.changesets.eq_of_id_eq hc' h.changeset (hcid'.trans h.changesetId.symm)
    rw [hc] at hsaid' hsbid'
    rwa [db.snapshots.eq_of_id_eq hsa' h.snapshotA
        (hsaid'.trans h.snapshotAId.symm),
      db.snapshots.eq_of_id_eq hsb' h.snapshotB
        (hsbid'.trans h.snapshotBId.symm)] at hversions
  · intro hversions
    exact ⟨c, h.changeset, h.changesetId, sa, h.snapshotA, sb, h.snapshotB,
      ⟨h.snapshotAId, h.snapshotBId⟩, hversions, rfl, rfl⟩

/-- A changeset is of one version at most. -/
theorem OfVersion.eq {p : ChangeParticipation} {version version' : String}
    (h : OfVersion db version p) (h' : OfVersion db version' p) :
    version = version' := by
  obtain ⟨c, hc, hcid, sa, hsa, -, -, ⟨hsaid, -⟩, ⟨hv, -⟩, -⟩ := h
  obtain ⟨c', hc', hcid', sa', hsa', -, -, ⟨hsaid', -⟩, ⟨hv', -⟩, -⟩ := h'
  obtain rfl := db.changesets.eq_of_id_eq hc hc' (hcid.trans hcid'.symm)
  obtain rfl := db.snapshots.eq_of_id_eq hsa hsa' (hsaid.trans hsaid'.symm)
  exact hv.symm.trans hv'

/-- If a building has been named in comparisons of one version only, then no
interval is reported for it under two versions. -/
theorem interval_of_one_version {sourceQueryVersion : String}
    (hnamed : ∀ cf c sa sb, NamedBetween db osmId cf c sa sb →
      sa.2.sourceQueryVersion = sourceQueryVersion ∧
        sb.2.sourceQueryVersion = sourceQueryVersion) :
    ¬ ∃ p ∈ featureChangeParticipation db osmId,
      ∃ q ∈ featureChangeParticipation db osmId,
        (p.timeA = q.timeA ∧ p.timeB = q.timeB) ∧
        ∃ version version', version ≠ version' ∧
          OfVersion db version p ∧ OfVersion db version' q := by
  have hall : ∀ p ∈ featureChangeParticipation db osmId,
      OfVersion db sourceQueryVersion p := by
    intro p hp
    obtain ⟨cf, c, sa, sb, h, rfl⟩ := mem_featureChangeParticipation.mp hp
    exact (h.ofVersion_iff _).mpr (hnamed cf c sa sb h)
  rintro ⟨p, hp, q, hq, -, version, version', hne, hversion, hversion'⟩
  exact hne ((hversion.eq (hall p hp)).trans ((hall q hq).eq hversion'))

/-- An answer speaks of one version exactly if the building has been named in
comparisons of that version only.  Its dates are then those of snapshots of the
version, of which the history need not have both: an added or removed building is in
one only. -/
theorem participation_ofVersion_iff (gis : HistoryGis G J) (db : Database G)
    (osmId sourceQueryVersion : String) :
    (∀ answer, getFeatureHistory gis db osmId sourceQueryVersion = .ok answer →
      ∀ p ∈ answer.changes, OfVersion db sourceQueryVersion p) ↔
    (∀ s, IsSnapshotOf db sourceQueryVersion s → ¬ HeldIn db osmId s.1) ∨
      ∀ cf c sa sb, NamedBetween db osmId cf c sa sb →
        sa.2.sourceQueryVersion = sourceQueryVersion ∧
          sb.2.sourceQueryVersion = sourceQueryVersion := by
  constructor
  · intro hall
    rw [or_iff_not_imp_left]
    intro hheld cf c sa sb h
    push Not at hheld
    have hmem := mem_featureChangeParticipation.mpr ⟨cf, c, sa, sb, h, rfl⟩
    have hok : getFeatureHistory gis db osmId sourceQueryVersion =
        .ok ⟨osmId, featureHistory gis db osmId sourceQueryVersion,
          featureChangeParticipation db osmId⟩ :=
      getFeatureHistory_eq_ok_iff.mpr ⟨hheld, rfl⟩
    exact (h.ofVersion_iff _).mp (hall _ hok _ hmem)
  · rintro (hnone | hnamed) answer hanswer p hp
    · obtain ⟨⟨s, hs, hheld⟩, -⟩ := getFeatureHistory_eq_ok_iff.mp hanswer
      exact absurd hheld (hnone s hs)
    · obtain ⟨-, rfl⟩ := getFeatureHistory_eq_ok_iff.mp hanswer
      obtain ⟨cf, c, sa, sb, h, rfl⟩ := mem_featureChangeParticipation.mp hp
      exact (h.ofVersion_iff _).mpr (hnamed cf c sa sb h)

end Versions

section Samples

/-- Footprints of squares for the history. -/
def rasterHistory : HistoryGis Raster Raster where
  asGeoJson := id
  area2039 g := g.squares.card

/-- The building `way/1` as a snapshot has it. -/
def footprint (snapshotId : Nat) (squares : Finset (ℤ × ℤ)) :
    SnapshotFeatureRow Raster where
  snapshotId := snapshotId
  osmId := "way/1"
  osmType := "way"
  building := some "yes"
  category := some "unknown"
  name := none
  rawTags := Dict.ofList [("building", "yes")]
  originalValid := true
  repairMethod := none
  geom := Raster.region squares
  geom3857 := Raster.region squares

/-- What a changeset says of `way/1`. -/
def changeOf (changesetId : Nat) (k : Classification) (hk : k ≠ .unchanged) :
    ChangeFeatureRow Raster where
  changesetId := changesetId
  classification := k.value
  matchMethod := none
  matchScore := none
  classificationReason := "sample"
  osmIdsA := if k = .added then [] else ["way/1"]
  osmIdsB := if k = .removed then [] else ["way/1"]
  involvesRepairedGeometry := false
  touchesAoiBoundary := false
  iou := none
  iouCentroidAligned := none
  centroidShiftM := none
  areaRatio := none
  hausdorffM := none
  attrsChanged := []
  candidates := []
  geomA := if k = .added then none else some (Raster.region {(0, 0)})
  geomB := if k = .removed then none else some (Raster.region {(0, 0)})
  geomRender3857 := Raster.region {(0, 0)}
  noUnchanged := by cases k <;> first | exact absurd rfl hk | decide
  addedHasB := by cases k <;> decide
  removedHasA := by cases k <;> decide

/-- A table with these rows. -/
def stored {ρ κ : Type} [DecidableEq κ] {key : ρ → κ} (rows : List ρ) :
    KeyedTable key :=
  rows.foldl (fun table row => (table.insertOrIgnore row).2) .empty

/-- Two dates, ingested once with each of two source query versions. -/
def reingested : Database Raster where
  snapshots := stored
    [{ Raster.snapshotRow ⟨2026, 6, 1, 0, 0, 0⟩ with sourceQueryVersion := "v1" },
      { Raster.snapshotRow ⟨2026, 7, 1, 0, 0, 0⟩ with sourceQueryVersion := "v1" },
      Raster.snapshotRow ⟨2026, 6, 1, 0, 0, 0⟩,
      Raster.snapshotRow ⟨2026, 7, 1, 0, 0, 0⟩]
  changesets := stored
    [Raster.changesetRow,
      { Raster.changesetRow with snapshotAId := 3, snapshotBId := 4 }]
  snapshotFeatures := stored
    [footprint 1 {(0, 0)}, footprint 2 {(0, 0), (1, 0)}, footprint 3 {(0, 0)},
      footprint 4 {(0, 0), (1, 0)}]
  changeFeatures := SerialTable.empty.insertAll
    [changeOf 1 .modifiedGeometry (by decide),
      changeOf 2 .modifiedGeometry (by decide)]

/-- One interval is reported once for each version. -/
theorem interval_reported_per_version :
    ∃ answer, getFeatureHistory rasterHistory reingested "way/1" "v2" = .ok answer ∧
      answer.changes.map (fun p => (p.changesetId, p.timeA, p.timeB)) =
        [(1, ⟨2026, 6, 1, 0, 0, 0⟩, ⟨2026, 7, 1, 0, 0, 0⟩),
          (2, ⟨2026, 6, 1, 0, 0, 0⟩, ⟨2026, 7, 1, 0, 0, 0⟩)] ∧
      ¬ ∀ p ∈ answer.changes, OfVersion reingested "v2" p := by
  have hheld : ∃ s ∈ reingested.snapshots.rows,
      s.2.sourceQueryVersion = "v2" ∧ HeldIn reingested "way/1" s.1 := by
    decide +kernel
  obtain ⟨s, hs, hv, hin⟩ := hheld
  refine ⟨_, getFeatureHistory_eq_ok_iff.mpr ⟨⟨s, ⟨hs, hv⟩, hin⟩, rfl⟩, ?_, ?_⟩
  · decide +kernel
  · decide +kernel

end Samples

end Api
end VectorMapChanges
