import VectorMapChanges.Matching.Coherence
import VectorMapChanges.Raster

/-!
# What is drawn for a record

The geometry of a record stands for it on the map: the new footprint of a
resolved pair, the one footprint of an addition or a removal, and for an
ambiguous group the union of everything involved.  Points are abstract here;
of a union only its points are known.

Main facts:
* `Describes.recordGeometry_eq`: the drawn geometry is made of the new
  footprints, and of the old ones only where there are no new ones;
* `drawn_iff_oldCovered`: so an ambiguous record is drawn whole exactly when the new
  footprints of its group cover the old ones.
-/

namespace VectorMapChanges

open Lib

section Drawn

variable {G J P : Type} (sh : Shapely G J)

/-- A single geometry, or the union of several. -/
def represent (geoms : List G) : G :=
  match geoms with
  | [geometry] => geometry
  | geoms => sh.unaryUnion geoms

variable {sh}

theorem mem_points_represent (ps : PointSets sh P) (geoms : List G) (p : P) :
    p ∈ ps.points (represent sh geoms) ↔ ∃ g ∈ geoms, p ∈ ps.points g := by
  unfold represent
  split
  · simp
  · exact ps.mem_unaryUnion _ p

/-- The geometry means what the record is: B's footprint of a resolved pair or
an addition, A's of a removal, and every involved footprint of an ambiguous
group. -/
structure MeansRecord (ps : PointSets sh P) (featuresA featuresB : FeatureDict G)
    (r : ChangeRecord) (geometry : G) : Prop where
  ambiguous : r.classification = .ambiguous → ∀ p, p ∈ ps.points geometry ↔
    ∃ f, r.Involves featuresA featuresB f ∧ p ∈ ps.points f.geometry
  current : r.classification.Resolved ∨ r.classification = .added →
    ∃ b f, r.osmIdsB = [b] ∧ featuresB.get? b = some f ∧ geometry = f.geometry
  removed : r.classification = .removed →
    ∃ a f, r.osmIdsA = [a] ∧ featuresA.get? a = some f ∧ geometry = f.geometry

/-- The feature of the layer is the reprojection of a geometry that means the
record. -/
def Drawn (ps : PointSets sh P) (featuresA featuresB : FeatureDict G)
    (r : ChangeRecord) (feature : ChangeFeature J) : Prop :=
  ∃ geometry, recordGeometry sh r featuresA featuresB = .ok geometry ∧
    feature.geometry = some (sh.mapping (toCrs84 sh geometry)) ∧
    MeansRecord ps featuresA featuresB r geometry

/-- The old footprints that an ambiguous record names lie under the new ones
that it names. -/
def OldCovered (ps : PointSets sh P) (featuresA featuresB : FeatureDict G)
    (r : ChangeRecord) : Prop :=
  r.classification = .ambiguous →
    ∀ a ∈ r.osmIdsA, ∀ f, featuresA.get? a = some f → ∀ p ∈ ps.points f.geometry,
      ∃ b ∈ r.osmIdsB, ∃ g, featuresB.get? b = some g ∧ p ∈ ps.points g.geometry

theorem oldCovered_of_ne {ps : PointSets sh P} {featuresA featuresB : FeatureDict G}
    {r : ChangeRecord} (h : r.classification ≠ .ambiguous) :
    OldCovered ps featuresA featuresB r :=
  fun hambiguous => absurd hambiguous h

theorem mapM_geometryOf_of_stored {d : FeatureDict G}
    {fs : List (LoadedFeature G)} (h : Stored d fs) :
    (fs.map (·.osmId)).mapM (geometryOf d) = .ok (fs.map (·.geometry)) := by
  rw [mapM_eq_ok_iff, List.forall₂_map_left_iff, List.forall₂_map_right_iff,
    List.forall₂_same]
  intro f hf
  exact bind_eq_ok.mpr ⟨f, getItem_eq_ok_iff.mpr (h f hf), rfl⟩

section Record

variable {pair : LoadedFeature G → LoadedFeature G → Bool}
  {aoiBoundary : Option G} {featuresA featuresB : FeatureDict G}
  {r : ChangeRecord} {as bs : List (LoadedFeature G)}

/-- The drawn geometry is made of the new footprints, and of the old ones only
where there are no new ones. -/
theorem Describes.recordGeometry_eq
    (h : Describes sh pair aoiBoundary featuresA featuresB r as bs) :
    recordGeometry sh r featuresA featuresB =
      .ok (represent sh ((if bs = [] then as else bs).map (·.geometry))) := by
  have hgeoms : ∀ geoms : List G, (match geoms with
      | [geometry] => pure geometry
      | geoms => pure (sh.unaryUnion geoms) : Except PyError G) =
        .ok (represent sh geoms) := by
    intro geoms
    unfold represent
    split <;> rfl
  simp only [recordGeometry, h.idsA, h.idsB, mapM_geometryOf_of_stored h.storedB,
    ok_bind]
  by_cases hbs : bs = []
  · subst hbs
    have hall : (as.map (·.osmId)).filter
        (fun _ => (([] : List (LoadedFeature G)).map (·.osmId)).isEmpty) =
        as.map (·.osmId) := by
      simp
    rw [hall, mapM_geometryOf_of_stored h.storedA]
    exact hgeoms _
  · have hnone : (as.map (·.osmId)).filter
        (fun _ => (bs.map (·.osmId)).isEmpty) = [] := by
      simp [hbs]
    rw [hnone, if_neg hbs]
    simp only [List.mapM_nil, pure_bind, List.append_nil]
    exact hgeoms _

/-- A resolved record, an addition and a removal are drawn as such; the rest of
the meaning is what the points of an ambiguous record are. -/
theorem Describes.meansRecord_iff (ps : PointSets sh P)
    (h : Describes sh pair aoiBoundary featuresA featuresB r as bs) :
    MeansRecord ps featuresA featuresB r
        (represent sh ((if bs = [] then as else bs).map (·.geometry))) ↔
      OldCovered ps featuresA featuresB r := by
  cases h.verdict with
  | resolved a b hclass _ _ =>
      refine iff_of_true ?_ (oldCovered_of_ne hclass.2.2)
      exact
        { ambiguous := fun hcase => absurd hcase hclass.2.2
          current := fun _ => ⟨b.osmId, b, h.idsB, h.storedB b (by simp), rfl⟩
          removed := fun hcase => absurd hcase hclass.2.1 }
  | ambiguous as bs has hbs hclass _ _ =>
      have hdrawn : ∀ p, p ∈ ps.points
          (represent sh ((if bs = [] then as else bs).map (·.geometry))) ↔
            ∃ g ∈ bs, p ∈ ps.points g.geometry := by
        intro p
        rw [if_neg hbs, mem_points_represent]
        simp
      have hnew : ∀ p, (∃ g ∈ bs, p ∈ ps.points g.geometry) ↔
          ∃ b ∈ r.osmIdsB, ∃ g, featuresB.get? b = some g ∧
            p ∈ ps.points g.geometry := by
        intro p
        rw [h.idsB]
        constructor
        · rintro ⟨g, hg, hp⟩
          exact ⟨g.osmId, List.mem_map_of_mem hg, g, h.storedB g hg, hp⟩
        · rintro ⟨b, hb, g, hg, hp⟩
          obtain rfl := FeatureDict.osmId_of_get? hg
          exact ⟨g, h.storedB.mem_of_osmId_mem rfl hg hb, hp⟩
      constructor
      · intro hmeans _ a ha f hf p hp
        rw [← hnew, ← hdrawn, hmeans.ambiguous hclass]
        exact ⟨f, Or.inl ⟨a, ha, hf⟩, hp⟩
      · intro hcovered
        refine ⟨fun _ p => ?_, ?_, ?_⟩
        · rw [hdrawn]
          constructor
          · rintro ⟨g, hg, hp⟩
            exact ⟨g, (h.involves_iff g).mpr (List.mem_append_right as hg), hp⟩
          · rintro ⟨f, ⟨a, ha, hf⟩ | ⟨b, hb, hf⟩, hp⟩
            · exact (hnew p).mpr (hcovered hclass a ha f hf p hp)
            · exact (hnew p).mpr ⟨b, hb, f, hf, hp⟩
        · simp [hclass, Classification.Resolved]
        · simp [hclass]
  | removed a hclass _ _ =>
      refine iff_of_true ?_ (oldCovered_of_ne (by simp [hclass]))
      exact
        { ambiguous := by simp [hclass]
          current := by simp [hclass, Classification.Resolved]
          removed := fun _ => ⟨a.osmId, a, h.idsA, h.storedA a (by simp), rfl⟩ }
  | added b hclass _ _ =>
      refine iff_of_true ?_ (oldCovered_of_ne (by simp [hclass]))
      exact
        { ambiguous := by simp [hclass]
          current := fun _ => ⟨b.osmId, b, h.idsB, h.storedB b (by simp), rfl⟩
          removed := by simp [hclass] }

/-- The feature of a record that is about features of the snapshots. -/
theorem Describes.drawn_iff (ps : PointSets sh P)
    (h : Describes sh pair aoiBoundary featuresA featuresB r as bs)
    {feature : ChangeFeature J}
    (hfeature : renderRecord sh featuresA featuresB r = .ok feature) :
    Drawn ps featuresA featuresB r feature ↔
      OldCovered ps featuresA featuresB r := by
  obtain ⟨geometry, hgeometry, hfeature⟩ := bind_eq_ok.mp hfeature
  have hdrawn := h.recordGeometry_eq
  obtain rfl := Except.ok.inj (hgeometry.symm.trans hdrawn)
  rw [← h.meansRecord_iff ps, Drawn, ← pure_eq_ok.mp hfeature]
  constructor
  · rintro ⟨geometry, hgeometry', -, hmeans⟩
    rwa [Except.ok.inj (hdrawn.symm.trans hgeometry')]
  · intro hmeans
    exact ⟨_, hdrawn, rfl, hmeans⟩

end Record

/-- Records are rendered, and each is drawn as what it is exactly when it is not
ambiguous or the new footprints of its group cover the old ones. -/
theorem drawn_iff_oldCovered {G J P : Type} (sh : Shapely G J)
    (ps : PointSets sh P) (rt : Runtime G) (featuresA featuresB : FeatureDict G)
    (aoiBoundary : Option G) :
    ∃ records layer,
      buildChangeset sh rt featuresA featuresB aoiBoundary = .ok records ∧
      renderChangeLayer sh records featuresA featuresB = .ok layer ∧
      List.Forall₂ (fun r feature => Drawn ps featuresA featuresB r feature ↔
        OldCovered ps featuresA featuresB r) records layer := by
  apply exists_rendered
  intro r feature pair as bs h _ hfeature
  exact h.drawn_iff ps hfeature

end Drawn

/-- A building moved by half its length under a new id: of its old footprint
only the half under the new one is drawn. -/
theorem moved_building_drawn_by_half :
    let before := Raster.snapshot [Raster.building "way/1" {(0, 0), (1, 0)}]
    let after := Raster.snapshot [Raster.building "way/2" {(1, 0), (2, 0)}]
    ∃ records layer,
      buildChangeset Raster.shapely Raster.exact before after none = .ok records ∧
      renderChangeLayer Raster.shapely records before after = .ok layer ∧
      ¬ List.Forall₂ (Drawn Raster.pointSets before after) records layer := by
  intro before after
  have hrendered : ∃ records layer,
      buildChangeset Raster.shapely Raster.exact before after none = .ok records ∧
      renderChangeLayer Raster.shapely records before after = .ok layer ∧
      List.Forall₂ (fun r feature =>
        Drawn Raster.pointSets before after r feature →
          OldCovered Raster.pointSets before after r ∧ True) records layer := by
    apply exists_rendered
    intro r feature pair as bs h _ hfeature hdrawn
    exact ⟨(h.drawn_iff Raster.pointSets hfeature).mp hdrawn, trivial⟩
  obtain ⟨records, layer, hrecords, hlayer, hcovered⟩ := hrendered
  refine ⟨records, layer, hrecords, hlayer, ?_⟩
  intro hdrawn
  have hall : ∀ r ∈ records, OldCovered Raster.pointSets before after r :=
    ((List.forall₂_and_left _ _).mp
      (List.Forall₂.mp (fun _ _ h => h) hcovered hdrawn)).1
  have hrun : ((buildChangeset Raster.shapely Raster.exact before after
      none).toOption.any fun records => records.any fun r =>
        r.classification = .ambiguous ∧ r.osmIdsA = ["way/1"] ∧
          r.osmIdsB = ["way/2"]) = true := by
    decide +kernel
  obtain ⟨records', hrecords', hcheck⟩ := exists_eq_ok_of_any hrun
  obtain rfl := Except.ok.inj (hrecords.symm.trans hrecords')
  simp only [List.any_eq_true, decide_eq_true_eq] at hcheck
  obtain ⟨r, hr, hclass, hidsA, hidsB⟩ := hcheck
  -- the western square of the old building is under no new one
  obtain ⟨b, hb, g, hg, hp⟩ := hall r hr hclass "way/1" (by simp [hidsA])
    (Raster.building "way/1" {(0, 0), (1, 0)}) rfl (0, 0)
    (Raster.mem_points.mpr (by decide))
  rw [hidsB, List.mem_singleton] at hb
  subst hb
  obtain rfl : Raster.building "way/2" {(1, 0), (2, 0)} = g := Option.some.inj hg
  rw [Raster.mem_points] at hp
  revert hp
  decide

end VectorMapChanges
