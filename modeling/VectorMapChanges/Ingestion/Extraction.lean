import VectorMapChanges.Raster

/-!
# What a repair keeps

A geometry may be a collection, and a collection may hold collections.  The
extraction of polygonal content runs on repaired geometries only and looks at
the parts of the outermost collection.

Main facts:
* `extractPolygonal_of_collection`: the extraction looks at the outermost parts;
* `keepsContent_iff`: when everything polygonal survives, at any depth.
-/

namespace VectorMapChanges

section Extraction

variable {G J P : Type} (sh : Shapely G J)

/-- The second geometry is the first one, or inside it: collections are opened at
every depth. -/
inductive Part : G → G → Prop where
  | self (g : G) : Part g g
  | nested (g member part : G) (hcollection : sh.geomType g = .geometryCollection)
      (hmember : member ∈ sh.geoms g) (hpart : Part member part) :
      Part g part

/-- The polygonal parts of a geometry, at any depth. -/
def PolygonalPart (g part : G) : Prop :=
  Part sh g part ∧ (sh.geomType part).isPolygonal = true

/-- The parts that are neither polygonal nor collections of further parts. -/
def OtherPart (g part : G) : Prop :=
  Part sh g part ∧ (sh.geomType part).isPolygonal = false ∧
    sh.geomType part ≠ .geometryCollection

/-- The geometry that decides: itself if it is valid, else its repair. -/
def validated (g : G) : G :=
  if sh.isValid g then g else sh.makeValid g

/-- Polygonal content is kept: what there is of it, at any depth, is covered by a
polygonal result, and the repair method says whether anything else was
dropped. -/
def KeepsContent (ps : PointSets sh P) (g : G) : Prop :=
  (∃ part, PolygonalPart sh (validated sh g) part) →
    (sh.geomType (validateAndRepair sh g).geometry).isPolygonal = true ∧
    (∀ part, PolygonalPart sh (validated sh g) part →
      ∀ p ∈ ps.points part, p ∈ ps.points (validateAndRepair sh g).geometry) ∧
    ((validateAndRepair sh g).repairMethod = some repairMethodMakeValidExtract ↔
      ∃ part, OtherPart sh (validated sh g) part)

/-- The parts of the outermost collection do: one of them is polygonal, together
they cover the polygonal parts further inside, and there is something to
drop. -/
structure OutermostSuffices (ps : PointSets sh P) (g : G) : Prop where
  collection : sh.geomType g = .geometryCollection
  polygonal : ∃ member ∈ sh.geoms g, (sh.geomType member).isPolygonal = true
  covers : ∀ part, PolygonalPart sh g part → ∀ p ∈ ps.points part,
    ∃ member ∈ sh.geoms g, (sh.geomType member).isPolygonal = true ∧
      p ∈ ps.points member
  other : ∃ part, OtherPart sh g part

/-- The union of polygonal geometries is polygonal. -/
def UnionsPolygons : Prop :=
  ∀ gs, gs ≠ [] → (∀ g ∈ gs, (sh.geomType g).isPolygonal = true) →
    (sh.geomType (sh.unaryUnion gs)).isPolygonal = true

variable {sh}

/-- Only a collection has parts inside. -/
theorem part_iff_eq {g part : G} (h : sh.geomType g ≠ .geometryCollection) :
    Part sh g part ↔ part = g := by
  constructor
  · intro hpart
    cases hpart with
    | self => rfl
    | nested _ _ _ hcollection _ _ => exact absurd hcollection h
  · rintro rfl
    exact Part.self part

theorem ne_collection_of_isPolygonal {g : G}
    (h : (sh.geomType g).isPolygonal = true) :
    sh.geomType g ≠ .geometryCollection := by
  intro hcollection
  rw [hcollection] at h
  cases h

/-- The polygonal members of the outermost collection. -/
def polygonalMembers (sh : Shapely G J) (g : G) : List G :=
  (sh.geoms g).filter (fun part => (sh.geomType part).isPolygonal)

theorem mem_polygonalMembers {g part : G} :
    part ∈ polygonalMembers sh g ↔
      part ∈ sh.geoms g ∧ (sh.geomType part).isPolygonal = true := by
  simp [polygonalMembers]

theorem extractPolygonal_of_isPolygonal {g : G}
    (h : (sh.geomType g).isPolygonal = true) :
    extractPolygonal sh g = some g := by
  rw [extractPolygonal, if_pos h]

theorem extractPolygonal_of_collection {g : G}
    (h : sh.geomType g = .geometryCollection) :
    extractPolygonal sh g =
      if polygonalMembers sh g = [] then none
      else some (sh.unaryUnion (polygonalMembers sh g)) := by
  have hpoly : ¬ (sh.geomType g).isPolygonal = true := by
    rw [h]
    simp [GeomType.isPolygonal]
  simp only [extractPolygonal, if_neg hpoly, if_pos h, List.isEmpty_iff]
  rfl

/-- A valid geometry is kept, and so is its content if it is polygonal
itself. -/
theorem keepsContent_iff_of_valid {g : G} (ps : PointSets sh P)
    (hvalid : sh.isValid g = true) :
    KeepsContent sh ps g ↔
      ((∃ part, PolygonalPart sh g part) → (sh.geomType g).isPolygonal = true) := by
  have hbase : validated sh g = g := if_pos hvalid
  have hresult : (validateAndRepair sh g).geometry = g :=
    validateAndRepair_of_valid hvalid
  have hmethod : (validateAndRepair sh g).repairMethod = none := by
    simp [validateAndRepair, hvalid]
  rw [KeepsContent, hbase, hresult, hmethod]
  constructor
  · intro h hcontent
    exact (h hcontent).1
  · intro h hcontent
    have hpoly := h hcontent
    have hself := ne_collection_of_isPolygonal hpoly
    refine ⟨hpoly, ?_, ?_⟩
    · rintro part ⟨hpart, -⟩ p hp
      rwa [(part_iff_eq hself).mp hpart] at hp
    · refine iff_of_false (by simp) ?_
      rintro ⟨part, hpart, hother, -⟩
      rw [(part_iff_eq hself).mp hpart, hpoly] at hother
      cases hother

/-- A polygonal repair is kept as it is. -/
theorem keepsContent_of_polygonal_repair {g : G} (ps : PointSets sh P)
    (hvalid : ¬ sh.isValid g = true)
    (hpoly : (sh.geomType (sh.makeValid g)).isPolygonal = true) :
    KeepsContent sh ps g := by
  have hbase : validated sh g = sh.makeValid g := if_neg hvalid
  have hrepair : validateAndRepair sh g =
      { geometry := sh.makeValid g
        originalGeometry := g
        originalValid := false
        repairMethod := some repairMethodMakeValid
        repairedValid := sh.isValid (sh.makeValid g) } := by
    simp only [validateAndRepair, if_neg hvalid,
      extractPolygonal_of_isPolygonal hpoly]
    simp
  have hself := ne_collection_of_isPolygonal hpoly
  rw [KeepsContent, hbase, hrepair]
  intro _
  refine ⟨hpoly, ?_, ?_⟩
  · rintro part ⟨hpart, -⟩ p hp
    rwa [(part_iff_eq hself).mp hpart] at hp
  · refine iff_of_false (by simp [repairMethodMakeValid,
      repairMethodMakeValidExtract]) ?_
    rintro ⟨part, hpart, hother, -⟩
    rw [(part_iff_eq hself).mp hpart, hpoly] at hother
    cases hother

/-- Of a repair that is a collection, the outermost parts decide. -/
theorem keepsContent_iff_of_collection {g : G} (ps : PointSets sh P)
    (hunions : UnionsPolygons sh) (hvalid : ¬ sh.isValid g = true)
    (hcollection : sh.geomType (sh.makeValid g) = .geometryCollection)
    (hcontent : ∃ part, PolygonalPart sh (sh.makeValid g) part) :
    KeepsContent sh ps g ↔ OutermostSuffices sh ps (sh.makeValid g) := by
  have hbase : validated sh g = sh.makeValid g := if_neg hvalid
  by_cases hmembers : polygonalMembers sh (sh.makeValid g) = []
  · have hrepair : (validateAndRepair sh g).geometry = sh.makeValid g := by
      simp only [validateAndRepair, if_neg hvalid,
        extractPolygonal_of_collection hcollection, if_pos hmembers]
    refine iff_of_false ?_ ?_
    · intro h
      rw [KeepsContent, hbase, hrepair, hcollection] at h
      cases (h hcontent).1
    · intro h
      obtain ⟨member, hmember, hpoly⟩ := h.polygonal
      have hmem := mem_polygonalMembers.mpr ⟨hmember, hpoly⟩
      rw [hmembers] at hmem
      simp at hmem
  · have hpoly : (sh.geomType (sh.unaryUnion
        (polygonalMembers sh (sh.makeValid g)))).isPolygonal = true :=
      hunions _ hmembers (fun _ hmem => (mem_polygonalMembers.mp hmem).2)
    have htype : sh.geomType
        (sh.unaryUnion (polygonalMembers sh (sh.makeValid g))) ≠
          sh.geomType (sh.makeValid g) := by
      rw [hcollection]
      exact ne_collection_of_isPolygonal hpoly
    have hrepair : (validateAndRepair sh g).geometry =
        sh.unaryUnion (polygonalMembers sh (sh.makeValid g)) ∧
        (validateAndRepair sh g).repairMethod =
          some repairMethodMakeValidExtract := by
      simp only [validateAndRepair, if_neg hvalid,
        extractPolygonal_of_collection hcollection, if_neg hmembers]
      simp [htype]
    rw [KeepsContent, hbase, hrepair.1, hrepair.2]
    simp only [ps.mem_unaryUnion, mem_polygonalMembers, and_assoc]
    constructor
    · intro h
      obtain ⟨-, hcovers, hother⟩ := h hcontent
      obtain ⟨member, hmem⟩ := List.exists_mem_of_ne_nil _ hmembers
      exact ⟨hcollection, ⟨member, mem_polygonalMembers.mp hmem⟩, hcovers,
        hother.mp trivial⟩
    · intro h _
      exact ⟨hpoly, h.covers, iff_of_true trivial h.other⟩

/-- Polygonal content is kept exactly where there is none, where the geometry or
its repair is polygonal itself, and where the outermost parts of a repaired
collection do. -/
theorem keepsContent_iff (ps : PointSets sh P) (hunions : UnionsPolygons sh)
    (g : G) :
    KeepsContent sh ps g ↔
      (¬ ∃ part, PolygonalPart sh (validated sh g) part) ∨
      (sh.geomType (validated sh g)).isPolygonal = true ∨
      (sh.isValid g = false ∧ OutermostSuffices sh ps (validated sh g)) := by
  by_cases hcontent : ∃ part, PolygonalPart sh (validated sh g) part
  · by_cases hvalid : sh.isValid g = true
    · have hbase : validated sh g = g := if_pos hvalid
      rw [keepsContent_iff_of_valid ps hvalid]
      rw [hbase] at hcontent ⊢
      simp [hcontent, hvalid]
    · have hbase : validated sh g = sh.makeValid g := if_neg hvalid
      rw [hbase] at hcontent ⊢
      by_cases hpoly : (sh.geomType (sh.makeValid g)).isPolygonal = true
      · exact iff_of_true (keepsContent_of_polygonal_repair ps hvalid hpoly)
          (Or.inr (Or.inl hpoly))
      · have hcollection : sh.geomType (sh.makeValid g) = .geometryCollection := by
          by_contra hne
          obtain ⟨part, hpart, hpart'⟩ := hcontent
          rw [(part_iff_eq hne).mp hpart] at hpart'
          exact hpoly hpart'
        rw [keepsContent_iff_of_collection ps hunions hvalid hcollection hcontent]
        simp [hcontent, hpoly, hvalid]
  · refine iff_of_true ?_ (Or.inl hcontent)
    intro h
    exact absurd h hcontent

end Extraction

theorem Raster.unionsPolygons : UnionsPolygons Raster.shapely :=
  Raster.keepsPolygons.unaryUnion

/-- A bowtie is repaired to a polygonal geometry, and nothing is dropped. -/
theorem keepsContent_iff_bowtie :
    KeepsContent Raster.shapely Raster.pointSets
      { Raster.polygon {(0, 0), (1, 1)} with valid := false } :=
  (keepsContent_iff Raster.pointSets Raster.unionsPolygons _).mpr
    (Or.inr (Or.inl rfl))

/-- A clipped building arrives as a valid collection of a region and of lines,
and is handed back as one. -/
theorem clipped_building_stays_collection :
    ¬ KeepsContent Raster.shapely Raster.pointSets (Raster.clipped {(0, 0)}) := by
  intro h
  have hmember : Raster.region {(0, 0)} ∈
      Raster.shapely.geoms (Raster.clipped {(0, 0)}) := by
    decide
  have hcontent : PolygonalPart Raster.shapely
      (validated Raster.shapely (Raster.clipped {(0, 0)}))
      (Raster.region {(0, 0)}) :=
    ⟨Part.nested _ _ _ rfl hmember (Part.self _), rfl⟩
  have hpoly := (h ⟨_, hcontent⟩).1
  revert hpoly
  decide

end VectorMapChanges
