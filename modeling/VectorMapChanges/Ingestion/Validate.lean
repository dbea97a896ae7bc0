import VectorMapChanges.Shapely

/-!
# Geometry validation and repair

Main facts:
* `validateAndRepair_of_valid`: a valid geometry is passed through;
* `repairMethod_isSome_iff`: the repair method records exactly the invalid
  geometries.
-/

namespace VectorMapChanges

def repairMethodMakeValid : String := "make_valid"
def repairMethodMakeValidExtract : String := "make_valid+extract_polygons"

/-- What validation and repair return for one geometry. -/
structure ValidationResult (G : Type) where
  geometry : G
  originalGeometry : G
  originalValid : Bool
  repairMethod : Option String
  repairedValid : Bool

section Validate

variable {G J : Type} (sh : Shapely G J)

/-- The polygonal content of a geometry, if there is any. -/
def extractPolygonal (geometry : G) : Option G :=
  if (sh.geomType geometry).isPolygonal then some geometry
  else if sh.geomType geometry = .geometryCollection then
    let parts := (sh.geoms geometry).filter
      (fun part => (sh.geomType part).isPolygonal)
    if parts.isEmpty then none else some (sh.unaryUnion parts)
  else none

/-- Check validity, repair what is invalid, and keep the polygonal content of
the repair. -/
def validateAndRepair (geometry : G) : ValidationResult G :=
  if sh.isValid geometry then
    { geometry := geometry
      originalGeometry := geometry
      originalValid := true
      repairMethod := none
      repairedValid := true }
  else
    let repaired := sh.makeValid geometry
    match extractPolygonal sh repaired with
    | none =>
        -- a fully degenerate footprint is kept as `make_valid` returned it
        { geometry := repaired
          originalGeometry := geometry
          originalValid := false
          repairMethod := some repairMethodMakeValid
          repairedValid := sh.isValid repaired }
    | some polygonal =>
        let extracted := sh.geomType polygonal ≠ sh.geomType repaired
        { geometry := polygonal
          originalGeometry := geometry
          originalValid := false
          repairMethod := some
            (if extracted then repairMethodMakeValidExtract
              else repairMethodMakeValid)
          repairedValid := sh.isValid polygonal }

variable {sh}

theorem validateAndRepair_of_valid {geometry : G}
    (h : sh.isValid geometry = true) :
    (validateAndRepair sh geometry).geometry = geometry := by
  simp [validateAndRepair, h]

/-- The repair method records exactly the invalid geometries. -/
theorem repairMethod_isSome_iff (sh : Shapely G J) (geometry : G) :
    (validateAndRepair sh geometry).repairMethod.isSome = true ↔
      (validateAndRepair sh geometry).originalValid = false := by
  simp only [validateAndRepair]
  by_cases hvalid : sh.isValid geometry = true
  · simp [hvalid]
  · simp only [if_neg hvalid]
    cases extractPolygonal sh (sh.makeValid geometry) <;> simp

end Validate

end VectorMapChanges
