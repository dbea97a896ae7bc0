import VectorMapChanges.Datetimes

/-!
# Requests to ohsome

The form of a request for the state of the buildings at one instant: a range of
one second, which begins at that instant.
-/

namespace VectorMapChanges

open Lib

/-- `RANGE_WIDTH`, in seconds. -/
def rangeWidth : Nat := 1

/-- `BUILDING_FILTER` -/
def buildingFilter : String := "building=* and geometry:polygon"

/-- `PROPERTIES` -/
def requestedProperties : String := "tags"

/-- The form of a POST to `/elementsFullHistory/geometry`. -/
structure RequestPayload where
  bpolys : String
  filter : String
  time : String
  properties : String
deriving DecidableEq

/-- `format_instant` of a datetime. -/
def formatDateTime (instant : DateTime) : Except PyError String :=
  match instant.tzinfo with
  | none => .error (.valueError "requested_time must be timezone-aware")
  | some zone => do
      let utc ← instant.astimezoneUtc zone
      pure (formatInstant utc)

/-- `f"{range_start},{range_end}"` -/
def rangeText (rangeStart rangeEnd : String) : String :=
  rangeStart ++ "," ++ rangeEnd

section Payload

variable {J : Type} (dumps : J → String)

/-- Build the form of a request; `dumps` is `json.dumps` of a geometry. -/
def buildRequestPayload (aoiGeometry : J) (requestedTime : DateTime)
    (filterExpression properties : String) : Except PyError RequestPayload := do
  let rangeStart ← formatDateTime requestedTime
  let rangeEnd ← formatDateTime (← requestedTime.add rangeWidth)
  pure
    { bpolys :=
        "\x7b\"type\": \"FeatureCollection\", \"features\": [\x7b\"type\": " ++
        "\"Feature\", \"properties\": \x7b\x7d, \"geometry\": " ++
        dumps aoiGeometry ++ "\x7d]\x7d"
      filter := filterExpression
      time := rangeText rangeStart rangeEnd
      properties := properties }

variable {dumps}

/-- The range of a request, in seconds: it begins at the requested instant, and
ends where the wall clock of its zone is one second later. -/
theorem time_of_buildRequestPayload {aoiGeometry : J} {requestedTime : DateTime}
    {zone : Zone} {filterExpression properties : String}
    {payload : RequestPayload} (hzone : requestedTime.tzinfo = some zone)
    (h : buildRequestPayload dumps aoiGeometry requestedTime filterExpression
      properties = .ok payload) :
    ∃ start stop : Nat,
      (start : Int) = requestedTime.utcSeconds zone ∧
      (stop : Int) = requestedTime.wall + 1 -
        zone.utcoffset (requestedTime.wall + 1) false ∧
      requestedTime.astimezoneUtc zone = .ok (Instant.ofSeconds start) ∧
      payload.time = rangeText (formatInstant (Instant.ofSeconds start))
        (formatInstant (Instant.ofSeconds stop)) := by
  obtain ⟨rangeStart, hstart, h⟩ := bind_eq_ok.mp h
  obtain ⟨later, hlater, h⟩ := bind_eq_ok.mp h
  obtain ⟨rangeEnd, hstop, h⟩ := bind_eq_ok.mp h
  have hadd : later.wall = requestedTime.wall + 1 ∧ later.fold = false ∧
      later.tzinfo = some zone := by
    unfold DateTime.add rangeWidth at hlater
    split at hlater
    · cases hlater
      exact ⟨rfl, rfl, hzone⟩
    · cases hlater
  obtain ⟨hwall, hfold, hzone'⟩ := hadd
  simp only [formatDateTime, hzone, bind_eq_ok, pure_eq_ok] at hstart
  simp only [formatDateTime, hzone', bind_eq_ok, pure_eq_ok] at hstop
  obtain ⟨utc, hutc, rfl⟩ := hstart
  obtain ⟨utc', hutc', rfl⟩ := hstop
  obtain ⟨hlo, -, rfl⟩ := astimezoneUtc_eq_ok_iff.mp hutc
  obtain ⟨hlo', -, rfl⟩ := astimezoneUtc_eq_ok_iff.mp hutc'
  refine ⟨(requestedTime.utcSeconds zone).toNat, (later.utcSeconds zone).toNat,
    Int.toNat_of_nonneg hlo, ?_, hutc, ?_⟩
  · rw [Int.toNat_of_nonneg hlo', DateTime.utcSeconds, hwall, hfold]
    push_cast
    rfl
  · rw [← pure_eq_ok.mp h]

end Payload

end VectorMapChanges
