import VectorMapChanges.Lib.Validity
import VectorMapChanges.Ingestion.OhsomeClient
import VectorMapChanges.Raster
import Mathlib.Data.Rat.Floor

/-!
# Point-in-time reconstruction

ohsome answers a request with one row for each version whose validity meets the
requested range, clipped to the range.  Times are seconds since the beginning of
year 1, with fractions.

Main facts:
* `renderTime_eq_iff`: only a whole second is rendered like an instant;
* `reconstructs_of_lt`: a range that ends after it begins gives back the versions
  that were valid at its start;
* `reconstructs_iff`: every answer does exactly when the offset of the zone does
  not grow within the second after the requested instant.
-/

namespace VectorMapChanges

open Lib

/-- A version of an object, and when it was the current one. -/
structure Version (J : Type) where
  osmId : String
  validity : Validity ℚ
  tags : Dict String String
  geometry : Option J
deriving DecidableEq

/-- A history: the versions of one object are never current at the same time. -/
structure OsmHistory (J : Type) where
  versions : List (Version J)
  apart : ∀ v ∈ versions, ∀ w ∈ versions, v.osmId = w.osmId → v ≠ w →
    v.validity.Apart w.validity

section Answer

variable {J : Type}

/-- A time in the format of instants; a fraction of a second is shown when there
is one. -/
def renderTime (fraction : ℚ → String) (t : ℚ) : String :=
  let instant := formatInstant (Instant.ofSeconds t.floor.toNat)
  if t.den = 1 then instant
  else
    String.ofList instant.toList.dropLast ++ "." ++ fraction t ++ "Z"

/-- The row of a version in the answer to a request. -/
def Version.row (fraction : ℚ → String) (start stop : Nat) (v : Version J) :
    RawFeature J where
  geometry := v.geometry
  properties := some
    (((v.tags.set "@osmId" v.osmId).set
      "@validFrom" (renderTime fraction (v.validity.clippedStart start))).set
      "@validTo" (renderTime fraction (v.validity.clippedStop stop)))

/-- The versions that ohsome returns for a range: each version that was current
before the end of the range has one row, and a row may be of one that begins with
the end. -/
structure Answers (history : OsmHistory J) (start stop : Nat)
    (rows : List (Version J)) : Prop where
  nodup : rows.Nodup
  complete : ∀ v ∈ history.versions,
    (∃ t : ℚ, start ≤ t ∧ t < stop ∧ v.validity.Contains t) → v ∈ rows
  sound : ∀ v ∈ rows, v ∈ history.versions ∧
    ∃ t : ℚ, start ≤ t ∧ t ≤ stop ∧ v.validity.Contains t

/-- Only a whole second is rendered like an instant. -/
theorem renderTime_eq_iff {fraction : ℚ → String} {t : ℚ} (ht : 0 ≤ t) (n : Nat) :
    renderTime fraction t = formatInstant (Instant.ofSeconds n) ↔ t = n := by
  unfold renderTime
  by_cases hden : t.den = 1
  · have hfloor : (t.floor : ℚ) = t := by
      rw [Rat.floor_def, hden]
      simpa [hden] using (Rat.num_div_den t)
    have hpos : 0 ≤ t.floor := by
      exact_mod_cast hfloor ▸ ht
    rw [if_pos hden, formatInstant_injective.eq_iff,
      Instant.ofSeconds_injective.eq_iff]
    constructor
    · intro h
      have hcast : ((t.floor.toNat : Int) : ℚ) = n := by
        rw [h]
        rfl
      rwa [Int.toNat_of_nonneg hpos, hfloor] at hcast
    · rintro rfl
      have hn : (n : ℚ).floor = n := by
        exact_mod_cast hfloor
      rw [hn, Int.toNat_natCast]
  · rw [if_neg hden]
    constructor
    · intro h
      have hdot : '.' ∈ (formatInstant (Instant.ofSeconds n)).toList := by
        rw [← h]
        simp
      exact absurd hdot (not_mem_formatInstant rfl (by decide))
    · rintro rfl
      exact absurd rfl hden

/-- The text of a range determines the range. -/
theorem rangeText_eq_iff {start stop start' stop' : Nat} :
    rangeText (formatInstant (Instant.ofSeconds start))
        (formatInstant (Instant.ofSeconds stop)) =
      rangeText (formatInstant (Instant.ofSeconds start'))
        (formatInstant (Instant.ofSeconds stop')) ↔
      start = start' ∧ stop = stop' := by
  have hcomma : ∀ i : Instant, ',' ∉ (formatInstant i).toList :=
    fun i => not_mem_formatInstant rfl (by decide)
  have hinj : ∀ n m : Nat, (formatInstant (Instant.ofSeconds n)).toList =
      (formatInstant (Instant.ofSeconds m)).toList ↔ n = m := by
    intro n m
    rw [String.toList_inj, formatInstant_injective.eq_iff,
      Instant.ofSeconds_injective.eq_iff]
  rw [← String.toList_inj]
  simp only [rangeText, String.toList_append, List.append_assoc,
    show ",".toList = [','] from rfl, List.singleton_append]
  rw [append_cons_eq_iff (hcomma _) (hcomma _), hinj, hinj]

end Answer

section Reconstruction

variable {G J : Type} {sh : Shapely G J} {history : OsmHistory J}
  {fraction : ℚ → String} {start stop : Nat} {rows : List (Version J)}

/-- The result is made of the versions `kept` of the answer: the ones that were
current at the time `t`, in the order of the answer, and each object once. -/
structure Reconstructs (sh : Shapely G J) (history : OsmHistory J) (t : ℚ)
    (row : Version J → RawFeature J) (rows kept : List (Version J))
    (result : Except PyError (SnapshotResult J)) : Prop where
  inOrder : kept.Sublist rows
  current : ∀ v, v ∈ kept ↔ v ∈ history.versions ∧ v.validity.Contains t
  nodup : (kept.map (·.osmId)).Nodup
  processed : result.map (·.processedGeojson) =
    (kept.map row).mapM (normalizeFeature sh)
  ids : ∀ snapshot, result = .ok snapshot →
    snapshot.processedGeojson.map (fun f => f.properties.bind (·.osmId)) =
      kept.map (fun v => some v.osmId)

/-- The row of a version shows the start of the range exactly if the version was
current then. -/
theorem validFrom_row_iff {v : Version J} {t : ℚ}
    (hmeets : v.validity.Contains t) (hle : start ≤ t) :
    (v.row fraction start stop).props.get? "@validFrom" =
        some (formatInstant (Instant.ofSeconds start)) ↔
      v.validity.Contains (start : ℚ) := by
  have hget : (v.row fraction start stop).props.get? "@validFrom" =
      some (renderTime fraction (v.validity.clippedStart start)) := by
    simp [RawFeature.props, Version.row]
  have hpos : 0 ≤ v.validity.clippedStart (start : ℚ) :=
    le_trans (Nat.cast_nonneg start) Validity.le_clippedStart
  rw [hget, Option.some_inj, renderTime_eq_iff hpos,
    Validity.clippedStart_eq_iff hmeets hle]

theorem osmId_row (v : Version J) : (v.row fraction start stop).osmId = v.osmId := by
  simp [RawFeature.osmId, RawFeature.props, Version.row]

/-- From the answer for a range, the versions that were current at its start are
selected. -/
theorem select_answer (hanswer : Answers history start stop rows) :
    selectFeaturesValidAt (rows.map (Version.row fraction start stop))
        (Instant.ofSeconds start) =
      (rows.filter (fun v => v.validity.Contains (start : ℚ))).map
        (Version.row fraction start stop) := by
  rw [selectFeaturesValidAt, List.filter_map]
  congr 1
  apply List.filter_congr
  intro v hv
  obtain ⟨-, t, hle, -, hmeets⟩ := hanswer.sound v hv
  exact decide_eq_decide.mpr (validFrom_row_iff hmeets hle)

/-- A range that ends after it begins gives back the versions that were current
at its start. -/
theorem reconstructs_of_lt (sh : Shapely G J) (hlt : start < stop)
    (hanswer : Answers history start stop rows) {raw : RawCollection J}
    (hraw : raw.features = rows.map (Version.row fraction start stop))
    (aoi : Aoi J) (sourceQueryVersion : String) :
    ∃ kept, Reconstructs sh history start (Version.row fraction start stop) rows
      kept (buildSnapshotFromRaw sh raw aoi (Instant.ofSeconds start)
        sourceQueryVersion) := by
  have hcurrent : ∀ v,
      v ∈ rows.filter (fun v => v.validity.Contains (start : ℚ)) ↔
        v ∈ history.versions ∧ v.validity.Contains (start : ℚ) := by
    intro v
    rw [List.mem_filter, decide_eq_true_iff]
    constructor
    · rintro ⟨hv, hcontains⟩
      exact ⟨(hanswer.sound v hv).1, hcontains⟩
    · rintro ⟨hv, hcontains⟩
      exact ⟨hanswer.complete v hv
        ⟨start, le_refl _, Nat.cast_lt.mpr hlt, hcontains⟩, hcontains⟩
  refine ⟨rows.filter (fun v => v.validity.Contains (start : ℚ)),
    List.filter_sublist, hcurrent, ?_, ?_, ?_⟩
  · refine List.Nodup.map_on ?_ (hanswer.nodup.filter _)
    intro v hv w hw hid
    by_contra hne
    obtain ⟨hvmem, hvnow⟩ := (hcurrent v).mp hv
    obtain ⟨hwmem, hwnow⟩ := (hcurrent w).mp hw
    exact history.apart v hvmem w hwmem hid hne start ⟨hvnow, hwnow⟩
  · unfold buildSnapshotFromRaw
    simp only [hraw, select_answer hanswer]
    cases ((rows.filter (fun v => v.validity.Contains (start : ℚ))).map
      (Version.row fraction start stop)).mapM (normalizeFeature sh) <;> rfl
  · intro snapshot hsnapshot
    obtain ⟨features, hfeatures, rfl⟩ :=
      buildSnapshotFromRaw_eq_ok_iff.mp hsnapshot
    rw [hraw, select_answer hanswer] at hfeatures
    rw [mapM_eq_ok_iff, List.forall₂_map_left_iff, ← mapM_eq_ok_iff] at hfeatures
    exact map_of_mapM_eq_ok hfeatures
      (fun v _ _ h => (osmId_normalizeFeature h).trans (congrArg some (osmId_row v)))

/-- An object that has stood unchanged since the beginning. -/
def standing (J : Type) : OsmHistory J where
  versions := [⟨"way/1", ⟨0, none⟩, Dict.empty, none⟩]
  apart := by
    intro v hv w hw _ hne
    rw [List.mem_singleton] at hv hw
    exact absurd (hv.trans hw.symm) hne

/-- A range that does not end after it begins has an empty answer. -/
theorem answers_nil (history : OsmHistory J) (h : stop ≤ start) :
    Answers history start stop [] where
  nodup := List.nodup_nil
  complete := by
    rintro v - ⟨t, hstart, hstop, -⟩
    have hlt : (start : ℚ) < stop := lt_of_le_of_lt hstart hstop
    exact absurd (Nat.cast_lt.mp hlt) (Nat.not_lt.mpr h)
  sound := by
    intro v hv
    cases hv

/-- Nothing is built from an empty answer, although an object stands. -/
theorem not_reconstructs_standing {t : ℚ} (ht : 0 ≤ t)
    {row : Version J → RawFeature J} {kept : List (Version J)}
    {result : Except PyError (SnapshotResult J)} :
    ¬ Reconstructs sh (standing J) t row [] kept result := by
  intro h
  have hstands : (⟨"way/1", ⟨0, none⟩, Dict.empty, none⟩ : Version J) ∈ kept := by
    refine (h.current _).mpr ⟨List.mem_singleton_self _, ht, ?_⟩
    intro u hu
    cases hu
  rw [List.sublist_nil.mp h.inOrder] at hstands
  cases hstands

/-- Every answer to the request for an instant gives back the state of the
objects at that instant, exactly when the zone's offset does not grow within the
next second of its wall clock. -/
theorem reconstructs_iff (sh : Shapely G J) (fraction : ℚ → String)
    (dumps : J → String) (aoi : Aoi J) {requestedTime : DateTime} {zone : Zone}
    (hzone : requestedTime.tzinfo = some zone) {payload : RequestPayload}
    (hpayload : buildRequestPayload dumps aoi.geometry requestedTime
      buildingFilter requestedProperties = .ok payload)
    {requested : Instant}
    (hrequested : requestedTime.astimezoneUtc zone = .ok requested)
    (sourceQueryVersion : String) :
    (∀ (history : OsmHistory J) (start stop : Nat) (rows : List (Version J))
        (raw : RawCollection J),
      payload.time = rangeText (formatInstant (Instant.ofSeconds start))
        (formatInstant (Instant.ofSeconds stop)) →
      Answers history start stop rows →
      raw.features = rows.map (Version.row fraction start stop) →
      ∃ kept, Reconstructs sh history requested.seconds
        (Version.row fraction start stop) rows kept
        (buildSnapshotFromRaw sh raw aoi requested sourceQueryVersion)) ↔
    zone.utcoffset (requestedTime.wall + 1) false ≤
      zone.utcoffset requestedTime.wall requestedTime.fold := by
  obtain ⟨start, stop, hstart, hstop, hutc, htime⟩ :=
    time_of_buildRequestPayload hzone hpayload
  obtain rfl := Except.ok.inj (hutc.symm.trans hrequested)
  rw [DateTime.utcSeconds] at hstart
  rw [Instant.seconds_ofSeconds]
  constructor
  · intro hall
    by_contra hgrows
    have hle : stop ≤ start := by
      omega
    obtain ⟨kept, hkept⟩ := hall (standing J) start stop [] ⟨[], Dict.empty⟩ htime
      (answers_nil _ hle) rfl
    exact not_reconstructs_standing (Nat.cast_nonneg start) hkept
  · intro hoffset history start' stop' rows raw htime' hanswer hraw
    obtain ⟨rfl, rfl⟩ := rangeText_eq_iff.mp (htime.symm.trans htime')
    have hlt : start < stop := by
      omega
    exact reconstructs_of_lt sh hlt hanswer hraw aoi sourceQueryVersion

end Reconstruction

section Samples

/-- Israel around the end of summer time in 2026: the hour from 01:00 to 02:00 of
October 25 comes twice. -/
def israelAutumn : Zone where
  utcoffset wall fold :=
    if wall < (⟨2026, 10, 25, 1, 0, 0⟩ : Instant).seconds then 10800
    else if wall < (⟨2026, 10, 25, 2, 0, 0⟩ : Instant).seconds then
      if fold then 7200 else 10800
    else 7200
  bounded wall fold := by
    unfold daySeconds
    split_ifs <;> decide

/-- 01:30 on that day, for the given time. -/
def halfPastOne (fold : Bool) : DateTime where
  wall := (⟨2026, 10, 25, 1, 30, 0⟩ : Instant).seconds
  fold := fold
  tzinfo := some israelAutumn
  wall_lt := by decide +kernel

/-- The first time, the request gives back what stood. -/
theorem reconstructs_firstTime :
    ∃ kept, Reconstructs Raster.shapely (standing Raster)
      (⟨2026, 10, 24, 22, 30, 0⟩ : Instant).seconds
      (Version.row (fun _ => "5") (⟨2026, 10, 24, 22, 30, 0⟩ : Instant).seconds
        (⟨2026, 10, 24, 22, 30, 1⟩ : Instant).seconds)
      (standing Raster).versions kept
      (buildSnapshotFromRaw Raster.shapely
        ⟨(standing Raster).versions.map (Version.row (fun _ => "5")
          (⟨2026, 10, 24, 22, 30, 0⟩ : Instant).seconds
          (⟨2026, 10, 24, 22, 30, 1⟩ : Instant).seconds), Dict.empty⟩
        Raster.aoi ⟨2026, 10, 24, 22, 30, 0⟩ "v2") := by
  have hanswer : Answers (standing Raster)
      (⟨2026, 10, 24, 22, 30, 0⟩ : Instant).seconds
      (⟨2026, 10, 24, 22, 30, 1⟩ : Instant).seconds
      (standing Raster).versions := by
    refine ⟨List.nodup_singleton _, fun v hv _ => hv, ?_⟩
    intro v hv
    refine ⟨hv, _, le_refl _, ?_, ?_⟩
    · exact_mod_cast (by decide +kernel :
        (⟨2026, 10, 24, 22, 30, 0⟩ : Instant).seconds ≤
          (⟨2026, 10, 24, 22, 30, 1⟩ : Instant).seconds)
    · rw [List.mem_singleton.mp hv]
      refine ⟨Nat.cast_nonneg _, ?_⟩
      intro u hu
      cases hu
  have hzone : (halfPastOne false).tzinfo = some israelAutumn := rfl
  have hpayload : (buildRequestPayload (fun _ => "null") Raster.aoi.geometry
      (halfPastOne false) buildingFilter requestedProperties).toOption.isSome =
        true := by
    decide +kernel
  obtain ⟨payload, hpayload⟩ := exists_eq_ok_of_isSome hpayload
  have htime : payload.time = "2026-10-24T22:30:00Z,2026-10-24T22:30:01Z" := by
    have hmap : (buildRequestPayload (fun _ => "null") Raster.aoi.geometry
        (halfPastOne false) buildingFilter requestedProperties).map (·.time) =
          .ok "2026-10-24T22:30:00Z,2026-10-24T22:30:01Z" := by
      decide +kernel
    rw [hpayload] at hmap
    exact Except.ok.inj hmap
  have hrequested : (halfPastOne false).astimezoneUtc israelAutumn =
      .ok ⟨2026, 10, 24, 22, 30, 0⟩ := by
    decide +kernel
  exact (reconstructs_iff Raster.shapely (fun _ => "5") (fun _ => "null")
    Raster.aoi hzone hpayload hrequested "v2").mpr (by decide +kernel) _ _ _ _ _
    (htime.trans (by decide +kernel)) hanswer rfl

/-- The second time, the range of the request ends an hour before it begins, so
that its answer may be empty, and the snapshot lacks what stood. -/
theorem reconstructs_secondTime :
    (buildRequestPayload (fun _ => "null") Raster.aoi.geometry (halfPastOne true)
        buildingFilter requestedProperties).map (·.time) =
      .ok "2026-10-24T23:30:00Z,2026-10-24T22:30:01Z" ∧
    (halfPastOne true).astimezoneUtc israelAutumn =
      .ok ⟨2026, 10, 24, 23, 30, 0⟩ ∧
    Answers (standing Raster) (⟨2026, 10, 24, 23, 30, 0⟩ : Instant).seconds
      (⟨2026, 10, 24, 22, 30, 1⟩ : Instant).seconds [] ∧
    ¬ ∃ kept, Reconstructs Raster.shapely (standing Raster)
      (⟨2026, 10, 24, 23, 30, 0⟩ : Instant).seconds
      (Version.row (fun _ => "5") (⟨2026, 10, 24, 23, 30, 0⟩ : Instant).seconds
        (⟨2026, 10, 24, 22, 30, 1⟩ : Instant).seconds)
      [] kept
      (buildSnapshotFromRaw Raster.shapely ⟨[], Dict.empty⟩ Raster.aoi
        ⟨2026, 10, 24, 23, 30, 0⟩ "v2") := by
  refine ⟨by decide +kernel, by decide +kernel, ?_, ?_⟩
  · exact answers_nil _ (by decide +kernel)
  · rintro ⟨kept, hkept⟩
    exact not_reconstructs_standing (Nat.cast_nonneg _) hkept

end Samples

end VectorMapChanges
