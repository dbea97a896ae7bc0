import VectorMapChanges.Ingestion.Snapshot
import VectorMapChanges.Matching.Render

/-!
# The object store

Documents under their keys.  Putting replaces the document under a key, and
getting takes the URI that putting returned apart again.

Main facts:
* `getJson_set`: putting a document changes what its own URI gets, and nothing
  else;
* `snapshotKeyText_inj`, `snapshotKeyText_raw_ne_processed`: within one area, the
  keys of snapshots tell the instants and the kinds apart;
* `not_prefix_changesetObjectKey`: change layers never replace snapshots.
-/

namespace VectorMapChanges

open Lib

/-- A JSON document of the store. -/
inductive Document (J : Type) where
  | raw (collection : RawCollection J)
  | processed (collection : ProcessedCollection J)
  | changeLayer (layer : ChangeLayer J)
deriving DecidableEq

/-- The properties of a raw feature, read with the keys of a processed one. -/
def ProcessedProperties.ofRaw {J : Type} (props : Dict String String) :
    ProcessedProperties J where
  osmId := props.get? "osm_id"
  osmType := props.get? "osm_type"
  osmRef := props.get? "osm_ref"
  building := props.get? "building"
  category := props.get? "category"
  name := props.get? "name"
  rawTags := Dict.empty
  originalValid := none
  repairMethod := props.get? "repair_method"
  repairedValid := none
  originalGeometry := none

/-- The properties of a feature of a change layer, which has none of the keys of
a processed one. -/
def ProcessedProperties.missing {J : Type} : ProcessedProperties J where
  osmId := none
  osmType := none
  osmRef := none
  building := none
  category := none
  name := none
  rawTags := Dict.empty
  originalValid := none
  repairMethod := none
  repairedValid := none
  originalGeometry := none

/-- A document, read as a processed snapshot. -/
def Document.asProcessed {J : Type} : Document J → ProcessedCollection J
  | raw collection =>
      collection.features.map fun feature =>
        { geometry := feature.geometry
          properties := feature.properties.map ProcessedProperties.ofRaw }
  | processed collection => collection
  | changeLayer layer =>
      layer.map fun feature =>
        { geometry := feature.geometry
          properties := feature.properties.map fun _ => .missing }

/-- The name of a bucket, which never has a slash. -/
structure Bucket where
  name : String
  noSlash : '/' ∉ name.toList

/-- The documents, by bucket and key. -/
abbrev Objects (J : Type) := Dict (String × String) (Document J)

/-- `uri.removeprefix("s3://").partition("/")`, without the separator. -/
def bucketAndKey (uri : String) : String × String :=
  partitionChars '/' (uri.toList.drop "s3://".toList.length)

/-- `f"s3://{bucket}/{key}"` -/
def objectUri (bucket : Bucket) (key : String) : String :=
  "s3://" ++ (bucket.name ++ "/" ++ key)

section Store

variable {J : Type}

/-- Upload a document.  Returns its URI. -/
def putJson (objects : Objects J) (bucket : Bucket) (key : String)
    (data : Document J) : String × Objects J :=
  (objectUri bucket key, objects.set (bucket.name, key) data)

/-- Download a document given its URI. -/
def getJson (objects : Objects J) (uri : String) :
    Except PyError (Document J) :=
  if "s3://".toList.isPrefixOf uri.toList then
    match objects.get? (bucketAndKey uri) with
    | some data => .ok data
    | none => .error (.clientError "NoSuchKey")
  else .error (.valueError ("expected an s3:// URI, got " ++ reprStr uri))

theorem isPrefixOf_objectUri (bucket : Bucket) (key : String) :
    "s3://".toList.isPrefixOf (objectUri bucket key).toList = true := by
  rw [List.isPrefixOf_iff_prefix, objectUri, String.toList_append]
  exact List.prefix_append _ _

/-- The URI of a document leads back to its bucket and key. -/
@[simp] theorem bucketAndKey_objectUri (bucket : Bucket) (key : String) :
    bucketAndKey (objectUri bucket key) = (bucket.name, key) := by
  have hchars : (bucket.name ++ "/" ++ key).toList =
      bucket.name.toList ++ '/' :: key.toList := by
    simp [String.toList_append]
  unfold bucketAndKey objectUri
  rw [String.toList_append, List.drop_left, hchars]
  exact partitionChars_append bucket.noSlash

/-- No other URI leads there. -/
theorem eq_objectUri_of_bucketAndKey {bucket : Bucket} {key uri : String}
    (hkey : key ≠ "") (hpre : "s3://".toList.isPrefixOf uri.toList = true)
    (h : bucketAndKey uri = (bucket.name, key)) :
    uri = objectUri bucket key := by
  obtain ⟨rest, hrest⟩ := List.isPrefixOf_iff_prefix.mp hpre
  unfold bucketAndKey at h
  rw [← hrest, List.drop_left] at h
  apply String.toList_injective
  rw [← hrest, objectUri, append_of_partitionChars h hkey]
  simp [String.toList_append]

/-- Putting a document changes what its own URI gets, and nothing else. -/
theorem getJson_set (objects : Objects J) (bucket : Bucket) {key : String}
    (hkey : key ≠ "") (data : Document J) (uri : String) :
    getJson (objects.set (bucket.name, key) data) uri =
      if uri = objectUri bucket key then .ok data else getJson objects uri := by
  unfold getJson
  by_cases huri : uri = objectUri bucket key
  · rw [if_pos huri, huri, if_pos (isPrefixOf_objectUri bucket key),
      bucketAndKey_objectUri, Dict.get?_set, if_pos rfl]
  · rw [if_neg huri]
    by_cases hpre : "s3://".toList.isPrefixOf uri.toList = true
    · have hne : bucketAndKey uri ≠ (bucket.name, key) :=
        fun h => huri (eq_objectUri_of_bucketAndKey hkey hpre h)
      rw [if_pos hpre, if_pos hpre, Dict.get?_set, if_neg hne]
    · rw [if_neg hpre, if_neg hpre]

theorem objectUri_inj {bucket : Bucket} {key key' : String} :
    objectUri bucket key = objectUri bucket key' ↔ key = key' := by
  constructor
  · intro h
    have hparts := bucketAndKey_objectUri bucket key
    rw [h, bucketAndKey_objectUri] at hparts
    exact (Prod.mk.inj hparts).2.symm
  · rintro rfl
    rfl

end Store

section Keys

/-- The text of the key of a snapshot. -/
def snapshotKeyText (source layer aoiId aoiVersion requestedTimeIso
    kind : String) : String :=
  "snapshots/source=" ++ source ++ "/layer=" ++ layer ++ "/" ++ "aoi=" ++
    aoiId ++ "/aoi_version=" ++ aoiVersion ++ "/" ++ "requested_time=" ++
    requestedTimeIso ++ "/" ++ kind ++ ".geojson"

/-- The key of a raw or processed snapshot. -/
def snapshotObjectKey (source layer aoiId aoiVersion requestedTimeIso
    kind : String) : Except PyError String :=
  if kind = "raw" ∨ kind = "processed" then
    .ok (snapshotKeyText source layer aoiId aoiVersion requestedTimeIso kind)
  else
    .error (.valueError
      ("kind must be 'raw' or 'processed', got " ++ reprStr kind))

/-- The key of a change layer. -/
def changesetObjectKey (source layer aoiId aoiVersion algorithmVersion
    requestedTimeAIso requestedTimeBIso : String) : String :=
  "changesets/source=" ++ source ++ "/layer=" ++ layer ++ "/" ++ "aoi=" ++
    aoiId ++ "/aoi_version=" ++ aoiVersion ++ "/" ++ "algorithm_version=" ++
    algorithmVersion ++ "/" ++ requestedTimeAIso ++ "_to_" ++
    requestedTimeBIso ++ "/change_layer.geojson"

variable {source layer aoiId aoiVersion iso iso' kind : String}

/-- The keys of snapshots have a part of the store of their own. -/
theorem prefix_snapshotKeyText (source layer aoiId aoiVersion iso kind : String) :
    "snapshots/".toList <+:
      (snapshotKeyText source layer aoiId aoiVersion iso kind).toList := by
  have hhead : "snapshots/source=" = "snapshots/" ++ "source=" := by decide
  unfold snapshotKeyText
  rw [hhead]
  simp only [String.toList_append, List.append_assoc]
  exact List.prefix_append _ _

theorem snapshotKeyText_ne_empty (source layer aoiId aoiVersion iso
    kind : String) :
    snapshotKeyText source layer aoiId aoiVersion iso kind ≠ "" := by
  intro h
  have hpre := prefix_snapshotKeyText source layer aoiId aoiVersion iso kind
  rw [h] at hpre
  exact absurd (List.prefix_nil.mp hpre) (by decide)

/-- The keys of change layers are outside of it. -/
theorem not_prefix_changesetObjectKey (source layer aoiId aoiVersion version isoA
    isoB : String) :
    ¬ "snapshots/".toList <+:
      (changesetObjectKey source layer aoiId aoiVersion version isoA
        isoB).toList := by
  have hhead : "changesets/source=" = "c" ++ "hangesets/source=" := by decide
  have hc : "c".toList = ['c'] := by decide
  unfold changesetObjectKey
  rw [hhead]
  simp only [String.toList_append, List.append_assoc, hc]
  rintro ⟨rest, hrest⟩
  have hfirst := (List.cons.inj hrest).1
  exact absurd hfirst (by decide)

theorem changesetObjectKey_ne_empty (source layer aoiId aoiVersion version isoA
    isoB : String) :
    changesetObjectKey source layer aoiId aoiVersion version isoA isoB ≠ "" := by
  intro h
  have hchars := congrArg String.toList h
  unfold changesetObjectKey at hchars
  rw [String.toList_append] at hchars
  have hempty := (List.append_eq_nil_iff.mp hchars).2
  exact absurd hempty (by decide)

/-- Within one area, the key of a snapshot tells its instant. -/
theorem snapshotKeyText_inj :
    snapshotKeyText source layer aoiId aoiVersion iso kind =
        snapshotKeyText source layer aoiId aoiVersion iso' kind ↔
      iso = iso' := by
  unfold snapshotKeyText
  rw [String.append_left_inj, String.append_left_inj, String.append_left_inj,
    String.append_right_inj]

/-- The key of a raw snapshot is not that of a processed one. -/
theorem snapshotKeyText_raw_ne_processed :
    snapshotKeyText source layer aoiId aoiVersion iso "raw" ≠
      snapshotKeyText source layer aoiId aoiVersion iso' "processed" := by
  intro h
  unfold snapshotKeyText at h
  rw [String.append_left_inj] at h
  -- the kinds differ in their last letter
  have hraw : "raw".toList = ['r', 'a'] ++ ['w'] := by decide
  have hprocessed : "processed".toList =
      ['p', 'r', 'o', 'c', 'e', 's', 's', 'e'] ++ ['d'] := by decide
  have hchars := congrArg String.toList h
  have hlists := String.toList_append.symm.trans
    (hchars.trans String.toList_append)
  rw [hraw, hprocessed, ← List.append_assoc, ← List.append_assoc] at hlists
  obtain ⟨-, hlast⟩ := List.append_inj' hlists rfl
  exact absurd hlast (by decide)

end Keys

end VectorMapChanges
