import VectorMapChanges.Datetimes
import VectorMapChanges.Storage.ObjectStore
import Mathlib.Data.List.Induction

/-!
# Object keys

The keys of snapshots and of change layers are texts put together from the
arguments, separated by slashes and, between two instants, by `_to_`.  The
arguments have no slash and an instant that parses has no underscore; `KeyCall`
carries both facts.

Main facts:
* `not_mem_of_parseInstant`: what `strptime` accepts has no underscore;
* `KeyCall.run_injective`: a key tells the function and all of its arguments;
* `getJson_putAll`: a URI gets the document that was put there last.
-/

namespace VectorMapChanges

open Lib

section Instants

@[simp] theorem decimalDigit_underscore : decimalDigit '_' = none := by
  decide

@[simp] theorem digitBetween_underscore (lo : Nat) {hi : Nat} (h : hi ≤ 9) :
    digitBetween lo hi '_' = none := by
  rw [digitBetween, if_neg]
  rintro ⟨-, hle⟩
  have hcode : '_'.toNat = 95 := by decide
  omega

/-- What comes before the first separator, and what after it. -/
theorem eq_of_splitAtChar {separators cs : List Char} {p : List Char × List Char}
    (h : splitAtChar separators cs = some p) :
    ∃ sep ∈ separators, cs = p.1 ++ sep :: p.2 := by
  induction cs generalizing p with
  | nil => cases h
  | cons c cs ih =>
      rw [splitAtChar] at h
      split_ifs at h with hc
      · obtain rfl := Option.some.inj h
        exact ⟨c, hc, rfl⟩
      · obtain ⟨q, hq, rfl⟩ := Option.map_eq_some_iff.mp h
        obtain ⟨sep, hsep, rfl⟩ := ih hq
        exact ⟨sep, hsep, rfl⟩

/-- A character that is in neither part nor among the separators. -/
theorem not_mem_of_splitAtChar {separators cs : List Char}
    {p : List Char × List Char} (h : splitAtChar separators cs = some p) {c : Char}
    (hsep : c ∉ separators) (hfst : c ∉ p.1) (hsnd : c ∉ p.2) :
    c ∉ cs := by
  obtain ⟨sep, hmem, rfl⟩ := eq_of_splitAtChar h
  have hne : c ≠ sep := fun heq => hsep (heq ▸ hmem)
  simp [hfst, hne, hsnd]

/-- The pattern of a number has no underscore. -/
theorem not_mem_parseYear {cs : List Char} {n : Nat} (h : parseYear cs = some n) :
    '_' ∉ cs := by
  intro hmem
  unfold parseYear at h
  split at h
  · simp only [List.mem_cons, List.not_mem_nil, or_false] at hmem
    rcases hmem with rfl | rfl | rfl | rfl <;> simp at h
  · cases h

theorem ne_of_digitBetween {lo hi n : Nat} (hhi : hi ≤ 9) {c : Char}
    (h : digitBetween lo hi c = some n) : c ≠ '_' := by
  rintro rfl
  rw [digitBetween_underscore lo hhi] at h
  cases h

theorem ne_of_decimalDigit {n : Nat} {c : Char} (h : decimalDigit c = some n) :
    c ≠ '_' := by
  rintro rfl
  rw [decimalDigit_underscore] at h
  cases h

theorem not_mem_single {c : Char} (hc : c ≠ '_') : '_' ∉ [c] := by
  simpa using hc.symm

theorem not_mem_pair {a c : Char} (ha : a ≠ '_') (hc : c ≠ '_') : '_' ∉ [a, c] := by
  simpa using ⟨ha.symm, hc.symm⟩

theorem not_mem_parseMonth {cs : List Char} {n : Nat} (h : parseMonth cs = some n) :
    '_' ∉ cs := by
  rw [parseMonth_eq] at h
  split at h
  · exact not_mem_single (ne_of_digitBetween (by decide) h)
  · split_ifs at h with h1 h0
    · obtain ⟨d, hd, -⟩ := Option.map_eq_some_iff.mp h
      exact not_mem_pair (by simp [h1]) (ne_of_digitBetween (by decide) hd)
    · exact not_mem_pair (by simp [h0]) (ne_of_digitBetween (by decide) h)
  · cases h

theorem not_mem_parseDay {cs : List Char} {n : Nat} (h : parseDay cs = some n) :
    '_' ∉ cs := by
  rw [parseDay_eq] at h
  split at h
  · exact not_mem_single (ne_of_digitBetween (by decide) h)
  · split_ifs at h with h3 h2 h1 h0
    · obtain ⟨d, hd, -⟩ := Option.map_eq_some_iff.mp h
      exact not_mem_pair (by simp [h3]) (ne_of_digitBetween (by decide) hd)
    · obtain ⟨d, hd, -⟩ := Option.map_eq_some_iff.mp h
      exact not_mem_pair (by simp [h2]) (ne_of_decimalDigit hd)
    · obtain ⟨d, hd, -⟩ := Option.map_eq_some_iff.mp h
      exact not_mem_pair (by simp [h1]) (ne_of_decimalDigit hd)
    · have ha := ne_of_digitBetween (by decide) h
      rcases h0 with rfl | rfl
      · exact not_mem_pair (by simp) ha
      · exact not_mem_pair (by simp) ha
  · cases h

theorem not_mem_parseHour {cs : List Char} {n : Nat} (h : parseHour cs = some n) :
    '_' ∉ cs := by
  rw [parseHour_eq] at h
  split at h
  · exact not_mem_single (ne_of_decimalDigit h)
  · split_ifs at h with h2 h1 h0
    · obtain ⟨d, hd, -⟩ := Option.map_eq_some_iff.mp h
      exact not_mem_pair (by simp [h2]) (ne_of_digitBetween (by decide) hd)
    · obtain ⟨d, hd, -⟩ := Option.map_eq_some_iff.mp h
      exact not_mem_pair (by simp [h1]) (ne_of_decimalDigit hd)
    · exact not_mem_pair (by simp [h0]) (ne_of_decimalDigit h)
  · cases h

theorem not_mem_parseMinute {cs : List Char} {n : Nat}
    (h : parseMinute cs = some n) :
    '_' ∉ cs := by
  intro hmem
  unfold parseMinute at h
  split at h
  · simp only [List.mem_cons, List.not_mem_nil, or_false] at hmem
    rcases hmem with rfl | rfl <;> simp at h
  · simp at hmem
    subst hmem
    simp at h
  · cases h

theorem not_mem_parseSecond {cs : List Char} {n : Nat}
    (h : parseSecond cs = some n) :
    '_' ∉ cs := by
  unfold parseSecond at h
  split at h
  · intro hmem
    simp only [List.mem_cons, List.not_mem_nil, or_false, Char.reduceEq,
      false_or] at hmem
    subst hmem
    simp at h
  · exact not_mem_parseMinute h

/-- What `strptime` accepts has no underscore. -/
theorem not_mem_of_parseInstant {iso : String} {instant : Instant}
    (h : parseInstant iso = .ok instant) :
    '_' ∉ iso.toList := by
  obtain ⟨hmatch, -⟩ := parseInstant_eq_ok_iff.mp h
  obtain ⟨_, _, _, _, _, _, ⟨h₁, h₂, h₃, h₄, h₅, h₆, hend⟩, hyear, hmonth, hday, hhour,
    hminute, hsecond⟩ := matchInstant_eq_some hmatch
  -- field by field, from the last separator to the first
  have hs := not_mem_of_splitAtChar h₆ (by decide) (not_mem_parseSecond hsecond)
    (by simp [hend])
  have hmin := not_mem_of_splitAtChar h₅ (by decide) (not_mem_parseMinute hminute) hs
  have hh := not_mem_of_splitAtChar h₄ (by decide) (not_mem_parseHour hhour) hmin
  have hd := not_mem_of_splitAtChar h₃ (by decide) (not_mem_parseDay hday) hh
  have hm := not_mem_of_splitAtChar h₂ (by decide) (not_mem_parseMonth hmonth) hd
  exact not_mem_of_splitAtChar h₁ (by decide) (not_mem_parseYear hyear) hm

end Instants

/-- The text of a snapshot key, part by part. -/
theorem snapshotKeyText_eq_intercalate (source layer aoiId aoiVersion iso
    kind : String) :
    snapshotKeyText source layer aoiId aoiVersion iso kind =
      String.intercalate "/"
        ["snapshots", "source=" ++ source, "layer=" ++ layer, "aoi=" ++ aoiId,
          "aoi_version=" ++ aoiVersion, "requested_time=" ++ iso,
          kind ++ ".geojson"] := by
  have hhead : "snapshots/source=" = "snapshots" ++ "/source=" := by decide
  have hsource : "/source=" = "/" ++ "source=" := by decide
  have hlayer : "/layer=" = "/" ++ "layer=" := by decide
  have hversion : "/aoi_version=" = "/" ++ "aoi_version=" := by decide
  unfold snapshotKeyText
  rw [hhead, hsource, hlayer, hversion]
  simp only [String.intercalate_cons_cons, String.intercalate_singleton,
    String.append_assoc]

/-- The text of the key of a change layer, part by part. -/
theorem changesetObjectKey_eq_intercalate (source layer aoiId aoiVersion version
    isoA isoB : String) :
    changesetObjectKey source layer aoiId aoiVersion version isoA isoB =
      String.intercalate "/"
        ["changesets", "source=" ++ source, "layer=" ++ layer, "aoi=" ++ aoiId,
          "aoi_version=" ++ aoiVersion, "algorithm_version=" ++ version,
          isoA ++ "_to_" ++ isoB, "change_layer.geojson"] := by
  have hhead : "changesets/source=" = "changesets" ++ "/source=" := by decide
  have hsource : "/source=" = "/" ++ "source=" := by decide
  have hlayer : "/layer=" = "/" ++ "layer=" := by decide
  have hversion : "/aoi_version=" = "/" ++ "aoi_version=" := by decide
  have htail : "/change_layer.geojson" = "/" ++ "change_layer.geojson" := by decide
  unfold changesetObjectKey
  rw [hhead, hsource, hlayer, hversion, htail]
  simp only [String.intercalate_cons_cons, String.intercalate_singleton,
    String.append_assoc]

/-- A text without slashes. -/
@[ext] structure PathText where
  text : String
  noSlash : '/' ∉ text.toList

/-- A text without slashes that `parse_instant` accepts. -/
@[ext] structure InstantText extends PathText where
  parses : ∃ instant, parseInstant text = .ok instant

/-- A call of one of the two functions that name objects. -/
inductive KeyCall where
  | snapshot (source layer aoiId aoiVersion : PathText)
      (requestedTimeIso : InstantText) (kind : PathText)
  | changeset (source layer aoiId aoiVersion algorithmVersion : PathText)
      (requestedTimeAIso requestedTimeBIso : InstantText)

namespace KeyCall

/-- What the call returns. -/
def run : KeyCall → Except PyError String
  | snapshot source layer aoiId aoiVersion requestedTimeIso kind =>
      snapshotObjectKey source.text layer.text aoiId.text aoiVersion.text
        requestedTimeIso.text kind.text
  | changeset source layer aoiId aoiVersion algorithmVersion requestedTimeAIso
      requestedTimeBIso =>
      .ok (changesetObjectKey source.text layer.text aoiId.text aoiVersion.text
        algorithmVersion.text requestedTimeAIso.text requestedTimeBIso.text)

/-- The parts of the key between its slashes. -/
def segments : KeyCall → List String
  | snapshot source layer aoiId aoiVersion requestedTimeIso kind =>
      ["snapshots", "source=" ++ source.text, "layer=" ++ layer.text,
        "aoi=" ++ aoiId.text, "aoi_version=" ++ aoiVersion.text,
        "requested_time=" ++ requestedTimeIso.text, kind.text ++ ".geojson"]
  | changeset source layer aoiId aoiVersion algorithmVersion requestedTimeAIso
      requestedTimeBIso =>
      ["changesets", "source=" ++ source.text, "layer=" ++ layer.text,
        "aoi=" ++ aoiId.text, "aoi_version=" ++ aoiVersion.text,
        "algorithm_version=" ++ algorithmVersion.text,
        requestedTimeAIso.text ++ "_to_" ++ requestedTimeBIso.text,
        "change_layer.geojson"]

/-- A key is its parts, joined by slashes. -/
theorem eq_intercalate_of_run {call : KeyCall} {key : String}
    (h : call.run = .ok key) :
    key = String.intercalate (String.singleton '/') call.segments := by
  cases call with
  | snapshot source layer aoiId aoiVersion iso kind =>
      change snapshotObjectKey source.text layer.text aoiId.text aoiVersion.text
        iso.text kind.text = .ok key at h
      unfold snapshotObjectKey at h
      split_ifs at h
      rw [← Except.ok.inj h]
      exact snapshotKeyText_eq_intercalate _ _ _ _ _ _
  | changeset source layer aoiId aoiVersion version isoA isoB =>
      unfold run at h
      rw [← Except.ok.inj h]
      exact changesetObjectKey_eq_intercalate _ _ _ _ _ _ _

/-- No part of a key has a slash. -/
theorem noSlash_segments (call : KeyCall) :
    ∀ segment ∈ call.segments, '/' ∉ segment.toList := by
  have hprefix : ∀ {name : String} {part : PathText}, '/' ∉ name.toList →
      '/' ∉ (name ++ part.text).toList := by
    intro name part hname
    rw [String.toList_append, List.mem_append, not_or]
    exact ⟨hname, part.noSlash⟩
  cases call with
  | snapshot source layer aoiId aoiVersion iso kind =>
      have hkind : '/' ∉ (kind.text ++ ".geojson").toList := by
        rw [String.toList_append, List.mem_append, not_or]
        exact ⟨kind.noSlash, by decide⟩
      simp only [segments, List.forall_mem_cons]
      exact ⟨by decide, hprefix (by decide), hprefix (by decide),
        hprefix (by decide), hprefix (by decide), hprefix (by decide), hkind,
        by simp⟩
  | changeset source layer aoiId aoiVersion version isoA isoB =>
      have hpair : '/' ∉ (isoA.text ++ "_to_" ++ isoB.text).toList := by
        rw [String.toList_append, String.toList_append, List.mem_append,
          List.mem_append, not_or, not_or]
        exact ⟨⟨isoA.noSlash, by decide⟩, isoB.noSlash⟩
      simp only [segments, List.forall_mem_cons]
      exact ⟨by decide, hprefix (by decide), hprefix (by decide),
        hprefix (by decide), hprefix (by decide), hprefix (by decide), hpair,
        by decide, by simp⟩

/-- The parts of a key are found again by splitting it. -/
theorem split_of_run {call : KeyCall} {key : String} (h : call.run = .ok key) :
    split '/' key = call.segments := by
  rw [eq_intercalate_of_run h]
  refine split_intercalate call.noSlash_segments ?_
  cases call <;> simp [segments]

/-- Two instants are found again in the part that names both. -/
theorem pair_inj {isoA isoB isoA' isoB' : InstantText}
    (h : isoA.text ++ "_to_" ++ isoB.text = isoA'.text ++ "_to_" ++ isoB'.text) :
    isoA = isoA' ∧ isoB = isoB' := by
  have hno : ∀ iso : InstantText, '_' ∉ iso.text.toList := by
    intro iso
    obtain ⟨instant, hparse⟩ := iso.parses
    exact not_mem_of_parseInstant hparse
  have hto : "_to_".toList = '_' :: "to_".toList := by decide
  have hchars := congrArg String.toList h
  simp only [String.toList_append, hto, List.append_assoc, List.cons_append]
    at hchars
  obtain ⟨hA, hB⟩ := (append_cons_eq_iff (hno _) (hno _)).mp hchars
  exact ⟨InstantText.ext (String.toList_inj.mp hA),
    InstantText.ext (String.toList_inj.mp (List.append_cancel_left hB))⟩

/-- The parts of a key determine the call. -/
theorem segments_injective : Function.Injective segments := by
  intro call call' h
  cases call with
  | snapshot source layer aoiId aoiVersion iso kind =>
      cases call' with
      | snapshot source' layer' aoiId' aoiVersion' iso' kind' =>
          simp only [segments, List.cons.injEq, String.append_right_inj,
            String.append_left_inj, true_and, and_true] at h
          obtain ⟨hsource, hlayer, hid, hversion, hiso, hkind⟩ := h
          rw [PathText.ext hsource, PathText.ext hlayer, PathText.ext hid,
            PathText.ext hversion, InstantText.ext hiso, PathText.ext hkind]
      | changeset => simp [segments] at h
  | changeset source layer aoiId aoiVersion version isoA isoB =>
      cases call' with
      | snapshot => simp [segments] at h
      | changeset source' layer' aoiId' aoiVersion' version' isoA' isoB' =>
          simp only [segments, List.cons.injEq, String.append_right_inj,
            true_and, and_true] at h
          obtain ⟨hsource, hlayer, hid, hversion, halgorithm, hpair⟩ := h
          obtain ⟨rfl, rfl⟩ := pair_inj hpair
          rw [PathText.ext hsource, PathText.ext hlayer, PathText.ext hid,
            PathText.ext hversion, PathText.ext halgorithm]

/-- A key tells the function and all of its arguments. -/
theorem run_injective {call call' : KeyCall} {key : String}
    (h : call.run = .ok key) (h' : call'.run = .ok key) :
    call = call' :=
  segments_injective ((split_of_run h).symm.trans (split_of_run h'))

end KeyCall

section Puts

variable {J : Type}

/-- A call of `put_json`. -/
structure Put (J : Type) where
  bucket : Bucket
  key : String
  data : Document J

/-- The call stores under the bucket and the key. -/
def Put.To (put : Put J) (bucket : Bucket) (key : String) : Prop :=
  (put.bucket.name, put.key) = (bucket.name, key)

instance (put : Put J) (bucket : Bucket) (key : String) :
    Decidable (put.To bucket key) :=
  inferInstanceAs (Decidable ((put.bucket.name, put.key) = (bucket.name, key)))

/-- The store after some calls. -/
def putAll (objects : Objects J) (puts : List (Put J)) : Objects J :=
  puts.foldl (fun objects put =>
    (putJson objects put.bucket put.key put.data).2) objects

/-- The document that the calls put last under a bucket and a key. -/
def lastStored (puts : List (Put J)) (bucket : Bucket) (key : String) :
    Option (Document J) :=
  ((puts.filter (fun put => put.To bucket key)).getLast?).map Put.data

/-- After any calls, a URI gets what was put there last, or what it got
before. -/
theorem getJson_putAll (objects : Objects J) (puts : List (Put J)) (bucket : Bucket)
    (key : String) :
    getJson (putAll objects puts) (objectUri bucket key) =
      match lastStored puts bucket key with
      | some data => .ok data
      | none => getJson objects (objectUri bucket key) := by
  induction puts using List.reverseRecOn with
  | nil => rfl
  | append_singleton puts put ih =>
      have hstep : putAll objects (puts ++ [put]) =
          (putAll objects puts).set (put.bucket.name, put.key) put.data := by
        simp [putAll, putJson]
      by_cases hto : put.To bucket key
      · have hlast : lastStored (puts ++ [put]) bucket key = some put.data := by
          simp [lastStored, List.filter_append, hto]
        have hsame : (bucket.name, key) = (put.bucket.name, put.key) := hto.symm
        rw [hstep, hlast, getJson, if_pos (isPrefixOf_objectUri bucket key),
          bucketAndKey_objectUri, hsame, Dict.get?_set, if_pos rfl]
      · have hlast : lastStored (puts ++ [put]) bucket key =
            lastStored puts bucket key := by
          simp [lastStored, List.filter_append, hto]
        have hother : (bucket.name, key) ≠ (put.bucket.name, put.key) :=
          fun h => hto h.symm
        rw [hstep, hlast, ← ih]
        simp only [getJson, bucketAndKey_objectUri, Dict.get?_set, if_neg hother]

end Puts

/-- Keys identify what they store: a key belongs to one call, a returned URI reads
the bucket and the key that were written, and after any calls it gets the
document put there last. -/
theorem object_keys_identify (J : Type) :
    (∀ (call call' : KeyCall) (key : String),
      call.run = .ok key → call'.run = .ok key → call = call') ∧
    (∀ (objects : Objects J) (bucket : Bucket) (key : String) (data : Document J),
      "s3://".toList.isPrefixOf
        (putJson objects bucket key data).1.toList = true ∧
      bucketAndKey (putJson objects bucket key data).1 = (bucket.name, key)) ∧
    ∀ (objects : Objects J) (puts : List (Put J)) (put : Put J)
      (later : List (Put J)), (∀ q ∈ later, ¬ q.To put.bucket put.key) →
      getJson (putAll objects (puts ++ put :: later))
        (putJson (putAll objects puts) put.bucket put.key put.data).1 =
          .ok put.data := by
  refine ⟨?_, ?_, ?_⟩
  · intro call call' key h h'
    exact KeyCall.run_injective h h'
  · intro objects bucket key data
    exact ⟨isPrefixOf_objectUri bucket key, bucketAndKey_objectUri bucket key⟩
  · intro objects puts put later hlater
    have hlast : lastStored (puts ++ put :: later) put.bucket put.key =
        some put.data := by
      have hnone : later.filter (fun q => q.To put.bucket put.key) = [] := by
        simpa using hlater
      have hself : put.To put.bucket put.key := rfl
      simp [lastStored, List.filter_append, hnone, hself]
    exact (getJson_putAll objects _ put.bucket put.key).trans (by rw [hlast])

end VectorMapChanges
