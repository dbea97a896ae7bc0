import VectorMapChanges.Api.Lookups
import VectorMapChanges.Timestamps
import VectorMapChanges.Web.IntervalRows
import VectorMapChanges.Web.Timeline

/-!
# The ticks and brackets of the interval timeline

`ChangesetTimeline` sorts the dates of all changesets as texts, spreads them evenly,
and draws each changeset as a bracket from the tick of its first date to that of its
second, or a little wider.  The texts are those of the API, whose order is that of the
days, so that the brackets lie on the track as the intervals lie in time.

Main facts:
* `xPercent_lt_iff`: an earlier tick is further to the left;
* `drawnInTime_of_ordered`: which ticks a bracket covers.
-/

namespace VectorMapChanges
namespace Web

open Lib Api

section Track

/-- `dates` -/
def dates (iso : Instant → String) (changesets : List ChangesetPayload) :
    List String :=
  sorted (distinct (changesets.flatMap
    fun cs => [isoDate (iso cs.timeA), isoDate (iso cs.timeB)]))

/-- `dates.indexOf(date)` -/
def indexOf (dates : List String) (date : String) : Int :=
  if date ∈ dates then dates.idxOf date else -1

/-- `xPercent` -/
def xPercent (dates : List String) (date : String) : ℚ :=
  if 1 < dates.length then indexOf dates date / ((dates.length : ℚ) - 1) * 100 else 50

/-- The bracket of a changeset, with its place on the track in percent and its row in
pixels. -/
structure Bracket where
  key : Nat
  label : String
  pressed : Bool
  top : Nat
  left : ℚ
  width : ℚ
deriving DecidableEq

/-- `ROW_HEIGHT` -/
def rowHeight : Nat := 28

/-- `ROW_GAP` -/
def rowGap : Nat := 10

/-- The bracket of a changeset in a row. -/
def bracket (iso : Instant → String) (dates : List String) (selectedId : Option Nat)
    (rowIndex : Nat) (cs : ChangesetPayload) : Bracket :=
  let left := xPercent dates (isoDate (iso cs.timeA))
  let right := xPercent dates (isoDate (iso cs.timeB))
  { key := cs.id
    label := cs.spanLabel
    pressed := selectedId = some cs.id
    top := rowIndex * (rowHeight + rowGap)
    left := left
    width := max (right - left) 2 }

/-- All brackets, from top to bottom. -/
def brackets (iso : Instant → String) (changesets : List ChangesetPayload)
    (selectedId : Option Nat) : List Bracket :=
  (rows changesets).zipIdx.flatMap fun row =>
    row.1.items.map (bracket iso (dates iso changesets) selectedId row.2)

variable {iso : Instant → String} {changesets : List ChangesetPayload}
  {selectedId : Option Nat}

theorem pairwise_dates (iso : Instant → String) (changesets : List ChangesetPayload) :
    (dates iso changesets).Pairwise (· < ·) := by
  apply pairwise_lt_sortBy
  exact (List.map_id _).symm ▸ nodup_distinct _

/-- One of the two instants of a changeset. -/
def IsEndpoint (changesets : List ChangesetPayload) (t : Instant) : Prop :=
  ∃ cs ∈ changesets, t = cs.timeA ∨ t = cs.timeB

theorem mem_dates (iso : Instant → String) {t : Instant} (h : IsEndpoint changesets t) :
    isoDate (iso t) ∈ dates iso changesets := by
  obtain ⟨cs, hcs, heq⟩ := h
  rw [dates, mem_sortBy, mem_distinct, List.mem_flatMap]
  refine ⟨cs, hcs, ?_⟩
  rcases heq with rfl | rfl
  · exact List.mem_cons_self
  · exact List.mem_cons_of_mem _ (List.mem_singleton_self _)

/-- The brackets are those of the changesets. -/
theorem mem_brackets_iff {b : Bracket} :
    b ∈ brackets iso changesets selectedId ↔ ∃ cs ∈ changesets, ∃ rowIndex row,
      (rows changesets)[rowIndex]? = some row ∧ cs ∈ row.items ∧
      b = bracket iso (dates iso changesets) selectedId rowIndex cs := by
  rw [brackets, List.mem_flatMap]
  constructor
  · rintro ⟨⟨row, rowIndex⟩, hrow, hb⟩
    obtain ⟨cs, hcs, rfl⟩ := List.mem_map.mp hb
    have hget := List.mem_zipIdx_iff_getElem?.mp hrow
    exact ⟨cs, mem_rows_iff.mp ⟨row, List.mem_of_getElem? hget, hcs⟩, rowIndex, row, hget,
      hcs, rfl⟩
  · rintro ⟨cs, -, rowIndex, row, hget, hcs, rfl⟩
    exact ⟨(row, rowIndex), List.mem_zipIdx_iff_getElem?.mpr hget,
      List.mem_map_of_mem hcs⟩

section Places

variable {ds : List String} {x y : String}

/-- The place of a tick. -/
theorem xPercent_of_mem (h : 1 < ds.length) (hx : x ∈ ds) :
    xPercent ds x = (ds.idxOf x : ℚ) / ((ds.length : ℚ) - 1) * 100 := by
  rw [xPercent, if_pos h, indexOf, if_pos hx, Int.cast_natCast]

/-- The track from its first to its last tick. -/
theorem xPercent_bounds (hx : x ∈ ds) : 0 ≤ xPercent ds x ∧ xPercent ds x ≤ 100 := by
  by_cases h : 1 < ds.length
  · have hidx : ds.idxOf x + 1 ≤ ds.length := List.idxOf_lt_length_of_mem hx
    have hidx : (ds.idxOf x : ℚ) + 1 ≤ ds.length := by
      exact_mod_cast hidx
    have hlast : (0 : ℚ) < ds.length - 1 := by
      have hlength : (1 : ℚ) < ds.length := by
        exact_mod_cast h
      linarith
    rw [xPercent_of_mem h hx]
    constructor
    · positivity
    · have hle : (ds.idxOf x : ℚ) / ((ds.length : ℚ) - 1) ≤ 1 := by
        rw [div_le_one hlast]
        linarith
      linarith
  · rw [xPercent, if_neg h]
    norm_num

/-- The ticks are as far apart as their positions. -/
theorem xPercent_sub (h : 1 < ds.length) (hx : x ∈ ds) (hy : y ∈ ds) :
    xPercent ds y - xPercent ds x =
      ((ds.idxOf y : ℚ) - ds.idxOf x) / ((ds.length : ℚ) - 1) * 100 := by
  rw [xPercent_of_mem h hx, xPercent_of_mem h hy]
  ring

/-- An earlier tick is further to the left. -/
theorem xPercent_lt_iff (hsorted : ds.Pairwise (· < ·)) (hx : x ∈ ds) (hy : y ∈ ds) :
    xPercent ds x < xPercent ds y ↔ x < y := by
  rw [← idxOf_lt_idxOf_iff hsorted hx hy]
  by_cases h : 1 < ds.length
  · have hlast : (0 : ℚ) < ds.length - 1 := by
      have hlength : (1 : ℚ) < ds.length := by
        exact_mod_cast h
      linarith
    rw [xPercent_of_mem h hx, xPercent_of_mem h hy,
      mul_lt_mul_iff_left₀ (by norm_num), div_lt_div_iff_of_pos_right hlast, Nat.cast_lt]
  · have hidx := List.idxOf_lt_length_of_mem hx
    have hidy := List.idxOf_lt_length_of_mem hy
    rw [xPercent, if_neg h, xPercent, if_neg h]
    refine iff_of_false (lt_irrefl _) ?_
    omega

/-- Ticks of different dates are two percent apart if they are few. -/
theorem two_le_xPercent_sub (hsorted : ds.Pairwise (· < ·)) (hfew : ds.length ≤ 51)
    (hx : x ∈ ds) (hy : y ∈ ds) (hlt : x < y) :
    2 ≤ xPercent ds y - xPercent ds x := by
  have hidx := (idxOf_lt_idxOf_iff hsorted hx hy).mpr hlt
  have hidy := List.idxOf_lt_length_of_mem hy
  have h : 1 < ds.length := by
    omega
  have hone : (1 : ℚ) ≤ (ds.idxOf y : ℚ) - ds.idxOf x := by
    have hle : (ds.idxOf x : ℚ) + 1 ≤ ds.idxOf y := by
      exact_mod_cast hidx
    linarith
  have hlast : (0 : ℚ) < ds.length - 1 := by
    have hlength : (1 : ℚ) < ds.length := by
      exact_mod_cast h
    linarith
  have hfew : (ds.length : ℚ) - 1 ≤ 50 := by
    have hle : (ds.length : ℚ) ≤ 51 := by
      exact_mod_cast hfew
    linarith
  rw [xPercent_sub h hx hy]
  have hstep : 1 / 50 ≤ ((ds.idxOf y : ℚ) - ds.idxOf x) / ((ds.length : ℚ) - 1) := by
    rw [div_le_div_iff₀ (by norm_num) hlast]
    linarith
  linarith

end Places

/-- The tick of an instant. -/
def tickOf (iso : Instant → String) (changesets : List ChangesetPayload) (t : Instant) :
    ℚ :=
  xPercent (dates iso changesets) (isoDate (iso t))

/-- The bracket reaches over the tick. -/
def Bracket.Covers (b : Bracket) (x : ℚ) : Prop :=
  b.left ≤ x ∧ x ≤ b.left + b.width

/-- The track is drawn in time: the ticks are ordered as the days, and the bracket of
every changeset begins at its first day and covers the days up to its second.  It
covers no others if the dates are few. -/
structure DrawnInTime (iso : Instant → String) (changesets : List ChangesetPayload)
    (selectedId : Option Nat) : Prop where
  ticks : ∀ s t, IsEndpoint changesets s → IsEndpoint changesets t →
    (tickOf iso changesets s < tickOf iso changesets t ↔ s.dayNumber < t.dayNumber)
  track : ∀ t, IsEndpoint changesets t →
    0 ≤ tickOf iso changesets t ∧ tickOf iso changesets t ≤ 100
  drawn : ∀ cs ∈ changesets, ∃ b ∈ brackets iso changesets selectedId, b.key = cs.id
  covers : ∀ b ∈ brackets iso changesets selectedId, ∃ cs ∈ changesets, b.key = cs.id ∧
    b.left = tickOf iso changesets cs.timeA ∧
    ∀ t, IsEndpoint changesets t →
      (cs.timeA.dayNumber ≤ t.dayNumber → t.dayNumber ≤ cs.timeB.dayNumber →
        b.Covers (tickOf iso changesets t)) ∧
      ((dates iso changesets).length ≤ 51 → cs.timeA.dayNumber < cs.timeB.dayNumber →
        b.Covers (tickOf iso changesets t) →
          cs.timeA.dayNumber ≤ t.dayNumber ∧ t.dayNumber ≤ cs.timeB.dayNumber)

/-- The texts of the dates are ordered as the days. -/
def OrderedDates (iso : Instant → String) (changesets : List ChangesetPayload) : Prop :=
  ∀ s t, IsEndpoint changesets s → IsEndpoint changesets t →
    (isoDate (iso s) < isoDate (iso t) ↔ s.dayNumber < t.dayNumber)

theorem drawnInTime_of_ordered (h : OrderedDates iso changesets)
    (selectedId : Option Nat) : DrawnInTime iso changesets selectedId := by
  have hticks : ∀ s t, IsEndpoint changesets s → IsEndpoint changesets t →
      (tickOf iso changesets s < tickOf iso changesets t ↔
        s.dayNumber < t.dayNumber) := by
    intro s t hs ht
    rw [← h s t hs ht]
    exact xPercent_lt_iff (pairwise_dates iso changesets) (mem_dates iso hs)
      (mem_dates iso ht)
  have hle : ∀ s t, IsEndpoint changesets s → IsEndpoint changesets t →
      (tickOf iso changesets s ≤ tickOf iso changesets t ↔
        s.dayNumber ≤ t.dayNumber) := by
    intro s t hs ht
    rw [← not_lt, ← not_lt, hticks t s ht hs]
  refine ⟨hticks, fun t ht => xPercent_bounds (mem_dates iso ht), ?_, ?_⟩
  · intro cs hcs
    obtain ⟨row, hrow, hitem⟩ := mem_rows_iff.mpr hcs
    obtain ⟨rowIndex, hget⟩ := List.mem_iff_getElem?.mp hrow
    exact ⟨_, mem_brackets_iff.mpr ⟨cs, hcs, rowIndex, row, hget, hitem, rfl⟩, rfl⟩
  · intro b hb
    obtain ⟨cs, hcs, rowIndex, row, -, -, rfl⟩ := mem_brackets_iff.mp hb
    have hA : IsEndpoint changesets cs.timeA := ⟨cs, hcs, Or.inl rfl⟩
    have hB : IsEndpoint changesets cs.timeB := ⟨cs, hcs, Or.inr rfl⟩
    refine ⟨cs, hcs, rfl, rfl, ?_⟩
    intro t ht
    change (_ → _ → tickOf iso changesets cs.timeA ≤ tickOf iso changesets t ∧
        tickOf iso changesets t ≤ tickOf iso changesets cs.timeA +
          max (tickOf iso changesets cs.timeB - tickOf iso changesets cs.timeA) 2) ∧
      (_ → _ → tickOf iso changesets cs.timeA ≤ tickOf iso changesets t ∧
        tickOf iso changesets t ≤ tickOf iso changesets cs.timeA +
          max (tickOf iso changesets cs.timeB - tickOf iso changesets cs.timeA) 2 → _)
    constructor
    · intro hfrom hto
      have hright := (hle t cs.timeB ht hB).mpr hto
      have hwide := le_max_left
        (tickOf iso changesets cs.timeB - tickOf iso changesets cs.timeA) 2
      exact ⟨(hle cs.timeA t hA ht).mpr hfrom, by linarith⟩
    · rintro hfew hlonger ⟨hfrom, hto⟩
      -- neighbouring ticks are two percent apart, so that the bracket ends at its date
      have hwidth : 2 ≤ tickOf iso changesets cs.timeB - tickOf iso changesets cs.timeA :=
        two_le_xPercent_sub (pairwise_dates iso changesets) hfew (mem_dates iso hA)
          (mem_dates iso hB) ((h cs.timeA cs.timeB hA hB).mpr hlonger)
      rw [max_eq_left hwidth] at hto
      exact ⟨(hle cs.timeA t hA ht).mp hfrom, (hle t cs.timeB ht hB).mp (by linarith)⟩

/-- Instants of the calendar have such dates in the answers of the API. -/
theorem isoDate_isoformat_lt_iff {s t : Instant} (hs : s.Valid) (ht : t.Valid) :
    isoDate (isoformat s) < isoDate (isoformat t) ↔ s.dayNumber < t.dayNumber := by
  have hdate : ∀ t : Instant, (isoDate (isoformat t)).toList = t.dateText := by
    intro t
    rw [isoDate, isoformat, String.toList_ofList, String.toList_ofList,
      List.take_left' (length_dateText t)]
  rw [String.lt_iff_toList_lt, hdate, hdate, dateText_lt_iff hs ht]
  exact (Gregorian.dayNumber_lt_iff hs.date ht.date).symm

end Track

end Web
end VectorMapChanges
