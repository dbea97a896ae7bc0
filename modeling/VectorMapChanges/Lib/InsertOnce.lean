import VectorMapChanges.Lib.Table
import Mathlib.Logic.Function.Basic
import Mathlib.Logic.Relation

/-!
# Insert once under READ COMMITTED

Calls that each insert a row unless its natural key is taken, read the stored row
back when it was, and commit.  A statement sees the rows that were committed
before it.  An insertion waits while another call has inserted the same key and
not committed yet, and a conflict uses up the id that the sequence had handed
out.  A call may roll back at any point before its commit.  Rows are never
deleted.

Main facts:
* `step_cases`: what one step does;
* `sound_step`, `sound_reachable`: keys and ids stay unique, whatever is read back
  is stored, and a call creates its row exactly when it is the first of its key to
  commit;
* `firstWriterWins`: what the calls can rely on.
-/

namespace Lib
namespace InsertOnce

universe u v w x

/-- A row with the time at which the call that inserts it began. -/
structure Stamped (ρ : Type v) (θ : Type x) where
  params : ρ
  time : θ
deriving DecidableEq

/-- Where a call stands; rows are given by their id and their time. -/
inductive Phase (θ : Type x) where
  | idle
  | inserting (id : Nat) (time : θ)
  | inserted (id : Nat) (time : θ)
  | conflicted
  | readBack (row : Option (Nat × θ))
  | returned (row : Option (Nat × θ)) (created : Bool)
  | rolledBack
deriving DecidableEq

namespace Phase

variable {θ : Type x}

/-- The id that a call has been given for a row which is not committed. -/
def held : Phase θ → Option Nat
  | inserting id _ => some id
  | inserted id _ => some id
  | _ => none

/-- The call has inserted a row and not committed it. -/
def pending : Phase θ → Option (Nat × θ)
  | inserted id time => some (id, time)
  | _ => none

/-- What the call has read back. -/
def found : Phase θ → Option (Option (Nat × θ))
  | readBack row => some row
  | _ => none

/-- What the call has returned: a row, and whether it was created. -/
def result : Phase θ → Option (Option (Nat × θ) × Bool)
  | returned row created => some (row, created)
  | _ => none

end Phase

/-- The committed rows with their ids, the sequence of the ids, the calls, and the
order in which they have committed. -/
structure State (τ : Type u) (ρ : Type v) (θ : Type x) where
  rows : List (Nat × Stamped ρ θ)
  nextId : Nat
  phase : τ → Phase θ
  log : List τ

section System

variable {τ : Type u} {ρ : Type v} {κ : Type w} {θ : Type x}
  (key : ρ → κ) (params : τ → ρ)

/-- The natural key is that of a committed row. -/
def State.Taken (s : State τ ρ θ) (k : κ) : Prop :=
  ∃ row ∈ s.rows, key row.2.params = k

/-- Another call has inserted the same natural key and not committed yet. -/
def State.Waits (s : State τ ρ θ) (t : τ) : Prop :=
  ∃ other, other ≠ t ∧ (s.phase other).pending ≠ none ∧
    key (params other) = key (params t)

/-- The committed row with a natural key. -/
def State.lookup [DecidableEq κ] (s : State τ ρ θ) (k : κ) : Option (Nat × θ) :=
  (s.rows.find? (fun row => key row.2.params = k)).map
    (fun row => (row.1, row.2.time))

variable [DecidableEq τ]

/-- A call moves to another phase. -/
def State.enter (s : State τ ρ θ) (t : τ) (phase : Phase θ) : State τ ρ θ :=
  { s with phase := Function.update s.phase t phase }

/-- A call begins: it takes an id, and the time. -/
def State.begin (s : State τ ρ θ) (t : τ) (time : θ) : State τ ρ θ :=
  { s.enter t (.inserting s.nextId time) with nextId := s.nextId + 1 }

/-- A call commits the rows that it has inserted, and returns. -/
def State.commit (s : State τ ρ θ) (t : τ) (inserted : List (Nat × Stamped ρ θ))
    (row : Option (Nat × θ)) (created : Bool) : State τ ρ θ :=
  { s.enter t (.returned row created) with
    rows := s.rows ++ inserted
    log := s.log ++ [t] }

variable [DecidableEq κ]

/-- One step of one call.  A row is only inserted if the table accepts it. -/
inductive Step (accepts : ρ → Prop) (s : State τ ρ θ) : State τ ρ θ → Prop
  | begin (t : τ) (time : θ) :
      s.phase t = .idle → Step accepts s (s.begin t time)
  | insert (t : τ) (id : Nat) (time : θ) :
      s.phase t = .inserting id time → ¬ s.Waits key params t →
      ¬ s.Taken key (key (params t)) → accepts (params t) →
      Step accepts s (s.enter t (.inserted id time))
  | conflict (t : τ) (id : Nat) (time : θ) :
      s.phase t = .inserting id time → s.Taken key (key (params t)) →
      Step accepts s (s.enter t .conflicted)
  | readBack (t : τ) :
      s.phase t = .conflicted →
      Step accepts s (s.enter t (.readBack (s.lookup key (key (params t)))))
  | commitInserted (t : τ) (id : Nat) (time : θ) :
      s.phase t = .inserted id time →
      Step accepts s (s.commit t [(id, ⟨params t, time⟩)] (some (id, time)) true)
  | commitFound (t : τ) (row : Option (Nat × θ)) :
      s.phase t = .readBack row →
      Step accepts s (s.commit t [] row false)
  | rollback (t : τ) :
      (s.phase t).result = none →
      Step accepts s (s.enter t .rolledBack)

/-- A state that steps of the calls lead to. -/
def Reachable (accepts : ρ → Prop) : State τ ρ θ → State τ ρ θ → Prop :=
  Relation.ReflTransGen (Step key params accepts)

section Invariants

variable {key params} {s s' : State τ ρ θ}

/-- A step moves one call that has not returned yet, or commits one. -/
theorem step_cases {accepts : ρ → Prop} (h : Step key params accepts s s') :
    (∃ t phase, s'.phase = Function.update s.phase t phase ∧
      s'.rows = s.rows ∧ s'.log = s.log ∧ s.nextId ≤ s'.nextId ∧
      (s.phase t).result = none ∧ phase.result = none ∧
      (∀ id ∈ phase.held,
        id ∈ (s.phase t).held ∨ id = s.nextId ∧ s'.nextId = s.nextId + 1) ∧
      (phase.pending ≠ none →
        ¬ s.Waits key params t ∧ ¬ s.Taken key (key (params t))) ∧
      (phase = .conflicted → s.Taken key (key (params t))) ∧
      ∀ row ∈ phase.found, s.phase t = .conflicted ∧
        row = s.lookup key (key (params t))) ∨
    (∃ t id time, s.phase t = .inserted id time ∧
      s' = s.commit t [(id, ⟨params t, time⟩)] (some (id, time)) true) ∨
    ∃ t row, s.phase t = .readBack row ∧ s' = s.commit t [] row false := by
  cases h with
  | begin t time hphase =>
      refine Or.inl ⟨t, _, rfl, rfl, rfl, Nat.le_succ _, ?_⟩
      simp [hphase, Phase.result, Phase.held, Phase.pending, Phase.found,
        State.begin]
  | insert t id time hphase hwaits htaken _ =>
      refine Or.inl ⟨t, _, rfl, rfl, rfl, Nat.le_refl _, ?_⟩
      simp [hphase, Phase.result, Phase.held, Phase.pending, Phase.found, hwaits,
        htaken]
  | conflict t id time hphase htaken =>
      refine Or.inl ⟨t, _, rfl, rfl, rfl, Nat.le_refl _, ?_⟩
      simp [hphase, Phase.result, Phase.held, Phase.pending, Phase.found, htaken]
  | readBack t hphase =>
      refine Or.inl ⟨t, _, rfl, rfl, rfl, Nat.le_refl _, ?_⟩
      simp [hphase, Phase.result, Phase.held, Phase.pending, Phase.found]
  | commitInserted t id time hphase =>
      exact Or.inr (Or.inl ⟨t, id, time, hphase, rfl⟩)
  | commitFound t row hphase =>
      exact Or.inr (Or.inr ⟨t, row, hphase, rfl⟩)
  | rollback t hphase =>
      refine Or.inl ⟨t, _, rfl, rfl, rfl, Nat.le_refl _, hphase, ?_⟩
      simp [Phase.result, Phase.held, Phase.pending, Phase.found]

section Commit

variable {t u : τ} {inserted : List (Nat × Stamped ρ θ)} {row : Option (Nat × θ)}
  {created : Bool}

omit [DecidableEq κ]

/-- A commit is the return of its call, and leaves the others where they are. -/
theorem phase_commit (s : State τ ρ θ) (t u : τ)
    (inserted : List (Nat × Stamped ρ θ)) (row : Option (Nat × θ))
    (created : Bool) :
    u = t ∧ (s.commit t inserted row created).phase u = .returned row created ∨
      u ≠ t ∧ (s.commit t inserted row created).phase u = s.phase u := by
  simp only [State.commit, State.enter, Function.update_apply]
  by_cases hut : u = t
  · exact Or.inl ⟨hut, if_pos hut⟩
  · exact Or.inr ⟨hut, if_neg hut⟩

theorem held_commit {id : Nat}
    (h : id ∈ ((s.commit t inserted row created).phase u).held) :
    u ≠ t ∧ id ∈ (s.phase u).held := by
  rcases phase_commit s t u inserted row created with ⟨-, hphase⟩ | ⟨hne, hphase⟩
  · rw [hphase] at h
    cases h
  · exact ⟨hne, hphase ▸ h⟩

theorem pending_commit
    (h : ((s.commit t inserted row created).phase u).pending ≠ none) :
    u ≠ t ∧ (s.phase u).pending ≠ none := by
  rcases phase_commit s t u inserted row created with ⟨-, hphase⟩ | ⟨hne, hphase⟩
  · rw [hphase] at h
    exact absurd rfl h
  · exact ⟨hne, hphase ▸ h⟩

end Commit

/-- The ids are unique, those that calls hold included. -/
structure Ids (s : State τ ρ θ) : Prop where
  nodup : (s.rows.map Prod.fst).Nodup
  lt : ∀ row ∈ s.rows, row.1 < s.nextId
  held_lt : ∀ t, ∀ id ∈ (s.phase t).held, id < s.nextId
  held_new : ∀ t, ∀ id ∈ (s.phase t).held, id ∉ s.rows.map Prod.fst
  held_inj : ∀ t u id, id ∈ (s.phase t).held → id ∈ (s.phase u).held → t = u

omit [DecidableEq κ] in
/-- A call that moves holds what it held before, or the next id. -/
theorem ids_move {t : τ} {phase : Phase θ} (hids : Ids s)
    (hphase : s'.phase = Function.update s.phase t phase) (hrows : s'.rows = s.rows)
    (hnext : s.nextId ≤ s'.nextId)
    (hheld : ∀ id ∈ phase.held,
      id ∈ (s.phase t).held ∨ id = s.nextId ∧ s'.nextId = s.nextId + 1) :
    Ids s' := by
  have hlt : ∀ u, ∀ id ∈ (s'.phase u).held,
      (u = t ∧ id = s.nextId ∧ s'.nextId = s.nextId + 1) ∨
        id ∈ (s.phase u).held := by
    intro u id hid
    rw [hphase, Function.update_apply] at hid
    split at hid
    · rename_i hut
      rcases hheld id hid with h | h
      · exact Or.inr (hut ▸ h)
      · exact Or.inl ⟨hut, h⟩
    · exact Or.inr hid
  refine ⟨hrows ▸ hids.nodup, ?_, ?_, ?_, ?_⟩
  · intro row hrow
    rw [hrows] at hrow
    exact Nat.lt_of_lt_of_le (hids.lt row hrow) hnext
  · intro u id hid
    rcases hlt u id hid with ⟨-, rfl, h⟩ | h
    · omega
    · exact Nat.lt_of_lt_of_le (hids.held_lt u id h) hnext
  · intro u id hid
    rw [hrows]
    rcases hlt u id hid with ⟨-, rfl, -⟩ | h
    · intro hmem
      obtain ⟨row, hrow, hrowId⟩ := List.mem_map.mp hmem
      exact absurd (hids.lt row hrow) (by omega)
    · exact hids.held_new u id h
  · intro u v id hu hv
    rcases hlt u id hu with ⟨rfl, rfl, -⟩ | hu
    · rcases hlt v _ hv with ⟨rfl, -, -⟩ | hv
      · rfl
      · exact absurd (hids.held_lt v _ hv) (Nat.lt_irrefl _)
    · rcases hlt v id hv with ⟨rfl, rfl, -⟩ | hv
      · exact absurd (hids.held_lt u _ hu) (Nat.lt_irrefl _)
      · exact hids.held_inj u v id hu hv

omit [DecidableEq κ] in
/-- A call commits rows whose ids it held, and holds nothing any more. -/
theorem ids_commit {t : τ} {inserted : List (Nat × Stamped ρ θ)}
    {row : Option (Nat × θ)} {created : Bool} (hids : Ids s)
    (hnodup : (inserted.map Prod.fst).Nodup)
    (hown : ∀ id ∈ inserted.map Prod.fst, id ∈ (s.phase t).held) :
    Ids (s.commit t inserted row created) := by
  refine ⟨?_, ?_, ?_, ?_, ?_⟩
  · simp only [State.commit, List.map_append]
    refine hids.nodup.append hnodup ?_
    intro id hold hid
    exact hids.held_new t id (hown id hid) hold
  · intro row hrow
    rcases List.mem_append.mp hrow with h | h
    · exact hids.lt row h
    · exact hids.held_lt t row.1 (hown row.1 (List.mem_map_of_mem h))
  · exact fun u other hu => hids.held_lt u other (held_commit hu).2
  · intro u other hu
    obtain ⟨hne, hheld⟩ := held_commit hu
    simp only [State.commit, List.map_append, List.mem_append, not_or]
    refine ⟨hids.held_new u other hheld, ?_⟩
    intro hid
    exact hne (hids.held_inj u t other hheld (hown other hid))
  · exact fun u v other hu hv =>
      hids.held_inj u v other (held_commit hu).2 (held_commit hv).2

theorem ids_step {accepts : ρ → Prop} (hids : Ids s)
    (h : Step key params accepts s s') : Ids s' := by
  rcases step_cases h with
    ⟨t, phase, hphase, hrows, -, hnext, -, -, hheld, -, -, -⟩ |
      ⟨t, id, time, hinserted, rfl⟩ | ⟨t, row, hread, rfl⟩
  · exact ids_move hids hphase hrows hnext hheld
  · refine ids_commit hids (List.nodup_singleton _) ?_
    intro other hother
    rw [List.mem_singleton.mp hother, hinserted]
    exact rfl
  · exact ids_commit hids List.nodup_nil (fun id hid => nomatch hid)

/-- The natural keys are unique, those of uncommitted rows included. -/
structure Keys (key : ρ → κ) (params : τ → ρ) (s : State τ ρ θ) : Prop where
  nodup : (s.rows.map (fun row => key row.2.params)).Nodup
  pending_new : ∀ t, (s.phase t).pending ≠ none → ¬ s.Taken key (key (params t))
  pending_inj : ∀ t u, (s.phase t).pending ≠ none → (s.phase u).pending ≠ none →
    key (params t) = key (params u) → t = u

omit [DecidableEq τ] [DecidableEq κ] in
theorem taken_congr (hrows : s'.rows = s.rows) {k : κ} :
    s'.Taken key k ↔ s.Taken key k := by
  unfold State.Taken
  rw [hrows]

omit [DecidableEq κ] in
/-- A call that moves to a row of its own waited for the calls of its key. -/
theorem keys_move {t : τ} {phase : Phase θ} (hkeys : Keys key params s)
    (hphase : s'.phase = Function.update s.phase t phase) (hrows : s'.rows = s.rows)
    (hnew : phase.pending ≠ none →
      ¬ s.Waits key params t ∧ ¬ s.Taken key (key (params t))) :
    Keys key params s' := by
  have hpending : ∀ u, (s'.phase u).pending ≠ none →
      (u = t ∧ phase.pending ≠ none) ∨ (s.phase u).pending ≠ none := by
    intro u hu
    rw [hphase, Function.update_apply] at hu
    split at hu
    · exact Or.inl ⟨‹_›, hu⟩
    · exact Or.inr hu
  have hfree : ∀ u, phase.pending ≠ none → (s.phase u).pending ≠ none →
      key (params u) = key (params t) → u = t := by
    intro u ht hu hkey
    by_contra hne
    exact (hnew ht).1 ⟨u, hne, hu, hkey⟩
  refine ⟨hrows ▸ hkeys.nodup, ?_, ?_⟩
  · intro u hu
    rw [taken_congr hrows]
    rcases hpending u hu with ⟨rfl, h⟩ | h
    · exact (hnew h).2
    · exact hkeys.pending_new u h
  · intro u v hu hv hkey
    rcases hpending u hu with ⟨rfl, hu⟩ | hu
    · rcases hpending v hv with ⟨rfl, -⟩ | hv
      · rfl
      · exact (hfree v hu hv hkey.symm).symm
    · rcases hpending v hv with ⟨rfl, hv⟩ | hv
      · exact hfree u hv hu hkey
      · exact hkeys.pending_inj u v hu hv hkey

omit [DecidableEq κ] in
/-- A call commits its own row, or none. -/
theorem keys_commit {t : τ} {inserted : List (Nat × Stamped ρ θ)}
    {row : Option (Nat × θ)} {created : Bool} (hkeys : Keys key params s)
    (hnodup : (inserted.map (fun row => key row.2.params)).Nodup)
    (hown : ∀ k ∈ inserted.map (fun row => key row.2.params),
      k = key (params t) ∧ (s.phase t).pending ≠ none) :
    Keys key params (s.commit t inserted row created) := by
  refine ⟨?_, ?_, ?_⟩
  · simp only [State.commit, List.map_append]
    refine hkeys.nodup.append hnodup ?_
    intro k hold hk
    obtain ⟨rfl, hpending⟩ := hown k hk
    obtain ⟨row, hrow, hkey⟩ := List.mem_map.mp hold
    exact hkeys.pending_new t hpending ⟨row, hrow, hkey⟩
  · rintro u hu ⟨row, hrow, hkey⟩
    obtain ⟨hne, hold⟩ := pending_commit hu
    rcases List.mem_append.mp hrow with h | h
    · exact hkeys.pending_new u hold ⟨row, h, hkey⟩
    · obtain ⟨hsame, hpending⟩ := hown _ (List.mem_map_of_mem h)
      exact hne (hkeys.pending_inj u t hold hpending (hkey.symm.trans hsame))
  · exact fun u v hu hv =>
      hkeys.pending_inj u v (pending_commit hu).2 (pending_commit hv).2

theorem keys_step {accepts : ρ → Prop} (hkeys : Keys key params s)
    (h : Step key params accepts s s') : Keys key params s' := by
  rcases step_cases h with
    ⟨t, phase, hphase, hrows, -, -, -, -, -, hnew, -, -⟩ |
      ⟨t, id, time, hinserted, rfl⟩ | ⟨t, row, hread, rfl⟩
  · exact keys_move hkeys hphase hrows hnew
  · refine keys_commit hkeys (List.nodup_singleton _) ?_
    intro k hk
    refine ⟨List.mem_singleton.mp hk, ?_⟩
    rw [hinserted]
    exact Option.some_ne_none _
  · exact keys_commit hkeys List.nodup_nil (fun k hk => nomatch hk)

/-- The row is the stored one with the natural key of the call. -/
def Answers (key : ρ → κ) (params : τ → ρ) (s : State τ ρ θ) (t : τ)
    (row : Option (Nat × θ)) : Prop :=
  ∃ stored ∈ s.rows, key stored.2.params = key (params t) ∧
    row = some (stored.1, stored.2.time)

omit [DecidableEq τ] [DecidableEq κ] in
theorem Answers.mono {t : τ} {row : Option (Nat × θ)}
    (h : Answers key params s t row) (hrows : ∀ row ∈ s.rows, row ∈ s'.rows) :
    Answers key params s' t row := by
  obtain ⟨stored, hstored, hkey, hrow⟩ := h
  exact ⟨stored, hrows stored hstored, hkey, hrow⟩

omit [DecidableEq τ] in
/-- A taken key is found. -/
theorem answers_lookup {t : τ} (h : s.Taken key (key (params t))) :
    Answers key params s t (s.lookup key (key (params t))) := by
  obtain ⟨row, hrow, hkey⟩ := h
  cases hfound : s.rows.find? (fun row => key row.2.params = key (params t)) with
  | none =>
      have hnone := List.find?_eq_none.mp hfound row hrow
      simp [hkey] at hnone
  | some stored =>
      refine ⟨stored, List.mem_of_find?_eq_some hfound, ?_, ?_⟩
      · simpa using List.find?_some hfound
      · rw [State.lookup, hfound]
        rfl

/-- What a call has been told is stored. -/
structure Answered (key : ρ → κ) (params : τ → ρ) (s : State τ ρ θ) : Prop where
  conflicted : ∀ t, s.phase t = .conflicted → s.Taken key (key (params t))
  found : ∀ t, ∀ row ∈ (s.phase t).found, Answers key params s t row
  result : ∀ t, ∀ r ∈ (s.phase t).result, Answers key params s t r.1

/-- Rows stay. -/
theorem rows_step {accepts : ρ → Prop} (h : Step key params accepts s s') :
    s.rows <+: s'.rows := by
  rcases step_cases h with
    ⟨t, phase, -, hrows, -⟩ | ⟨t, id, time, -, rfl⟩ | ⟨t, row, -, rfl⟩
  · exact hrows ▸ List.prefix_rfl
  · exact List.prefix_append _ _
  · exact List.prefix_append _ _

omit [DecidableEq κ] in
theorem answered_commit {t : τ} {inserted : List (Nat × Stamped ρ θ)}
    {row : Option (Nat × θ)} {created : Bool} (hanswered : Answered key params s)
    (hown : Answers key params (s.commit t inserted row created) t row) :
    Answered key params (s.commit t inserted row created) := by
  have hkeep : ∀ stored ∈ s.rows, stored ∈ (s.commit t inserted row created).rows :=
    fun _ hstored => List.mem_append_left _ hstored
  refine ⟨?_, ?_, ?_⟩
  · intro u hu
    rcases phase_commit s t u inserted row created with ⟨-, hphase⟩ | ⟨-, hphase⟩
    · rw [hphase] at hu
      cases hu
    · obtain ⟨stored, hstored, hkey⟩ := hanswered.conflicted u (hphase ▸ hu)
      exact ⟨stored, hkeep stored hstored, hkey⟩
  · intro u found hu
    rcases phase_commit s t u inserted row created with ⟨-, hphase⟩ | ⟨-, hphase⟩
    · rw [hphase] at hu
      cases hu
    · exact (hanswered.found u found (hphase ▸ hu)).mono hkeep
  · intro u r hu
    rcases phase_commit s t u inserted row created with ⟨rfl, hphase⟩ | ⟨-, hphase⟩
    · rw [hphase] at hu
      cases hu
      exact hown
    · exact (hanswered.result u r (hphase ▸ hu)).mono hkeep

theorem answered_step {accepts : ρ → Prop} (hanswered : Answered key params s)
    (h : Step key params accepts s s') : Answered key params s' := by
  have hkeep : ∀ row ∈ s.rows, row ∈ s'.rows :=
    fun _ hrow => (rows_step h).subset hrow
  have htaken : ∀ k, s.Taken key k → s'.Taken key k := by
    rintro k ⟨row, hrow, hkey⟩
    exact ⟨row, hkeep row hrow, hkey⟩
  rcases step_cases h with
    ⟨t, phase, hphase, -, -, -, -, hreturned, -, -, hconflicted, hfound⟩ |
      ⟨t, id, time, hinserted, rfl⟩ | ⟨t, row, hread, rfl⟩
  · refine ⟨?_, ?_, ?_⟩
    · intro u hu
      rw [hphase, Function.update_apply] at hu
      split at hu
      · rename_i hut
        exact htaken _ (hut ▸ hconflicted hu)
      · exact htaken _ (hanswered.conflicted u hu)
    · intro u row hu
      rw [hphase, Function.update_apply] at hu
      split at hu
      · rename_i hut
        obtain ⟨hwas, rfl⟩ := hfound row hu
        rw [hut]
        exact (answers_lookup (hanswered.conflicted t hwas)).mono hkeep
      · exact (hanswered.found u row hu).mono hkeep
    · intro u r hu
      rw [hphase, Function.update_apply] at hu
      split at hu
      · rw [hreturned] at hu
        cases hu
      · exact (hanswered.result u r hu).mono hkeep
  · exact answered_commit hanswered
      ⟨_, List.mem_append_right _ List.mem_cons_self, rfl, rfl⟩
  · have hown : row ∈ (s.phase t).found := by
      rw [hread]
      exact rfl
    exact answered_commit hanswered ((hanswered.found t row hown).mono hkeep)

/-- The log tells who created what: a call creates the row of its natural key
exactly when the table did not have the key before all calls, and no call of the
key has committed before it. -/
structure Logged (key : ρ → κ) (params : τ → ρ) (old : List (Nat × Stamped ρ θ))
    (s : State τ ρ θ) : Prop where
  mem_log : ∀ t, t ∈ s.log ↔ (s.phase t).result ≠ none
  old_rows : ∀ row ∈ old, row ∈ s.rows
  creator : ∀ row ∈ s.rows, row ∈ old ∨ ∃ t ∈ s.log, row.2.params = params t
  created_row : ∀ t row, (s.phase t).result = some (row, true) →
    ∃ stored ∈ s.rows, stored.2.params = params t ∧
      row = some (stored.1, stored.2.time)
  created_iff : ∀ before t after, s.log = before ++ t :: after →
    ∀ r ∈ (s.phase t).result, (r.2 = true ↔
      (∀ row ∈ old, key row.2.params ≠ key (params t)) ∧
        ∀ u ∈ before, key (params u) ≠ key (params t))

variable {old : List (Nat × Stamped ρ θ)}

omit [DecidableEq τ] [DecidableEq κ] in
theorem logged_move (hlogged : Logged key params old s) (hrows : s'.rows = s.rows)
    (hlog : s'.log = s.log)
    (hresult : ∀ t, (s'.phase t).result = (s.phase t).result) :
    Logged key params old s' where
  mem_log t := by rw [hlog, hresult, hlogged.mem_log]
  old_rows := by
    rw [hrows]
    exact hlogged.old_rows
  creator := by
    rw [hrows, hlog]
    exact hlogged.creator
  created_row t row h := by
    rw [hresult] at h
    rw [hrows]
    exact hlogged.created_row t row h
  created_iff before t after h := by
    rw [hlog] at h
    rw [hresult]
    exact hlogged.created_iff before t after h

omit [DecidableEq κ] in
theorem logged_commit {t : τ} {inserted : List (Nat × Stamped ρ θ)}
    {row : Option (Nat × θ)} {created : Bool} (hlogged : Logged key params old s)
    (ht : (s.phase t).result = none)
    (hinserted : ∀ stored ∈ inserted, stored.2.params = params t)
    (hrow : created = true → ∃ stored ∈ inserted,
      row = some (stored.1, stored.2.time))
    (hcreated : created = true ↔
      (∀ row ∈ old, key row.2.params ≠ key (params t)) ∧
        ∀ u ∈ s.log, key (params u) ≠ key (params t)) :
    Logged key params old (s.commit t inserted row created) := by
  have hnot : t ∉ s.log := fun h => (hlogged.mem_log t).mp h ht
  have hresult : ∀ u ≠ t, ((s.commit t inserted row created).phase u).result =
      (s.phase u).result := by
    intro u hne
    rcases phase_commit s t u inserted row created with ⟨hut, -⟩ | ⟨-, hphase⟩
    · exact absurd hut hne
    · rw [hphase]
  have hown : ((s.commit t inserted row created).phase t).result =
      some (row, created) := by
    rcases phase_commit s t t inserted row created with ⟨-, hphase⟩ | ⟨hne, -⟩
    · rw [hphase]
      rfl
    · exact absurd rfl hne
  refine ⟨?_, ?_, ?_, ?_, ?_⟩
  · intro u
    show u ∈ s.log ++ [t] ↔ _
    rw [List.mem_append, List.mem_singleton]
    by_cases hut : u = t
    · rw [hut, hown]
      simp
    · rw [hresult u hut, ← hlogged.mem_log]
      simp [hut]
  · exact fun stored hstored => List.mem_append_left _ (hlogged.old_rows stored hstored)
  · intro stored hstored
    show _ ∨ ∃ u ∈ s.log ++ [t], _
    rcases List.mem_append.mp hstored with h | h
    · rcases hlogged.creator stored h with hold | ⟨u, hu, hparams⟩
      · exact Or.inl hold
      · exact Or.inr ⟨u, List.mem_append_left _ hu, hparams⟩
    · exact Or.inr ⟨t, List.mem_append_right _ List.mem_cons_self,
        hinserted stored h⟩
  · intro u urow hu
    by_cases hut : u = t
    · rw [hut, hown] at hu
      cases hu
      obtain ⟨stored, hstored, hvalue⟩ := hrow rfl
      exact ⟨stored, List.mem_append_right _ hstored,
        hut ▸ hinserted stored hstored, hvalue⟩
    · rw [hresult u hut] at hu
      obtain ⟨stored, hstored, hparams, hvalue⟩ := hlogged.created_row u urow hu
      exact ⟨stored, List.mem_append_left _ hstored, hparams, hvalue⟩
  · intro before u after hlog r hr
    replace hlog : s.log ++ [t] = before ++ u :: after := hlog
    rcases List.eq_nil_or_concat after with rfl | ⟨after, last, rfl⟩
    · obtain ⟨rfl, hlast⟩ := List.append_inj' hlog rfl
      obtain rfl : t = u := List.head_eq_of_cons_eq hlast
      rw [hown] at hr
      cases hr
      exact hcreated
    · rw [List.concat_eq_append, ← List.cons_append, ← List.append_assoc] at hlog
      obtain ⟨hlog, -⟩ := List.append_inj' hlog rfl
      have hmem : u ∈ s.log := by
        rw [hlog]
        exact List.mem_append_right _ List.mem_cons_self
      have hut : u ≠ t := by
        rintro rfl
        exact hnot hmem
      rw [hresult u hut] at hr
      exact hlogged.created_iff before u after hlog r hr

theorem logged_step {accepts : ρ → Prop} (hkeys : Keys key params s)
    (hanswered : Answered key params s) (hlogged : Logged key params old s)
    (h : Step key params accepts s s') : Logged key params old s' := by
  rcases step_cases h with
    ⟨t, phase, hphase, hrows, hlog, -, hwas, hreturned, -⟩ |
      ⟨t, id, time, hinserted, rfl⟩ | ⟨t, row, hread, rfl⟩
  · refine logged_move hlogged hrows hlog ?_
    intro u
    rw [hphase, Function.update_apply]
    split
    · rename_i hut
      rw [hreturned, hut, hwas]
    · rfl
  · have hpending : (s.phase t).pending ≠ none := by
      rw [hinserted]
      exact Option.some_ne_none _
    have hnew := hkeys.pending_new t hpending
    refine logged_commit hlogged (by rw [hinserted]; rfl) (by simp)
      (fun _ => ⟨_, List.mem_cons_self, rfl⟩) ⟨fun _ => ⟨?_, ?_⟩, fun _ => rfl⟩
    · exact fun row hrow hkey => hnew ⟨row, hlogged.old_rows row hrow, hkey⟩
    · intro u hu hkey
      obtain ⟨r, hr⟩ := Option.ne_none_iff_exists'.mp ((hlogged.mem_log u).mp hu)
      obtain ⟨stored, hstored, hstoredKey, -⟩ := hanswered.result u r hr
      exact hnew ⟨stored, hstored, hstoredKey.trans hkey⟩
  · have hfound : row ∈ (s.phase t).found := by
      rw [hread]
      exact rfl
    obtain ⟨stored, hstored, hkey, -⟩ := hanswered.found t row hfound
    refine logged_commit hlogged (by rw [hread]; rfl) (by simp) (by simp) ?_
    constructor
    · intro h
      cases h
    · rintro ⟨hold, hlog⟩
      rcases hlogged.creator stored hstored with hmem | ⟨u, hu, hparams⟩
      · exact absurd hkey (hold stored hmem)
      · exact absurd (hparams ▸ hkey) (hlog u hu)

/-- All of the invariants, for the calls since the table had the old rows. -/
structure Sound (key : ρ → κ) (params : τ → ρ) (old : List (Nat × Stamped ρ θ))
    (s : State τ ρ θ) : Prop where
  ids : Ids s
  keys : Keys key params s
  answered : Answered key params s
  logged : Logged key params old s

theorem sound_step {accepts : ρ → Prop} (hsound : Sound key params old s)
    (h : Step key params accepts s s') : Sound key params old s' where
  ids := ids_step hsound.ids h
  keys := keys_step hsound.keys h
  answered := answered_step hsound.answered h
  logged := logged_step hsound.keys hsound.answered hsound.logged h

theorem sound_reachable {accepts : ρ → Prop} (hsound : Sound key params old s)
    (h : Reachable key params accepts s s') : Sound key params old s' := by
  induction h with
  | refl => exact hsound
  | tail _ hstep ih => exact sound_step ih hstep

/-- Rows are kept for ever. -/
theorem rows_reachable {accepts : ρ → Prop}
    (h : Reachable key params accepts s s') : s.rows <+: s'.rows := by
  induction h with
  | refl => exact List.prefix_rfl
  | tail _ hstep ih => exact ih.trans (rows_step hstep)

/-- A step of a stricter table is one of a laxer table. -/
theorem Step.mono {accepts accepts' : ρ → Prop} (haccepts : ∀ v, accepts v → accepts' v)
    (h : Step key params accepts s s') : Step key params accepts' s s' := by
  cases h with
  | begin t time hphase => exact .begin t time hphase
  | insert t id time hphase hwaits htaken haccept =>
      exact .insert t id time hphase hwaits htaken (haccepts _ haccept)
  | conflict t id time hphase htaken => exact .conflict t id time hphase htaken
  | readBack t hphase => exact .readBack t hphase
  | commitInserted t id time hphase => exact .commitInserted t id time hphase
  | commitFound t row hphase => exact .commitFound t row hphase
  | rollback t hphase => exact .rollback t hphase

/-- A table before all calls. -/
def State.start (table : KeyedTable (fun row : Stamped ρ θ => key row.params)) :
    State τ ρ θ where
  rows := table.rows
  nextId := table.nextId
  phase := fun _ => .idle
  log := []

omit [DecidableEq τ] [DecidableEq κ] in
theorem sound_start (table : KeyedTable (fun row : Stamped ρ θ => key row.params)) :
    Sound key params table.rows (State.start table : State τ ρ θ) where
  ids := ⟨table.nodupIds, table.ids_lt, nofun, nofun, nofun⟩
  keys := ⟨table.nodupKeys, fun _ h => absurd rfl h, fun _ _ h => absurd rfl h⟩
  answered := ⟨nofun, nofun, nofun⟩
  logged :=
    { mem_log := fun t => ⟨nofun, fun h => absurd rfl h⟩
      old_rows := fun _ hrow => hrow
      creator := fun _ hrow => Or.inl hrow
      created_row := nofun
      created_iff := fun before t after h => by
        have hnil : ([] : List τ) = before ++ t :: after := h
        simp at hnil }

/-- The committed rows without their times. -/
def State.stored (s : State τ ρ θ) : List (Nat × ρ) :=
  s.rows.map (fun row => (row.1, row.2.params))

/-- The committed rows, as a keyed table. -/
def State.toTable (s : State τ ρ θ) (ids : Ids s) (keys : Keys key params s) :
    KeyedTable key where
  rows := s.stored
  nextId := s.nextId
  nodupIds := by
    rw [State.stored, List.map_map]
    exact ids.nodup
  ids_lt := by
    intro row hrow
    obtain ⟨stored, hstored, rfl⟩ := List.mem_map.mp hrow
    exact ids.lt stored hstored
  nodupKeys := by
    rw [State.stored, List.map_map]
    exact keys.nodup

section Rules

variable (hsound : Sound key params old s)
include hsound

omit [DecidableEq τ] [DecidableEq κ] in
/-- Two calls of one natural key do not both create its row. -/
theorem created_unique {t u : τ} {row row' : Option (Nat × θ)}
    (ht : (s.phase t).result = some (row, true))
    (hu : (s.phase u).result = some (row', true))
    (hkey : key (params t) = key (params u)) : t = u := by
  have hmem : t ∈ s.log := (hsound.logged.mem_log t).mpr (by rw [ht]; simp)
  have hmem' : u ∈ s.log := (hsound.logged.mem_log u).mpr (by rw [hu]; simp)
  obtain ⟨before, after, hlog⟩ := List.append_of_mem hmem
  rw [hlog, List.mem_append, List.mem_cons] at hmem'
  rcases hmem' with h | h | h
  · have hfirst := (hsound.logged.created_iff before t after hlog _ ht).mp rfl
    exact absurd hkey.symm (hfirst.2 u h)
  · exact h.symm
  · obtain ⟨between, rest, rfl⟩ := List.append_of_mem h
    have hsplit : s.log = (before ++ t :: between) ++ u :: rest := by
      rw [hlog, List.append_assoc, List.cons_append]
    have hfirst := (hsound.logged.created_iff _ u rest hsplit _ hu).mp rfl
    exact absurd hkey
      (hfirst.2 t (List.mem_append_right _ List.mem_cons_self))

omit [DecidableEq τ] in
/-- Once a call of a new natural key has committed, some call has created its
row. -/
theorem exists_created {t : τ} (ht : t ∈ s.log)
    (hnew : ∀ row ∈ old, key row.2.params ≠ key (params t)) :
    ∃ u ∈ s.log, key (params u) = key (params t) ∧
      ∃ row, (s.phase u).result = some (row, true) := by
  have hsome : (s.log.find? (fun u => key (params u) = key (params t))).isSome := by
    rw [List.find?_isSome]
    exact ⟨t, ht, by simp⟩
  obtain ⟨u, hu⟩ := Option.isSome_iff_exists.mp hsome
  obtain ⟨hkey, before, after, hlog, hbefore⟩ :=
    List.find?_eq_some_iff_append.mp hu
  rw [decide_eq_true_iff] at hkey
  have hmem : u ∈ s.log := List.mem_of_find?_eq_some hu
  obtain ⟨⟨row, created⟩, hresult⟩ :=
    Option.ne_none_iff_exists'.mp ((hsound.logged.mem_log u).mp hmem)
  have hcreated : created = true := by
    refine (hsound.logged.created_iff before u after hlog _ hresult).mpr ⟨?_, ?_⟩
    · exact fun row hrow => hkey ▸ hnew row hrow
    · intro v hv
      rw [hkey]
      simpa using hbefore v hv
  rw [hcreated] at hresult
  exact ⟨u, hmem, hkey, row, hresult⟩

end Rules

/-- What calls can rely on that committed in one state, in it and in a later
one. -/
structure FirstWriterWins (key : ρ → κ) (params : τ → ρ)
    (old : List (Nat × Stamped ρ θ)) (s s' : State τ ρ θ) : Prop where
  /-- There is one row a natural key. -/
  uniqueKeys : (s'.rows.map (fun row => key row.2.params)).Nodup
  /-- Rows stay as they are. -/
  kept : ∀ row ∈ s.rows, row ∈ s'.rows
  /-- Of the calls of a new natural key that commit, one creates the row. -/
  created : ∀ t ∈ s.log, (∀ row ∈ old, key row.2.params ≠ key (params t)) →
    ∃! u, u ∈ s.log ∧ key (params u) = key (params t) ∧
      ∃ row, (s.phase u).result = some (row, true)
  /-- No call creates a row that was there before. -/
  notCreated : ∀ t ∈ s.log, (∃ row ∈ old, key row.2.params = key (params t)) →
    ∃ row, (s.phase t).result = some (row, false)
  /-- The first call of a new natural key that commits gives the row its values. -/
  first : ∀ before t after, s.log = before ++ t :: after →
    (∀ row ∈ old, key row.2.params ≠ key (params t)) →
    (∀ u ∈ before, key (params u) ≠ key (params t)) →
    ∃ id time, (s.phase t).result = some (some (id, time), true) ∧
      (id, ⟨params t, time⟩) ∈ s'.rows
  /-- A call that commits returns the id and the time of the row. -/
  reported : ∀ t ∈ s.log, ∃ row ∈ s'.rows, key row.2.params = key (params t) ∧
    ∃ created, (s.phase t).result = some (some (row.1, row.2.time), created)

/-- The first writer wins in every run. -/
theorem firstWriterWins {accepts : ρ → Prop} (hsound : Sound key params old s)
    (h : Reachable key params accepts s s') :
    FirstWriterWins key params old s s' := by
  have hkept : ∀ row ∈ s.rows, row ∈ s'.rows :=
    fun _ hrow => (rows_reachable h).subset hrow
  have hresult : ∀ t ∈ s.log, ∃ row created,
      (s.phase t).result = some (row, created) := by
    intro t ht
    obtain ⟨⟨row, created⟩, hrow⟩ :=
      Option.ne_none_iff_exists'.mp ((hsound.logged.mem_log t).mp ht)
    exact ⟨row, created, hrow⟩
  refine ⟨(sound_reachable hsound h).keys.nodup, hkept, ?_, ?_, ?_, ?_⟩
  · intro t ht hnew
    obtain ⟨u, hu, hkey, row, hcreated⟩ := exists_created hsound ht hnew
    refine ⟨u, ⟨hu, hkey, row, hcreated⟩, ?_⟩
    rintro v ⟨-, hvKey, row', hvCreated⟩
    exact created_unique hsound hvCreated hcreated (hvKey.trans hkey.symm)
  · rintro t ht ⟨row, hrow, hkey⟩
    obtain ⟨before, after, hlog⟩ := List.append_of_mem ht
    obtain ⟨returned, created, hreturned⟩ := hresult t ht
    cases created with
    | false => exact ⟨returned, hreturned⟩
    | true =>
        have hfirst :=
          (hsound.logged.created_iff before t after hlog _ hreturned).mp rfl
        exact absurd hkey (hfirst.1 row hrow)
  · intro before t after hlog hnew hbefore
    have ht : t ∈ s.log := by
      rw [hlog]
      exact List.mem_append_right _ List.mem_cons_self
    obtain ⟨returned, created, hreturned⟩ := hresult t ht
    have hcreated : created = true :=
      (hsound.logged.created_iff before t after hlog _ hreturned).mpr
        ⟨hnew, hbefore⟩
    rw [hcreated] at hreturned
    obtain ⟨⟨id, values, time⟩, hstored, hparams, rfl⟩ :=
      hsound.logged.created_row t returned hreturned
    obtain rfl : values = params t := hparams
    exact ⟨id, time, hreturned, hkept _ hstored⟩
  · intro t ht
    obtain ⟨returned, created, hreturned⟩ := hresult t ht
    obtain ⟨stored, hstored, hkey, hrow⟩ :=
      hsound.answered.result t _ hreturned
    obtain rfl : returned = some (stored.1, stored.2.time) := hrow
    exact ⟨stored, hkept stored hstored, hkey, created, hreturned⟩

end Invariants

end System
end InsertOnce
end Lib
