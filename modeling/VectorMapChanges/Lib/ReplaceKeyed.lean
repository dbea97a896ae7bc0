import VectorMapChanges.Lib.PartialRun
import VectorMapChanges.Lib.Table
import Mathlib.Data.Fintype.Basic
import Mathlib.Logic.Function.Basic

/-!
# Replacing keyed rows under READ COMMITTED

Transactions that each replace the rows of one scope of a table with a unique key: a
DELETE of the rows in scope, an INSERT of rows of their own one after the other, and a
commit.  A statement sees the rows that were committed before it started.  A DELETE
locks the rows that it saw; it waits while another transaction holds one of them
locked, and skips those that are gone.  An insertion waits while a row of its key is
inserted or deleted by another transaction that has not finished, and fails on a
committed row of its key that its own transaction has not deleted.  A transaction may
be lost at any point before its commit.

Main facts:
* `Step.of_advance`, `Step.of_lose`: what one event does;
* `Sound.step`: ids and keys stay unique, those of uncommitted rows included;
* `Whole.step`, `whole_of_run`: where any two transactions contend for a key, the
  scope always holds the rows of one transaction;
* `run_alone`: a transaction that runs alone replaces the scope.
-/

namespace Lib
namespace ReplaceKeyed

universe u v w

/-- Where a transaction stands; `seen` are the ids that its DELETE saw. -/
inductive Phase (ρ : Type v) where
  | idle
  | deleting (seen : List Nat)
  | inserting (seen : List Nat) (todo : List ρ) (done : List (Nat × ρ))
  | committed
  | conflicted
  | lost
deriving DecidableEq

namespace Phase

variable {ρ : Type v}

/-- What the DELETE of an open transaction saw. -/
def saw : Phase ρ → Option (List Nat)
  | deleting seen => some seen
  | inserting seen _ _ => some seen
  | _ => none

/-- The ids whose rows a transaction holds locked. -/
def locks : Phase ρ → List Nat
  | inserting seen _ _ => seen
  | _ => []

/-- The rows that a transaction has inserted and not committed. -/
def pending : Phase ρ → List (Nat × ρ)
  | inserting _ _ done => done
  | _ => []

/-- The transaction has neither committed nor failed. -/
def Open : Phase ρ → Prop
  | committed | conflicted | lost => False
  | _ => True

instance : (phase : Phase ρ) → Decidable phase.Open
  | idle | deleting _ | inserting _ _ _ => .isTrue trivial
  | committed | conflicted | lost => .isFalse id

end Phase

/-- The committed rows with their ids, the sequence of the ids, and the
transactions. -/
structure State (τ : Type u) (ρ : Type v) where
  rows : List (Nat × ρ)
  nextId : Nat
  phase : τ → Phase ρ

/-- What can happen to a transaction: its next step, or the loss of its
connection. -/
inductive Event (τ : Type u) where
  | advance (t : τ)
  | lose (t : τ)
deriving DecidableEq

section System

variable {τ : Type u} {ρ : Type v} {κ : Type w} (key : ρ → κ) (inScope : ρ → Bool)
  (payload : τ → List ρ)

/-- The committed rows in scope. -/
def State.scope (s : State τ ρ) : List (Nat × ρ) :=
  s.rows.filter (fun row => inScope row.2)

variable [DecidableEq τ]

/-- The transaction moves to another phase. -/
def State.enter (s : State τ ρ) (t : τ) (phase : Phase ρ) : State τ ρ :=
  { s with phase := Function.update s.phase t phase }

/-- The insertion uses up an id. -/
def State.draw (s : State τ ρ) : State τ ρ :=
  { s with nextId := s.nextId + 1 }

/-- The transaction commits: what it deleted goes, what it inserted comes. -/
def State.commit (s : State τ ρ) (t : τ) (seen : List Nat)
    (done : List (Nat × ρ)) : State τ ρ where
  rows := s.rows.filter
    (fun row => !(inScope row.2 && decide (row.1 ∈ seen))) ++ done
  nextId := s.nextId
  phase := Function.update s.phase t .committed

/-- Another transaction holds one of these rows locked. -/
def State.Waits (s : State τ ρ) (t : τ) (seen : List Nat) : Prop :=
  ∃ other, other ≠ t ∧ ∃ row ∈ s.rows,
    row.1 ∈ seen ∧ row.1 ∈ (s.phase other).locks

/-- Another transaction has inserted or deleted a row of the key. -/
def State.Blocked (s : State τ ρ) (t : τ) (k : κ) : Prop :=
  ∃ other, other ≠ t ∧ ((∃ row ∈ (s.phase other).pending, key row.2 = k) ∨
    ∃ row ∈ s.rows, row.1 ∈ (s.phase other).locks ∧ key row.2 = k)

/-- A row of the key is there: a committed one that the transaction has not deleted,
or one of its own. -/
def State.Clashes (s : State τ ρ) (seen : List Nat) (done : List (Nat × ρ)) (k : κ) :
    Prop :=
  (∃ row ∈ s.rows, key row.2 = k ∧ row.1 ∉ seen) ∨ ∃ row ∈ done, key row.2 = k

section Decide

variable [Fintype τ] [DecidableEq κ]

instance (s : State τ ρ) (t : τ) (seen : List Nat) : Decidable (s.Waits t seen) :=
  inferInstanceAs (Decidable (∃ other, other ≠ t ∧ ∃ row ∈ s.rows,
    row.1 ∈ seen ∧ row.1 ∈ (s.phase other).locks))

instance (s : State τ ρ) (t : τ) (k : κ) : Decidable (s.Blocked key t k) :=
  inferInstanceAs (Decidable (∃ other, other ≠ t ∧
    ((∃ row ∈ (s.phase other).pending, key row.2 = k) ∨
      ∃ row ∈ s.rows, row.1 ∈ (s.phase other).locks ∧ key row.2 = k)))

instance (s : State τ ρ) (seen : List Nat) (done : List (Nat × ρ)) (k : κ) :
    Decidable (s.Clashes key seen done k) :=
  inferInstanceAs (Decidable ((∃ row ∈ s.rows, key row.2 = k ∧ row.1 ∉ seen) ∨
    ∃ row ∈ done, key row.2 = k))

/-- The next step of a transaction, unless it has to wait or has none. -/
def advance (s : State τ ρ) (t : τ) : Option (State τ ρ) :=
  match s.phase t with
  | .idle => some (s.enter t (.deleting ((s.scope inScope).map Prod.fst)))
  | .deleting seen =>
      if s.Waits t seen then none else some (s.enter t (.inserting seen (payload t) []))
  | .inserting seen (value :: todo) done =>
      if s.Blocked key t (key value) then none
      else if s.Clashes key seen done (key value) then
        some (s.draw.enter t .conflicted)
      else some (s.draw.enter t (.inserting seen todo (done ++ [(s.nextId, value)])))
  | .inserting seen [] done => some (s.commit inScope t seen done)
  | .committed | .conflicted | .lost => none

/-- What an event does. -/
def step (s : State τ ρ) : Event τ → Option (State τ ρ)
  | .advance t => advance key inScope payload s t
  | .lose t => if (s.phase t).Open then some (s.enter t .lost) else none

/-- The state after the events of a schedule. -/
def run (s : State τ ρ) (schedule : List (Event τ)) : Option (State τ ρ) :=
  runFrom (step key inScope payload) s schedule

end Decide

/-- What one event does. -/
inductive Step (s : State τ ρ) : State τ ρ → Prop
  | start (t : τ) :
      s.phase t = .idle →
      Step s (s.enter t (.deleting ((s.scope inScope).map Prod.fst)))
  | begin (t : τ) (seen : List Nat) :
      s.phase t = .deleting seen → Step s (s.enter t (.inserting seen (payload t) []))
  | insert (t : τ) (seen : List Nat) (value : ρ) (todo : List ρ)
      (done : List (Nat × ρ)) :
      s.phase t = .inserting seen (value :: todo) done →
      ¬ s.Blocked key t (key value) → ¬ s.Clashes key seen done (key value) →
      Step s (s.draw.enter t (.inserting seen todo (done ++ [(s.nextId, value)])))
  | conflict (t : τ) (seen : List Nat) (value : ρ) (todo : List ρ)
      (done : List (Nat × ρ)) :
      s.phase t = .inserting seen (value :: todo) done →
      s.Clashes key seen done (key value) → Step s (s.draw.enter t .conflicted)
  | commit (t : τ) (seen : List Nat) (done : List (Nat × ρ)) :
      s.phase t = .inserting seen [] done → Step s (s.commit inScope t seen done)
  | lose (t : τ) : (s.phase t).Open → Step s (s.enter t .lost)

variable {key inScope payload} {s s' : State τ ρ}

theorem Step.of_step [Fintype τ] [DecidableEq κ] {event : Event τ}
    (h : step key inScope payload s event = some s') :
    Step key inScope payload s s' := by
  cases event with
  | advance t =>
      change advance key inScope payload s t = some s' at h
      unfold advance at h
      cases hphase : s.phase t with
      | idle =>
          rw [hphase] at h
          exact Option.some.inj h ▸ .start t hphase
      | deleting seen =>
          simp only [hphase, Option.ite_none_left_eq_some] at h
          exact Option.some.inj h.2 ▸ .begin t seen hphase
      | inserting seen todo done =>
          cases todo with
          | nil =>
              simp only [hphase] at h
              exact Option.some.inj h ▸ .commit t seen done hphase
          | cons value todo =>
              simp only [hphase, Option.ite_none_left_eq_some] at h
              obtain ⟨hfree, h⟩ := h
              by_cases hclash : s.Clashes key seen done (key value)
              · rw [if_pos hclash] at h
                exact Option.some.inj h ▸ .conflict t seen value todo done hphase hclash
              · rw [if_neg hclash] at h
                exact Option.some.inj h ▸
                  .insert t seen value todo done hphase hfree hclash
      | committed | conflicted | lost =>
          simp only [hphase] at h
          cases h
  | lose t =>
      simp only [step, Option.ite_none_right_eq_some] at h
      exact Option.some.inj h.2 ▸ .lose t h.1

variable (key inScope) in
/-- A step that commits nothing moves one transaction. -/
structure Move (s s' : State τ ρ) (t : τ) : Prop where
  others : ∀ u, u ≠ t → s'.phase u = s.phase u
  rows : s'.rows = s.rows
  nextId : s.nextId ≤ s'.nextId
  pending : ∀ row ∈ (s'.phase t).pending, row ∈ (s.phase t).pending ∨
    (row.1 = s.nextId ∧ s'.nextId = s.nextId + 1 ∧ ¬ s.Blocked key t (key row.2) ∧
      ∀ seen ∈ (s.phase t).saw, ∀ old ∈ s.rows, key old.2 = key row.2 → old.1 ∈ seen)
  saw : ∀ seen ∈ (s'.phase t).saw, seen ∈ (s.phase t).saw ∨
    seen = (s.scope inScope).map Prod.fst ∧ (s'.phase t).pending = []
  before : s.phase t ≠ .committed
  after : s'.phase t ≠ .committed
  conflicted : s'.phase t = .conflicted → ∃ seen value todo done,
    s.phase t = .inserting seen (value :: todo) done ∧
      s.Clashes key seen done (key value)

theorem phase_enter_self (s : State τ ρ) (t : τ) (phase : Phase ρ) :
    (s.enter t phase).phase t = phase := by
  show Function.update s.phase t phase t = phase
  rw [Function.update_self]

theorem phase_enter_of_ne (s : State τ ρ) {t u : τ} (h : u ≠ t) (phase : Phase ρ) :
    (s.enter t phase).phase u = s.phase u := by
  show Function.update s.phase t phase u = s.phase u
  rw [Function.update_of_ne h]

theorem Phase.Open.ne_committed {phase : Phase ρ} (h : phase.Open) :
    phase ≠ .committed := by
  rintro rfl
  exact h

/-- A transaction that gives up or waits holds nothing new. -/
theorem move_enter (t : τ) {phase : Phase ρ} (hopen : (s.phase t).Open)
    (hpending : phase.pending = []) (hcommitted : phase ≠ .committed)
    (hsaw : ∀ seen ∈ phase.saw, seen ∈ (s.phase t).saw ∨
      seen = (s.scope inScope).map Prod.fst)
    (hconflicted : phase = .conflicted → ∃ seen value todo done,
      s.phase t = .inserting seen (value :: todo) done ∧
        s.Clashes key seen done (key value)) :
    Move key inScope s (s.enter t phase) t := by
  refine ⟨fun u hu => phase_enter_of_ne s hu phase, rfl, Nat.le_refl _, ?_, ?_,
    hopen.ne_committed, ?_, ?_⟩
  · rw [phase_enter_self, hpending]
    intro row hrow
    cases hrow
  · rw [phase_enter_self, hpending]
    intro seen hseen
    exact (hsaw seen hseen).imp_right (fun h => ⟨h, rfl⟩)
  · rw [phase_enter_self]
    exact hcommitted
  · rw [phase_enter_self]
    exact hconflicted

/-- Drawing an id changes nothing else. -/
theorem Move.draw {t : τ} {phase : Phase ρ}
    (h : Move key inScope s (s.enter t phase) t) :
    Move key inScope s (s.draw.enter t phase) t :=
  { h with
    nextId := Nat.le_succ _
    pending := by
      intro row hrow
      refine (h.pending row hrow).imp_right ?_
      rintro ⟨-, hnext, -⟩
      exact absurd hnext (Nat.ne_of_lt (Nat.lt_succ_self _)) }

theorem Step.move_or_commit (h : Step key inScope payload s s') :
    (∃ t, Move key inScope s s' t) ∨
      ∃ t seen done, s.phase t = .inserting seen [] done ∧
        s' = s.commit inScope t seen done := by
  cases h with
  | start t hphase =>
      refine Or.inl ⟨t, move_enter t ?_ rfl (by simp) ?_ (by simp)⟩
      · rw [hphase]
        trivial
      · intro seen hseen
        exact Or.inr (Option.some.inj hseen).symm
  | begin t seen hphase =>
      refine Or.inl ⟨t, move_enter t ?_ rfl (by simp) ?_ (by simp)⟩
      · rw [hphase]
        trivial
      · intro saw hsaw
        rw [hphase]
        exact Or.inl hsaw
  | insert t seen value todo done hphase hfree hclash =>
      have hself := phase_enter_self s.draw t
        (.inserting seen todo (done ++ [(s.nextId, value)]))
      refine Or.inl ⟨t, fun u hu => phase_enter_of_ne s.draw hu _, rfl,
        Nat.le_succ _, ?_, ?_, ?_, ?_, ?_⟩
      · rw [hself, hphase]
        intro row hrow
        rcases List.mem_append.mp hrow with hold | hnew
        · exact Or.inl hold
        · obtain rfl := List.mem_singleton.mp hnew
          refine Or.inr ⟨rfl, rfl, hfree, ?_⟩
          intro saw hsaw old hold hkey
          obtain rfl := Option.some.inj hsaw
          by_contra hnot
          exact hclash (Or.inl ⟨old, hold, hkey, hnot⟩)
      · rw [hself, hphase]
        intro saw hsaw
        exact Or.inl hsaw
      · rw [hphase]
        simp
      · rw [hself]
        simp
      · rw [hself]
        simp
  | conflict t seen value todo done hphase hclash =>
      refine Or.inl ⟨t, (move_enter t ?_ rfl (by simp) (by simp [Phase.saw]) ?_).draw⟩
      · rw [hphase]
        trivial
      · intro _
        exact ⟨seen, value, todo, done, hphase, hclash⟩
  | commit t seen done hphase =>
      exact Or.inr ⟨t, seen, done, hphase, rfl⟩
  | lose t hopen =>
      exact Or.inl ⟨t, move_enter t hopen rfl (by simp) (by simp [Phase.saw]) (by simp)⟩

section Commit

variable {t u : τ} {seen : List Nat} {done : List (Nat × ρ)}

theorem phase_commit_self (s : State τ ρ) (t : τ) (seen : List Nat)
    (done : List (Nat × ρ)) :
    (s.commit inScope t seen done).phase t = .committed := by
  show Function.update s.phase t .committed t = .committed
  rw [Function.update_self]

theorem phase_commit_of_ne (s : State τ ρ) (h : u ≠ t) (seen : List Nat)
    (done : List (Nat × ρ)) :
    (s.commit inScope t seen done).phase u = s.phase u := by
  show Function.update s.phase t .committed u = s.phase u
  rw [Function.update_of_ne h]

/-- A commit lets go of what its transaction holds. -/
theorem pending_commit {row : Nat × ρ}
    (h : row ∈ ((s.commit inScope t seen done).phase u).pending) :
    u ≠ t ∧ row ∈ (s.phase u).pending := by
  by_cases hut : u = t
  · rw [hut, phase_commit_self] at h
    cases h
  · rw [phase_commit_of_ne s hut] at h
    exact ⟨hut, h⟩

theorem saw_commit {saw : List Nat}
    (h : saw ∈ ((s.commit inScope t seen done).phase u).saw) :
    u ≠ t ∧ saw ∈ (s.phase u).saw := by
  by_cases hut : u = t
  · rw [hut, phase_commit_self] at h
    cases h
  · rw [phase_commit_of_ne s hut] at h
    exact ⟨hut, h⟩

theorem mem_rows_commit {row : Nat × ρ}
    (h : row ∈ (s.commit inScope t seen done).rows) : row ∈ s.rows ∨ row ∈ done :=
  (List.mem_append.mp h).imp_left List.mem_of_mem_filter

end Commit

/-- The ids of uncommitted rows are new, and no DELETE saw them. -/
structure Ids (s : State τ ρ) : Prop where
  rows_lt : ∀ row ∈ s.rows, row.1 < s.nextId
  pending_lt : ∀ t, ∀ row ∈ (s.phase t).pending, row.1 < s.nextId
  seen_lt : ∀ t, ∀ seen ∈ (s.phase t).saw, ∀ id ∈ seen, id < s.nextId
  pending_new : ∀ t, ∀ row ∈ (s.phase t).pending, ∀ old ∈ s.rows, row.1 ≠ old.1
  pending_inj : ∀ t u, t ≠ u → ∀ row ∈ (s.phase t).pending,
    ∀ other ∈ (s.phase u).pending, row.1 ≠ other.1
  unseen : ∀ t u, ∀ seen ∈ (s.phase t).saw, ∀ row ∈ (s.phase u).pending,
    row.1 ∉ seen

/-- What a transaction holds after another one, or itself, has moved. -/
theorem Move.pending_cases {t : τ} (h : Move key inScope s s' t) {u : τ}
    {row : Nat × ρ} (hrow : row ∈ (s'.phase u).pending) :
    row ∈ (s.phase u).pending ∨ u = t ∧ row.1 = s.nextId ∧ s'.nextId = s.nextId + 1 ∧
      ¬ s.Blocked key t (key row.2) ∧
      ∀ seen ∈ (s.phase t).saw, ∀ old ∈ s.rows, key old.2 = key row.2 →
        old.1 ∈ seen := by
  by_cases hut : u = t
  · subst hut
    exact (h.pending row hrow).imp_right (fun h => ⟨rfl, h⟩)
  · rw [h.others u hut] at hrow
    exact Or.inl hrow

theorem Move.saw_cases {t : τ} (h : Move key inScope s s' t) {u : τ}
    {seen : List Nat} (hseen : seen ∈ (s'.phase u).saw) :
    seen ∈ (s.phase u).saw ∨ u = t ∧ seen = (s.scope inScope).map Prod.fst ∧
      (s'.phase t).pending = [] := by
  by_cases hut : u = t
  · subst hut
    exact (h.saw seen hseen).imp_right (fun h => ⟨rfl, h⟩)
  · rw [h.others u hut] at hseen
    exact Or.inl hseen

theorem Ids.move (h : Ids s) {t : τ} (hmove : Move key inScope s s' t) : Ids s' := by
  have hnext := hmove.nextId
  have hpending : ∀ u, ∀ row ∈ (s'.phase u).pending,
      row ∈ (s.phase u).pending ∨ u = t ∧ row.1 = s.nextId ∧
        s'.nextId = s.nextId + 1 := by
    intro u row hrow
    refine (hmove.pending_cases hrow).imp_right ?_
    rintro ⟨hut, hid, hdraw, -⟩
    exact ⟨hut, hid, hdraw⟩
  have hold : ∀ u, ∀ seen ∈ (s'.phase u).saw, ∀ id ∈ seen, id < s.nextId := by
    intro u seen hseen id hid
    rcases hmove.saw_cases hseen with hbefore | ⟨-, rfl, -⟩
    · exact h.seen_lt u seen hbefore id hid
    · obtain ⟨row, hrow, rfl⟩ := List.mem_map.mp hid
      exact h.rows_lt row (List.mem_of_mem_filter hrow)
  refine ⟨?_, ?_, ?_, ?_, ?_, ?_⟩
  · intro row hrow
    rw [hmove.rows] at hrow
    exact Nat.lt_of_lt_of_le (h.rows_lt row hrow) hnext
  · intro u row hrow
    rcases hpending u row hrow with hbefore | ⟨-, hid, hdraw⟩
    · exact Nat.lt_of_lt_of_le (h.pending_lt u row hbefore) hnext
    · omega
  · intro u seen hseen id hid
    exact Nat.lt_of_lt_of_le (hold u seen hseen id hid) hnext
  · intro u row hrow old hrows
    rw [hmove.rows] at hrows
    rcases hpending u row hrow with hbefore | ⟨-, hid, -⟩
    · exact h.pending_new u row hbefore old hrows
    · have hlt := h.rows_lt old hrows
      omega
  · intro u v huv row hrow other hother
    rcases hpending u row hrow with hrow | ⟨rfl, hid, -⟩
    · rcases hpending v other hother with hother | ⟨-, hid, -⟩
      · exact h.pending_inj u v huv row hrow other hother
      · have hlt := h.pending_lt u row hrow
        omega
    · rcases hpending v other hother with hother | ⟨rfl, -⟩
      · have hlt := h.pending_lt v other hother
        omega
      · exact absurd rfl huv
  · intro u v seen hseen row hrow hmem
    rcases hpending v row hrow with hbefore | ⟨-, hid, -⟩
    · rcases hmove.saw_cases hseen with hseen | ⟨-, rfl, -⟩
      · exact h.unseen u v seen hseen row hbefore hmem
      · obtain ⟨old, hrows, hid⟩ := List.mem_map.mp hmem
        exact h.pending_new v row hbefore old (List.mem_of_mem_filter hrows) hid.symm
    · have hlt := hold u seen hseen row.1 hmem
      omega

theorem Ids.commit (h : Ids s) {t : τ} {seen : List Nat} {done : List (Nat × ρ)}
    (hphase : s.phase t = .inserting seen [] done) :
    Ids (s.commit inScope t seen done) := by
  have hdone : (s.phase t).pending = done := by
    rw [hphase]
    rfl
  refine ⟨?_, ?_, ?_, ?_, ?_, ?_⟩
  · intro row hrow
    rcases mem_rows_commit hrow with hold | hnew
    · exact h.rows_lt row hold
    · exact h.pending_lt t row (hdone ▸ hnew)
  · exact fun u row hrow => h.pending_lt u row (pending_commit hrow).2
  · exact fun u saw hsaw => h.seen_lt u saw (saw_commit hsaw).2
  · intro u row hrow old hrows
    obtain ⟨hut, hrow⟩ := pending_commit hrow
    rcases mem_rows_commit hrows with hold | hnew
    · exact h.pending_new u row hrow old hold
    · exact h.pending_inj u t hut row hrow old (hdone ▸ hnew)
  · intro u v huv row hrow other hother
    exact h.pending_inj u v huv row (pending_commit hrow).2 other
      (pending_commit hother).2
  · intro u v saw hsaw row hrow
    exact h.unseen u v saw (saw_commit hsaw).2 row (pending_commit hrow).2

variable (key inScope payload) in
/-- The transactions replace rows of one scope, which the key determines, by rows of
different keys; and any two of them contend for a key, unless the other one leaves
nothing. -/
structure Contention : Prop where
  keyScope : ∀ value value', key value = key value' → inScope value = inScope value'
  own : ∀ t, ∀ value ∈ payload t, inScope value = true
  distinct : ∀ t, ((payload t).map key).Nodup
  contends : ∀ t u, t ≠ u → payload u = [] ∨
    ∃ value ∈ payload u, ∃ value' ∈ payload t, key value = key value'

variable (key) in
/-- The keys are unique, those of uncommitted rows included. -/
structure Keys (s : State τ ρ) : Prop where
  nodup : (s.rows.map (fun row => key row.2)).Nodup
  pending_inj : ∀ t u, t ≠ u → ∀ row ∈ (s.phase t).pending,
    ∀ other ∈ (s.phase u).pending, key row.2 ≠ key other.2
  free : ∀ t, ∀ seen ∈ (s.phase t).saw, ∀ row ∈ (s.phase t).pending,
    ∀ old ∈ s.rows, key old.2 = key row.2 → old.1 ∈ seen

variable (payload) in
/-- What is inserted and what is left to insert is the payload. -/
def Progress (s : State τ ρ) : Prop :=
  ∀ t seen todo done, s.phase t = .inserting seen todo done →
    done.map Prod.snd ++ todo = payload t

theorem Keys.move (h : Keys key s) {t : τ} (hmove : Move key inScope s s' t) :
    Keys key s' := by
  refine ⟨hmove.rows ▸ h.nodup, ?_, ?_⟩
  · intro u v huv row hrow other hother hkey
    rcases hmove.pending_cases hrow with hrow | ⟨rfl, -, -, hfree, -⟩
    · rcases hmove.pending_cases hother with hother | ⟨rfl, -, -, hfree, -⟩
      · exact h.pending_inj u v huv row hrow other hother hkey
      · exact hfree ⟨u, huv, Or.inl ⟨row, hrow, hkey⟩⟩
    · rw [hmove.others v huv.symm] at hother
      exact hfree ⟨v, huv.symm, Or.inl ⟨other, hother, hkey.symm⟩⟩
  · intro u seen hseen row hrow old hold hkey
    rw [hmove.rows] at hold
    have hbefore : seen ∈ (s.phase u).saw := by
      rcases hmove.saw_cases hseen with hseen | ⟨rfl, -, hnil⟩
      · exact hseen
      · rw [hnil] at hrow
        cases hrow
    rcases hmove.pending_cases hrow with hrow | ⟨rfl, -, -, -, hclear⟩
    · exact h.free u seen hbefore row hrow old hold hkey
    · exact hclear seen hbefore old hold hkey

theorem Keys.commit (hcontention : Contention key inScope payload) (h : Keys key s)
    {t : τ} {seen : List Nat} {done : List (Nat × ρ)}
    (hphase : s.phase t = .inserting seen [] done)
    (hdone : done.map Prod.snd = payload t) :
    Keys key (s.commit inScope t seen done) := by
  have hpending : (s.phase t).pending = done := by
    rw [hphase]
    rfl
  have hsaw : seen ∈ (s.phase t).saw := by
    rw [hphase]
    exact rfl
  refine ⟨?_, ?_, ?_⟩
  · show ((_ ++ done : List (Nat × ρ)).map _).Nodup
    rw [List.map_append, List.nodup_append']
    refine ⟨h.nodup.sublist (List.filter_sublist.map _), ?_, ?_⟩
    · have hdistinct := hcontention.distinct t
      rw [← hdone, List.map_map] at hdistinct
      exact hdistinct
    · intro k hk hnew
      obtain ⟨old, hold, rfl⟩ := List.mem_map.mp hk
      obtain ⟨row, hrow, hkey⟩ := List.mem_map.mp hnew
      obtain ⟨hmem, hkept⟩ := List.mem_filter.mp hold
      have hseen : old.1 ∈ seen :=
        h.free t seen hsaw row (hpending ▸ hrow) old hmem hkey.symm
      have hin : inScope old.2 = true := by
        rw [hcontention.keyScope _ _ hkey.symm]
        exact hcontention.own t _ (hdone ▸ List.mem_map_of_mem hrow)
      simp [hin, hseen] at hkept
  · intro u v huv row hrow other hother
    exact h.pending_inj u v huv row (pending_commit hrow).2 other
      (pending_commit hother).2
  · intro u saw hsaw row hrow old hold hkey
    obtain ⟨hut, hsaw⟩ := saw_commit hsaw
    have hrow := (pending_commit hrow).2
    rcases mem_rows_commit hold with hold | hnew
    · exact h.free u saw hsaw row hrow old hold hkey
    · exact absurd hkey (h.pending_inj t u hut.symm old (hpending ▸ hnew) row hrow)

theorem Progress.step (h : Progress payload s) (hstep : Step key inScope payload s s') :
    Progress payload s' := by
  -- the transaction that moves is the only one whose list changes
  have hmoves : ∀ (t : τ) (phase : Phase ρ),
      (∀ seen todo done, phase = .inserting seen todo done →
        done.map Prod.snd ++ todo = payload t) →
      ∀ u seen todo done, Function.update s.phase t phase u =
          .inserting seen todo done → done.map Prod.snd ++ todo = payload u := by
    intro t phase hnew u seen todo done hu
    rw [Function.update_apply] at hu
    split at hu
    · rename_i hut
      rw [hut]
      exact hnew seen todo done hu
    · exact h u seen todo done hu
  cases hstep with
  | start t hphase => exact hmoves t _ (by simp)
  | begin t seen hphase =>
      refine hmoves t _ ?_
      intro seen' todo done hbegin
      obtain ⟨-, rfl, rfl⟩ := Phase.inserting.inj hbegin
      rfl
  | insert t seen value todo done hphase _ _ =>
      refine hmoves t _ ?_
      intro seen' todo' done' hinsert
      obtain ⟨-, rfl, rfl⟩ := Phase.inserting.inj hinsert
      rw [← h t seen _ done hphase]
      simp
  | conflict t seen value todo done hphase _ => exact hmoves t _ (by simp)
  | commit t seen done hphase => exact hmoves t _ (by simp)
  | lose t hopen => exact hmoves t _ (by simp)

variable (payload inScope) in
/-- The scope holds the rows of a committed transaction. -/
def HoldsOne (s : State τ ρ) : Prop :=
  ∃ t, s.phase t = .committed ∧ (s.scope inScope).map Prod.snd = payload t

variable (payload inScope) in
/-- The scope holds the rows of one transaction, or no transaction has committed and
it is as it was; a DELETE saw all of the scope, unless a transaction has committed
since; a conflict is with a transaction that has committed; and other scopes are as
they were. -/
structure Whole (s₀ s : State τ ρ) : Prop where
  scope : HoldsOne inScope payload s ∨
    (∀ t, s.phase t ≠ .committed) ∧ s.scope inScope = s₀.scope inScope
  sees : ∀ t, ∀ seen ∈ (s.phase t).saw, (∀ row ∈ s.scope inScope, row.1 ∈ seen) ∨
    (∀ row ∈ s.scope inScope, row.1 ∉ seen) ∧ HoldsOne inScope payload s
  conflict : ∀ t, s.phase t = .conflicted → ∃ u, s.phase u = .committed
  outside : s.rows.filter (fun row => !inScope row.2) =
    s₀.rows.filter (fun row => !inScope row.2)

omit [DecidableEq τ] in
theorem Move.scope_eq {t : τ} (h : Move key inScope s s' t) :
    s'.scope inScope = s.scope inScope := by
  rw [State.scope, State.scope, h.rows]

theorem Move.committed_iff {t : τ} (h : Move key inScope s s' t) {u : τ} :
    s'.phase u = .committed ↔ s.phase u = .committed := by
  by_cases hut : u = t
  · subst hut
    exact iff_of_false h.after h.before
  · rw [h.others u hut]

theorem Move.holdsOne_iff {t : τ} (h : Move key inScope s s' t) :
    HoldsOne inScope payload s' ↔ HoldsOne inScope payload s := by
  simp only [HoldsOne, h.committed_iff, h.scope_eq]

theorem Whole.move {s₀ : State τ ρ} (hcontention : Contention key inScope payload)
    (hprogress : Progress payload s) (h : Whole inScope payload s₀ s) {t : τ}
    (hmove : Move key inScope s s' t) : Whole inScope payload s₀ s' := by
  refine ⟨?_, ?_, ?_, hmove.rows ▸ h.outside⟩
  · rw [hmove.holdsOne_iff, hmove.scope_eq]
    simp only [ne_eq, hmove.committed_iff]
    exact h.scope
  · intro u seen hseen
    rw [hmove.holdsOne_iff, hmove.scope_eq]
    rcases hmove.saw_cases hseen with hbefore | ⟨-, rfl, -⟩
    · exact h.sees u seen hbefore
    · exact Or.inl (fun row hrow => List.mem_map_of_mem hrow)
  · intro u hu
    simp only [hmove.committed_iff]
    by_cases hut : u = t
    · subst hut
      obtain ⟨seen, value, todo, done, hphase, hclash⟩ := hmove.conflicted hu
      have hpayload := hprogress u seen _ done hphase
      have hown : value ∈ payload u := by
        rw [← hpayload]
        simp
      rcases hclash with ⟨row, hrow, hkey, hnot⟩ | ⟨row, hrow, hkey⟩
      · -- the row is in scope, and its DELETE has not seen it
        have hin : row ∈ s.scope inScope := by
          refine List.mem_filter.mpr ⟨hrow, ?_⟩
          rw [hcontention.keyScope _ _ hkey]
          exact hcontention.own u value hown
        have hsaw : seen ∈ (s.phase u).saw := by
          rw [hphase]
          exact rfl
        rcases h.sees u seen hsaw with hall | ⟨-, w, hw, -⟩
        · exact absurd (hall row hin) hnot
        · exact ⟨w, hw⟩
      · -- the payload has no key twice
        have hdistinct := hcontention.distinct u
        rw [← hpayload, List.map_append, List.nodup_append'] at hdistinct
        have hmem : key value ∈ (done.map Prod.snd).map key := by
          rw [← hkey]
          exact List.mem_map_of_mem (List.mem_map_of_mem hrow)
        exact (hdistinct.2.2 hmem (List.mem_map_of_mem List.mem_cons_self)).elim
    · rw [hmove.others u hut] at hu
      exact h.conflict u hu

omit [DecidableEq τ] in
/-- A transaction that commits has deleted all of the scope. -/
theorem Whole.seen_of_commit {s₀ : State τ ρ}
    (hcontention : Contention key inScope payload) (hkeys : Keys key s)
    (h : Whole inScope payload s₀ s) {t : τ} {seen : List Nat}
    {done : List (Nat × ρ)} (hphase : s.phase t = .inserting seen [] done)
    (hdone : done.map Prod.snd = payload t) :
    ∀ row ∈ s.scope inScope, row.1 ∈ seen := by
  have hsaw : seen ∈ (s.phase t).saw := by
    rw [hphase]
    exact rfl
  rcases h.sees t seen hsaw with hall | ⟨hnone, u, hu, hrows⟩
  · exact hall
  · have hne : t ≠ u := by
      rintro rfl
      rw [hphase] at hu
      cases hu
    rcases hcontention.contends t u hne with hempty | ⟨value, hvalue, value', hvalue', hkey⟩
    · intro row hrow
      have hmem := List.mem_map_of_mem (f := Prod.snd) hrow
      rw [hrows, hempty] at hmem
      cases hmem
    · rw [← hrows] at hvalue
      rw [← hdone] at hvalue'
      obtain ⟨old, hold, rfl⟩ := List.mem_map.mp hvalue
      obtain ⟨row, hrow, rfl⟩ := List.mem_map.mp hvalue'
      have hpending : row ∈ (s.phase t).pending := by
        rw [hphase]
        exact hrow
      exact absurd (hkeys.free t seen hsaw row hpending old
        (List.mem_of_mem_filter hold) hkey) (hnone old hold)

theorem Whole.commit {s₀ : State τ ρ} (hcontention : Contention key inScope payload)
    (hids : Ids s) (hkeys : Keys key s) (h : Whole inScope payload s₀ s) {t : τ}
    {seen : List Nat} {done : List (Nat × ρ)}
    (hphase : s.phase t = .inserting seen [] done)
    (hdone : done.map Prod.snd = payload t) :
    Whole inScope payload s₀ (s.commit inScope t seen done) := by
  have hall := h.seen_of_commit hcontention hkeys hphase hdone
  have hscope : (s.commit inScope t seen done).scope inScope = done := by
    show (_ ++ done).filter _ = done
    have hold : (s.rows.filter (fun row =>
        !(inScope row.2 && decide (row.1 ∈ seen)))).filter
          (fun row => inScope row.2) = [] := by
      rw [List.filter_filter, List.filter_eq_nil_iff]
      intro row hrow hin
      rw [Bool.and_eq_true] at hin
      have hseen := hall row (List.mem_filter.mpr ⟨hrow, hin.1⟩)
      simp [hin.1, hseen] at hin
    have hnew : done.filter (fun row => inScope row.2) = done := by
      rw [List.filter_eq_self]
      intro row hrow
      exact hcontention.own t row.2 (hdone ▸ List.mem_map_of_mem hrow)
    rw [List.filter_append, hold, hnew, List.nil_append]
  have hholds : HoldsOne inScope payload (s.commit inScope t seen done) :=
    ⟨t, phase_commit_self s t seen done, by rw [hscope, hdone]⟩
  refine ⟨Or.inl hholds, ?_, fun _ _ => ⟨t, phase_commit_self s t seen done⟩, ?_⟩
  · intro u saw hsaw
    refine Or.inr ⟨?_, hholds⟩
    rw [hscope]
    intro row hrow
    refine hids.unseen u t saw (saw_commit hsaw).2 row ?_
    rw [hphase]
    exact hrow
  · have hkept : s.rows.filter (fun row => !inScope row.2) =
        (s.rows.filter (fun row =>
          !(inScope row.2 && decide (row.1 ∈ seen)))).filter
            (fun row => !inScope row.2) := by
      rw [List.filter_filter]
      apply List.filter_congr
      intro row _
      cases inScope row.2 <;> simp
    have hnew : done.filter (fun row => !inScope row.2) = [] := by
      rw [List.filter_eq_nil_iff]
      intro row hrow
      simp [hcontention.own t row.2 (hdone ▸ List.mem_map_of_mem hrow)]
    show (_ ++ done).filter _ = _
    rw [List.filter_append, hnew, List.append_nil, ← hkept]
    exact h.outside

variable (key inScope payload) in
/-- The invariant. -/
structure Sound (s₀ s : State τ ρ) : Prop where
  ids : Ids s
  keys : Keys key s
  progress : Progress payload s
  whole : Whole inScope payload s₀ s

/-- The step lemma. -/
theorem Sound.step {s₀ : State τ ρ} (hcontention : Contention key inScope payload)
    (h : Sound key inScope payload s₀ s) (hstep : Step key inScope payload s s') :
    Sound key inScope payload s₀ s' := by
  have hprogress := h.progress.step hstep
  rcases hstep.move_or_commit with ⟨t, hmove⟩ | ⟨t, seen, done, hphase, rfl⟩
  · exact ⟨h.ids.move hmove, h.keys.move hmove, hprogress,
      h.whole.move hcontention h.progress hmove⟩
  · have hdone := h.progress t seen [] done hphase
    rw [List.append_nil] at hdone
    exact ⟨h.ids.commit hphase, h.keys.commit hcontention hphase hdone, hprogress,
      h.whole.commit hcontention h.ids h.keys hphase hdone⟩

/-- Before any transaction starts. -/
structure Start (key : ρ → κ) (s : State τ ρ) : Prop where
  idle : ∀ t, s.phase t = .idle
  rows_lt : ∀ row ∈ s.rows, row.1 < s.nextId
  nodup : (s.rows.map (fun row => key row.2)).Nodup

omit [DecidableEq τ] in
theorem Start.sound {s₀ : State τ ρ} (h : Start key s₀) :
    Sound key inScope payload s₀ s₀ := by
  refine ⟨⟨h.rows_lt, ?_, ?_, ?_, ?_, ?_⟩, ⟨h.nodup, ?_, ?_⟩, ?_,
    ⟨?_, ?_, ?_, rfl⟩⟩
  all_goals simp [Phase.pending, Phase.saw, Progress, h.idle]

/-- The run lemma. -/
theorem sound_of_run [Fintype τ] [DecidableEq κ] {s₀ : State τ ρ}
    (hcontention : Contention key inScope payload) (hstart : Start key s₀)
    {schedule : List (Event τ)}
    (hrun : run key inScope payload s₀ schedule = some s) :
    Sound key inScope payload s₀ s := by
  have hall : ∀ event ∈ schedule, (fun _ : Event τ => True) event :=
    fun _ _ => trivial
  exact invariant_of_runFrom
    (fun _ _ _ h _ hstep => h.step hcontention (Step.of_step hstep)) hall
    hstart.sound hrun

section Alone

variable [Fintype τ] [DecidableEq κ] {t : τ} {seen : List Nat} {todo : List ρ}
  {done : List (Nat × ρ)}

omit [DecidableEq τ] [Fintype τ] [DecidableEq κ] in
/-- Other transactions that have not started hold nothing up. -/
theorem not_blocked (hothers : ∀ u, u ≠ t → s.phase u = .idle) (k : κ) :
    ¬ s.Blocked key t k := by
  rintro ⟨other, hne, ⟨row, hrow, -⟩ | ⟨row, -, hlocked, -⟩⟩
  · rw [hothers other hne] at hrow
    cases hrow
  · rw [hothers other hne] at hlocked
    cases hlocked

variable (inScope payload) in
/-- Without others the insertions go through, one after the other. -/
theorem run_insertions (s : State τ ρ) (hothers : ∀ u, u ≠ t → s.phase u = .idle)
    (hphase : s.phase t = .inserting seen todo done)
    (hfree : ∀ row ∈ s.rows, ∀ value ∈ todo, key row.2 = key value → row.1 ∈ seen)
    (hdistinct : ((done.map Prod.snd ++ todo).map key).Nodup) :
    ∃ s', run key inScope payload s (List.replicate todo.length (.advance t)) =
        some s' ∧
      s'.phase t = .inserting seen [] (done ++ SerialTable.numbered s.nextId todo) ∧
      s'.rows = s.rows ∧ s'.nextId = s.nextId + todo.length := by
  induction todo generalizing s done with
  | nil =>
      refine ⟨s, rfl, ?_, rfl, rfl⟩
      rw [hphase]
      simp [SerialTable.numbered]
  | cons value todo ih =>
      have hclash : ¬ s.Clashes key seen done (key value) := by
        rintro (⟨row, hrow, hkey, hnot⟩ | ⟨row, hrow, hkey⟩)
        · exact hnot (hfree row hrow value List.mem_cons_self hkey)
        · rw [List.map_append, List.nodup_append'] at hdistinct
          have hmem : key value ∈ (done.map Prod.snd).map key := by
            rw [← hkey]
            exact List.mem_map_of_mem (List.mem_map_of_mem hrow)
          exact hdistinct.2.2 hmem (List.mem_map_of_mem List.mem_cons_self)
      have hstep : step key inScope payload s (.advance t) = some
          (s.draw.enter t (.inserting seen todo (done ++ [(s.nextId, value)]))) := by
        simp only [step, advance, hphase, if_neg (not_blocked hothers _),
          if_neg hclash]
      obtain ⟨s', hrun, hinserted, hrows, hnext⟩ := ih
        (s.draw.enter t (.inserting seen todo (done ++ [(s.nextId, value)])))
        (fun u hu => (phase_enter_of_ne s.draw hu _).trans (hothers u hu))
        (phase_enter_self s.draw t _)
        (fun row hrow other hother =>
          hfree row hrow other (List.mem_cons_of_mem _ hother))
        (by simpa using hdistinct)
      refine ⟨s', runFrom_cons.mpr ⟨_, hstep, hrun⟩, ?_, hrows, ?_⟩
      · rw [hinserted, List.append_assoc]
        rfl
      · rw [hnext, List.length_cons]
        show s.nextId + 1 + todo.length = _
        omega

/-- The steps of a transaction that has to insert some rows. -/
def alone (t : τ) (length : Nat) : List (Event τ) :=
  .advance t :: .advance t :: (List.replicate length (.advance t) ++ [.advance t])

/-- A transaction that runs alone replaces the scope by its rows. -/
theorem run_alone (hstart : Start key s) (t : τ)
    (hkeyScope : ∀ value value', key value = key value' →
      inScope value = inScope value')
    (hown : ∀ value ∈ payload t, inScope value = true)
    (hdistinct : ((payload t).map key).Nodup) :
    ∃ s', run key inScope payload s (alone t (payload t).length) = some s' ∧
      s'.phase t = .committed ∧
      s'.rows = s.rows.filter (fun row => !inScope row.2) ++
        SerialTable.numbered s.nextId (payload t) ∧
      s'.nextId = s.nextId + (payload t).length := by
  let seen := (s.scope inScope).map Prod.fst
  let deleting := s.enter t (.deleting seen)
  have hall : ∀ row ∈ s.rows, inScope row.2 = true → row.1 ∈ seen := by
    intro row hrow hin
    exact List.mem_map_of_mem (List.mem_filter.mpr ⟨hrow, hin⟩)
  have hothers : ∀ u, u ≠ t → deleting.phase u = .idle := by
    intro u hu
    rw [phase_enter_of_ne s hu]
    exact hstart.idle u
  have hdelete : step key inScope payload s (.advance t) = some deleting := by
    simp only [step, advance, hstart.idle]
    rfl
  have hbegin : step key inScope payload deleting (.advance t) =
      some (deleting.enter t (.inserting seen (payload t) [])) := by
    have hfree : ¬ deleting.Waits t seen := by
      rintro ⟨other, hne, row, -, -, hlocked⟩
      rw [hothers other hne] at hlocked
      cases hlocked
    simp only [step, advance, phase_enter_self s t (.deleting seen), if_neg hfree,
      deleting]
  obtain ⟨inserted, hinsert, hphase, hrows, hnext⟩ := run_insertions inScope payload
    (deleting.enter t (.inserting seen (payload t) []))
    (fun u hu => (phase_enter_of_ne deleting hu _).trans (hothers u hu))
    (phase_enter_self deleting t _)
    (fun row hrow value hvalue hkey =>
      hall row hrow ((hkeyScope _ _ hkey).trans (hown value hvalue)))
    (by simpa using hdistinct)
  have hcommit : step key inScope payload inserted (.advance t) =
      some (inserted.commit inScope t seen
        (SerialTable.numbered s.nextId (payload t))) := by
    simp only [step, advance, hphase]
    rfl
  refine ⟨inserted.commit inScope t seen (SerialTable.numbered s.nextId (payload t)),
    ?_, phase_commit_self inserted t seen _, ?_, hnext⟩
  · exact runFrom_cons.mpr ⟨deleting, hdelete, runFrom_cons.mpr ⟨_, hbegin,
      runFrom_concat.mpr ⟨inserted, hinsert, hcommit⟩⟩⟩
  · show inserted.rows.filter _ ++ _ = _
    rw [hrows]
    congr 1
    apply List.filter_congr
    intro row hrow
    cases hin : inScope row.2 with
    | false => rfl
    | true => simp [hall row hrow hin]

end Alone

end System

end ReplaceKeyed
end Lib
