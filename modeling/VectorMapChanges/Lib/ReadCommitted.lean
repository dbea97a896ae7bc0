import VectorMapChanges.Lib.History
import VectorMapChanges.Lib.Table
import Mathlib.Data.Fintype.Basic
import Mathlib.Logic.Function.Basic

/-!
# Replacing rows under READ COMMITTED

Transactions that each replace the rows of one scope of a table: a DELETE of the
rows in scope, an INSERT of rows of their own, and a commit.  A statement sees
the rows that were committed before it started.  A DELETE locks the rows that it
saw; it waits while another transaction holds one of them locked, and skips
those that are gone.  Nothing but the locks orders the transactions, so that an
INSERT that was committed after the DELETE started survives it.

Main facts:
* `step_cases`: what one step of a transaction does;
* `scope_commit`, `replaced_step`: a commit replaces the scope when its DELETE saw
  all of it;
* `replaced_of_upToDate`: where every commit is of that kind, the scope always
  holds the rows of one transaction;
* `run_alone`: a transaction that runs alone replaces the scope.
-/

namespace Lib
namespace ReadCommitted

universe u v

/-- Where a transaction stands; `seen` are the ids that its DELETE saw. -/
inductive Phase (ρ : Type v) where
  | idle
  | deleting (seen : List Nat)
  | deleted (seen : List Nat)
  | inserted (seen : List Nat) (pending : List (Nat × ρ))
  | committed
deriving DecidableEq

/-- The ids whose rows a transaction holds locked. -/
def Phase.locks {ρ : Type v} : Phase ρ → List Nat
  | deleted seen => seen
  | inserted seen _ => seen
  | _ => []

/-- What the DELETE of a transaction saw, if all that it has left is to
commit. -/
def Phase.seenAtCommit {ρ : Type v} : Phase ρ → Option (List Nat)
  | inserted seen _ => some seen
  | _ => none

/-- The committed rows with their ids, the sequence of the ids, and the
transactions. -/
structure State (τ : Type u) (ρ : Type v) where
  rows : List (Nat × ρ)
  nextId : Nat
  phase : τ → Phase ρ

section System

variable {τ : Type u} {ρ : Type v} (inScope : ρ → Bool) (payload : τ → List ρ)

/-- The committed rows in scope. -/
def State.scope (s : State τ ρ) : List (Nat × ρ) :=
  s.rows.filter (fun row => inScope row.2)

variable [DecidableEq τ]

/-- The transaction moves to another phase. -/
def State.enter (s : State τ ρ) (t : τ) (phase : Phase ρ) : State τ ρ :=
  { s with phase := Function.update s.phase t phase }

/-- The transaction inserts rows of its own, which no other one sees yet. -/
def State.insert (s : State τ ρ) (t : τ) (seen : List Nat) (values : List ρ) :
    State τ ρ where
  rows := s.rows
  nextId := s.nextId + values.length
  phase :=
    Function.update s.phase t (.inserted seen (SerialTable.numbered s.nextId values))

/-- The transaction commits: what it deleted goes, what it inserted comes. -/
def State.commit (s : State τ ρ) (t : τ) (seen : List Nat)
    (pending : List (Nat × ρ)) : State τ ρ where
  rows := s.rows.filter
    (fun row => !(inScope row.2 && decide (row.1 ∈ seen))) ++ pending
  nextId := s.nextId
  phase := Function.update s.phase t .committed

/-- Another transaction holds one of these rows locked. -/
def State.Waits (s : State τ ρ) (t : τ) (seen : List Nat) : Prop :=
  ∃ other, other ≠ t ∧ ∃ row ∈ s.rows,
    row.1 ∈ seen ∧ row.1 ∈ (s.phase other).locks

instance [Fintype τ] (s : State τ ρ) (t : τ) (seen : List Nat) :
    Decidable (s.Waits t seen) :=
  inferInstanceAs (Decidable (∃ other, other ≠ t ∧ ∃ row ∈ s.rows,
    row.1 ∈ seen ∧ row.1 ∈ (s.phase other).locks))

variable [Fintype τ]

/-- The next step of a transaction, unless it has to wait or has none. -/
def step (s : State τ ρ) (t : τ) : Option (State τ ρ) :=
  match s.phase t with
  | .idle => some (s.enter t (.deleting ((s.scope inScope).map Prod.fst)))
  | .deleting seen =>
      if s.Waits t seen then none else some (s.enter t (.deleted seen))
  | .deleted seen => some (s.insert t seen (payload t))
  | .inserted seen pending => some (s.commit inScope t seen pending)
  | .committed => none

/-- The state after the steps of a schedule. -/
def run (s : State τ ρ) (schedule : List τ) : Option (State τ ρ) :=
  schedule.foldlM (step inScope payload) s

/-- If the transaction is about to commit, its DELETE saw every row in scope. -/
def UpToDate (s : State τ ρ) (t : τ) : Prop :=
  ∀ seen ∈ (s.phase t).seenAtCommit, ∀ row ∈ s.scope inScope, row.1 ∈ seen

instance (s : State τ ρ) (t : τ) : Decidable (UpToDate inScope s t) :=
  inferInstanceAs (Decidable (∀ seen ∈ (s.phase t).seenAtCommit,
    ∀ row ∈ s.scope inScope, row.1 ∈ seen))

/-- The scope holds the rows of one committed transaction, or no transaction has
committed and it is as it was. -/
def Replaced (s₀ s : State τ ρ) : Prop :=
  (∃ t, s.phase t = .committed ∧
    (s.scope inScope).map Prod.snd = payload t) ∨
  (∀ t, s.phase t ≠ .committed) ∧ s.scope inScope = s₀.scope inScope

/-- What is pending is the payload. -/
def PendingPayload (s : State τ ρ) : Prop :=
  ∀ t seen pending, s.phase t = .inserted seen pending →
    pending.map Prod.snd = payload t

variable {inScope payload} {s s' : State τ ρ} {t : τ}

/-- A step moves one transaction, and only a commit changes the rows. -/
theorem step_cases (h : step inScope payload s t = some s') :
    (∃ phase, s'.phase = Function.update s.phase t phase ∧ s'.rows = s.rows ∧
      phase ≠ .committed ∧ s.phase t ≠ .committed ∧
      ∀ seen pending, phase = .inserted seen pending →
        pending.map Prod.snd = payload t) ∨
    ∃ seen pending, s.phase t = .inserted seen pending ∧
      s' = s.commit inScope t seen pending := by
  unfold step at h
  cases hphase : s.phase t with
  | idle =>
      rw [hphase] at h
      cases h
      exact Or.inl ⟨_, rfl, rfl, by simp, by simp, by simp⟩
  | deleting seen =>
      simp only [hphase] at h
      split at h
      · cases h
      · cases h
        exact Or.inl ⟨_, rfl, rfl, by simp, by simp, by simp⟩
  | deleted seen =>
      simp only [hphase] at h
      cases h
      refine Or.inl ⟨_, rfl, rfl, by simp, by simp, ?_⟩
      intro seen' pending hinserted
      obtain ⟨-, rfl⟩ := Phase.inserted.inj hinserted
      exact SerialTable.map_snd_numbered _ _
  | inserted seen pending =>
      simp only [hphase] at h
      cases h
      exact Or.inr ⟨seen, pending, rfl, rfl⟩
  | committed =>
      simp only [hphase] at h
      cases h

theorem pendingPayload_step (hpending : PendingPayload payload s)
    (h : step inScope payload s t = some s') :
    PendingPayload payload s' := by
  intro u seen pending hu
  rcases step_cases h with ⟨phase, hphase, -, -, -, hnew⟩ | ⟨_, _, -, rfl⟩
  · rw [hphase, Function.update_apply] at hu
    split at hu
    · rename_i hut
      rw [hut]
      exact hnew seen pending hu
    · exact hpending u seen pending hu
  · have hu : Function.update s.phase t Phase.committed u =
        .inserted seen pending := hu
    rw [Function.update_apply] at hu
    split at hu
    · cases hu
    · exact hpending u seen pending hu

omit [Fintype τ] in
/-- What is in scope after a commit: what its DELETE did not see, and its own
rows. -/
theorem scope_commit {seen : List Nat} {pending : List (Nat × ρ)}
    (hpending : ∀ row ∈ pending, inScope row.2 = true) :
    (s.commit inScope t seen pending).scope inScope =
      (s.scope inScope).filter (fun row => decide (row.1 ∉ seen)) ++ pending := by
  have hold : (s.rows.filter (fun row =>
        !(inScope row.2 && decide (row.1 ∈ seen)))).filter
          (fun row => inScope row.2) =
      (s.scope inScope).filter (fun row => decide (row.1 ∉ seen)) := by
    rw [State.scope, List.filter_filter, List.filter_filter]
    apply List.filter_congr
    intro row _
    cases inScope row.2 <;> simp
  rw [State.scope, State.commit, List.filter_append, hold,
    List.filter_eq_self.mpr hpending]

/-- A commit whose DELETE saw all of the scope leaves its own rows in it. -/
theorem replaced_step {s₀ : State τ ρ}
    (hpayload : ∀ t, ∀ value ∈ payload t, inScope value = true)
    (hpending : PendingPayload payload s) (hreplaced : Replaced inScope payload s₀ s)
    (hupToDate : UpToDate inScope s t) (h : step inScope payload s t = some s') :
    Replaced inScope payload s₀ s' := by
  rcases step_cases h with
    ⟨phase, hphase, hrows, hnot, hwas, -⟩ | ⟨seen, pending, hinserted, rfl⟩
  · have hscope : s'.scope inScope = s.scope inScope := by
      rw [State.scope, State.scope, hrows]
    rcases hreplaced with ⟨u, hu, hvalues⟩ | ⟨hnone, hsame⟩
    · refine Or.inl ⟨u, ?_, by rw [hscope, hvalues]⟩
      have hne : u ≠ t := fun hut => hwas (hut ▸ hu)
      rw [hphase, Function.update_of_ne hne, hu]
    · refine Or.inr ⟨?_, by rw [hscope, hsame]⟩
      intro u hu
      rw [hphase, Function.update_apply] at hu
      split at hu
      · exact hnot hu
      · exact hnone u hu
  · have hown : ∀ row ∈ pending, inScope row.2 = true := by
      intro row hrow
      apply hpayload t
      rw [← hpending t seen pending hinserted]
      exact List.mem_map_of_mem hrow
    have hgone : (s.scope inScope).filter (fun row => decide (row.1 ∉ seen)) =
        [] := by
      rw [List.filter_eq_nil_iff]
      intro row hrow
      have hseen : seen ∈ (s.phase t).seenAtCommit := by
        rw [hinserted]
        exact rfl
      simpa using hupToDate seen hseen row hrow
    refine Or.inl ⟨t, Function.update_self _ _ _, ?_⟩
    rw [scope_commit hown, hgone, List.nil_append]
    exact hpending t seen pending hinserted

theorem run_append (before : List τ) (t : τ) :
    run inScope payload s (before ++ [t]) =
      (run inScope payload s before).bind (fun s => step inScope payload s t) := by
  simp [run, List.foldlM_append]

/-- Where every commit is of a transaction whose DELETE saw all of the scope, the
scope always holds the rows of one transaction, each once. -/
theorem replaced_of_upToDate {s₀ : State τ ρ}
    (hpayload : ∀ t, ∀ value ∈ payload t, inScope value = true)
    (hidle : ∀ t, s₀.phase t = .idle) {schedule : List τ}
    (h : ∀ before t, before ++ [t] <+: schedule →
      ∀ s ∈ run inScope payload s₀ before, UpToDate inScope s t)
    (hrun : run inScope payload s₀ schedule = some s) :
    Replaced inScope payload s₀ s := by
  have hall : ∀ before, before <+: schedule → ∀ s,
      run inScope payload s₀ before = some s →
        PendingPayload payload s ∧ Replaced inScope payload s₀ s := by
    refine forall_prefix_of_step ?_ ?_ h
    · intro s hs
      obtain rfl : s₀ = s := Option.some.inj hs
      refine ⟨?_, Or.inr ⟨?_, rfl⟩⟩
      · intro t seen pending ht
        rw [hidle t] at ht
        cases ht
      · intro t ht
        rw [hidle t] at ht
        cases ht
    · intro before t ih hupToDate s' hs'
      rw [run_append] at hs'
      obtain ⟨s, hs, hstep⟩ := Option.bind_eq_some_iff.mp hs'
      obtain ⟨hpending, hreplaced⟩ := ih s hs
      exact ⟨pendingPayload_step hpending hstep,
        replaced_step hpayload hpending hreplaced (hupToDate s hs) hstep⟩
  exact (hall schedule List.prefix_rfl s hrun).2

section Phases

omit [Fintype τ]

theorem phase_enter_self (s : State τ ρ) (t : τ) (phase : Phase ρ) :
    (s.enter t phase).phase t = phase := by
  show Function.update s.phase t phase t = phase
  rw [Function.update_self]

theorem phase_enter_of_ne {other : τ} (hne : other ≠ t) (phase : Phase ρ) :
    (s.enter t phase).phase other = s.phase other := by
  show Function.update s.phase t phase other = s.phase other
  rw [Function.update_of_ne hne]

theorem phase_insert_self (s : State τ ρ) (t : τ) (seen : List Nat)
    (values : List ρ) :
    (s.insert t seen values).phase t =
      .inserted seen (SerialTable.numbered s.nextId values) := by
  show Function.update s.phase t _ t = _
  rw [Function.update_self]

end Phases

section Steps

variable {seen : List Nat} {pending : List (Nat × ρ)}

theorem step_idle (h : s.phase t = .idle) :
    step inScope payload s t =
      some (s.enter t (.deleting ((s.scope inScope).map Prod.fst))) := by
  rw [step, h]

theorem step_deleting (h : s.phase t = .deleting seen)
    (hfree : ¬ s.Waits t seen) :
    step inScope payload s t = some (s.enter t (.deleted seen)) := by
  simp only [step, h, if_neg hfree]

theorem step_deleted (h : s.phase t = .deleted seen) :
    step inScope payload s t =
      some (s.insert t seen (payload t)) := by
  simp only [step, h]

theorem step_inserted (h : s.phase t = .inserted seen pending) :
    step inScope payload s t =
      some (s.commit inScope t seen pending) := by
  simp only [step, h]

end Steps

variable (inScope payload) in
/-- A transaction that runs alone replaces the scope by its rows. -/
theorem run_alone (hidle : ∀ t, s.phase t = .idle) (t : τ) :
    ∃ s', run inScope payload s [t, t, t, t] = some s' ∧
      s'.phase t = .committed ∧
      s'.rows = s.rows.filter (fun row => !inScope row.2) ++
        SerialTable.numbered s.nextId (payload t) ∧
      s'.nextId = s.nextId + (payload t).length := by
  have hfree : ∀ seen, ¬ (s.enter t (.deleting seen)).Waits t seen := by
    rintro seen ⟨other, hne, row, -, -, hlocked⟩
    rw [phase_enter_of_ne hne, hidle] at hlocked
    simp [Phase.locks] at hlocked
  have hall : s.rows.filter (fun row => !(inScope row.2 &&
        decide (row.1 ∈ (s.scope inScope).map Prod.fst))) =
      s.rows.filter (fun row => !inScope row.2) := by
    apply List.filter_congr
    intro row hrow
    cases hin : inScope row.2 with
    | false => rfl
    | true =>
        have hmem : row.1 ∈ (s.scope inScope).map Prod.fst :=
          List.mem_map_of_mem (List.mem_filter.mpr ⟨hrow, hin⟩)
        simp [hmem]
  have hrun : run inScope payload s [t, t, t, t] = (do
      let s₁ ← step inScope payload s t
      let s₂ ← step inScope payload s₁ t
      let s₃ ← step inScope payload s₂ t
      step inScope payload s₃ t) := by
    simp [run, List.foldlM_cons]
  rw [hrun, step_idle (hidle t), Option.bind_eq_bind, Option.bind_some,
    step_deleting (phase_enter_self _ _ _) (hfree _), Option.bind_some,
    step_deleted (phase_enter_self _ _ _), Option.bind_some,
    step_inserted (phase_insert_self _ _ _ _)]
  refine ⟨_, rfl, Function.update_self _ _ _, ?_, rfl⟩
  rw [← hall]
  rfl

end System
end ReadCommitted
end Lib
