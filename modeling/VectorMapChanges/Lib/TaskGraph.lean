import VectorMapChanges.Lib.PartialRun

/-!
# Task graphs

Tasks on a shared state, each with the tasks that have to succeed before it.  The
effect of a task is there as a whole or not at all, but its worker may be lost
before the effect as well as after it; a task that has not reported success is
attempted again while it has tries left.

Main facts:
* `established_of_run`: what tasks establish holds in every state of a run in which
  they have succeeded.
-/

namespace Lib

universe u v

/-- Tasks, what each does to the shared state unless it raises, the tasks before
each, and how often one is tried. -/
structure TaskGraph (σ : Type u) (τ : Type v) where
  effect : τ → σ → Option σ
  upstream : τ → List τ
  tries : Nat

/-- How an attempt ends, if its task does not raise. -/
inductive Ending where
  | reported
  | lostBefore
  | lostAfter
deriving DecidableEq

namespace TaskGraph

variable {σ : Type u} {τ : Type v}

/-- A state of a run: the shared state, how often each task has been attempted, and
which tasks have reported success. -/
structure RunState (σ : Type u) (τ : Type v) where
  shared : σ
  attempts : τ → Nat
  succeeded : τ → Bool

/-- Before the first attempt. -/
def start (s : σ) : RunState σ τ where
  shared := s
  attempts := fun _ => 0
  succeeded := fun _ => false

/-- The shared state after an attempt, and whether it reports success. -/
def attempt (s : σ) (effect : Option σ) (ending : Ending) : σ × Bool :=
  match effect, ending with
  | some s', .reported => (s', true)
  | some s', .lostAfter => (s', false)
  | some _, .lostBefore => (s, false)
  | none, _ => (s, false)

/-- An attempt leaves the shared state alone or has the effect; if it reports
success it has the effect. -/
theorem attempt_cases (s : σ) (effect : Option σ) (ending : Ending) :
    attempt s effect ending = (s, false) ∨
      ∃ s', effect = some s' ∧ (attempt s effect ending).1 = s' := by
  cases effect with
  | none => exact Or.inl rfl
  | some s' =>
      cases ending with
      | reported => exact Or.inr ⟨s', rfl, rfl⟩
      | lostBefore => exact Or.inl rfl
      | lostAfter => exact Or.inr ⟨s', rfl, rfl⟩

variable (g : TaskGraph σ τ)

/-- A task is due when those before it have succeeded, it has not, and it has tries
left. -/
def Due (s : RunState σ τ) (t : τ) : Prop :=
  (∀ u ∈ g.upstream t, s.succeeded u = true) ∧ s.succeeded t = false ∧
    s.attempts t < g.tries

instance (s : RunState σ τ) (t : τ) : Decidable (g.Due s t) :=
  inferInstanceAs (Decidable (_ ∧ _ ∧ _))

variable [DecidableEq τ]

/-- An attempt of a task that is due. -/
def step (s : RunState σ τ) (input : τ × Ending) : Option (RunState σ τ) :=
  if g.Due s input.1 then
    let result := attempt s.shared (g.effect input.1 s.shared) input.2
    some
      { shared := result.1
        attempts := Function.update s.attempts input.1 (s.attempts input.1 + 1)
        succeeded := fun u =>
          if u = input.1 then result.2 else s.succeeded u }
  else none

/-- The state after the attempts of a run. -/
def run (s : σ) (inputs : List (τ × Ending)) : Option (RunState σ τ) :=
  runFrom g.step (start s) inputs

variable {g}

/-- What a step does: the task was due, and the shared state is the one before or
the one that the effect leaves. -/
theorem step_eq_some {s s' : RunState σ τ} {input : τ × Ending}
    (h : g.step s input = some s') :
    g.Due s input.1 ∧
      (s'.shared = s.shared ∧ s'.succeeded input.1 = false ∨
        g.effect input.1 s.shared = some s'.shared) ∧
      ∀ u, u ≠ input.1 → s'.succeeded u = s.succeeded u := by
  unfold step at h
  split at h
  · rename_i hdue
    cases h
    refine ⟨hdue, ?_, fun u hu => if_neg hu⟩
    rcases attempt_cases s.shared (g.effect input.1 s.shared) input.2 with
      heq | ⟨s', heffect, hresult⟩
    · left
      simp [heq]
    · right
      rw [heffect] at hresult ⊢
      exact congrArg some hresult.symm
  · cases h

/-- A task that has succeeded stays so. -/
theorem succeeded_step {s s' : RunState σ τ} {input : τ × Ending}
    (h : g.step s input = some s') {u : τ} (hu : s.succeeded u = true) :
    s'.succeeded u = true := by
  obtain ⟨⟨-, hnot, -⟩, -, hothers⟩ := step_eq_some h
  have hne : u ≠ input.1 := by
    rintro rfl
    rw [hnot] at hu
    cases hu
  rw [hothers u hne, hu]

/-- Each task establishes its part where those before it have established theirs,
and no task undoes the part of one that does not come after it. -/
structure Establishes (g : TaskGraph σ τ) (Inv : σ → Prop) (Part : τ → σ → Prop) :
    Prop where
  inv : ∀ t s s', Inv s → g.effect t s = some s' → Inv s'
  establishes : ∀ t s s', Inv s → (∀ u ∈ g.upstream t, Part u s) →
    g.effect t s = some s' → Part t s'
  keeps : ∀ t u s s', t ∉ g.upstream u → Inv s → Part u s →
    g.effect t s = some s' → Part u s'

/-- The part of every task that has succeeded is there, and the tasks before it have
succeeded. -/
structure Established (g : TaskGraph σ τ) (Inv : σ → Prop) (Part : τ → σ → Prop)
    (s : RunState σ τ) : Prop where
  inv : Inv s.shared
  part : ∀ t, s.succeeded t = true → Part t s.shared
  before : ∀ t, s.succeeded t = true → ∀ u ∈ g.upstream t, s.succeeded u = true

/-- The step lemma. -/
theorem Established.step {Inv : σ → Prop} {Part : τ → σ → Prop}
    (hg : g.Establishes Inv Part) {s s' : RunState σ τ} {input : τ × Ending}
    (h : g.Established Inv Part s) (hstep : g.step s input = some s') :
    g.Established Inv Part s' := by
  obtain ⟨⟨hupstream, hnot, -⟩, hshared, hothers⟩ := step_eq_some hstep
  have hnew : ∀ t, s'.succeeded t = true → t ≠ input.1 → s.succeeded t = true := by
    intro t ht hne
    rwa [hothers t hne] at ht
  have hbefore : ∀ t, s'.succeeded t = true → ∀ u ∈ g.upstream t,
      s'.succeeded u = true := by
    intro t ht u hu
    apply succeeded_step hstep
    by_cases htask : t = input.1
    · rw [htask] at hu
      exact hupstream u hu
    · exact h.before t (hnew t ht htask) u hu
  rcases hshared with ⟨hsame, hfailed⟩ | heffect
  · have hinv : Inv s'.shared := by
      rw [hsame]
      exact h.inv
    refine ⟨hinv, ?_, hbefore⟩
    intro t ht
    have hne : t ≠ input.1 := by
      rintro rfl
      rw [hfailed] at ht
      cases ht
    rw [hsame]
    exact h.part t (hnew t ht hne)
  · refine ⟨hg.inv _ _ _ h.inv heffect, ?_, hbefore⟩
    intro t ht
    by_cases htask : t = input.1
    · rw [htask]
      exact hg.establishes _ _ _ h.inv (fun u hu => h.part u (hupstream u hu)) heffect
    · have hsucceeded := hnew t ht htask
      -- a task that comes before one that has succeeded is not due again
      have hafter : input.1 ∉ g.upstream t := by
        intro hmem
        have hdone := h.before t hsucceeded input.1 hmem
        rw [hnot] at hdone
        cases hdone
      exact hg.keeps _ _ _ _ hafter h.inv (h.part t hsucceeded) heffect

/-- What tasks establish holds in every state of a run in which they have
succeeded. -/
theorem established_of_run {Inv : σ → Prop} {Part : τ → σ → Prop}
    (hg : g.Establishes Inv Part) {start : σ} {inputs : List (τ × Ending)}
    {s : RunState σ τ} (hstart : Inv start) (hrun : g.run start inputs = some s) :
    g.Established Inv Part s := by
  have hall : ∀ i ∈ inputs, (fun _ : τ × Ending => True) i := fun _ _ => trivial
  have hnone : ∀ t, (TaskGraph.start start : RunState σ τ).succeeded t ≠ true := by
    intro t ht
    cases ht
  refine invariant_of_runFrom (fun _ _ _ h _ hstep => h.step hg hstep) hall ?_ hrun
  exact ⟨hstart, fun t ht => absurd ht (hnone t), fun t ht => absurd ht (hnone t)⟩

end TaskGraph
end Lib
