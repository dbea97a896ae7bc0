import VectorMapChanges.Lib.History

/-!
# Runs of a partial step

A system that takes inputs one after the other, where an input that it cannot take
ends the run.  Some inputs are its own: it takes them whenever it gets to them, so
that what a run has led to is judged by all that the system may then do by itself.

Main facts:
* `invariant_of_runFrom`: what every step keeps holds after every run;
* `run_induction`: so does what may speak of the inputs of the run;
* `throughout_iff`: a property holds throughout a run exactly when every step meets
  the condition under which a step keeps its strengthening;
* `afterEach_iff`: so it is for a property of each step and of what it leads to.
-/

namespace Lib

universe u v

section PartialRun

variable {σ : Type u} {ι : Type v} (step : σ → ι → Option σ)

/-- The state after some inputs. -/
def runFrom (start : σ) (inputs : List ι) : Option σ :=
  inputs.foldlM step start

variable {step}

theorem runFrom_append {start s : σ} {inputs more : List ι} :
    runFrom step start (inputs ++ more) = some s ↔
      ∃ between, runFrom step start inputs = some between ∧
        runFrom step between more = some s := by
  unfold runFrom
  rw [List.foldlM_append]
  exact Option.bind_eq_some_iff

theorem runFrom_singleton (start : σ) (i : ι) :
    runFrom step start [i] = step start i := by
  unfold runFrom
  rw [List.foldlM_cons]
  exact Option.bind_fun_some _

theorem runFrom_concat {start s : σ} {inputs : List ι} {i : ι} :
    runFrom step start (inputs ++ [i]) = some s ↔
      ∃ between, runFrom step start inputs = some between ∧
        step between i = some s := by
  simp only [runFrom_append, runFrom_singleton]

theorem runFrom_cons {start s : σ} {i : ι} {rest : List ι} :
    runFrom step start (i :: rest) = some s ↔
      ∃ between, step start i = some between ∧
        runFrom step between rest = some s := by
  unfold runFrom
  rw [List.foldlM_cons]
  exact Option.bind_eq_some_iff

/-- What every step keeps holds after every run. -/
theorem invariant_of_runFrom {P : σ → Prop} {allowed : ι → Prop}
    (hstep : ∀ s i s', P s → allowed i → step s i = some s' → P s') {start s : σ}
    {inputs : List ι} (hallowed : ∀ i ∈ inputs, allowed i) (hstart : P start)
    (hrun : runFrom step start inputs = some s) :
    P s := by
  induction inputs generalizing start with
  | nil =>
      obtain rfl : start = s := Option.some.inj hrun
      exact hstart
  | cons i rest ih =>
      obtain ⟨between, hfirst, hrest⟩ := runFrom_cons.mp hrun
      have hbetween : P between :=
        hstep start i between hstart (hallowed i List.mem_cons_self) hfirst
      exact ih (fun j hj => hallowed j (List.mem_cons_of_mem i hj)) hbetween hrest

/-- What holds at the start and is kept by the last step of every run holds after
every run.  It may speak of the inputs so far. -/
theorem run_induction {P : List ι → σ → Prop} {start : σ} (hnil : P [] start)
    (hconcat : ∀ before i s s', runFrom step start before = some s → P before s →
      step s i = some s' → P (before ++ [i]) s') {inputs : List ι} {s : σ}
    (hrun : runFrom step start inputs = some s) : P inputs s := by
  induction inputs using List.reverseRecOn generalizing s with
  | nil =>
      obtain rfl : start = s := Option.some.inj hrun
      exact hnil
  | append_singleton before i ih =>
      obtain ⟨between, hbefore, hstep⟩ := runFrom_concat.mp hrun
      exact hconcat before i between s hbefore (ih hbefore) hstep

variable (step)

/-- A property holds in every state of a run, however the system then goes on by
itself. -/
def Throughout (own : ι → Prop) (Q : σ → Prop) (start : σ) (inputs : List ι) :
    Prop :=
  ∀ before, before <+: inputs → ∀ more, (∀ i ∈ more, own i) →
    ∀ s, runFrom step start (before ++ more) = some s → Q s

/-- Every step of a run meets a condition on the state before it. -/
def EachStep (C : σ → ι → Prop) (start : σ) (inputs : List ι) : Prop :=
  ∀ before i, before ++ [i] <+: inputs →
    ∀ s s', runFrom step start before = some s → step s i = some s' → C s i

/-- A property holds of every step of a run and of the state after it. -/
def AfterEach (Q : ι → σ → Prop) (start : σ) (inputs : List ι) : Prop :=
  ∀ before i, before ++ [i] <+: inputs →
    ∀ s, runFrom step start (before ++ [i]) = some s → Q i s

variable {step}

/-- What holds throughout a run holds where it ends. -/
theorem Throughout.holds {own : ι → Prop} {Q : σ → Prop} {start s : σ}
    {inputs : List ι} (h : Throughout step own Q start inputs)
    (hrun : runFrom step start inputs = some s) :
    Q s := by
  refine h inputs (List.prefix_refl inputs) [] ?_ s ?_
  · intro i hi
    cases hi
  · rwa [List.append_nil]

/-- A property holds throughout a run exactly when every step meets a condition:
the one under which a step keeps `P`, which says of a state that the property holds
however the system goes on from it by itself. -/
theorem throughout_iff {own : ι → Prop} {W P Q : σ → Prop} {C : σ → ι → Prop}
    {start : σ} (hW : W start) (hWstep : ∀ s i s', W s → step s i = some s' → W s')
    (hP : P start) (hPstep : ∀ s i s', W s → P s → step s i = some s' →
      (P s' ↔ C s i))
    (hown : ∀ s i, own i → C s i) (hsound : ∀ s, P s → Q s)
    (hexact : ∀ s, W s → (∀ more, (∀ i ∈ more, own i) →
      ∀ s', runFrom step s more = some s' → Q s') → P s) (inputs : List ι) :
    Throughout step own Q start inputs ↔ EachStep step C start inputs := by
  have hreached : ∀ before s, runFrom step start before = some s → W s := by
    intro before s hrun
    have hall : ∀ i ∈ before, (fun _ : ι => True) i := fun _ _ => trivial
    exact invariant_of_runFrom (fun s i s' hs _ => hWstep s i s' hs) hall hW hrun
  have hkeep : ∀ s i s', W s ∧ P s → own i → step s i = some s' → W s' ∧ P s' :=
    fun s i s' hs hi hstep =>
      ⟨hWstep s i s' hs.1 hstep, (hPstep s i s' hs.1 hs.2 hstep).mpr (hown s i hi)⟩
  have hclosed : ∀ before, (∀ more, (∀ i ∈ more, own i) →
      ∀ s, runFrom step start (before ++ more) = some s → Q s) ↔
        ∀ s, runFrom step start before = some s → P s := by
    intro before
    constructor
    · intro h s hrun
      refine hexact s (hreached before s hrun) ?_
      intro more hmore s' hgo
      exact h more hmore s' (runFrom_append.mpr ⟨s, hrun, hgo⟩)
    · intro h more hmore s hrun
      obtain ⟨between, hbefore, hgo⟩ := runFrom_append.mp hrun
      have hbetween := And.intro (hreached before between hbefore)
        (h between hbefore)
      exact hsound s (invariant_of_runFrom hkeep hmore hbetween hgo).2
  have hnil : ∀ s, runFrom step start [] = some s → P s := by
    intro s hrun
    obtain rfl : start = s := Option.some.inj hrun
    exact hP
  unfold Throughout EachStep
  simp only [hclosed]
  refine forall_prefix_iff hnil ?_ inputs
  intro before i hbefore
  constructor
  · intro h s s' hrun hstep
    have hs' := h s' (runFrom_concat.mpr ⟨s, hrun, hstep⟩)
    exact (hPstep s i s' (hreached before s hrun) (hbefore s hrun) hstep).mp hs'
  · intro h s' hrun
    obtain ⟨s, hrun, hstep⟩ := runFrom_concat.mp hrun
    exact (hPstep s i s' (hreached before s hrun) (hbefore s hrun) hstep).mpr
      (h s s' hrun hstep)

/-- A property holds after each step exactly when every step meets a condition: the
one under which a step from a state with `P` has the property.  After a step that has
it, the state has `P` again. -/
theorem afterEach_iff {P : σ → Prop} {Q : ι → σ → Prop} {C : σ → ι → Prop}
    {start : σ} (hP : P start)
    (hexact : ∀ s i s', P s → step s i = some s' → (Q i s' ↔ C s i))
    (hkeep : ∀ s i s', P s → step s i = some s' → Q i s' → P s')
    (inputs : List ι) :
    AfterEach step Q start inputs ↔ EachStep step C start inputs := by
  have hreached : ∀ before, (∀ earlier i, earlier ++ [i] <+: before →
      ∀ s s', runFrom step start earlier = some s → P s → step s i = some s' →
        Q i s') → ∀ s, runFrom step start before = some s → P s := by
    intro before
    induction before using List.reverseRecOn with
    | nil =>
        intro _ s hrun
        obtain rfl : start = s := Option.some.inj hrun
        exact hP
    | append_singleton before i ih =>
        intro h s' hrun
        obtain ⟨s, hbefore, hstep⟩ := runFrom_concat.mp hrun
        have hs : P s := by
          refine ih (fun earlier j hpre => ?_) s hbefore
          exact h earlier j (hpre.trans (List.prefix_append before [i]))
        have hQ := h before i (List.prefix_refl _) s s' hbefore hs hstep
        exact hkeep s i s' hs hstep hQ
  constructor
  · intro h before i hpre s s' hrun hstep
    have hs : P s := by
      refine hreached before (fun earlier j hearlier t t' ht _ hgo => ?_) s hrun
      have hlong : earlier ++ [j] <+: inputs :=
        (hearlier.trans (List.prefix_append before [i])).trans hpre
      exact h earlier j hlong t' (runFrom_concat.mpr ⟨t, ht, hgo⟩)
    exact (hexact s i s' hs hstep).mp (h before i hpre s'
      (runFrom_concat.mpr ⟨s, hrun, hstep⟩))
  · intro h before i hpre s' hrun
    obtain ⟨s, hbefore, hstep⟩ := runFrom_concat.mp hrun
    have hs : P s := by
      refine hreached before (fun earlier j hearlier t t' ht hPt hgo => ?_) s hbefore
      have hlong : earlier ++ [j] <+: inputs :=
        (hearlier.trans (List.prefix_append before [i])).trans hpre
      exact (hexact t j t' hPt hgo).mpr (h earlier j hlong t t' ht hgo)
    exact (hexact s i s' hs hstep).mpr (h before i hpre s s' hbefore hstep)

end PartialRun
end Lib
