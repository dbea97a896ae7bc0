import Mathlib.Logic.Function.Iterate
import Mathlib.Logic.Relator

/-!
# Loops that need not end

A loop relates the state in front of it to what it leads to: to a state, to an error
that its body raises, or to nothing, if it does not end.

Main facts:
* `While.rightUnique`, `ForEach.rightUnique`: a loop leads to one result at most;
* `While.of_iterate`: a loop that some turns of its body bring to its end;
* `ForEach.of_foldl`: a loop over a list whose body refines a fold.
-/

namespace Lib

universe u v w x

variable {σ : Type u} {ε : Type v} {α : Type w} {τ : Type x}

/-- `while cond: body` -/
inductive While (cond : σ → Prop) (body : σ → Except ε σ → Prop) :
    σ → Except ε σ → Prop
  | done {s : σ} (hcond : ¬ cond s) : While cond body s (.ok s)
  | raised {s : σ} {e : ε} (hcond : cond s) (hbody : body s (.error e)) :
      While cond body s (.error e)
  | again {s s' : σ} {r : Except ε σ} (hcond : cond s) (hbody : body s (.ok s'))
      (hrest : While cond body s' r) : While cond body s r

/-- `for x in xs: body` -/
inductive ForEach (body : α → σ → Except ε σ → Prop) :
    List α → σ → Except ε σ → Prop
  | done {s : σ} : ForEach body [] s (.ok s)
  | raised {x : α} {xs : List α} {s : σ} {e : ε} (hbody : body x s (.error e)) :
      ForEach body (x :: xs) s (.error e)
  | again {x : α} {xs : List α} {s s' : σ} {r : Except ε σ}
      (hbody : body x s (.ok s')) (hrest : ForEach body xs s' r) :
      ForEach body (x :: xs) s r

section While

variable {cond : σ → Prop} {body : σ → Except ε σ → Prop}

/-- A loop leads to one result at most if its body does. -/
theorem While.rightUnique (hbody : Relator.RightUnique body) :
    Relator.RightUnique (While cond body) := by
  intro s r r' h h'
  induction h with
  | done hcond =>
      cases h' with
      | done _ => rfl
      | raised hcond' _ => exact absurd hcond' hcond
      | again hcond' _ _ => exact absurd hcond' hcond
  | raised hcond hraise =>
      cases h' with
      | done hcond' => exact absurd hcond hcond'
      | raised _ hraise' => exact Except.error.inj (hbody hraise hraise') ▸ rfl
      | again _ hnext' _ => cases hbody hraise hnext'
  | again hcond hnext _ ih =>
      cases h' with
      | done hcond' => exact absurd hcond hcond'
      | raised _ hraise' => cases hbody hnext hraise'
      | again _ hnext' hrest' =>
          obtain rfl := Except.ok.inj (hbody hnext hnext')
          exact ih hrest'

/-- A loop ends where some turns of its body make the condition fail. -/
theorem While.of_iterate {inv : σ → Prop} {turn : σ → σ}
    (hturn : ∀ s, inv s → cond s → body s (.ok (turn s)) ∧ inv (turn s))
    (hstay : ∀ s, ¬ cond s → turn s = s) (n : Nat) {s : σ} (hs : inv s)
    (hend : ¬ cond (turn^[n] s)) :
    While cond body s (.ok (turn^[n] s)) := by
  induction n generalizing s with
  | zero => exact .done hend
  | succ n ih =>
      rw [Function.iterate_succ_apply] at hend ⊢
      by_cases hcond : cond s
      · obtain ⟨hbody, hinv⟩ := hturn s hs hcond
        exact .again hcond hbody (ih hinv hend)
      · rw [hstay s hcond] at hend ⊢
        exact ih hs hend

end While

section ForEach

variable {body : α → σ → Except ε σ → Prop}

/-- A loop over a list leads to one result at most if its body does. -/
theorem ForEach.rightUnique (hbody : ∀ x, Relator.RightUnique (body x)) (xs : List α) :
    Relator.RightUnique (ForEach body xs) := by
  intro s r r' h h'
  induction h with
  | done =>
      cases h'
      rfl
  | @raised x _ _ _ hraise =>
      cases h' with
      | raised hraise' => exact Except.error.inj (hbody x hraise hraise') ▸ rfl
      | again hnext' _ => cases hbody x hraise hnext'
  | @again x _ _ _ _ hnext _ ih =>
      cases h' with
      | raised hraise' => cases hbody x hnext hraise'
      | again hnext' hrest' =>
          obtain rfl := Except.ok.inj (hbody x hnext hnext')
          exact ih hrest'

/-- A loop over a list whose body refines the step of a fold. -/
theorem ForEach.of_foldl {inv : τ → Prop} {f : τ → α → τ} {abs : τ → σ} {xs : List α}
    (hstep : ∀ x ∈ xs, ∀ t, inv t → body x (abs t) (.ok (abs (f t x))) ∧ inv (f t x))
    {t : τ} (ht : inv t) :
    ForEach body xs (abs t) (.ok (abs (xs.foldl f t))) := by
  induction xs generalizing t with
  | nil => exact .done
  | cons x rest ih =>
      obtain ⟨hbody, hinv⟩ := hstep x List.mem_cons_self t ht
      exact .again hbody
        (ih (fun y hy => hstep y (List.mem_cons_of_mem x hy)) hinv)

end ForEach

end Lib
