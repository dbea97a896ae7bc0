import VectorMapChanges.Web.Requests

/-!
# One handler after the other

Whether what an event brings is in turn is a matter of what is on the screen.  Here is
a reason that shows in the events themselves: the runs of `handleSelectChange` do not
overlap, and the effect does not clear the selection in the middle of one.  The
interval may be switched at any time, provided that the effect of it waits.

Main facts:
* `alone_step`: the handler of the last click is the only one that waits, and what it
  waits for belongs to the change that is there;
* `inTurn_of_oneAtATime`: in a run without overlaps everything comes in turn.
-/

namespace VectorMapChanges
namespace Web

open Lib

section Turns

/-- Whether a handler waits for an answer after an event, given whether one did
before. -/
def Event.waits (before : Bool) : Event → Bool
  | .click _ => true
  | .changeAnswered _ detail => detail.historyOf.isSome
  | .historyAnswered _ _ => false
  | .requestFailed _ _ => false
  | _ => before

/-- No click, and no effect, comes while a handler waits. -/
def OneAtATime (events : List Event) : Prop :=
  ∀ before event, before ++ [event] <+: events →
    event.isClick = true ∨ event = .effect → before.foldl Event.waits false = false

/-- At most one handler waits, and undisturbed. -/
structure Alone (waits : Bool) (s : AppState) : Prop where
  /-- It is that of the last click. -/
  last : ∀ click, s.requests click ≠ none → waits = true ∧ click + 1 = s.clicks
  /-- It has taken the history of an earlier change away. -/
  history : waits = true → s.latest.history = none
  /-- The history that it asks for belongs to the change. -/
  change : ∀ click osmId, s.requests click = some (.getHistory osmId) →
    ∃ answer ∈ s.latest.change, FeatureHistory.BelongsTo ⟨osmId⟩ answer.detail
  /-- What there is to show answers a click that has been made. -/
  shown : ∀ answer, answer ∈ s.view.change ∨ answer ∈ s.latest.change →
    answer.click < s.clicks

/-- `handleSelectChange` asks for the history of a single building. -/
theorem belongsTo_of_historyOf {detail : ChangeDetail} {osmId : String}
    (h : detail.historyOf = some osmId) :
    FeatureHistory.BelongsTo ⟨osmId⟩ detail := by
  unfold ChangeDetail.historyOf at h
  cases hsubject : detail.subject with
  | none =>
      rw [hsubject] at h
      cases h
  | some subject =>
      simp only [hsubject, Option.ite_none_right_eq_some, Option.some.injEq] at h
      obtain ⟨⟨-, hsingle⟩, rfl⟩ := h
      exact ⟨hsingle, hsubject⟩

variable {s : AppState}

/-- After a change its handler waits for the history, if it asks for one. -/
theorem requests_changeLoaded (click : Nat) (detail : ChangeDetail) :
    (changeLoaded s click detail).requests =
      Function.update s.requests click (detail.historyOf.map .getHistory) := by
  unfold changeLoaded
  cases detail.historyOf <;> rfl

theorem alone_initial : Alone false .initial where
  last _ h := absurd rfl h
  history h := nomatch h
  change _ _ h := nomatch h
  shown _ h := h.elim (fun h => nomatch h) (fun h => nomatch h)

variable {waits : Bool}

/-- While no handler waits, nothing is asked for. -/
theorem Alone.requests_eq_none (h : Alone false s) (click : Nat) :
    s.requests click = none := by
  by_contra hne
  cases (h.last click hne).1

/-- Only the handler of an answered click had a request. -/
theorem Alone.requests_eq_none_of_ne (h : Alone waits s) {click other : Nat}
    (hclick : s.requests click ≠ none) (hne : other ≠ click) :
    s.requests other = none := by
  by_contra hother
  have hlast := (h.last click hclick).2
  have hsame := (h.last other hother).2
  omega

/-- Once the handler of a click has ended, nothing is asked for. -/
theorem Alone.requests_ended (h : Alone waits s) {click : Nat}
    (hclick : s.requests click ≠ none) (other : Nat) :
    Function.update s.requests click none other = none := by
  by_cases hsame : other = click
  · rw [hsame, Function.update_self]
  · rw [Function.update_of_ne hsame]
    exact h.requests_eq_none_of_ne hclick hsame

/-- What an undisturbed handler gets is in turn. -/
theorem Alone.inTurn {changesetOf : Nat → Nat} {event : Event} (h : Alone waits s)
    (henabled : s.Enabled changesetOf event) : InTurn s event := by
  cases event with
  | changeAnswered click detail =>
      obtain ⟨hwaits, hlast⟩ := h.last click (by simp [henabled.1])
      refine Or.inr ⟨?_, ?_⟩
      · rw [h.history hwaits]
        exact fun _ hhistory => nomatch hhistory
      · intro shown hshown
        have hlt := h.shown shown (Or.inl hshown)
        omega
  | historyAnswered click history =>
      have hrequest : s.requests click = some (.getHistory history.osmId) := henabled
      exact Or.inr (h.change click history.osmId hrequest)
  | requestFailed click message =>
      exact Or.inr (h.history (h.last click henabled).1)
  | _ => trivial

/-- A step after which no handler has a request. -/
theorem Alone.done {s' : AppState} (hnone : ∀ click, s'.requests click = none)
    (hshown : ∀ answer, answer ∈ s'.view.change ∨ answer ∈ s'.latest.change →
      answer.click < s'.clicks) : Alone false s' where
  last click h := absurd (hnone click) h
  history h := nomatch h
  change click osmId h := by
    rw [hnone click] at h
    cases h
  shown := hshown

/-- A step that leaves the handlers, the change and the history as they are. -/
theorem Alone.frame {s' : AppState} {next : View} (h : Alone waits s)
    (hrequests : s'.requests = s.requests) (hclicks : s'.clicks = s.clicks)
    (hnext : s'.latest = next) (hchange : next.change = s.latest.change)
    (hhistory : next.history = s.latest.history)
    (hshown : ∀ answer, answer ∈ s'.view.change ∨ answer ∈ s'.latest.change →
      answer.click < s'.clicks) : Alone waits s' where
  last := by
    rw [hrequests, hclicks]
    exact h.last
  history := by
    rw [hnext, hhistory]
    exact h.history
  change := by
    rw [hrequests, hnext, hchange]
    exact h.change
  shown := hshown

/-- A step leaves at most one handler waiting, unless a click or the effect comes
while one waits. -/
theorem alone_step {changesetOf : Nat → Nat} {s' : AppState} {event : Event}
    (h : Alone waits s) (hturn : event.isClick = true ∨ event = .effect → waits = false)
    (hstep : step changesetOf s event = some s') : Alone (event.waits waits) s' := by
  obtain ⟨henabled, rfl⟩ := step_eq_some_iff.mp hstep
  have hshown : ∀ answer, answer ∈ (s.take event).view.change ∨
      answer ∈ (s.take event).latest.change → answer.click < (s.take event).clicks := by
    intro answer hanswer
    rw [clicks_take]
    rcases change_take hanswer with hbefore | rfl
    · exact Nat.lt_add_right _ (h.shown answer hbefore)
    · have hlast := (h.last answer.click (by simp [henabled.1])).2
      omega
  cases event with
  | click changeFeatureId =>
      obtain rfl : waits = false := hturn (Or.inl rfl)
      have hrequests : (s.take (.click changeFeatureId)).requests =
          Function.update s.requests s.clicks (some (.getChange changeFeatureId)) :=
        rfl
      refine ⟨?_, ?_, ?_, hshown⟩
      · intro click hclick
        by_cases hnew : click = s.clicks
        · exact ⟨rfl, congrArg (· + 1) hnew⟩
        · rw [hrequests, Function.update_of_ne hnew] at hclick
          exact absurd (h.requests_eq_none click) hclick
      · intro _
        rw [AppState.take, latest_handleSelectChange]
      · intro click osmId hclick
        rw [hrequests] at hclick
        by_cases hnew : click = s.clicks
        · rw [hnew, Function.update_self] at hclick
          cases hclick
        · rw [Function.update_of_ne hnew, h.requests_eq_none click] at hclick
          cases hclick
  | changeAnswered click detail =>
      have hasked : s.requests click ≠ none := by simp [henabled.1]
      obtain ⟨loading, hlatest⟩ := exists_latest_changeLoaded s click detail
      have hrequests : (s.take (.changeAnswered click detail)).requests =
          Function.update s.requests click (detail.historyOf.map .getHistory) :=
        requests_changeLoaded click detail
      have hothers : ∀ other, other ≠ click →
          (s.take (.changeAnswered click detail)).requests other = none := by
        intro other hne
        rw [hrequests, Function.update_of_ne hne]
        exact h.requests_eq_none_of_ne hasked hne
      refine ⟨?_, ?_, ?_, hshown⟩
      · intro other hother
        have hsame : other = click := not_not.mp (mt (hothers other) hother)
        rw [hsame, hrequests, Function.update_self] at hother
        rw [hsame, clicks_take]
        refine ⟨?_, (h.last click hasked).2⟩
        exact Option.isSome_iff_ne_none.mpr (fun hnone => hother (by rw [hnone]; rfl))
      · intro _
        rw [AppState.take, hlatest]
        exact h.history (h.last click hasked).1
      · intro other osmId hother
        have hsame : other = click := by
          by_contra hne
          rw [hothers other hne] at hother
          cases hother
        rw [hsame, hrequests, Function.update_self, Option.map_eq_some_iff] at hother
        obtain ⟨osmId', hof, heq⟩ := hother
        obtain rfl := Request.getHistory.inj heq
        rw [AppState.take, hlatest]
        exact ⟨⟨click, detail⟩, rfl, belongsTo_of_historyOf hof⟩
  | historyAnswered click history =>
      have hrequest : s.requests click = some (.getHistory history.osmId) := henabled
      exact Alone.done (h.requests_ended (by simp [hrequest])) hshown
  | requestFailed click message =>
      exact Alone.done (h.requests_ended henabled) hshown
  | listAnswered list =>
      obtain ⟨selected, hlatest, -⟩ := exists_latest_changesetsLoaded s list
      exact h.frame rfl rfl hlatest rfl rfl hshown
  | effect =>
      obtain rfl : waits = false := hturn (Or.inr rfl)
      exact Alone.done h.requests_eq_none hshown
  | switchInterval changesetId =>
      exact h.frame rfl rfl (latest_enqueue s _) rfl rfl hshown
  | listFailed message =>
      exact h.frame rfl rfl (latest_changesetsFailed s message) rfl rfl hshown
  | render => exact h.frame rfl rfl rfl rfl rfl hshown

/-- In a run in which no click and no effect comes while a handler waits, every answer
comes in turn: the history shown then belongs to the change shown. -/
theorem inTurn_of_oneAtATime (changesetOf : Nat → Nat) {events : List Event}
    (h : OneAtATime events) : EachStep (step changesetOf) InTurn .initial events := by
  have halone : ∀ before s, before <+: events →
      runFrom (step changesetOf) .initial before = some s →
      Alone (before.foldl Event.waits false) s := by
    intro before s hprefix hrun
    refine run_induction (P := fun inputs s => inputs <+: events →
      Alone (inputs.foldl Event.waits false) s) (fun _ => alone_initial) ?_ hrun
      hprefix
    intro earlier event between s' _ hbetween hstep hlonger
    rw [List.foldl_append, List.foldl_cons, List.foldl_nil]
    have hbefore := hbetween ((List.prefix_append earlier [event]).trans hlonger)
    exact alone_step hbefore (h earlier event hlonger) hstep
  intro before event hprefix s s' hrun hstep
  obtain ⟨henabled, -⟩ := step_eq_some_iff.mp hstep
  exact (halone before s ((List.prefix_append before [event]).trans hprefix)
    hrun).inTurn henabled

end Turns

end Web
end VectorMapChanges
