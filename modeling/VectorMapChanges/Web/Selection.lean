import VectorMapChanges.Web.App

/-!
# The selection while answers are late

`handleSelectChange` shows whatever answer it gets: it does not ask whether its click
is still the last one, or whether the interval of the click is still selected.  The
detail panel is right as long as the answers happen to arrive in time, and the two
main facts say exactly when that is.  They judge a run by every state that it goes
through and that React then leads it to by itself.

Main facts:
* `shownChange_iff`: when every change shown is of the selected changeset;
* `shownHistory_iff`: when every history shown belongs to the change shown, and no
  answer gives way to that of an earlier click.
-/

namespace VectorMapChanges
namespace Web

open Lib

section SelectedChangeset

/-- With nothing left for React to do, the change shown is of the selected
changeset. -/
def ShowsSelected (s : AppState) : Prop :=
  s.pending = [] → s.clearDue = false →
    ∀ answer ∈ s.view.change,
      s.view.selectedChangesetId = some answer.detail.changesetId

/-- The effect is still to clear the selection. -/
def AppState.Clearing (s : AppState) : Prop :=
  s.clearDue = true ∨
    s.latest.selectedChangesetId ≠ s.view.selectedChangesetId

/-- An answer of `getChange` comes while its changeset is selected, or else before
the selection is cleared. -/
def InTime (s : AppState) : Event → Prop
  | .changeAnswered _ detail =>
      s.Clearing ∨ s.view.selectedChangesetId = some detail.changesetId
  | _ => True

/-- The invariant: what is wrong with the change will still be cleared. -/
def WillShowSelected (s : AppState) : Prop :=
  s.Clearing ∨ ∀ answer ∈ s.latest.change,
    s.view.selectedChangesetId = some answer.detail.changesetId

variable {s : AppState}

/-- The invariant after an event of the outside. -/
theorem willShowSelected_take (event : Event) (houtside : ¬ event.Own) {next : View}
    (hnext : (s.take event).latest = next) :
    WillShowSelected (s.take event) ↔
      (s.clearDue = true ∨
        next.selectedChangesetId ≠ s.view.selectedChangesetId) ∨
      ∀ answer ∈ next.change,
        s.view.selectedChangesetId = some answer.detail.changesetId := by
  obtain ⟨hview, hdue, -⟩ := frame_take (s := s) houtside
  unfold WillShowSelected AppState.Clearing
  rw [hview, hdue, hnext]

/-- A step keeps the invariant exactly when an answer that it brings is in time. -/
theorem willShowSelected_step {changesetOf : Nat → Nat} {s' : AppState}
    {event : Event} (hloading : s.listRequested = true → Loading s)
    (h : WillShowSelected s) (hstep : step changesetOf s event = some s') :
    WillShowSelected s' ↔ InTime s event := by
  obtain ⟨henabled, rfl⟩ := step_eq_some_iff.mp hstep
  cases event with
  | click changeFeatureId =>
      rw [willShowSelected_take (.click changeFeatureId) id
        (latest_handleSelectChange s changeFeatureId)]
      exact iff_of_true h trivial
  | switchInterval changesetId =>
      rw [willShowSelected_take (.switchInterval changesetId) id
        (latest_enqueue s _)]
      refine iff_of_true ?_ trivial
      by_cases hsame : some changesetId = s.view.selectedChangesetId
      · -- Selecting the selected changeset again changes nothing.
        have hcurrent := henabled.1
        rcases h with (hdue | hne) | hchange
        · exact Or.inl (Or.inl hdue)
        · exact absurd hcurrent hne
        · exact Or.inr hchange
      · exact Or.inl (Or.inr hsame)
  | changeAnswered click detail =>
      obtain ⟨loading, hlatest⟩ := exists_latest_changeLoaded s click detail
      rw [willShowSelected_take (.changeAnswered click detail) id hlatest]
      simp only [InTime, AppState.Clearing, Option.mem_some_iff, forall_eq']
  | historyAnswered click history =>
      rw [willShowSelected_take (.historyAnswered click history) id
        (latest_historyLoaded s click history)]
      exact iff_of_true h trivial
  | requestFailed click message =>
      rw [willShowSelected_take (.requestFailed click message) id
        (latest_selectFailed s click message)]
      exact iff_of_true (Or.inr (fun _ hanswer => nomatch hanswer)) trivial
  | listAnswered list =>
      obtain ⟨selected, hlatest, hselected⟩ := exists_latest_changesetsLoaded s list
      rw [willShowSelected_take (.listAnswered list) id hlatest]
      refine iff_of_true ?_ trivial
      rcases hselected with rfl | ⟨id, rfl⟩
      · exact h
      · -- Nothing was selected before.
        refine Or.inl (Or.inr ?_)
        rw [(hloading henabled).view.2]
        exact Option.some_ne_none id
  | listFailed message =>
      rw [willShowSelected_take (.listFailed message) id
        (latest_changesetsFailed s message)]
      exact iff_of_true h trivial
  | effect =>
      have hnone : (s.take .effect).latest.change = none :=
        congrArg View.change (latest_clearSelection s)
      refine iff_of_true (Or.inr ?_) trivial
      rw [hnone]
      exact fun _ hanswer => nomatch hanswer
  | render =>
      refine iff_of_true ?_ trivial
      by_cases hsame :
          s.latest.selectedChangesetId = s.view.selectedChangesetId
      · rcases h with (hdue | hne) | hchange
        · rw [show s.clearDue = false from henabled] at hdue
          cases hdue
        · exact absurd hsame hne
        · refine Or.inr ?_
          change ∀ answer ∈ s.latest.change,
            s.latest.selectedChangesetId = some answer.detail.changesetId
          rw [hsame]
          exact hchange
      · exact Or.inl (Or.inl (decide_eq_true hsame))

theorem inTime_of_own {event : Event} (h : event.Own) : InTime s event := by
  cases event with
  | effect => trivial
  | render => trivial
  | _ => cases h

/-- A state that React can only lead to right ones satisfies the invariant. -/
theorem willShowSelected_of_own {changesetOf : Nat → Nat}
    (h : ∀ more, (∀ event ∈ more, event.Own) →
      ∀ s', runFrom (step changesetOf) s more = some s' → ShowsSelected s') :
    WillShowSelected s := by
  by_contra hnot
  have hcurrent : ¬ s.Clearing := fun hclearing => hnot (Or.inl hclearing)
  obtain ⟨hdue, hsame⟩ := not_or.mp hcurrent
  rw [Bool.not_eq_true] at hdue
  rw [not_not] at hsame
  have hshows : ShowsSelected (renderApp s) :=
    h [.render] (List.forall_mem_singleton.mpr trivial) _ (runFrom_render hdue)
  refine hnot (Or.inr ?_)
  rw [← hsame]
  exact hshows rfl (decide_eq_false (not_not_intro hsame))

/-- Every change shown is of the selected changeset, throughout a run, if and only if
every answer of `getChange` comes while its changeset is selected, or before the
selection is cleared. -/
theorem shownChange_iff (changesetOf : Nat → Nat) (events : List Event) :
    Throughout (step changesetOf) Event.Own ShowsSelected .initial events ↔
      EachStep (step changesetOf) InTime .initial events := by
  have hsound : ∀ s, WillShowSelected s → ShowsSelected s := by
    intro s h hpending hdue
    have hlatest : s.latest = s.view := by
      rw [AppState.latest, hpending, List.foldl_nil]
    rcases h with (hclear | hne) | hchange
    · rw [hdue] at hclear
      cases hclear
    · rw [hlatest] at hne
      exact absurd rfl hne
    · rw [hlatest] at hchange
      exact hchange
  exact throughout_iff (W := fun s => s.listRequested = true → Loading s)
    (fun _ => ⟨⟨rfl, rfl⟩, ⟨rfl, rfl⟩⟩) (fun _ _ _ => loading_step)
    (Or.inl (Or.inl rfl)) (fun _ _ _ => willShowSelected_step)
    (fun _ _ => inTime_of_own) hsound (fun _ _ => willShowSelected_of_own) events

/-- A yearly comparison, with a retraced building. -/
def yearlyChangeset : Api.ChangesetPayload where
  id := 20
  algorithmVersion := "v1"
  snapshotAId := 1
  snapshotBId := 2
  timeA := ⟨2025, 7, 1, 0, 0, 0⟩
  timeB := ⟨2026, 7, 1, 0, 0, 0⟩
  unchangedCount := 26628
  modifiedGeometryCount := 145
  modifiedAttributesCount := 130
  modifiedGeometryAndAttributesCount := 5
  addedCount := 72
  removedCount := 103
  ambiguousCount := 2
  spanLabel := "1 year"
  changedCount := 457

/-- A monthly comparison. -/
def monthlyChangeset : Api.ChangesetPayload :=
  { yearlyChangeset with id := 19, spanLabel := "1 month" }

/-- The retraced building. -/
def retracedChange : ChangeDetail where
  id := 501
  changesetId := 20
  osmIdsA := ["way/149268397"]
  osmIdsB := ["way/149268397"]

/-- `App` comes up and selects the yearly comparison. -/
def startup : List Event :=
  [.effect, .render, .listAnswered [yearlyChangeset, monthlyChangeset], .render,
    .effect, .render]

/-- The user clicks on the retraced building, and switches to the monthly comparison
before the answer comes. -/
def lateAnswer : List Event :=
  startup ++ [.click 501, .render, .switchInterval 19, .render, .effect, .render,
    .changeAnswered 0 retracedChange, .render]

/-- A late answer is shown in the other interval. -/
theorem shownChange_lateAnswer :
    (runFrom (step fun _ => 20) .initial lateAnswer).map (fun s =>
        (s.pending, s.clearDue, s.view.selectedChangesetId,
          s.view.change.map (fun answer => answer.detail.changesetId))) =
      some ([], false, some 19, some 20) ∧
    ¬ Throughout (step fun _ => 20) Event.Own ShowsSelected .initial lateAnswer := by
  have hrun : (runFrom (step fun _ => 20) .initial lateAnswer).map (fun s =>
      (s.pending, s.clearDue, s.view.selectedChangesetId,
        s.view.change.map (fun answer => answer.detail.changesetId))) =
      some ([], false, some 19, some 20) := by
    decide
  refine ⟨hrun, ?_⟩
  intro h
  obtain ⟨s, hs, hstate⟩ := Option.map_eq_some_iff.mp hrun
  obtain ⟨hpending, hdue, hselected, hchange⟩ :
      s.pending = [] ∧ s.clearDue = false ∧ s.view.selectedChangesetId = some 19 ∧
        s.view.change.map (fun answer => answer.detail.changesetId) = some 20 := by
    simpa only [Prod.mk.injEq] using hstate
  obtain ⟨answer, hanswer, hchangeset⟩ := Option.map_eq_some_iff.mp hchange
  have hshows := h.holds hs hpending hdue answer hanswer
  rw [hselected, hchangeset] at hshows
  exact absurd hshows (by decide)

end SelectedChangeset

section SelectedHistory

/-- The history shown belongs to the change shown. -/
def View.Coherent (view : View) : Prop :=
  ∀ history ∈ view.history, ∃ answer ∈ view.change, history.BelongsTo answer.detail

/-- The history shown belongs to the change shown, and so far no answer on the screen
has given way to that of an earlier click. -/
def ShowsOwnHistory (s : AppState) : Prop :=
  s.view.Coherent ∧ s.replaced = false

/-- What an event finds, unless the effect is still to clear the selection: an answer
of `getChange` finds no history but that of its own building, and no later click's
answer on the screen; an answer of `getHistory` finds a change of its building; and a
failure finds no history. -/
def InTurn (s : AppState) : Event → Prop
  | .changeAnswered click detail =>
      s.clearDue = true ∨ (∀ history ∈ s.latest.history, history.BelongsTo detail) ∧
        ∀ shown ∈ s.view.change, shown.click ≤ click
  | .historyAnswered _ history =>
      s.clearDue = true ∨ ∃ answer ∈ s.latest.change, history.BelongsTo answer.detail
  | .requestFailed _ _ => s.clearDue = true ∨ s.latest.history = none
  | _ => True

/-- The invariant: what the next render shows is right as well. -/
def WillShowOwnHistory (s : AppState) : Prop :=
  ShowsOwnHistory s ∧ (s.clearDue = true ∨
    s.latest.Coherent ∧ ¬ GivesWay s.view.change s.latest.change)

theorem View.coherent_of_history_eq_none {view : View} (h : view.history = none) :
    view.Coherent := by
  intro history hhistory
  rw [h] at hhistory
  cases hhistory

theorem not_givesWay_iff {shown : Option Answer} {next : Answer} :
    ¬ GivesWay shown (some next) ↔
      ∀ answer ∈ shown, answer.click ≤ next.click := by
  cases shown with
  | none => simp [GivesWay]
  | some answer => simp [GivesWay]

theorem not_givesWay_none (shown : Option Answer) : ¬ GivesWay shown none := by
  cases shown with
  | none => exact id
  | some answer => exact id

theorem not_givesWay_self (shown : Option Answer) : ¬ GivesWay shown shown := by
  cases shown with
  | none => exact id
  | some answer => exact Nat.lt_irrefl _

variable {s : AppState}

/-- The invariant after an event of the outside. -/
theorem willShowOwnHistory_take (event : Event) (houtside : ¬ event.Own)
    (h : WillShowOwnHistory s) {next : View} (hnext : (s.take event).latest = next) :
    WillShowOwnHistory (s.take event) ↔
      s.clearDue = true ∨ next.Coherent ∧ ¬ GivesWay s.view.change next.change := by
  obtain ⟨hview, hdue, hreplaced⟩ := frame_take (s := s) houtside
  unfold WillShowOwnHistory ShowsOwnHistory
  rw [hview, hdue, hreplaced, hnext]
  exact and_iff_right h.1

/-- A step keeps the invariant exactly when what it brings is in turn. -/
theorem willShowOwnHistory_step {changesetOf : Nat → Nat} {s' : AppState}
    {event : Event} (h : WillShowOwnHistory s)
    (hstep : step changesetOf s event = some s') :
    WillShowOwnHistory s' ↔ InTurn s event := by
  obtain ⟨henabled, rfl⟩ := step_eq_some_iff.mp hstep
  cases event with
  | click changeFeatureId =>
      rw [willShowOwnHistory_take (.click changeFeatureId) id h
        (latest_handleSelectChange s changeFeatureId)]
      refine iff_of_true ?_ trivial
      rcases h.2 with hdue | ⟨-, hstays⟩
      · exact Or.inl hdue
      · exact Or.inr ⟨View.coherent_of_history_eq_none rfl, hstays⟩
  | switchInterval changesetId =>
      rw [willShowOwnHistory_take (.switchInterval changesetId) id h
        (latest_enqueue s _)]
      exact iff_of_true h.2 trivial
  | changeAnswered click detail =>
      obtain ⟨loading, hlatest⟩ := exists_latest_changeLoaded s click detail
      rw [willShowOwnHistory_take (.changeAnswered click detail) id h hlatest,
        not_givesWay_iff]
      simp only [InTurn, View.Coherent, Option.mem_some_iff, exists_eq_left']
  | historyAnswered click history =>
      rw [willShowOwnHistory_take (.historyAnswered click history) id h
        (latest_historyLoaded s click history)]
      rcases h.2 with hdue | ⟨-, hstays⟩
      · exact iff_of_true (Or.inl hdue) (Or.inl hdue)
      · refine or_congr_right ((and_iff_left hstays).trans ?_)
        simp only [View.Coherent, Option.mem_some_iff, forall_eq']
  | requestFailed click message =>
      rw [willShowOwnHistory_take (.requestFailed click message) id h
        (latest_selectFailed s click message)]
      refine or_congr_right ((and_iff_left (not_givesWay_none _)).trans ?_)
      constructor
      · intro hcoherent
        refine Option.eq_none_iff_forall_not_mem.mpr ?_
        intro history hhistory
        obtain ⟨answer, hanswer, -⟩ := hcoherent history hhistory
        cases hanswer
      · intro hnone
        exact View.coherent_of_history_eq_none hnone
  | listAnswered list =>
      obtain ⟨selected, hlatest, -⟩ := exists_latest_changesetsLoaded s list
      rw [willShowOwnHistory_take (.listAnswered list) id h hlatest]
      exact iff_of_true h.2 trivial
  | listFailed message =>
      rw [willShowOwnHistory_take (.listFailed message) id h
        (latest_changesetsFailed s message)]
      exact iff_of_true h.2 trivial
  | effect =>
      have hlatest : (s.take .effect).latest = _ := latest_clearSelection s
      refine iff_of_true ⟨h.1, Or.inr ?_⟩ trivial
      rw [hlatest]
      exact ⟨View.coherent_of_history_eq_none rfl, not_givesWay_none _⟩
  | render =>
      refine iff_of_true ?_ trivial
      have hdue : s.clearDue = false := henabled
      rcases h.2 with hclear | ⟨hcoherent, hstays⟩
      · rw [hdue] at hclear
        cases hclear
      · refine ⟨⟨hcoherent, ?_⟩, Or.inr ⟨hcoherent, not_givesWay_self _⟩⟩
        change (s.replaced || decide (GivesWay s.view.change s.latest.change)) = false
        rw [h.1.2, decide_eq_false hstays, Bool.or_false]

theorem inTurn_of_own {event : Event} (h : event.Own) : InTurn s event := by
  cases event with
  | effect => trivial
  | render => trivial
  | _ => cases h

/-- A state that React can only lead to right ones satisfies the invariant. -/
theorem willShowOwnHistory_of_own {changesetOf : Nat → Nat}
    (h : ∀ more, (∀ event ∈ more, event.Own) →
      ∀ s', runFrom (step changesetOf) s more = some s' → ShowsOwnHistory s') :
    WillShowOwnHistory s := by
  refine ⟨h [] (by simp) s rfl, ?_⟩
  cases hdue : s.clearDue with
  | true => exact Or.inl rfl
  | false =>
      have hshows : ShowsOwnHistory (renderApp s) :=
        h [.render] (List.forall_mem_singleton.mpr trivial) _ (runFrom_render hdue)
      have hreplaced : (s.replaced ||
          decide (GivesWay s.view.change s.latest.change)) = false := hshows.2
      rw [Bool.or_eq_false_iff, decide_eq_false_iff_not] at hreplaced
      exact Or.inr ⟨hshows.1, hreplaced.2⟩

/-- The history shown belongs to the change shown and no answer gives way to that of
an earlier click, throughout a run, if and only if what every event brings is in
turn. -/
theorem shownHistory_iff (changesetOf : Nat → Nat) (events : List Event) :
    Throughout (step changesetOf) Event.Own ShowsOwnHistory .initial events ↔
      EachStep (step changesetOf) InTurn .initial events := by
  have hinitial : WillShowOwnHistory .initial :=
    ⟨⟨View.coherent_of_history_eq_none rfl, rfl⟩, Or.inl rfl⟩
  exact throughout_iff (W := fun _ => True) trivial (fun _ _ _ _ _ => trivial)
    hinitial (fun _ _ _ _ => willShowOwnHistory_step) (fun _ _ => inTurn_of_own)
    (fun _ h => h.1) (fun _ _ => willShowOwnHistory_of_own) events

/-- Another building of the yearly comparison. -/
def addedChange : ChangeDetail where
  id := 502
  changesetId := 20
  osmIdsA := []
  osmIdsB := ["way/1427652677"]

/-- The user clicks on two buildings, one after the other, and the history of the
first comes after the change of the second. -/
def lateHistory : List Event :=
  startup ++ [.click 501, .render, .changeAnswered 0 retracedChange, .render,
    .click 502, .render, .changeAnswered 1 addedChange, .render,
    .historyAnswered 0 ⟨"way/149268397"⟩, .render]

/-- The user clicks on two buildings, one after the other, and the change of the first
comes after that of the second. -/
def overtaken : List Event :=
  startup ++ [.click 501, .render, .click 502, .render,
    .changeAnswered 1 addedChange, .render, .changeAnswered 0 retracedChange, .render]

/-- Late answers are shown under another building, and in the place of a later
click's answer. -/
theorem shownHistory_lateAnswers :
    ((runFrom (step fun _ => 20) .initial lateHistory).map (fun s =>
        (s.view.change, s.view.history)) =
      some (some ⟨1, addedChange⟩, some ⟨"way/149268397"⟩) ∧
    ¬ Throughout (step fun _ => 20) Event.Own ShowsOwnHistory .initial lateHistory) ∧
    ((runFrom (step fun _ => 20) .initial overtaken).map (fun s =>
        (s.view.change, s.replaced)) = some (some ⟨0, retracedChange⟩, true) ∧
    ¬ Throughout (step fun _ => 20) Event.Own ShowsOwnHistory .initial overtaken) := by
  have hlate : (runFrom (step fun _ => 20) .initial lateHistory).map (fun s =>
      (s.view.change, s.view.history)) =
      some (some ⟨1, addedChange⟩, some ⟨"way/149268397"⟩) := by
    decide
  have hovertaken : (runFrom (step fun _ => 20) .initial overtaken).map (fun s =>
      (s.view.change, s.replaced)) = some (some ⟨0, retracedChange⟩, true) := by
    decide
  refine ⟨⟨hlate, ?_⟩, hovertaken, ?_⟩
  · intro h
    obtain ⟨s, hs, hstate⟩ := Option.map_eq_some_iff.mp hlate
    have hchange : s.view.change = some ⟨1, addedChange⟩ := congrArg Prod.fst hstate
    have hhistory : s.view.history = some ⟨"way/149268397"⟩ :=
      congrArg Prod.snd hstate
    obtain ⟨answer, hanswer, hbelongs⟩ := (h.holds hs).1 _ hhistory
    obtain rfl := Option.some.inj (hchange.symm.trans hanswer)
    exact absurd hbelongs (by decide)
  · intro h
    obtain ⟨s, hs, hstate⟩ := Option.map_eq_some_iff.mp hovertaken
    have hreplaced : s.replaced = true := congrArg Prod.snd hstate
    rw [(h.holds hs).2] at hreplaced
    cases hreplaced

end SelectedHistory

end Web
end VectorMapChanges
