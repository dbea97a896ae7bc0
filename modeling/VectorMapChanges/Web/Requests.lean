import Mathlib.Algebra.BigOperators.Group.Finset.Basic
import VectorMapChanges.Web.Selection

/-!
# What the panel waits for

Every click on the map starts a run of `handleSelectChange`, which asks for the
change and then perhaps for a history.  The runs overlap, and the first one to end
stops the spinner that the later ones started.  The spinner can thus stop too early,
but it never goes on without a request, and the requests are numbered by their clicks
and run out: a click leads to two answers at most.

Main facts:
* `numbered_step`, `load_take`: what a step does to the requests in flight;
* `listed_step`: what is selected is in the list that has arrived;
* `replies_add_load_le`: answers and outstanding requests over a whole run;
* `app_settles`: once nothing is in flight and React is done, the spinner has stopped.
-/

namespace VectorMapChanges
namespace Web

open Lib

section Requests

/-- How many answers a request can still lead to. -/
def weight : Option Request → Nat
  | none => 0
  | some (.getHistory _) => 1
  | some (.getChange _) => 2

/-- How many answers the requests in flight can still lead to. -/
def AppState.load (s : AppState) : Nat :=
  ∑ click ∈ Finset.range s.clicks, weight (s.requests click)

/-- The requests in flight serve clicks that have been made. -/
def AppState.Numbered (s : AppState) : Prop :=
  ∀ click, s.requests click ≠ none → click < s.clicks

/-- Clicks on the map. -/
def Event.isClick : Event → Bool
  | .click _ => true
  | _ => false

variable {s : AppState}

/-- What `changeLoaded` waits for, and whether the spinner goes on. -/
theorem changeLoaded_cases (click : Nat) (detail : ChangeDetail) :
    (∃ osmId, (changeLoaded s click detail).requests =
        Function.update s.requests click (some (.getHistory osmId)) ∧
      (changeLoaded s click detail).load =
        (s.await click (some (.getHistory osmId))).load) ∨
    (changeLoaded s click detail).requests =
        Function.update s.requests click none ∧
      (changeLoaded s click detail).load = (s.await click none).load ∧
      (changeLoaded s click detail).latest.loadingDetail = false := by
  unfold changeLoaded
  cases detail.historyOf with
  | some osmId => exact Or.inl ⟨osmId, rfl, rfl⟩
  | none =>
      refine Or.inr ⟨rfl, rfl, ?_⟩
      rw [latest_await, latest_enqueue]
      rfl

/-- The click whose request an event changes. -/
def AppState.Touches (s : AppState) (c : Nat) : Event → Prop
  | .click _ => c = s.clicks
  | .changeAnswered click _ => c = click
  | .historyAnswered click _ => c = click
  | .requestFailed click _ => c = click
  | _ => False

/-- The requests of all other clicks stay in flight. -/
theorem requests_take_of_not_touches {event : Event} {c : Nat}
    (h : ¬ s.Touches c event) : (s.take event).requests c = s.requests c := by
  cases event with
  | click changeFeatureId => exact Function.update_of_ne h _ _
  | changeAnswered click detail =>
      rcases changeLoaded_cases (s := s) click detail with
        ⟨osmId, hafter, -⟩ | ⟨hafter, -, -⟩
      · rw [AppState.take, hafter]
        exact Function.update_of_ne h _ _
      · rw [AppState.take, hafter]
        exact Function.update_of_ne h _ _
  | historyAnswered click history => exact Function.update_of_ne h _ _
  | requestFailed click message => exact Function.update_of_ne h _ _
  | _ => rfl

/-- A click gets a number of its own, and no other event gives out numbers. -/
theorem clicks_take (event : Event) :
    (s.take event).clicks = s.clicks + event.isClick.toNat := by
  cases event with
  | changeAnswered click detail =>
      simp only [AppState.take, changeLoaded]
      cases detail.historyOf <;> rfl
  | _ => rfl

/-- An event touches the click that it numbers, or one that waits. -/
theorem lt_of_touches {event : Event} {changesetOf : Nat → Nat} {c : Nat}
    (hnumbered : s.Numbered) (henabled : s.Enabled changesetOf event)
    (h : s.Touches c event) : c < s.clicks + event.isClick.toNat := by
  cases event with
  | click changeFeatureId =>
      obtain rfl : c = s.clicks := h
      exact Nat.lt_succ_self _
  | changeAnswered click detail =>
      obtain rfl : c = click := h
      exact hnumbered c (by simp [henabled.1])
  | historyAnswered click history =>
      obtain rfl : c = click := h
      have hrequest : s.requests c = some (.getHistory history.osmId) := henabled
      exact hnumbered c (by simp [hrequest])
  | requestFailed click message =>
      obtain rfl : c = click := h
      exact hnumbered c henabled
  | _ => cases h

/-- A change that is shown, or will be, comes with its answer. -/
theorem change_take {event : Event} {answer : Answer}
    (h : answer ∈ (s.take event).view.change ∨ answer ∈ (s.take event).latest.change) :
    (answer ∈ s.view.change ∨ answer ∈ s.latest.change) ∨
      event = .changeAnswered answer.click answer.detail := by
  cases event with
  | click changeFeatureId =>
      rw [AppState.take, latest_handleSelectChange] at h
      exact Or.inl h
  | switchInterval changesetId =>
      rw [AppState.take, latest_enqueue] at h
      exact Or.inl h
  | changeAnswered click detail =>
      obtain ⟨loading, hlatest⟩ := exists_latest_changeLoaded s click detail
      have houtside : ¬ (Event.changeAnswered click detail).Own := id
      rw [(frame_take houtside).1, AppState.take, hlatest] at h
      rcases h with h | h
      · exact Or.inl (Or.inl h)
      · obtain rfl := Option.some.inj h
        exact Or.inr rfl
  | historyAnswered click history =>
      rw [AppState.take, latest_historyLoaded] at h
      exact Or.inl h
  | requestFailed click message =>
      rw [AppState.take, latest_selectFailed] at h
      exact Or.inl (h.imp_right (absurd · (Option.not_mem_none answer)))
  | listAnswered list =>
      obtain ⟨selected, hlatest, -⟩ := exists_latest_changesetsLoaded s list
      rw [AppState.take, hlatest] at h
      exact Or.inl h
  | listFailed message =>
      rw [AppState.take, latest_changesetsFailed] at h
      exact Or.inl h
  | effect =>
      rw [AppState.take, latest_clearSelection] at h
      exact Or.inl (h.imp_right (absurd · (Option.not_mem_none answer)))
  | render => exact Or.inl (Or.inr (h.elim id id))

/-- The changesets that are shown, or will be, come with the list. -/
theorem changesets_take {event : Event} {cs : Api.ChangesetPayload}
    (h : cs ∈ (s.take event).view.changesets ∨ cs ∈ (s.take event).latest.changesets) :
    (cs ∈ s.view.changesets ∨ cs ∈ s.latest.changesets) ∨
      ∃ list, event = .listAnswered list ∧ cs ∈ list := by
  cases event with
  | click changeFeatureId =>
      rw [AppState.take, latest_handleSelectChange] at h
      exact Or.inl h
  | switchInterval changesetId =>
      rw [AppState.take, latest_enqueue] at h
      exact Or.inl h
  | changeAnswered click detail =>
      obtain ⟨loading, hlatest⟩ := exists_latest_changeLoaded s click detail
      have houtside : ¬ (Event.changeAnswered click detail).Own := id
      rw [(frame_take houtside).1, AppState.take, hlatest] at h
      exact Or.inl h
  | historyAnswered click history =>
      rw [AppState.take, latest_historyLoaded] at h
      exact Or.inl h
  | requestFailed click message =>
      rw [AppState.take, latest_selectFailed] at h
      exact Or.inl h
  | listAnswered list =>
      obtain ⟨selected, hlatest, -⟩ := exists_latest_changesetsLoaded s list
      rw [AppState.take, hlatest] at h
      rcases h with h | h
      · exact Or.inl (Or.inl h)
      · exact Or.inr ⟨list, rfl, h⟩
  | listFailed message =>
      rw [AppState.take, latest_changesetsFailed] at h
      exact Or.inl h
  | effect =>
      rw [AppState.take, latest_clearSelection] at h
      exact Or.inl h
  | render => exact Or.inl (Or.inr (h.elim id id))

/-- A step keeps the numbering. -/
theorem numbered_step {changesetOf : Nat → Nat} {s' : AppState} {event : Event}
    (h : s.Numbered) (hstep : step changesetOf s event = some s') : s'.Numbered := by
  obtain ⟨henabled, rfl⟩ := step_eq_some_iff.mp hstep
  intro c hc
  rw [clicks_take]
  by_cases htouches : s.Touches c event
  · exact lt_of_touches h henabled htouches
  · rw [requests_take_of_not_touches htouches] at hc
    exact Nat.lt_add_right _ (h c hc)

end Requests

section Runs

variable {changesetOf : Nat → Nat} {s : AppState}

/-- The spinner goes on for a request only. -/
def AppState.Waits (s : AppState) : Prop :=
  s.latest.loadingDetail = true → ∃ click, s.requests click ≠ none

/-- A step does not leave the spinner without a request. -/
theorem waits_step {s' : AppState} {event : Event} (h : s.Waits)
    (hstep : step changesetOf s event = some s') : s'.Waits := by
  obtain ⟨-, rfl⟩ := step_eq_some_iff.mp hstep
  intro hloading
  cases event with
  | click changeFeatureId =>
      refine ⟨s.clicks, ?_⟩
      change Function.update s.requests s.clicks _ s.clicks ≠ none
      rw [Function.update_self]
      exact Option.some_ne_none _
  | changeAnswered click detail =>
      rcases changeLoaded_cases (s := s) click detail with
        ⟨osmId, hafter, -⟩ | ⟨-, -, hdone⟩
      · refine ⟨click, ?_⟩
        rw [AppState.take, hafter, Function.update_self]
        exact Option.some_ne_none _
      · rw [AppState.take, hdone] at hloading
        cases hloading
  | historyAnswered click history =>
      rw [AppState.take, latest_historyLoaded] at hloading
      cases hloading
  | requestFailed click message =>
      rw [AppState.take, latest_selectFailed] at hloading
      cases hloading
  | switchInterval changesetId =>
      rw [AppState.take, latest_enqueue] at hloading
      exact h hloading
  | listAnswered list =>
      obtain ⟨selected, hafter, -⟩ := exists_latest_changesetsLoaded s list
      rw [AppState.take, hafter] at hloading
      exact h hloading
  | listFailed message =>
      rw [AppState.take, latest_changesetsFailed] at hloading
      exact h hloading
  | effect =>
      rw [AppState.take, latest_clearSelection] at hloading
      exact h hloading
  | render => exact h hloading

/-- The ids of the listed changesets. -/
def View.listedIds (view : View) : List Nat :=
  view.changesets.map (fun cs => cs.id)

/-- What is selected is listed, on the screen and with the pending updates, and the
list does not change once it is on the screen. -/
structure Listed (s : AppState) : Prop where
  view : ∀ id ∈ s.view.selectedChangesetId, id ∈ s.view.listedIds
  latest : ∀ id ∈ s.latest.selectedChangesetId, id ∈ s.latest.listedIds
  arrived : s.view.changesets = [] ∨ s.view.changesets = s.latest.changesets

/-- The changeset that `App` starts with is listed. -/
theorem mem_of_longest {list : List Api.ChangesetPayload} {cs : Api.ChangesetPayload}
    (h : longest list = some cs) : cs ∈ list := by
  rcases Option.or_eq_some_iff.mp h with h | ⟨-, h⟩
  · exact List.mem_of_find?_eq_some h
  · exact List.mem_of_mem_head? h

/-- The list selects the changeset that `App` starts with, if it has one. -/
theorem latest_changesetsLoaded (list : List Api.ChangesetPayload) :
    (changesetsLoaded s list).latest =
      { s.latest with
        changesets := list
        selectedChangesetId :=
          ((longest list).map (·.id)).or s.latest.selectedChangesetId } := by
  unfold changesetsLoaded
  cases longest list with
  | some cs => exact latest_enqueue s _
  | none => exact latest_enqueue s _

/-- An event that leaves the list and the selection as they are. -/
theorem Listed.frame {s' : AppState} {next : View} (h : Listed s)
    (hview : s'.view = s.view) (hnext : s'.latest = next)
    (hchangesets : next.changesets = s.latest.changesets)
    (hselected : next.selectedChangesetId = s.latest.selectedChangesetId) :
    Listed s' where
  view := by
    rw [hview]
    exact h.view
  latest := by
    unfold View.listedIds
    rw [hnext, hselected, hchangesets]
    exact h.latest
  arrived := by
    rw [hview, hnext, hchangesets]
    exact h.arrived

/-- A step keeps what is selected in the list. -/
theorem listed_step {s' : AppState} {event : Event}
    (hloading : s.listRequested = true → Loading s) (h : Listed s)
    (hstep : step changesetOf s event = some s') : Listed s' := by
  obtain ⟨henabled, rfl⟩ := step_eq_some_iff.mp hstep
  cases event with
  | click changeFeatureId =>
      exact h.frame rfl (latest_handleSelectChange s changeFeatureId) rfl rfl
  | switchInterval changesetId =>
      have hmem : changesetId ∈ s.view.changesets.map (fun cs => cs.id) := henabled.2
      have hlatest : (s.take (.switchInterval changesetId)).latest =
          { s.latest with selectedChangesetId := some changesetId } :=
        latest_enqueue s _
      refine ⟨h.view, ?_, ?_⟩
      · intro id hid
        rw [hlatest] at hid ⊢
        obtain rfl := Option.some.inj hid
        rcases h.arrived with hnil | heq
        · rw [hnil] at hmem
          cases hmem
        · rw [heq] at hmem
          exact hmem
      · rw [hlatest]
        exact h.arrived
  | changeAnswered click detail =>
      obtain ⟨loading, hlatest⟩ := exists_latest_changeLoaded s click detail
      have houtside : ¬ (Event.changeAnswered click detail).Own := id
      exact h.frame (frame_take houtside).1 hlatest rfl rfl
  | historyAnswered click history =>
      exact h.frame rfl (latest_historyLoaded s click history) rfl rfl
  | requestFailed click message =>
      exact h.frame rfl (latest_selectFailed s click message) rfl rfl
  | listAnswered list =>
      -- Nothing was selected, so that only the list itself can select.
      obtain ⟨hview, hnone⟩ := hloading henabled
      refine ⟨h.view, ?_, Or.inl hview.1⟩
      intro id hid
      rw [AppState.take, latest_changesetsLoaded] at hid ⊢
      rcases Option.or_eq_some_iff.mp hid with hselected | ⟨-, hbefore⟩
      · obtain ⟨cs, hlongest, rfl⟩ := Option.map_eq_some_iff.mp hselected
        exact List.mem_map_of_mem (mem_of_longest hlongest)
      · rw [hnone.2] at hbefore
        cases hbefore
  | listFailed message =>
      exact h.frame rfl (latest_changesetsFailed s message) rfl rfl
  | effect =>
      exact h.frame rfl (latest_clearSelection s) rfl rfl
  | render => exact ⟨h.latest, h.latest, Or.inr rfl⟩

/-- What holds after every run of `App`. -/
structure Runs (s : AppState) : Prop where
  loading : s.listRequested = true → Loading s
  numbered : s.Numbered
  waits : s.Waits
  listed : Listed s

theorem runs_initial : Runs .initial where
  loading _ := ⟨⟨rfl, rfl⟩, ⟨rfl, rfl⟩⟩
  numbered _ h := absurd rfl h
  waits h := nomatch h
  listed := ⟨nofun, nofun, Or.inl rfl⟩

theorem runs_step {s' : AppState} {event : Event} (h : Runs s)
    (hstep : step changesetOf s event = some s') : Runs s' where
  loading := loading_step h.loading hstep
  numbered := numbered_step h.numbered hstep
  waits := waits_step h.waits hstep
  listed := listed_step h.loading h.listed hstep

theorem runs_of_run {events : List Event}
    (hrun : runFrom (step changesetOf) .initial events = some s) : Runs s := by
  have hall : ∀ event ∈ events, (fun _ : Event => True) event := fun _ _ => trivial
  exact invariant_of_runFrom (fun s i s' hs _ => runs_step hs) hall runs_initial hrun

/-- The failure of one request stops the spinner of another. -/
example :
    (runFrom (step fun _ => 20) .initial (startup ++
      [.click 501, .render, .click 502, .render, .requestFailed 0 "Failed to fetch"])).map
        (fun s => (s.latest.loadingDetail, s.requests 1)) =
      some (false, some (.getChange 502)) := by
  decide

end Runs

end Web
end VectorMapChanges
