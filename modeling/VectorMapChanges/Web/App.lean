import VectorMapChanges.Api.Main
import VectorMapChanges.Lib.PartialRun

/-!
# The web client

`App` holds in React state what it shows.  Its handlers, and the effect that clears
the selection, ask for updates, which wait until React renders `App` the next time:
it then applies all of them, oldest first.  The effect is due after the first render
and after each one that changes the selected changeset, and runs before another
render.  Every click on the map has a run of `handleSelectChange` of its own, which
waits for one request after the other; meanwhile anything else may happen.

Main facts:
* `step_eq_some_iff`: when an event can happen, and what it does;
* `loading_step`: nothing is selected before the list of changesets has arrived.
-/

namespace VectorMapChanges
namespace Web

open Lib

section Responses

/-- What `App` reads of a `ChangeDetail`. -/
structure ChangeDetail where
  id : Nat
  changesetId : Nat
  osmIdsA : List String
  osmIdsB : List String
deriving DecidableEq

/-- `detail.osm_ids_b[0] ?? detail.osm_ids_a[0]` -/
def ChangeDetail.subject (detail : ChangeDetail) : Option String :=
  detail.osmIdsB.head?.or detail.osmIdsA.head?

/-- The change has a single building at most on each side. -/
def ChangeDetail.Single (detail : ChangeDetail) : Prop :=
  detail.osmIdsA.length ≤ 1 ∧ detail.osmIdsB.length ≤ 1

instance (detail : ChangeDetail) : Decidable detail.Single :=
  inferInstanceAs (Decidable (_ ∧ _))

/-- The building whose history `handleSelectChange` asks for. -/
def ChangeDetail.historyOf (detail : ChangeDetail) : Option String :=
  match detail.subject with
  | some osmId => if osmId ≠ "" ∧ detail.Single then some osmId else none
  | none => none

/-- What `App` reads of a `FeatureHistory`. -/
structure FeatureHistory where
  osmId : String
deriving DecidableEq

/-- The history of the only building of a change. -/
def FeatureHistory.BelongsTo (history : FeatureHistory) (detail : ChangeDetail) :
    Prop :=
  detail.Single ∧ detail.subject = some history.osmId

instance (history : FeatureHistory) (detail : ChangeDetail) :
    Decidable (history.BelongsTo detail) :=
  inferInstanceAs (Decidable (_ ∧ _))

/-- A change, with the number of the click whose request it answers. -/
structure Answer where
  click : Nat
  detail : ChangeDetail
deriving DecidableEq

end Responses

section View

/-- The state of `App` as it was last rendered. -/
structure View where
  changesets : List Api.ChangesetPayload
  selectedChangesetId : Option Nat
  change : Option Answer
  history : Option FeatureHistory
  loadingDetail : Bool
  error : Option String
deriving DecidableEq

/-- A call of one of the `useState` setters. -/
inductive Update where
  | setChangesets (list : List Api.ChangesetPayload)
  | setSelectedChangesetId (id : Option Nat)
  | setChange (change : Option Answer)
  | setHistory (history : Option FeatureHistory)
  | setLoadingDetail (loading : Bool)
  | setError (error : Option String)
deriving DecidableEq

/-- What a setter does to the state. -/
def View.apply (view : View) : Update → View
  | .setChangesets list => { view with changesets := list }
  | .setSelectedChangesetId id => { view with selectedChangesetId := id }
  | .setChange change => { view with change := change }
  | .setHistory history => { view with history := history }
  | .setLoadingDetail loading => { view with loadingDetail := loading }
  | .setError error => { view with error := error }

/-- The request that a run of `handleSelectChange` waits for. -/
inductive Request where
  | getChange (id : Nat)
  | getHistory (osmId : String)
deriving DecidableEq

/-- `App`, between two events: what it shows, the updates that wait for a render,
whether the effect is due, and the requests in flight.  The clicks are numbered, and
`replaced` records that the answer of a click on the screen gave way to that of an
earlier click. -/
structure AppState where
  view : View
  pending : List Update
  clearDue : Bool
  listRequested : Bool
  requests : Nat → Option Request
  clicks : Nat
  replaced : Bool

/-- The view that the pending updates lead to. -/
def AppState.latest (s : AppState) : View :=
  s.pending.foldl View.apply s.view

/-- After the first render. -/
def AppState.initial : AppState where
  view := ⟨[], none, none, none, false, none⟩
  pending := []
  clearDue := true
  listRequested := true
  requests := fun _ => none
  clicks := 0
  replaced := false

/-- Ask for updates. -/
def AppState.enqueue (s : AppState) (updates : List Update) : AppState :=
  { s with pending := s.pending ++ updates }

/-- The request that the handler of a click waits for from now on. -/
def AppState.await (s : AppState) (click : Nat) (request : Option Request) :
    AppState :=
  { s with requests := Function.update s.requests click request }

/-- Asked for updates come after those that were pending. -/
@[simp]
theorem latest_enqueue (s : AppState) (updates : List Update) :
    (s.enqueue updates).latest = updates.foldl View.apply s.latest :=
  List.foldl_append

@[simp]
theorem latest_await (s : AppState) (click : Nat) (request : Option Request) :
    (s.await click request).latest = s.latest :=
  rfl

end View

section Handlers

variable (s : AppState)

/-- `handleSelectChange`, up to its first request. -/
def handleSelectChange (changeFeatureId : Nat) : AppState :=
  let asked := s.enqueue [.setLoadingDetail true, .setError none, .setHistory none]
  { asked.await s.clicks (some (.getChange changeFeatureId)) with
    clicks := s.clicks + 1 }

/-- `handleSelectChange`, from the answer of `getChange` on: without a single
building it ends here. -/
def changeLoaded (click : Nat) (detail : ChangeDetail) : AppState :=
  let loaded := s.enqueue [.setChange (some ⟨click, detail⟩)]
  match detail.historyOf with
  | some osmId => loaded.await click (some (.getHistory osmId))
  | none => (loaded.enqueue [.setLoadingDetail false]).await click none

/-- `handleSelectChange`, from the answer of `getHistory` on. -/
def historyLoaded (click : Nat) (history : FeatureHistory) : AppState :=
  (s.enqueue [.setHistory (some history), .setLoadingDetail false]).await click none

/-- `handleSelectChange`, from the failure of a request on. -/
def selectFailed (click : Nat) (message : String) : AppState :=
  (s.enqueue [.setError (some message), .setChange none,
    .setLoadingDetail false]).await click none

/-- The changeset that `App` starts with. -/
def longest (list : List Api.ChangesetPayload) : Option Api.ChangesetPayload :=
  (list.find? (fun cs => cs.spanLabel = "5 years")).or list.head?

/-- The answer of `listChangesets`. -/
def changesetsLoaded (list : List Api.ChangesetPayload) : AppState :=
  let select := match longest list with
    | some cs => [Update.setSelectedChangesetId (some cs.id)]
    | none => []
  { s.enqueue (.setChangesets list :: select) with listRequested := false }

/-- The failure of `listChangesets`. -/
def changesetsFailed (message : String) : AppState :=
  { s.enqueue [.setError (some message)] with listRequested := false }

/-- The effect on `selectedChangesetId`. -/
def clearSelection : AppState :=
  { s.enqueue [.setChange none, .setHistory none] with clearDue := false }

/-- The shown answer of a click gives way to that of an earlier one. -/
def GivesWay : Option Answer → Option Answer → Prop
  | some shown, some next => next.click < shown.click
  | _, _ => False

instance : (shown next : Option Answer) → Decidable (GivesWay shown next)
  | some shown, some next => inferInstanceAs (Decidable (next.click < shown.click))
  | some _, none => inferInstanceAs (Decidable False)
  | none, _ => inferInstanceAs (Decidable False)

/-- React renders `App` with all pending updates. -/
def renderApp : AppState :=
  { s with
    view := s.latest
    pending := []
    clearDue := s.latest.selectedChangesetId ≠ s.view.selectedChangesetId
    replaced := s.replaced || decide (GivesWay s.view.change s.latest.change) }

end Handlers

section Events

/-- What can happen to `App`; requests are named by the click that they serve. -/
inductive Event where
  | click (changeFeatureId : Nat)
  | switchInterval (changesetId : Nat)
  | changeAnswered (click : Nat) (detail : ChangeDetail)
  | historyAnswered (click : Nat) (history : FeatureHistory)
  | requestFailed (click : Nat) (message : String)
  | listAnswered (list : List Api.ChangesetPayload)
  | listFailed (message : String)
  | effect
  | render

/-- React runs the effect and renders by itself. -/
def Event.Own : Event → Prop
  | effect | render => True
  | _ => False

variable (changesetOf : Nat → Nat)

/-- When an event can happen.  React renders what a click of the user asks for before
the next one; a click on the map is on a feature of the selected changeset; and a
request is answered with what it asks for. -/
def AppState.Enabled (s : AppState) : Event → Prop
  | .click changeFeatureId =>
      s.latest.selectedChangesetId = s.view.selectedChangesetId ∧
        s.view.selectedChangesetId = some (changesetOf changeFeatureId)
  | .switchInterval changesetId =>
      s.latest.selectedChangesetId = s.view.selectedChangesetId ∧
        changesetId ∈ s.view.changesets.map (fun cs => cs.id)
  | .changeAnswered click detail =>
      s.requests click = some (.getChange detail.id) ∧
        detail.changesetId = changesetOf detail.id
  | .historyAnswered click history =>
      s.requests click = some (.getHistory history.osmId)
  | .requestFailed click _ => s.requests click ≠ none
  | .listAnswered _ => s.listRequested = true
  | .listFailed _ => s.listRequested = true
  | .effect => s.clearDue = true
  | .render => s.clearDue = false

instance (s : AppState) : DecidablePred (s.Enabled changesetOf)
  | .click _ => inferInstanceAs (Decidable (_ ∧ _))
  | .switchInterval _ => inferInstanceAs (Decidable (_ ∧ _))
  | .changeAnswered _ _ => inferInstanceAs (Decidable (_ ∧ _))
  | .historyAnswered _ _ => inferInstanceAs (Decidable (_ = _))
  | .requestFailed _ _ => inferInstanceAs (Decidable (_ ≠ _))
  | .listAnswered _ => inferInstanceAs (Decidable (_ = _))
  | .listFailed _ => inferInstanceAs (Decidable (_ = _))
  | .effect => inferInstanceAs (Decidable (_ = _))
  | .render => inferInstanceAs (Decidable (_ = _))

/-- What an event does. -/
def AppState.take (s : AppState) : Event → AppState
  | .click changeFeatureId => handleSelectChange s changeFeatureId
  | .switchInterval changesetId =>
      s.enqueue [.setSelectedChangesetId (some changesetId)]
  | .changeAnswered click detail => changeLoaded s click detail
  | .historyAnswered click history => historyLoaded s click history
  | .requestFailed click message => selectFailed s click message
  | .listAnswered list => changesetsLoaded s list
  | .listFailed message => changesetsFailed s message
  | .effect => clearSelection s
  | .render => renderApp s

/-- An event happens to `App`. -/
def step (s : AppState) (event : Event) : Option AppState :=
  if s.Enabled changesetOf event then some (s.take event) else none

variable {changesetOf}

theorem step_eq_some_iff {s s' : AppState} {event : Event} :
    step changesetOf s event = some s' ↔
      s.Enabled changesetOf event ∧ s.take event = s' := by
  unfold step
  rw [Option.ite_none_right_eq_some, Option.some.injEq]

/-- React can render by itself unless the effect is due. -/
theorem runFrom_render {s : AppState} (h : s.clearDue = false) :
    runFrom (step changesetOf) s [.render] = some (renderApp s) :=
  (runFrom_singleton s _).trans (step_eq_some_iff.mpr ⟨h, rfl⟩)

end Events

section Effects

variable (s : AppState)

theorem latest_handleSelectChange (changeFeatureId : Nat) :
    (handleSelectChange s changeFeatureId).latest =
      { s.latest with loadingDetail := true, error := none, history := none } :=
  latest_enqueue s _

/-- The answer is the change from now on. -/
theorem exists_latest_changeLoaded (click : Nat) (detail : ChangeDetail) :
    ∃ loading, (changeLoaded s click detail).latest =
      { s.latest with change := some ⟨click, detail⟩, loadingDetail := loading } := by
  unfold changeLoaded
  cases detail.historyOf with
  | some osmId =>
      refine ⟨s.latest.loadingDetail, ?_⟩
      simp [View.apply]
  | none =>
      refine ⟨false, ?_⟩
      simp [View.apply]

theorem latest_historyLoaded (click : Nat) (history : FeatureHistory) :
    (historyLoaded s click history).latest =
      { s.latest with history := some history, loadingDetail := false } :=
  latest_enqueue s _

theorem latest_selectFailed (click : Nat) (message : String) :
    (selectFailed s click message).latest =
      { s.latest with error := some message, change := none, loadingDetail := false } :=
  latest_enqueue s _

/-- The list either selects its changeset or is empty. -/
theorem exists_latest_changesetsLoaded (list : List Api.ChangesetPayload) :
    ∃ selected, (changesetsLoaded s list).latest =
        { s.latest with changesets := list, selectedChangesetId := selected } ∧
      (selected = s.latest.selectedChangesetId ∨ ∃ id, selected = some id) := by
  have hlatest : (changesetsLoaded s list).latest =
      (Update.setChangesets list :: (match longest list with
        | some cs => [Update.setSelectedChangesetId (some cs.id)]
        | none => [])).foldl View.apply s.latest :=
    latest_enqueue s _
  rw [hlatest]
  cases longest list with
  | some cs => exact ⟨some cs.id, rfl, Or.inr ⟨cs.id, rfl⟩⟩
  | none => exact ⟨s.latest.selectedChangesetId, rfl, Or.inl rfl⟩

theorem latest_changesetsFailed (message : String) :
    (changesetsFailed s message).latest = { s.latest with error := some message } :=
  latest_enqueue s _

theorem latest_clearSelection :
    (clearSelection s).latest = { s.latest with change := none, history := none } :=
  latest_enqueue s _

variable {s}

/-- What is on the screen changes with a render only, and the effect comes due with
one. -/
theorem frame_take {event : Event} (h : ¬ event.Own) :
    (s.take event).view = s.view ∧ (s.take event).clearDue = s.clearDue ∧
      (s.take event).replaced = s.replaced := by
  cases event with
  | changeAnswered click detail =>
      simp only [AppState.take, changeLoaded]
      cases detail.historyOf with
      | some osmId => exact ⟨rfl, rfl, rfl⟩
      | none => exact ⟨rfl, rfl, rfl⟩
  | effect => exact absurd trivial h
  | render => exact absurd trivial h
  | _ => exact ⟨rfl, rfl, rfl⟩

/-- Nothing is selected while the list of changesets is on its way. -/
structure Loading (s : AppState) : Prop where
  view : s.view.changesets = [] ∧ s.view.selectedChangesetId = none
  latest : s.latest.changesets = [] ∧ s.latest.selectedChangesetId = none

/-- The list is on its way until it arrives or fails. -/
theorem listRequested_take {event : Event}
    (h : (s.take event).listRequested = true) :
    s.listRequested = true := by
  cases event with
  | changeAnswered click detail =>
      simp only [AppState.take, changeLoaded] at h
      cases hof : detail.historyOf with
      | some osmId =>
          rw [hof] at h
          exact h
      | none =>
          rw [hof] at h
          exact h
  | listAnswered list => cases h
  | listFailed message => cases h
  | _ => exact h

theorem loading_step {changesetOf : Nat → Nat} {s' : AppState} {event : Event}
    (h : s.listRequested = true → Loading s)
    (hstep : step changesetOf s event = some s') :
    s'.listRequested = true → Loading s' := by
  obtain ⟨henabled, rfl⟩ := step_eq_some_iff.mp hstep
  intro hlist
  obtain ⟨hview, hlatest⟩ := h (listRequested_take hlist)
  cases event with
  | click changeFeatureId =>
      refine ⟨hview, ?_⟩
      rw [AppState.take, latest_handleSelectChange]
      exact hlatest
  | switchInterval changesetId =>
      have hmem := henabled.2
      rw [hview.1] at hmem
      cases hmem
  | changeAnswered click detail =>
      obtain ⟨loading, hafter⟩ := exists_latest_changeLoaded s click detail
      have houtside : ¬ (Event.changeAnswered click detail).Own := id
      refine ⟨?_, ?_⟩
      · rw [(frame_take houtside).1]
        exact hview
      · rw [AppState.take, hafter]
        exact hlatest
  | historyAnswered click history =>
      refine ⟨hview, ?_⟩
      rw [AppState.take, latest_historyLoaded]
      exact hlatest
  | requestFailed click message =>
      refine ⟨hview, ?_⟩
      rw [AppState.take, latest_selectFailed]
      exact hlatest
  | listAnswered list => cases hlist
  | listFailed message => cases hlist
  | effect =>
      refine ⟨hview, ?_⟩
      rw [AppState.take, latest_clearSelection]
      exact hlatest
  | render => exact ⟨hlatest, hlatest⟩

end Effects

end Web
end VectorMapChanges
