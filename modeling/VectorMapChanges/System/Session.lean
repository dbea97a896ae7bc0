import VectorMapChanges.Api.Lookups
import VectorMapChanges.Web.Requests

/-!
# A browser beside the system

One browser shows the map while the tasks of the DAGs go on.  It has drawn change
tiles of earlier states of the database, and an answer on its way to it was given
before it arrives.  `Web.App` is about the client alone: it takes for granted that a
change id stands for one changeset and that a request is answered with what it asks
for.  The API keeps both, whatever tasks run in between.

Main facts:
* `sessionStep_of_step`: what one event of a session does;
* `Stored.unique`: over a whole session a change id stands for one row;
* `session_refines_app`: every session is a run of the client;
* `session_shows_stored`: the change on the screen is what the API answered, and what
  every tile with it said;
* `session_intervals_current`: the intervals on the screen are what the API answers
  now.
-/

namespace VectorMapChanges

open Lib Api

section Client

variable {J : Type}

namespace Web

/-- `getJson`: the answer, or the message that it throws. -/
def getJson {α : Type} : Except HttpError α → Except String α
  | .ok answer => .ok answer
  | .error e => .error (toString e.status ++ ": " ++ e.detail)

/-- What `App` reads of a change. -/
def ChangeDetail.ofJson (detail : ChangeFeatureDetail J) : ChangeDetail where
  id := detail.id
  changesetId := detail.changesetId
  osmIdsA := detail.osmIdsA
  osmIdsB := detail.osmIdsB

/-- What `App` reads of a history. -/
def FeatureHistory.ofJson (history : Api.FeatureHistory J) : FeatureHistory where
  osmId := history.osmId

end Web

/-- An answer of the API on its way. -/
inductive Reply (J : Type) where
  | change (answer : Except HttpError (ChangeFeatureDetail J))
  | history (answer : Except HttpError (Api.FeatureHistory J))

/-- What the arrival of an answer is to the client. -/
def Reply.event (click : Nat) : Reply J → Web.Event
  | .change answer =>
      match Web.getJson answer with
      | .ok detail => .changeAnswered click (.ofJson detail)
      | .error message => .requestFailed click message
  | .history answer =>
      match Web.getJson answer with
      | .ok found => .historyAnswered click (.ofJson found)
      | .error message => .requestFailed click message

/-- An answer only touches its own click. -/
theorem touches_reply {app : Web.AppState} {click c : Nat} {answer : Reply J}
    (h : app.Touches c (answer.event click)) : c = click := by
  cases answer with
  | change answer =>
      cases answer with
      | ok detail => exact h
      | error e => exact h
  | history answer =>
      cases answer with
      | ok found => exact h
      | error e => exact h

/-- An answer leaves the list of changesets alone. -/
theorem listRequested_reply (app : Web.AppState) (click : Nat) (answer : Reply J) :
    (app.take (answer.event click)).listRequested = app.listRequested := by
  match answer with
  | .change (.ok detail) =>
      change (Web.changeLoaded app click (.ofJson detail)).listRequested = _
      unfold Web.changeLoaded
      cases (Web.ChangeDetail.ofJson detail).historyOf <;> rfl
  | .history (.ok found) => rfl
  | .change (.error e) => rfl
  | .history (.error e) => rfl

end Client

section Session

/-- The services of the system, and the area and the version that they serve. -/
structure Deployment (G J E M : Type) where
  shapely : Shapely G J
  postgis : PostGis G
  aoi : Aoi J
  bucket : Bucket
  history : HistoryGis G J
  tiles : TileGis G E M
  sourceQueryVersion : String

/-- The system and a browser: the features drawn so far with their changesets, the
answers on their way, and the client. -/
structure Session (G J M : Type) where
  world : World G J
  drawn : List (Nat × TileFeature M)
  replies : Nat → Option (Reply J)
  list : Option (List ChangesetPayload)
  app : Web.AppState

/-- What can happen in a session.  A request of a click is served, and its answer
arrives or is lost. -/
inductive SessionEvent (J : Type) {G : Type} (hit : G → G → Bool) where
  | task (run : TaskRun J hit)
  | fetchTile (changesetId : Nat) (tile : Tile) (classifications : Option String)
  | click (n : Nat)
  | switchInterval (changesetId : Nat)
  | serve (click : Nat)
  | arrive (click : Nat)
  | lose (click : Nat) (message : String)
  | serveList
  | arriveList
  | loseList (message : String)
  | effect
  | render

variable {G J E M : Type}

/-- The client takes an event. -/
def Session.act (s : Session G J M) (event : Web.Event) : Session G J M :=
  { s with app := s.app.take event }

/-- The browser is opened beside an empty database. -/
def Session.initial (objects : Objects J) : Session G J M where
  world := ⟨objects, .empty⟩
  drawn := []
  replies := fun _ => none
  list := none
  app := .initial

variable (d : Deployment G J E M) {hit : G → G → Bool}

/-- The answer of the API to a request of the client. -/
def Deployment.reply (db : Database G) : Web.Request → Reply J
  | .getChange id => .change (getChangeFeature d.history db id)
  | .getHistory osmId =>
      .history (getFeatureHistory d.history db osmId d.sourceQueryVersion)

/-- An event of a session.  The user can click on what has been drawn of the selected
changeset, and on the listed intervals. -/
def Deployment.step (s : Session G J M) :
    SessionEvent J hit → Option (Session G J M)
  | .task run => some { s with world := s.world.after d.shapely d.postgis d.aoi d.bucket run }
  | .fetchTile changesetId tile classifications =>
      match changeTile d.tiles s.world.database.changeFeatures
          ⟨changesetId, tile.z, tile.x, tile.y, classifications⟩ with
      | .ok response => some { s with
          drawn := s.drawn ++ response.content.map (fun feature =>
            (changesetId, feature)) }
      | .error _ => some s
  | .click n =>
      match s.drawn[n]? with
      | some (changesetId, feature) =>
          if s.app.latest.selectedChangesetId = s.app.view.selectedChangesetId ∧
              s.app.view.selectedChangesetId = some changesetId then
            some (s.act (.click feature.changeFeatureId))
          else none
      | none => none
  | .switchInterval changesetId =>
      if s.app.latest.selectedChangesetId = s.app.view.selectedChangesetId ∧
          changesetId ∈ s.app.view.changesets.map (fun cs => cs.id) then
        some (s.act (.switchInterval changesetId))
      else none
  | .serve click =>
      match s.app.requests click, s.replies click with
      | some request, none => some { s with
          replies := Function.update s.replies click
            (some (d.reply s.world.database request)) }
      | _, _ => none
  | .arrive click =>
      match s.replies click with
      | some answer => some { s.act (answer.event click) with
          replies := Function.update s.replies click none }
      | none => none
  | .lose click message =>
      if s.app.requests click ≠ none then
        some { s.act (.requestFailed click message) with
          replies := Function.update s.replies click none }
      else none
  | .serveList =>
      if s.app.listRequested = true ∧ s.list = none then
        some { s with list := some (listChangesets s.world.database) }
      else none
  | .arriveList =>
      match s.list with
      | some list => some { s.act (.listAnswered list) with list := none }
      | none => none
  | .loseList message =>
      if s.app.listRequested = true then
        some { s.act (.listFailed message) with list := none }
      else none
  | .effect => if s.app.clearDue = true then some (s.act .effect) else none
  | .render => if s.app.clearDue = false then some (s.act .render) else none

/-- A feature of a tile is what the tile shows of a row. -/
structure DrawnFrom (row : Nat × ChangeFeatureRow G)
    (drawn : Nat × TileFeature M) : Prop where
  id : row.1 = drawn.2.changeFeatureId
  changesetId : row.2.changesetId = drawn.1
  classification : row.2.classification = drawn.2.classification
  reason : row.2.classificationReason = drawn.2.classificationReason
  iou : row.2.iou = drawn.2.iou
  centroidShift : row.2.centroidShiftM = drawn.2.centroidShiftM

/-- What one event does. -/
inductive SessionStep (s : Session G J M) : Session G J M → Prop
  | task (world : World G J)
      (h : DatabaseStep s.world.database world.database) :
      SessionStep s { s with world := world }
  | tile (features : List (Nat × TileFeature M))
      (h : ∀ drawn ∈ features, ∃ row ∈ s.world.database.changeFeatures.rows,
        DrawnFrom row drawn) :
      SessionStep s { s with drawn := s.drawn ++ features }
  | click (drawn : Nat × TileFeature M) (hdrawn : drawn ∈ s.drawn)
      (hcurrent : s.app.latest.selectedChangesetId = s.app.view.selectedChangesetId)
      (hselected : s.app.view.selectedChangesetId = some drawn.1) :
      SessionStep s (s.act (.click drawn.2.changeFeatureId))
  | serve (click : Nat) (request : Web.Request)
      (hrequest : s.app.requests click = some request) :
      SessionStep s { s with
        replies := Function.update s.replies click
          (some (d.reply s.world.database request)) }
  | arrive (click : Nat) (answer : Reply J) (h : s.replies click = some answer) :
      SessionStep s { s.act (answer.event click) with
        replies := Function.update s.replies click none }
  | lose (click : Nat) (message : String) (h : s.app.requests click ≠ none) :
      SessionStep s { s.act (.requestFailed click message) with
        replies := Function.update s.replies click none }
  | serveList (h : s.app.listRequested = true) :
      SessionStep s { s with list := some (listChangesets s.world.database) }
  | arriveList (list : List ChangesetPayload) (h : s.list = some list) :
      SessionStep s { s.act (.listAnswered list) with list := none }
  | loseList (message : String) (h : s.app.listRequested = true) :
      SessionStep s { s.act (.listFailed message) with list := none }
  | own (event : Web.Event)
      (hevent : (∃ changesetId, event = .switchInterval changesetId) ∨ event.Own)
      (h : ∀ changesetOf, s.app.Enabled changesetOf event) :
      SessionStep s (s.act event)

variable {d}

/-- What one event does. -/
theorem sessionStep_of_step {s s' : Session G J M} {event : SessionEvent J hit}
    (h : d.step s event = some s') : SessionStep d s s' := by
  cases event with
  | task run =>
      obtain rfl := Option.some.inj h
      exact .task _ (databaseStep_after _ _ _ _ s.world run)
  | fetchTile changesetId tile classifications =>
      simp only [Deployment.step] at h
      split at h
      · rename_i response htile
        obtain rfl := Option.some.inj h
        refine .tile _ ?_
        intro drawn hdrawn
        obtain ⟨feature, hfeature, rfl⟩ := List.mem_map.mp hdrawn
        obtain ⟨row, hrow, hid, hchangeset, hclass, hreason, hiou, hshift⟩ :=
          exists_row_of_mem_changeTile htile hfeature
        exact ⟨row, hrow, ⟨hid, Int.natCast_inj.mp hchangeset, hclass, hreason, hiou,
          hshift⟩⟩
      · obtain rfl := Option.some.inj h
        have hnone := SessionStep.tile (d := d) (s := s) [] nofun
        rwa [List.append_nil] at hnone
  | click n =>
      simp only [Deployment.step] at h
      split at h
      · rename_i changesetId feature hdrawn
        obtain ⟨⟨hcurrent, hselected⟩, h⟩ := Option.ite_none_right_eq_some.mp h
        obtain rfl := Option.some.inj h
        exact .click (changesetId, feature) (List.mem_of_getElem? hdrawn) hcurrent
          hselected
      · cases h
  | switchInterval changesetId =>
      obtain ⟨henabled, h⟩ := Option.ite_none_right_eq_some.mp h
      obtain rfl := Option.some.inj h
      exact .own _ (Or.inl ⟨changesetId, rfl⟩) (fun _ => henabled)
  | serve click =>
      simp only [Deployment.step] at h
      split at h
      · rename_i request hrequest _
        obtain rfl := Option.some.inj h
        exact .serve click request hrequest
      · cases h
  | arrive click =>
      simp only [Deployment.step] at h
      split at h
      · rename_i answer hanswer
        obtain rfl := Option.some.inj h
        exact .arrive click answer hanswer
      · cases h
  | lose click message =>
      obtain ⟨hrequest, h⟩ := Option.ite_none_right_eq_some.mp h
      obtain rfl := Option.some.inj h
      exact .lose click message hrequest
  | serveList =>
      obtain ⟨hrequested, h⟩ := Option.ite_none_right_eq_some.mp h
      obtain rfl := Option.some.inj h
      exact .serveList hrequested.1
  | arriveList =>
      simp only [Deployment.step] at h
      split at h
      · rename_i list hlist
        obtain rfl := Option.some.inj h
        exact .arriveList list hlist
      · cases h
  | loseList message =>
      obtain ⟨hrequested, h⟩ := Option.ite_none_right_eq_some.mp h
      obtain rfl := Option.some.inj h
      exact .loseList message hrequested
  | effect =>
      obtain ⟨hdue, h⟩ := Option.ite_none_right_eq_some.mp h
      obtain rfl := Option.some.inj h
      exact .own _ (Or.inr trivial) (fun _ => hdue)
  | render =>
      obtain ⟨hdue, h⟩ := Option.ite_none_right_eq_some.mp h
      obtain rfl := Option.some.inj h
      exact .own _ (Or.inr trivial) (fun _ => hdue)

end Session

section Runs

variable {G J E M : Type} (d : Deployment G J E M) {hit : G → G → Bool}
  (objects : Objects J)

/-- A session leads to a state. -/
def Deployment.LeadsTo (events : List (SessionEvent J hit)) (s : Session G J M) :
    Prop :=
  runFrom d.step (.initial objects) events = some s

/-- The change table held the row at some time of the session. -/
def Deployment.Stored (events : List (SessionEvent J hit))
    (row : Nat × ChangeFeatureRow G) : Prop :=
  ∃ before, before <+: events ∧ ∃ t, d.LeadsTo objects before t ∧
    row ∈ t.world.database.changeFeatures.rows

/-- The API answered with the change at some time of the session. -/
def Deployment.Answered (events : List (SessionEvent J hit))
    (detail : ChangeFeatureDetail J) : Prop :=
  ∃ before, before <+: events ∧ ∃ t, d.LeadsTo objects before t ∧
    getChangeFeature d.history t.world.database detail.id = .ok detail

/-- The changeset of each change that was ever stored. -/
def Deployment.AssignsChangesets (events : List (SessionEvent J hit))
    (changesetOf : Nat → Nat) : Prop :=
  ∀ row, d.Stored objects events row → changesetOf row.1 = row.2.changesetId

/-- An answer on its way answers the request that waits for it. -/
def Deployment.Fits (events : List (SessionEvent J hit))
    (request : Option Web.Request) : Reply J → Prop
  | .change (.ok detail) =>
      d.Answered objects events detail ∧ request = some (.getChange detail.id)
  | .history (.ok found) => request = some (.getHistory found.osmId)
  | .change (.error _) | .history (.error _) => request ≠ none

/-- What has reached the browser, or is on its way to it, comes from states that the
session went through. -/
structure Deployment.Faithful (events : List (SessionEvent J hit))
    (s : Session G J M) : Prop where
  drawn : ∀ drawn ∈ s.drawn, ∃ row, d.Stored objects events row ∧ DrawnFrom row drawn
  replies : ∀ click answer, s.replies click = some answer →
    d.Fits objects events (s.app.requests click) answer
  list : s.list ≠ none → s.app.listRequested = true
  shown : ∀ answer, answer ∈ s.app.view.change ∨ answer ∈ s.app.latest.change →
    ∃ detail, d.Answered objects events detail ∧ answer.detail = .ofJson detail

variable {d objects} {events more : List (SessionEvent J hit)} {s s' : Session G J M}

theorem SessionStep.database (h : SessionStep d s s') :
    DatabaseStep s.world.database s'.world.database := by
  cases h with
  | task world h => exact h
  | _ => exact .none

/-- The database of a session goes on from state to state. -/
theorem grows_of_leadsTo (hfirst : d.LeadsTo objects events s)
    (hle : events <+: more) (h : d.LeadsTo objects more s') :
    Grows s.world.database s'.world.database := by
  obtain ⟨rest, rfl⟩ := hle
  obtain ⟨between, hbetween, hrest⟩ := runFrom_append.mp h
  obtain rfl : s = between := Option.some.inj (hfirst.symm.trans hbetween)
  have hall : ∀ event ∈ rest, (fun _ : SessionEvent J hit => True) event :=
    fun _ _ => trivial
  refine invariant_of_runFrom (P := fun t : Session G J M =>
    Grows s.world.database t.world.database) ?_ hall (.refl _) hrest
  intro t event t' hgrows _ hstep
  exact hgrows.trans (sessionStep_of_step hstep).database.grows

theorem referential_of_leadsTo (h : d.LeadsTo objects events s) :
    Referential s.world.database := by
  have hall : ∀ event ∈ events, (fun _ : SessionEvent J hit => True) event :=
    fun _ _ => trivial
  refine invariant_of_runFrom (P := fun t : Session G J M =>
    Referential t.world.database) ?_ hall referential_empty h
  intro t event t' href _ hstep
  exact (sessionStep_of_step hstep).database.referential href

theorem stored_of_leadsTo {row : Nat × ChangeFeatureRow G}
    (h : d.LeadsTo objects events s)
    (hrow : row ∈ s.world.database.changeFeatures.rows) :
    d.Stored objects events row :=
  ⟨events, List.prefix_rfl, s, h, hrow⟩

theorem Deployment.Stored.mono {row : Nat × ChangeFeatureRow G}
    (hle : events <+: more) (h : d.Stored objects events row) :
    d.Stored objects more row := by
  obtain ⟨before, hbefore, t, ht, hrow⟩ := h
  exact ⟨before, hbefore.trans hle, t, ht, hrow⟩

theorem Deployment.Answered.mono {detail : ChangeFeatureDetail J}
    (hle : events <+: more) (h : d.Answered objects events detail) :
    d.Answered objects more detail := by
  obtain ⟨before, hbefore, t, ht, hdetail⟩ := h
  exact ⟨before, hbefore.trans hle, t, ht, hdetail⟩

theorem Deployment.Fits.mono {request : Option Web.Request} {answer : Reply J}
    (hle : events <+: more) (h : d.Fits objects events request answer) :
    d.Fits objects more request answer := by
  match answer with
  | .change (.ok detail) => exact ⟨h.1.mono hle, h.2⟩
  | .history (.ok found) => exact h
  | .change (.error e) => exact h
  | .history (.error e) => exact h

theorem Deployment.Fits.ne_none {request : Option Web.Request} {answer : Reply J}
    (h : d.Fits objects events request answer) : request ≠ none := by
  match answer with
  | .change (.ok detail) => exact Option.ne_none_iff_exists'.mpr ⟨_, h.2⟩
  | .history (.ok found) => exact Option.ne_none_iff_exists'.mpr ⟨_, h⟩
  | .change (.error e) => exact h
  | .history (.error e) => exact h

theorem Deployment.Faithful.mono (hle : events <+: more)
    (h : d.Faithful objects events s) : d.Faithful objects more s where
  drawn drawn hdrawn := by
    obtain ⟨row, hrow, hfrom⟩ := h.drawn drawn hdrawn
    exact ⟨row, hrow.mono hle, hfrom⟩
  replies click answer hanswer := (h.replies click answer hanswer).mono hle
  list := h.list
  shown answer hanswer := by
    obtain ⟨detail, hdetail, heq⟩ := h.shown answer hanswer
    exact ⟨detail, hdetail.mono hle, heq⟩

theorem Deployment.AssignsChangesets.of_prefix {changesetOf : Nat → Nat}
    (hle : events <+: more) (h : d.AssignsChangesets objects more changesetOf) :
    d.AssignsChangesets objects events changesetOf :=
  fun row hrow => h row (hrow.mono hle)

/-- Over a whole session a change id stands for one row. -/
theorem Deployment.Stored.unique {row row' : Nat × ChangeFeatureRow G}
    (h : d.Stored objects events row) (h' : d.Stored objects events row')
    (hid : row.1 = row'.1) : row = row' := by
  obtain ⟨before, hbefore, t, ht, hrow⟩ := h
  obtain ⟨before', hbefore', t', ht', hrow'⟩ := h'
  rcases List.prefix_or_prefix_of_prefix hbefore hbefore' with hle | hle
  · exact (grows_of_leadsTo ht hle ht').changeIds.eq_of_id_eq hrow hrow' hid
  · exact ((grows_of_leadsTo ht' hle ht).changeIds.eq_of_id_eq hrow' hrow
      hid.symm).symm

/-- What the API answers with is stored. -/
theorem exists_stored_of_answered {detail : ChangeFeatureDetail J}
    (h : d.Answered objects events detail) :
    ∃ row sa sb, d.Stored objects events row ∧
      detail = changeFeatureDetail d.history row sa sb := by
  obtain ⟨before, hbefore, t, ht, hdetail⟩ := h
  obtain ⟨row, c, sa, sb, hjoins, -, heq⟩ :=
    (getChangeFeature_eq_ok_iff (referential_of_leadsTo ht)).mp hdetail
  exact ⟨row, sa, sb, ⟨before, hbefore, t, ht, hjoins.change⟩, heq⟩

variable (d objects) in
theorem exists_assignsChangesets (events : List (SessionEvent J hit)) :
    ∃ changesetOf, d.AssignsChangesets objects events changesetOf := by
  classical
  refine ⟨fun id => if h : ∃ row, d.Stored objects events row ∧ row.1 = id then
    h.choose.2.changesetId else 0, ?_⟩
  intro row hrow
  have hexists : ∃ row', d.Stored objects events row' ∧ row'.1 = row.1 :=
    ⟨row, hrow, rfl⟩
  have hchosen : row = hexists.choose :=
    hrow.unique hexists.choose_spec.1 hexists.choose_spec.2.symm
  calc (if h : ∃ row', d.Stored objects events row' ∧ row'.1 = row.1 then
        h.choose.2.changesetId else 0)
      = hexists.choose.2.changesetId := dif_pos hexists
    _ = row.2.changesetId := by rw [← hchosen]

/-- The API answers a request with what it asks for. -/
theorem fits_reply (h : d.LeadsTo objects events s) (request : Web.Request) :
    d.Fits objects events (some request) (d.reply s.world.database request) := by
  cases request with
  | getChange id =>
      change d.Fits objects events _
        (.change (getChangeFeature d.history s.world.database id))
      cases hget : getChangeFeature d.history s.world.database id with
      | error e => exact Option.some_ne_none _
      | ok detail =>
          obtain ⟨row, c, sa, sb, hjoins, hid, rfl⟩ :=
            (getChangeFeature_eq_ok_iff (referential_of_leadsTo h)).mp hget
          obtain rfl : row.1 = id := Int.natCast_inj.mp hid
          exact ⟨⟨events, List.prefix_rfl, s, h, hget⟩, rfl⟩
  | getHistory osmId =>
      change d.Fits objects events _ (.history
        (getFeatureHistory d.history s.world.database osmId d.sourceQueryVersion))
      unfold getFeatureHistory
      simp only
      split
      · exact Option.some_ne_none _
      · exact rfl

/-- The arrival of an answer is an event that can happen to the client. -/
theorem enabled_of_fits {changesetOf : Nat → Nat} {click : Nat} {answer : Reply J}
    (hassigns : d.AssignsChangesets objects events changesetOf)
    (h : d.Fits objects events (s.app.requests click) answer) :
    s.app.Enabled changesetOf (answer.event click) := by
  match answer with
  | .change (.ok detail) =>
      obtain ⟨hanswered, hrequest⟩ := h
      obtain ⟨row, sa, sb, hrow, rfl⟩ := exists_stored_of_answered hanswered
      exact ⟨hrequest, (hassigns row hrow).symm⟩
  | .history (.ok found) => exact h
  | .change (.error e) => exact h
  | .history (.error e) => exact h

/-- The client takes an event that leaves the answers still on their way alone. -/
theorem Deployment.Faithful.act (event : Web.Event) {replies : Nat → Option (Reply J)}
    {list : Option (List ChangesetPayload)} (h : d.Faithful objects events s)
    (hreplies : ∀ click answer, replies click = some answer →
      s.replies click = some answer ∧ ¬ s.app.Touches click event)
    (hlist : list ≠ none → (s.app.take event).listRequested = true)
    (hchange : ∀ click detail, event = .changeAnswered click detail →
      ∃ answered, d.Answered objects events answered ∧ detail = .ofJson answered) :
    d.Faithful objects events { s.act event with replies := replies, list := list } where
  drawn := h.drawn
  replies click answer hanswer := by
    obtain ⟨hwaits, htouches⟩ := hreplies click answer hanswer
    change d.Fits objects events ((s.app.take event).requests click) answer
    rw [Web.requests_take_of_not_touches htouches]
    exact h.replies click answer hwaits
  list := hlist
  shown answer hanswer := by
    rcases Web.change_take hanswer with hbefore | rfl
    · exact h.shown answer hbefore
    · exact hchange answer.click answer.detail rfl

/-- What one event keeps. -/
theorem faithful_step (hleads : d.LeadsTo objects events s)
    (hnumbered : s.app.Numbered) (h : d.Faithful objects events s)
    (hstep : SessionStep d s s') : d.Faithful objects events s' := by
  have hupdate : ∀ (click : Nat) (event : Web.Event),
      (∀ c, s.app.Touches c event → c = click) → ∀ c answer,
        Function.update s.replies click none c = some answer →
          s.replies c = some answer ∧ ¬ s.app.Touches c event := by
    intro click event htouches c answer hanswer
    by_cases heq : c = click
    · rw [heq, Function.update_self] at hanswer
      cases hanswer
    · rw [Function.update_of_ne heq] at hanswer
      exact ⟨hanswer, fun htouch => heq (htouches c htouch)⟩
  cases hstep with
  | task world hworld => exact ⟨h.drawn, h.replies, h.list, h.shown⟩
  | tile features hfeatures =>
      refine ⟨?_, h.replies, h.list, h.shown⟩
      intro drawn hdrawn
      rcases List.mem_append.mp hdrawn with hdrawn | hdrawn
      · exact h.drawn drawn hdrawn
      · obtain ⟨row, hrow, hfrom⟩ := hfeatures drawn hdrawn
        exact ⟨row, stored_of_leadsTo hleads hrow, hfrom⟩
  | click drawn hdrawn hcurrent hselected =>
      refine h.act (.click drawn.2.changeFeatureId) ?_ h.list
        (fun _ _ hevent => nomatch hevent)
      intro c answer hanswer
      refine ⟨hanswer, ?_⟩
      intro htouch
      obtain rfl : c = s.app.clicks := htouch
      exact absurd (hnumbered _ (h.replies _ answer hanswer).ne_none) (lt_irrefl _)
  | serve click request hrequest =>
      refine ⟨h.drawn, ?_, h.list, h.shown⟩
      intro c answer hanswer
      by_cases heq : c = click
      · simp only [heq, Function.update_self, Option.some.injEq] at hanswer ⊢
        rw [hrequest, ← hanswer]
        exact fits_reply hleads request
      · simp only [Function.update_of_ne heq] at hanswer
        exact h.replies c answer hanswer
  | arrive click answer hanswer =>
      have hfits := h.replies click answer hanswer
      have hlist : s.list ≠ none →
          (s.app.take (answer.event click)).listRequested = true := by
        rw [listRequested_reply]
        exact h.list
      refine h.act _ (hupdate click _ (fun _ => touches_reply)) hlist ?_
      intro c detail hevent
      match answer with
      | .change (.ok found) =>
          obtain ⟨rfl, rfl⟩ := Web.Event.changeAnswered.inj hevent
          exact ⟨found, hfits.1, rfl⟩
      | .history (.ok found) => cases hevent
      | .change (.error e) => cases hevent
      | .history (.error e) => cases hevent
  | lose click message hrequest =>
      exact h.act _ (hupdate click (.requestFailed click message) (fun _ htouch => htouch))
        h.list (fun _ _ hevent => nomatch hevent)
  | serveList hrequested => exact ⟨h.drawn, h.replies, fun _ => hrequested, h.shown⟩
  | arriveList list hlist =>
      exact h.act (.listAnswered list) (fun _ _ hanswer => ⟨hanswer, id⟩)
        (absurd rfl) (fun _ _ hevent => nomatch hevent)
  | loseList message hrequested =>
      exact h.act (.listFailed message) (fun _ _ hanswer => ⟨hanswer, id⟩)
        (absurd rfl) (fun _ _ hevent => nomatch hevent)
  | own event hevent henabled =>
      match event, hevent with
      | .switchInterval changesetId, _ =>
          exact h.act (.switchInterval changesetId)
            (fun _ _ hanswer => ⟨hanswer, id⟩) h.list (fun _ _ hevent => nomatch hevent)
      | .effect, _ =>
          exact h.act .effect (fun _ _ hanswer => ⟨hanswer, id⟩) h.list
            (fun _ _ hevent => nomatch hevent)
      | .render, _ =>
          exact h.act .render (fun _ _ hanswer => ⟨hanswer, id⟩) h.list
            (fun _ _ hevent => nomatch hevent)

/-- What one event is to the client. -/
theorem app_of_sessionStep {changesetOf : Nat → Nat}
    (hassigns : d.AssignsChangesets objects events changesetOf)
    (h : d.Faithful objects events s) (hstep : SessionStep d s s') :
    s'.app = s.app ∨ ∃ event, Web.step changesetOf s.app event = some s'.app := by
  cases hstep with
  | task world hworld => exact Or.inl rfl
  | tile features hfeatures => exact Or.inl rfl
  | serve click request hrequest => exact Or.inl rfl
  | serveList hrequested => exact Or.inl rfl
  | click drawn hdrawn hcurrent hselected =>
      obtain ⟨row, hrow, hfrom⟩ := h.drawn drawn hdrawn
      refine Or.inr ⟨.click drawn.2.changeFeatureId, Web.step_eq_some_iff.mpr ⟨?_, rfl⟩⟩
      refine ⟨hcurrent, ?_⟩
      rw [hselected, ← hfrom.id, hassigns row hrow, hfrom.changesetId]
  | arrive click answer hanswer =>
      have henabled := enabled_of_fits hassigns (h.replies click answer hanswer)
      exact Or.inr ⟨_, Web.step_eq_some_iff.mpr ⟨henabled, rfl⟩⟩
  | lose click message hrequest =>
      exact Or.inr ⟨.requestFailed click message,
        Web.step_eq_some_iff.mpr ⟨hrequest, rfl⟩⟩
  | arriveList list hlist =>
      have hrequested := h.list (Option.ne_none_iff_exists'.mpr ⟨list, hlist⟩)
      exact Or.inr ⟨.listAnswered list, Web.step_eq_some_iff.mpr ⟨hrequested, rfl⟩⟩
  | loseList message hrequested =>
      exact Or.inr ⟨.listFailed message, Web.step_eq_some_iff.mpr ⟨hrequested, rfl⟩⟩
  | own event hevent henabled =>
      exact Or.inr ⟨event, Web.step_eq_some_iff.mpr ⟨henabled changesetOf, rfl⟩⟩

/-- The client goes through one of its own runs. -/
def Deployment.RunsApp (d : Deployment G J E M) (objects : Objects J)
    (events : List (SessionEvent J hit)) (s : Session G J M) : Prop :=
  ∀ changesetOf, d.AssignsChangesets objects events changesetOf →
    ∃ appEvents, runFrom (Web.step changesetOf) .initial appEvents = some s.app

theorem Deployment.RunsApp.runs (h : d.RunsApp objects events s) : Web.Runs s.app := by
  obtain ⟨changesetOf, hassigns⟩ := exists_assignsChangesets d objects events
  obtain ⟨appEvents, hrun⟩ := h changesetOf hassigns
  exact Web.runs_of_run hrun

theorem faithful_initial : d.Faithful objects events (.initial objects) where
  drawn _ h := absurd h List.not_mem_nil
  replies _ _ h := absurd h.symm (Option.some_ne_none _)
  list h := absurd rfl h
  shown _ h := absurd (h.elim id id) (Option.not_mem_none _)

/-- What holds over a session. -/
theorem faithful_of_leadsTo (h : d.LeadsTo objects events s) :
    d.Faithful objects events s ∧ d.RunsApp objects events s := by
  refine run_induction (P := fun events s =>
    d.Faithful objects events s ∧ d.RunsApp objects events s)
    ⟨faithful_initial, fun _ _ => ⟨[], rfl⟩⟩ ?_ h
  rintro before event t t' hbefore ⟨hfaithful, hruns⟩ hstep
  have hle : before <+: before ++ [event] := List.prefix_append before [event]
  have hsession := sessionStep_of_step hstep
  refine ⟨(faithful_step hbefore hruns.runs.numbered hfaithful hsession).mono hle,
    ?_⟩
  intro changesetOf hassigns
  have hearlier := hassigns.of_prefix hle
  obtain ⟨appEvents, hrun⟩ := hruns changesetOf hearlier
  rcases app_of_sessionStep hearlier hfaithful hsession with heq | ⟨appEvent, happ⟩
  · exact ⟨appEvents, by rw [heq, hrun]⟩
  · exact ⟨appEvents ++ [appEvent], runFrom_concat.mpr ⟨t.app, hrun, happ⟩⟩

/-- Every session is a run of the client by itself, in which a change belongs to the
changeset under which the database has ever stored it. -/
theorem session_refines_app (h : d.LeadsTo objects events s) :
    ∃ changesetOf : Nat → Nat, d.AssignsChangesets objects events changesetOf ∧
      ∃ appEvents, runFrom (Web.step changesetOf) .initial appEvents = some s.app := by
  obtain ⟨changesetOf, hassigns⟩ := exists_assignsChangesets d objects events
  exact ⟨changesetOf, hassigns, (faithful_of_leadsTo h).2 changesetOf hassigns⟩

/-- A change on the screen, with its row: the API answered with it, every tile with
this change was drawn from it, and now the API answers the same or does not find
it. -/
structure Deployment.Genuine (d : Deployment G J E M) (objects : Objects J)
    (events : List (SessionEvent J hit)) (s : Session G J M) (shown : Web.ChangeDetail)
    (row : Nat × ChangeFeatureRow G) (sa sb : Nat × SnapshotRow) : Prop where
  stored : d.Stored objects events row
  detail : shown = .ofJson (changeFeatureDetail d.history row sa sb)
  drawn : ∀ drawn ∈ s.drawn, drawn.2.changeFeatureId = shown.id → DrawnFrom row drawn
  now : getChangeFeature d.history s.world.database shown.id =
      .ok (changeFeatureDetail d.history row sa sb) ∨
    getChangeFeature d.history s.world.database shown.id =
      .error ⟨404, "no change feature with id " ++ toString (shown.id : Int)⟩

/-- In every session the change on the screen is what the API answered, and what
every tile with it said. -/
theorem session_shows_stored (h : d.LeadsTo objects events s)
    {answer : Web.Answer} (hanswer : answer ∈ s.app.view.change) :
    ∃ row sa sb, d.Genuine objects events s answer.detail row sa sb := by
  have hfaithful := (faithful_of_leadsTo h).1
  obtain ⟨detail, hanswered, heq⟩ := hfaithful.shown answer (Or.inl hanswer)
  obtain ⟨row, sa, sb, hrow, rfl⟩ := exists_stored_of_answered hanswered
  refine ⟨row, sa, sb, hrow, heq, ?_, ?_⟩
  · intro drawn hdrawn hid
    obtain ⟨row', hrow', hfrom⟩ := hfaithful.drawn drawn hdrawn
    have hsame : row.1 = row'.1 := by
      rw [hfrom.id, hid, heq]
      rfl
    obtain rfl := hrow.unique hrow' hsame
    exact hfrom
  · obtain ⟨before, hbefore, t, ht, hget⟩ := hanswered
    rw [heq]
    exact getChangeFeature_of_grows (referential_of_leadsTo ht)
      (referential_of_leadsTo h) (grows_of_leadsTo ht hbefore h) hget

/-- The changesets on their way to the screen are those of the database. -/
def Session.Current (s : Session G J M) : Prop :=
  ∀ cs, (cs ∈ s.app.view.changesets ∨ cs ∈ s.app.latest.changesets) ∨
      (∃ list ∈ s.list, cs ∈ list) →
    cs ∈ listChangesets s.world.database

/-- The client takes an event other than the list. -/
theorem Session.Current.act (event : Web.Event) {replies : Nat → Option (Reply J)}
    {list : Option (List ChangesetPayload)} (h : s.Current)
    (hlist : ∀ l ∈ list, l ∈ s.list)
    (hevent : ∀ l, event = .listAnswered l → l ∈ s.list) :
    ({ s.act event with replies := replies, list := list } : Session G J M).Current := by
  rintro cs (hcs | ⟨l, hl, hcs⟩)
  · rcases Web.changesets_take hcs with hbefore | ⟨l, rfl, hmem⟩
    · exact h cs (Or.inl hbefore)
    · exact h cs (Or.inr ⟨l, hevent l rfl, hmem⟩)
  · exact h cs (Or.inr ⟨l, hlist l hl, hcs⟩)

theorem current_step (h : s.Current) (hstep : SessionStep d s s') : s'.Current := by
  have hgrows := hstep.database.grows
  cases hstep with
  | task world hworld => exact fun cs hcs => mem_listChangesets_of_grows hgrows (h cs hcs)
  | tile features hfeatures => exact h
  | serve click request hrequest => exact h
  | serveList hrequested =>
      rintro cs (hcs | ⟨list, hlist, hcs⟩)
      · exact h cs (Or.inl hcs)
      · obtain rfl := Option.some.inj hlist
        exact hcs
  | click drawn hdrawn hcurrent hselected =>
      exact h.act (.click drawn.2.changeFeatureId) (fun _ hl => hl)
        (fun _ hevent => nomatch hevent)
  | arrive click answer hanswer =>
      refine h.act _ (fun _ hl => hl) ?_
      intro l hevent
      match answer with
      | .change (.ok detail) => cases hevent
      | .history (.ok found) => cases hevent
      | .change (.error e) => cases hevent
      | .history (.error e) => cases hevent
  | lose click message hrequest =>
      exact h.act (.requestFailed click message) (fun _ hl => hl)
        (fun _ hevent => nomatch hevent)
  | arriveList list hlist =>
      refine h.act (.listAnswered list) nofun ?_
      intro l hevent
      obtain rfl := Web.Event.listAnswered.inj hevent
      exact hlist
  | loseList message hrequested =>
      exact h.act (.listFailed message) nofun (fun _ hevent => nomatch hevent)
  | own event hevent henabled =>
      refine h.act _ (fun _ hl => hl) ?_
      rintro l rfl
      rcases hevent with ⟨changesetId, hevent⟩ | hevent
      · cases hevent
      · cases hevent

/-- The intervals on the screen are what the API answers now, and the selected one is
among them. -/
theorem session_intervals_current (h : d.LeadsTo objects events s) :
    (∀ cs ∈ s.app.view.changesets, Api.getChangeset s.world.database cs.id = .ok cs) ∧
    ∀ id ∈ s.app.view.selectedChangesetId,
      ∃ cs ∈ s.app.view.changesets, cs.id = id := by
  have hall : ∀ event ∈ events, (fun _ : SessionEvent J hit => True) event :=
    fun _ _ => trivial
  have hcurrent : s.Current := by
    refine invariant_of_runFrom (P := Session.Current) ?_ hall ?_ h
    · intro t event t' ht _ hstep
      exact current_step ht (sessionStep_of_step hstep)
    · rintro cs ((hcs | hcs) | ⟨list, hlist, -⟩)
      · cases hcs
      · cases hcs
      · cases hlist
  refine ⟨?_, ?_⟩
  · intro cs hcs
    exact (getChangeset_eq_ok_iff (referential_of_leadsTo h)).mpr
      ⟨hcurrent cs (Or.inl (Or.inl hcs)), rfl⟩
  · intro id hid
    have hlisted := (faithful_of_leadsTo h).2.runs.listed.view id hid
    exact List.mem_map.mp hlisted

end Runs

section Samples

/-- The services of the samples. -/
def deployment : Deployment Raster Raster Unit Raster where
  shapely := Raster.shapely
  postgis := Raster.postgis
  aoi := Raster.aoi
  bucket := Raster.bucket
  history := rasterHistory
  tiles := wholePlane
  sourceQueryVersion := "v2"

/-- The tile of the whole map. -/
def mapTile : Tile :=
  ⟨0, 0, 0, Int.natCast_nonneg maxZoom.toNat, Nat.one_pos, Nat.one_pos⟩

/-- Everything is ingested, compared and published; then the browser lists the one
interval, draws its tile, and the user clicks on the building. -/
def visit : List (SessionEvent Raster Raster.shapely.intersects) :=
  Raster.pipeline.map .task ++
    [.effect, .render, .serveList, .arriveList, .render, .effect, .render,
      .fetchTile 1 mapTile none, .click 0, .render, .serve 0, .arrive 0, .render]

theorem exists_shown_visit :
    ∃ s answer, deployment.LeadsTo Dict.empty visit s ∧
      answer ∈ s.app.view.change := by
  have hchange : ((runFrom deployment.step (.initial Dict.empty) visit).bind
      fun s => s.app.view.change).isSome = true := by
    decide +kernel
  obtain ⟨answer, hanswer⟩ := Option.isSome_iff_exists.mp hchange
  obtain ⟨s, hs, hshown⟩ := Option.bind_eq_some_iff.mp hanswer
  exact ⟨s, answer, hs, hshown⟩

/-- The visit is a run of the client. -/
theorem session_refines_app_visit :
    ∃ s, deployment.LeadsTo Dict.empty visit s ∧
      ∃ changesetOf : Nat → Nat,
        deployment.AssignsChangesets Dict.empty visit changesetOf ∧
        ∃ appEvents, runFrom (Web.step changesetOf) .initial appEvents =
          some s.app := by
  obtain ⟨s, -, hs, -⟩ := exists_shown_visit
  exact ⟨s, hs, session_refines_app hs⟩

/-- The change that the user has clicked on. -/
theorem session_shows_stored_visit :
    ∃ s, deployment.LeadsTo Dict.empty visit s ∧ ∃ answer ∈ s.app.view.change,
      ∃ row sa sb, deployment.Genuine Dict.empty visit s answer.detail row sa sb := by
  obtain ⟨s, answer, hs, hshown⟩ := exists_shown_visit
  exact ⟨s, hs, answer, hshown, session_shows_stored hs hshown⟩

/-- The interval of the visit. -/
theorem session_intervals_current_visit :
    ∃ s, deployment.LeadsTo Dict.empty visit s ∧
      (∀ cs ∈ s.app.view.changesets,
        Api.getChangeset s.world.database cs.id = .ok cs) ∧
      ∀ id ∈ s.app.view.selectedChangesetId,
        ∃ cs ∈ s.app.view.changesets, cs.id = id := by
  obtain ⟨s, -, hs, -⟩ := exists_shown_visit
  exact ⟨s, hs, session_intervals_current hs⟩

end Samples

end VectorMapChanges
