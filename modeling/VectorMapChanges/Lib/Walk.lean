import Mathlib.Data.List.Nodup
import Mathlib.Data.List.Perm.Subperm
import Mathlib.Logic.Relation

/-!
# Component walks over a neighbour function

A worklist walk from one start node, and the loop that restarts it at every
node not seen yet.  The walk keeps a set of seen nodes, which it shares with
the walks before it, the members taken off the queue so far, and the queue,
which is used from its end.

The correctness argument is the invariant `Walk.Inv`, relative to the nodes
seen before the walk began: what has been seen is what was seen before, plus
the members, plus the queue; all of these are reachable from the start; and
the neighbours of a member have been seen.  Every turn moves one node from the
queue to the members, so that as many turns as there are nodes empty the queue.

Main facts:
* `turns_queue_eq_nil`: the walk ends;
* `mem_members_turns_iff`: it collects exactly the nodes reachable from its
  start;
* `flatten_components_nodup`, `mem_components`, `exists_component`: the walks
  partition the nodes into connected components.
-/

namespace Lib

set_option linter.unusedSectionVars false

universe u

/-- The sets and the queue of a walk in progress. -/
structure Walk (α : Type u) where
  seen : List α
  members : List α
  queue : List α

namespace Walk

variable {α : Type u}

/-- One step along a neighbour function. -/
def Next (nbrs : α → List α) (x y : α) : Prop :=
  y ∈ nbrs x

/-- Reachability along a neighbour function. -/
abbrev Reach (nbrs : α → List α) : α → α → Prop :=
  Relation.ReflTransGen (Next nbrs)

/-- A neighbour function that lists every edge from both of its ends. -/
def Symmetric (nbrs : α → List α) : Prop :=
  ∀ x y, y ∈ nbrs x → x ∈ nbrs y

section Defs

variable [DecidableEq α] (nbrs : α → List α)

/-- Queue `y` unless it has been seen. -/
def visit (w : Walk α) (y : α) : Walk α :=
  if y ∈ w.seen then w
  else { w with seen := w.seen ++ [y], queue := w.queue ++ [y] }

/-- One turn of the loop: take the last queued node and visit its
neighbours.  An empty queue ends the loop. -/
def turn (w : Walk α) : Walk α :=
  match w.queue.getLast? with
  | none => w
  | some node =>
      (nbrs node).foldl visit
        { w with members := w.members ++ [node], queue := w.queue.dropLast }

/-- `n` turns of the loop. -/
def turns : Nat → Walk α → Walk α
  | 0, w => w
  | n + 1, w => turns n (turn nbrs w)

/-- The walk that is about to leave `x`. -/
def start (seen : List α) (x : α) : Walk α where
  seen := seen ++ [x]
  members := []
  queue := [x]

/-- The nodes seen by all walks so far, and the components they found. -/
structure Found (α : Type u) where
  seen : List α
  components : List (List α)

/-- Walk out from `x` unless an earlier walk has seen it. -/
def explore (fuel : Nat) (found : Found α) (x : α) : Found α :=
  if x ∈ found.seen then found
  else
    let w := turns nbrs fuel (start found.seen x)
    { seen := w.seen, components := found.components ++ [w.members] }

/-- The components found by walking out from every node in turn.  No walk
takes more turns than there are nodes. -/
def components (nodes : List α) : List (List α) :=
  (nodes.foldl (explore nbrs nodes.length)
    { seen := [], components := [] }).components

end Defs

section Turns

variable [DecidableEq α] {nbrs : α → List α}

/-- Visiting a list of nodes appends the new ones to `seen` and to the queue. -/
theorem exists_foldl_visit (ys : List α) (w : Walk α) :
    ∃ new : List α,
      ys.foldl visit w =
        { w with seen := w.seen ++ new, queue := w.queue ++ new } ∧
      new.Nodup ∧
      (∀ z ∈ new, z ∈ ys ∧ z ∉ w.seen) ∧
      (∀ z ∈ ys, z ∈ w.seen ∨ z ∈ new) := by
  induction ys generalizing w with
  | nil =>
      exact ⟨[], by simp, by simp, by simp, by simp⟩
  | cons y ys ih =>
      rw [List.foldl_cons]
      by_cases hy : y ∈ w.seen
      · have hvisit : visit w y = w := by
          simp [visit, hy]
        obtain ⟨new, heq, hnodup, hnew, hall⟩ := ih w
        rw [hvisit]
        refine ⟨new, heq, hnodup, ?_, ?_⟩
        · intro z hz
          exact ⟨List.mem_cons_of_mem _ (hnew z hz).1, (hnew z hz).2⟩
        · intro z hz
          rcases List.mem_cons.mp hz with rfl | hz
          · exact Or.inl hy
          · exact hall z hz
      · have hvisit : visit w y =
            { w with seen := w.seen ++ [y], queue := w.queue ++ [y] } := by
          simp [visit, hy]
        obtain ⟨new, heq, hnodup, hnew, hall⟩ := ih (visit w y)
        rw [hvisit] at heq hnew hall ⊢
        refine ⟨y :: new, ?_, ?_, ?_, ?_⟩
        · rw [heq]
          simp
        · refine List.nodup_cons.mpr ⟨fun hmem => ?_, hnodup⟩
          exact (hnew y hmem).2 (by simp)
        · intro z hz
          rcases List.mem_cons.mp hz with rfl | hz
          · exact ⟨by simp, hy⟩
          · have hz' := hnew z hz
            simp only [List.mem_append, not_or] at hz'
            exact ⟨List.mem_cons_of_mem _ hz'.1, hz'.2.1⟩
        · intro z hz
          rcases List.mem_cons.mp hz with rfl | hz
          · exact Or.inr (by simp)
          · rcases hall z hz with hz | hz
            · rcases List.mem_append.mp hz with hz | hz
              · exact Or.inl hz
              · exact Or.inr (by simp [List.mem_singleton.mp hz])
            · exact Or.inr (List.mem_cons_of_mem _ hz)

theorem turn_of_queue_nil {w : Walk α} (h : w.queue = []) :
    turn nbrs w = w := by
  simp [turn, h]

/-- What a turn does to a walk whose queue ends in `node`. -/
theorem exists_turn_eq (nbrs : α → List α) {w : Walk α} {q : List α} {node : α}
    (h : w.queue = q ++ [node]) :
    ∃ new : List α,
      turn nbrs w =
        { seen := w.seen ++ new
          members := w.members ++ [node]
          queue := q ++ new } ∧
      new.Nodup ∧
      (∀ z ∈ new, z ∈ nbrs node ∧ z ∉ w.seen) ∧
      (∀ z ∈ nbrs node, z ∈ w.seen ∨ z ∈ new) := by
  obtain ⟨new, heq, hrest⟩ :=
    exists_foldl_visit (nbrs node)
      { w with members := w.members ++ [node], queue := w.queue.dropLast }
  refine ⟨new, ?_, hrest⟩
  simp only [turn, h, List.getLast?_concat, List.dropLast_concat] at heq ⊢
  exact heq

/-- The walk invariant, relative to the nodes `old` seen before it began. -/
structure Inv (nbrs : α → List α) (old : List α) (x : α) (w : Walk α) : Prop where
  seen_iff : ∀ y, y ∈ w.seen ↔ y ∈ old ∨ y ∈ w.members ++ w.queue
  nodup : (w.members ++ w.queue).Nodup
  fresh : ∀ y ∈ w.members ++ w.queue, y ∉ old
  reach : ∀ y ∈ w.members ++ w.queue, Reach nbrs x y
  hasStart : x ∈ w.members ++ w.queue
  closed : ∀ y ∈ w.members, ∀ z ∈ nbrs y, z ∈ w.seen

theorem inv_start (nbrs : α → List α) {old : List α} {x : α} (h : x ∉ old) :
    Inv nbrs old x (start old x) where
  seen_iff := by simp [start]
  nodup := by simp [start]
  fresh := by simp [start, h]
  reach := by
    intro y hy
    have hy' : y = x := by simpa [start] using hy
    rw [hy']
  hasStart := by simp [start]
  closed := by simp [start]

/-- Every turn keeps the invariant. -/
theorem inv_turn {old : List α} {x : α} {w : Walk α} (h : Inv nbrs old x w) :
    Inv nbrs old x (turn nbrs w) := by
  rcases List.eq_nil_or_concat w.queue with hq | ⟨q, node, hq⟩
  · rw [turn_of_queue_nil hq]
    exact h
  rw [List.concat_eq_append] at hq
  obtain ⟨new, heq, hnodup, hnew, hall⟩ := exists_turn_eq nbrs hq
  -- the turn only moves `node`, and appends `new` behind the rest
  have hperm : ((w.members ++ [node]) ++ (q ++ new)).Perm
      ((w.members ++ w.queue) ++ new) := by
    rw [hq, List.append_assoc, List.append_assoc, List.append_assoc]
    apply List.Perm.append_left
    rw [← List.append_assoc, ← List.append_assoc]
    exact List.perm_append_comm.append_right new
  have hmem : ∀ y, y ∈ (w.members ++ [node]) ++ (q ++ new) ↔
      y ∈ w.members ++ w.queue ∨ y ∈ new := by
    intro y
    rw [hperm.mem_iff, List.mem_append]
  have hnode : node ∈ w.members ++ w.queue := by
    simp [hq]
  rw [heq]
  constructor
  · intro y
    rw [List.mem_append, hmem, h.seen_iff y]
    tauto
  · rw [hperm.nodup_iff]
    refine List.nodup_append.mpr ⟨h.nodup, hnodup, ?_⟩
    rintro a ha b hb rfl
    exact (hnew a hb).2 ((h.seen_iff a).mpr (Or.inr ha))
  · intro y hy
    rcases (hmem y).mp hy with hy | hy
    · exact h.fresh y hy
    · intro hold
      exact (hnew y hy).2 ((h.seen_iff y).mpr (Or.inl hold))
  · intro y hy
    rcases (hmem y).mp hy with hy | hy
    · exact h.reach y hy
    · exact (h.reach node hnode).tail (hnew y hy).1
  · exact (hmem x).mpr (Or.inl h.hasStart)
  · intro y hy z hz
    rcases List.mem_append.mp hy with hy | hy
    · exact List.mem_append_left _ (h.closed y hy z hz)
    · rw [List.mem_singleton.mp hy] at hz
      rcases hall z hz with hz | hz
      · exact List.mem_append_left _ hz
      · exact List.mem_append_right _ hz

theorem inv_turns {old : List α} {x : α} (n : Nat) {w : Walk α}
    (h : Inv nbrs old x w) :
    Inv nbrs old x (turns nbrs n w) := by
  induction n generalizing w with
  | zero => exact h
  | succ n ih => exact ih (inv_turn h)

/-- Each turn takes a member, until the queue is empty. -/
theorem length_members_turns (nbrs : α → List α) (n : Nat) (w : Walk α) :
    (turns nbrs n w).queue = [] ∨
      (turns nbrs n w).members.length = w.members.length + n := by
  induction n generalizing w with
  | zero => exact Or.inr rfl
  | succ n ih =>
      rcases List.eq_nil_or_concat w.queue with hq | ⟨q, node, hq⟩
      · left
        have hstay : ∀ m, turns nbrs m w = w := by
          intro m
          induction m with
          | zero => rfl
          | succ m ihm => rw [turns, turn_of_queue_nil hq, ihm]
        rw [hstay]
        exact hq
      · rw [List.concat_eq_append] at hq
        obtain ⟨new, heq, -⟩ := exists_turn_eq nbrs hq
        rcases ih (turn nbrs w) with h | h
        · exact Or.inl h
        · right
          rw [turns, h, heq, List.length_append, List.length_singleton]
          omega

end Turns

section Components

variable [DecidableEq α] {nbrs : α → List α} {nodes : List α}

/-- A neighbour function that does not leave `nodes`. -/
def Closed (nbrs : α → List α) (nodes : List α) : Prop :=
  ∀ x ∈ nodes, ∀ y ∈ nbrs x, y ∈ nodes

theorem Closed.reach (hclosed : Closed nbrs nodes) {x y : α} (hx : x ∈ nodes)
    (h : Reach nbrs x y) :
    y ∈ nodes := by
  induction h with
  | refl => exact hx
  | tail _ hstep ih => exact hclosed _ ih _ hstep

/-- The walk ends: as many turns as there are nodes empty the queue. -/
theorem turns_queue_eq_nil (hclosed : Closed nbrs nodes) {old : List α} {x : α}
    (hx : x ∈ nodes) (hfresh : x ∉ old) :
    (turns nbrs nodes.length (start old x)).queue = [] := by
  have hinv := inv_turns nodes.length (inv_start nbrs hfresh)
  rcases length_members_turns nbrs nodes.length (start old x)
    with h | h
  · exact h
  · -- members and queue are different nodes, so no room is left for a queue
    have hsub : (turns nbrs nodes.length (start old x)).members ++
        (turns nbrs nodes.length (start old x)).queue ⊆ nodes :=
      fun y hy => hclosed.reach hx (hinv.reach y hy)
    have hle := (List.subperm_of_subset hinv.nodup hsub).length_le
    rw [List.length_append, h] at hle
    apply List.eq_nil_of_length_eq_zero
    omega

/-- A walk collects exactly the nodes reachable from its start, provided that
the nodes seen before it are closed under neighbours. -/
theorem mem_members_turns_iff (hsymm : Symmetric nbrs)
    (hclosed : Closed nbrs nodes) {old : List α} {x : α} (hx : x ∈ nodes)
    (hold : Closed nbrs old) (hfresh : x ∉ old) (y : α) :
    y ∈ (turns nbrs nodes.length (start old x)).members ↔ Reach nbrs x y := by
  have hinv := inv_turns nodes.length (inv_start nbrs hfresh)
  have hq := turns_queue_eq_nil hclosed hx hfresh
  constructor
  · intro hy
    exact hinv.reach y (List.mem_append_left _ hy)
  · intro h
    induction h with
    | refl =>
        simpa [hq] using hinv.hasStart
    | @tail y z _ hstep ih =>
        have hseen := (hinv.seen_iff z).mp (hinv.closed y ih z hstep)
        rcases hseen with hz | hz
        · -- an edge back into `old` would put `y` into `old`
          have hy : y ∈ old := hold z hz y (hsymm y z hstep)
          exact absurd hy (hinv.fresh y (List.mem_append_left _ ih))
        · simpa [hq] using hz

/-- What the walks so far have established. -/
structure FoundInv (nbrs : α → List α) (nodes : List α) (found : Found α) :
    Prop where
  seen_iff : ∀ y, y ∈ found.seen ↔ ∃ c ∈ found.components, y ∈ c
  nodup : found.components.flatten.Nodup
  component : ∀ c ∈ found.components,
    ∃ x ∈ nodes, ∀ y, y ∈ c ↔ Reach nbrs x y

theorem FoundInv.closed {found : Found α} (h : FoundInv nbrs nodes found) :
    Closed nbrs found.seen := by
  intro y hy z hz
  obtain ⟨c, hc, hyc⟩ := (h.seen_iff y).mp hy
  obtain ⟨x, -, hx⟩ := h.component c hc
  exact (h.seen_iff z).mpr
    ⟨c, hc, (hx z).mpr (((hx y).mp hyc).tail hz)⟩

/-- Walking out from one more node keeps the invariant, and sees that node. -/
theorem foundInv_explore (hsymm : Symmetric nbrs) (hclosed : Closed nbrs nodes)
    {found : Found α} (h : FoundInv nbrs nodes found) {x : α} (hx : x ∈ nodes) :
    FoundInv nbrs nodes (explore nbrs nodes.length found x) ∧
      x ∈ (explore nbrs nodes.length found x).seen ∧
      found.seen ⊆ (explore nbrs nodes.length found x).seen := by
  by_cases hseen : x ∈ found.seen
  · simp only [explore, hseen, if_true]
    exact ⟨h, trivial, fun y hy => hy⟩
  have hinv := inv_turns nodes.length (inv_start nbrs hseen)
  have hq := turns_queue_eq_nil hclosed hx hseen
  have hmem := mem_members_turns_iff hsymm hclosed hx h.closed hseen
  have hseen_iff := hinv.seen_iff
  have hnodup := hinv.nodup
  have hfresh := hinv.fresh
  simp only [hq, List.append_nil] at hseen_iff hnodup hfresh
  simp only [explore, hseen, if_false]
  refine ⟨⟨?_, ?_, ?_⟩, ?_, ?_⟩
  · intro y
    rw [hseen_iff y, h.seen_iff y]
    simp [or_and_right, exists_or]
  · rw [List.flatten_append, List.flatten_singleton]
    refine List.nodup_append.mpr ⟨h.nodup, hnodup, ?_⟩
    rintro a ha b hb rfl
    obtain ⟨c, hc, hac⟩ := List.mem_flatten.mp ha
    exact hfresh a hb ((h.seen_iff a).mpr ⟨c, hc, hac⟩)
  · intro c hc
    rcases List.mem_append.mp hc with hc | hc
    · exact h.component c hc
    · rw [List.mem_singleton.mp hc]
      exact ⟨x, hx, hmem⟩
  · exact (hseen_iff x).mpr (Or.inr ((hmem x).mpr Relation.ReflTransGen.refl))
  · intro y hy
    exact (hseen_iff y).mpr (Or.inl hy)

theorem foundInv_foldl (hsymm : Symmetric nbrs) (hclosed : Closed nbrs nodes)
    (xs : List α) (hxs : ∀ x ∈ xs, x ∈ nodes) {found : Found α}
    (h : FoundInv nbrs nodes found) :
    FoundInv nbrs nodes (xs.foldl (explore nbrs nodes.length) found) ∧
      (∀ x, x ∈ found.seen ∨ x ∈ xs →
        x ∈ (xs.foldl (explore nbrs nodes.length) found).seen) := by
  induction xs generalizing found with
  | nil =>
      exact ⟨h, fun x hx => hx.resolve_right (by simp)⟩
  | cons x xs ih =>
      obtain ⟨hinv, hx, hsub⟩ :=
        foundInv_explore hsymm hclosed h (hxs x (by simp))
      obtain ⟨hfinal, hall⟩ :=
        ih (fun y hy => hxs y (List.mem_cons_of_mem _ hy)) hinv
      refine ⟨hfinal, ?_⟩
      rintro y (hy | hy)
      · exact hall y (Or.inl (hsub hy))
      · rcases List.mem_cons.mp hy with rfl | hy
        · exact hall y (Or.inl hx)
        · exact hall y (Or.inr hy)

theorem foundInv_nil : FoundInv nbrs nodes { seen := [], components := [] } where
  seen_iff := by simp
  nodup := by simp
  component := by simp

/-- No node is in two components, or twice in one. -/
theorem flatten_components_nodup (hsymm : Symmetric nbrs)
    (hclosed : Closed nbrs nodes) :
    (components nbrs nodes).flatten.Nodup :=
  (foundInv_foldl hsymm hclosed nodes (fun _ hx => hx) foundInv_nil).1.nodup

/-- Every component is the set of nodes reachable from one node. -/
theorem mem_components (hsymm : Symmetric nbrs) (hclosed : Closed nbrs nodes)
    {c : List α} (hc : c ∈ components nbrs nodes) :
    ∃ x ∈ nodes, ∀ y, y ∈ c ↔ Reach nbrs x y :=
  (foundInv_foldl hsymm hclosed nodes (fun _ hx => hx) foundInv_nil).1.component
    c hc

/-- Every node is in a component. -/
theorem exists_component (hsymm : Symmetric nbrs) (hclosed : Closed nbrs nodes)
    {x : α} (hx : x ∈ nodes) :
    ∃ c ∈ components nbrs nodes, x ∈ c := by
  obtain ⟨hinv, hall⟩ :=
    foundInv_foldl hsymm hclosed nodes (fun _ hx => hx) foundInv_nil
  exact (hinv.seen_iff x).mp (hall x (Or.inr hx))

end Components

end Walk
end Lib
