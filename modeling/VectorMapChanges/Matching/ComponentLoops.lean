import VectorMapChanges.Lib.While
import VectorMapChanges.Matching.Components

/-!
# The loops of `_connected_components`

The code walks with a `while` loop inside a `for` loop, and subscripts the neighbours
of each node that it takes off the queue.  The loops end, raise nothing, and return
the groups of `connectedComponents`: each connected component of the candidate graph
once.

Main facts:
* `returns_iff`: the loops return `connectedComponents` and nothing else;
* `connectedComponents_exact`: they end, and list every component exactly once.
-/

namespace VectorMapChanges

open Lib

section Loops

variable (order : HashOrder) (neighbours : Dict String (List String))

/-- The body of `while queue` -/
def walkTurn (w : Walk String) : Except PyError (Walk String) :=
  match w.queue.getLast? with
  | some node => do
      let ids ← getItem neighbours node
      return (order.iter .neighbours ids).foldl Walk.visit
        { w with members := w.members ++ [node], queue := w.queue.dropLast }
  | none => .ok w

/-- `while queue` -/
def WalkLoop : Walk String → Except PyError (Walk String) → Prop :=
  While (fun w => w.queue ≠ []) (fun w r => walkTurn order neighbours w = r)

/-- `seen` and `components` between two turns of the outer loop. -/
structure Grouping where
  seen : List String
  components : List (List String × List String)

/-- The body of `for start in neighbours` -/
inductive StartBody (aSide : List String) (start : String) (g : Grouping) :
    Except PyError Grouping → Prop
  | skip (hseen : start ∈ g.seen) : StartBody aSide start g (.ok g)
  | walk {w : Walk String} (hseen : start ∉ g.seen)
      (hwalk : WalkLoop order neighbours (Walk.start g.seen start) (.ok w)) :
      StartBody aSide start g
        (.ok ⟨w.seen, g.components ++ [splitSides order aSide w.members]⟩)
  | raised {e : PyError} (hseen : start ∉ g.seen)
      (hwalk : WalkLoop order neighbours (Walk.start g.seen start) (.error e)) :
      StartBody aSide start g (.error e)

/-- `_connected_components` leads to a result. -/
def ReturnsComponents (candidates : Dict String (List String))
    (r : Except PyError (List (List String × List String))) : Prop :=
  ∃ g, ForEach (StartBody order (neighbourhood candidates) candidates.keys)
      (neighbourhood candidates).keys ⟨[], []⟩ g ∧
    r = g.map Grouping.components

end Loops

section Total

variable {order : HashOrder} {candidates : Dict String (List String)}

theorem turns_eq_iterate {α : Type} [DecidableEq α] (nbrs : α → List α) (n : Nat)
    (w : Walk α) :
    Walk.turns nbrs n w = (Walk.turn nbrs)^[n] w := by
  induction n generalizing w with
  | zero => rfl
  | succ n ih => exact ih (Walk.turn nbrs w)

/-- The neighbours of a node, in the order in which the code walks them. -/
abbrev walkOf (order : HashOrder) (candidates : Dict String (List String))
    (node : String) : List String :=
  order.iter .neighbours (neighboursOf (neighbourhood candidates) node)

/-- A turn on a queue of nodes is that of the walk. -/
theorem walkTurn_eq_ok {w : Walk String} (hqueue : w.queue ≠ [])
    (hnodes : ∀ node ∈ w.queue, node ∈ neighbourhood candidates) :
    walkTurn order (neighbourhood candidates) w =
      .ok (Walk.turn (walkOf order candidates) w) := by
  obtain ⟨node, hlast⟩ : ∃ node, w.queue.getLast? = some node := by
    cases hlast : w.queue.getLast? with
    | none => exact absurd (List.getLast?_eq_none_iff.mp hlast) hqueue
    | some node => exact ⟨node, rfl⟩
  obtain ⟨ids, hids⟩ :=
    Dict.exists_get?_of_mem (hnodes node (List.mem_of_getLast? hlast))
  have hitem : getItem (neighbourhood candidates) node = .ok ids :=
    getItem_eq_ok_iff.mpr hids
  unfold walkTurn Walk.turn walkOf neighboursOf
  simp only [hlast, hitem, hids, ok_bind, Option.getD_some]
  rfl

/-- The inner loop ends, after as many turns as there are nodes. -/
theorem walkLoop_turns {old : List String} {x : String}
    (hx : x ∈ neighbourhood candidates) (hfresh : x ∉ old) :
    WalkLoop order (neighbourhood candidates) (Walk.start old x)
      (.ok (Walk.turns (walkOf order candidates)
        (neighbourhood candidates).keys.length (Walk.start old x))) := by
  have hclosed : Walk.Closed (walkOf order candidates) (neighbourhood candidates).keys :=
    closed_neighboursOf
  have hend := Walk.turns_queue_eq_nil hclosed hx hfresh
  rw [turns_eq_iterate] at hend ⊢
  have hturn : ∀ w, Walk.Inv (walkOf order candidates) old x w → w.queue ≠ [] →
      walkTurn order (neighbourhood candidates) w =
          .ok (Walk.turn (walkOf order candidates) w) ∧
        Walk.Inv (walkOf order candidates) old x
          (Walk.turn (walkOf order candidates) w) := by
    intro w hinv hqueue
    refine ⟨walkTurn_eq_ok hqueue ?_, Walk.inv_turn hinv⟩
    intro node hnode
    exact hclosed.reach hx
      (hinv.reach node (List.mem_append_right _ hnode))
  refine While.of_iterate hturn ?_ _ (Walk.inv_start _ hfresh) (not_not_intro hend)
  exact fun w hqueue => Walk.turn_of_queue_nil (not_not.mp hqueue)

/-- What the walks of the model have found, as the outer loop keeps it. -/
def groupingOf (order : HashOrder) (candidates : Dict String (List String))
    (found : Walk.Found String) : Grouping where
  seen := found.seen
  components := found.components.map (splitSides order candidates.keys)

/-- A turn of the outer loop is a walk of the model. -/
theorem startBody_explore {x : String} (hx : x ∈ neighbourhood candidates)
    (found : Walk.Found String) :
    StartBody order (neighbourhood candidates) candidates.keys x
      (groupingOf order candidates found)
      (.ok (groupingOf order candidates (Walk.explore (walkOf order candidates)
        (neighbourhood candidates).keys.length found x))) := by
  unfold Walk.explore
  split_ifs with hseen
  · exact .skip hseen
  · unfold groupingOf
    rw [List.map_append]
    exact .walk hseen (walkLoop_turns hx hseen)

theorem startBody_rightUnique {neighbours : Dict String (List String)}
    {aSide : List String} {start : String} :
    Relator.RightUnique (StartBody order neighbours aSide start) := by
  have hturn : Relator.RightUnique
      (fun w r => walkTurn order neighbours w = r) := by
    intro w r r' h h'
    exact h.symm.trans h'
  have hloop : Relator.RightUnique (WalkLoop order neighbours) :=
    While.rightUnique hturn
  intro g r r' h h'
  cases h with
  | skip hseen =>
      cases h' with
      | skip _ => rfl
      | walk hseen' _ => exact absurd hseen hseen'
      | raised hseen' _ => exact absurd hseen hseen'
  | walk hseen hwalk =>
      cases h' with
      | skip hseen' => exact absurd hseen' hseen
      | walk _ hwalk' =>
          obtain rfl := Except.ok.inj (hloop hwalk hwalk')
          rfl
      | raised _ hwalk' => cases hloop hwalk hwalk'
  | raised hseen hwalk =>
      cases h' with
      | skip hseen' => exact absurd hseen' hseen
      | walk _ hwalk' => cases hloop hwalk hwalk'
      | raised _ hwalk' =>
          obtain rfl := Except.error.inj (hloop hwalk hwalk')
          rfl

/-- The loops end, and lead to nothing else than the groups. -/
theorem returns_iff {r : Except PyError (List (List String × List String))} :
    ReturnsComponents order candidates r ↔
      r = .ok (connectedComponents order candidates) := by
  have hstep : ∀ x ∈ (neighbourhood candidates).keys, ∀ found, True →
      StartBody order (neighbourhood candidates) candidates.keys x
        (groupingOf order candidates found)
        (.ok (groupingOf order candidates (Walk.explore (walkOf order candidates)
          (neighbourhood candidates).keys.length found x))) ∧ True :=
    fun x hx found _ => ⟨startBody_explore hx found, trivial⟩
  have hrun := ForEach.of_foldl (t := ⟨[], []⟩) hstep trivial
  have hbody : ∀ start, Relator.RightUnique
      (StartBody order (neighbourhood candidates) candidates.keys start) :=
    fun start => startBody_rightUnique
  constructor
  · rintro ⟨g, hg, rfl⟩
    rw [ForEach.rightUnique hbody _ hg hrun]
    rfl
  · rintro rfl
    exact ⟨_, hrun, rfl⟩

end Total

section Exact

variable {order : HashOrder} {candidates : Dict String (List String)}

/-- A key or a listed id. -/
def CandidateNode (candidates : Dict String (List String)) (x : String) : Prop :=
  x ∈ candidates ∨ ∃ a, Candidate candidates a x

/-- The two ids are nodes of one connected component. -/
abbrev SameComponent (candidates : Dict String (List String)) : String → String → Prop :=
  Connected (Candidate candidates)

/-- The group has the members of the component of `x`, the keys among them first. -/
structure IsComponentOf (candidates : Dict String (List String)) (x : String)
    (group : List String × List String) : Prop where
  keys : ∀ y, y ∈ group.1 ↔ y ∈ candidates ∧ SameComponent candidates x y
  others : ∀ y, y ∈ group.2 ↔ y ∉ candidates ∧ SameComponent candidates x y

/-- The groups are the connected components of the candidate graph. -/
structure ExactComponents (candidates : Dict String (List String))
    (groups : List (List String × List String)) : Prop where
  component : ∀ group ∈ groups, group.1.Nodup ∧ group.2.Nodup ∧
    ∃ x, CandidateNode candidates x ∧ IsComponentOf candidates x group
  once : ∀ x, CandidateNode candidates x →
    ∃! i, ∃ h : i < groups.length, IsComponentOf candidates x groups[i]
  disjoint : groups.Pairwise fun g h =>
    ∀ y, y ∈ g.1 ∨ y ∈ g.2 → ¬ (y ∈ h.1 ∨ y ∈ h.2)
  cover : ∀ x, CandidateNode candidates x ↔ ∃ group ∈ groups, x ∈ group.1 ∨ x ∈ group.2
  bothSides : (∀ x ∈ candidates, ∀ a, ¬ Candidate candidates a x) →
    (∀ a ids, candidates.get? a = some ids → ids ≠ []) →
      ∀ group ∈ groups, group.1 ≠ [] ∧ group.2 ≠ []

theorem IsComponentOf.mem_iff {x y : String} {group : List String × List String}
    (h : IsComponentOf candidates x group) :
    y ∈ group.1 ∨ y ∈ group.2 ↔ SameComponent candidates x y := by
  rw [h.keys y, h.others y, ← or_and_right]
  exact and_iff_right (em _)

/-- A component is that of each of its members. -/
theorem IsComponentOf.of_connected {x y : String} {group : List String × List String}
    (h : IsComponentOf candidates x group) (hxy : SameComponent candidates x y) :
    IsComponentOf candidates y group := by
  have hsame : ∀ z, SameComponent candidates x z ↔ SameComponent candidates y z :=
    fun z => ⟨hxy.symm.trans, hxy.trans⟩
  exact ⟨fun z => by rw [h.keys, hsame], fun z => by rw [h.others, hsame]⟩

theorem candidateNode_of_connected {x y : String} (hx : CandidateNode candidates x)
    (h : SameComponent candidates x y) :
    CandidateNode candidates y := by
  induction h with
  | refl => exact hx
  | tail _ hlink _ =>
      rcases hlink with h | ⟨ids, hids, -⟩
      · exact Or.inr ⟨_, h⟩
      · exact Or.inl (Dict.mem_of_get? hids)

theorem isComponentOf_connectedComponents {group : List String × List String}
    (h : group ∈ connectedComponents order candidates) :
    group.1.Nodup ∧ group.2.Nodup ∧
      ∃ x, CandidateNode candidates x ∧ IsComponentOf candidates x group := by
  obtain ⟨hfst, hsnd, x, hx, hkeys, hothers⟩ := mem_connectedComponents h
  exact ⟨hfst, hsnd, x, mem_neighbourhood.mp hx, hkeys, hothers⟩

/-- No id is in two groups. -/
theorem pairwise_connectedComponents (order : HashOrder)
    (candidates : Dict String (List String)) :
    (connectedComponents order candidates).Pairwise fun g h =>
      ∀ y, y ∈ g.1 ∨ y ∈ g.2 → ¬ (y ∈ h.1 ∨ y ∈ h.2) := by
  have hfst := (List.nodup_flatMap.mp (flatMap_fst_nodup order candidates)).2
  have hsnd := (List.nodup_flatMap.mp (flatMap_snd_nodup order candidates)).2
  refine (hfst.and hsnd).imp_of_mem ?_
  rintro g h hg hh ⟨hfst, hsnd⟩ y hy hy'
  obtain ⟨-, -, x, -, hgx⟩ := isComponentOf_connectedComponents hg
  obtain ⟨-, -, x', -, hhx⟩ := isComponentOf_connectedComponents hh
  rcases hy with hy | hy <;> rcases hy' with hy' | hy'
  · exact hfst hy hy'
  · exact ((hhx.others y).mp hy').1 ((hgx.keys y).mp hy).1
  · exact ((hgx.others y).mp hy).1 ((hhx.keys y).mp hy').1
  · exact hsnd hy hy'

/-- The component of each node is in the list. -/
theorem exists_isComponentOf (order : HashOrder) {x : String}
    (hx : CandidateNode candidates x) :
    ∃ group ∈ connectedComponents order candidates, IsComponentOf candidates x group := by
  obtain ⟨group, hgroup, hkey, hother⟩ :=
    exists_group order (mem_neighbourhood.mpr hx)
  obtain ⟨-, -, x', -, h⟩ := isComponentOf_connectedComponents hgroup
  refine ⟨group, hgroup, h.of_connected (h.mem_iff.mp ?_)⟩
  by_cases hmem : x ∈ candidates
  · exact Or.inl (hkey hmem)
  · exact Or.inr (hother hmem)

/-- A component without an isolated key has members on both sides. -/
theorem IsComponentOf.bothSides {x : String} {group : List String × List String}
    (h : IsComponentOf candidates x group) (hx : CandidateNode candidates x)
    (hdisjoint : ∀ x ∈ candidates, ∀ a, ¬ Candidate candidates a x)
    (hlists : ∀ a ids, candidates.get? a = some ids → ids ≠ []) :
    group.1 ≠ [] ∧ group.2 ≠ [] := by
  have hpair : ∃ a b, Candidate candidates a b ∧ SameComponent candidates x a ∧
      SameComponent candidates x b := by
    rcases hx with hx | ⟨a, ha⟩
    · obtain ⟨ids, hids⟩ := Dict.exists_get?_of_mem hx
      obtain ⟨b, hb⟩ := List.exists_mem_of_ne_nil ids (hlists x ids hids)
      have hcand : Candidate candidates x b := ⟨ids, hids, hb⟩
      exact ⟨x, b, hcand, .refl, .single (Or.inl hcand)⟩
    · exact ⟨a, x, ha, .single (Or.inr ha), .refl⟩
  obtain ⟨a, b, hcand, ha, hb⟩ := hpair
  have hkey : a ∈ candidates := by
    obtain ⟨ids, hids, -⟩ := hcand
    exact Dict.mem_of_get? hids
  have hother : b ∉ candidates := fun hb => hdisjoint b hb a hcand
  exact ⟨List.ne_nil_of_mem ((h.keys a).mpr ⟨hkey, ha⟩),
    List.ne_nil_of_mem ((h.others b).mpr ⟨hother, hb⟩)⟩

/-- The loops of `_connected_components` end without an error, whatever the mapping and
the orders of iteration, and what they return are the connected components. -/
theorem connectedComponents_exact (order : HashOrder)
    (candidates : Dict String (List String)) :
    ∃ groups, (∀ r, ReturnsComponents order candidates r ↔ r = .ok groups) ∧
      ExactComponents candidates groups := by
  refine ⟨connectedComponents order candidates, fun r => returns_iff, ?_⟩
  have hdisjoint := pairwise_connectedComponents order candidates
  exact
    { component := fun group => isComponentOf_connectedComponents
      once := by
        intro x hx
        obtain ⟨group, hgroup, hcomponent⟩ := exists_isComponentOf order hx
        obtain ⟨i, hi, rfl⟩ := List.getElem_of_mem hgroup
        refine ⟨i, ⟨hi, hcomponent⟩, ?_⟩
        rintro j ⟨hj, hcomponent'⟩
        have hx := hcomponent.mem_iff.mpr .refl
        have hx' := hcomponent'.mem_iff.mpr .refl
        rcases Nat.lt_trichotomy j i with hlt | heq | hgt
        · exact absurd hx (List.pairwise_iff_getElem.mp hdisjoint j i hj hi hlt x hx')
        · exact heq
        · exact absurd hx' (List.pairwise_iff_getElem.mp hdisjoint i j hi hj hgt x hx)
      disjoint := hdisjoint
      cover := by
        intro x
        constructor
        · intro hx
          obtain ⟨group, hgroup, hcomponent⟩ := exists_isComponentOf order hx
          exact ⟨group, hgroup, hcomponent.mem_iff.mpr .refl⟩
        · rintro ⟨group, hgroup, hx⟩
          obtain ⟨-, -, x', hx', h⟩ := isComponentOf_connectedComponents hgroup
          exact candidateNode_of_connected hx' (h.mem_iff.mp hx)
      bothSides := by
        intro hkeys hlists group hgroup
        obtain ⟨-, -, x, hx, h⟩ := isComponentOf_connectedComponents hgroup
        exact h.bothSides hx hkeys hlists }

end Exact

end VectorMapChanges
