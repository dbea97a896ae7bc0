import VectorMapChanges.Lib.Walk
import VectorMapChanges.Matching.Candidates

/-!
# Connected components of the candidate mapping

The candidate mapping lists edges from one side only.  The walk needs them from
both sides, so the code first builds a dictionary of neighbour sets; a node is
on the A side when it is a key of the mapping.

Main facts:
* `mem_neighboursOf_neighbourhood`: the neighbour sets are the candidate pairs,
  read both ways;
* `mem_connectedComponents`: a group is one component, split by side;
* `flatMap_fst_nodup`, `flatMap_snd_nodup`, `exists_group`: every node is in
  exactly one group.
-/

namespace VectorMapChanges

open Lib

/-- `neighbours.setdefault(k, set()).update(xs)` -/
def addNeighbours (neighbours : Dict String (List String)) (k : String)
    (xs : List String) : Dict String (List String) :=
  neighbours.set k ((neighbours.get? k).getD [] ++ xs)

/-- Enter the pairs of one candidate entry from both of their ends. -/
def linkEntry (neighbours : Dict String (List String))
    (entry : String × List String) : Dict String (List String) :=
  entry.2.foldl (fun ns bId => addNeighbours ns bId [entry.1])
    (addNeighbours neighbours entry.1 entry.2)

/-- The neighbour sets of all candidate entries. -/
def neighbourhood (candidates : Dict String (List String)) :
    Dict String (List String) :=
  candidates.items.foldl linkEntry Dict.empty

/-- `neighbours[node]`.  Every node that is walked to is a key, see
`closed_neighboursOf`, so that the subscript does not raise. -/
def neighboursOf (neighbours : Dict String (List String)) (node : String) :
    List String :=
  (neighbours.get? node).getD []

/-- The keys of the mapping among the members of a component, and the other
members. -/
def splitSides (order : HashOrder) (aSide found : List String) :
    List String × List String :=
  let members := order.iter .members found
  (members.filter (· ∈ aSide), members.filter (· ∉ aSide))

/-- The groups of ids that candidate pairs connect, split by side. -/
def connectedComponents (order : HashOrder)
    (candidates : Dict String (List String)) :
    List (List String × List String) :=
  let neighbours := neighbourhood candidates
  let aSide := candidates.keys
  let walk := fun node => order.iter .neighbours (neighboursOf neighbours node)
  (Walk.components walk neighbours.keys).map (splitSides order aSide)

/-- The two ids form a candidate pair, in either order. -/
def Linked (cand : String → String → Prop) (x y : String) : Prop :=
  cand x y ∨ cand y x

/-- A chain of candidate pairs joins the two ids. -/
abbrev Connected (cand : String → String → Prop) : String → String → Prop :=
  Relation.ReflTransGen (Linked cand)

theorem Linked.symm {cand : String → String → Prop} {x y : String}
    (h : Linked cand x y) :
    Linked cand y x :=
  Or.symm h

theorem Connected.symm {cand : String → String → Prop} {x y : String}
    (h : Connected cand x y) :
    Connected cand y x := by
  induction h with
  | refl => exact Relation.ReflTransGen.refl
  | tail _ hstep ih => exact ih.head hstep.symm

section Neighbourhood

variable {neighbours : Dict String (List String)}

theorem mem_addNeighbours {k x : String} {xs : List String} :
    x ∈ addNeighbours neighbours k xs ↔ x ∈ neighbours ∨ x = k :=
  Dict.mem_set

theorem mem_neighboursOf_addNeighbours {k x y : String} {xs : List String} :
    y ∈ neighboursOf (addNeighbours neighbours k xs) x ↔
      y ∈ neighboursOf neighbours x ∨ (x = k ∧ y ∈ xs) := by
  unfold neighboursOf addNeighbours
  rw [Dict.get?_set]
  by_cases hx : x = k
  · subst hx
    simp
  · simp [hx]

theorem mem_foldl_addNeighbours {a x : String} (bs : List String) :
    x ∈ bs.foldl (fun ns b => addNeighbours ns b [a]) neighbours ↔
      x ∈ neighbours ∨ x ∈ bs := by
  induction bs generalizing neighbours with
  | nil => simp
  | cons b bs ih =>
      rw [List.foldl_cons, ih, mem_addNeighbours, List.mem_cons, or_assoc]

theorem mem_neighboursOf_foldl_addNeighbours {a x y : String}
    (bs : List String) :
    y ∈ neighboursOf
        (bs.foldl (fun ns b => addNeighbours ns b [a]) neighbours) x ↔
      y ∈ neighboursOf neighbours x ∨ (x ∈ bs ∧ y = a) := by
  induction bs generalizing neighbours with
  | nil => simp
  | cons b bs ih =>
      rw [List.foldl_cons, ih, mem_neighboursOf_addNeighbours]
      simp only [List.mem_cons, List.not_mem_nil, or_false]
      tauto

theorem mem_linkEntry {entry : String × List String} {x : String} :
    x ∈ linkEntry neighbours entry ↔
      x ∈ neighbours ∨ x = entry.1 ∨ x ∈ entry.2 := by
  rw [linkEntry, mem_foldl_addNeighbours, mem_addNeighbours, or_assoc]

theorem mem_neighboursOf_linkEntry {entry : String × List String}
    {x y : String} :
    y ∈ neighboursOf (linkEntry neighbours entry) x ↔
      y ∈ neighboursOf neighbours x ∨
        (x = entry.1 ∧ y ∈ entry.2) ∨ (x ∈ entry.2 ∧ y = entry.1) := by
  rw [linkEntry, mem_neighboursOf_foldl_addNeighbours,
    mem_neighboursOf_addNeighbours, or_assoc]

theorem mem_foldl_linkEntry {x : String} (entries : List (String × List String)) :
    x ∈ entries.foldl linkEntry neighbours ↔
      x ∈ neighbours ∨ ∃ entry ∈ entries, x = entry.1 ∨ x ∈ entry.2 := by
  induction entries generalizing neighbours with
  | nil => simp
  | cons entry entries ih =>
      rw [List.foldl_cons, ih, mem_linkEntry]
      simp [or_assoc]

theorem mem_neighboursOf_foldl_linkEntry {x y : String}
    (entries : List (String × List String)) :
    y ∈ neighboursOf (entries.foldl linkEntry neighbours) x ↔
      y ∈ neighboursOf neighbours x ∨
        ∃ entry ∈ entries,
          (x = entry.1 ∧ y ∈ entry.2) ∨ (x ∈ entry.2 ∧ y = entry.1) := by
  induction entries generalizing neighbours with
  | nil => simp
  | cons entry entries ih =>
      rw [List.foldl_cons, ih, mem_neighboursOf_linkEntry]
      simp [or_assoc]

end Neighbourhood

section Components

variable {candidates : Dict String (List String)}

/-- The nodes of the walk are the keys and the listed ids. -/
theorem mem_neighbourhood {x : String} :
    x ∈ neighbourhood candidates ↔
      x ∈ candidates ∨ ∃ a, Candidate candidates a x := by
  rw [neighbourhood, mem_foldl_linkEntry]
  constructor
  · rintro (h | ⟨⟨a, bs⟩, hitem, rfl | hb⟩)
    · simp at h
    · exact Or.inl (Dict.mem_of_item hitem)
    · exact Or.inr ⟨a, bs, Dict.get?_eq_some_iff.mpr hitem, hb⟩
  · rintro (h | ⟨a, bs, hbs, hb⟩)
    · obtain ⟨bs, hitem⟩ := Dict.mem_iff_exists_item.mp h
      exact Or.inr ⟨(x, bs), hitem, Or.inl rfl⟩
    · exact Or.inr ⟨(a, bs), Dict.get?_eq_some_iff.mp hbs, Or.inr hb⟩

/-- The neighbour sets are the candidate pairs, read both ways. -/
theorem mem_neighboursOf_neighbourhood {x y : String} :
    y ∈ neighboursOf (neighbourhood candidates) x ↔
      Linked (Candidate candidates) x y := by
  rw [neighbourhood, mem_neighboursOf_foldl_linkEntry]
  constructor
  · rintro (h | ⟨⟨a, bs⟩, hitem, ⟨rfl, hy⟩ | ⟨hx, rfl⟩⟩)
    · simp [neighboursOf] at h
    · exact Or.inl ⟨bs, Dict.get?_eq_some_iff.mpr hitem, hy⟩
    · exact Or.inr ⟨bs, Dict.get?_eq_some_iff.mpr hitem, hx⟩
  · rintro (⟨bs, hbs, hy⟩ | ⟨bs, hbs, hx⟩)
    · exact Or.inr
        ⟨(x, bs), Dict.get?_eq_some_iff.mp hbs, Or.inl ⟨rfl, hy⟩⟩
    · exact Or.inr
        ⟨(y, bs), Dict.get?_eq_some_iff.mp hbs, Or.inr ⟨hx, rfl⟩⟩

variable {order : HashOrder}

theorem symmetric_neighboursOf (order : HashOrder)
    (candidates : Dict String (List String)) :
    Walk.Symmetric (fun node =>
      order.iter .neighbours (neighboursOf (neighbourhood candidates) node)) := by
  intro x y h
  rw [HashOrder.mem_iter, mem_neighboursOf_neighbourhood] at h ⊢
  exact h.symm

/-- Every neighbour is itself a key of the neighbour dictionary. -/
theorem closed_neighboursOf :
    Walk.Closed (fun node =>
        order.iter .neighbours (neighboursOf (neighbourhood candidates) node))
      (neighbourhood candidates).keys := by
  intro x _ y hy
  rw [HashOrder.mem_iter, mem_neighboursOf_neighbourhood] at hy
  rw [← Dict.mem_def, mem_neighbourhood]
  rcases hy with h | ⟨bs, hbs, -⟩
  · exact Or.inr ⟨x, h⟩
  · exact Or.inl (Dict.mem_of_get? hbs)

theorem reach_iff_connected {x y : String} :
    Walk.Reach (fun node =>
        order.iter .neighbours (neighboursOf (neighbourhood candidates) node))
      x y ↔ Connected (Candidate candidates) x y := by
  have hnext : Walk.Next (fun node =>
        order.iter .neighbours (neighboursOf (neighbourhood candidates) node)) =
      Linked (Candidate candidates) := by
    funext u v
    rw [Walk.Next, HashOrder.mem_iter]
    exact propext mem_neighboursOf_neighbourhood
  rw [Walk.Reach, hnext]

theorem mem_splitSides_fst {aSide found : List String} {y : String} :
    y ∈ (splitSides order aSide found).1 ↔ y ∈ aSide ∧ y ∈ found := by
  simp [splitSides, and_comm]

theorem mem_splitSides_snd {aSide found : List String} {y : String} :
    y ∈ (splitSides order aSide found).2 ↔ y ∉ aSide ∧ y ∈ found := by
  simp [splitSides, and_comm]

theorem splitSides_nodup (aSide found : List String) :
    (splitSides order aSide found).1.Nodup ∧
      (splitSides order aSide found).2.Nodup :=
  ⟨(order.nodup_iter _ _).filter _, (order.nodup_iter _ _).filter _⟩

/-- A group is one component, split into keys and other members. -/
theorem mem_connectedComponents {group : List String × List String}
    (h : group ∈ connectedComponents order candidates) :
    group.1.Nodup ∧ group.2.Nodup ∧
      ∃ x ∈ neighbourhood candidates,
        (∀ y, y ∈ group.1 ↔
          y ∈ candidates ∧ Connected (Candidate candidates) x y) ∧
        (∀ y, y ∈ group.2 ↔
          y ∉ candidates ∧ Connected (Candidate candidates) x y) := by
  obtain ⟨found, hfound, rfl⟩ := List.mem_map.mp h
  obtain ⟨x, hx, hmem⟩ :=
    Walk.mem_components (symmetric_neighboursOf order candidates)
      closed_neighboursOf hfound
  refine ⟨(splitSides_nodup _ _).1, (splitSides_nodup _ _).2, x, hx, ?_, ?_⟩
  · intro y
    rw [mem_splitSides_fst, hmem y, reach_iff_connected, Dict.mem_def]
  · intro y
    rw [mem_splitSides_snd, hmem y, reach_iff_connected, Dict.mem_def]

/-- Every node is in a group, on its own side. -/
theorem exists_group (order : HashOrder) {x : String} (hx : x ∈ neighbourhood candidates) :
    ∃ group ∈ connectedComponents order candidates,
      (x ∈ candidates → x ∈ group.1) ∧ (x ∉ candidates → x ∈ group.2) := by
  obtain ⟨found, hfound, hxf⟩ := Walk.exists_component
    (symmetric_neighboursOf order candidates) closed_neighboursOf hx
  exact ⟨_, List.mem_map_of_mem hfound,
    fun h => mem_splitSides_fst.mpr ⟨h, hxf⟩,
    fun h => mem_splitSides_snd.mpr ⟨h, hxf⟩⟩

/-- A side of the groups that takes each id from its own component lists no id
twice. -/
theorem flatMap_side_nodup (side : List String × List String → List String)
    (hside : ∀ found,
      (side (splitSides order candidates.keys found)).Nodup ∧
      ∀ y ∈ side (splitSides order candidates.keys found), y ∈ found) :
    ((connectedComponents order candidates).flatMap side).Nodup := by
  have hflat := Walk.flatten_components_nodup
    (symmetric_neighboursOf order candidates) closed_neighboursOf
  obtain ⟨-, hdisj⟩ := List.nodup_flatten.mp hflat
  rw [connectedComponents, List.flatMap_map]
  refine List.nodup_flatMap.mpr ⟨fun found _ => (hside found).1, ?_⟩
  refine hdisj.imp ?_
  intro c d hcd x hx hx'
  exact hcd ((hside c).2 x hx) ((hside d).2 x hx')

/-- The A sides of the groups list no id twice. -/
theorem flatMap_fst_nodup (order : HashOrder)
    (candidates : Dict String (List String)) :
    ((connectedComponents order candidates).flatMap Prod.fst).Nodup :=
  flatMap_side_nodup Prod.fst (fun found =>
    ⟨(splitSides_nodup _ found).1, fun _ hy => (mem_splitSides_fst.mp hy).2⟩)

/-- The B sides of the groups list no id twice. -/
theorem flatMap_snd_nodup (order : HashOrder)
    (candidates : Dict String (List String)) :
    ((connectedComponents order candidates).flatMap Prod.snd).Nodup :=
  flatMap_side_nodup Prod.snd (fun found =>
    ⟨(splitSides_nodup _ found).2, fun _ hy => (mem_splitSides_snd.mp hy).2⟩)

end Components

end VectorMapChanges
