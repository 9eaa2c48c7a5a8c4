import Mathlib.Data.List.Basic
import Mathlib.Logic.Relation
import Mathlib.Order.Defs.LinearOrder
import Mathlib.Algebra.Order.Ring.Rat
import Mathlib.Algebra.Field.Rat

/-!
# Path nodes and edges

The graph that `AStar` searches: nodes are the `PathNode`s of its node list, and
every `PathEdge` enters itself into the connection lists of both of its ends.
-/
namespace Lumos.AI

open Relation

/-- The numbers scores are made of, in the order the search adds them up. Exact
arithmetic satisfies the two laws, and so does `float` on the values a search meets,
since rounding is monotone. -/
class Score (K : Type) extends LinearOrder K, Zero K, Add K, Mul K where
  /-- `std::numeric_limits<float>::max()` -/
  floatMax : K
  add_le_add_left_score : ∀ a b c : K, a ≤ b → a + c ≤ b + c
  le_add_score : ∀ a c : K, 0 ≤ c → a ≤ a + c

export Score (add_le_add_left_score le_add_score)

instance : Score ℚ where
  floatMax := 340282346638528859811704183484516925440
  add_le_add_left_score := fun _ _ c h => add_le_add h (le_refl c)
  le_add_score := fun _ _ h => le_add_of_nonneg_right h

structure PathEdge (ν K : Type) where
  nodeA : ν
  nodeB : ν
  traversable : Bool
  staticCost : K
  weight : K
  deriving DecidableEq

/-- A new edge is traversable and has weight one. -/
def PathEdge.create {ν K : Type} [One K] (a b : ν) (staticCost : K) : PathEdge ν K where
  nodeA := a
  nodeB := b
  traversable := true
  staticCost := staticCost
  weight := 1

variable {ν K : Type} [DecidableEq ν]

def PathEdge.cost [Mul K] (e : PathEdge ν K) : K := e.staticCost * e.weight

/-- `none` is the null pointer of an edge asked for the other end of a foreign node. -/
def PathEdge.otherNode (e : PathEdge ν K) (node : ν) : Option ν :=
  if node = e.nodeA then some e.nodeB
  else if node = e.nodeB then some e.nodeA
  else none

/-- The edges in the order they were constructed, over the nodes in `AStar`'s list. -/
structure PathGraph (ν K : Type) where
  edges : List (PathEdge ν K)
  heuristicValue : ν → ν → K

/-- `m_connections`: the constructor of an edge pushes it to both ends, the first
end first. -/
def PathGraph.connections (G : PathGraph ν K) (node : ν) : List (PathEdge ν K) :=
  G.edges.flatMap fun e =>
    (if e.nodeA = node then [e] else []) ++ (if e.nodeB = node then [e] else [])

theorem PathEdge.otherNode_eq_some {e : PathEdge ν K} {a b : ν} :
    e.otherNode a = some b ↔ (e.nodeA = a ∧ e.nodeB = b) ∨ (e.nodeA ≠ a ∧ e.nodeB = a ∧ e.nodeA = b) := by
  unfold PathEdge.otherNode
  split
  · next h => subst h; simp
  · next h =>
    split
    · next h' => subst h'; simp [Ne.symm h]
    · next h' => simp [Ne.symm h, Ne.symm h']

theorem PathGraph.mem_connections {G : PathGraph ν K} {node : ν} {e : PathEdge ν K} :
    e ∈ G.connections node ↔ e ∈ G.edges ∧ (e.nodeA = node ∨ e.nodeB = node) := by
  simp only [PathGraph.connections, List.mem_flatMap, List.mem_append]
  constructor
  · rintro ⟨d, hd, h | h⟩
    · by_cases hn : d.nodeA = node
      · simp only [hn, if_true, List.mem_singleton] at h; subst h; exact ⟨hd, .inl hn⟩
      · simp [hn] at h
    · by_cases hn : d.nodeB = node
      · simp only [hn, if_true, List.mem_singleton] at h; subst h; exact ⟨hd, .inr hn⟩
      · simp [hn] at h
  · rintro ⟨he, h | h⟩
    · exact ⟨e, he, .inl (by simp [h])⟩
    · exact ⟨e, he, .inr (by simp [h])⟩

/-- An edge on a node's own connection list always has another end. -/
theorem PathGraph.otherNode_connections {G : PathGraph ν K} {node : ν} {e : PathEdge ν K}
    (h : e ∈ G.connections node) : ∃ b, e.otherNode node = some b := by
  obtain ⟨_, hA | hB⟩ := PathGraph.mem_connections.mp h
  · exact ⟨e.nodeB, PathEdge.otherNode_eq_some.mpr (.inl ⟨hA, rfl⟩)⟩
  · by_cases hA : e.nodeA = node
    · exact ⟨e.nodeB, PathEdge.otherNode_eq_some.mpr (.inl ⟨hA, rfl⟩)⟩
    · exact ⟨e.nodeA, PathEdge.otherNode_eq_some.mpr (.inr ⟨hA, hB, rfl⟩)⟩

/-- A traversable edge leads from `a` to `b`. -/
def PathGraph.Adjacent (G : PathGraph ν K) (a b : ν) : Prop :=
  ∃ e ∈ G.connections a, e.traversable = true ∧ e.otherNode a = some b

theorem PathGraph.Adjacent.symm {G : PathGraph ν K} {a b : ν} (h : G.Adjacent a b) :
    G.Adjacent b a := by
  obtain ⟨e, he, ht, ho⟩ := h
  have hmem := (PathGraph.mem_connections.mp he).1
  rcases PathEdge.otherNode_eq_some.mp ho with ⟨hA, hB⟩ | ⟨hA, hB, hb⟩
  · refine ⟨e, PathGraph.mem_connections.mpr ⟨hmem, .inr hB⟩, ht, ?_⟩
    by_cases hab : a = b
    · exact PathEdge.otherNode_eq_some.mpr (.inl ⟨hA.trans hab, hB.trans hab.symm⟩)
    · exact PathEdge.otherNode_eq_some.mpr (.inr ⟨by rw [hA]; exact hab, hB, hA⟩)
  · exact ⟨e, PathGraph.mem_connections.mpr ⟨hmem, .inl hb⟩, ht,
      PathEdge.otherNode_eq_some.mpr (.inl ⟨hb, hB⟩)⟩

/-- Reachability through traversable edges. -/
def PathGraph.Reachable (G : PathGraph ν K) (a b : ν) : Prop := ReflTransGen G.Adjacent a b

/-- The other ends of a node's traversable edges, in the order of its connections. -/
def PathGraph.neighbours (G : PathGraph ν K) (node : ν) : List ν :=
  (G.connections node).filterMap fun e => if e.traversable then e.otherNode node else none

theorem PathGraph.mem_neighbours {G : PathGraph ν K} {a b : ν} :
    b ∈ G.neighbours a ↔ G.Adjacent a b := by
  simp only [PathGraph.neighbours, List.mem_filterMap, PathGraph.Adjacent]
  constructor
  · rintro ⟨e, he, h⟩
    by_cases ht : e.traversable = true
    · exact ⟨e, he, ht, by simpa [ht] using h⟩
    · simp [ht] at h
  · rintro ⟨e, he, ht, ho⟩
    exact ⟨e, he, by simp [ht, ho]⟩

/-- Every node a traversable edge leads to is an end of some edge. -/
theorem PathGraph.neighbours_subset (G : PathGraph ν K) (a : ν) :
    G.neighbours a ⊆ G.edges.flatMap fun e => [e.nodeA, e.nodeB] := by
  intro b hb
  obtain ⟨e, he, _, ho⟩ := PathGraph.mem_neighbours.mp hb
  refine List.mem_flatMap.mpr ⟨e, (PathGraph.mem_connections.mp he).1, ?_⟩
  rcases PathEdge.otherNode_eq_some.mp ho with ⟨_, h⟩ | ⟨_, _, h⟩ <;> simp [h]

section Walks

variable [Score K]

/-- The traversable walks from `a`: the nodes passed, the cost added up edge by edge
onto `base`, and the last node. -/
inductive PathGraph.Walk (G : PathGraph ν K) (a : ν) (base : K) : List ν → K → ν → Prop
  | nil : G.Walk a base [a] base a
  | snoc {nodes : List ν} {c : K} {b d : ν} {e : PathEdge ν K} :
      G.Walk a base nodes c b → e ∈ G.connections b → e.traversable = true →
      e.otherNode b = some d → G.Walk a base (nodes ++ [d]) (c + e.cost) d

variable {G : PathGraph ν K} {a b : ν} {nodes : List ν} {base c : K}

theorem PathGraph.Walk.head? (h : G.Walk a base nodes c b) : nodes.head? = some a := by
  induction h with
  | nil => rfl
  | snoc _ _ _ _ ih => simp [List.head?_append, ih]

theorem PathGraph.Walk.getLast? (h : G.Walk a base nodes c b) : nodes.getLast? = some b := by
  cases h with
  | nil => rfl
  | snoc => simp

/-- A walk goes on from where another one ends, at the cost paid so far. -/
theorem PathGraph.Walk.trans {d : ν} {nodes' : List ν} {c' : K} (h : G.Walk a base nodes c b)
    (h' : G.Walk b c nodes' c' d) : ∃ nodes'', G.Walk a base nodes'' c' d := by
  induction h' with
  | nil => exact ⟨nodes, h⟩
  | snoc _ he ht ho ih =>
    obtain ⟨nodes'', hw⟩ := ih
    exact ⟨_, hw.snoc he ht ho⟩

/-- With non-negative costs a walk never costs less than what was paid before it. -/
theorem PathGraph.Walk.base_le (hc : ∀ e ∈ G.edges, 0 ≤ e.cost) (h : G.Walk a base nodes c b) :
    base ≤ c := by
  induction h with
  | nil => exact le_refl _
  | snoc _ he _ _ ih =>
    exact le_trans ih (le_add_score _ _ (hc _ (PathGraph.mem_connections.mp he).1))

/-- `c` is the least cost of a traversable walk from `a` to `b`. -/
def PathGraph.IsMinCost (G : PathGraph ν K) (a b : ν) (c : K) : Prop :=
  (∃ nodes, G.Walk a 0 nodes c b) ∧ ∀ nodes c', G.Walk a 0 nodes c' b → c ≤ c'

/-- `HeuristicValue` never overestimates along an edge and is zero at the goal. -/
def PathGraph.Consistent (G : PathGraph ν K) (goal : ν) : Prop :=
  G.heuristicValue goal goal = 0 ∧
    ∀ a, ∀ e ∈ G.connections a, e.traversable = true → ∀ b, e.otherNode a = some b →
      G.heuristicValue a goal ≤ e.cost + G.heuristicValue b goal

end Walks

end Lumos.AI
