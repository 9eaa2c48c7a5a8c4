import Lumos.AI.PathGraph
import Lumos.Library.Loop
import Lumos.Library.ParentLinks

/-!
# `AStar::FindPath`

The search state, the open list with its commented-out heap operations, one turn
of the main loop and the walk back along the parent links, as the source has them.
-/
namespace Lumos.AI

open Relation Loop ParentLinks

variable {ν K : Type}

/-- The scores kept for one node of the node list. -/
structure QueueablePathNode (ν K : Type) where
  parent : Option ν
  fScore : K
  gScore : K

/-- `m_NodeData` holds one entry for each node of the constructor's node list. -/
structure AStar (ν K : Type) where
  nodeData : ν → QueueablePathNode ν K
  openList : List ν
  closedList : List ν
  path : List ν

namespace PathNodePriorityQueue

/-- `push_back`; the `push_heap` call is commented out. -/
def push (queue : List ν) (item : ν) : List ν := queue ++ [item]

/-- `pop_back`; the `pop_heap` call is commented out. -/
def pop (queue : List ν) : List ν := queue.dropLast

/-- `front`, absent on the empty queue. -/
def top (queue : List ν) : Option ν := queue.head?

/-- The `make_heap` call is commented out. -/
def update (queue : List ν) : List ν := queue

end PathNodePriorityQueue

namespace AStar

def parentOf (a : AStar ν K) (n : ν) : Option ν := (a.nodeData n).parent

def gScoreOf (a : AStar ν K) (n : ν) : K := (a.nodeData n).gScore

/-- `m_ClosedList.back()->gScore` -/
def pathCost (a : AStar ν K) : Option K := a.closedList.getLast?.map a.gScoreOf

/-- Take `p` off the open list, leaving `rest`, and put it on the closed list. -/
def close (a : AStar ν K) (p : ν) (rest : List ν) : AStar ν K :=
  { a with openList := rest, closedList := a.closedList ++ [p] }

/-- One turn of `while (n)`: the node reached so far and the path collected. -/
def pathBody (a : AStar ν K) : Body (Option ν × List ν) (List ν) := fun s =>
  match s.1 with
  | none => some (.inr s.2)
  | some n => some (.inl (a.parentOf n, s.2 ++ [n]))

variable [DecidableEq ν]

/-- The new scores of `q`, reached from `p`. -/
def score (a : AStar ν K) (p q : ν) (fScore gScore : K) : AStar ν K :=
  { a with nodeData := Function.update a.nodeData q ⟨some p, fScore, gScore⟩ }

section Score

variable (a : AStar ν K) (p q : ν) (f g : K)

@[simp] theorem parentOf_score : (a.score p q f g).parentOf = Function.update a.parentOf q (some p) := by
  funext n
  by_cases hn : n = q
  · subst hn; simp [parentOf, score]
  · simp [parentOf, score, hn]

@[simp] theorem gScoreOf_score : (a.score p q f g).gScoreOf = Function.update a.gScoreOf q g := by
  funext n
  by_cases hn : n = q
  · subst hn; simp [gScoreOf, score]
  · simp [gScoreOf, score, hn]

end Score

variable [Score K]

/-- The constructor over a node list. -/
def create : AStar ν K where
  nodeData := fun _ => ⟨none, Score.floatMax, Score.floatMax⟩
  openList := []
  closedList := []
  path := []

def reset (a : AStar ν K) : AStar ν K :=
  { a with
    nodeData := fun _ => ⟨none, Score.floatMax, Score.floatMax⟩
    openList := []
    closedList := []
    path := [] }

/-- Reset, then the start node alone on the open list. -/
def begin (G : PathGraph ν K) (a : AStar ν K) (start goal : ν) : AStar ν K :=
  { a.reset with
    nodeData := Function.update a.reset.nodeData start ⟨none, G.heuristicValue start goal, 0⟩
    openList := PathNodePriorityQueue.push a.reset.openList start }

/-- One connection of the node being expanded. A foreign edge would look up the
null pointer in `m_NodeData`. -/
def relax (G : PathGraph ν K) (goal p : ν) (a : AStar ν K) (pq : PathEdge ν K) :
    Option (AStar ν K) :=
  if pq.traversable = false then some a
  else
    match pq.otherNode p with
    | none => none
    | some q =>
      let gScore := a.gScoreOf p + pq.cost
      let fScore := gScore + G.heuristicValue q goal
      if q ∈ a.closedList ∨ q ∈ a.openList then
        if gScore < a.gScoreOf q then
          some { a.score p q fScore gScore with
            openList := PathNodePriorityQueue.update a.openList }
        else some a
      else
        some { a.score p q fScore gScore with
          openList := PathNodePriorityQueue.push a.openList q }

/-- One turn of `while (!m_OpenList.empty())`. -/
def searchBody (G : PathGraph ν K) (goal : ν) : Body (AStar ν K) (Bool × AStar ν K) := fun a =>
  match PathNodePriorityQueue.top a.openList with
  | none => some (.inr (false, a))
  | some p =>
    let a := a.close p (PathNodePriorityQueue.pop a.openList)
    if p = goal then some (.inr (true, a))
    else ((G.connections p).foldlM (relax G goal p) a).map .inl

/-- `FindPath` with at most `fuel` turns for each of its two loops. -/
def findPath (fuel : Nat) (G : PathGraph ν K) (a : AStar ν K) (start goal : ν) :
    Option (Bool × AStar ν K) :=
  match run (searchBody G goal) fuel (a.begin G start goal) with
  | none => none
  | some (false, a) => some (false, a)
  | some (true, a) =>
    (run (pathBody a) fuel (a.closedList.getLast?, a.path)).map fun path =>
      (true, { a with path := path.reverse })

section Step

variable {G : PathGraph ν K} {goal p : ν} {a a' : AStar ν K}

/-- All that relaxing one connection can do. -/
theorem relax_cases {pq : PathEdge ν K} (h : relax G goal p a pq = some a') :
    (pq.traversable = false ∧ a' = a) ∨
    ∃ q, pq.traversable = true ∧ pq.otherNode p = some q ∧
      (((q ∈ a.closedList ∨ q ∈ a.openList) ∧ ¬ a.gScoreOf p + pq.cost < a.gScoreOf q ∧ a' = a) ∨
       ((q ∈ a.closedList ∨ q ∈ a.openList) ∧ a.gScoreOf p + pq.cost < a.gScoreOf q ∧
          a' = a.score p q (a.gScoreOf p + pq.cost + G.heuristicValue q goal)
            (a.gScoreOf p + pq.cost)) ∨
       (q ∉ a.closedList ∧ q ∉ a.openList ∧
          a' = { a.score p q (a.gScoreOf p + pq.cost + G.heuristicValue q goal)
            (a.gScoreOf p + pq.cost) with openList := a.openList ++ [q] })) := by
  cases ht : pq.traversable with
  | false => exact .inl ⟨rfl, by simpa [relax, ht] using h.symm⟩
  | true =>
    cases ho : pq.otherNode p with
    | none => simp [relax, ht, ho] at h
    | some q =>
      refine .inr ⟨q, rfl, rfl, ?_⟩
      simp only [relax, ht, ho, Bool.true_eq_false, if_false] at h
      split at h
      · next hseen =>
        split at h
        · next hlt => exact .inr (.inl ⟨hseen, hlt, (Option.some.inj h).symm⟩)
        · next hlt => exact .inl ⟨hseen, hlt, (Option.some.inj h).symm⟩
      · next hseen =>
        rw [not_or] at hseen
        exact .inr (.inr ⟨hseen.1, hseen.2, (Option.some.inj h).symm⟩)

/-- Relaxing a connection of the node itself never faults. -/
theorem relax_isSome {pq : PathEdge ν K} (h : pq ∈ G.connections p) :
    ∃ a', relax G goal p a pq = some a' := by
  obtain ⟨q, hq⟩ := PathGraph.otherNode_connections h
  unfold relax
  split
  · exact ⟨_, rfl⟩
  · rw [hq]
    dsimp only
    split
    · split <;> exact ⟨_, rfl⟩
    · exact ⟨_, rfl⟩

/-- Expanding a node never faults. -/
theorem expand_isSome (G : PathGraph ν K) (goal p : ν) (a : AStar ν K) :
    ∃ a', (G.connections p).foldlM (relax G goal p) a = some a' := by
  have h := foldlM_isSome (f := relax G goal p) (fun _ => True) (G.connections p)
    (by
      intro pq hpq b _
      obtain ⟨c, hc⟩ : ∃ c, relax G goal p b pq = some c := relax_isSome hpq
      exact ⟨c, hc, trivial⟩) (b := a) trivial
  obtain ⟨a', ha', _⟩ := h
  exact ⟨a', ha'⟩

end Step

/-! ## Results -/

section Results

variable {G : PathGraph ν K} {a a' : AStar ν K} {start goal : ν}

/-- An unsuccessful result is one of the search loop alone. -/
theorem findPath_false_iff :
    (∃ fuel, findPath fuel G a start goal = some (false, a')) ↔
      Returns (searchBody G goal) (a.begin G start goal) (false, a') := by
  constructor
  · intro h
    obtain ⟨fuel, h⟩ := h
    refine ⟨fuel, ?_⟩
    unfold findPath at h
    split at h
    · cases h
    · next hr => rw [hr]; exact h
    · simp at h
  · intro h
    obtain ⟨fuel, h⟩ := h
    exact ⟨fuel, by simp [findPath, h]⟩

/-- A successful result comes from both loops, each within its own turns. -/
theorem findPath_true_iff :
    (∃ fuel, findPath fuel G a start goal = some (true, a')) ↔
      ∃ s path, Returns (searchBody G goal) (a.begin G start goal) (true, s) ∧
        Returns (pathBody s) (s.closedList.getLast?, s.path) path ∧
        a' = { s with path := path.reverse } := by
  constructor
  · intro h
    obtain ⟨fuel, h⟩ := h
    unfold findPath at h
    split at h
    · cases h
    · cases h
    · next s hr =>
      obtain ⟨path, hpath, he⟩ := Option.map_eq_some_iff.mp h
      exact ⟨s, path, ⟨fuel, hr⟩, ⟨fuel, hpath⟩, (Prod.mk.inj he).2.symm⟩
  · intro h
    obtain ⟨s, path, ⟨m, hm⟩, ⟨n, hn⟩, rfl⟩ := h
    refine ⟨max m n, ?_⟩
    have hsearch := run_mono (Nat.le_max_left m n) hm
    have hpath := run_mono (Nat.le_max_right m n) hn
    simp [findPath, hsearch, hpath]

end Results

/-! ## The walk back along the parent links -/

omit [Score K] [DecidableEq ν] in
/-- From a node whose way up ends, the path loop collects exactly its ascent. -/
theorem pathBody_returns {a : AStar ν K} {n : ν} {up : List ν} (h : Ascent a.parentOf n up)
    (path : List ν) : Returns (pathBody a) (some n, path) (path ++ up) := by
  induction h generalizing path with
  | @root n hn =>
    have hturn : Turn (pathBody a) (some n, path) (none, path ++ [n]) := by
      simp only [Turn, pathBody, hn]
    rw [returns_turn_iff hturn]
    exact returns_of_leave rfl
  | @link n m up hl _ ih =>
    have hturn : Turn (pathBody a) (some n, path) (some m, path ++ [n]) := by
      simp only [Turn, pathBody, hl]
    rw [returns_turn_iff hturn]
    simpa using ih (path ++ [n])

end AStar

end Lumos.AI
