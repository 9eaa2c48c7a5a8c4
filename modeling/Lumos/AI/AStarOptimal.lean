import Lumos.AI.AStarFrontier
import Mathlib.Data.List.Induction

/-!
# When the path found is a cheapest one

Along a corridor there is only one way to go, so the scores recorded there are the
least costs there are. A search that succeeds has come down a corridor that ends at
the goal, or found the goal as the first new node of a junction; only there can a
detour undercut the edge it took.
-/
namespace Lumos.AI.AStar

open Relation Loop

variable {ν K : Type} [Score K] [DecidableEq ν]

/-- The edge leads from `n` to `m` and may be traversed. -/
def Direct (G : PathGraph ν K) (n m : ν) (e : PathEdge ν K) : Prop :=
  e ∈ G.connections n ∧ e.traversable = true ∧ e.otherNode n = some m

/-- `Path()` is a cheapest traversable path from start to goal and costs `PathCost()`. -/
def OptimalPath (G : PathGraph ν K) (start goal : ν) (a : AStar ν K) : Prop :=
  ∃ total, a.pathCost = some total ∧ G.Walk start 0 a.path total goal ∧
    ∀ nodes c, G.Walk start 0 nodes c goal → total ≤ c

/-- Where the corridor ends at a junction with the goal as its first new node, no walk
from the junction to the goal undercuts every direct edge. -/
def DirectIsCheapest (G : PathGraph ν K) (start goal : ν) : Prop :=
  ∀ seen n, Junction G start goal seen n goal → ∀ g, G.IsMinCost start n g →
    ∃ e, Direct G n goal e ∧ ∀ nodes c, G.Walk n g nodes c goal → g + e.cost ≤ c

variable {G : PathGraph ν K} {start goal n m x : ν} {a a' : AStar ν K} {seen : List ν}

/-! ## Scores after an expansion -/

/-- The record after the edges of `n` have been relaxed from an empty open list: closed
nodes keep their scores, and every open node has the score of its best edge. -/
structure Expanded (n : ν) (edges : List (PathEdge ν K)) (a a' : AStar ν K) : Prop where
  closed : a'.closedList = a.closedList
  kept : ∀ x ∈ a.closedList, a'.gScoreOf x = a.gScoreOf x
  disjoint : ∀ x ∈ a'.openList, x ∉ a.closedList
  opened : ∀ e ∈ edges, e.traversable = true → ∀ x, e.otherNode n = some x →
    x ∈ a.closedList ∨ x ∈ a'.openList
  reached : ∀ x ∈ a'.openList, ∃ e ∈ edges, e.traversable = true ∧ e.otherNode n = some x ∧
    a'.gScoreOf x = a.gScoreOf n + e.cost
  best : ∀ x ∈ a'.openList, ∀ e ∈ edges, e.traversable = true → e.otherNode n = some x →
    a'.gScoreOf x ≤ a.gScoreOf n + e.cost

section Relax

variable {edges : List (PathEdge ν K)} {pq : PathEdge ν K} {b : AStar ν K} {q : ν}

omit [Score K] [DecidableEq ν] in
theorem forall_mem_concat {P : PathEdge ν K → Prop} (hedges : ∀ e ∈ edges, P e) (hpq : P pq) :
    ∀ e ∈ edges ++ [pq], P e := by
  intro e he
  cases List.mem_append.mp he with
  | inl he => exact hedges e he
  | inr he => exact List.mem_singleton.mp he ▸ hpq

theorem Expanded.reached_concat (E : Expanded n edges a b) (hx : x ∈ b.openList) :
    ∃ e ∈ edges ++ [pq], e.traversable = true ∧ e.otherNode n = some x ∧
      b.gScoreOf x = a.gScoreOf n + e.cost := by
  obtain ⟨e, he, hrest⟩ := E.reached x hx
  exact ⟨e, List.mem_append_left _ he, hrest⟩

/-- An edge that improves nothing. -/
theorem Expanded.skip (E : Expanded n edges a b)
    (hopened : pq.traversable = true → ∀ x, pq.otherNode n = some x →
      x ∈ a.closedList ∨ x ∈ b.openList)
    (hbest : ∀ x ∈ b.openList, pq.traversable = true → pq.otherNode n = some x →
      b.gScoreOf x ≤ a.gScoreOf n + pq.cost) : Expanded n (edges ++ [pq]) a b where
  closed := E.closed
  kept := E.kept
  disjoint := E.disjoint
  opened := forall_mem_concat E.opened hopened
  reached := fun _ hx => E.reached_concat hx
  best := fun x hx => forall_mem_concat (E.best x hx) (hbest x hx)

/-- An edge that improves an open node. -/
theorem Expanded.improve (E : Expanded n edges a b) (ht : pq.traversable = true)
    (ho : pq.otherNode n = some q) (hqc : q ∉ a.closedList) (hq : q ∈ b.openList)
    (hlt : a.gScoreOf n + pq.cost < b.gScoreOf q) (f : K) :
    Expanded n (edges ++ [pq]) a (b.score n q f (a.gScoreOf n + pq.cost)) := by
  refine ⟨E.closed, ?_, E.disjoint, forall_mem_concat E.opened ?_, ?_, ?_⟩
  · intro x hx
    have hxq : x ≠ q := fun he => hqc (he ▸ hx)
    rw [gScoreOf_score, Function.update_of_ne hxq, E.kept x hx]
  · intro _ x hx
    rw [ho] at hx
    cases hx
    exact .inr hq
  · intro x hx
    by_cases hxq : x = q
    · subst hxq
      exact ⟨pq, by simp, ht, ho, by simp⟩
    · rw [gScoreOf_score, Function.update_of_ne hxq]
      exact E.reached_concat hx
  · intro x hx
    by_cases hxq : x = q
    · subst hxq
      rw [gScoreOf_score, Function.update_self]
      have hold : ∀ e ∈ edges, e.traversable = true → e.otherNode n = some x →
          a.gScoreOf n + pq.cost ≤ a.gScoreOf n + e.cost := by
        intro e he het heo
        exact (le_of_lt hlt).trans (E.best x hx e he het heo)
      exact forall_mem_concat hold fun _ _ => le_refl _
    · rw [gScoreOf_score, Function.update_of_ne hxq]
      apply forall_mem_concat (E.best x hx)
      intro _ hx'
      rw [ho] at hx'
      exact absurd (Option.some.inj hx').symm hxq

/-- An edge to a node met for the first time. -/
theorem Expanded.discover (E : Expanded n edges a b) (ht : pq.traversable = true)
    (ho : pq.otherNode n = some q) (hqc : q ∉ a.closedList) (hqo : q ∉ b.openList) (f : K) :
    Expanded n (edges ++ [pq]) a
      { b.score n q f (a.gScoreOf n + pq.cost) with openList := b.openList ++ [q] } := by
  have hgs : ∀ x, x ≠ q → AStar.gScoreOf
      { b.score n q f (a.gScoreOf n + pq.cost) with openList := b.openList ++ [q] } x = b.gScoreOf x := by
    intro x hxq
    exact (congrFun (gScoreOf_score b n q f _) x).trans (Function.update_of_ne hxq _ _)
  have hgq : AStar.gScoreOf
      { b.score n q f (a.gScoreOf n + pq.cost) with openList := b.openList ++ [q] } q =
        a.gScoreOf n + pq.cost :=
    (congrFun (gScoreOf_score b n q f _) q).trans (Function.update_self _ _ _)
  have hne : ∀ x ∈ b.openList, x ≠ q := fun x hx he => hqo (he ▸ hx)
  refine ⟨E.closed, ?_, ?_, forall_mem_concat ?_ ?_, ?_, ?_⟩
  · intro x hx
    rw [hgs x (fun he => hqc (he ▸ hx)), E.kept x hx]
  · intro x hx
    cases List.mem_append.mp hx with
    | inl hx => exact E.disjoint x hx
    | inr hx => exact List.mem_singleton.mp hx ▸ hqc
  · intro e he het x hx
    exact (E.opened e he het x hx).imp id (List.mem_append_left _)
  · intro _ x hx
    rw [ho] at hx
    cases hx
    exact .inr (by simp)
  · intro x hx
    cases List.mem_append.mp hx with
    | inl hx =>
      rw [hgs x (hne x hx)]
      exact E.reached_concat hx
    | inr hx =>
      rw [List.mem_singleton] at hx
      subst hx
      exact ⟨pq, by simp, ht, ho, hgq⟩
  · intro x hx
    cases List.mem_append.mp hx with
    | inl hx =>
      rw [hgs x (hne x hx)]
      apply forall_mem_concat (E.best x hx)
      intro _ hx'
      rw [ho] at hx'
      exact absurd (Option.some.inj hx').symm (hne x hx)
    | inr hx =>
      rw [List.mem_singleton] at hx
      subst hx
      rw [hgq]
      refine forall_mem_concat (fun e he het heo => ?_) fun _ _ => le_refl _
      exact (E.opened e he het x heo).elim (fun hc => absurd hc hqc) (fun hopen => absurd hopen hqo)

theorem Expanded.relax (E : Expanded n edges a b) (hn : n ∈ a.closedList)
    (hkeep : ∀ x ∈ a.closedList, pq.traversable = true → pq.otherNode n = some x →
      a.gScoreOf x ≤ a.gScoreOf n + pq.cost)
    (h : AStar.relax G goal n b pq = some a') : Expanded n (edges ++ [pq]) a a' := by
  have hgn : b.gScoreOf n = a.gScoreOf n := E.kept n hn
  rcases relax_cases h with ⟨ht, rfl⟩ | ⟨q, ht, ho, ⟨hs, hlt, rfl⟩ | ⟨hs, hlt, rfl⟩ | ⟨hqc, hqo, rfl⟩⟩
  · -- an edge that cannot be traversed
    exact E.skip (by simp [ht]) (by simp [ht])
  · -- a node seen before that the edge does not improve
    rw [hgn, not_lt] at hlt
    apply E.skip
    · intro _ x hx
      rw [ho] at hx
      cases hx
      exact E.closed ▸ hs
    · intro x _ _ hx
      rw [ho] at hx
      cases hx
      exact hlt
  · -- an open node that the edge improves
    rw [hgn] at hlt ⊢
    have hqc : q ∉ a.closedList := by
      intro hq
      rw [E.kept q hq] at hlt
      exact absurd (lt_of_le_of_lt (hkeep q hq ht ho) hlt) (lt_irrefl _)
    exact E.improve ht ho hqc ((E.closed ▸ hs).resolve_left hqc) hlt _
  · -- a node met for the first time
    rw [hgn]
    exact E.discover ht ho (E.closed ▸ hqc) hqo _

end Relax

theorem expanded_of_foldlM (hn : n ∈ a.closedList) (hopen : a.openList = [])
    (edges : List (PathEdge ν K))
    (hkeep : ∀ e ∈ edges, ∀ x ∈ a.closedList, e.traversable = true → e.otherNode n = some x →
      a.gScoreOf x ≤ a.gScoreOf n + e.cost)
    (h : edges.foldlM (AStar.relax G goal n) a = some a') : Expanded n edges a a' := by
  induction edges using List.reverseRecOn generalizing a' with
  | nil =>
    cases (by simpa using h : a = a')
    exact ⟨rfl, fun _ _ => rfl, by simp [hopen], by simp, by simp [hopen], by simp⟩
  | append_singleton edges pq ih =>
    rw [List.foldlM_append] at h
    obtain ⟨b, hb, hlast⟩ := Option.bind_eq_some_iff.mp h
    have hE := ih (fun e he => hkeep e (List.mem_append_left _ he)) hb
    exact hE.relax hn (hkeep pq (by simp)) (by simpa using hlast)

/-! ## Least costs along a corridor -/

/-- Every walk that leaves a corridor passes its last node. -/
theorem corridor_exit (h : Corridor G start goal seen n) {g c : K} {nodes : List ν}
    (hmin : G.IsMinCost start n g) (hw : G.Walk start 0 nodes c x) (hx : x ∉ seen ++ [n]) :
    ∃ nodes' c', G.Walk n g nodes' c' x ∧ c' ≤ c := by
  induction hw with
  | nil => exact absurd h.start_mem hx
  | @snoc nodes c b d e hw he ht ho ih =>
    by_cases hb : b ∈ seen ++ [n]
    · have hlast := h.eq_last hb ⟨e, he, ht, ho⟩ hx
      subst hlast
      exact ⟨_, _, .snoc .nil he ht ho, add_le_add_left_score _ _ _ (hmin.2 _ _ hw)⟩
    · obtain ⟨nodes', c', hw', hle⟩ := ih hb
      exact ⟨_, _, hw'.snoc he ht ho, add_le_add_left_score _ _ _ hle⟩

/-- Expanding the last node of a corridor improves none of its nodes. -/
theorem corridor_expanded (hclosed : a.closedList = seen)
    (hmin : ∀ x ∈ seen ++ [n], G.IsMinCost start x (a.gScoreOf x))
    (h : (G.connections n).foldlM (AStar.relax G goal n) (a.close n []) = some a') :
    Expanded n (G.connections n) (a.close n []) a' := by
  refine expanded_of_foldlM (by simp [close]) rfl _ ?_ h
  intro e he x hx ht ho
  obtain ⟨nodes, hw⟩ := (hmin n (by simp)).1
  exact (hmin x (by simpa [close, hclosed] using hx)).2 _ _ (hw.snoc he ht ho)

/-- Where a corridor goes on, no walk beyond it costs less than its best next edge. -/
theorem corridor_next_le (hc : ∀ e ∈ G.edges, 0 ≤ e.cost) (h : Corridor G start goal seen n)
    {g t c : K} {nodes : List ν} (hmin : G.IsMinCost start n g)
    (hall : ∀ y ∈ fresh G (seen ++ [n]) n, y = m) (hbest : ∀ e, Direct G n m e → t ≤ g + e.cost)
    (hw : G.Walk start 0 nodes c x) (hx : x ∉ seen ++ [n]) : t ≤ c := by
  induction hw with
  | nil => exact absurd h.start_mem hx
  | @snoc nodes c b d e hw he ht ho ih =>
    have hcost := hc e (PathGraph.mem_connections.mp he).1
    by_cases hb : b ∈ seen ++ [n]
    · have hlast := h.eq_last hb ⟨e, he, ht, ho⟩ hx
      subst hlast
      have hd := hall d (mem_fresh.mpr ⟨⟨e, he, ht, ho⟩, hx⟩)
      exact le_trans (hbest e ⟨he, ht, hd ▸ ho⟩) (add_le_add_left_score _ _ _ (hmin.2 _ _ hw))
    · exact le_trans (ih hb) (le_add_score _ _ hcost)

/-- The scores of a corridor are the least costs of reaching its nodes. -/
theorem corridor_scored (hc : ∀ e ∈ G.edges, 0 ≤ e.cost) (a : AStar ν K)
    (h : Corridor G start goal seen n) :
    ∃ b, ReflTransGen (Turn (searchBody G goal)) (a.begin G start goal) b ∧
      b.openList = [n] ∧ b.closedList = seen ∧
      ∀ x ∈ seen ++ [n], G.IsMinCost start x (b.gScoreOf x) := by
  induction h with
  | start =>
    refine ⟨_, .refl, rfl, rfl, ?_⟩
    intro x hx
    have hxs : x = start := List.mem_singleton.mp hx
    rw [hxs, (parents_begin G a start goal).start_score]
    exact ⟨⟨_, .nil⟩, fun _ _ hw => hw.base_le hc⟩
  | @onward seen n m hcor hn hm hall ih =>
    obtain ⟨b, hturns, hopen, hclosed, hmin⟩ := ih
    obtain ⟨d, hturn, hexp, hdc, hnd, hhead, hmem⟩ := turn_alone hopen hclosed hn
    have hd : d.openList = [m] :=
      eq_singleton hnd (hhead.trans hm) (fun x hx => hall x ((hmem x).mp hx))
    have hE := corridor_expanded hclosed hmin hexp
    refine ⟨d, hturns.tail hturn, hd, hdc, ?_⟩
    intro x hx
    cases List.mem_append.mp hx with
    | inl hx =>
      rw [hE.kept x (by simpa [close, hclosed] using hx)]
      exact hmin x hx
    | inr hx =>
      rw [List.mem_singleton] at hx
      subst hx
      have hxd : x ∈ d.openList := by rw [hd]; exact List.mem_singleton_self x
      obtain ⟨e, he, ht, ho, heq⟩ := hE.reached x hxd
      obtain ⟨nodes, hw⟩ := (hmin n (by simp)).1
      rw [heq]
      refine ⟨⟨_, hw.snoc he ht ho⟩, fun nodes' c hw' => ?_⟩
      rw [← heq]
      exact corridor_next_le hc hcor (hmin n (by simp)) hall (fun e he => hE.best x hxd e he.1 he.2.1 he.2.2)
        hw' (mem_fresh.mp (List.mem_of_mem_head? hm)).2

/-- The score of the first new node of a junction is the cost of its best direct edge. -/
theorem junction_scored (hc : ∀ e ∈ G.edges, 0 ≤ e.cost) (a : AStar ν K)
    (h : Junction G start goal seen n m) :
    ∃ b, ReflTransGen (Turn (searchBody G goal)) (a.begin G start goal) b ∧
      b.openList.head? = some m ∧ ∃ g, G.IsMinCost start n g ∧
        (∃ e, Direct G n m e ∧ b.gScoreOf m = g + e.cost) ∧
        ∀ e, Direct G n m e → b.gScoreOf m ≤ g + e.cost := by
  obtain ⟨b, hturns, hopen, hclosed, hmin⟩ := corridor_scored hc a h.corridor
  obtain ⟨d, rest, hturn, hexp, hd, _, _⟩ := junction_turn h hopen hclosed
  have hE := corridor_expanded hclosed hmin hexp
  have hmd : m ∈ d.openList := by rw [hd]; exact List.mem_cons_self
  refine ⟨d, hturns.tail hturn, by rw [hd]; rfl, b.gScoreOf n, hmin n (by simp), ?_, ?_⟩
  · obtain ⟨e, he, ht, ho, heq⟩ := hE.reached m hmd
    exact ⟨e, ⟨he, ht, ho⟩, heq⟩
  · intro e he
    exact hE.best m hmd e he.1 he.2.1 he.2.2

/-! ## The path of a successful search -/

section Success

variable {b : AStar ν K} {fuel : Nat}

/-- A search that reaches a state with the goal in front reports the goal's score there. -/
theorem pathCost_of_front (h : ReflTransGen (Turn (searchBody G goal)) (a.begin G start goal) b)
    (hfront : b.openList.head? = some goal) (hf : findPath fuel G a start goal = some (true, a')) :
    a'.pathCost = some (b.gScoreOf goal) := by
  obtain ⟨s, path, hs, _, rfl⟩ := findPath_true_iff.mp ⟨fuel, hf⟩
  have hout := hs.unique (returns_iff_turns.mpr ⟨b, h, leave_goal hfront⟩)
  cases hout
  simp [pathCost, close, gScoreOf]

theorem validPath_of_findPath (hc : ∀ e ∈ G.edges, 0 ≤ e.cost)
    (hf : findPath fuel G a start goal = some (true, a')) : ValidPath G start goal a' :=
  validPath_of_findsInAnyOrder hc (findsInAnyOrder_of_findPath hf)

/-- A valid path that reports no more than any walk costs is a cheapest one. -/
theorem ValidPath.optimal {total : K} (h : ValidPath G start goal a) (ht : a.pathCost = some total)
    (hmin : ∀ nodes c, G.Walk start 0 nodes c goal → total ≤ c) : OptimalPath G start goal a := by
  obtain ⟨c, hw, total', ht', hle⟩ := h.walk
  rw [ht] at ht'
  cases ht'
  have he : c = total := le_antisymm hle (hmin _ _ hw)
  exact ⟨total, ht, he ▸ hw, hmin⟩

end Success

theorem optimal_of_directIsCheapest (hc : ∀ e ∈ G.edges, 0 ≤ e.cost) (h : DirectIsCheapest G start goal)
    {fuel : Nat} (hf : findPath fuel G a start goal = some (true, a')) : OptimalPath G start goal a' := by
  have hvalid := validPath_of_findPath hc hf
  obtain ⟨s, _, hs, _⟩ := findPath_true_iff.mp ⟨fuel, hf⟩
  obtain ⟨seen, n, hcor, hstop⟩ := corridor_stops G start goal
  by_cases hn : n = goal
  · subst hn
    obtain ⟨b, hturns, hopen, _, hmin⟩ := corridor_scored hc a hcor
    exact hvalid.optimal (pathCost_of_front hturns (by rw [hopen]; rfl) hf) (hmin n (by simp)).2
  · rcases hstop.resolve_left hn with hdead | ⟨m, hj⟩
    · obtain ⟨b, hb⟩ := dead_end_reached a hcor hn hdead
      cases hs.unique hb
    · by_cases hm : m = goal
      · subst hm
        obtain ⟨b, hturns, hfront, g, hmin, ⟨e, he, _⟩, hbest⟩ := junction_scored hc a hj
        obtain ⟨d, hd, hcheap⟩ := h seen n hj g hmin
        apply hvalid.optimal (pathCost_of_front hturns hfront hf)
        intro nodes c hw
        obtain ⟨nodes', c', hw', hle⟩ := corridor_exit hcor hmin hw (mem_fresh.mp (List.mem_of_mem_head? hj.first)).2
        exact le_trans (hbest d hd) (le_trans (hcheap nodes' c' hw') hle)
      · obtain ⟨b, rest, hturns, hopen, hrest, hclosed⟩ := junction_reached a hj
        have hfrom := returns_from hs hturns
        by_cases hnew : fresh G (seen ++ [n] ++ [m]) m = []
        · obtain ⟨d, hd⟩ := drained_returns_false hm hopen (fun x hx => hclosed ▸ mem_of_fresh_nil hnew hx)
          cases hfrom.unique hd
        · exact absurd hfrom (stuck_of_fresh hm hopen hrest hclosed hnew _)

/-- `FindPath` reports a cheapest path whenever it succeeds exactly on the graphs in
which no detour undercuts the edge it takes from a junction to the goal. -/
theorem findPath_optimal_iff (G : PathGraph ν K) (hc : ∀ e ∈ G.edges, 0 ≤ e.cost)
    (a : AStar ν K) (start goal : ν) :
    (∀ fuel a', findPath fuel G a start goal = some (true, a') → OptimalPath G start goal a') ↔
      DirectIsCheapest G start goal := by
  constructor
  · intro h seen n hj g hmin
    obtain ⟨b, hturns, hfront, g', hmin', ⟨e, he, heq⟩, _⟩ := junction_scored hc a hj
    obtain ⟨fuel, a', hf⟩ := findPath_of_front hc hturns hfront
    obtain ⟨total, ht, _, hopt⟩ := h fuel a' hf
    rw [pathCost_of_front hturns hfront hf] at ht
    cases ht
    have hg : g' = g := by
      obtain ⟨_, hw⟩ := hmin.1
      obtain ⟨_, hw'⟩ := hmin'.1
      exact le_antisymm (hmin'.2 _ _ hw) (hmin.2 _ _ hw')
    subst hg
    refine ⟨e, he, fun nodes c hw => ?_⟩
    obtain ⟨_, hw'⟩ := hmin.1
    obtain ⟨nodes', hw''⟩ := hw'.trans hw
    rw [← heq]
    exact hopt nodes' c hw''
  · intro h fuel a' hf
    exact optimal_of_directIsCheapest hc h hf

theorem findPath_optimal_hallway :
    (∀ e ∈ hallway.edges, 0 ≤ e.cost) ∧
    ∀ fuel a', findPath fuel hallway create 0 1 = some (true, a') → OptimalPath hallway 0 1 a' := by
  have hc : ∀ e ∈ hallway.edges, 0 ≤ e.cost := by decide +kernel
  have hcheapest : DirectIsCheapest hallway 0 1 := by
    intro seen n hj
    exact absurd hj (hallway_no_junction seen n 1)
  exact ⟨hc, (findPath_optimal_iff hallway hc create 0 1).mpr hcheapest⟩

/-- The goal next to the start along a dear edge, and a cheap way round. -/
def detour : PathGraph Nat ℚ where
  edges := [.create 0 2 10, .create 0 1 1, .create 1 2 1]
  heuristicValue := fun _ _ => 0

theorem detour_consistent : detour.Consistent 2 := by
  have hcost : ∀ e ∈ detour.edges, (0 : ℚ) ≤ e.cost + 0 := by decide +kernel
  refine ⟨rfl, ?_⟩
  intro a e he _ b _
  exact hcost e (PathGraph.mem_connections.mp he).1

/-- The search takes the dear edge although the way round costs a fifth of it. -/
theorem findPath_detour :
    (∀ e ∈ detour.edges, 0 ≤ e.cost) ∧ detour.Consistent 2 ∧
    ∃ a', findPath 3 detour create 0 2 = some (true, a') ∧ a'.path = [0, 2] ∧
      a'.pathCost = some 10 ∧ detour.Walk 0 0 [0, 1, 2] 2 2 ∧ ¬ OptimalPath detour 0 2 a' := by
  have hfound : (findPath 3 detour create 0 2).map (fun r => (r.1, r.2.path, r.2.pathCost)) =
      some (true, [0, 2], some 10) := by decide +kernel
  obtain ⟨⟨b, a'⟩, hf, hb⟩ := Option.map_eq_some_iff.mp hfound
  obtain ⟨rfl, hpath, hcost⟩ : b = true ∧ a'.path = [0, 2] ∧ a'.pathCost = some 10 := by
    simpa using hb
  have hround : detour.Walk 0 0 [0, 1, 2] 2 2 := by
    have hfirst : detour.Walk 0 0 [0, 1] (0 + PathEdge.cost (.create 0 1 1)) 1 :=
      .snoc (b := 0) .nil (by decide +kernel) rfl rfl
    have hsecond := hfirst.snoc (e := .create 1 2 1) (d := 2) (by decide +kernel) rfl rfl
    have htotal : (0 : ℚ) + PathEdge.cost (.create 0 1 1 : PathEdge Nat ℚ) +
        PathEdge.cost (.create 1 2 1 : PathEdge Nat ℚ) = 2 := by decide +kernel
    rw [htotal] at hsecond
    exact hsecond
  refine ⟨by decide +kernel, detour_consistent, a', hf, hpath, hcost, hround, ?_⟩
  intro h
  obtain ⟨total, htotal, _, hmin⟩ := h
  have hle := hmin _ _ hround
  rw [hcost] at htotal
  cases htotal
  exact absurd hle (by decide +kernel)

end Lumos.AI.AStar
