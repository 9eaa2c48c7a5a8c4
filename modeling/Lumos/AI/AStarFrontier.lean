import Lumos.AI.AStarPath
import Lumos.AI.Corridor

/-!
# What the open list does to the search

`Top` reads the front of the open list and `Pop` removes its back, so the two agree
only while the list has one entry. As long as every node met opens one new node the
search follows the corridor they form. At the first junction the front node stays in
place for good: it is expanded again and again while the others are lost.
-/
namespace Lumos.AI.AStar

open Relation Loop

variable {ν K : Type} [DecidableEq ν]

/-- The open list after one neighbour has been looked at. -/
def discover (closed frontier : List ν) (q : ν) : List ν :=
  if q ∈ closed ∨ q ∈ frontier then frontier else PathNodePriorityQueue.push frontier q

section Discover

variable {closed frontier ns : List ν} {x : ν}

theorem mem_discover {q : ν} :
    x ∈ discover closed frontier q ↔ x ∈ frontier ∨ (x = q ∧ x ∉ closed) := by
  unfold discover
  split
  · next h =>
    constructor
    · exact .inl
    · intro hx
      cases hx with
      | inl hx => exact hx
      | inr hx => exact h.elim (fun hq => absurd (hx.1 ▸ hq) hx.2) (fun hq => hx.1 ▸ hq)
  · next h =>
    rw [not_or] at h
    simp only [PathNodePriorityQueue.push, List.mem_append, List.mem_singleton]
    constructor
    · intro hx
      exact hx.imp id fun he => ⟨he, he ▸ h.1⟩
    · intro hx
      exact hx.imp id fun he => he.1

theorem prefix_discover (q : ν) : frontier <+: discover closed frontier q := by
  unfold discover
  split
  · exact List.prefix_refl _
  · exact List.prefix_append _ _

theorem mem_foldl_discover :
    x ∈ ns.foldl (discover closed) frontier ↔ x ∈ frontier ∨ (x ∈ ns ∧ x ∉ closed) := by
  induction ns generalizing frontier with
  | nil => simp
  | cons q rest ih =>
    rw [List.foldl_cons, ih, mem_discover, List.mem_cons]
    constructor
    · intro h
      cases h with
      | inl h => exact h.imp id fun h => ⟨.inl h.1, h.2⟩
      | inr h => exact .inr ⟨.inr h.1, h.2⟩
    · intro h
      cases h with
      | inl h => exact .inl (.inl h)
      | inr h => exact h.1.elim (fun hq => .inl (.inr ⟨hq, h.2⟩)) fun hr => .inr ⟨hr, h.2⟩

theorem nodup_foldl_discover (h : frontier.Nodup) : (ns.foldl (discover closed) frontier).Nodup := by
  induction ns generalizing frontier with
  | nil => exact h
  | cons q rest ih =>
    apply ih
    unfold discover
    split
    · exact h
    · next hq =>
      rw [PathNodePriorityQueue.push, ← List.concat_eq_append]
      exact h.concat fun hmem => hq (.inr hmem)

/-- Looking at neighbours only appends to the open list. -/
theorem prefix_foldl_discover : frontier <+: ns.foldl (discover closed) frontier := by
  induction ns generalizing frontier with
  | nil => exact List.prefix_refl _
  | cons q rest ih => exact (prefix_discover q).trans ih

theorem foldl_discover_of_subset (h : ∀ x ∈ ns, x ∈ closed) :
    ns.foldl (discover closed) frontier = frontier := by
  induction ns generalizing frontier with
  | nil => rfl
  | cons q rest ih =>
    have hq : discover closed frontier q = frontier := if_pos (.inl (h q List.mem_cons_self))
    rw [List.foldl_cons, hq]
    exact ih fun x hx => h x (List.mem_cons_of_mem q hx)

/-- The first node opened from an empty list is the first one not closed. -/
theorem head?_foldl_discover :
    (ns.foldl (discover closed) []).head? = (ns.filter (· ∉ closed)).head? := by
  induction ns with
  | nil => rfl
  | cons q rest ih =>
    by_cases hq : q ∈ closed
    · have hd : discover closed [] q = [] := if_pos (.inl hq)
      rw [List.foldl_cons, hd, ih]
      simp [hq]
    · have hd : discover closed [] q = [q] := by simp [discover, PathNodePriorityQueue.push, hq]
      obtain ⟨tail, ht⟩ : [q] <+: rest.foldl (discover closed) [q] := prefix_foldl_discover
      rw [List.foldl_cons, hd, ← ht]
      simp [hq]

end Discover

variable [Score K]

variable {G : PathGraph ν K} {start goal p n m : ν} {a a' : AStar ν K}

theorem relax_frontier {pq : PathEdge ν K} (h : relax G goal p a pq = some a') :
    a'.closedList = a.closedList ∧
      a'.openList = (([pq].filterMap fun e => if e.traversable then e.otherNode p else none).foldl
        (discover a.closedList) a.openList) := by
  rcases relax_cases h with ⟨ht, rfl⟩ | ⟨q, ht, ho, ⟨hs, _, rfl⟩ | ⟨hs, _, rfl⟩ | ⟨hc, ho', rfl⟩⟩
  · simp [ht]
  · simp [ht, ho, discover, hs]
  · simp [ht, ho, discover, hs, score]
  · simp [ht, ho, discover, hc, ho', score, PathNodePriorityQueue.push]

/-- Expanding a node opens its neighbours that are neither closed nor open, in the
order of its connections; scores play no part. -/
theorem expand_frontier (edges : List (PathEdge ν K))
    (h : edges.foldlM (relax G goal p) a = some a') :
    a'.closedList = a.closedList ∧
      a'.openList = (edges.filterMap fun e => if e.traversable then e.otherNode p else none).foldl
        (discover a.closedList) a.openList := by
  induction edges generalizing a with
  | nil =>
    cases (by simpa using h : a = a')
    exact ⟨rfl, rfl⟩
  | cons pq rest ih =>
    rw [List.foldlM_cons] at h
    obtain ⟨b, hb, hrest⟩ := Option.bind_eq_some_iff.mp h
    have hstep := relax_frontier hb
    have htail := ih hrest
    refine ⟨htail.1.trans hstep.1, ?_⟩
    rw [htail.2, hstep.1, hstep.2, ← List.foldl_append, ← List.filterMap_append, List.singleton_append]

/-- One turn on a front node other than the goal. -/
theorem turn_exists (htop : a.openList.head? = some p) (hp : p ≠ goal) :
    ∃ b, Turn (searchBody G goal) a b ∧
      (G.connections p).foldlM (relax G goal p) (a.close p a.openList.dropLast) = some b ∧
      b.closedList = a.closedList ++ [p] ∧
      b.openList = (G.neighbours p).foldl (discover (a.closedList ++ [p])) a.openList.dropLast := by
  obtain ⟨b, hb⟩ := expand_isSome G goal p (a.close p a.openList.dropLast)
  have hf := expand_frontier _ hb
  refine ⟨b, ?_, hb, hf.1, hf.2⟩
  simp only [Turn, searchBody, PathNodePriorityQueue.top, PathNodePriorityQueue.pop, htop, hp, if_false, hb,
    Option.map_some]

/-- One turn on the goal. -/
theorem leave_goal (htop : a.openList.head? = some goal) :
    searchBody G goal a = some (.inr (true, a.close goal a.openList.dropLast)) := by
  simp [searchBody, PathNodePriorityQueue.top, PathNodePriorityQueue.pop, htop]

theorem leave_empty (h : a.openList = []) : searchBody G goal a = some (.inr (false, a)) := by
  simp [searchBody, PathNodePriorityQueue.top, h]

/-! ## The search along a corridor and at a junction -/

section Search

variable {seen : List ν}

omit [DecidableEq ν] [Score K] in
theorem eq_singleton {l : List ν} (hnd : l.Nodup) (hhead : l.head? = some m)
    (hall : ∀ x ∈ l, x = m) : l = [m] := by
  cases l with
  | nil => cases hhead
  | cons x rest =>
    cases rest with
    | nil => rw [hall x List.mem_cons_self]
    | cons y rest =>
      have hxy : x = y := (hall x (by simp)).trans (hall y (by simp)).symm
      simp [hxy] at hnd

/-- One turn of a search standing on one node opens its new neighbours. -/
theorem turn_alone (hopen : a.openList = [n]) (hclosed : a.closedList = seen) (hn : n ≠ goal) :
    ∃ b, Turn (searchBody G goal) a b ∧
      (G.connections n).foldlM (relax G goal n) (a.close n []) = some b ∧
      b.closedList = seen ++ [n] ∧ b.openList.Nodup ∧
      b.openList.head? = (fresh G (seen ++ [n]) n).head? ∧
      ∀ x, x ∈ b.openList ↔ x ∈ fresh G (seen ++ [n]) n := by
  obtain ⟨b, hturn, hexp, hc, ho⟩ := turn_exists (G := G) (a := a) (by rw [hopen]; rfl) hn
  rw [hclosed, hopen, List.dropLast_singleton] at ho
  rw [hopen, List.dropLast_singleton] at hexp
  refine ⟨b, hturn, hexp, by rw [hc, hclosed], ?_, ?_, ?_⟩
  · rw [ho]
    exact nodup_foldl_discover List.nodup_nil
  · rw [ho, head?_foldl_discover]
    rfl
  · intro x
    rw [ho, mem_foldl_discover]
    simp [fresh]

/-- The search walks down every corridor. -/
theorem corridor_reached (a : AStar ν K) (h : Corridor G start goal seen n) :
    ∃ b, ReflTransGen (Turn (searchBody G goal)) (a.begin G start goal) b ∧
      b.openList = [n] ∧ b.closedList = seen := by
  induction h with
  | start => exact ⟨_, .refl, rfl, rfl⟩
  | @onward seen n m _ hn hm hall ih =>
    obtain ⟨b, hturns, hopen, hclosed⟩ := ih
    obtain ⟨c, hturn, _, hc, hnd, hhead, hmem⟩ := turn_alone hopen hclosed hn
    exact ⟨c, hturns.tail hturn,
      eq_singleton hnd (hhead.trans hm) (fun x hx => hall x ((hmem x).mp hx)), hc⟩

/-- A corridor with nowhere to go empties the open list. -/
theorem dead_end_reached (a : AStar ν K) (h : Corridor G start goal seen n) (hn : n ≠ goal)
    (hstop : fresh G (seen ++ [n]) n = []) :
    ∃ b, Returns (searchBody G goal) (a.begin G start goal) (false, b) := by
  obtain ⟨b, hturns, hopen, hclosed⟩ := corridor_reached a h
  obtain ⟨c, hturn, _, _, _, hhead, _⟩ := turn_alone hopen hclosed hn
  rw [hstop, List.head?_nil] at hhead
  exact ⟨c, returns_iff_turns.mpr ⟨c, hturns.tail hturn, leave_empty (List.head?_eq_none_iff.mp hhead)⟩⟩

/-- Expanding the last node of a corridor at a junction puts the first new node at the
front, with others behind it. -/
theorem junction_turn (h : Junction G start goal seen n m) (hopen : a.openList = [n])
    (hclosed : a.closedList = seen) :
    ∃ b rest, Turn (searchBody G goal) a b ∧
      (G.connections n).foldlM (relax G goal n) (a.close n []) = some b ∧
      b.openList = m :: rest ∧ rest ≠ [] ∧ b.closedList = seen ++ [n] := by
  obtain ⟨b, hturn, hexp, hc, _, hhead, hmem⟩ := turn_alone hopen hclosed h.ne_goal
  obtain ⟨x, hx, hxm⟩ := h.other
  have hxb := (hmem x).mpr hx
  rw [h.first] at hhead
  cases hb : b.openList with
  | nil => rw [hb] at hhead; cases hhead
  | cons y rest =>
    rw [hb, List.head?_cons] at hhead
    cases hhead
    refine ⟨b, rest, hturn, hexp, hb, ?_, hc⟩
    intro hrest
    rw [hb, hrest] at hxb
    exact hxm (List.mem_singleton.mp hxb)

theorem junction_reached (a : AStar ν K) (h : Junction G start goal seen n m) :
    ∃ b rest, ReflTransGen (Turn (searchBody G goal)) (a.begin G start goal) b ∧
      b.openList = m :: rest ∧ rest ≠ [] ∧ b.closedList = seen ++ [n] := by
  obtain ⟨b, hturns, hopen, hclosed⟩ := corridor_reached a h.corridor
  obtain ⟨c, rest, hturn, _, hrest⟩ := junction_turn h hopen hclosed
  exact ⟨c, rest, hturns.tail hturn, hrest⟩

/-- The front node, once expanded with a new neighbour still to come, is never
removed: every later turn expands it again, and the search goes on for ever. -/
theorem stuck_diverges {rest : List ν} (hm : m ≠ goal) (hopen : a.openList = m :: rest)
    (hrest : rest ≠ []) (hnew : ∃ x, G.Adjacent m x ∧ x ≠ m ∧ x ∉ a.closedList)
    (out : Bool × AStar ν K) : ¬ Returns (searchBody G goal) a out := by
  refine not_returns (fun b => (∃ rest, b.openList = m :: rest ∧ rest ≠ []) ∧
    ∃ x, G.Adjacent m x ∧ x ≠ m ∧ x ∉ b.closedList) ?_ ⟨⟨rest, hopen, hrest⟩, hnew⟩ out
  intro b hb
  obtain ⟨⟨rest, hopen, hrest⟩, x, hadj, hxm, hx⟩ := hb
  obtain ⟨c, hturn, _, hc, ho⟩ := turn_exists (G := G) (a := b) (by rw [hopen]; rfl) hm
  have hx' : x ∉ c.closedList := by simp [hc, hx, hxm]
  rw [hopen, List.dropLast_cons_of_ne_nil hrest] at ho
  obtain ⟨tail, htail⟩ : m :: rest.dropLast <+:
      (G.neighbours m).foldl (discover (b.closedList ++ [m])) (m :: rest.dropLast) :=
    prefix_foldl_discover
  have hxc : x ∈ c.openList := by
    rw [ho, mem_foldl_discover]
    exact .inr ⟨PathGraph.mem_neighbours.mpr hadj, hc ▸ hx'⟩
  refine ⟨c, hturn, ⟨rest.dropLast ++ tail, by rw [ho, ← htail, List.cons_append], ?_⟩, x, hadj, hxm, hx'⟩
  intro hnil
  rw [ho, ← htail, List.cons_append, hnil] at hxc
  exact hxm (List.mem_singleton.mp hxc)

theorem stuck_of_fresh {rest : List ν} (hm : m ≠ goal) (hopen : a.openList = m :: rest)
    (hrest : rest ≠ []) (hclosed : a.closedList = seen) (hnew : fresh G (seen ++ [m]) m ≠ [])
    (out : Bool × AStar ν K) : ¬ Returns (searchBody G goal) a out := by
  obtain ⟨x, hx⟩ := List.exists_mem_of_ne_nil _ hnew
  obtain ⟨hadj, hnot⟩ := mem_fresh.mp hx
  rw [List.mem_append, not_or] at hnot
  exact stuck_diverges hm hopen hrest
    ⟨x, hadj, fun he => hnot.2 (List.mem_singleton.mpr he), hclosed ▸ hnot.1⟩ out

/-- A front node without new neighbours stays in place while every other open node
is popped unread, and the search gives up. -/
theorem drained_returns_false {rest : List ν} (hm : m ≠ goal) (hopen : a.openList = m :: rest)
    (hold : ∀ x, G.Adjacent m x → x ∈ a.closedList ++ [m]) :
    ∃ b, Returns (searchBody G goal) a (false, b) := by
  let I : AStar ν K → Prop := fun b => (b.openList = [] ∨ ∃ rest, b.openList = m :: rest) ∧
    ∀ x, G.Adjacent m x → x ∈ b.closedList ++ [m]
  have hturn : ∀ b rest, b.openList = m :: rest → I b →
      ∃ c, Turn (searchBody G goal) b c ∧ I c ∧ c.openList = (m :: rest).dropLast := by
    intro b rest hopen hb
    obtain ⟨c, hturn, _, hc, ho⟩ := turn_exists (G := G) (a := b) (by rw [hopen]; rfl) hm
    rw [foldl_discover_of_subset (fun x hx => hb.2 x (PathGraph.mem_neighbours.mp hx)), hopen] at ho
    refine ⟨c, hturn, ⟨?_, ?_⟩, ho⟩
    · cases rest with
      | nil => exact .inl ho
      | cons y rest => exact .inr ⟨(y :: rest).dropLast, by rw [ho, List.dropLast_cons_of_ne_nil (by simp)]⟩
    · intro x hx
      rw [hc]
      exact List.mem_append_left _ (hb.2 x hx)
  have hI : I a := ⟨.inr ⟨rest, hopen⟩, hold⟩
  obtain ⟨out, hout⟩ : ∃ out, Returns (searchBody G goal) a out := returns_of_measure I (fun b => b.openList.length) (by
    intro b hb
    cases hb.1 with
    | inl hnil => exact .inl ⟨_, leave_empty hnil⟩
    | inr hcons =>
      obtain ⟨rest, hopen⟩ := hcons
      obtain ⟨c, hc, hIc, ho⟩ := hturn b rest hopen hb
      refine .inr ⟨c, hc, hIc, ?_⟩
      simp [ho, hopen]) hI
  -- the loop can only have left with an empty open list
  obtain ⟨t, ht, hleave⟩ := hout.invariant I (by
    intro b c hb hbc
    cases hb.1 with
    | inl hnil => simp [Turn, leave_empty hnil] at hbc
    | inr hcons =>
      obtain ⟨rest, hopen⟩ := hcons
      obtain ⟨d, hd, hId, _⟩ := hturn b rest hopen hb
      have he : some (Sum.inl c) = some (Sum.inl d) := hbc.symm.trans hd
      cases he
      exact hId) hI
  cases ht.1 with
  | inl hnil =>
    rw [leave_empty hnil] at hleave
    cases hleave
    exact ⟨t, hout⟩
  | inr hcons =>
    obtain ⟨rest, hopen⟩ := hcons
    obtain ⟨d, hd, _⟩ := hturn t rest hopen ht
    rw [hd] at hleave
    cases hleave

/-- The result of a loop is the result from every state it goes through. -/
theorem returns_from {out : Bool × AStar ν K} {b : AStar ν K}
    (h : Returns (searchBody G goal) a out) (hab : ReflTransGen (Turn (searchBody G goal)) a b) :
    Returns (searchBody G goal) b out := by
  induction hab with
  | refl => exact h
  | tail _ hturn ih => exact (returns_turn_iff hturn).mp ih

/-- A goal at the front of the open list is found. -/
theorem findPath_of_front (hc : ∀ e ∈ G.edges, 0 ≤ e.cost) {b : AStar ν K}
    (h : ReflTransGen (Turn (searchBody G goal)) (a.begin G start goal) b)
    (hfront : b.openList.head? = some goal) :
    ∃ fuel a', findPath fuel G a start goal = some (true, a') := by
  have hsearch := ReflTransGen.mono (fun _ _ => searchTurn_of_turn) _ _ h
  obtain ⟨path, hpath, _⟩ := path_returns_reached hc hsearch (List.mem_of_mem_head? hfront)
    (List.dropLast_subset b.openList)
  have hreturns := returns_iff_turns.mpr ⟨b, h, leave_goal hfront⟩
  obtain ⟨fuel, hfuel⟩ := findPath_true_iff.mpr ⟨_, path, hreturns, hpath, rfl⟩
  exact ⟨fuel, _, hfuel⟩

/-- Where the walk from the start stops decides the search: right at the goal and at
a dead end; at a junction only when the goal is the first new node, or when that node
leads nowhere and the goal cannot be reached at all. -/
def CorridorDecides (G : PathGraph ν K) (start goal : ν) : Prop :=
  ∀ seen n m, Junction G start goal seen n m →
    m = goal ∨ (fresh G (seen ++ [n] ++ [m]) m = [] ∧ ¬ G.Reachable start goal)

theorem findPath_correct_of_decides (hc : ∀ e ∈ G.edges, 0 ≤ e.cost) (a : AStar ν K)
    (h : CorridorDecides G start goal) :
    ∃ fuel b a', findPath fuel G a start goal = some (b, a') ∧ (b = true ↔ G.Reachable start goal) := by
  obtain ⟨seen, n, hcor, hgoal | hdead | ⟨m, hj⟩⟩ := corridor_stops G start goal
  · subst hgoal
    obtain ⟨b, hturns, hopen, _⟩ := corridor_reached a hcor
    obtain ⟨fuel, a', hf⟩ := findPath_of_front hc hturns (by rw [hopen]; rfl)
    exact ⟨fuel, true, a', hf, by simp [hcor.reachable]⟩
  · by_cases hn : n = goal
    · subst hn
      obtain ⟨b, hturns, hopen, _⟩ := corridor_reached a hcor
      obtain ⟨fuel, a', hf⟩ := findPath_of_front hc hturns (by rw [hopen]; rfl)
      exact ⟨fuel, true, a', hf, by simp [hcor.reachable]⟩
    · obtain ⟨b, hb⟩ := dead_end_reached a hcor hn hdead
      obtain ⟨fuel, hf⟩ := findPath_false_iff.mpr hb
      exact ⟨fuel, false, b, hf, by simp [hcor.not_reachable hn hdead]⟩
  · obtain ⟨b, rest, hturns, hopen, hrest, hclosed⟩ := junction_reached a hj
    cases h seen n m hj with
    | inl hm =>
      subst hm
      obtain ⟨fuel, a', hf⟩ := findPath_of_front hc hturns (by rw [hopen]; rfl)
      exact ⟨fuel, true, a', hf, by simp [hj.reachable]⟩
    | inr hstop =>
      have hmg : m ≠ goal := by
        intro hm
        subst hm
        exact hstop.2 hj.reachable
      obtain ⟨c, hcret⟩ := drained_returns_false hmg hopen (fun x hx => hclosed ▸ mem_of_fresh_nil hstop.1 hx)
      obtain ⟨t, hct, hleave⟩ := returns_iff_turns.mp hcret
      obtain ⟨fuel, hf⟩ := findPath_false_iff.mpr (returns_iff_turns.mpr ⟨t, hturns.trans hct, hleave⟩)
      exact ⟨fuel, false, c, hf, by simp [hstop.2]⟩

theorem decides_of_findPath_correct {fuel : Nat} {b : Bool}
    (h : findPath fuel G a start goal = some (b, a')) (hb : b = true ↔ G.Reachable start goal) :
    CorridorDecides G start goal := by
  intro seen n m hj
  by_cases hm : m = goal
  · exact .inl hm
  · right
    obtain ⟨c, rest, hturns, hopen, hrest, hclosed⟩ := junction_reached a hj
    have hout : ∃ out : Bool × AStar ν K, out.1 = b ∧
        Returns (searchBody G goal) (a.begin G start goal) out := by
      cases b with
      | false => exact ⟨_, rfl, findPath_false_iff.mp ⟨fuel, h⟩⟩
      | true =>
        obtain ⟨s, _, hs, _⟩ := findPath_true_iff.mp ⟨fuel, h⟩
        exact ⟨_, rfl, hs⟩
    obtain ⟨out, hob, hret⟩ := hout
    have hfrom := returns_from hret hturns
    have hstop : fresh G (seen ++ [n] ++ [m]) m = [] := by
      by_contra hne
      exact stuck_of_fresh hm hopen hrest hclosed hne out hfrom
    refine ⟨hstop, ?_⟩
    obtain ⟨d, hd⟩ := drained_returns_false hm hopen (fun x hx => hclosed ▸ mem_of_fresh_nil hstop hx)
    have hfalse : b = false := by rw [← hob, hfrom.unique hd]
    rw [← hb, hfalse]
    exact Bool.false_ne_true

end Search

/-- `FindPath` terminates with the right answer exactly on the graphs whose corridor
decides the search. -/
theorem findPath_correct_iff (G : PathGraph ν K) (hc : ∀ e ∈ G.edges, 0 ≤ e.cost)
    (a : AStar ν K) (start goal : ν) :
    (∃ fuel b a', findPath fuel G a start goal = some (b, a') ∧ (b = true ↔ G.Reachable start goal)) ↔
      CorridorDecides G start goal := by
  constructor
  · intro h
    obtain ⟨fuel, b, a', hf, hb⟩ := h
    exact decides_of_findPath_correct hf hb
  · exact findPath_correct_of_decides hc a

/-- The single edge of the hallway opens no junction. -/
theorem hallway_no_junction (seen : List Nat) (n m : Nat) : ¬ Junction hallway 0 1 seen n m := by
  intro hj
  have hfresh : fresh hallway [0] 0 = [1] := by decide
  have hcorridor : ∀ seen n, Corridor hallway 0 1 seen n → (seen = [] ∧ n = 0) ∨ n = 1 := by
    intro seen n h
    induction h with
    | start => exact .inl ⟨rfl, rfl⟩
    | onward _ hne hm _ ih =>
      obtain ⟨rfl, rfl⟩ := ih.resolve_right hne
      rw [List.nil_append, hfresh] at hm
      exact .inr (Option.some.inj hm).symm
  obtain ⟨rfl, rfl⟩ := (hcorridor seen n hj.corridor).resolve_right hj.ne_goal
  have hm := hj.first
  obtain ⟨x, hx, hxm⟩ := hj.other
  rw [List.nil_append, hfresh] at hm hx
  apply hxm
  rw [List.mem_singleton.mp hx, Option.some.inj hm]

theorem findPath_correct_hallway :
    (∀ e ∈ hallway.edges, 0 ≤ e.cost) ∧
    ∃ fuel b a', findPath fuel hallway create 0 1 = some (b, a') ∧ (b = true ↔ hallway.Reachable 0 1) := by
  have hc : ∀ e ∈ hallway.edges, 0 ≤ e.cost := by decide +kernel
  have hdecides : CorridorDecides hallway 0 1 := by
    intro seen n m hj
    exact absurd hj (hallway_no_junction seen n m)
  exact ⟨hc, (findPath_correct_iff hallway hc create 0 1).mpr hdecides⟩

/-- Two edges from the start, and the goal behind the second of them. -/
def fork : PathGraph Nat ℚ where
  edges := [.create 0 1 1, .create 0 2 1]
  heuristicValue := fun _ _ => 0

/-- The open list loses the goal of the fork, and the search fails. -/
theorem findPath_fork :
    (∀ e ∈ fork.edges, 0 ≤ e.cost) ∧ fork.Reachable 0 2 ∧
    (findPath 4 fork create 0 2).map Prod.fst = some false ∧
    ¬ ∃ fuel b a', findPath fuel fork create 0 2 = some (b, a') ∧ (b = true ↔ fork.Reachable 0 2) := by
  have hreach : fork.Reachable 0 2 :=
    .single ⟨.create 0 2 1, by decide, rfl, by decide⟩
  have hjunction : Junction fork 0 2 [] 0 1 :=
    ⟨.start, by decide, by decide, 2, by decide, by decide⟩
  refine ⟨by decide +kernel, hreach, by decide +kernel, ?_⟩
  intro h
  obtain ⟨fuel, b, a', hf, hb⟩ := h
  cases decides_of_findPath_correct hf hb [] 0 1 hjunction with
  | inl hgoal => cases hgoal
  | inr hstop => exact hstop.2 hreach

end Lumos.AI.AStar
