import Lumos.AI.AStar

/-!
# The recorded parent links

Which node the open list yields, and which it loses, plays no part in what the
relaxations record: along every parent link the score grows by at least the cost
of a traversable edge, so the links never close a cycle and the path read back
along them is a walk from the start.
-/
namespace Lumos.AI.AStar

open Relation Loop ParentLinks

variable {ν K : Type} [Score K] [DecidableEq ν]

/-- One turn of the search with an open list that yields any of its nodes and keeps
any of the others. -/
def SearchTurn (G : PathGraph ν K) (goal : ν) (a a' : AStar ν K) : Prop :=
  ∃ p ∈ a.openList, p ≠ goal ∧ ∃ rest, rest ⊆ a.openList ∧
    (G.connections p).foldlM (relax G goal p) (a.close p rest) = some a'

/-- A successful `FindPath` over such an open list. -/
def FindsInAnyOrder (G : PathGraph ν K) (a : AStar ν K) (start goal : ν) (a' : AStar ν K) : Prop :=
  ∃ s rest path, ReflTransGen (SearchTurn G goal) (a.begin G start goal) s ∧
    goal ∈ s.openList ∧ rest ⊆ s.openList ∧
    Returns (pathBody (s.close goal rest)) ((s.close goal rest).closedList.getLast?, s.path) path ∧
    a' = { s.close goal rest with path := path.reverse }

/-- What `Path()` and `PathCost()` promise together. -/
structure ValidPath (G : PathGraph ν K) (start goal : ν) (a : AStar ν K) : Prop where
  first : a.path.head? = some start
  last : a.path.getLast? = some goal
  nodup : a.path.Nodup
  walk : ∃ c, G.Walk start 0 a.path c goal ∧ ∃ total, a.pathCost = some total ∧ c ≤ total

/-- The links and scores recorded so far. -/
structure Parents (G : PathGraph ν K) (start : ν) (a : AStar ν K) : Prop where
  start_parent : a.parentOf start = none
  start_score : a.gScoreOf start = 0
  nonneg : ∀ n, n ∈ a.closedList ∨ n ∈ a.openList → 0 ≤ a.gScoreOf n
  seen_parent : ∀ n, n ∈ a.closedList ∨ n ∈ a.openList → n ≠ start → ∃ p, a.parentOf n = some p
  link : ∀ n p, a.parentOf n = some p → p ∈ a.closedList ∧
    ∃ e ∈ G.connections p, e.traversable = true ∧ e.otherNode p = some n ∧
      a.gScoreOf p + e.cost ≤ a.gScoreOf n
  rooted : ∀ n, Rooted a.parentOf n

/-- Before the first turn only the start node is open; from then on it is closed. -/
def StartFirst (start : ν) (a : AStar ν K) : Prop :=
  start ∈ a.closedList ∨ ∀ n ∈ a.openList, n = start

variable {G : PathGraph ν K} {start goal p q : ν} {a a' : AStar ν K}

theorem parents_begin (G : PathGraph ν K) (a : AStar ν K) (start goal : ν) :
    Parents G start (a.begin G start goal) := by
  have hparent : ∀ n, (a.begin G start goal).parentOf n = none := by
    intro n
    by_cases hn : n = start
    · subst hn; simp [parentOf, begin]
    · simp [parentOf, begin, reset, hn]
  have hscore : (a.begin G start goal).gScoreOf start = 0 := by simp [gScoreOf, begin]
  have hseen : ∀ n, n ∈ (a.begin G start goal).closedList ∨
      n ∈ (a.begin G start goal).openList → n = start := by
    intro n hn
    simpa [begin, reset, PathNodePriorityQueue.push] using hn
  refine ⟨hparent start, hscore, ?_, ?_, ?_, fun n => .root (hparent n)⟩
  · intro n hn
    rw [hseen n hn, hscore]
  · intro n hn hne
    exact absurd (hseen n hn) hne
  · intro n p hp
    rw [hparent n] at hp
    cases hp

theorem startFirst_begin (G : PathGraph ν K) (a : AStar ν K) (start goal : ν) :
    StartFirst start (a.begin G start goal) := by
  right
  intro n hn
  simpa [begin, reset, PathNodePriorityQueue.push] using hn

/-- Scores do not grow on the way up. -/
theorem Parents.score_le (I : Parents G start a) (hc : ∀ e ∈ G.edges, 0 ≤ e.cost) {n m : ν}
    (h : ReflTransGen (Link a.parentOf) n m) : a.gScoreOf m ≤ a.gScoreOf n := by
  induction h with
  | refl => exact le_refl _
  | tail _ hlink ih =>
    obtain ⟨_, e, he, _, _, hle⟩ := I.link _ _ hlink
    have hcost := hc e (PathGraph.mem_connections.mp he).1
    exact le_trans (le_trans (le_add_score _ _ hcost) hle) ih

/-- Everything above a closed node is closed. -/
theorem Parents.closed_above (I : Parents G start a) {n m : ν} (hn : n ∈ a.closedList)
    (h : ReflTransGen (Link a.parentOf) n m) : m ∈ a.closedList := by
  induction h with
  | refl => exact hn
  | tail _ hlink _ => exact (I.link _ _ hlink).1

/-- A new link from `q` to the closed node `p` keeps the record sound when `q` is not
on the way up from `p` and, if it already has children, gets no worse. -/
theorem Parents.rescore (I : Parents G start a) (hc : ∀ e ∈ G.edges, 0 ≤ e.cost)
    {pq : PathEdge ν K} (hp : p ∈ a.closedList) (he : pq ∈ G.connections p)
    (ht : pq.traversable = true) (ho : pq.otherNode p = some q) (hq : q ≠ start)
    (hup : ¬ ReflTransGen (Link a.parentOf) p q)
    (hle : ∀ n, a.parentOf n = some q → a.gScoreOf p + pq.cost ≤ a.gScoreOf q)
    (f : K) (queue : List ν) (hqueue : ∀ n ∈ queue, n ∈ a.openList ∨ n = q) :
    Parents G start { a.score p q f (a.gScoreOf p + pq.cost) with openList := queue } := by
  have hparent : AStar.parentOf { a.score p q f (a.gScoreOf p + pq.cost) with openList := queue } =
      Function.update a.parentOf q (some p) := parentOf_score a p q f _
  have hscore : AStar.gScoreOf { a.score p q f (a.gScoreOf p + pq.cost) with openList := queue } =
      Function.update a.gScoreOf q (a.gScoreOf p + pq.cost) := gScoreOf_score a p q f _
  have hpq : p ≠ q := by
    intro h
    exact hup (h ▸ .refl)
  have hcost := hc pq (PathGraph.mem_connections.mp he).1
  have hseen : ∀ n, n ∈ a.closedList ∨ n ∈ queue → n ≠ q → n ∈ a.closedList ∨ n ∈ a.openList := by
    intro n hn hnq
    cases hn with
    | inl hn => exact .inl hn
    | inr hn => exact (hqueue n hn).elim .inr fun h => absurd h hnq
  refine ⟨?_, ?_, ?_, ?_, ?_, ?_⟩
  · rw [hparent, Function.update_of_ne (Ne.symm hq)]
    exact I.start_parent
  · rw [hscore, Function.update_of_ne (Ne.symm hq)]
    exact I.start_score
  · intro n hn
    rw [hscore]
    by_cases hnq : n = q
    · subst hnq
      rw [Function.update_self]
      exact le_trans (I.nonneg p (.inl hp)) (le_add_score _ _ hcost)
    · rw [Function.update_of_ne hnq]
      exact I.nonneg n (hseen n hn hnq)
  · intro n hn hns
    rw [hparent]
    by_cases hnq : n = q
    · exact ⟨p, by rw [hnq, Function.update_self]⟩
    · rw [Function.update_of_ne hnq]
      exact I.seen_parent n (hseen n hn hnq) hns
  · intro n m hm
    rw [hparent] at hm
    rw [hscore]
    by_cases hnq : n = q
    · subst hnq
      rw [Function.update_self] at hm
      cases hm
      refine ⟨hp, pq, he, ht, ho, ?_⟩
      rw [Function.update_of_ne hpq, Function.update_self]
    · rw [Function.update_of_ne hnq] at hm ⊢
      obtain ⟨hclosed, e, hem, het, heo, hel⟩ := I.link n m hm
      refine ⟨hclosed, e, hem, het, heo, ?_⟩
      by_cases hmq : m = q
      · subst hmq
        rw [Function.update_self]
        exact le_trans (add_le_add_left_score _ _ _ (hle n hm)) hel
      · rwa [Function.update_of_ne hmq]
  · intro n
    rw [hparent]
    exact (I.rooted p).relink hup (I.rooted n)

/-- Relaxing a connection of a closed node keeps the record sound. -/
theorem Parents.relax (I : Parents G start a) (hc : ∀ e ∈ G.edges, 0 ≤ e.cost)
    (hs : start ∈ a.closedList) (hp : p ∈ a.closedList) {pq : PathEdge ν K}
    (he : pq ∈ G.connections p) (h : AStar.relax G goal p a pq = some a') :
    Parents G start a' ∧ a'.closedList = a.closedList := by
  have hcost := hc pq (PathGraph.mem_connections.mp he).1
  have hgrow := le_add_score (a.gScoreOf p) _ hcost
  rcases relax_cases h with ⟨_, rfl⟩ | ⟨q, ht, ho, ⟨_, _, rfl⟩ | ⟨_, hlt, rfl⟩ | ⟨hqc, hqo, rfl⟩⟩
  · exact ⟨I, rfl⟩
  · exact ⟨I, rfl⟩
  · -- an ancestor of `p`, the start node included, is never improved from `p`
    have hup : ¬ ReflTransGen (Link a.parentOf) p q := by
      intro hpq
      exact absurd (lt_of_le_of_lt (le_trans (I.score_le hc hpq) hgrow) hlt) (lt_irrefl _)
    have hq : q ≠ start := by
      intro hqs
      rw [hqs, I.start_score] at hlt
      exact absurd (lt_of_le_of_lt (le_trans (I.nonneg p (.inl hp)) hgrow) hlt) (lt_irrefl _)
    exact ⟨I.rescore hc hp he ht ho hq hup (fun _ _ => le_of_lt hlt) _ a.openList (fun _ => .inl), rfl⟩
  · -- a node that is not closed has no children yet
    have hup : ¬ ReflTransGen (Link a.parentOf) p q := fun hpq => hqc (I.closed_above hp hpq)
    have hq : q ≠ start := by
      intro hqs
      exact hqc (hqs ▸ hs)
    have hle : ∀ n, a.parentOf n = some q → a.gScoreOf p + pq.cost ≤ a.gScoreOf q :=
      fun n hn => absurd (I.link n q hn).1 hqc
    refine ⟨I.rescore hc hp he ht ho hq hup hle _ (a.openList ++ [q]) ?_, rfl⟩
    intro n hn
    simpa using hn

/-- Moving an open node to the closed list records nothing. -/
theorem Parents.close (I : Parents G start a) (hp : p ∈ a.openList) {rest : List ν}
    (hrest : rest ⊆ a.openList) : Parents G start (a.close p rest) := by
  have hseen : ∀ n, n ∈ a.closedList ++ [p] ∨ n ∈ rest → n ∈ a.closedList ∨ n ∈ a.openList := by
    intro n hn
    cases hn with
    | inl hn =>
      cases List.mem_append.mp hn with
      | inl hn => exact .inl hn
      | inr hn => exact .inr (List.mem_singleton.mp hn ▸ hp)
    | inr hn => exact .inr (hrest hn)
  refine ⟨I.start_parent, I.start_score, fun n hn => I.nonneg n (hseen n hn),
    fun n hn => I.seen_parent n (hseen n hn), ?_, I.rooted⟩
  intro n m hm
  obtain ⟨hclosed, e, he⟩ := I.link n m hm
  exact ⟨List.mem_append_left _ hclosed, e, he⟩

omit [Score K] [DecidableEq ν] in
theorem StartFirst.close (S : StartFirst start a) (hp : p ∈ a.openList) (rest : List ν) :
    start ∈ (a.close p rest).closedList := by
  cases S with
  | inl h => exact List.mem_append_left _ h
  | inr h => exact List.mem_append_right _ (by rw [h p hp]; exact List.mem_singleton_self start)

/-- Expanding a closed node keeps the record sound. -/
theorem Parents.expand (I : Parents G start a) (hc : ∀ e ∈ G.edges, 0 ≤ e.cost)
    (hs : start ∈ a.closedList) (hp : p ∈ a.closedList)
    (h : (G.connections p).foldlM (AStar.relax G goal p) a = some a') :
    Parents G start a' ∧ a'.closedList = a.closedList := by
  refine foldlM_invariant (fun b => Parents G start b ∧ b.closedList = a.closedList)
    (G.connections p) ?_ ⟨I, rfl⟩ h
  intro pq hpq b c hb hbc
  obtain ⟨Ib, hb⟩ := hb
  have hstep := Ib.relax hc (hb ▸ hs) (hb ▸ hp) hpq hbc
  exact ⟨hstep.1, hstep.2.trans hb⟩

theorem Parents.searchTurn (I : Parents G start a) (S : StartFirst start a)
    (hc : ∀ e ∈ G.edges, 0 ≤ e.cost) (h : SearchTurn G goal a a') :
    Parents G start a' ∧ StartFirst start a' := by
  obtain ⟨p, hp, _, rest, hrest, hexp⟩ := h
  have hs := S.close hp rest
  have hpc : p ∈ (a.close p rest).closedList := List.mem_append_right _ (List.mem_singleton_self p)
  have hstep := (I.close hp hrest).expand hc hs hpc hexp
  exact ⟨hstep.1, .inl (hstep.2 ▸ hs)⟩

/-- The record is sound in every state a search reaches, in whatever order. -/
theorem parents_reached (hc : ∀ e ∈ G.edges, 0 ≤ e.cost)
    (h : ReflTransGen (SearchTurn G goal) (a.begin G start goal) a') :
    Parents G start a' ∧ StartFirst start a' := by
  induction h with
  | refl => exact ⟨parents_begin G a start goal, startFirst_begin G a start goal⟩
  | tail _ hturn ih => exact ih.1.searchTurn ih.2 hc hturn

/-- The way up from a seen node, read backwards, is a walk from the start no dearer
than the node's score. -/
theorem Parents.walk (I : Parents G start a) {n : ν} {up : List ν} (h : Ascent a.parentOf n up)
    (hn : n ∈ a.closedList ∨ n ∈ a.openList) :
    ∃ c, G.Walk start 0 up.reverse c n ∧ c ≤ a.gScoreOf n := by
  induction h with
  | @root n hroot =>
    have hns : n = start := by
      by_contra hne
      obtain ⟨p, hp⟩ := I.seen_parent n hn hne
      rw [hroot] at hp
      cases hp
    subst hns
    exact ⟨0, .nil, le_of_eq I.start_score.symm⟩
  | @link n p up hlink _ ih =>
    obtain ⟨hclosed, e, he, ht, ho, hle⟩ := I.link n p hlink
    obtain ⟨c, hwalk, hcp⟩ := ih (.inl hclosed)
    refine ⟨c + e.cost, ?_, le_trans (add_le_add_left_score _ _ _ hcp) hle⟩
    rw [List.reverse_cons]
    exact .snoc hwalk he ht ho

/-- The search of the source is one of the orders. -/
theorem searchTurn_of_turn (h : Turn (searchBody G goal) a a') : SearchTurn G goal a a' := by
  unfold Turn searchBody at h
  split at h
  · cases h
  · next p htop =>
    have hp : p ∈ a.openList := List.mem_of_mem_head? htop
    dsimp only at h
    split at h
    · cases h
    · next hne =>
      obtain ⟨b, hb, he⟩ := Option.map_eq_some_iff.mp h
      cases he
      exact ⟨p, hp, hne, _, List.dropLast_subset _, hb⟩

theorem searchBody_true {s : AStar ν K} (h : searchBody G goal a = some (.inr (true, s))) :
    goal ∈ a.openList ∧ s = a.close goal (PathNodePriorityQueue.pop a.openList) := by
  unfold searchBody at h
  split at h
  · cases h
  · next p htop =>
    have hp : p ∈ a.openList := List.mem_of_mem_head? htop
    dsimp only at h
    split at h
    · next hpg =>
      subst hpg
      cases h
      exact ⟨hp, rfl⟩
    · obtain ⟨b, _, he⟩ := Option.map_eq_some_iff.mp h
      cases he

theorem findsInAnyOrder_of_findPath {fuel : Nat}
    (h : findPath fuel G a start goal = some (true, a')) : FindsInAnyOrder G a start goal a' := by
  obtain ⟨s, path, hs, hpath, rfl⟩ := findPath_true_iff.mp ⟨fuel, h⟩
  obtain ⟨t, hturns, hleave⟩ := returns_iff_turns.mp hs
  obtain ⟨hgoal, rfl⟩ := searchBody_true hleave
  refine ⟨t, _, path, ?_, hgoal, List.dropLast_subset _, hpath, rfl⟩
  exact ReflTransGen.mono (fun _ _ => searchTurn_of_turn) _ _ hturns

/-- The path loop over a sound record leaves with a walk from the start to the last
closed node. -/
theorem Parents.path_returns (I : Parents G start a) (hgoal : a.closedList.getLast? = some goal)
    (hpath : a.path = []) :
    ∃ path, Returns (pathBody a) (a.closedList.getLast?, a.path) path ∧
      ValidPath G start goal { a with path := path.reverse } := by
  obtain ⟨up, hup⟩ := (I.rooted goal).exists_ascent
  obtain ⟨c, hwalk, hle⟩ := I.walk hup (.inl (List.mem_of_getLast? hgoal))
  refine ⟨up, ?_, hwalk.head?, hwalk.getLast?, List.nodup_reverse.mpr hup.nodup, c, hwalk, _, ?_, hle⟩
  · rw [hgoal, hpath]
    exact pathBody_returns hup []
  · simp [pathCost, hgoal, gScoreOf]

theorem path_reached (h : ReflTransGen (SearchTurn G goal) (a.begin G start goal) a') :
    a'.path = [] := by
  induction h with
  | refl => rfl
  | @tail b c _ hturn ih =>
    obtain ⟨p, _, _, rest, _, hexp⟩ := hturn
    refine foldlM_invariant (fun d : AStar ν K => d.path = []) (G.connections p) ?_
      (show (b.close p rest).path = [] from ih) hexp
    intro pq _ d e hd hde
    rcases relax_cases hde with ⟨_, rfl⟩ | ⟨q, _, _, ⟨_, _, rfl⟩ | ⟨_, _, rfl⟩ | ⟨_, _, rfl⟩⟩ <;> exact hd

/-- Closing the goal after any search leaves a record whose path loop succeeds. -/
theorem path_returns_reached (hc : ∀ e ∈ G.edges, 0 ≤ e.cost)
    (h : ReflTransGen (SearchTurn G goal) (a.begin G start goal) a') (hgoal : goal ∈ a'.openList)
    {rest : List ν} (hrest : rest ⊆ a'.openList) :
    ∃ path, Returns (pathBody (a'.close goal rest))
        ((a'.close goal rest).closedList.getLast?, a'.path) path ∧
      ValidPath G start goal { a'.close goal rest with path := path.reverse } :=
  ((parents_reached hc h).1.close hgoal hrest).path_returns (by simp [AStar.close])
    (show a'.path = [] from path_reached h)

theorem validPath_of_findsInAnyOrder (hc : ∀ e ∈ G.edges, 0 ≤ e.cost)
    (h : FindsInAnyOrder G a start goal a') : ValidPath G start goal a' := by
  obtain ⟨s, rest, path, hs, hgoal, hrest, hpath, rfl⟩ := h
  obtain ⟨path', hpath', hvalid⟩ := path_returns_reached hc hs hgoal hrest
  rw [hpath.unique hpath']
  exact hvalid

/-- Whatever order the open list yields its nodes in, the parent links stay acyclic
and a successful search reports a simple traversable path from start to goal that
costs at most `PathCost()`; the search of the source is one of these orders. -/
theorem findPath_validPath (G : PathGraph ν K) (hc : ∀ e ∈ G.edges, 0 ≤ e.cost)
    (a : AStar ν K) (start goal : ν) :
    (∀ s, ReflTransGen (SearchTurn G goal) (a.begin G start goal) s → ∀ n, Rooted s.parentOf n) ∧
    (∀ a', FindsInAnyOrder G a start goal a' → ValidPath G start goal a') ∧
    ∀ fuel a', findPath fuel G a start goal = some (true, a') → FindsInAnyOrder G a start goal a' :=
  ⟨fun _ hs => (parents_reached hc hs).1.rooted, fun _ => validPath_of_findsInAnyOrder hc,
    fun _ _ => findsInAnyOrder_of_findPath⟩

/-- One edge from the start to the goal. -/
def hallway : PathGraph Nat ℚ where
  edges := [.create 0 1 1]
  heuristicValue := fun _ _ => 0

theorem findPath_validPath_hallway :
    (∀ e ∈ hallway.edges, 0 ≤ e.cost) ∧
    ∃ a', findPath 3 hallway create 0 1 = some (true, a') ∧ ValidPath hallway 0 1 a' := by
  have hc : ∀ e ∈ hallway.edges, 0 ≤ e.cost := by decide +kernel
  have hfound : (findPath 3 hallway create 0 1).map Prod.fst = some true := by decide +kernel
  obtain ⟨⟨b, a'⟩, hf, hb⟩ := Option.map_eq_some_iff.mp hfound
  cases hb
  have hvalid := findPath_validPath hallway hc create 0 1
  exact ⟨hc, a', hf, hvalid.2.1 a' (hvalid.2.2 3 a' hf)⟩

end Lumos.AI.AStar
