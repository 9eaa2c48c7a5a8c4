import Lumos.AI.PathGraph
import Mathlib.Data.List.Nodup
import Mathlib.Data.List.Perm.Subperm

/-!
# Corridors and junctions

From the start there may be exactly one new node to go to, and from that one again
only one. The nodes passed this way form a corridor; it ends at the goal, at a dead
end, or at a junction where several new nodes open up at once.
-/
namespace Lumos.AI

open Relation

variable {ν K : Type} [DecidableEq ν]

/-- The neighbours of a node outside `seen`, in the order of its connections. -/
def fresh (G : PathGraph ν K) (seen : List ν) (n : ν) : List ν :=
  (G.neighbours n).filter (· ∉ seen)

variable {G : PathGraph ν K} {start goal n m : ν} {seen : List ν}

theorem mem_fresh : m ∈ fresh G seen n ↔ G.Adjacent n m ∧ m ∉ seen := by
  simp [fresh, PathGraph.mem_neighbours]

theorem mem_of_fresh_nil (h : fresh G seen n = []) {x : ν} (hx : G.Adjacent n x) : x ∈ seen := by
  by_contra hnot
  have hmem := mem_fresh.mpr ⟨hx, hnot⟩
  rw [h] at hmem
  cases hmem

/-- The walk from the start that goes on while there is exactly one new node to go
to: the nodes left behind, in order, and the node it stands on. -/
inductive Corridor (G : PathGraph ν K) (start goal : ν) : List ν → ν → Prop
  | start : Corridor G start goal [] start
  | onward {seen : List ν} {n m : ν} : Corridor G start goal seen n → n ≠ goal →
      (fresh G (seen ++ [n]) n).head? = some m → (∀ x ∈ fresh G (seen ++ [n]) n, x = m) →
      Corridor G start goal (seen ++ [n]) m

/-- The corridor ends at `n`, where several new nodes open up, `m` the first. -/
structure Junction (G : PathGraph ν K) (start goal : ν) (seen : List ν) (n m : ν) : Prop where
  corridor : Corridor G start goal seen n
  ne_goal : n ≠ goal
  first : (fresh G (seen ++ [n]) n).head? = some m
  other : ∃ x ∈ fresh G (seen ++ [n]) n, x ≠ m

theorem Corridor.reachable (h : Corridor G start goal seen n) : G.Reachable start n := by
  induction h with
  | start => exact .refl
  | onward _ _ hm _ ih => exact ih.tail (mem_fresh.mp (List.mem_of_mem_head? hm)).1

theorem Junction.adjacent (h : Junction G start goal seen n m) : G.Adjacent n m :=
  (mem_fresh.mp (List.mem_of_mem_head? h.first)).1

theorem Junction.reachable (h : Junction G start goal seen n m) : G.Reachable start m :=
  h.corridor.reachable.tail h.adjacent

theorem Corridor.goal_not_mem (h : Corridor G start goal seen n) : goal ∉ seen := by
  induction h with
  | start => exact List.not_mem_nil
  | onward _ hn _ _ ih =>
    intro hg
    cases List.mem_append.mp hg with
    | inl hg => exact ih hg
    | inr hg => exact hn (List.mem_singleton.mp hg).symm

theorem Corridor.nodup (h : Corridor G start goal seen n) : (seen ++ [n]).Nodup := by
  induction h with
  | start => exact List.nodup_singleton _
  | onward _ _ hm _ ih =>
    have hnot := (mem_fresh.mp (List.mem_of_mem_head? hm)).2
    rw [← List.concat_eq_append]
    exact ih.concat hnot

theorem Corridor.subset (h : Corridor G start goal seen n) :
    seen ++ [n] ⊆ start :: G.edges.flatMap fun e => [e.nodeA, e.nodeB] := by
  induction h with
  | start => simp
  | onward _ _ hm _ ih =>
    have hadj := (mem_fresh.mp (List.mem_of_mem_head? hm)).1
    have hend := G.neighbours_subset _ (PathGraph.mem_neighbours.mpr hadj)
    intro x hx
    cases List.mem_append.mp hx with
    | inl hx => exact ih hx
    | inr hx => exact List.mem_cons_of_mem _ (List.mem_singleton.mp hx ▸ hend)

theorem Corridor.start_mem (h : Corridor G start goal seen n) : start ∈ seen ++ [n] := by
  induction h with
  | start => exact List.mem_singleton_self _
  | onward _ _ _ _ ih => exact List.mem_append_left _ ih

/-- No edge leads from a node left behind to a node the corridor has not met. -/
theorem Corridor.closed (h : Corridor G start goal seen n) {x y : ν} (hx : x ∈ seen)
    (hxy : G.Adjacent x y) : y ∈ seen ++ [n] := by
  induction h with
  | start => exact absurd hx List.not_mem_nil
  | @onward seen n m _ _ _ hall ih =>
    cases List.mem_append.mp hx with
    | inl hx => exact List.mem_append_left _ (ih hx)
    | inr hx =>
      rw [List.mem_singleton] at hx
      subst hx
      by_cases hy : y ∈ seen ++ [x]
      · exact List.mem_append_left _ hy
      · exact List.mem_append_right _ (List.mem_singleton.mpr (hall y (mem_fresh.mpr ⟨hxy, hy⟩)))

/-- Only the last node of a corridor leads on. -/
theorem Corridor.eq_last (h : Corridor G start goal seen n) {x y : ν} (hx : x ∈ seen ++ [n])
    (hxy : G.Adjacent x y) (hy : y ∉ seen ++ [n]) : x = n := by
  cases List.mem_append.mp hx with
  | inl hx => exact absurd (h.closed hx hxy) hy
  | inr hx => exact List.mem_singleton.mp hx

/-- A corridor with nowhere to go has met everything there is to reach. -/
theorem Corridor.not_reachable (h : Corridor G start goal seen n) (hn : n ≠ goal)
    (hstop : fresh G (seen ++ [n]) n = []) : ¬ G.Reachable start goal := by
  have hclosed : ∀ x y, x ∈ seen ++ [n] → G.Adjacent x y → y ∈ seen ++ [n] := by
    intro x y hx hxy
    by_contra hy
    have hlast := h.eq_last hx hxy hy
    subst hlast
    exact hy (mem_of_fresh_nil hstop hxy)
  have hmet : ∀ x, G.Reachable start x → x ∈ seen ++ [n] := by
    intro x hx
    induction hx with
    | refl => exact h.start_mem
    | tail _ hxy ih => exact hclosed _ _ ih hxy
  intro hreach
  cases List.mem_append.mp (hmet goal hreach) with
  | inl hg => exact h.goal_not_mem hg
  | inr hg => exact hn (List.mem_singleton.mp hg).symm

/-- A corridor comes to an end: at the goal, at a dead end or at a junction. -/
theorem corridor_stops (G : PathGraph ν K) (start goal : ν) :
    ∃ seen n, Corridor G start goal seen n ∧
      (n = goal ∨ fresh G (seen ++ [n]) n = [] ∨ ∃ m, Junction G start goal seen n m) := by
  by_contra hno
  simp only [not_exists, not_and, not_or] at hno
  have hlong : ∀ k, ∃ seen n, Corridor G start goal seen n ∧ seen.length = k := by
    intro k
    induction k with
    | zero => exact ⟨[], start, .start, rfl⟩
    | succ k ih =>
      obtain ⟨seen, n, hc, hlen⟩ := ih
      obtain ⟨hgoal, hne, hjunction⟩ := hno seen n hc
      cases hf : (fresh G (seen ++ [n]) n).head? with
      | none => exact absurd (List.head?_eq_none_iff.mp hf) hne
      | some m =>
        have hall : ∀ x ∈ fresh G (seen ++ [n]) n, x = m := by
          intro x hx
          by_contra hxm
          exact hjunction m ⟨hc, hgoal, hf, x, hx, hxm⟩
        exact ⟨seen ++ [n], m, .onward hc hgoal hf hall, by simp [hlen]⟩
  obtain ⟨seen, n, hc, hlen⟩ := hlong (start :: G.edges.flatMap fun e => [e.nodeA, e.nodeB]).length
  have hle := (hc.nodup.subperm hc.subset).length_le
  rw [List.length_append, hlen, List.length_singleton] at hle
  omega

end Lumos.AI
