import Mathlib.Order.Interval.Set.Basic
import Lumos.Library.Loop
import Lumos.Library.OrderedPairs
import Lumos.Maths.BoundingBox

/-!
# Broadphases

`Broadphase::FindPotentialCollisionPairs` takes an array of references to rigid bodies,
may rearrange it, and puts pairs into the output. Following a null reference faults.
-/
namespace Lumos.Physics

open Maths OrderedPairs

variable {β C : Type}

/-- What the broadphases read of a rigid body. -/
structure RigidBody3D (C : Type) where
  worldSpaceAABB : BoundingBox C
  hasCollisionShape : Bool
  isStatic : Bool
  isAtRest : Bool

namespace RigidBody3D

def isAwake (b : RigidBody3D C) : Bool := !b.isAtRest

/-- Awake and not static. -/
def isActive (b : RigidBody3D C) : Bool := !(b.isAtRest || b.isStatic)

theorem isActive_iff {b : RigidBody3D C} :
    b.isActive = true ↔ b.isAtRest = false ∧ b.isStatic = false := by simp [isActive]

end RigidBody3D

/-- `pObjectA` and `pObjectB` -/
abbrev CollisionPair (β : Type) := β × β

/-- `FindPotentialCollisionPairs`, from the array and the output so far. -/
abbrev Broadphase (β : Type) :=
  List (Option β) → List (CollisionPair β) → Option (List (Option β) × List (CollisionPair β))

section BruteForce

variable (bodies : β → RigidBody3D C)

/-- The body of the inner loop. The second reference is followed only where the first
object does not settle the test. -/
def bruteForcePair (collisionPairs : List (CollisionPair β)) :
    Option β × Option β → Option (List (CollisionPair β))
  | (none, _) => none
  | (some a, none) =>
    let obj1 := bodies a
    if obj1.isAtRest || obj1.isStatic || obj1.hasCollisionShape then none else some collisionPairs
  | (some a, some b) =>
    let obj1 := bodies a
    let obj2 := bodies b
    if obj1.isAtRest && obj2.isAtRest then some collisionPairs
    else if obj1.isStatic && obj2.isStatic then some collisionPairs
    else if obj1.isAtRest && obj2.isStatic then some collisionPairs
    else if obj1.isStatic && obj2.isAtRest then some collisionPairs
    else if obj1.hasCollisionShape && obj2.hasCollisionShape && (obj1.isAwake || obj2.isAwake) then
      some (collisionPairs ++ [(a, b)])
    else some collisionPairs

/-- `BruteForceBroadphase::FindPotentialCollisionPairs` -/
def bruteForce : Broadphase β := fun objects collisionPairs => do
  let collisionPairs ← (pairsOf objects).foldlM (bruteForcePair bodies) collisionPairs
  some (objects, collisionPairs)

variable {bodies}

theorem bruteForcePair_cases {refs : Option β × Option β} {pairs pairs' : List (CollisionPair β)}
    (h : bruteForcePair bodies pairs refs = some pairs') :
    pairs' = pairs ∨ ∃ a b, refs = (some a, some b) ∧ pairs' = pairs ++ [(a, b)] ∧
      (bodies a).hasCollisionShape = true ∧ (bodies b).hasCollisionShape = true ∧
      ((bodies a).isActive = true ∨ (bodies b).isActive = true) := by
  obtain ⟨refA, refB⟩ := refs
  cases refA with
  | none => simp [bruteForcePair] at h
  | some a =>
    cases refB with
    | none =>
      simp only [bruteForcePair] at h
      split at h
      · cases h
      · exact .inl (Option.some.inj h).symm
    | some b =>
      simp only [bruteForcePair] at h
      split at h
      · exact .inl (Option.some.inj h).symm
      · split at h
        · exact .inl (Option.some.inj h).symm
        · split at h
          · exact .inl (Option.some.inj h).symm
          · split at h
            · exact .inl (Option.some.inj h).symm
            · split at h
              · rename_i hrest hstatic hmixed hmixed' hshapes
                simp only [Bool.and_eq_true, not_and, Bool.not_eq_true] at hrest hstatic hmixed hmixed' hshapes
                obtain ⟨⟨ha, hb⟩, _⟩ := hshapes
                refine .inr ⟨a, b, rfl, (Option.some.inj h).symm, ha, hb, ?_⟩
                rw [RigidBody3D.isActive_iff, RigidBody3D.isActive_iff]
                grind
              · exact .inl (Option.some.inj h).symm

/-- A pair reported has two shapes and an active body, the first standing before the
second in the array. -/
theorem bruteForce_sound {objects objects' : List (Option β)} {found : List (CollisionPair β)}
    {a b : β} (h : bruteForce bodies objects [] = some (objects', found)) (hab : (a, b) ∈ found) :
    [some a, some b].Sublist objects ∧
      (bodies a).hasCollisionShape = true ∧ (bodies b).hasCollisionShape = true ∧
      ((bodies a).isActive = true ∨ (bodies b).isActive = true) := by
  obtain ⟨pairs, hpairs, heq⟩ := Option.bind_eq_some_iff.mp h
  obtain ⟨rfl, rfl⟩ := Prod.mk.inj (Option.some.inj heq)
  let Sound (found : List (CollisionPair β)) : Prop := ∀ a b, (a, b) ∈ found →
    [some a, some b].Sublist objects ∧
      (bodies a).hasCollisionShape = true ∧ (bodies b).hasCollisionShape = true ∧
      ((bodies a).isActive = true ∨ (bodies b).isActive = true)
  have hsound : Sound pairs := by
    refine Loop.foldlM_invariant Sound (pairsOf objects) ?_ (b := []) (by simp [Sound]) hpairs
    intro refs hrefs before after hbefore hstep
    cases bruteForcePair_cases hstep with
    | inl hsame => exact hsame ▸ hbefore
    | inr hnew =>
      obtain ⟨x, y, rfl, rfl, hx, hy, hactive⟩ := hnew
      intro a b hab
      cases List.mem_append.mp hab with
      | inl hold => exact hbefore a b hold
      | inr hlast =>
        obtain ⟨rfl, rfl⟩ := Prod.mk.inj (List.mem_singleton.mp hlast)
        exact ⟨mem_pairsOf.mp hrefs, hx, hy, hactive⟩
  exact hsound a b hab

end BruteForce

section SortAndSweep

variable [Coordinate C] (bodies : β → RigidBody3D C) (axis : Fin 3)

def leftEdge (b : β) : C := (bodies b).worldSpaceAABB.min.get axis

def rightEdge (b : β) : C := (bodies b).worldSpaceAABB.max.get axis

/-- What `std::sort` may do with the comparison of the left edges. -/
abbrev LeftEdgeSort := SortBy (leftEdge bodies axis)

/-- The tests of the inner loop. -/
def sweepTest (p : CollisionPair β) : Bool :=
  let obj := bodies p.1
  let obj2 := bodies p.2
  !((obj.isAtRest || obj.isStatic) && (obj2.isAtRest || obj2.isStatic)) &&
    decide (leftEdge bodies axis p.2 < rightEdge bodies axis p.1)

/-- The two loops over the sorted array. -/
def sweep (sorted : List β) : List (CollisionPair β) := (pairsOf sorted).filter (sweepTest bodies axis)

/-- `SortAndSweepBroadphase::FindPotentialCollisionPairs`, which follows every reference. -/
def sortAndSweep (sort : LeftEdgeSort bodies axis) : Broadphase β := fun objects collisionPairs => do
  let objects ← objects.mapM id
  let sorted := sort.sort objects
  some (sorted.map some, collisionPairs ++ sweep bodies axis sorted)

variable {bodies axis}

theorem sortAndSweep_some (sort : LeftEdgeSort bodies axis) (objects : List β)
    (collisionPairs : List (CollisionPair β)) :
    sortAndSweep bodies axis sort (objects.map some) collisionPairs =
      some ((sort.sort objects).map some, collisionPairs ++ sweep bodies axis (sort.sort objects)) := by
  have hrefs : (objects.map some).mapM id = some objects := by
    induction objects with
    | nil => rfl
    | cons a objects ih => simp [ih]
  simp only [sortAndSweep, hrefs]
  rfl

theorem mem_sweep {sorted : List β} {a b : β} :
    (a, b) ∈ sweep bodies axis sorted ↔ [a, b].Sublist sorted ∧
      ((bodies a).isActive = true ∨ (bodies b).isActive = true) ∧
      leftEdge bodies axis b < rightEdge bodies axis a := by
  have htest : sweepTest bodies axis (a, b) = true ↔
      ((bodies a).isActive = true ∨ (bodies b).isActive = true) ∧
        leftEdge bodies axis b < rightEdge bodies axis a := by
    simp [sweepTest, RigidBody3D.isActive]
  simp only [sweep, List.mem_filter, mem_pairsOf, htest]

/-- A pair with an active body that overlaps along the axis is reported, in the order
the sort leaves it in. -/
theorem sweep_complete (sort : LeftEdgeSort bodies axis) {objects : List β} {a b : β}
    (hab : [a, b].Sublist objects)
    (hactive : (bodies a).isActive = true ∨ (bodies b).isActive = true)
    (hoverlap : (bodies a).worldSpaceAABB.StrictlyOverlaps (bodies b).worldSpaceAABB) :
    (a, b) ∈ sweep bodies axis (sort.sort objects) ∨ (b, a) ∈ sweep bodies axis (sort.sort objects) := by
  cases pair_of_perm hab (sort.perm objects) with
  | inl h => exact .inl (mem_sweep.mpr ⟨h, hactive, (hoverlap axis).2⟩)
  | inr h => exact .inr (mem_sweep.mpr ⟨h, hactive.symm, (hoverlap axis).1⟩)

theorem sweep_once (sort : LeftEdgeSort bodies axis) {objects : List β} (h : objects.Nodup) :
    Once (sweep bodies axis (sort.sort objects)) :=
  (pairsOf_once ((sort.perm objects).nodup_iff.mpr h)).sublist List.filter_sublist

end SortAndSweep

end Lumos.Physics

/-!
## The sweep against brute force

Over bodies that all have a shape and a box of positive extent, sorting and sweeping
reports what brute force reports, restricted to boxes that meet on the axis.
-/
namespace Lumos.Physics

open Maths OrderedPairs

variable {β C : Type} [Coordinate C] (bodies : β → RigidBody3D C)

/-- The open intervals that the two boxes cover on the axis intersect. -/
def IntervalsMeet (axis : Fin 3) (a b : β) : Prop :=
  max (leftEdge bodies axis a) (leftEdge bodies axis b) <
    min (rightEdge bodies axis a) (rightEdge bodies axis b)

/-- One of the two bodies is active. -/
def eitherActive (p : CollisionPair β) : Bool := (bodies p.1).isActive || (bodies p.2).isActive

variable {bodies}

/-- Where there is a coordinate between any two, the intervals have one in common. -/
theorem intervalsMeet_iff_nonempty [DenselyOrdered C] {axis : Fin 3} {a b : β} :
    IntervalsMeet bodies axis a b ↔
      (Set.Ioo (leftEdge bodies axis a) (rightEdge bodies axis a) ∩
        Set.Ioo (leftEdge bodies axis b) (rightEdge bodies axis b)).Nonempty := by
  rw [Set.Ioo_inter_Ioo, Set.nonempty_Ioo]
  rfl

theorem intervalsMeet_comm {axis : Fin 3} {a b : β} :
    IntervalsMeet bodies axis a b ↔ IntervalsMeet bodies axis b a := by
  rw [IntervalsMeet, max_comm, min_comm, IntervalsMeet]

/-- In sorted order the right edge of the first decides. -/
theorem intervalsMeet_iff_of_le {axis : Fin 3} {a b : β}
    (ha : leftEdge bodies axis a < rightEdge bodies axis a)
    (hb : leftEdge bodies axis b < rightEdge bodies axis b)
    (hab : leftEdge bodies axis a ≤ leftEdge bodies axis b) :
    IntervalsMeet bodies axis a b ↔ leftEdge bodies axis b < rightEdge bodies axis a := by
  simp only [IntervalsMeet, max_lt_iff, lt_min_iff]
  constructor
  · intro h
    exact h.1.2
  · intro h
    exact ⟨⟨ha, h⟩, hab.trans_lt hb, hb⟩

omit [Coordinate C] in
/-- One turn of the inner loop over two bodies with shapes. -/
theorem bruteForcePair_shaped {a b : β} (ha : (bodies a).hasCollisionShape = true)
    (hb : (bodies b).hasCollisionShape = true) (collisionPairs : List (CollisionPair β)) :
    bruteForcePair bodies collisionPairs (some a, some b) =
      if eitherActive bodies (a, b) then some (collisionPairs ++ [(a, b)])
      else some collisionPairs := by
  have hcases : ∀ rest static rest' static' : Bool, ∀ x y : Option (List (CollisionPair β)),
      (if rest && rest' then x else if static && static' then x else if rest && static' then x
        else if static && rest' then x else if true && true && (!rest || !rest') then y else x) =
      if !(rest || static) || !(rest' || static') then y else x := by
    intro rest static rest' static' x y
    cases rest <;> cases static <;> cases rest' <;> cases static' <;> rfl
  simp only [bruteForcePair, eitherActive, RigidBody3D.isActive, RigidBody3D.isAwake, ha, hb]
  exact hcases _ _ _ _ _ _

omit [Coordinate C] in
theorem bruteForce_shaped {objects : List β}
    (hshapes : ∀ b ∈ objects, (bodies b).hasCollisionShape = true) :
    bruteForce bodies (objects.map some) [] =
      some (objects.map some, (pairsOf objects).filter (eitherActive bodies)) := by
  have hloop : ∀ (pairs collisionPairs : List (CollisionPair β)), (∀ p ∈ pairs, p ∈ pairsOf objects) →
      (pairs.map (Prod.map some some)).foldlM (bruteForcePair bodies) collisionPairs =
        some (collisionPairs ++ pairs.filter (eitherActive bodies)) := by
    intro pairs
    induction pairs with
    | nil => simp
    | cons p pairs ih =>
      intro collisionPairs hpairs
      have hmem := mem_of_mem_pairsOf (hpairs p (by simp))
      have hturn := bruteForcePair_shaped (hshapes p.1 hmem.1) (hshapes p.2 hmem.2) collisionPairs
      have hrest : ∀ q ∈ pairs, q ∈ pairsOf objects := fun q hq => hpairs q (by simp [hq])
      rw [List.map_cons, List.foldlM_cons, Prod.map, hturn]
      by_cases hactive : eitherActive bodies p = true
      · rw [if_pos hactive, Option.bind_eq_bind, Option.bind_some, ih _ hrest,
          List.filter_cons_of_pos hactive, List.append_assoc]
        rfl
      · rw [if_neg hactive, Option.bind_eq_bind, Option.bind_some, ih _ hrest,
          List.filter_cons_of_neg hactive]
  simp only [bruteForce, pairsOf_map]
  rw [hloop (pairsOf objects) [] (fun p hp => hp)]
  rfl

/-- What the sweep joins of distinct bodies is what stands in one array with it, has an
active body and meets on the axis. -/
theorem joined_sweep_iff {axis : Fin 3} (sort : LeftEdgeSort bodies axis) {objects : List β}
    (hvalid : ∀ b ∈ objects, leftEdge bodies axis b < rightEdge bodies axis b) {a b : β} :
    Joined (sweep bodies axis (sort.sort objects)) a b ↔
      Joined (pairsOf objects) a b ∧ ((bodies a).isActive = true ∨ (bodies b).isActive = true) ∧
        IntervalsMeet bodies axis a b := by
  have hperm := sort.perm objects
  have hordered : ∀ x y, [x, y].Sublist (sort.sort objects) →
      (IntervalsMeet bodies axis x y ↔ leftEdge bodies axis y < rightEdge bodies axis x) := by
    intro x y hxy
    have hsorted : leftEdge bodies axis x ≤ leftEdge bodies axis y := by
      simpa using (sort.sorted objects).sublist hxy
    have hx := hvalid x (hperm.mem_iff.mp (hxy.subset (by simp)))
    have hy := hvalid y (hperm.mem_iff.mp (hxy.subset (by simp)))
    exact intervalsMeet_iff_of_le hx hy hsorted
  constructor
  · intro h
    have hone : ∀ x y, (x, y) ∈ sweep bodies axis (sort.sort objects) →
        Joined (pairsOf objects) x y ∧ ((bodies x).isActive = true ∨ (bodies y).isActive = true) ∧
          IntervalsMeet bodies axis x y := by
      intro x y hxy
      obtain ⟨hsub, hactive, hedge⟩ := mem_sweep.mp hxy
      have hjoined : Joined (pairsOf objects) x y :=
        (pair_of_perm hsub hperm.symm).imp mem_pairsOf.mpr mem_pairsOf.mpr
      exact ⟨hjoined, hactive, (hordered x y hsub).mpr hedge⟩
    cases h with
    | inl hab => exact hone a b hab
    | inr hba =>
      obtain ⟨hjoined, hactive, hmeet⟩ := hone b a hba
      exact ⟨joined_comm.mp hjoined, hactive.symm, intervalsMeet_comm.mp hmeet⟩
  · intro h
    obtain ⟨hjoined, hactive, hmeet⟩ := h
    have hsorted : [a, b].Sublist (sort.sort objects) ∨ [b, a].Sublist (sort.sort objects) := by
      cases hjoined with
      | inl hab => exact pair_of_perm (mem_pairsOf.mp hab) hperm
      | inr hba => exact (pair_of_perm (mem_pairsOf.mp hba) hperm).symm
    cases hsorted with
    | inl hab => exact .inl (mem_sweep.mpr ⟨hab, hactive, (hordered a b hab).mp hmeet⟩)
    | inr hba =>
      have hedge := (hordered b a hba).mp (intervalsMeet_comm.mp hmeet)
      exact .inr (mem_sweep.mpr ⟨hba, hactive.symm, hedge⟩)

/-- The sweep of distinct bodies joins each two at most once, and exactly those that brute
force joins and whose open intervals on the axis intersect. -/
theorem sortAndSweep_eq_bruteForce {axis : Fin 3} (sort : LeftEdgeSort bodies axis) (objects : List β)
    (hdistinct : objects.Nodup) (hshapes : ∀ b ∈ objects, (bodies b).hasCollisionShape = true)
    (hvalid : ∀ b ∈ objects, leftEdge bodies axis b < rightEdge bodies axis b) :
    ∃ sorted swept forced,
      sortAndSweep bodies axis sort (objects.map some) [] = some (sorted, swept) ∧
      bruteForce bodies (objects.map some) [] = some (objects.map some, forced) ∧
      Once swept ∧
      ∀ a b, Joined swept a b ↔ Joined forced a b ∧ IntervalsMeet bodies axis a b := by
  refine ⟨_, _, _, sortAndSweep_some sort objects [], bruteForce_shaped hshapes, ?_, ?_⟩
  · exact sweep_once sort hdistinct
  · intro a b
    have hforced : Joined ((pairsOf objects).filter (eitherActive bodies)) a b ↔
        Joined (pairsOf objects) a b ∧ ((bodies a).isActive = true ∨ (bodies b).isActive = true) := by
      simp only [OrderedPairs.Joined, List.mem_filter, eitherActive, Bool.or_eq_true]
      tauto
    rw [List.nil_append, joined_sweep_iff sort hvalid, hforced, and_assoc]

/-- Two boxes with the same left edge, and a sleeping one where the first of them ends. -/
def ledge : Fin 3 → RigidBody3D ℚ
  | 0 => ⟨⟨⟨0, 0, 0⟩, ⟨1, 1, 1⟩⟩, true, false, false⟩
  | 1 => ⟨⟨⟨0, 0, 0⟩, ⟨2, 1, 1⟩⟩, true, true, false⟩
  | 2 => ⟨⟨⟨1, 0, 0⟩, ⟨3, 1, 1⟩⟩, true, false, true⟩

theorem sortAndSweep_ledge :
    ∃ sorted swept forced,
      sortAndSweep ledge 0 (SortBy.favour _ 1) ([2, 0, 1].map some) [] = some (sorted, swept) ∧
      bruteForce ledge ([2, 0, 1].map some) [] = some ([2, 0, 1].map some, forced) ∧
      Once swept ∧
      ∀ a b, Joined swept a b ↔ Joined forced a b ∧ IntervalsMeet ledge 0 a b :=
  sortAndSweep_eq_bruteForce (SortBy.favour _ 1) [2, 0, 1] (by decide) (by decide) (by decide +kernel)

end Lumos.Physics
