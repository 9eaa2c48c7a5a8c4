import Lumos.Physics.OctreeBounds

/-!
# No pair is lost

Two bodies that overlap have a point in common, and some octant of each cell that
contains the point is touched by both. So they meet again in a leaf, whose sweep finds
them.
-/
namespace Lumos.Physics

open Maths OrderedPairs Subdivision OctreeBroadphase

variable {β C : Type} [Coordinate C] {bodies : β → RigidBody3D C}

/-- The box grown around the bodies contains what one of them contains. -/
theorem foldl_merge_contains (bodies : β → RigidBody3D C) (shaped : List β) (box : BoundingBox C) {p : Vector3 C}
    (h : box.Contains p ∨ ∃ b ∈ shaped, (bodies b).worldSpaceAABB.Contains p) :
    (shaped.foldl (fun box b => box.merge (bodies b).worldSpaceAABB) box).Contains p := by
  induction shaped generalizing box with
  | nil => simpa using h
  | cons b shaped ih =>
    apply ih
    cases h with
    | inl hbox => exact .inl (BoundingBox.merge_contains_left hbox)
    | inr hbody =>
      obtain ⟨x, hx, hp⟩ := hbody
      cases List.mem_cons.mp hx with
      | inl heq => exact .inl (BoundingBox.merge_contains_right (heq ▸ hp))
      | inr hrest => exact .inr ⟨x, hrest, hp⟩

omit [Coordinate C] in
theorem pair_shapedBodies {objects : List (Option β)} {a b : β}
    (h : [some a, some b].Sublist objects) (ha : (bodies a).hasCollisionShape = true)
    (hb : (bodies b).hasCollisionShape = true) : [a, b].Sublist (shapedBodies bodies objects) := by
  have hshaped := (h.filterMap id).filter fun b => (bodies b).hasCollisionShape
  simpa [shapedBodies, ha, hb] using hshaped

/-- Two bodies with the point `p` in common are both in the cell, and so is the point. -/
structure MeetIn (bodies : β → RigidBody3D C) (a b : β) (p : Vector3 C) (c : Cell β C) : Prop where
  pair : [a, b].Sublist c.physicsObjects
  point : c.boundingBox.Contains p

section Meet

variable {a b : β} {p : Vector3 C} (ha : (bodies a).worldSpaceAABB.Contains p)
  (hb : (bodies b).worldSpaceAABB.Contains p)

include ha hb

theorem MeetIn.exists_child (c : Cell β C) (h : MeetIn bodies a b p c) :
    ∃ i, MeetIn bodies a b p (c.child bodies i) := by
  obtain ⟨i, hi⟩ := exists_division h.point
  have hta : Cell.touches bodies (division c.boundingBox i) a = true :=
    decide_eq_true (BoundingBox.isInsideFast_of_contains hi ha)
  have htb : Cell.touches bodies (division c.boundingBox i) b = true :=
    decide_eq_true (BoundingBox.isInsideFast_of_contains hi hb)
  have hpair := h.pair.filter (Cell.touches bodies (division c.boundingBox i))
  rw [List.filter_cons_of_pos hta, List.filter_cons_of_pos htb, List.filter_nil] at hpair
  exact ⟨i, hpair, hi⟩

/-- The two bodies meet in a leaf. -/
theorem MeetIn.exists_leafCell (settings : OctreeSettings) {c : Cell β C} (h : MeetIn bodies a b p c) :
    ∃ leaf ∈ c.leafCells bodies settings, [a, b].Sublist leaf.physicsObjects := by
  have hreach : ∃ leaf ∈ c.leafCells bodies settings, MeetIn bodies a b p leaf :=
    exists_leaf (MeetIn.exists_child ha hb) h
  obtain ⟨leaf, hleaf, hmeet⟩ := hreach
  exact ⟨leaf, hleaf, hmeet.pair⟩

end Meet

variable {axis : Fin 3} (sort : LeftEdgeSort bodies axis) (settings : OctreeSettings)

theorem leafPairs_complete (box : BoundingBox C) {objects : List (Option β)} {a b : β}
    (h : [some a, some b].Sublist objects)
    (hvalid : ∀ b, some b ∈ objects → (bodies b).worldSpaceAABB.Valid)
    (ha : (bodies a).hasCollisionShape = true) (hb : (bodies b).hasCollisionShape = true)
    (hactive : (bodies a).isActive = true ∨ (bodies b).isActive = true)
    (hoverlap : (bodies a).worldSpaceAABB.StrictlyOverlaps (bodies b).worldSpaceAABB) :
    (a, b) ∈ leafPairs sort settings (Cell.world bodies box objects) ∨
      (b, a) ∈ leafPairs sort settings (Cell.world bodies box objects) := by
  have hva := hvalid a (h.subset (by simp))
  have hvb := hvalid b (h.subset (by simp))
  obtain ⟨hpa, hpb⟩ := BoundingBox.contains_meetingPoint hva hvb hoverlap
  have hpair := pair_shapedBodies h ha hb
  have hworld := foldl_merge_contains bodies (shapedBodies bodies objects) box
    (.inr ⟨a, hpair.subset (by simp), hpa⟩)
  obtain ⟨leaf, hleaf, hmeet⟩ := MeetIn.exists_leafCell hpa hpb settings
    (c := Cell.world bodies box objects) ⟨hpair, hworld⟩
  cases sweep_complete sort hmeet hactive hoverlap with
  | inl hfound => exact .inl (List.mem_flatMap.mpr ⟨leaf, hleaf, hfound⟩)
  | inr hfound => exact .inr (List.mem_flatMap.mpr ⟨leaf, hleaf, hfound⟩)

/-- While the arrays are large enough every pair of overlapping bodies with a shape, one
of them awake and not static, is reported, and so are all of these that brute force
reports. -/
theorem findPotentialCollisionPairs_complete (o : OctreeBroadphase β C)
    (objects : List (Option β)) (collisionPairs : List (CollisionPair β))
    (hfits : (Cell.world bodies (rootBox o) objects).FitsArrays bodies settings)
    (hvalid : ∀ b, some b ∈ objects → (bodies b).worldSpaceAABB.Valid) :
    ∃ o' found, findPotentialCollisionPairs bodies settings (sortAndSweep bodies axis sort) o objects
        collisionPairs = some (o', found) ∧
      (∀ a b, [some a, some b].Sublist objects →
        (bodies a).hasCollisionShape = true → (bodies b).hasCollisionShape = true →
        ((bodies a).isActive = true ∨ (bodies b).isActive = true) →
        (bodies a).worldSpaceAABB.StrictlyOverlaps (bodies b).worldSpaceAABB →
        (a, b) ∈ found ∨ (b, a) ∈ found) ∧
      (∀ objects' bruteForceFound, bruteForce bodies objects [] = some (objects', bruteForceFound) →
        ∀ a b, (a, b) ∈ bruteForceFound →
        (bodies a).worldSpaceAABB.StrictlyOverlaps (bodies b).worldSpaceAABB →
        (a, b) ∈ found ∨ (b, a) ∈ found) := by
  obtain ⟨o', hrun⟩ := (findPotentialCollisionPairs_spec sort settings o objects collisionPairs).1 hfits
  have hpairs : ∀ a b, [some a, some b].Sublist objects →
      (bodies a).hasCollisionShape = true → (bodies b).hasCollisionShape = true →
      ((bodies a).isActive = true ∨ (bodies b).isActive = true) →
      (bodies a).worldSpaceAABB.StrictlyOverlaps (bodies b).worldSpaceAABB →
      (a, b) ∈ collisionPairs ++ leafPairs sort settings (Cell.world bodies (rootBox o) objects) ∨
        (b, a) ∈ collisionPairs ++ leafPairs sort settings (Cell.world bodies (rootBox o) objects) := by
    intro a b h ha hb hactive hoverlap
    cases leafPairs_complete sort settings (rootBox o) h hvalid ha hb hactive hoverlap with
    | inl hfound => exact .inl (List.mem_append_right _ hfound)
    | inr hfound => exact .inr (List.mem_append_right _ hfound)
  refine ⟨o', _, hrun, hpairs, ?_⟩
  intro objects' bruteForceFound hbrute a b hab hoverlap
  obtain ⟨h, ha, hb, hactive⟩ := bruteForce_sound hbrute hab
  exact hpairs a b h ha hb hactive hoverlap

section Straddling

/-- Two boxes across the center of the world and one in its corner. -/
def straddling : Fin 3 → RigidBody3D ℚ
  | 0 => ⟨⟨⟨0, 0, 0⟩, ⟨4, 4, 4⟩⟩, true, false, false⟩
  | 1 => ⟨⟨⟨3, 3, 3⟩, ⟨7, 7, 7⟩⟩, true, true, false⟩
  | 2 => ⟨⟨⟨9, 9, 9⟩, ⟨10, 10, 10⟩⟩, true, false, false⟩

theorem findPotentialCollisionPairs_complete_straddling :
    ∃ o' found, findPotentialCollisionPairs straddling ⟨1, 1⟩
        (sortAndSweep straddling 0 (SortBy.stable _)) create ((List.finRange 3).map some) [] =
          some (o', found) ∧
      ((0, 1) ∈ found ∨ (1, 0) ∈ found) := by
  have hfits : (Cell.world straddling (rootBox (create : OctreeBroadphase (Fin 3) ℚ))
      ((List.finRange 3).map some)).FitsArrays straddling ⟨1, 1⟩ := ⟨by decide, by decide +kernel⟩
  have hvalid : ∀ b, some b ∈ (List.finRange 3).map some → (straddling b).worldSpaceAABB.Valid := by
    intro b _
    revert b
    decide +kernel
  obtain ⟨o', found, hcall, hpairs, _⟩ := findPotentialCollisionPairs_complete (SortBy.stable _) ⟨1, 1⟩
    create _ [] hfits hvalid
  exact ⟨o', found, hcall, hpairs 0 1 (by decide) rfl rfl (by decide) (by decide +kernel)⟩

end Straddling

end Lumos.Physics
