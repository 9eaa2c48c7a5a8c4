import Lumos.Physics.OctreeOnce

/-!
# What a call keeps of the calls before it

Resetting the nodes leaves the box of the root as it is, so the world that is divided is
the box around the bodies of this call and of all earlier ones. Two octrees with
different pasts divide the same bodies differently.
-/
namespace Lumos.Physics

open Maths OrderedPairs Subdivision OctreeBroadphase

variable {β C : Type} [Coordinate C]

/-- A call made earlier: the bodies as they were, and the array. -/
structure Frame (β C : Type) [Coordinate C] (axis : Fin 3) where
  bodies : β → RigidBody3D C
  sort : LeftEdgeSort bodies axis
  objects : List (Option β)

/-- One call, its pairs left aside. -/
def Frame.call {axis : Fin 3} (settings : OctreeSettings) (o : OctreeBroadphase β C)
    (frame : Frame β C axis) : Option (OctreeBroadphase β C) :=
  (findPotentialCollisionPairs frame.bodies settings (sortAndSweep frame.bodies axis frame.sort) o
    frame.objects []).map Prod.fst

/-- An octree after the calls of its past, none of which has left an array. -/
def afterCalls {axis : Fin 3} (settings : OctreeSettings) (past : List (Frame β C axis)) :
    Option (OctreeBroadphase β C) := past.foldlM (Frame.call settings) create

/-- The box around all bodies with a shape of the past. -/
def pastBox {axis : Fin 3} (past : List (Frame β C axis)) : BoundingBox C :=
  past.foldl (fun box frame => (Cell.world frame.bodies box frame.objects).boundingBox) BoundingBox.create

section RootBox

variable {bodies : β → RigidBody3D C}

theorem rootBox_addObject {o o' : OctreeBroadphase β C} {ref : Option β}
    (h : addObject bodies o ref = some o') :
    rootBox o' = (Cell.world bodies (rootBox o) [ref]).boundingBox := by
  cases ref with
  | none =>
    cases h
    rfl
  | some b =>
    by_cases hshape : (bodies b).hasCollisionShape = true
    · simp only [addObject, if_pos hshape, Option.bind_eq_bind, Option.bind_eq_some_iff] at h
      obtain ⟨physicsObjects, _, heq⟩ := h
      cases heq
      simp [rootBox, Cell.world, shapedBodies, hshape]
    · simp only [addObject, if_neg hshape] at h
      cases h
      simp [rootBox, Cell.world, shapedBodies, hshape]

theorem rootBox_addObjects (objects : List (Option β)) {o o' : OctreeBroadphase β C}
    (h : objects.foldlM (addObject bodies) o = some o') :
    rootBox o' = (Cell.world bodies (rootBox o) objects).boundingBox := by
  induction objects generalizing o with
  | nil =>
    cases h
    rfl
  | cons ref objects ih =>
    rw [List.foldlM_cons, Option.bind_eq_bind, Option.bind_eq_some_iff] at h
    obtain ⟨o₁, hturn, hrest⟩ := h
    rw [ih hrest, rootBox_addObject hturn]
    cases ref with
    | none => rfl
    | some b => by_cases hshape : (bodies b).hasCollisionShape = true <;> simp [Cell.world, shapedBodies, hshape]

/-- The root is in use and its box is `box`. -/
def RootBoxIs (box : BoundingBox C) (o : OctreeBroadphase β C) : Prop :=
  0 < o.currentPoolIndex ∧ rootBox o = box

omit [Coordinate C] in
theorem RootBoxIs.addLeaf {box : BoundingBox C} {o o' : OctreeBroadphase β C} {k : PoolIndex}
    (h : RootBoxIs box o) (hcall : OctreeBroadphase.addLeaf k o = some o') : RootBoxIs box o' := by
  simp only [OctreeBroadphase.addLeaf] at hcall
  split at hcall
  · obtain ⟨leaves, _, heq⟩ := Option.bind_eq_some_iff.mp hcall
    cases heq
    exact h
  · cases hcall
    exact h

theorem RootBoxIs.createChild {box : BoundingBox C} {o o' : OctreeBroadphase β C} {k child : PoolIndex}
    {i : Fin 8} (h : RootBoxIs box o)
    (hcall : OctreeBroadphase.createChild bodies k i o = some (child, o')) : RootBoxIs box o' := by
  obtain ⟨hused, hbox⟩ := h
  simp only [OctreeBroadphase.createChild] at hcall
  split at hcall
  · rename_i hpool
    simp only [Option.bind_eq_bind, Option.bind_eq_some_iff, Option.some.injEq, Prod.mk.injEq] at hcall
    obtain ⟨childNodeIndices, _, physicsObjects, _, _, rfl⟩ := hcall
    have hnew : root ≠ (⟨o.currentPoolIndex, hpool⟩ : PoolIndex) := by
      intro heq
      have hzero : 0 = o.currentPoolIndex := congrArg Fin.val heq
      omega
    refine ⟨Nat.succ_pos _, ?_⟩
    by_cases hk : root = k
    · subst hk
      simpa [rootBox, hnew] using hbox
    · simpa [rootBox, hnew, hk] using hbox
  · cases hcall

/-- Dividing puts nodes behind the root and leaves its box alone. -/
theorem RootBoxIs.divide {box : BoundingBox C} (maxObjectsPerPartition levels : Nat) {k : PoolIndex}
    {o o' : OctreeBroadphase β C} (h : RootBoxIs box o)
    (hcall : OctreeBroadphase.divide bodies maxObjectsPerPartition levels k o = some o') :
    RootBoxIs box o' := by
  induction levels generalizing k o o' with
  | zero => exact h.addLeaf hcall
  | succ levels ih =>
    simp only [OctreeBroadphase.divide] at hcall
    split at hcall
    · exact h.addLeaf hcall
    · apply Loop.foldlM_invariant (RootBoxIs box) (List.finRange 8) _ h hcall
      intro i _ before after hbefore hturn
      obtain ⟨⟨child, o₁⟩, hcreate, hdivide⟩ := Option.bind_eq_some_iff.mp hturn
      exact ih (hbefore.createChild hcreate) hdivide

omit [Coordinate C] in
theorem rootBox_pairsOfLeaf {secondaryBroadphase : Broadphase β} {leaf : PoolIndex}
    {s s' : OctreeBroadphase β C × List (CollisionPair β)}
    (h : pairsOfLeaf secondaryBroadphase s leaf = some s') : rootBox s'.1 = rootBox s.1 := by
  simp only [pairsOfLeaf] at h
  split at h
  · obtain ⟨⟨physicsObjects, collisionPairs⟩, _, heq⟩ := Option.bind_eq_some_iff.mp h
    cases heq
    by_cases hleaf : root = leaf
    · subst hleaf
      simp [rootBox]
    · simp [rootBox, hleaf]
  · cases h
    rfl

/-- The root comes out of a call with the box it has kept, merged with those of the call. -/
theorem rootBox_call {settings : OctreeSettings} {secondaryBroadphase : Broadphase β}
    {o o' : OctreeBroadphase β C} {objects : List (Option β)} {pairs pairs' : List (CollisionPair β)}
    (h : findPotentialCollisionPairs bodies settings secondaryBroadphase o objects pairs =
      some (o', pairs')) :
    rootBox o' = (Cell.world bodies (rootBox o) objects).boundingBox := by
  obtain ⟨o₂, hpartition, hsweep⟩ := Option.bind_eq_some_iff.mp h
  obtain ⟨o₁, hadd, hdivide⟩ := Option.bind_eq_some_iff.mp hpartition
  have hadded : RootBoxIs (Cell.world bodies (rootBox o) objects).boundingBox o₁ := by
    have hbox := rootBox_addObjects objects hadd
    refine ⟨?_, hbox⟩
    have hused : o₁.currentPoolIndex = o.reset.currentPoolIndex := by
      refine Loop.foldlM_invariant (fun s => s.currentPoolIndex = o.reset.currentPoolIndex) objects
        ?_ rfl hadd
      intro ref _ before after hbefore hturn
      cases ref with
      | none =>
        cases hturn
        exact hbefore
      | some b =>
        simp only [addObject] at hturn
        split at hturn
        · obtain ⟨physicsObjects, _, heq⟩ := Option.bind_eq_some_iff.mp hturn
          cases heq
          exact hbefore
        · cases hturn
          exact hbefore
    rw [hused]
    exact Nat.one_pos
  have hdivided := hadded.divide _ _ hdivide
  have hswept : rootBox o' = rootBox o₂ := by
    refine Loop.foldlM_invariant (fun s => rootBox s.1 = rootBox o₂) o₂.leaves ?_
      (b := (o₂, pairs)) rfl hsweep
    intro leaf _ before after hbefore hturn
    exact (rootBox_pairsOfLeaf hturn).trans hbefore
  exact hswept.trans hdivided.2

end RootBox

/-- All that is left of the past is the box around it. -/
theorem rootBox_afterCalls {axis : Fin 3} {settings : OctreeSettings} {past : List (Frame β C axis)}
    {o : OctreeBroadphase β C} (h : afterCalls settings past = some o) : rootBox o = pastBox past := by
  have hrun : ∀ (past : List (Frame β C axis)) (before : OctreeBroadphase β C),
      past.foldlM (Frame.call settings) before = some o →
      rootBox o = past.foldl (fun box frame => (Cell.world frame.bodies box frame.objects).boundingBox)
        (rootBox before) := by
    intro past
    induction past with
    | nil =>
      intro before hbefore
      cases hbefore
      rfl
    | cons frame past ih =>
      intro before hbefore
      rw [List.foldlM_cons, Option.bind_eq_bind, Option.bind_eq_some_iff] at hbefore
      obtain ⟨after, hcall, hrest⟩ := hbefore
      obtain ⟨⟨_, pairs⟩, hresult, rfl⟩ := Option.map_eq_some_iff.mp hcall
      rw [ih _ hrest, rootBox_call hresult, List.foldl_cons]
  exact hrun past create h

section Partition

variable (bodies : β → RigidBody3D C) (settings : OctreeSettings) (axis : Fin 3)

/-- The arrays of the leaves that two bodies share. -/
def SharedArray (c : Cell β C) (a b : β) (objects : List β) : Prop :=
  [a, b].Subperm objects ∧ ∃ path, LeafOctant bodies settings c path ∧
    (c.octant bodies path).physicsObjects = objects

/-- The two bodies start at one place and the sweep only reports them in this order. -/
def Tied (a b : β) : Prop :=
  leftEdge bodies axis a = leftEdge bodies axis b ∧ ¬ Sweepable bodies axis b a

/-- Two bodies that the sweep can report share a leaf of the one subdivision exactly when
they share a leaf of the other. Where it depends on the sort whether a leaf reports them,
they share leaves with the same arrays. -/
def DividedAlike (c c' : Cell β C) : Prop :=
  ∀ a b, Sweepable bodies axis a b →
    ((∃ objects, SharedArray bodies settings c a b objects) ↔
      ∃ objects, SharedArray bodies settings c' a b objects) ∧
    (Tied bodies axis a b → ∀ objects,
      SharedArray bodies settings c a b objects ↔ SharedArray bodies settings c' a b objects)

variable {bodies settings axis}

theorem DividedAlike.symm {c c' : Cell β C} (h : DividedAlike bodies settings axis c c') :
    DividedAlike bodies settings axis c' c := by
  intro a b hsweep
  obtain ⟨hshare, htied⟩ := h a b hsweep
  exact ⟨hshare.symm, fun htie objects => (htied htie objects).symm⟩

theorem mem_leafPairs {sort : LeftEdgeSort bodies axis} {c : Cell β C} {a b : β} :
    (a, b) ∈ leafPairs sort settings c ↔
      ∃ path, LeafOctant bodies settings c path ∧
        (a, b) ∈ sweep bodies axis (sort.sort (c.octant bodies path).physicsObjects) := by
  rw [leafPairs_eq, List.mem_flatMap]
  simp only [mem_leafPaths]

theorem sharedArray_of_mem_sweep {sort : LeftEdgeSort bodies axis} {c : Cell β C} {a b : β}
    {path : List (Fin 8)} (hpath : LeafOctant bodies settings c path)
    (h : (a, b) ∈ sweep bodies axis (sort.sort (c.octant bodies path).physicsObjects)) :
    Sweepable bodies axis a b ∧
      SharedArray bodies settings c a b (c.octant bodies path).physicsObjects := by
  obtain ⟨hsub, hactive, hedge⟩ := mem_sweep.mp h
  have hsorted : leftEdge bodies axis a ≤ leftEdge bodies axis b := by
    simpa using (sort.sorted _).sublist hsub
  exact ⟨⟨hactive, hsorted, hedge⟩, hsub.subperm.trans (sort.perm _).subperm, path, hpath, rfl⟩

/-- What one subdivision reports, the other one does. -/
theorem joined_of_dividedAlike {c c' : Cell β C} (h : DividedAlike bodies settings axis c c')
    (sort : LeftEdgeSort bodies axis) {a b : β} (hab : (a, b) ∈ leafPairs sort settings c) :
    Joined (leafPairs sort settings c') a b := by
  obtain ⟨path, hpath, hmem⟩ := mem_leafPairs.mp hab
  obtain ⟨hsweep, hshared⟩ := sharedArray_of_mem_sweep hpath hmem
  obtain ⟨hshare, hsame⟩ := h a b hsweep
  by_cases htied : Tied bodies axis a b
  · obtain ⟨_, path', hpath', harray⟩ := (hsame htied _).mp hshared
    exact .inl (mem_leafPairs.mpr ⟨path', hpath', harray ▸ hmem⟩)
  · obtain ⟨objects, hpair, path', hpath', harray⟩ := hshare.mp ⟨_, hshared⟩
    subst harray
    cases pair_of_subperm (hpair.trans (sort.perm _).symm.subperm) with
    | inl hsub => exact .inl (mem_leafPairs.mpr ⟨path', hpath', mem_sweep.mpr ⟨hsub, hsweep.1, hsweep.2.2⟩⟩)
    | inr hsub =>
      have hle : leftEdge bodies axis b ≤ leftEdge bodies axis a := by
        simpa using (sort.sorted _).sublist hsub
      have hback : Sweepable bodies axis b a := by
        by_contra hnot
        exact htied ⟨le_antisymm hsweep.2.1 hle, hnot⟩
      exact .inr (mem_leafPairs.mpr ⟨path', hpath', mem_sweep.mpr ⟨hsub, hback.1, hback.2.2⟩⟩)

/-- A sort that favours `a` reports every leaf that two sweepable bodies share. -/
theorem shared_of_joined {c c' : Cell β C}
    (h : ∀ (sort : LeftEdgeSort bodies axis) (a b : β), (a, b) ∈ leafPairs sort settings c →
      Joined (leafPairs sort settings c') a b) {a b : β} (hsweep : Sweepable bodies axis a b)
    {objects : List β} (hshared : SharedArray bodies settings c a b objects) :
    ∃ objects', SharedArray bodies settings c' a b objects' := by
  classical
  obtain ⟨hpair, path, hpath, rfl⟩ := hshared
  let sort : LeftEdgeSort bodies axis := SortBy.favour (leftEdge bodies axis) a
  have hmem : (a, b) ∈ leafPairs sort settings c := by
    have hsub := favour_first_of_subperm hsweep.2.1 hpair
    exact mem_leafPairs.mpr ⟨path, hpath, mem_sweep.mpr ⟨hsub, hsweep.1, hsweep.2.2⟩⟩
  cases h sort a b hmem with
  | inl hab =>
    obtain ⟨path', hpath', hmem'⟩ := mem_leafPairs.mp hab
    exact ⟨_, (sharedArray_of_mem_sweep hpath' hmem').2⟩
  | inr hba =>
    obtain ⟨path', hpath', hmem'⟩ := mem_leafPairs.mp hba
    obtain ⟨hpair', hleaf⟩ := (sharedArray_of_mem_sweep hpath' hmem').2
    exact ⟨_, (List.Perm.swap b a []).subperm.trans hpair', hleaf⟩

/-- A sort that favours `a` in one array only reports two tied bodies from nowhere else. -/
theorem sharedArray_of_joined {c c' : Cell β C}
    (h : ∀ (sort : LeftEdgeSort bodies axis) (a b : β), (a, b) ∈ leafPairs sort settings c →
      Joined (leafPairs sort settings c') a b) {a b : β} (hsweep : Sweepable bodies axis a b)
    (htied : Tied bodies axis a b) {objects : List β}
    (hshared : SharedArray bodies settings c a b objects) : SharedArray bodies settings c' a b objects := by
  classical
  obtain ⟨hpair, path, hpath, rfl⟩ := hshared
  have hne : a ≠ b := by
    intro heq
    subst heq
    exact htied.2 hsweep
  let objects := (c.octant bodies path).physicsObjects
  let sort : LeftEdgeSort bodies axis := SortBy.favourIn (leftEdge bodies axis) objects a b
  have hfavours : sort.sort objects = (SortBy.favour (leftEdge bodies axis) a).sort objects := if_pos rfl
  have hmem : (a, b) ∈ leafPairs sort settings c := by
    have hsub := favour_first_of_subperm hsweep.2.1 hpair
    refine mem_leafPairs.mpr ⟨path, hpath, mem_sweep.mpr ⟨?_, hsweep.1, hsweep.2.2⟩⟩
    exact hfavours ▸ hsub
  cases h sort a b hmem with
  | inl hab =>
    obtain ⟨path', hpath', hmem'⟩ := mem_leafPairs.mp hab
    have hshared' := (sharedArray_of_mem_sweep hpath' hmem').2
    by_cases hsame : (c'.octant bodies path').physicsObjects = objects
    · rw [hsame] at hshared'
      exact hshared'
    · have hother : sort.sort (c'.octant bodies path').physicsObjects =
          (SortBy.favour (leftEdge bodies axis) b).sort (c'.octant bodies path').physicsObjects :=
        if_neg hsame
      obtain ⟨hsub, _, _⟩ := mem_sweep.mp hmem'
      rw [hother] at hsub
      cases favour_pairwise hsub with
      | inl hlt => exact absurd htied.1 (ne_of_lt hlt)
      | inr heq => exact absurd heq.2 (by simp [hne])
  | inr hba =>
    obtain ⟨path', hpath', hmem'⟩ := mem_leafPairs.mp hba
    exact absurd (sharedArray_of_mem_sweep hpath' hmem').1 htied.2

/-- Whatever the sort does, two subdivisions report the same pairs exactly when they divide
the bodies alike. -/
theorem joined_leafPairs_iff {c c' : Cell β C} :
    (∀ (sort : LeftEdgeSort bodies axis) (a b : β),
      Joined (leafPairs sort settings c) a b ↔ Joined (leafPairs sort settings c') a b) ↔
      DividedAlike bodies settings axis c c' := by
  constructor
  · intro h
    have hforth : ∀ (sort : LeftEdgeSort bodies axis) (a b : β), (a, b) ∈ leafPairs sort settings c →
        Joined (leafPairs sort settings c') a b := fun sort a b hab => (h sort a b).mp (.inl hab)
    have hback : ∀ (sort : LeftEdgeSort bodies axis) (a b : β), (a, b) ∈ leafPairs sort settings c' →
        Joined (leafPairs sort settings c) a b := fun sort a b hab => (h sort a b).mpr (.inl hab)
    intro a b hsweep
    refine ⟨⟨?_, ?_⟩, fun htied objects => ⟨?_, ?_⟩⟩
    · intro hshare
      obtain ⟨objects, hshared⟩ := hshare
      exact shared_of_joined hforth hsweep hshared
    · intro hshare
      obtain ⟨objects, hshared⟩ := hshare
      exact shared_of_joined hback hsweep hshared
    · exact sharedArray_of_joined hforth hsweep htied
    · exact sharedArray_of_joined hback hsweep htied
  · intro h sort a b
    have hone : ∀ {c c' : Cell β C}, DividedAlike bodies settings axis c c' →
        Joined (leafPairs sort settings c) a b → Joined (leafPairs sort settings c') a b := by
      intro c c' halike hjoined
      cases hjoined with
      | inl hab => exact joined_of_dividedAlike halike sort hab
      | inr hba => exact joined_comm.mp (joined_of_dividedAlike halike sort hba)
    exact ⟨hone h, hone h.symm⟩

end Partition

/-- After two pasts that left no array, calls with the same bodies that leave none either
report the same unordered pairs, whatever the sort does, exactly when the boxes of the
two pasts make them divide the bodies alike. -/
theorem findPotentialCollisionPairs_afterCalls_iff (bodies : β → RigidBody3D C)
    (settings : OctreeSettings) (axis : Fin 3) (past past' : List (Frame β C axis))
    (objects : List (Option β)) {o o' : OctreeBroadphase β C}
    (h : afterCalls settings past = some o) (h' : afterCalls settings past' = some o')
    (hfits : (Cell.world bodies (pastBox past) objects).FitsArrays bodies settings)
    (hfits' : (Cell.world bodies (pastBox past') objects).FitsArrays bodies settings) :
    (∀ sort : LeftEdgeSort bodies axis, ∃ next pairs next' pairs',
      findPotentialCollisionPairs bodies settings (sortAndSweep bodies axis sort) o objects [] =
        some (next, pairs) ∧
      findPotentialCollisionPairs bodies settings (sortAndSweep bodies axis sort) o' objects [] =
        some (next', pairs') ∧
      ∀ a b, Joined pairs a b ↔ Joined pairs' a b) ↔
      DividedAlike bodies settings axis (Cell.world bodies (pastBox past) objects)
        (Cell.world bodies (pastBox past') objects) := by
  rw [← rootBox_afterCalls h] at hfits ⊢
  rw [← rootBox_afterCalls h'] at hfits' ⊢
  rw [← joined_leafPairs_iff]
  refine forall_congr' fun sort => ?_
  obtain ⟨next, hcall⟩ := (findPotentialCollisionPairs_spec sort settings o objects []).1 hfits
  obtain ⟨next', hcall'⟩ := (findPotentialCollisionPairs_spec sort settings o' objects []).1 hfits'
  rw [List.nil_append] at hcall hcall'
  constructor
  · intro hsame
    obtain ⟨_, _, _, _, hrun, hrun', hjoined⟩ := hsame
    rw [hcall] at hrun
    rw [hcall'] at hrun'
    cases hrun
    cases hrun'
    exact hjoined
  · intro hjoined
    exact ⟨next, _, next', _, hcall, hcall', hjoined⟩

section Alley

/-- A body far from the origin. -/
def distant (axis : Fin 3) : Frame (Fin 6) ℚ axis where
  bodies := fun _ => ⟨⟨⟨999, 999, 999⟩, ⟨1000, 1000, 1000⟩⟩, true, false, false⟩
  sort := SortBy.stable _
  objects := [some (Fin.last 5)]

theorem findPotentialCollisionPairs_afterCalls_distant :
    ∃ o o' : OctreeBroadphase (Fin 6) ℚ,
      afterCalls .scene ([] : List (Frame (Fin 6) ℚ 0)) = some o ∧ afterCalls .scene [distant 0] = some o' ∧
      ((∀ sort : LeftEdgeSort (distant 0).bodies 0, ∃ next pairs next' pairs',
        findPotentialCollisionPairs (distant 0).bodies .scene (sortAndSweep (distant 0).bodies 0 sort) o
            (distant 0).objects [] = some (next, pairs) ∧
        findPotentialCollisionPairs (distant 0).bodies .scene (sortAndSweep (distant 0).bodies 0 sort) o'
            (distant 0).objects [] = some (next', pairs') ∧
        ∀ a b, Joined pairs a b ↔ Joined pairs' a b) ↔
        DividedAlike (distant 0).bodies .scene 0
          (Cell.world (distant 0).bodies (pastBox ([] : List (Frame (Fin 6) ℚ 0))) (distant 0).objects)
          (Cell.world (distant 0).bodies (pastBox [distant 0]) (distant 0).objects)) := by
  have hcall : (afterCalls .scene [distant 0]).isSome = true := by decide +kernel
  obtain ⟨o', ho'⟩ := Option.isSome_iff_exists.mp hcall
  exact ⟨create, o', rfl, ho', findPotentialCollisionPairs_afterCalls_iff (distant 0).bodies .scene 0 []
    [distant 0] (distant 0).objects rfl ho' (Cell.fitsArrays_of_uncrowded (by decide) (by decide))
    (Cell.fitsArrays_of_uncrowded (by decide) (by decide))⟩

/-- Two boxes one above the other, and four more in corners of the world. -/
def alley : Fin 6 → RigidBody3D ℚ
  | 0 => ⟨⟨⟨0, 0, 0⟩, ⟨1, 1, 1⟩⟩, true, false, false⟩
  | 1 => ⟨⟨⟨0, 9, 0⟩, ⟨1, 10, 1⟩⟩, true, false, false⟩
  | 2 => ⟨⟨⟨9, 0, 0⟩, ⟨10, 1, 1⟩⟩, true, false, false⟩
  | 3 => ⟨⟨⟨9, 9, 0⟩, ⟨10, 10, 1⟩⟩, true, false, false⟩
  | 4 => ⟨⟨⟨9, 0, 9⟩, ⟨10, 1, 10⟩⟩, true, false, false⟩
  | 5 => ⟨⟨⟨9, 9, 9⟩, ⟨10, 10, 10⟩⟩, true, false, false⟩

/-- Once a body has been far away, all six boxes are in one leaf. -/
theorem findPotentialCollisionPairs_alley :
    ∃ o o' next pairs next' pairs',
      afterCalls .scene ([] : List (Frame (Fin 6) ℚ 0)) = some o ∧ afterCalls .scene [distant 0] = some o' ∧
      findPotentialCollisionPairs alley .scene (sortAndSweep alley 0 (SortBy.stable _)) o
        ((List.finRange 6).map some) [] = some (next, pairs) ∧
      findPotentialCollisionPairs alley .scene (sortAndSweep alley 0 (SortBy.stable _)) o'
        ((List.finRange 6).map some) [] = some (next', pairs') ∧
      ¬ Joined pairs 0 1 ∧ Joined pairs' 0 1 := by
  have hfresh : (findPotentialCollisionPairs alley .scene (sortAndSweep alley 0 (SortBy.stable _)) create
      ((List.finRange 6).map some) []).map Prod.snd = some [] := by decide +kernel
  have hlater : ((afterCalls .scene [distant 0]).bind fun o' =>
      findPotentialCollisionPairs alley .scene (sortAndSweep alley 0 (SortBy.stable _)) o'
        ((List.finRange 6).map some) []).map Prod.snd =
      some [(0, 1), (2, 3), (2, 4), (2, 5), (3, 4), (3, 5), (4, 5)] := by decide +kernel
  obtain ⟨⟨next, pairs⟩, hcall, rfl⟩ := Option.map_eq_some_iff.mp hfresh
  obtain ⟨⟨next', pairs'⟩, hrun, rfl⟩ := Option.map_eq_some_iff.mp hlater
  obtain ⟨o', ho', hcall'⟩ := Option.bind_eq_some_iff.mp hrun
  have hunjoined : ¬ OrderedPairs.Joined ([] : List (Fin 6 × Fin 6)) 0 1 := by simp [OrderedPairs.Joined]
  exact ⟨create, o', next, _, next', _, rfl, ho', hcall, hcall', hunjoined, .inl List.mem_cons_self⟩

end Alley

end Lumos.Physics
