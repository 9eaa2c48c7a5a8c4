import Lumos.Physics.SeparatingAxisTheorem
import Lumos.Physics.SeparationSoundness

/-!
# Bodies that are found to collide

The axes that a pair of bodies needs are the normals of the faces, the cross products of the
edges and the axes from the edges to the centre of a sphere. `CheckCollision` is right to
return true where it has not left out a needed axis that no other makes up for. Of pyramids it
leaves out the most, since their type is that of a cuboid and a sphere together.
-/
namespace Lumos.Physics.CollisionDetection

open Maths FloatArithmetic SeparatingAxis
open scoped RealInnerProductSpace

/-! ## Needed axes -/

section Needed

variable {K : Type} [FloatArithmetic K]

def ShapeData.isSphere {K : Type} : ShapeData K → Bool
  | .sphere _ => true
  | .cuboid | .pyramid _ | .capsule _ _ | .hull _ => false

/-- From the closest point of each edge to the centre of a sphere. -/
def ShapeParameters.centreAxes (p : ShapeParameters K) (obj : Pose K) (centre : Vector3 K) : List (Vector3 K) :=
  (p.ownEdges obj).map fun edge => centre - closestPointOnEdge centre edge

/-- The cross products of the edges. -/
def crossAxes (edges1 edges2 : List (CollisionEdge K)) : List (Vector3 K) :=
  edges1.flatMap fun edge1 =>
    edges2.map fun edge2 => (edge1.posB - edge1.posA).crossProduct (edge2.posB - edge2.posA)

/-- The axes of which one separates the solids if they have nothing in common. -/
def neededAxes (obj1 obj2 : Pose K) (p1 p2 : ShapeParameters K) : List (Vector3 K) :=
  if p1.data.isSphere then
    if p2.data.isSphere then [obj2.position - obj1.position]
    else p2.faceNormals obj2 ++ p2.centreAxes obj2 obj1.position
  else if p2.data.isSphere then p1.faceNormals obj1 ++ p1.centreAxes obj1 obj2.position
  else p1.faceNormals obj1 ++ p2.faceNormals obj2 ++ crossAxes (p1.ownEdges obj1) (p2.ownEdges obj2)

end Needed

/-- Cuboids, pyramids with whatever normals, and spheres. -/
inductive Supported : ShapeParameters ℝ → Prop where
  | cuboid (halfdims : Vector3 ℝ) (h : halfdims.x ≠ 0 ∧ halfdims.y ≠ 0 ∧ halfdims.z ≠ 0) :
    Supported (.cuboid halfdims)
  | pyramid (normals : Fin 5 → Vector3 ℝ) (halfdims : Vector3 ℝ)
      (h : halfdims.x ≠ 0 ∧ halfdims.y ≠ 0 ∧ halfdims.z ≠ 0) :
    Supported ⟨.pyramid normals, Matrix4.scaling halfdims⟩
  | sphere (radius : ℝ) (h : 0 ≤ radius) : Supported (.sphere radius)

/-- What is asked of a solid that is not a sphere. -/
structure IsPolyhedron (p : ShapeParameters ℝ) (obj : Pose ℝ) : Prop where
  faceted : Faceted (p.worldVertices obj) (p.faceNormals obj) (p.ownEdges obj)
  solid : p.solid obj 1 = convexHull ℝ (p.worldVertices obj)
  isSphere : p.data.isSphere = false

theorem Supported.cases {p : ShapeParameters ℝ} (h : Supported p) {obj : Pose ℝ}
    (hobj : obj.orientation.IsRotation) :
    IsPolyhedron p obj ∨ p.data.isSphere = true ∧
      ∃ radius, 0 ≤ radius ∧ p.solid obj 1 = Metric.closedBall obj.position.point radius := by
  cases h with
  | cuboid halfdims h => exact Or.inl ⟨faceted_worldVertices rfl h hobj Hull.polyhedral_cube, rfl, rfl⟩
  | pyramid normals halfdims h => exact Or.inl ⟨faceted_worldVertices rfl h hobj Hull.polyhedral_pyramid, rfl, rfl⟩
  | sphere radius h =>
    refine Or.inr ⟨rfl, radius, h, ?_⟩
    have hsolid : (ShapeParameters.sphere radius).solid obj 1 =
        Metric.closedBall ((ShapeParameters.sphere radius).transform obj).position.point (1 * radius) := rfl
    rw [hsolid, transform_position (p := .sphere radius) rfl, one_mul]

/-- The projection of a supported shape ends at points of its solid, that of a sphere on an
axis of unit length. -/
theorem Supported.ends {p : ShapeParameters ℝ} (h : Supported p) {obj : Pose ℝ} {axis : Vector3 ℝ}
    (hunit : p.data.isSphere = true → axis.lengthSquared = 1) :
    (∃ x ∈ p.solid obj 1, p.low obj axis = ⟪axis.point, x⟫) ∧
      ∃ x ∈ p.solid obj 1, p.high obj axis = ⟪axis.point, x⟫ := by
  have hpolyhedron : p.data.toHull.vertices ≠ [] →
      p.data.toHull.InRange ((p.transform obj).toMatrix3.transpose.apply axis) →
      p.solid obj 1 = convexHull ℝ (p.worldVertices obj) →
      (∃ x ∈ p.solid obj 1, p.low obj axis = ⟪axis.point, x⟫) ∧
        ∃ x ∈ p.solid obj 1, p.high obj axis = ⟪axis.point, x⟫ := by
    intro hvertices hrange hsolid
    obtain ⟨⟨x, hx, hlow⟩, ⟨y, hy, hhigh⟩⟩ := exists_worldVertices_of_inRange p obj axis hrange hvertices
    rw [hsolid]
    exact ⟨⟨x, subset_convexHull ℝ _ hx, hlow⟩, ⟨y, subset_convexHull ℝ _ hy, hhigh⟩⟩
  cases h with
  | cuboid halfdims => exact hpolyhedron (List.cons_ne_nil _ _) Hull.inRange_cube rfl
  | pyramid normals halfdims => exact hpolyhedron (List.cons_ne_nil _ _) Hull.inRange_pyramid rfl
  | sphere radius hradius =>
    have hreach : ∀ s : ℝ, s = radius ∨ s = -radius →
        (obj.position + axis * s).point ∈ (ShapeParameters.sphere radius).solid obj 1 := by
      intro s hs
      change _ ∈ Metric.closedBall ((ShapeParameters.sphere radius).transform obj).position.point (1 * radius)
      rw [transform_position (p := .sphere radius) rfl, one_mul, Metric.mem_closedBall, dist_eq_norm,
        Vector3.point_add, add_sub_cancel_left, Vector3.point_mul, norm_smul]
      have hnorm : ‖axis.point‖ = 1 := by
        have hsq := Vector3.norm_point_sq axis
        rw [hunit rfl] at hsq
        exact (pow_eq_one_iff_of_nonneg (norm_nonneg _) two_ne_zero).mp hsq
      rw [hnorm, mul_one, Real.norm_eq_abs]
      cases hs with
      | inl h => rw [h, abs_of_nonneg hradius]
      | inr h => rw [h, abs_neg, abs_of_nonneg hradius]
    refine ⟨⟨_, hreach (-radius) (Or.inr rfl), ?_⟩, ⟨_, hreach radius (Or.inl rfl), ?_⟩⟩
    · rw [low_sphere, Vector3.inner_point, dotProduct_add_mul]
      ring
    · rw [high_sphere, Vector3.inner_point, dotProduct_add_mul]

/-- An axis that separates solids separates the projections that end at their points. -/
theorem separating_of_clear {axis : Vector3 ℝ} {obj1 obj2 : Pose ℝ} {p1 p2 : ShapeParameters ℝ} {s t : Set Space}
    (hclear : Clear axis.point s t)
    (hs : (∃ x ∈ s, p1.low obj1 axis = ⟪axis.point, x⟫) ∧ ∃ x ∈ s, p1.high obj1 axis = ⟪axis.point, x⟫)
    (ht : (∃ y ∈ t, p2.low obj2 axis = ⟪axis.point, y⟫) ∧ ∃ y ∈ t, p2.high obj2 axis = ⟪axis.point, y⟫) :
    checkCollisionAxis axis obj1 obj2 p1 p2 = none := by
  obtain ⟨⟨a, ha, hlow1⟩, ⟨b, hb, hhigh1⟩⟩ := hs
  obtain ⟨⟨c, hc, hlow2⟩, ⟨d, hd, hhigh2⟩⟩ := ht
  rw [checkCollisionAxis_eq_none_iff, hlow1, hhigh1, hlow2, hhigh2]
  cases hclear with
  | inl h => exact ⟨fun _ => h b hb c hc, fun hle => absurd hle (not_le.mpr (h a ha c hc))⟩
  | inr h => exact ⟨fun hle => absurd hle (not_le.mpr (h a ha c hc)), fun _ => (h a ha d hd).le⟩

section Pair

variable {obj1 obj2 : Pose ℝ} {p1 p2 : ShapeParameters ℝ}

theorem exists_neededAxis_polyhedra (h1 : IsPolyhedron p1 obj1) (h2 : IsPolyhedron p2 obj2)
    (hdisjoint : Disjoint (p1.solid obj1 1) (p2.solid obj2 1)) :
    ∃ n ∈ neededAxes obj1 obj2 p1 p2, Clear n.point (p1.solid obj1 1) (p2.solid obj2 1) := by
  rw [h1.solid, h2.solid] at hdisjoint ⊢
  obtain ⟨n, hn, hclear⟩ := h1.faceted.exists_clear h2.faceted hdisjoint
  refine ⟨n, ?_, clear_convexHull hclear⟩
  simp only [neededAxes, h1.isSphere, h2.isSphere, Bool.false_eq_true, if_false, List.mem_append]
  rcases hn with hn | hn | ⟨edge1, hedge1, edge2, hedge2, rfl⟩
  · exact Or.inl (Or.inl hn)
  · exact Or.inl (Or.inr hn)
  · exact Or.inr (List.mem_flatMap.mpr ⟨edge1, hedge1, List.mem_map.mpr ⟨edge2, hedge2, rfl⟩⟩)

/-- Of a polyhedron and a sphere. -/
theorem exists_centreAxis (h : IsPolyhedron p1 obj1) {centre : Vector3 ℝ} {radius : ℝ} (hradius : 0 ≤ radius)
    (hdisjoint : Disjoint (p1.solid obj1 1) (Metric.closedBall centre.point radius)) :
    ∃ n ∈ p1.faceNormals obj1 ++ p1.centreAxes obj1 centre,
      Clear n.point (p1.solid obj1 1) (Metric.closedBall centre.point radius) := by
  rw [h.solid] at hdisjoint ⊢
  obtain ⟨n, hn, hclear⟩ := h.faceted.exists_clear_ball hradius hdisjoint
  refine ⟨n, ?_, hclear⟩
  rw [List.mem_append]
  rcases hn with hn | ⟨edge, hedge, rfl⟩
  · exact Or.inl hn
  · exact Or.inr (List.mem_map.mpr ⟨edge, hedge, rfl⟩)

theorem exists_neededAxis (h1 : Supported p1) (h2 : Supported p2) (hobj1 : obj1.orientation.IsRotation)
    (hobj2 : obj2.orientation.IsRotation) (hdisjoint : Disjoint (p1.solid obj1 1) (p2.solid obj2 1)) :
    ∃ n ∈ neededAxes obj1 obj2 p1 p2, Clear n.point (p1.solid obj1 1) (p2.solid obj2 1) := by
  rcases h1.cases hobj1 with hpoly1 | ⟨hsphere1, radius1, hradius1, hsolid1⟩
  · rcases h2.cases hobj2 with hpoly2 | ⟨hsphere2, radius2, hradius2, hsolid2⟩
    · exact exists_neededAxis_polyhedra hpoly1 hpoly2 hdisjoint
    · rw [hsolid2] at hdisjoint ⊢
      rw [neededAxes, hpoly1.isSphere, hsphere2]
      exact exists_centreAxis hpoly1 hradius2 hdisjoint
  · rcases h2.cases hobj2 with hpoly2 | ⟨hsphere2, radius2, hradius2, hsolid2⟩
    · rw [hsolid1] at hdisjoint ⊢
      rw [neededAxes, hpoly2.isSphere, hsphere1]
      obtain ⟨n, hn, hclear⟩ := exists_centreAxis hpoly2 hradius1 hdisjoint.symm
      exact ⟨n, hn, hclear.symm⟩
    · rw [hsolid1, hsolid2] at hdisjoint ⊢
      rw [neededAxes, hsphere1, hsphere2]
      refine ⟨_, List.mem_singleton_self _, ?_⟩
      rw [Vector3.point_sub]
      exact clear_balls hradius1 hradius2 hdisjoint

end Pair

/-! ## Checks -/

section Checks

variable (shapes : Shapes ℝ) (obj1 obj2 : RigidBody3D ℝ)

/-- The solid of a body. -/
def solidOf (obj : RigidBody3D ℝ) : Set Space := (shapes obj.collisionShape).solid obj.toPose 1

/-- A multiple of the axis is tested, one of unit length if there is a sphere. -/
def Tested (n : Vector3 ℝ) : Prop :=
  ∃ axis ∈ testedAxes shapes obj1 obj2, (∃ s : ℝ, s ≠ 0 ∧ axis = n * s) ∧
    ((shapes obj1.collisionShape).data.isSphere = true ∨ (shapes obj2.collisionShape).data.isSphere = true →
      axis.lengthSquared = 1)

/-- A needed axis that is left out and separates the solids is made up for by one that is
tested and separates their projections. -/
def Covered : Prop :=
  ∀ n ∈ neededAxes obj1.toPose obj2.toPose (shapes obj1.collisionShape).toShapeParameters
      (shapes obj2.collisionShape).toShapeParameters,
    ¬ Tested shapes obj1 obj2 n → Clear n.point (solidOf shapes obj1) (solidOf shapes obj2) →
      ∃ axis ∈ testedAxes shapes obj1 obj2, Separating shapes obj1 obj2 axis

variable {shapes obj1 obj2}

theorem Supported.type {p : ShapeParameters ℝ} (h : Supported p) :
    p.data.type = 1 ∨ p.data.type = 2 ∨ p.data.type = 3 := by
  cases h with
  | cuboid => exact Or.inl rfl
  | sphere => exact Or.inr (Or.inl rfl)
  | pyramid => exact Or.inr (Or.inr rfl)

/-- There is a function for every pair of supported shapes. -/
theorem Supported.checkFunction (h1 : Supported (shapes obj1.collisionShape).toShapeParameters)
    (h2 : Supported (shapes obj2.collisionShape).toShapeParameters) :
    CollisionDetection.checkFunction shapes obj1 obj2 ≠ some .invalid ∧
      CollisionDetection.checkFunction shapes obj1 obj2 ≠ none := by
  rw [CollisionDetection.checkFunction]
  rcases h1.type with ht1 | ht1 | ht1 <;> rcases h2.type with ht2 | ht2 | ht2 <;> rw [ht1, ht2] <;> decide

/-- An axis that is tested separates the projections where it separates the solids. -/
theorem exists_separating_of_tested (h1 : Supported (shapes obj1.collisionShape).toShapeParameters)
    (h2 : Supported (shapes obj2.collisionShape).toShapeParameters) {n : Vector3 ℝ}
    (htested : Tested shapes obj1 obj2 n) (hclear : Clear n.point (solidOf shapes obj1) (solidOf shapes obj2)) :
    ∃ axis ∈ testedAxes shapes obj1 obj2, Separating shapes obj1 obj2 axis := by
  obtain ⟨axis, haxis, ⟨s, hs, rfl⟩, hunit⟩ := htested
  refine ⟨n * s, haxis, separating_of_clear ?_ (h1.ends fun h => hunit (Or.inl h))
    (h2.ends fun h => hunit (Or.inr h))⟩
  rw [Vector3.point_mul]
  exact hclear.smul hs

end Checks

/-! ## Two pyramids -/

/-- The closest point of an edge is on the edge. -/
theorem closestPointOnEdge_mem {target : Vector3 ℝ} {edge : CollisionEdge ℝ} {region : Set Space}
    (hregion : Convex ℝ region) (hA : edge.posA.point ∈ region) (hB : edge.posB.point ∈ region) :
    (closestPointOnEdge target edge).point ∈ region := by
  rw [closestPointOnEdge_real]
  split
  · exact hA
  · split
    · exact hB
    · rename_i hlow hhigh
      rw [Vector3.point_add, Vector3.point_mul, Vector3.point_sub]
      exact hregion.add_smul_sub_mem hA hB ⟨not_lt.mp hlow, not_lt.mp hhigh⟩

/-- The search for the closest point ends with that of an edge, or with the origin. -/
theorem getClosestPointOnEdges_mem {region : Set Space} {target : Vector3 ℝ} {edges : List (CollisionEdge ℝ)}
    (hregion : Convex ℝ region) (hzero : 0 ∈ region)
    (hedges : ∀ edge ∈ edges, edge.posA.point ∈ region ∧ edge.posB.point ∈ region) :
    (getClosestPointOnEdges target edges).point ∈ region := by
  have hstart : (⟨0, fltMax⟩ : Closest ℝ).point.point ∈ region := by
    rw [Vector3.point_zero]
    exact hzero
  unfold getClosestPointOnEdges
  apply List.foldlRecOn (motive := fun closest : Closest ℝ => closest.point.point ∈ region) edges _ hstart
  intro closest hclosest edge hedge
  dsimp only
  split
  · exact closestPointOnEdge_mem hregion (hedges edge hedge).1 (hedges edge hedge).2
  · exact hclosest

theorem mem_addPossibleCollisionAxis {axes : List (Vector3 ℝ)} {axis added : Vector3 ℝ}
    (h : axis ∈ addPossibleCollisionAxis axes added) : axis ∈ axes ∨ axis = added.normalize := by
  unfold addPossibleCollisionAxis at h
  split at h
  · exact Or.inl h
  · split at h
    · exact Or.inl h
    · cases List.mem_append.mp h with
      | inl hold => exact Or.inl hold
      | inr hnew => exact Or.inr (List.mem_singleton.mp hnew)

/-- A small pyramid at the origin, and a large one whose base is tilted towards it. -/
noncomputable def tilted : World ℝ :=
  .create (fun body => ⟨if body = 0 then ⟨0, ⟨1, 0, 0, 0⟩⟩ else ⟨⟨-20, 10, 0⟩, ⟨0.8, 0, 0, 0.6⟩⟩, body⟩)
    (fun ref => if ref = 0 then .pyramid ⟨1.5, 1, 1.5⟩ else .pyramid ⟨30, 20, 30⟩)

theorem wellFormed_tilted : tilted.WellFormed := by
  apply wellFormed_create_world
  · intro body
    by_cases h : body = 0
    · simp [h, Quaternion.IsRotation]
    · simp only [if_neg h, Quaternion.IsRotation]
      norm_num
  · intro ref
    by_cases h : ref = 0
    · rw [if_pos h]
      exact wellMade_pyramid _
    · rw [if_neg h]
      exact wellMade_pyramid _

/-- Where the vertices of the small pyramid are. -/
theorem small_apply (v : Vector3 ℝ) :
    ((ShapeParameters.pyramid ⟨1.5, 1, 1.5⟩).transform ⟨0, ⟨1, 0, 0, 0⟩⟩).apply v =
      (⟨3 / 2 * v.x, v.y, 3 / 2 * v.z⟩ : Vector3 ℝ) := by
  rw [transform_apply (p := .pyramid ⟨1.5, 1, 1.5⟩) rfl, rotationMatrix_one]
  ext <;> simp <;> norm_num

theorem large_apply (v : Vector3 ℝ) :
    ((ShapeParameters.pyramid ⟨30, 20, 30⟩).transform ⟨⟨-20, 10, 0⟩, ⟨0.8, 0, 0, 0.6⟩⟩).apply v =
      (⟨-20 + 42 / 5 * v.x - 96 / 5 * v.y, 10 + 144 / 5 * v.x + 28 / 5 * v.y, 30 * v.z⟩ : Vector3 ℝ) := by
  have htwo : (two : ℝ) = 2 := rfl
  rw [transform_apply (p := .pyramid ⟨30, 20, 30⟩) rfl]
  ext <;> simp [Quaternion.rotationMatrix, Matrix3.apply, htwo] <;> ring

theorem solid_small (fraction : ℝ) : tilted.solid 0 fraction = convexHull ℝ
    {x | ∃ v ∈ (Hull.pyramid : Hull ℝ).vertices, Vector3.point ⟨3 / 2 * v.x, v.y, 3 / 2 * v.z⟩ = x} := by
  simp only [← small_apply]
  rfl

theorem solid_large (fraction : ℝ) : tilted.solid 1 fraction = convexHull ℝ
    {x | ∃ v ∈ (Hull.pyramid : Hull ℝ).vertices, Vector3.point
      ⟨-20 + 42 / 5 * v.x - 96 / 5 * v.y, 10 + 144 / 5 * v.x + 28 / 5 * v.y, 30 * v.z⟩ = x} := by
  simp only [← large_apply]
  rfl

/-- The solids are clear of each other along the normal of the base of the large pyramid. -/
theorem tilted_clear : Clear (Vector3.point ⟨24 / 25, -7 / 25, 0⟩) (tilted.solid 0 1) (tilted.solid 1 1) := by
  have hsmall : ∀ v ∈ (Hull.pyramid : Hull ℝ).vertices, -2 < 24 / 25 * (3 / 2 * v.x) + -7 / 25 * v.y := by
    intro v hv
    rw [Hull.pyramid_vertices] at hv
    fin_cases hv <;> norm_num
  have hlarge : ∀ v ∈ (Hull.pyramid : Hull ℝ).vertices,
      24 / 25 * (-20 + 42 / 5 * v.x - 96 / 5 * v.y) + -7 / 25 * (10 + 144 / 5 * v.x + 28 / 5 * v.y) ≤ -2 := by
    intro v hv
    rw [Hull.pyramid_vertices] at hv
    fin_cases hv <;> norm_num
  rw [solid_small, solid_large]
  apply clear_convexHull
  right
  rintro x ⟨v, hv, rfl⟩ y ⟨w, hw, rfl⟩
  rw [Vector3.inner_point, Vector3.inner_point, Vector3.dotProduct_real, Vector3.dotProduct_real]
  have hless := (hlarge w hw).trans_lt (hsmall v hv)
  simpa using hless

/-- A direction along which the apex of the small pyramid is between points of the base of the
large one. -/
def Between (v : Vector3 ℝ) : Prop :=
  (-46 * v.x < 127 * v.y ∧ 0 < 38 * v.x + 161 * v.y) ∨ 127 * v.y < -46 * v.x ∧ 38 * v.x + 161 * v.y < 0

theorem apex_mem : Vector3.point ⟨0, 1, 0⟩ ∈ tilted.solid 0 clearFraction := by
  rw [solid_small]
  apply subset_convexHull
  exact ⟨⟨0, 1, 0⟩, by simp [Hull.pyramid_vertices], by simp⟩

theorem base_mem {k : ℝ} (hk : k = 1 ∨ k = -1) :
    Vector3.point ⟨-4 / 5 + 42 / 5 * k, 22 / 5 + 144 / 5 * k, 0⟩ ∈ tilted.solid 1 clearFraction := by
  have hvertex : ∀ z : ℝ, z = 1 ∨ z = -1 →
      Vector3.point ⟨-4 / 5 + 42 / 5 * k, 22 / 5 + 144 / 5 * k, 30 * z⟩ ∈ tilted.solid 1 clearFraction := by
    intro z hz
    rw [solid_large]
    apply subset_convexHull
    refine ⟨⟨k, -1, z⟩, ?_, ?_⟩
    · rcases hk with rfl | rfl <;> rcases hz with rfl | rfl <;> simp [Hull.pyramid_vertices]
    · congr 1
      ext <;> simp <;> ring
  have hmid := combination_mem (convex_convexHull ℝ _) (hvertex 1 (Or.inl rfl)) (hvertex (-1) (Or.inr rfl))
    (k := 1 / 2) (by norm_num)
  refine Set.mem_of_eq_of_mem (congrArg Vector3.point ?_) hmid
  ext <;> simp <;> ring

/-- No positive multiple of such a direction separates the projections. -/
theorem not_separating_of_between {v axis : Vector3 ℝ} {s : ℝ} (hv : Between v) (hs : 0 < s) (haxis : axis = v * s)
    (hnear : axis.NearUnit) : ¬ Separating tilted.shapes (tilted.bodies 0) (tilted.bodies 1) axis := by
  intro hseparating
  have hbefore : Before axis.point (tilted.solid 0 clearFraction) (tilted.solid 1 clearFraction) ∨
      Before axis.point (tilted.solid 1 clearFraction) (tilted.solid 0 clearFraction) :=
    before_of_separating hseparating
      (fun x hx => between_of_mem_solid (wellFormed_tilted.shapes 0).made (wellFormed_tilted.rotation 0) hnear hx)
      (fun x hx => between_of_mem_solid (wellFormed_tilted.shapes 1).made (wellFormed_tilted.rotation 1) hnear hx)
  have hprojection : ∀ w : Vector3 ℝ, ⟪axis.point, w.point⟫ = s * v.dotProduct w := by
    intro w
    rw [haxis, Vector3.point_mul, real_inner_smul_left, Vector3.inner_point]
  have hhigh := base_mem (Or.inl rfl)
  have hlow := base_mem (Or.inr rfl)
  simp only [Vector3.dotProduct_real] at hprojection
  unfold Between at hv
  rcases hbefore with h | h
  · have hle1 := h _ apex_mem _ hhigh
    have hle2 := h _ apex_mem _ hlow
    rw [hprojection, hprojection, mul_le_mul_iff_right₀ hs] at hle1 hle2
    rcases hv with hv | hv <;> linarith
  · have hle1 := h _ hhigh _ apex_mem
    have hle2 := h _ hlow _ apex_mem
    rw [hprojection, hprojection, mul_le_mul_iff_right₀ hs] at hle1 hle2
    rcases hv with hv | hv <;> linarith

/-- The normals of the small pyramid. -/
theorem exists_between_ownAxes {axis : Vector3 ℝ}
    (haxis : axis ∈ (ShapeParameters.pyramid ⟨1.5, 1, 1.5⟩).ownAxes ⟨0, ⟨1, 0, 0, 0⟩⟩) :
    ∃ (v : Vector3 ℝ) (s : ℝ), Between v ∧ 0 < s ∧ axis = v * s := by
  have hnormal : ∀ a b c : Vector3 ℝ, Between ((a - b).crossProduct (c - b)) →
      ∃ (v : Vector3 ℝ) (s : ℝ), Between v ∧ 0 < s ∧ ((a - b).crossProduct (c - b)).normalize = v * s := by
    intro a b c h
    obtain ⟨s, hs, heq⟩ := Vector3.exists_normalize ((a - b).crossProduct (c - b))
    exact ⟨_, s, h, hs, heq⟩
  obtain ⟨i, -, rfl⟩ := List.mem_map.mp haxis
  rw [rotationMatrix_one]
  fin_cases i
  · apply hnormal
    simp [apply_scaling, Between]
    norm_num
  · apply hnormal
    simp [apply_scaling, Between]
    norm_num
  · apply hnormal
    simp [apply_scaling, Between]
    norm_num
  · apply hnormal
    simp [apply_scaling, Between]
    norm_num
  · refine ⟨⟨0, -1, 0⟩, 1, ?_, one_pos, ?_⟩
    · simp only [Between]
      norm_num
    · ext <;> simp [pyramidNormals]

/-- Every point of the small pyramid is well below the base of the large one. -/
theorem between_of_mem {q : Vector3 ℝ} (hq : q.point ∈ tilted.solid 0 clearFraction) :
    Between (⟨-20, 10, 0⟩ - q) := by
  have hbound : ∀ (a b c : ℝ), (∀ v ∈ (Hull.pyramid : Hull ℝ).vertices, a * (3 / 2 * v.x) + b * v.y ≤ c) →
      a * q.x + b * q.y ≤ c := by
    intro a b c h
    have hinner : ⟪Vector3.point ⟨a, b, 0⟩, q.point⟫ ≤ c := by
      rw [solid_small] at hq
      apply inner_le_of_mem_convexHull _ hq
      rintro x ⟨v, hv, rfl⟩
      rw [Vector3.inner_point, Vector3.dotProduct_real]
      simpa using h v hv
    rw [Vector3.inner_point, Vector3.dotProduct_real] at hinner
    simpa using hinner
  have hlow : 46 / 5 * q.x + 127 / 5 * q.y ≤ 30 := by
    apply hbound
    intro v hv
    rw [Hull.pyramid_vertices] at hv
    fin_cases hv <;> norm_num
  have hhigh : 38 / 5 * q.x + 161 / 5 * q.y ≤ 40 := by
    apply hbound
    intro v hv
    rw [Hull.pyramid_vertices] at hv
    fin_cases hv <;> norm_num
  left
  simp only [Vector3.sub_x, Vector3.sub_y]
  constructor <;> linarith

theorem origin_mem : (0 : Space) ∈ tilted.solid 0 clearFraction := by
  have hconvex : Convex ℝ (tilted.solid 0 clearFraction) := convex_convexHull ℝ _
  have hcorner : ∀ k : ℝ, k = 1 ∨ k = -1 →
      Vector3.point ⟨3 / 2 * k, -1, 3 / 2 * k⟩ ∈ tilted.solid 0 clearFraction := by
    intro k hk
    rw [solid_small]
    apply subset_convexHull
    exact ⟨⟨k, -1, k⟩, by rcases hk with rfl | rfl <;> simp [Hull.pyramid_vertices], rfl⟩
  have hbase := combination_mem hconvex (hcorner 1 (Or.inl rfl)) (hcorner (-1) (Or.inr rfl)) (k := 1 / 2)
    (by norm_num)
  have horigin := combination_mem hconvex apex_mem hbase (k := 1 / 2) (by norm_num)
  rw [← Vector3.point_zero]
  refine Set.mem_of_eq_of_mem (congrArg Vector3.point ?_) horigin
  ext <;> norm_num

theorem closest_mem (target : Vector3 ℝ) :
    (getClosestPointOnEdges target ((ShapeParameters.pyramid ⟨1.5, 1, 1.5⟩).ownEdges ⟨0, ⟨1, 0, 0, 0⟩⟩)).point ∈
      tilted.solid 0 clearFraction := by
  have hfaceted : Faceted _ _ ((ShapeParameters.pyramid ⟨1.5, 1, 1.5⟩).ownEdges ⟨0, ⟨1, 0, 0, 0⟩⟩) :=
    faceted_worldVertices (p := .pyramid ⟨1.5, 1, 1.5⟩) rfl ⟨by norm_num, by norm_num, by norm_num⟩ isRotation_one
      Hull.polyhedral_pyramid
  apply getClosestPointOnEdges_mem (convex_convexHull ℝ _) origin_mem
  intro edge hedge
  obtain ⟨hA, hB⟩ := hfaceted.edge_mem edge hedge
  exact ⟨subset_convexHull ℝ _ hA, subset_convexHull ℝ _ hB⟩

/-- The axis to the large pyramid from wherever the edges of the small one come closest. -/
theorem exists_between_sphereAxis {orientation : Maths.Quaternion ℝ} :
    ∃ (v : Vector3 ℝ) (s : ℝ), Between v ∧ 0 < s ∧ (sphereAxis ⟨⟨-20, 10, 0⟩, orientation⟩
      ((ShapeParameters.pyramid ⟨1.5, 1, 1.5⟩).ownEdges ⟨0, ⟨1, 0, 0, 0⟩⟩)).normalize = v * s := by
  have hbetween := between_of_mem (closest_mem ⟨-20, 10, 0⟩)
  rw [sphereAxis]
  generalize (⟨-20, 10, 0⟩ : Vector3 ℝ) - getClosestPointOnEdges _ _ = v at hbetween
  obtain ⟨s, hs, heq⟩ := v.exists_normalize
  obtain ⟨s', hs', heq'⟩ := (v * s).exists_normalize
  refine ⟨v, s * s', hbetween, mul_pos hs hs', ?_⟩
  rw [heq, heq']
  ext <;> simp [mul_assoc]

theorem exists_between_tested {axis : Vector3 ℝ}
    (haxis : axis ∈ polyhedronSphereTested tilted.shapes (tilted.bodies 0) (tilted.bodies 1)) :
    ∃ (v : Vector3 ℝ) (s : ℝ), Between v ∧ 0 < s ∧ axis = v * s := by
  have haxes : ((tilted.shapes 0).getCollisionAxes (tilted.bodies 0).toPose).axes = _ :=
    axes_getCollisionAxes (show Own (tilted.shapes 0) from rfl) _
  have hedges : (((tilted.shapes 0).getCollisionAxes (tilted.bodies 0).toPose).getEdges
      (tilted.bodies 0).toPose).edges = _ :=
    edges_getEdges ((kept_getCollisionAxes (sized_create _) _).sized (sized_create _)) _
  have hadded : axis ∈ addPossibleCollisionAxis
      ((tilted.shapes 0).getCollisionAxes (tilted.bodies 0).toPose).axes (sphereAxis (tilted.bodies 1).toPose
        (((tilted.shapes 0).getCollisionAxes (tilted.bodies 0).toPose).getEdges (tilted.bodies 0).toPose).edges) :=
    haxis
  rw [haxes, hedges] at hadded
  cases mem_addPossibleCollisionAxis hadded with
  | inl hown => exact exists_between_ownAxes hown
  | inr hsphere =>
    rw [hsphere]
    exact exists_between_sphereAxis

theorem tilted_found : ∃ found shapes',
    checkCollision tilted.shapes (tilted.bodies 0) (tilted.bodies 1) = some (some found, shapes') := by
  have hfunction : checkFunction tilted.shapes (tilted.bodies 0) (tilted.bodies 1) = some .polyhedronSphere := rfl
  rw [checkCollision_found_iff _ _ _ (by simp [hfunction]) (by simp [hfunction]), testedAxes, hfunction]
  intro axis haxis
  obtain ⟨v, s, hv, hs, heq⟩ := exists_between_tested haxis
  exact not_separating_of_between hv hs heq (nearUnit_polyhedronSphereTested wellFormed_tilted haxis)

end Lumos.Physics.CollisionDetection
