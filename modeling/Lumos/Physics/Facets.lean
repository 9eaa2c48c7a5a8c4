import Lumos.Physics.Solids

/-!
# Faces and edges

Along any axis the cube and the pyramid end with a face or within an edge. So do the cuboids
and the pyramids of the scene.
-/
namespace Lumos.Physics.CollisionDetection

open Maths FloatArithmetic SeparatingAxis
open scoped RealInnerProductSpace

/-- The first three corners of a face. -/
structure HullFace where
  v0 : Nat
  v1 : Nat
  v2 : Nat
  deriving DecidableEq

/-- The faces of `ConstructCubeHull`. -/
def cubeFaces : List HullFace := [⟨0, 1, 2⟩, ⟨7, 6, 5⟩, ⟨5, 6, 2⟩, ⟨0, 3, 7⟩, ⟨6, 7, 3⟩, ⟨4, 5, 1⟩]

/-- The faces of `ConstructPyramidHull`. -/
def pyramidFaces : List HullFace := [⟨0, 4, 3⟩, ⟨1, 4, 0⟩, ⟨2, 4, 1⟩, ⟨3, 4, 2⟩, ⟨0, 3, 2⟩]

namespace Hull

variable {hull : Hull ℝ} {localAxis : Vector3 ℝ}

/-- The vertices the hull ends with. -/
def top (hull : Hull ℝ) (localAxis : Vector3 ℝ) : Set (Vector3 ℝ) :=
  {v | v ∈ hull.vertices ∧ ∀ w ∈ hull.vertices, localAxis.dotProduct w ≤ localAxis.dotProduct v}

/-- The axis is orthogonal to the face. -/
def Facing (hull : Hull ℝ) (localAxis : Vector3 ℝ) (face : HullFace) : Prop :=
  localAxis.dotProduct (hull.getVertex face.v1 - hull.getVertex face.v0) = 0 ∧
    localAxis.dotProduct (hull.getVertex face.v2 - hull.getVertex face.v0) = 0

/-- The hull ends within the edge. -/
def EndsIn (hull : Hull ℝ) (localAxis : Vector3 ℝ) (edge : HullEdge) : Prop :=
  ∀ v ∈ hull.top localAxis, v = hull.getVertex edge.vStart ∨ v = hull.getVertex edge.vEnd

/-- A face that the axis is orthogonal to, or an edge that the hull ends in. -/
def Ending (hull : Hull ℝ) (faces : List HullFace) (localAxis : Vector3 ℝ) : Prop :=
  (∃ face ∈ faces, hull.Facing localAxis face) ∨ ∃ edge ∈ hull.edges, hull.EndsIn localAxis edge

theorem cube_edges : (cube : Hull ℝ).edges =
    [⟨3, 0⟩, ⟨0, 1⟩, ⟨1, 2⟩, ⟨2, 3⟩, ⟨4, 7⟩, ⟨7, 6⟩, ⟨6, 5⟩, ⟨5, 4⟩, ⟨1, 5⟩, ⟨6, 2⟩, ⟨4, 0⟩, ⟨3, 7⟩] := rfl

theorem pyramid_edges : (pyramid : Hull ℝ).edges =
    [⟨3, 0⟩, ⟨0, 4⟩, ⟨4, 3⟩, ⟨0, 1⟩, ⟨1, 4⟩, ⟨1, 2⟩, ⟨2, 4⟩, ⟨2, 3⟩] := rfl

theorem mem_cube {v : Vector3 ℝ} :
    v ∈ (cube : Hull ℝ).vertices ↔ (v.x = -1 ∨ v.x = 1) ∧ (v.y = -1 ∨ v.y = 1) ∧ (v.z = -1 ∨ v.z = 1) := by
  rw [cube_vertices]
  constructor
  · intro h
    fin_cases h <;> norm_num
  · obtain ⟨x, y, z⟩ := v
    rintro ⟨rfl | rfl, rfl | rfl, rfl | rfl⟩ <;> simp

/-- The coordinates of a vertex that the cube ends with have the signs of those of the axis. -/
theorem sign_of_mem_top_cube {v : Vector3 ℝ} (hv : v ∈ cube.top localAxis) :
    0 ≤ localAxis.x * v.x ∧ 0 ≤ localAxis.y * v.y ∧ 0 ≤ localAxis.z * v.z := by
  obtain ⟨hmem, hmax⟩ := hv
  obtain ⟨hx, hy, hz⟩ := mem_cube.mp hmem
  have hflip : ∀ {a : ℝ}, a = -1 ∨ a = 1 → -a = -1 ∨ -a = 1 := by
    intro a ha
    rcases ha with rfl | rfl <;> norm_num
  have hflipX := hmax ⟨-v.x, v.y, v.z⟩ (mem_cube.mpr ⟨hflip hx, hy, hz⟩)
  have hflipY := hmax ⟨v.x, -v.y, v.z⟩ (mem_cube.mpr ⟨hx, hflip hy, hz⟩)
  have hflipZ := hmax ⟨v.x, v.y, -v.z⟩ (mem_cube.mpr ⟨hx, hy, hflip hz⟩)
  simp only [Vector3.dotProduct_real] at hflipX hflipY hflipZ
  exact ⟨by linarith, by linarith, by linarith⟩

/-- A coordinate of the axis that is not zero fixes one of the cube. -/
theorem exists_sign {a : ℝ} (ha : a ≠ 0) :
    ∃ c : ℝ, (c = -1 ∨ c = 1) ∧ ∀ b : ℝ, b = -1 ∨ b = 1 → 0 ≤ a * b → b = c := by
  cases lt_or_gt_of_ne ha with
  | inl hneg =>
    refine ⟨-1, Or.inl rfl, fun b hb hsign => ?_⟩
    rcases hb with rfl | rfl
    · rfl
    · linarith
  | inr hpos =>
    refine ⟨1, Or.inr rfl, fun b hb hsign => ?_⟩
    rcases hb with rfl | rfl
    · linarith
    · rfl

/-- The edges of the cube, by the two coordinates that do not change along them. -/
theorem cube_edge_x {y z : ℝ} (hy : y = -1 ∨ y = 1) (hz : z = -1 ∨ z = 1) :
    ∃ edge ∈ (cube : Hull ℝ).edges, ∀ v ∈ (cube : Hull ℝ).vertices, v.y = y → v.z = z →
      v = cube.getVertex edge.vStart ∨ v = cube.getVertex edge.vEnd := by
  have hends : ∀ v ∈ (cube : Hull ℝ).vertices, v.y = y → v.z = z → v = ⟨-1, y, z⟩ ∨ v = ⟨1, y, z⟩ :=
    fun v hv hvy hvz => (mem_cube.mp hv).1.imp (Vector3.ext · hvy hvz) (Vector3.ext · hvy hvz)
  rw [cube_edges]
  rcases hy with rfl | rfl
  · rcases hz with rfl | rfl
    · exact ⟨⟨3, 0⟩, by simp, fun v hv hvy hvz => (hends v hv hvy hvz).symm⟩
    · exact ⟨⟨4, 7⟩, by simp, hends⟩
  · rcases hz with rfl | rfl
    · exact ⟨⟨1, 2⟩, by simp, hends⟩
    · exact ⟨⟨6, 5⟩, by simp, fun v hv hvy hvz => (hends v hv hvy hvz).symm⟩

theorem cube_edge_y {x z : ℝ} (hx : x = -1 ∨ x = 1) (hz : z = -1 ∨ z = 1) :
    ∃ edge ∈ (cube : Hull ℝ).edges, ∀ v ∈ (cube : Hull ℝ).vertices, v.x = x → v.z = z →
      v = cube.getVertex edge.vStart ∨ v = cube.getVertex edge.vEnd := by
  have hends : ∀ v ∈ (cube : Hull ℝ).vertices, v.x = x → v.z = z → v = ⟨x, -1, z⟩ ∨ v = ⟨x, 1, z⟩ :=
    fun v hv hvx hvz => (mem_cube.mp hv).2.1.imp (Vector3.ext hvx · hvz) (Vector3.ext hvx · hvz)
  rw [cube_edges]
  rcases hx with rfl | rfl
  · rcases hz with rfl | rfl
    · exact ⟨⟨0, 1⟩, by simp, hends⟩
    · exact ⟨⟨5, 4⟩, by simp, fun v hv hvx hvz => (hends v hv hvx hvz).symm⟩
  · rcases hz with rfl | rfl
    · exact ⟨⟨2, 3⟩, by simp, fun v hv hvx hvz => (hends v hv hvx hvz).symm⟩
    · exact ⟨⟨7, 6⟩, by simp, hends⟩

theorem cube_edge_z {x y : ℝ} (hx : x = -1 ∨ x = 1) (hy : y = -1 ∨ y = 1) :
    ∃ edge ∈ (cube : Hull ℝ).edges, ∀ v ∈ (cube : Hull ℝ).vertices, v.x = x → v.y = y →
      v = cube.getVertex edge.vStart ∨ v = cube.getVertex edge.vEnd := by
  have hends : ∀ v ∈ (cube : Hull ℝ).vertices, v.x = x → v.y = y → v = ⟨x, y, -1⟩ ∨ v = ⟨x, y, 1⟩ :=
    fun v hv hvx hvy => (mem_cube.mp hv).2.2.imp (Vector3.ext hvx hvy ·) (Vector3.ext hvx hvy ·)
  rw [cube_edges]
  rcases hx with rfl | rfl
  · rcases hy with rfl | rfl
    · exact ⟨⟨4, 0⟩, by simp, fun v hv hvx hvy => (hends v hv hvx hvy).symm⟩
    · exact ⟨⟨1, 5⟩, by simp, hends⟩
  · rcases hy with rfl | rfl
    · exact ⟨⟨3, 7⟩, by simp, hends⟩
    · exact ⟨⟨6, 2⟩, by simp, fun v hv hvx hvy => (hends v hv hvx hvy).symm⟩

/-- Two coordinates that are not zero leave an edge, two that are zero a face. -/
theorem ending_cube (localAxis : Vector3 ℝ) : Ending cube cubeFaces localAxis := by
  by_cases hx : localAxis.x = 0
  · by_cases hy : localAxis.y = 0
    · refine Or.inl ⟨⟨0, 1, 2⟩, by simp [cubeFaces], ?_, ?_⟩ <;>
        simp [Vector3.dotProduct_real, hx, hy, getVertex, cube_vertices]
    · by_cases hz : localAxis.z = 0
      · refine Or.inl ⟨⟨0, 3, 7⟩, by simp [cubeFaces], ?_, ?_⟩ <;>
          simp [Vector3.dotProduct_real, hx, hz, getVertex, cube_vertices]
      · obtain ⟨y, hySign, hyTop⟩ := exists_sign hy
        obtain ⟨z, hzSign, hzTop⟩ := exists_sign hz
        obtain ⟨edge, hedge, hends⟩ := cube_edge_x hySign hzSign
        refine Or.inr ⟨edge, hedge, fun v hv => ?_⟩
        obtain ⟨-, hvy, hvz⟩ := mem_cube.mp hv.1
        obtain ⟨-, hsy, hsz⟩ := sign_of_mem_top_cube hv
        exact hends v hv.1 (hyTop _ hvy hsy) (hzTop _ hvz hsz)
  · obtain ⟨x, hxSign, hxTop⟩ := exists_sign hx
    by_cases hy : localAxis.y = 0
    · by_cases hz : localAxis.z = 0
      · refine Or.inl ⟨⟨4, 5, 1⟩, by simp [cubeFaces], ?_, ?_⟩ <;>
          simp [Vector3.dotProduct_real, hy, hz, getVertex, cube_vertices]
      · obtain ⟨z, hzSign, hzTop⟩ := exists_sign hz
        obtain ⟨edge, hedge, hends⟩ := cube_edge_y hxSign hzSign
        refine Or.inr ⟨edge, hedge, fun v hv => ?_⟩
        obtain ⟨hvx, -, hvz⟩ := mem_cube.mp hv.1
        obtain ⟨hsx, -, hsz⟩ := sign_of_mem_top_cube hv
        exact hends v hv.1 (hxTop _ hvx hsx) (hzTop _ hvz hsz)
    · obtain ⟨y, hySign, hyTop⟩ := exists_sign hy
      obtain ⟨edge, hedge, hends⟩ := cube_edge_z hxSign hySign
      refine Or.inr ⟨edge, hedge, fun v hv => ?_⟩
      obtain ⟨hvx, hvy, -⟩ := mem_cube.mp hv.1
      obtain ⟨hsx, hsy, -⟩ := sign_of_mem_top_cube hv
      exact hends v hv.1 (hxTop _ hvx hsx) (hyTop _ hvy hsy)

theorem mem_pyramid {v : Vector3 ℝ} :
    v ∈ (pyramid : Hull ℝ).vertices ↔
      v = ⟨0, 1, 0⟩ ∨ (v.x = -1 ∨ v.x = 1) ∧ v.y = -1 ∧ (v.z = -1 ∨ v.z = 1) := by
  rw [pyramid_vertices]
  constructor
  · intro h
    fin_cases h <;> norm_num
  · obtain ⟨x, y, z⟩ := v
    rintro (h | ⟨rfl | rfl, rfl, rfl | rfl⟩)
    · rw [h]
      simp
    all_goals simp

/-- A vertex of the base that the pyramid ends with is no lower than the apex, and has the signs
of the axis. -/
theorem sign_of_mem_top_pyramid {v : Vector3 ℝ} (hv : v ∈ pyramid.top localAxis) (hapex : v ≠ ⟨0, 1, 0⟩) :
    0 ≤ localAxis.x * v.x ∧ 0 ≤ localAxis.z * v.z ∧
      2 * localAxis.y ≤ localAxis.x * v.x + localAxis.z * v.z := by
  obtain ⟨hmem, hmax⟩ := hv
  obtain ⟨hx, hy, hz⟩ := (mem_pyramid.mp hmem).resolve_left hapex
  have hflip : ∀ {a : ℝ}, a = -1 ∨ a = 1 → -a = -1 ∨ -a = 1 := by
    intro a ha
    rcases ha with rfl | rfl <;> norm_num
  have hflipX := hmax ⟨-v.x, v.y, v.z⟩ (mem_pyramid.mpr (Or.inr ⟨hflip hx, hy, hz⟩))
  have hflipZ := hmax ⟨v.x, v.y, -v.z⟩ (mem_pyramid.mpr (Or.inr ⟨hx, hy, hflip hz⟩))
  have hlow := hmax ⟨0, 1, 0⟩ (mem_pyramid.mpr (Or.inl rfl))
  simp only [Vector3.dotProduct_real, hy] at hflipX hflipZ hlow
  exact ⟨by linarith, by linarith, by linarith⟩

/-- Where the pyramid ends with its apex no vertex of the base is higher. -/
theorem le_of_apex_mem_top (h : (⟨0, 1, 0⟩ : Vector3 ℝ) ∈ pyramid.top localAxis) {x z : ℝ}
    (hx : x = -1 ∨ x = 1) (hz : z = -1 ∨ z = 1) : localAxis.x * x + localAxis.z * z ≤ 2 * localAxis.y := by
  have hle := h.2 ⟨x, -1, z⟩ (mem_pyramid.mpr (Or.inr ⟨hx, rfl, hz⟩))
  simp only [Vector3.dotProduct_real] at hle
  linarith

/-- The slanted edges of the pyramid, by their vertices in the base. -/
theorem pyramid_edge_apex {x z : ℝ} (hx : x = -1 ∨ x = 1) (hz : z = -1 ∨ z = 1) :
    ∃ edge ∈ (pyramid : Hull ℝ).edges, ∀ v : Vector3 ℝ, v = ⟨0, 1, 0⟩ ∨ v = ⟨x, -1, z⟩ →
      v = pyramid.getVertex edge.vStart ∨ v = pyramid.getVertex edge.vEnd := by
  rw [pyramid_edges]
  rcases hx with rfl | rfl
  · rcases hz with rfl | rfl
    · exact ⟨⟨0, 4⟩, by simp, fun v hv => hv.symm⟩
    · exact ⟨⟨1, 4⟩, by simp, fun v hv => hv.symm⟩
  · rcases hz with rfl | rfl
    · exact ⟨⟨4, 3⟩, by simp, fun v hv => hv⟩
    · exact ⟨⟨2, 4⟩, by simp, fun v hv => hv.symm⟩

/-- The edges of its base, by the coordinate that does not change along them. -/
theorem pyramid_edge_x {z : ℝ} (hz : z = -1 ∨ z = 1) :
    ∃ edge ∈ (pyramid : Hull ℝ).edges, ∀ v : Vector3 ℝ, v.x = -1 ∨ v.x = 1 → v.y = -1 → v.z = z →
      v = pyramid.getVertex edge.vStart ∨ v = pyramid.getVertex edge.vEnd := by
  have hends : ∀ v : Vector3 ℝ, v.x = -1 ∨ v.x = 1 → v.y = -1 → v.z = z → v = ⟨-1, -1, z⟩ ∨ v = ⟨1, -1, z⟩ :=
    fun v hvx hvy hvz => hvx.imp (Vector3.ext · hvy hvz) (Vector3.ext · hvy hvz)
  rw [pyramid_edges]
  rcases hz with rfl | rfl
  · exact ⟨⟨3, 0⟩, by simp, fun v hvx hvy hvz => (hends v hvx hvy hvz).symm⟩
  · exact ⟨⟨1, 2⟩, by simp, hends⟩

theorem pyramid_edge_z {x : ℝ} (hx : x = -1 ∨ x = 1) :
    ∃ edge ∈ (pyramid : Hull ℝ).edges, ∀ v : Vector3 ℝ, v.x = x → v.y = -1 → v.z = -1 ∨ v.z = 1 →
      v = pyramid.getVertex edge.vStart ∨ v = pyramid.getVertex edge.vEnd := by
  have hends : ∀ v : Vector3 ℝ, v.x = x → v.y = -1 → v.z = -1 ∨ v.z = 1 → v = ⟨x, -1, -1⟩ ∨ v = ⟨x, -1, 1⟩ :=
    fun v hvx hvy hvz => hvz.imp (Vector3.ext hvx hvy ·) (Vector3.ext hvx hvy ·)
  rw [pyramid_edges]
  rcases hx with rfl | rfl
  · exact ⟨⟨0, 1⟩, by simp, hends⟩
  · exact ⟨⟨2, 3⟩, by simp, fun v hvx hvy hvz => (hends v hvx hvy hvz).symm⟩

theorem facing_pyramid_z (hx : localAxis.x = 0) {z : ℝ} (hz : z = -1 ∨ z = 1)
    (hlevel : 2 * localAxis.y = localAxis.z * z) : ∃ face ∈ pyramidFaces, pyramid.Facing localAxis face := by
  rcases hz with rfl | rfl
  · refine ⟨⟨0, 4, 3⟩, by simp [pyramidFaces], ?_, ?_⟩
    · simp [Vector3.dotProduct_real, hx, getVertex, pyramid_vertices]
      linarith
    · simp [Vector3.dotProduct_real, hx, getVertex, pyramid_vertices]
  · refine ⟨⟨2, 4, 1⟩, by simp [pyramidFaces], ?_, ?_⟩
    · simp [Vector3.dotProduct_real, hx, getVertex, pyramid_vertices]
      linarith
    · simp [Vector3.dotProduct_real, hx, getVertex, pyramid_vertices]

theorem facing_pyramid_x (hz : localAxis.z = 0) {x : ℝ} (hx : x = -1 ∨ x = 1)
    (hlevel : 2 * localAxis.y = localAxis.x * x) : ∃ face ∈ pyramidFaces, pyramid.Facing localAxis face := by
  rcases hx with rfl | rfl
  · refine ⟨⟨1, 4, 0⟩, by simp [pyramidFaces], ?_, ?_⟩
    · simp [Vector3.dotProduct_real, hz, getVertex, pyramid_vertices]
      linarith
    · simp [Vector3.dotProduct_real, hz, getVertex, pyramid_vertices]
  · refine ⟨⟨3, 4, 2⟩, by simp [pyramidFaces], ?_, ?_⟩
    · simp [Vector3.dotProduct_real, hz, getVertex, pyramid_vertices]
      linarith
    · simp [Vector3.dotProduct_real, hz, getVertex, pyramid_vertices]

/-- Where the axis is orthogonal to an edge of the base the pyramid ends in that edge, with the
side above it or with the apex. -/
theorem ending_pyramid_z (hx : localAxis.x = 0) (hz : localAxis.z ≠ 0) : Ending pyramid pyramidFaces localAxis := by
  obtain ⟨z, hzSign, hzTop⟩ := exists_sign hz
  rcases lt_trichotomy (2 * localAxis.y) (localAxis.z * z) with hlow | hlevel | hhigh
  · obtain ⟨edge, hedge, hends⟩ := pyramid_edge_x hzSign
    refine Or.inr ⟨edge, hedge, fun v hv => ?_⟩
    have hapex : v ≠ ⟨0, 1, 0⟩ := by
      rintro rfl
      have hle := le_of_apex_mem_top hv (Or.inr rfl) hzSign
      rw [hx] at hle
      linarith
    obtain ⟨hvx, hvy, hvz⟩ := (mem_pyramid.mp hv.1).resolve_left hapex
    exact hends v hvx hvy (hzTop _ hvz (sign_of_mem_top_pyramid hv hapex).2.1)
  · exact Or.inl (facing_pyramid_z hx hzSign hlevel)
  · obtain ⟨edge, hedge, hends⟩ := pyramid_edge_apex (Or.inr rfl) hzSign
    refine Or.inr ⟨edge, hedge, fun v hv => hends v (Or.inl ?_)⟩
    by_contra hapex
    obtain ⟨-, -, hvz⟩ := (mem_pyramid.mp hv.1).resolve_left hapex
    obtain ⟨-, hsz, hle⟩ := sign_of_mem_top_pyramid hv hapex
    rw [hzTop _ hvz hsz, hx] at hle
    linarith

theorem ending_pyramid_x (hx : localAxis.x ≠ 0) (hz : localAxis.z = 0) : Ending pyramid pyramidFaces localAxis := by
  obtain ⟨x, hxSign, hxTop⟩ := exists_sign hx
  rcases lt_trichotomy (2 * localAxis.y) (localAxis.x * x) with hlow | hlevel | hhigh
  · obtain ⟨edge, hedge, hends⟩ := pyramid_edge_z hxSign
    refine Or.inr ⟨edge, hedge, fun v hv => ?_⟩
    have hapex : v ≠ ⟨0, 1, 0⟩ := by
      rintro rfl
      have hle := le_of_apex_mem_top hv hxSign (Or.inr rfl)
      rw [hz] at hle
      linarith
    obtain ⟨hvx, hvy, hvz⟩ := (mem_pyramid.mp hv.1).resolve_left hapex
    exact hends v (hxTop _ hvx (sign_of_mem_top_pyramid hv hapex).1) hvy hvz
  · exact Or.inl (facing_pyramid_x hz hxSign hlevel)
  · obtain ⟨edge, hedge, hends⟩ := pyramid_edge_apex hxSign (Or.inr rfl)
    refine Or.inr ⟨edge, hedge, fun v hv => hends v (Or.inl ?_)⟩
    by_contra hapex
    obtain ⟨hvx, -, -⟩ := (mem_pyramid.mp hv.1).resolve_left hapex
    obtain ⟨hsx, -, hle⟩ := sign_of_mem_top_pyramid hv hapex
    rw [hxTop _ hvx hsx, hz] at hle
    linarith

theorem ending_pyramid (localAxis : Vector3 ℝ) : Ending pyramid pyramidFaces localAxis := by
  by_cases hx : localAxis.x = 0
  · by_cases hz : localAxis.z = 0
    · refine Or.inl ⟨⟨0, 3, 2⟩, by simp [pyramidFaces], ?_, ?_⟩ <;>
        simp [Vector3.dotProduct_real, hx, hz, getVertex, pyramid_vertices]
    · exact ending_pyramid_z hx hz
  · by_cases hz : localAxis.z = 0
    · exact ending_pyramid_x hx hz
    · obtain ⟨x, hxSign, hxTop⟩ := exists_sign hx
      obtain ⟨z, hzSign, hzTop⟩ := exists_sign hz
      obtain ⟨edge, hedge, hends⟩ := pyramid_edge_apex hxSign hzSign
      refine Or.inr ⟨edge, hedge, fun v hv => hends v ?_⟩
      by_cases hapex : v = ⟨0, 1, 0⟩
      · exact Or.inl hapex
      · obtain ⟨hvx, hvy, hvz⟩ := (mem_pyramid.mp hv.1).resolve_left hapex
        obtain ⟨hsx, hsz, -⟩ := sign_of_mem_top_pyramid hv hapex
        exact Or.inr (Vector3.ext (hxTop _ hvx hsx) hvy (hzTop _ hvz hsz))

/-- A hull with volume, with faces and edges that are proper, and that ends in them. -/
structure Polyhedral (hull : Hull ℝ) (faces : List HullFace) : Prop where
  hasVolume : hull.HasVolume
  vertices : hull.vertices ≠ []
  edge_mem : ∀ edge ∈ hull.edges,
    hull.getVertex edge.vStart ∈ hull.vertices ∧ hull.getVertex edge.vEnd ∈ hull.vertices
  edge_ne : ∀ edge ∈ hull.edges, hull.getVertex edge.vEnd - hull.getVertex edge.vStart ≠ 0
  face_ne : ∀ face ∈ faces, (hull.getVertex face.v1 - hull.getVertex face.v0).crossProduct
    (hull.getVertex face.v2 - hull.getVertex face.v0) ≠ 0
  ending : ∀ localAxis, Ending hull faces localAxis

theorem polyhedral_cube : Polyhedral cube cubeFaces where
  hasVolume := hasVolume_cube
  vertices := List.cons_ne_nil _ _
  edge_mem := by
    rw [cube_edges, cube_vertices]
    simp [getVertex, cube_vertices]
  edge_ne := by
    rw [cube_edges]
    simp [getVertex, cube_vertices, Vector3.ext_iff]
    norm_num
  face_ne := by
    simp [cubeFaces, getVertex, cube_vertices, Vector3.ext_iff]
    norm_num
  ending := ending_cube

theorem polyhedral_pyramid : Polyhedral pyramid pyramidFaces where
  hasVolume := hasVolume_pyramid
  vertices := List.cons_ne_nil _ _
  edge_mem := by
    rw [pyramid_edges, pyramid_vertices]
    simp [getVertex, pyramid_vertices]
  edge_ne := by
    rw [pyramid_edges]
    simp [getVertex, pyramid_vertices, Vector3.ext_iff]
    norm_num
  face_ne := by
    simp [pyramidFaces, getVertex, pyramid_vertices, Vector3.ext_iff]
  ending := ending_pyramid

end Hull

/-! ## World space -/

def ShapeData.faces {K : Type} : ShapeData K → List HullFace
  | .cuboid => cubeFaces
  | .pyramid _ => pyramidFaces
  | .sphere _ | .capsule _ _ | .hull _ => []

/-- The normals of the faces of a body with this shape, from its corners. -/
def ShapeParameters.faceNormals {K : Type} [FloatArithmetic K] (p : ShapeParameters K) (obj : Pose K) :
    List (Vector3 K) :=
  p.data.faces.map fun face =>
    ((p.transform obj).apply (p.data.toHull.getVertex face.v1) -
      (p.transform obj).apply (p.data.toHull.getVertex face.v0)).crossProduct
    ((p.transform obj).apply (p.data.toHull.getVertex face.v2) -
      (p.transform obj).apply (p.data.toHull.getVertex face.v0))

/-- Points in space that are not in one plane, and that end, along any axis, with a face or
within an edge. -/
structure Faceted (vertices : Set Space) (normals : List (Vector3 ℝ)) (edges : List (CollisionEdge ℝ)) :
    Prop where
  finite : vertices.Finite
  nonempty : vertices.Nonempty
  spanning : Spanning vertices
  edge_mem : ∀ edge ∈ edges, edge.posA.point ∈ vertices ∧ edge.posB.point ∈ vertices
  edge_ne : ∀ edge ∈ edges, edge.posB - edge.posA ≠ 0
  ending : ∀ axis : Vector3 ℝ, (∃ n ∈ normals, ∃ c : ℝ, axis = n * c) ∨
    ∃ edge ∈ edges, ends axis.point vertices ⊆ {edge.posA.point, edge.posB.point}

section Placement

variable {p : ShapeParameters ℝ} {s : Vector3 ℝ} (hscaled : p.localTransform = Matrix4.scaling s)
  (hs : s.x ≠ 0 ∧ s.y ≠ 0 ∧ s.z ≠ 0) {obj : Pose ℝ} (hobj : obj.orientation.IsRotation)

include hscaled in
theorem transform_sub (v w : Vector3 ℝ) :
    (p.transform obj).apply v - (p.transform obj).apply w =
      obj.orientation.rotationMatrix.apply ⟨s.x * (v - w).x, s.y * (v - w).y, s.z * (v - w).z⟩ := by
  rw [transform_apply hscaled, transform_apply hscaled]
  ext <;> simp [Matrix3.apply] <;> ring

include hscaled hs hobj

theorem transform_sub_ne_zero {v w : Vector3 ℝ} (h : v - w ≠ 0) :
    (p.transform obj).apply v - (p.transform obj).apply w ≠ 0 := by
  rw [transform_sub hscaled]
  intro hzero
  apply h
  rw [← Vector3.lengthSquared_eq_zero, lengthSquared_rotation hobj, Vector3.lengthSquared_eq_zero,
    Vector3.ext_iff] at hzero
  ext
  · exact (mul_eq_zero.mp hzero.1).resolve_left hs.1
  · exact (mul_eq_zero.mp hzero.2.1).resolve_left hs.2.1
  · exact (mul_eq_zero.mp hzero.2.2).resolve_left hs.2.2

/-- A proper face stays one. -/
theorem transform_crossProduct_ne_zero {u v w : Vector3 ℝ} (h : (u - w).crossProduct (v - w) ≠ 0) :
    ((p.transform obj).apply u - (p.transform obj).apply w).crossProduct
      ((p.transform obj).apply v - (p.transform obj).apply w) ≠ 0 := by
  rw [transform_sub hscaled, transform_sub hscaled]
  intro hzero
  apply h
  rw [← Vector3.lengthSquared_eq_zero, Vector3.lengthSquared_crossProduct, lengthSquared_rotation hobj,
    lengthSquared_rotation hobj, dotProduct_rotation hobj, ← Vector3.lengthSquared_crossProduct,
    Vector3.lengthSquared_eq_zero, Vector3.ext_iff] at hzero
  simp only [Vector3.crossProduct_x, Vector3.crossProduct_y, Vector3.crossProduct_z, Vector3.zero_x, Vector3.zero_y,
    Vector3.zero_z] at hzero
  obtain ⟨hx, hy, hz⟩ := hzero
  ext
  · apply (mul_eq_zero.mp _).resolve_left (mul_ne_zero hs.2.1 hs.2.2)
    simp only [Vector3.crossProduct_x]
    linear_combination hx
  · apply (mul_eq_zero.mp _).resolve_left (mul_ne_zero hs.2.2 hs.1)
    simp only [Vector3.crossProduct_y]
    linear_combination hy
  · apply (mul_eq_zero.mp _).resolve_left (mul_ne_zero hs.1 hs.2.1)
    simp only [Vector3.crossProduct_z]
    linear_combination hz

omit hs hobj in
/-- The axis in local space sees the differences of vertices as the axis sees them in world
space. -/
theorem dotProduct_transform_sub (axis v w : Vector3 ℝ) :
    axis.dotProduct ((p.transform obj).apply v - (p.transform obj).apply w) =
      ((p.transform obj).toMatrix3.transpose.apply axis).dotProduct (v - w) := by
  have hv := dotProduct_transform_apply hscaled obj axis v
  have hw := dotProduct_transform_apply hscaled obj axis w
  simp only [Vector3.dotProduct_real, Vector3.sub_x, Vector3.sub_y, Vector3.sub_z] at hv hw ⊢
  linear_combination hv - hw

omit hs hobj in
/-- What a body ends with, its hull ends with in local space. -/
theorem exists_top_of_mem_ends {axis : Vector3 ℝ} {x : Space} (hx : x ∈ ends axis.point (p.worldVertices obj)) :
    ∃ v ∈ p.data.toHull.top ((p.transform obj).toMatrix3.transpose.apply axis),
      ((p.transform obj).apply v).point = x := by
  obtain ⟨⟨v, hv, rfl⟩, hmax⟩ := hx
  refine ⟨v, ⟨hv, fun w hw => ?_⟩, rfl⟩
  have hle := hmax _ ⟨w, hw, rfl⟩
  rw [Vector3.inner_point, Vector3.inner_point, dotProduct_transform_apply hscaled,
    dotProduct_transform_apply hscaled] at hle
  linarith

/-- A shape with a polyhedral hull stays faceted wherever its body is. -/
theorem faceted_worldVertices (hhull : p.data.toHull.Polyhedral p.data.faces) :
    Faceted (p.worldVertices obj) (p.faceNormals obj) (p.ownEdges obj) where
  finite := by
    have himage := (List.finite_toSet p.data.toHull.vertices).image fun v => ((p.transform obj).apply v).point
    apply himage.subset
    rintro x ⟨v, hv, rfl⟩
    exact ⟨v, hv, rfl⟩
  nonempty := by
    obtain ⟨v, hv⟩ := List.exists_mem_of_ne_nil _ hhull.vertices
    exact ⟨_, v, hv, rfl⟩
  spanning := spanning_worldVertices hscaled hs hobj hhull.hasVolume
  edge_mem := by
    intro edge hedge
    obtain ⟨hullEdge, hmem, rfl⟩ := List.mem_map.mp hedge
    obtain ⟨hstart, hend⟩ := hhull.edge_mem hullEdge hmem
    exact ⟨⟨_, hstart, rfl⟩, ⟨_, hend, rfl⟩⟩
  edge_ne := by
    intro edge hedge
    obtain ⟨hullEdge, hmem, rfl⟩ := List.mem_map.mp hedge
    exact transform_sub_ne_zero hscaled hs hobj (hhull.edge_ne hullEdge hmem)
  ending := by
    intro axis
    cases hhull.ending ((p.transform obj).toMatrix3.transpose.apply axis) with
    | inl hface =>
      obtain ⟨face, hmem, hfirst, hsecond⟩ := hface
      left
      refine ⟨_, List.mem_map.mpr ⟨face, hmem, rfl⟩, ?_⟩
      apply Vector3.exists_mul_of_orthogonal
      · exact transform_crossProduct_ne_zero hscaled hs hobj (hhull.face_ne face hmem)
      · rw [dotProduct_transform_sub hscaled, hfirst]
      · rw [dotProduct_transform_sub hscaled, hsecond]
    | inr hedge =>
      obtain ⟨hullEdge, hmem, hends⟩ := hedge
      right
      refine ⟨_, List.mem_map.mpr ⟨hullEdge, hmem, rfl⟩, ?_⟩
      intro x hx
      obtain ⟨v, hv, rfl⟩ := exists_top_of_mem_ends hscaled hx
      exact (hends v hv).imp (fun h => by rw [h]) (fun h => by rw [h]; rfl)

end Placement

end Lumos.Physics.CollisionDetection
