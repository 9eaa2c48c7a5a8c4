import Lumos.Physics.CollisionHistory
import Lumos.Physics.SeparationSoundness

/-!
# What the first check of two bodies goes by

Two bodies with new shapes are reported to collide where none of the axes that are collected
for them tells their projections apart. The two ways in which projections can lie are not
treated alike: one may touch the other at its end, but not at its beginning.
-/
namespace Lumos.Physics.CollisionDetection

open Maths FloatArithmetic

/-- Which function the table has for shapes with these parameters. -/
def dispatched {K : Type} (p1 p2 : ShapeParameters K) : Option CheckFunction :=
  collisionCheckFunctions (p1.data.type ||| p2.data.type)

theorem dispatched_comm {K : Type} (p1 p2 : ShapeParameters K) : dispatched p2 p1 = dispatched p1 p2 := by
  rw [dispatched, dispatched, Nat.or_comm]

section Reports

variable {K : Type} [FloatArithmetic K] (obj1 obj2 : Pose K) (p1 p2 : ShapeParameters K)

/-- The axes that are collected. -/
def checkedAxes : List (Vector3 K) :=
  match dispatched p1 p2 with
  | some .sphere => [(obj2.position - obj1.position).normalize]
  | some .polyhedron => polyhedronAxes obj1 obj2 p1 p2
  | some .polyhedronSphere => if p1.data.type = 2 then sphereAxes obj2 obj1 p2 else sphereAxes obj1 obj2 p1
  | some .invalid | none => []

/-- `CheckCollision` returns true of the bodies when their shapes are new. -/
def Reported : Prop := (firstCheck obj1 obj2 p1 p2).join.isSome = true

instance : Decidable (Reported obj1 obj2 p1 p2) := inferInstanceAs (Decidable (_ = _))

/-- A check finds what it goes by, or reads past the end of the table. -/
theorem firstCheck_eq_answer : firstCheck obj1 obj2 p1 p2 = answer obj1 obj2 p1 p2 := by
  cases hanswer : answer obj1 obj2 p1 p2 with
  | some found => exact firstCheck_answer hanswer
  | none =>
    have htable : collisionCheckFunctions (p1.data.type ||| p2.data.type) = none := by
      unfold answer at hanswer
      split at hanswer <;> first | contradiction | assumption
    have hfunction : checkFunction
        (World.create (fun body => ⟨if body = 0 then obj1 else obj2, body⟩)
          (fun ref => if ref = 0 then p1 else p2)).shapes ⟨obj1, 0⟩ ⟨obj2, 1⟩ = none := htable
    change (checkCollision _ ⟨obj1, 0⟩ ⟨obj2, 1⟩).map Prod.fst = none
    rw [checkCollision, hfunction]
    rfl

theorem reported_iff : Reported obj1 obj2 p1 p2 ↔
    (dispatched p1 p2 ≠ none ∧ dispatched p1 p2 ≠ some .invalid) ∧
      ∀ axis ∈ checkedAxes obj1 obj2 p1 p2, checkCollisionAxis axis obj1 obj2 p1 p2 ≠ none := by
  have htested : ∀ {better : K → K → Bool} {axes : List (Vector3 K)},
      (testAxes better obj1 obj2 p1 p2 .worst axes).isSome = true ↔
        ∀ axis ∈ axes, checkCollisionAxis axis obj1 obj2 p1 p2 ≠ none := by
    intro better axes
    rw [Option.isSome_iff_ne_none, Ne, testAxes_eq_none_iff]
    push Not
    rfl
  rw [Reported, firstCheck_eq_answer, answer, checkedAxes, ← dispatched]
  cases dispatched p1 p2 with
  | none => simp
  | some function =>
    cases function with
    | invalid => simp
    | sphere => simp [sphereAnswer, Option.isSome_iff_ne_none]
    | polyhedron => simpa [polyhedronAnswer] using htested
    | polyhedronSphere => simpa [polyhedronSphereAnswer] using htested

end Reports

/-! ## Axes and projections -/

/-- What the constructors and the setters of a shape see to, and radii that are not negative. -/
structure Proper (p : ShapeParameters ℝ) : Prop extends WellMade p where
  sphere : ∀ radius, p.data = .sphere radius → 0 ≤ radius
  capsule : ∀ radius height, p.data = .capsule radius height → 0 ≤ radius

theorem proper_sphere {radius : ℝ} (h : 0 ≤ radius) : Proper (.sphere radius) where
  toWellMade := wellMade_sphere radius
  sphere := by
    rintro _ ⟨⟩
    exact h
  capsule := by
    rintro _ _ ⟨⟩

section Axes

variable {obj obj1 obj2 : Pose ℝ} {p p1 p2 : ShapeParameters ℝ} {axis : Vector3 ℝ}

theorem nearUnit_addPossibleCollisionAxis {axes : List (Vector3 ℝ)} (haxes : ∀ axis ∈ axes, axis.NearUnit)
    (added : Vector3 ℝ) : ∀ axis ∈ addPossibleCollisionAxis axes added, axis.NearUnit := by
  intro axis haxis
  unfold addPossibleCollisionAxis at haxis
  split at haxis
  · exact haxes axis haxis
  · split at haxis
    · exact haxes axis haxis
    · obtain hold | hnew := List.mem_append.mp haxis
      · exact haxes axis hold
      · rw [List.mem_singleton.mp hnew]
        exact added.nearUnit_normalize

theorem nearUnit_addEdgeAxes {axes : List (Vector3 ℝ)} (haxes : ∀ axis ∈ axes, axis.NearUnit)
    (edges1 edges2 : List (CollisionEdge ℝ)) : ∀ axis ∈ addEdgeAxes axes edges1 edges2, axis.NearUnit := by
  unfold addEdgeAxes
  apply List.foldlRecOn (motive := fun axes : List (Vector3 ℝ) => ∀ axis ∈ axes, axis.NearUnit) edges1 _ haxes
  intro axes haxes edge1 _
  apply List.foldlRecOn (motive := fun axes : List (Vector3 ℝ) => ∀ axis ∈ axes, axis.NearUnit) edges2 _ haxes
  intro axes haxes edge2 _
  exact nearUnit_addPossibleCollisionAxis haxes _

theorem nearUnit_checkedAxes (h1 : WellMade p1) (h2 : WellMade p2) (hobj1 : obj1.orientation.IsRotation)
    (hobj2 : obj2.orientation.IsRotation) : ∀ axis ∈ checkedAxes obj1 obj2 p1 p2, axis.NearUnit := by
  have hown1 : ∀ axis ∈ p1.ownAxes obj1, axis.NearUnit := fun _ => nearUnit_ownAxes h1 hobj1
  have hown2 : ∀ axis ∈ p2.ownAxes obj2, axis.NearUnit := fun _ => nearUnit_ownAxes h2 hobj2
  unfold checkedAxes
  split
  · intro axis haxis
    rw [List.mem_singleton.mp haxis]
    exact Vector3.nearUnit_normalize _
  · apply nearUnit_addEdgeAxes
    apply List.foldlRecOn (motive := fun axes : List (Vector3 ℝ) => ∀ axis ∈ axes, axis.NearUnit) _ _ hown1
    intro axes haxes added _
    exact nearUnit_addPossibleCollisionAxis haxes added
  · split
    · exact nearUnit_addPossibleCollisionAxis hown2 _
    · exact nearUnit_addPossibleCollisionAxis hown1 _
  · exact fun _ haxis => absurd haxis List.not_mem_nil
  · exact fun _ haxis => absurd haxis List.not_mem_nil

/-- The projection of a ball. -/
theorem low_of_radius {radius : ℝ} (hp : WellMade p)
    (hdata : p.data = .sphere radius ∨ ∃ height, p.data = .capsule radius height) (obj : Pose ℝ) (axis : Vector3 ℝ) :
    p.low obj axis = axis.dotProduct obj.position - axis.lengthSquared * radius ∧
      p.high obj axis = axis.dotProduct obj.position + axis.lengthSquared * radius := by
  obtain ⟨s, hscaled⟩ := hp.scaled
  rw [← dotProduct_sub_mul, ← dotProduct_add_mul, ← transform_position hscaled obj]
  obtain hdata | ⟨height, hdata⟩ := hdata
  · simp only [ShapeParameters.low, ShapeParameters.high, ShapeParameters.getMinMaxVertexOnAxis, hdata, and_self]
  · simp only [ShapeParameters.low, ShapeParameters.high, ShapeParameters.getMinMaxVertexOnAxis, hdata, and_self]

/-- A projection does not end before it begins. -/
theorem low_le_high (hp : Proper p) (hobj : obj.orientation.IsRotation) (haxis : axis.NearUnit) :
    p.low obj axis ≤ p.high obj axis := by
  have hball : ∀ radius, (p.data = .sphere radius ∨ ∃ height, p.data = .capsule radius height) → 0 ≤ radius →
      p.low obj axis ≤ p.high obj axis := by
    intro radius hdata hradius
    obtain ⟨hlow, hhigh⟩ := low_of_radius hp.toWellMade hdata obj axis
    have hreach := mul_nonneg axis.lengthSquared_nonneg hradius
    rw [hlow, hhigh]
    linarith
  have hpolyhedron : p.data.toHull.vertices ≠ [] → p.solid obj clearFraction = convexHull ℝ (p.worldVertices obj) →
      p.low obj axis ≤ p.high obj axis := by
    intro hvertices hsolid
    obtain ⟨v, hv⟩ := List.exists_mem_of_ne_nil _ hvertices
    have hmem : ((p.transform obj).apply v).point ∈ p.solid obj clearFraction := by
      rw [hsolid]
      exact subset_convexHull ℝ _ ⟨v, hv, rfl⟩
    obtain ⟨hlow, hhigh⟩ := between_of_mem_solid hp.toWellMade hobj haxis hmem
    exact hlow.trans hhigh
  cases hdata : p.data with
  | sphere radius => exact hball radius (.inl hdata) (hp.sphere radius hdata)
  | capsule radius height => exact hball radius (.inr ⟨height, hdata⟩) (hp.capsule radius height hdata)
  | cuboid | pyramid normals =>
    apply hpolyhedron
    · rw [hdata]
      exact List.cons_ne_nil _ _
    · simp only [ShapeParameters.solid, hdata]
  | hull mesh =>
    by_cases hvertices : mesh.vertices = []
    · simp [ShapeParameters.low, ShapeParameters.high, ShapeParameters.getMinMaxVertexOnAxis, hdata,
        ShapeData.toHull, Hull.getMinMaxVerticesInAxis, hvertices]
    · apply hpolyhedron
      · rw [hdata]
        exact hvertices
      · simp only [ShapeParameters.solid, hdata]

/-- When an axis tells the projections apart: they are apart, or the second one ends where the
first one begins. -/
theorem checkCollisionAxis_eq_none_iff_before (h1 : p1.low obj1 axis ≤ p1.high obj1 axis) :
    checkCollisionAxis axis obj1 obj2 p1 p2 = none ↔
      p1.high obj1 axis < p2.low obj2 axis ∨
        p2.low obj2 axis < p1.low obj1 axis ∧ p2.high obj2 axis ≤ p1.low obj1 axis := by
  rw [checkCollisionAxis_eq_none_iff]
  constructor
  · rintro ⟨hfirst, hsecond⟩
    cases lt_or_ge (p2.low obj2 axis) (p1.low obj1 axis) with
    | inl hlt => exact .inr ⟨hlt, hsecond hlt.le⟩
    | inr hge => exact .inl (hfirst hge)
  · rintro (hlt | ⟨hlt, hle⟩)
    · exact ⟨fun _ => hlt, fun hge => absurd (h1.trans_lt hlt) (not_lt.mpr hge)⟩
    · exact ⟨fun hge => absurd hlt (not_lt.mpr hge), fun _ => hle⟩

end Axes

end Lumos.Physics.CollisionDetection
