import Mathlib.Logic.Relation
import Lumos.Physics.CollisionHistory

/-!
# What the checks write, and which axes they test

Every check is a sequence of single writes to the shapes, so that what each write keeps is
kept by the checks. A check finds no collision where one of the axes it tests separates the
projections.
-/
namespace Lumos.Physics.CollisionDetection

open Maths FloatArithmetic

variable {K : Type} [FloatArithmetic K]

/-! ## Writes -/

/-- A single write to a shape, by a check of bodies in these poses. -/
inductive Write (obj1 obj2 : Pose K) : CollisionShape K → CollisionShape K → Prop where
  | getCollisionAxes (obj : Pose K) (hobj : obj = obj1 ∨ obj = obj2) (shape : CollisionShape K) :
    Write obj1 obj2 shape (shape.getCollisionAxes obj)
  | getEdges (obj : Pose K) (shape : CollisionShape K) : Write obj1 obj2 shape (shape.getEdges obj)
  | normalize (i : Nat) (axis : Vector3 K) (shape : CollisionShape K) :
    Write obj1 obj2 shape { shape with axes := shape.axes.set i axis.normalize }
  | pushBack (axis : Vector3 K) (shape : CollisionShape K) :
    Write obj1 obj2 shape { shape with axes := shape.axes ++ [axis.normalize] }

/-- Any number of writes to any shapes. -/
def Written (obj1 obj2 : Pose K) (shapes shapes' : Shapes K) : Prop :=
  ∀ ref, Relation.ReflTransGen (Write obj1 obj2) (shapes ref) (shapes' ref)

section Written

variable {obj1 obj2 : Pose K} {shapes shapes' : Shapes K}

theorem Written.trans {a b c : Shapes K} (hab : Written obj1 obj2 a b) (hbc : Written obj1 obj2 b c) :
    Written obj1 obj2 a c :=
  fun ref => (hab ref).trans (hbc ref)

theorem written_modify {ref : Nat} (f : CollisionShape K → CollisionShape K)
    (hf : Relation.ReflTransGen (Write obj1 obj2) (shapes ref) (f (shapes ref))) :
    Written obj1 obj2 shapes (modify shapes ref f) := by
  intro other
  by_cases h : other = ref
  · subst h
    rw [modify_self]
    exact hf
  · rw [modify_of_ne f h]

/-- What every single write keeps is kept. -/
theorem Written.invariant {P : CollisionShape K → Prop} (h : Written obj1 obj2 shapes shapes')
    (hwrite : ∀ shape shape', Write obj1 obj2 shape shape' → P shape → P shape') {ref : Nat}
    (hP : P (shapes ref)) : P (shapes' ref) := by
  have hwrites : ∀ shape, Relation.ReflTransGen (Write obj1 obj2) (shapes ref) shape → P shape := by
    intro shape hshape
    induction hshape with
    | refl => exact hP
    | tail _ hstep ih => exact hwrite _ _ hstep ih
  exact hwrites _ (h ref)

theorem Written.parameters (h : Written obj1 obj2 shapes shapes') (ref : Nat) :
    (shapes' ref).toShapeParameters = (shapes ref).toShapeParameters := by
  apply h.invariant (P := fun shape => shape.toShapeParameters = (shapes ref).toShapeParameters) _ rfl
  intro shape shape' hwrite hparameters
  rw [← hparameters]
  cases hwrite <;> rfl

theorem write_addPossibleCollisionAxis (axis : Vector3 K) (shape : CollisionShape K) :
    Relation.ReflTransGen (Write obj1 obj2) shape
      { shape with axes := addPossibleCollisionAxis shape.axes axis } := by
  unfold addPossibleCollisionAxis
  split
  · exact Relation.ReflTransGen.refl
  · split
    · exact Relation.ReflTransGen.refl
    · exact Relation.ReflTransGen.single (Write.pushBack axis shape)

theorem write_addEdgeAxes (edges1 edges2 : List (CollisionEdge K)) (shape : CollisionShape K) :
    Relation.ReflTransGen (Write obj1 obj2) shape
      { shape with axes := addEdgeAxes shape.axes edges1 edges2 } := by
  have hinner : ∀ (edge1 : CollisionEdge K) (edges : List (CollisionEdge K)) (shape : CollisionShape K),
      Relation.ReflTransGen (Write obj1 obj2) shape { shape with
        axes := edges.foldl (fun axes edge2 => addPossibleCollisionAxis axes (edgeAxis edge1 edge2)) shape.axes } := by
    intro edge1 edges
    induction edges with
    | nil => exact fun shape => Relation.ReflTransGen.refl
    | cons edge2 edges ih =>
      intro shape
      exact (write_addPossibleCollisionAxis (edgeAxis edge1 edge2) shape).trans (ih _)
  unfold addEdgeAxes
  induction edges1 generalizing shape with
  | nil => exact Relation.ReflTransGen.refl
  | cons edge1 edges1 ih => exact (hinner edge1 edges2 shape).trans (ih _)

theorem written_addAxisOf (ref axesOf : Nat) (axis : Vector3 K × Nat) :
    Written obj1 obj2 shapes (addAxisOf shapes ref axesOf axis) := by
  have hnormalize : Written obj1 obj2 shapes (modify shapes axesOf fun shape =>
      { shape with axes := shape.axes.set axis.2 axis.1.normalize }) :=
    written_modify _ (Relation.ReflTransGen.single (Write.normalize axis.2 axis.1 _))
  unfold addAxisOf
  split
  · exact fun _ => Relation.ReflTransGen.refl
  · apply hnormalize.trans
    apply written_modify
    split
    · exact Relation.ReflTransGen.refl
    · exact Relation.ReflTransGen.single (Write.pushBack axis.1 _)

theorem written_addAxes (axes : List (Vector3 K × Nat)) (ref axesOf : Nat) :
    Written obj1 obj2 shapes (axes.foldl (fun shapes axis => addAxisOf shapes ref axesOf axis) shapes) := by
  induction axes generalizing shapes with
  | nil => exact fun _ => Relation.ReflTransGen.refl
  | cons axis axes ih => exact (written_addAxisOf ref axesOf axis).trans ih

end Written

section Checks

variable (shapes : Shapes K) (obj1 obj2 : RigidBody3D K)

theorem written_refreshAxes : Written obj1.toPose obj2.toPose shapes (refreshAxes shapes obj1 obj2) := by
  have hfirst : Written obj1.toPose obj2.toPose shapes
      (modify shapes obj1.collisionShape fun shape => shape.getCollisionAxes obj1.toPose) :=
    written_modify _ (Relation.ReflTransGen.single (Write.getCollisionAxes _ (Or.inl rfl) _))
  apply hfirst.trans
  exact written_modify (fun shape => shape.getCollisionAxes obj2.toPose)
    (Relation.ReflTransGen.single (Write.getCollisionAxes _ (Or.inr rfl) _))

theorem written_refreshEdges : Written obj1.toPose obj2.toPose shapes (refreshEdges shapes obj1 obj2) := by
  have hfirst : Written obj1.toPose obj2.toPose shapes
      (modify shapes obj1.collisionShape fun shape => shape.getEdges obj1.toPose) :=
    written_modify _ (Relation.ReflTransGen.single (Write.getEdges _ _))
  apply hfirst.trans
  exact written_modify (fun shape => shape.getEdges obj2.toPose)
    (Relation.ReflTransGen.single (Write.getEdges _ _))

theorem written_collectAxes : Written obj1.toPose obj2.toPose shapes (collectAxes shapes obj1 obj2) :=
  (written_refreshAxes shapes obj1 obj2).trans (written_addAxes _ obj1.collisionShape obj2.collisionShape)

theorem written_collectEdgeAxes :
    Written obj1.toPose obj2.toPose shapes (collectEdgeAxes shapes obj1 obj2) := by
  apply (written_refreshEdges shapes obj1 obj2).trans
  unfold collectEdgeAxes
  exact written_modify _ (write_addEdgeAxes _ _ _)

theorem written_polyhedron :
    Written obj1.toPose obj2.toPose shapes (checkPolyhedronCollision shapes obj1 obj2).2 :=
  (written_collectAxes shapes obj1 obj2).trans (written_collectEdgeAxes _ obj1 obj2)

omit [FloatArithmetic K] in
theorem complexAndSphere_fst :
    (complexAndSphere shapes obj1 obj2).1 = obj1 ∨ (complexAndSphere shapes obj1 obj2).1 = obj2 := by
  unfold complexAndSphere
  split
  · exact Or.inr rfl
  · exact Or.inl rfl

theorem written_polyhedronSphere :
    Written obj1.toPose obj2.toPose shapes (checkPolyhedronSphereCollision shapes obj1 obj2).2 := by
  have hpose : (complexAndSphere shapes obj1 obj2).1.toPose = obj1.toPose ∨
      (complexAndSphere shapes obj1 obj2).1.toPose = obj2.toPose :=
    (complexAndSphere_fst shapes obj1 obj2).imp (congrArg RigidBody3D.toPose) (congrArg RigidBody3D.toPose)
  generalize hpair : complexAndSphere shapes obj1 obj2 = pair at hpose
  simp only [checkPolyhedronSphereCollision, hpair]
  apply written_modify
  have haxes := Write.getCollisionAxes pair.1.toPose hpose (shapes pair.1.collisionShape)
  have hedges : Write obj1.toPose obj2.toPose _ _ := Write.getEdges pair.1.toPose
    ((shapes pair.1.collisionShape).getCollisionAxes pair.1.toPose)
  exact ((Relation.ReflTransGen.single haxes).tail hedges).trans (write_addPossibleCollisionAxis _ _)

theorem written_checkCollision {shapes shapes' : Shapes K} {obj1 obj2 : RigidBody3D K}
    {found : Option (CollisionData K)} (h : checkCollision shapes obj1 obj2 = some (found, shapes')) :
    Written obj1.toPose obj2.toPose shapes shapes' := by
  unfold checkCollision at h
  split at h
  · cases h
    exact fun _ => Relation.ReflTransGen.refl
  · have hpolyhedron := written_polyhedron shapes obj1 obj2
    rw [Option.some.inj h] at hpolyhedron
    exact hpolyhedron
  · have hsphere := written_polyhedronSphere shapes obj1 obj2
    rw [Option.some.inj h] at hsphere
    exact hsphere
  · cases h
    exact fun _ => Relation.ReflTransGen.refl
  · cases h

/-! ## Tested axes -/

theorem testAxes_eq_none_iff {better : K → K → Bool} {obj1 obj2 : Pose K} {p1 p2 : ShapeParameters K}
    {best : CollisionData K} {axes : List (Vector3 K)} :
    testAxes better obj1 obj2 p1 p2 best axes = none ↔
      ∃ axis ∈ axes, checkCollisionAxis axis obj1 obj2 p1 p2 = none := by
  induction axes generalizing best with
  | nil => simp [testAxes]
  | cons axis axes ih =>
    cases hcheck : checkCollisionAxis axis obj1 obj2 p1 p2 with
    | none => simp [testAxes, hcheck]
    | some cur => simp [testAxes, hcheck, ih]

/-- The axes `CheckPolyhedronCollision` tests: what it collects in the first shape. -/
def polyhedronTested : List (Vector3 K) :=
  (collectEdgeAxes (collectAxes shapes obj1 obj2) obj1 obj2 obj1.collisionShape).axes

/-- The axes `CheckPolyhedronSphereCollision` tests: those in the shape that is not the sphere,
and the one from its edges to the sphere. -/
def polyhedronSphereTested : List (Vector3 K) :=
  let (complexObj, sphereObj) := complexAndSphere shapes obj1 obj2
  let shape := ((shapes complexObj.collisionShape).getCollisionAxes complexObj.toPose).getEdges complexObj.toPose
  addPossibleCollisionAxis shape.axes (sphereAxis sphereObj.toPose shape.edges)

/-- They are those of the shape afterwards. -/
theorem axes_polyhedronSphere :
    ((checkPolyhedronSphereCollision shapes obj1 obj2).2
      (complexAndSphere shapes obj1 obj2).1.collisionShape).axes = polyhedronSphereTested shapes obj1 obj2 := by
  simp only [checkPolyhedronSphereCollision, modify_self]
  rfl

/-- The axis separates the projections of the bodies. -/
def Separating (axis : Vector3 K) : Prop :=
  checkCollisionAxis axis obj1.toPose obj2.toPose (shapes obj1.collisionShape).toShapeParameters
    (shapes obj2.collisionShape).toShapeParameters = none

theorem checkPolyhedronCollision_fst :
    (checkPolyhedronCollision shapes obj1 obj2).1 =
      testAxes (fun cur best => le best cur) obj1.toPose obj2.toPose (shapes obj1.collisionShape).toShapeParameters
        (shapes obj2.collisionShape).toShapeParameters .worst (polyhedronTested shapes obj1 obj2) := by
  have hwritten := written_polyhedron shapes obj1 obj2
  have hchecked : (checkPolyhedronCollision shapes obj1 obj2).1 =
      testAxes (fun cur best => le best cur) obj1.toPose obj2.toPose
        ((checkPolyhedronCollision shapes obj1 obj2).2 obj1.collisionShape).toShapeParameters
        ((checkPolyhedronCollision shapes obj1 obj2).2 obj2.collisionShape).toShapeParameters .worst
        (polyhedronTested shapes obj1 obj2) := rfl
  rw [hchecked, hwritten.parameters, hwritten.parameters]

theorem checkPolyhedronSphereCollision_fst :
    (checkPolyhedronSphereCollision shapes obj1 obj2).1 =
      testAxes (fun cur best => lt best cur) obj1.toPose obj2.toPose (shapes obj1.collisionShape).toShapeParameters
        (shapes obj2.collisionShape).toShapeParameters .worst (polyhedronSphereTested shapes obj1 obj2) := by
  have hwritten := written_polyhedronSphere shapes obj1 obj2
  have hchecked : (checkPolyhedronSphereCollision shapes obj1 obj2).1 =
      testAxes (fun cur best => lt best cur) obj1.toPose obj2.toPose
        ((checkPolyhedronSphereCollision shapes obj1 obj2).2 obj1.collisionShape).toShapeParameters
        ((checkPolyhedronSphereCollision shapes obj1 obj2).2 obj2.collisionShape).toShapeParameters .worst
        (polyhedronSphereTested shapes obj1 obj2) := by
    rw [← axes_polyhedronSphere]
    rfl
  rw [hchecked, hwritten.parameters, hwritten.parameters]

theorem checkPolyhedronCollision_eq_none_iff :
    (checkPolyhedronCollision shapes obj1 obj2).1 = none ↔
      ∃ axis ∈ polyhedronTested shapes obj1 obj2, Separating shapes obj1 obj2 axis := by
  rw [checkPolyhedronCollision_fst, testAxes_eq_none_iff]
  rfl

theorem checkPolyhedronSphereCollision_eq_none_iff :
    (checkPolyhedronSphereCollision shapes obj1 obj2).1 = none ↔
      ∃ axis ∈ polyhedronSphereTested shapes obj1 obj2, Separating shapes obj1 obj2 axis := by
  rw [checkPolyhedronSphereCollision_fst, testAxes_eq_none_iff]
  rfl

/-- The axes `CheckCollision` tests, of the bodies it has a function for. -/
def testedAxes : List (Vector3 K) :=
  match checkFunction shapes obj1 obj2 with
  | some .sphere => [(obj2.position - obj1.position).normalize]
  | some .polyhedron => polyhedronTested shapes obj1 obj2
  | some .polyhedronSphere => polyhedronSphereTested shapes obj1 obj2
  | some .invalid | none => []

/-- With a function for the bodies `CheckCollision` returns true where no axis it tests
separates them. -/
theorem checkCollision_found_iff (hinvalid : checkFunction shapes obj1 obj2 ≠ some .invalid)
    (hnone : checkFunction shapes obj1 obj2 ≠ none) :
    (∃ found shapes', checkCollision shapes obj1 obj2 = some (some found, shapes')) ↔
      ∀ axis ∈ testedAxes shapes obj1 obj2, ¬ Separating shapes obj1 obj2 axis := by
  have hfound : ∀ {result : Option (CollisionData K)} {shapes' : Shapes K}
      {axes : List (Vector3 K)}, (result = none ↔ ∃ axis ∈ axes, Separating shapes obj1 obj2 axis) →
      ((∃ found shapes'', some (result, shapes') = some (some found, shapes'')) ↔
        ∀ axis ∈ axes, ¬ Separating shapes obj1 obj2 axis) := by
    intro result shapes' axes hresult
    cases result with
    | none =>
      obtain ⟨axis, haxis, hseparating⟩ := hresult.mp rfl
      exact ⟨fun h => by simp at h, fun h => absurd hseparating (h axis haxis)⟩
    | some found =>
      refine ⟨fun _ axis haxis hseparating => ?_, fun _ => ⟨found, shapes', rfl⟩⟩
      cases hresult.mpr ⟨axis, haxis, hseparating⟩
  unfold checkCollision testedAxes
  cases hfunction : checkFunction shapes obj1 obj2 with
  | none => exact absurd hfunction hnone
  | some function =>
    cases function with
    | invalid => exact absurd hfunction hinvalid
    | sphere =>
      apply hfound
      rw [checkSphereCollision]
      simp [Separating]
    | polyhedron => exact hfound (checkPolyhedronCollision_eq_none_iff shapes obj1 obj2)
    | polyhedronSphere => exact hfound (checkPolyhedronSphereCollision_eq_none_iff shapes obj1 obj2)

end Checks

/-- The axes of the shape that is not the sphere are tested. -/
theorem mem_polyhedronSphereTested {shapes : Shapes K} {obj1 obj2 : RigidBody3D K}
    {axis : Vector3 K}
    (haxis : axis ∈ (shapes (complexAndSphere shapes obj1 obj2).1.collisionShape).ownAxes
      (complexAndSphere shapes obj1 obj2).1.toPose) : axis ∈ polyhedronSphereTested shapes obj1 obj2 := by
  generalize hpair : complexAndSphere shapes obj1 obj2 = pair at haxis
  simp only [polyhedronSphereTested, hpair]
  have hrefreshed : axis ∈ (((shapes pair.1.collisionShape).getCollisionAxes pair.1.toPose).getEdges
      pair.1.toPose).axes := List.mem_append_left _ haxis
  unfold addPossibleCollisionAxis
  split
  · exact hrefreshed
  · split
    · exact hrefreshed
    · exact List.mem_append_left _ hrefreshed

end Lumos.Physics.CollisionDetection
