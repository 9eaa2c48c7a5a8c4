import Lumos.Physics.CollisionDetection

/-!
# Checks after other checks

What a check finds depends on the poses and the parameters of the two shapes alone as long
as no earlier check has added axes to the cached ones it goes by, and the bodies do not
write into the cache of one shape.
-/
namespace Lumos.Physics.CollisionDetection

open Maths FloatArithmetic

variable {K : Type}

@[simp] theorem modify_self (shapes : Shapes K) (ref : Nat) (f : CollisionShape K → CollisionShape K) :
    modify shapes ref f ref = f (shapes ref) :=
  Function.update_self _ _ _

theorem modify_of_ne {shapes : Shapes K} {ref other : Nat} (f : CollisionShape K → CollisionShape K)
    (h : other ≠ ref) : modify shapes ref f other = shapes other :=
  Function.update_of_ne h _ _

/-! ## Sizes -/

/-- What a check does to a shape: it neither takes room away nor changes the parameters. -/
structure Kept (shape shape' : CollisionShape K) : Prop where
  parameters : shape'.toShapeParameters = shape.toShapeParameters
  axes : shape.axes.length ≤ shape'.axes.length
  edges : shape'.edges.length = shape.edges.length

theorem Kept.refl (shape : CollisionShape K) : Kept shape shape := ⟨rfl, Nat.le_refl _, rfl⟩

theorem Kept.trans {a b c : CollisionShape K} (hab : Kept a b) (hbc : Kept b c) : Kept a c :=
  ⟨hbc.parameters.trans hab.parameters, Nat.le_trans hab.axes hbc.axes, hbc.edges.trans hab.edges⟩

/-- Every shape is kept. -/
def AllKept (shapes shapes' : Shapes K) : Prop := ∀ ref, Kept (shapes ref) (shapes' ref)

theorem AllKept.trans {a b c : Shapes K} (hab : AllKept a b) (hbc : AllKept b c) : AllKept a c :=
  fun ref => (hab ref).trans (hbc ref)

theorem allKept_modify {shapes : Shapes K} {ref : Nat} (f : CollisionShape K → CollisionShape K)
    (hf : Kept (shapes ref) (f (shapes ref))) : AllKept shapes (modify shapes ref f) := by
  intro other
  by_cases h : other = ref
  · subst h
    rw [modify_self]
    exact hf
  · rw [modify_of_ne f h]
    exact Kept.refl _

variable [FloatArithmetic K]

/-- Room for the shape's own axes, and the number of its edges. -/
structure Sized (shape : CollisionShape K) : Prop where
  axes : shape.data.axisCount ≤ shape.axes.length
  edges : shape.edges.length = shape.data.toHull.edges.length

theorem Kept.sized {shape shape' : CollisionShape K} (h : Kept shape shape') (hsized : Sized shape) :
    Sized shape' := by
  have hdata : shape'.data = shape.data := congrArg ShapeParameters.data h.parameters
  constructor
  · rw [hdata]
    exact Nat.le_trans hsized.axes h.axes
  · rw [hdata, h.edges]
    exact hsized.edges

theorem sized_create (p : ShapeParameters K) : Sized (CollisionShape.create p) := by
  constructor <;> simp [CollisionShape.create]

theorem sized_setParameters {shape : CollisionShape K} (hsized : Sized shape) {p : ShapeParameters K}
    (htype : p.data.type = shape.data.type) : Sized (shape.setParameters p) := by
  have hcount : p.data.axisCount = shape.data.axisCount := by
    cases hp : p.data <;> cases hs : shape.data <;> simp_all [ShapeData.type, ShapeData.axisCount]
  constructor
  · change p.data.axisCount ≤ shape.axes.length
    rw [hcount]
    exact hsized.axes
  · simp [CollisionShape.setParameters]

theorem kept_getCollisionAxes {shape : CollisionShape K} (hsized : Sized shape) (obj : Pose K) :
    Kept shape (shape.getCollisionAxes obj) := by
  refine ⟨rfl, Nat.le_of_eq ?_, rfl⟩
  rw [CollisionShape.getCollisionAxes, length_overwrite]
  rw [ShapeParameters.length_ownAxes]
  exact hsized.axes

theorem kept_getEdges {shape : CollisionShape K} (hsized : Sized shape) (obj : Pose K) :
    Kept shape (shape.getEdges obj) := by
  refine ⟨rfl, Nat.le_refl _, ?_⟩
  rw [CollisionShape.getEdges, length_overwrite]
  rw [ShapeParameters.length_ownEdges]
  exact Nat.le_of_eq hsized.edges.symm

theorem length_addPossibleCollisionAxis (axes : List (Vector3 K)) (axis : Vector3 K) :
    axes.length ≤ (addPossibleCollisionAxis axes axis).length := by
  unfold addPossibleCollisionAxis
  split
  · exact Nat.le_refl _
  · split
    · exact Nat.le_refl _
    · simp

theorem length_addEdgeAxes (axes : List (Vector3 K)) (edges1 edges2 : List (CollisionEdge K)) :
    axes.length ≤ (addEdgeAxes axes edges1 edges2).length := by
  unfold addEdgeAxes
  induction edges1 generalizing axes with
  | nil => exact Nat.le_refl _
  | cons edge1 edges1 ih =>
    have hinner : ∀ (edges : List (CollisionEdge K)) (axes : List (Vector3 K)), axes.length ≤
        (edges.foldl (fun axes edge2 => addPossibleCollisionAxis axes (edgeAxis edge1 edge2)) axes).length := by
      intro edges
      induction edges with
      | nil => exact fun axes => Nat.le_refl _
      | cons edge2 edges ih => exact fun axes => Nat.le_trans (length_addPossibleCollisionAxis _ _) (ih _)
    exact Nat.le_trans (hinner edges2 axes) (ih _)

theorem AllKept.sized {shapes shapes' : Shapes K} (h : AllKept shapes shapes')
    (hsized : ∀ ref, Sized (shapes ref)) (ref : Nat) : Sized (shapes' ref) :=
  (h ref).sized (hsized ref)

theorem allKept_addAxisOf (shapes : Shapes K) (ref axesOf : Nat) (axis : Vector3 K × Nat) :
    AllKept shapes (addAxisOf shapes ref axesOf axis) := by
  unfold addAxisOf
  split
  · exact fun _ => Kept.refl _
  · apply AllKept.trans (allKept_modify _ ?_) (allKept_modify _ ?_)
    · exact ⟨rfl, by simp, rfl⟩
    · refine ⟨rfl, ?_, rfl⟩
      dsimp only
      split
      · exact Nat.le_refl _
      · simp

theorem allKept_addAxes (axes : List (Vector3 K × Nat)) (shapes : Shapes K) (ref axesOf : Nat) :
    AllKept shapes (axes.foldl (fun shapes axis => addAxisOf shapes ref axesOf axis) shapes) := by
  induction axes generalizing shapes with
  | nil => exact fun _ => Kept.refl _
  | cons axis axes ih => exact AllKept.trans (allKept_addAxisOf shapes ref axesOf axis) (ih _)

theorem allKept_refreshAxes {shapes : Shapes K} (hsized : ∀ ref, Sized (shapes ref)) (obj1 obj2 : RigidBody3D K) :
    AllKept shapes (refreshAxes shapes obj1 obj2) := by
  have h1 := allKept_modify (fun shape => shape.getCollisionAxes obj1.toPose)
    (kept_getCollisionAxes (hsized obj1.collisionShape) obj1.toPose)
  have h2 := allKept_modify (fun shape => shape.getCollisionAxes obj2.toPose)
    (kept_getCollisionAxes (h1.sized hsized obj2.collisionShape) obj2.toPose)
  exact h1.trans h2

theorem allKept_refreshEdges {shapes : Shapes K} (hsized : ∀ ref, Sized (shapes ref)) (obj1 obj2 : RigidBody3D K) :
    AllKept shapes (refreshEdges shapes obj1 obj2) := by
  have h1 := allKept_modify (fun shape => shape.getEdges obj1.toPose)
    (kept_getEdges (hsized obj1.collisionShape) obj1.toPose)
  have h2 := allKept_modify (fun shape => shape.getEdges obj2.toPose)
    (kept_getEdges (h1.sized hsized obj2.collisionShape) obj2.toPose)
  exact h1.trans h2

theorem allKept_collectAxes {shapes : Shapes K} (hsized : ∀ ref, Sized (shapes ref)) (obj1 obj2 : RigidBody3D K) :
    AllKept shapes (collectAxes shapes obj1 obj2) :=
  (allKept_refreshAxes hsized obj1 obj2).trans (allKept_addAxes _ _ obj1.collisionShape obj2.collisionShape)

theorem allKept_collectEdgeAxes {shapes : Shapes K} (hsized : ∀ ref, Sized (shapes ref))
    (obj1 obj2 : RigidBody3D K) : AllKept shapes (collectEdgeAxes shapes obj1 obj2) := by
  apply (allKept_refreshEdges hsized obj1 obj2).trans
  unfold collectEdgeAxes
  apply allKept_modify
  exact ⟨rfl, length_addEdgeAxes _ _ _, rfl⟩

theorem allKept_polyhedron {shapes : Shapes K} (hsized : ∀ ref, Sized (shapes ref)) (obj1 obj2 : RigidBody3D K) :
    AllKept shapes (checkPolyhedronCollision shapes obj1 obj2).2 := by
  have haxes := allKept_collectAxes hsized obj1 obj2
  exact haxes.trans (allKept_collectEdgeAxes (haxes.sized hsized) obj1 obj2)

theorem allKept_polyhedronSphere {shapes : Shapes K} (hsized : ∀ ref, Sized (shapes ref))
    (obj1 obj2 : RigidBody3D K) : AllKept shapes (checkPolyhedronSphereCollision shapes obj1 obj2).2 := by
  generalize hpair : complexAndSphere shapes obj1 obj2 = pair
  simp only [checkPolyhedronSphereCollision, hpair]
  apply allKept_modify
  have haxes := kept_getCollisionAxes (hsized pair.1.collisionShape) pair.1.toPose
  have hedges := kept_getEdges (haxes.sized (hsized _)) pair.1.toPose
  exact (haxes.trans hedges).trans ⟨rfl, length_addPossibleCollisionAxis _ _, rfl⟩

theorem allKept_checkCollision {shapes shapes' : Shapes K} (hsized : ∀ ref, Sized (shapes ref))
    {obj1 obj2 : RigidBody3D K} {found : Option (CollisionData K)}
    (h : checkCollision shapes obj1 obj2 = some (found, shapes')) : AllKept shapes shapes' := by
  unfold checkCollision at h
  split at h
  · cases h
    exact fun _ => Kept.refl _
  · have hpolyhedron := allKept_polyhedron hsized obj1 obj2
    rw [Option.some.inj h] at hpolyhedron
    exact hpolyhedron
  · have hsphere := allKept_polyhedronSphere hsized obj1 obj2
    rw [Option.some.inj h] at hsphere
    exact hsphere
  · cases h
    exact fun _ => Kept.refl _
  · cases h

/-! ## Answers -/

section Answers

variable (obj1 obj2 : Pose K) (p1 p2 : ShapeParameters K)

/-- The axes tested for two polyhedra: their own, and those of their pairs of edges. -/
def polyhedronAxes : List (Vector3 K) :=
  addEdgeAxes ((p2.ownAxes obj2).foldl addPossibleCollisionAxis (p1.ownAxes obj1)) (p1.ownEdges obj1)
    (p2.ownEdges obj2)

def polyhedronAnswer : Option (CollisionData K) :=
  testAxes (fun cur best => le best cur) obj1 obj2 p1 p2 .worst (polyhedronAxes obj1 obj2 p1 p2)

/-- The axes tested for a shape and a sphere. -/
def sphereAxes (complexObj sphereObj : Pose K) (complexShape : ShapeParameters K) : List (Vector3 K) :=
  addPossibleCollisionAxis (complexShape.ownAxes complexObj)
    (sphereAxis sphereObj (complexShape.ownEdges complexObj))

def polyhedronSphereAnswer : Option (CollisionData K) :=
  testAxes (fun cur best => lt best cur) obj1 obj2 p1 p2 .worst
    (if p1.data.type = 2 then sphereAxes obj2 obj1 p2 else sphereAxes obj1 obj2 p1)

def sphereAnswer : Option (CollisionData K) :=
  checkCollisionAxis (obj2.position - obj1.position).normalize obj1 obj2 p1 p2

/-- What a check finds of two shapes with these parameters in these poses. -/
def answer : Option (Option (CollisionData K)) :=
  match collisionCheckFunctions (p1.data.type ||| p2.data.type) with
  | some .sphere => some (sphereAnswer obj1 obj2 p1 p2)
  | some .polyhedron => some (polyhedronAnswer obj1 obj2 p1 p2)
  | some .polyhedronSphere => some (polyhedronSphereAnswer obj1 obj2 p1 p2)
  | some .invalid => some none
  | none => none

end Answers

/-- Nothing but the shape's own axes in its cache. -/
def Own (shape : CollisionShape K) : Prop := shape.axes.length = shape.data.axisCount

instance (shape : CollisionShape K) : Decidable (Own shape) :=
  inferInstanceAs (Decidable (shape.axes.length = shape.data.axisCount))

theorem axes_getCollisionAxes {shape : CollisionShape K} (hown : Own shape) (obj : Pose K) :
    (shape.getCollisionAxes obj).axes = shape.ownAxes obj := by
  apply overwrite_of_length
  rw [ShapeParameters.length_ownAxes]
  exact Nat.le_of_eq hown

theorem edges_getEdges {shape : CollisionShape K} (hsized : Sized shape) (obj : Pose K) :
    (shape.getEdges obj).edges = shape.ownEdges obj := by
  apply overwrite_of_length
  rw [ShapeParameters.length_ownEdges]
  exact Nat.le_of_eq hsized.edges

/-- Axes that are collected in another shape are collected as if they stood nowhere. -/
theorem addAxes_ref (axes : List (Vector3 K × Nat)) (shapes : Shapes K) {ref axesOf : Nat} (h : ref ≠ axesOf) :
    axes.foldl (fun shapes axis => addAxisOf shapes ref axesOf axis) shapes ref =
      { shapes ref with axes := (axes.map Prod.fst).foldl addPossibleCollisionAxis (shapes ref).axes } := by
  induction axes generalizing shapes with
  | nil => rfl
  | cons axis axes ih =>
    have hone : addAxisOf shapes ref axesOf axis ref =
        { shapes ref with axes := addPossibleCollisionAxis (shapes ref).axes axis.1 } := by
      unfold addAxisOf addPossibleCollisionAxis
      split
      · rfl
      · rw [modify_self, modify_of_ne _ h]
    rw [List.foldl_cons, ih, hone]
    rfl

/-- Only the cached axes of the shape they stand in are touched. -/
theorem addAxes_axesOf (axes : List (Vector3 K × Nat)) (shapes : Shapes K) {ref axesOf : Nat}
    (h : ref ≠ axesOf) : ∃ stored,
    axes.foldl (fun shapes axis => addAxisOf shapes ref axesOf axis) shapes axesOf =
      { shapes axesOf with axes := stored } := by
  induction axes generalizing shapes with
  | nil => exact ⟨(shapes axesOf).axes, rfl⟩
  | cons axis axes ih =>
    have hone : ∃ stored, addAxisOf shapes ref axesOf axis axesOf = { shapes axesOf with axes := stored } := by
      unfold addAxisOf
      split
      · exact ⟨_, rfl⟩
      · rw [modify_of_ne _ h.symm, modify_self]
        exact ⟨_, rfl⟩
    obtain ⟨stored, hstored⟩ := hone
    obtain ⟨rest, hrest⟩ := ih (addAxisOf shapes ref axesOf axis)
    exact ⟨rest, by rw [List.foldl_cons, hrest, hstored]⟩

section Distinct

variable {shapes : Shapes K} {obj1 obj2 : RigidBody3D K}
  (hdistinct : obj1.collisionShape ≠ obj2.collisionShape)

include hdistinct

theorem collectAxes_first (hown1 : Own (shapes obj1.collisionShape)) (hown2 : Own (shapes obj2.collisionShape)) :
    collectAxes shapes obj1 obj2 obj1.collisionShape =
      { shapes obj1.collisionShape with
        axes := ((shapes obj2.collisionShape).ownAxes obj2.toPose).foldl addPossibleCollisionAxis
          ((shapes obj1.collisionShape).ownAxes obj1.toPose) } := by
  have haxes1 := axes_getCollisionAxes hown1 obj1.toPose
  have haxes2 := axes_getCollisionAxes hown2 obj2.toPose
  simp only [collectAxes, refreshAxes, addAxes_ref _ _ hdistinct, modify_of_ne _ hdistinct, modify_of_ne _ hdistinct.symm,
    modify_self, List.zipIdx_map_fst, haxes1, haxes2]
  rfl

theorem collectAxes_second (shapes : Shapes K) : ∃ stored,
    collectAxes shapes obj1 obj2 obj2.collisionShape = { shapes obj2.collisionShape with axes := stored } := by
  obtain ⟨stored, hstored⟩ := addAxes_axesOf (refreshAxes shapes obj1 obj2 obj2.collisionShape).axes.zipIdx
    (refreshAxes shapes obj1 obj2) hdistinct
  refine ⟨stored, hstored.trans ?_⟩
  rw [refreshAxes, modify_self, modify_of_ne _ hdistinct.symm]
  rfl

theorem collectEdgeAxes_first (hsized : ∀ ref, Sized (shapes ref)) :
    (collectEdgeAxes shapes obj1 obj2 obj1.collisionShape).axes =
      addEdgeAxes (shapes obj1.collisionShape).axes ((shapes obj1.collisionShape).ownEdges obj1.toPose)
        ((shapes obj2.collisionShape).ownEdges obj2.toPose) := by
  have hedges1 := edges_getEdges (hsized obj1.collisionShape) obj1.toPose
  have hedges2 := edges_getEdges (hsized obj2.collisionShape) obj2.toPose
  simp only [collectEdgeAxes, refreshEdges, modify_of_ne _ hdistinct, modify_of_ne _ hdistinct.symm, modify_self, hedges1,
    hedges2]
  rfl

theorem checkPolyhedronCollision_answer (hsized : ∀ ref, Sized (shapes ref))
    (hown1 : Own (shapes obj1.collisionShape)) (hown2 : Own (shapes obj2.collisionShape)) :
    (checkPolyhedronCollision shapes obj1 obj2).1 =
      polyhedronAnswer obj1.toPose obj2.toPose (shapes obj1.collisionShape).toShapeParameters
        (shapes obj2.collisionShape).toShapeParameters := by
  have haxes := allKept_collectAxes hsized obj1 obj2
  have hedges := allKept_collectEdgeAxes (haxes.sized hsized) obj1 obj2
  have hfirst := collectAxes_first hdistinct hown1 hown2
  obtain ⟨stored, hsecond⟩ := collectAxes_second hdistinct shapes
  simp only [checkPolyhedronCollision, polyhedronAnswer, polyhedronAxes,
    collectEdgeAxes_first hdistinct (haxes.sized hsized), (hedges _).parameters, hfirst, hsecond]

end Distinct

theorem checkPolyhedronSphereCollision_answer {shapes : Shapes K} {obj1 obj2 : RigidBody3D K}
    (hsized : ∀ ref, Sized (shapes ref))
    (hown : Own (shapes (complexAndSphere shapes obj1 obj2).1.collisionShape)) :
    (checkPolyhedronSphereCollision shapes obj1 obj2).1 =
      polyhedronSphereAnswer obj1.toPose obj2.toPose (shapes obj1.collisionShape).toShapeParameters
        (shapes obj2.collisionShape).toShapeParameters := by
  have hkept := allKept_polyhedronSphere hsized obj1 obj2
  have hcollected : ∀ complexObj sphereObj : RigidBody3D K, Own (shapes complexObj.collisionShape) →
      addPossibleCollisionAxis
        (((shapes complexObj.collisionShape).getCollisionAxes complexObj.toPose).getEdges complexObj.toPose).axes
        (sphereAxis sphereObj.toPose
          (((shapes complexObj.collisionShape).getCollisionAxes complexObj.toPose).getEdges
            complexObj.toPose).edges) =
      sphereAxes complexObj.toPose sphereObj.toPose (shapes complexObj.collisionShape).toShapeParameters := by
    intro complexObj sphereObj hown
    have hsized' := (kept_getCollisionAxes (hsized complexObj.collisionShape) complexObj.toPose).sized (hsized _)
    have haxes := axes_getCollisionAxes hown complexObj.toPose
    have hedges := edges_getEdges hsized' complexObj.toPose
    rw [hedges, sphereAxes, ← haxes]
    rfl
  have hparameters : ∀ ref, ((checkPolyhedronSphereCollision shapes obj1 obj2).2 ref).toShapeParameters =
      (shapes ref).toShapeParameters := fun ref => (hkept ref).parameters
  have hresult : (checkPolyhedronSphereCollision shapes obj1 obj2).1 =
      testAxes (fun cur best => lt best cur) obj1.toPose obj2.toPose
        (shapes obj1.collisionShape).toShapeParameters (shapes obj2.collisionShape).toShapeParameters .worst
        (sphereAxes (complexAndSphere shapes obj1 obj2).1.toPose (complexAndSphere shapes obj1 obj2).2.toPose
          (shapes (complexAndSphere shapes obj1 obj2).1.collisionShape).toShapeParameters) := by
    rw [← hparameters obj1.collisionShape, ← hparameters obj2.collisionShape, ← hcollected _ _ hown]
    simp only [checkPolyhedronSphereCollision, modify_self]
  rw [hresult, polyhedronSphereAnswer, complexAndSphere]
  split <;> rfl

/-! ## Runs -/

/-- Whose caches the check goes by. -/
def cachesRead (shapes : Shapes K) (obj1 obj2 : RigidBody3D K) : List Nat :=
  match checkFunction shapes obj1 obj2 with
  | some .polyhedron => [obj1.collisionShape, obj2.collisionShape]
  | some .polyhedronSphere => [(complexAndSphere shapes obj1 obj2).1.collisionShape]
  | some .sphere | some .invalid | none => []

/-- There is a function for the two shapes, and the caches it goes by are two and hold
nothing but the shapes' own axes. -/
structure Undisturbed (shapes : Shapes K) (obj1 obj2 : RigidBody3D K) : Prop where
  function : checkFunction shapes obj1 obj2 ≠ none
  distinct : (cachesRead shapes obj1 obj2).Nodup
  own : ∀ ref ∈ cachesRead shapes obj1 obj2, Own (shapes ref)

theorem checkCollision_answer {shapes : Shapes K} {obj1 obj2 : RigidBody3D K}
    (hsized : ∀ ref, Sized (shapes ref)) (h : Undisturbed shapes obj1 obj2) :
    ∃ found shapes', checkCollision shapes obj1 obj2 = some (found, shapes') ∧
      answer obj1.toPose obj2.toPose (shapes obj1.collisionShape).toShapeParameters
        (shapes obj2.collisionShape).toShapeParameters = some found := by
  obtain ⟨hfunction, hdistinct, hown⟩ := h
  cases hcheck : checkFunction shapes obj1 obj2 with
  | none => exact absurd hcheck hfunction
  | some function =>
    simp only [cachesRead, hcheck] at hdistinct hown
    have hlookup := hcheck
    rw [checkFunction] at hlookup
    cases function with
    | sphere => exact ⟨_, _, by rw [checkCollision, hcheck], by rw [answer, hlookup]; rfl⟩
    | invalid => exact ⟨_, _, by rw [checkCollision, hcheck], by rw [answer, hlookup]⟩
    | polyhedron =>
      have hne : obj1.collisionShape ≠ obj2.collisionShape := by
        intro hsame
        simp [hsame] at hdistinct
      have hanswer := checkPolyhedronCollision_answer hne hsized (hown _ (by simp)) (hown _ (by simp))
      refine ⟨(checkPolyhedronCollision shapes obj1 obj2).1, (checkPolyhedronCollision shapes obj1 obj2).2, ?_, ?_⟩
      · rw [checkCollision, hcheck]
      · simp only [answer, hlookup, hanswer]
    | polyhedronSphere =>
      have hanswer := checkPolyhedronSphereCollision_answer hsized (hown _ (List.mem_singleton.mpr rfl))
      refine ⟨(checkPolyhedronSphereCollision shapes obj1 obj2).1,
        (checkPolyhedronSphereCollision shapes obj1 obj2).2, ?_, ?_⟩
      · rw [checkCollision, hcheck]
      · simp only [answer, hlookup, hanswer]

structure World (K : Type) where
  bodies : Nat → RigidBody3D K
  shapes : Shapes K

inductive Operation (K : Type) where
  | checkCollision (body1 body2 : Nat)
  | setPose (body : Nat) (pose : Pose K)
  | setCollisionShape (body ref : Nat)
  | setParameters (ref : Nat) (p : ShapeParameters K)

/-- A shape stays of its type. -/
def perform (w : World K) : Operation K → Option (World K)
  | .checkCollision body1 body2 =>
    (checkCollision w.shapes (w.bodies body1) (w.bodies body2)).map fun found => { w with shapes := found.2 }
  | .setPose body pose =>
    some { w with bodies := Function.update w.bodies body { w.bodies body with toPose := pose } }
  | .setCollisionShape body ref =>
    some { w with bodies := Function.update w.bodies body { w.bodies body with collisionShape := ref } }
  | .setParameters ref p =>
    if p.data.type = (w.shapes ref).data.type then
      some { w with shapes := modify w.shapes ref fun shape => shape.setParameters p }
    else none

theorem sized_perform {w w' : World K} {e : Operation K} (hsized : ∀ ref, Sized (w.shapes ref))
    (h : perform w e = some w') (ref : Nat) : Sized (w'.shapes ref) := by
  cases e with
  | checkCollision body1 body2 =>
    obtain ⟨found, hfound, rfl⟩ := Option.map_eq_some_iff.mp h
    exact (allKept_checkCollision hsized hfound).sized hsized ref
  | setPose body pose | setCollisionShape body ref' =>
    cases h
    exact hsized ref
  | setParameters changed p =>
    simp only [perform] at h
    split at h
    · rename_i htype
      cases h
      by_cases hsame : ref = changed
      · subst hsame
        simp only [modify_self]
        exact sized_setParameters (hsized ref) htype
      · simp only [modify_of_ne _ hsame]
        exact hsized ref
    · cases h

theorem sized_run {w w' : World K} {es : List (Operation K)} (hsized : ∀ ref, Sized (w.shapes ref))
    (h : es.foldlM perform w = some w') : ∀ ref, Sized (w'.shapes ref) := by
  induction es generalizing w with
  | nil =>
    cases h
    exact hsized
  | cons e es ih =>
    rw [List.foldlM_cons] at h
    obtain ⟨next, hperform, hrest⟩ := Option.bind_eq_some_iff.mp h
    exact ih (fun ref => sized_perform hsized hperform ref) hrest

/-- Bodies that have not been tested, with shapes that are new. -/
def World.create (bodies : Nat → RigidBody3D K) (parameters : Nat → ShapeParameters K) : World K :=
  ⟨bodies, fun ref => .create (parameters ref)⟩

/-- What a check finds of two bodies that are the first to be tested, with shapes of their
own. -/
def firstCheck (obj1 obj2 : Pose K) (p1 p2 : ShapeParameters K) : Option (Option (CollisionData K)) :=
  let w := World.create (fun body => ⟨if body = 0 then obj1 else obj2, body⟩)
    (fun ref => if ref = 0 then p1 else p2)
  (checkCollision w.shapes (w.bodies 0) (w.bodies 1)).map Prod.fst

/-- A new shape is undisturbed. -/
theorem firstCheck_answer {obj1 obj2 : Pose K} {p1 p2 : ShapeParameters K} {found : Option (CollisionData K)}
    (h : answer obj1 obj2 p1 p2 = some found) : firstCheck obj1 obj2 p1 p2 = some found := by
  let w := World.create (fun body => ⟨if body = 0 then obj1 else obj2, body⟩)
    (fun ref => if ref = 0 then p1 else p2)
  have hundisturbed : Undisturbed w.shapes (w.bodies 0) (w.bodies 1) := by
    constructor
    · intro hnone
      have hlookup : collisionCheckFunctions (p1.data.type ||| p2.data.type) = none := hnone
      rw [answer, hlookup] at h
      cases h
    · unfold cachesRead
      split <;> simp [w, World.create]
    · intro ref _
      exact List.length_replicate
  obtain ⟨found', shapes', hcheck, hanswer⟩ :=
    checkCollision_answer (fun ref => sized_create _) hundisturbed
  have hfound : found = found' := Option.some.inj (h.symm.trans hanswer)
  rw [hfound]
  exact congrArg (Option.map Prod.fst) hcheck

/-- After every sequence of operations a check that is undisturbed finds what it would find
first. -/
theorem checkCollision_afterRun (bodies : Nat → RigidBody3D K) (parameters : Nat → ShapeParameters K)
    (es : List (Operation K)) (w : World K) (hrun : es.foldlM perform (.create bodies parameters) = some w)
    (body1 body2 : Nat) (h : Undisturbed w.shapes (w.bodies body1) (w.bodies body2)) :
    ∃ found shapes', checkCollision w.shapes (w.bodies body1) (w.bodies body2) = some (found, shapes') ∧
      firstCheck (w.bodies body1).toPose (w.bodies body2).toPose
        (w.shapes (w.bodies body1).collisionShape).toShapeParameters
        (w.shapes (w.bodies body2).collisionShape).toShapeParameters = some found := by
  have hsized := sized_run (fun ref => sized_create (parameters ref)) hrun
  obtain ⟨found, shapes', hcheck, hanswer⟩ := checkCollision_answer hsized h
  exact ⟨found, shapes', hcheck, firstCheck_answer hanswer⟩

/-! ## A cuboid and a sphere -/

/-- A cuboid at the origin and a sphere at this position. -/
def beside (sphere : Vector3 ℚ) : World ℚ :=
  .create (fun body => ⟨⟨if body = 0 then 0 else sphere, ⟨1, 0, 0, 0⟩⟩, body⟩)
    (fun ref => ⟨if ref = 0 then .cuboid else .sphere 1, Matrix4.scaling ⟨1, 1, 1⟩⟩)

/-- The sphere beside a face adds no axis to those of the cuboid, and moves on. -/
theorem checkCollision_afterRun_face :
    ∃ w, [.checkCollision 0 1, .setPose 1 ⟨⟨13 / 10, 14 / 10, 0⟩, ⟨1, 0, 0, 0⟩⟩].foldlM perform
        (beside ⟨3 / 2, 0, 0⟩) = some w ∧
      ∃ found shapes', checkCollision w.shapes (w.bodies 0) (w.bodies 1) = some (found, shapes') ∧
        firstCheck (w.bodies 0).toPose (w.bodies 1).toPose
          (w.shapes (w.bodies 0).collisionShape).toShapeParameters
          (w.shapes (w.bodies 1).collisionShape).toShapeParameters = some found := by
  have hrun : [.checkCollision 0 1, .setPose 1 ⟨⟨13 / 10, 14 / 10, 0⟩, ⟨1, 0, 0, 0⟩⟩].foldlM perform
      (beside ⟨3 / 2, 0, 0⟩) = some _ := rfl
  refine ⟨_, hrun, checkCollision_afterRun _ _ _ _ hrun 0 1 ⟨?_, ?_, ?_⟩⟩
  · decide +kernel
  · decide +kernel
  · change ∀ ref ∈ [0], _
    decide +kernel

/-- The sphere beside an edge leaves its axis with the cuboid. Moved by a little it is found
along that axis still. -/
theorem checkCollision_stale :
    ∃ w, [.checkCollision 0 1, .setPose 1 ⟨⟨1 + 1 / 2 * (29799 / 50201), 1 + 1 / 2 * (40400 / 50201), 0⟩,
        ⟨1, 0, 0, 0⟩⟩].foldlM perform (beside ⟨13 / 10, 14 / 10, 0⟩) = some w ∧
      (checkCollision w.shapes (w.bodies 0) (w.bodies 1)).map Prod.fst ≠
        firstCheck (w.bodies 0).toPose (w.bodies 1).toPose (w.shapes 0).toShapeParameters
          (w.shapes 1).toShapeParameters := by
  refine ⟨_, rfl, ?_⟩
  decide +kernel

end Lumos.Physics.CollisionDetection
