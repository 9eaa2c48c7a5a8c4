import Lumos.Library.RunningBest
import Lumos.Maths.Projection
import Lumos.Maths.TransformedBox

/-!
# `Ray::HitDistance`

The first point at which a ray is in a region. A distance is a number or `M_INFINITY`, which
is `none` here.
-/
namespace Lumos.Maths

open FloatArithmetic FloatLiterals FloatInfinity

/-- `<` where the numbers are finite ones or infinity. -/
def closer {K : Type} [FloatArithmetic K] : Option K → Option K → Bool
  | none, _ => false
  | some _, none => true
  | some x, some dist => lt x dist

namespace BoundingBox

section Tests

variable {K : Type} [FloatArithmetic K] (box : BoundingBox K) (point : Vector3 K)

/-- `IsInside`, of a point. -/
def isInsidePoint : Intersection :=
  if lt point.x box.min.x || lt box.max.x point.x || lt point.y box.min.y || lt box.max.y point.y ||
      lt point.z box.min.z || lt box.max.z point.z then
    .outside
  else .inside

/-- A coordinate is between those of the box. -/
def within (axis : Fin 3) : Bool := le (box.min.get axis) (point.get axis) && le (point.get axis) (box.max.get axis)

end Tests

/-- `Defined` -/
def defined {K : Type} [FloatInfinity K] (box : BoundingBox K) : Bool :=
  !(le box.min.x infinity && le infinity box.min.x)

end BoundingBox

structure Sphere (K : Type) where
  center : Vector3 K
  radius : K

inductive Side where
  | low
  | high
  deriving DecidableEq

namespace Ray

section Definitions

variable {K : Type}

/-- `origin_ + x * direction_` -/
def pointAt [FloatArithmetic K] (ray : Ray K) (x : K) : Vector3 K := ray.origin + ray.direction * x

/-! ## Boxes -/

/-- The six tests, which are all made. -/
def faces : List (Fin 3 × Side) := (List.finRange 3).flatMap fun axis => [(axis, .low), (axis, .high)]

section Box

variable [FloatArithmetic K] (ray : Ray K) (box : BoundingBox K)

/-- The origin is beyond a face and the ray goes towards it. -/
def towards : Fin 3 × Side → Bool
  | (axis, .low) => lt (ray.origin.get axis) (box.min.get axis) && lt 0 (ray.direction.get axis)
  | (axis, .high) => lt (box.max.get axis) (ray.origin.get axis) && lt (ray.direction.get axis) 0

def faceValue : Fin 3 × Side → K
  | (axis, .low) => box.min.get axis
  | (axis, .high) => box.max.get axis

/-- Where the ray reaches the plane of a face. -/
def reach (face : Fin 3 × Side) : K := (faceValue box face - ray.origin.get face.1) / ray.direction.get face.1

/-- The point is between the bounds on both axes of a face. -/
def onFace (face : Fin 3 × Side) (point : Vector3 K) : Bool :=
  (List.finRange 3).all fun axis => axis = face.1 || box.within point axis

def testFace (dist : Option K) (face : Fin 3 × Side) : Option K :=
  if ray.towards box face then
    let x := ray.reach box face
    if closer (some x) dist then
      let point := ray.pointAt x
      if onFace box face point then some x else dist
    else dist
  else dist

end Box

def hitDistanceBox [FloatInfinity K] (ray : Ray K) (box : BoundingBox K) : Option K :=
  if !box.defined then none
  else if box.isInsidePoint ray.origin ≠ .outside then some 0
  else faces.foldl (ray.testFace box) none

/-! ## Spheres -/

section Sphere

variable [FloatLiterals K] (ray : Ray K) (sphere : Sphere K)

def centeredOrigin : Vector3 K := ray.origin - sphere.center

def squaredRadius : K := sphere.radius * sphere.radius

/-- The coefficients of the quadratic equation. -/
def a : K := ray.direction.dotProduct ray.direction

def b : K := two * (ray.centeredOrigin sphere).dotProduct ray.direction

def c : K := (ray.centeredOrigin sphere).dotProduct (ray.centeredOrigin sphere) - squaredRadius sphere

def d : K := ray.b sphere * ray.b sphere - literal 4 * ray.a * ray.c sphere

def hitDistanceSphere : Option K :=
  if le (ray.centeredOrigin sphere).lengthSquared (squaredRadius sphere) then some 0
  else if lt (ray.d sphere) 0 then none
  else
    let dSqrt := sqrtf (ray.d sphere)
    let dist := (-ray.b sphere - dSqrt) / (two * ray.a)
    if le 0 dist then some dist else some ((-ray.b sphere + dSqrt) / (two * ray.a))

end Sphere

end Definitions

/-! ## What is promised -/

/-- The least distance at which the ray is in a region, or infinity if it never is. -/
def FirstHit (ray : Ray ℝ) (region : Set (Vector3 ℝ)) : Option ℝ → Prop
  | none => ∀ t, 0 ≤ t → ray.pointAt t ∉ region
  | some t => IsLeast {t | 0 ≤ t ∧ ray.pointAt t ∈ region} t

/-- What infinity is not less than. -/
def AtMost : Option ℝ → Option ℝ → Prop
  | _, none => True
  | none, some _ => False
  | some x, some dist => x ≤ dist

instance : Std.Refl AtMost where
  refl dist := by
    cases dist with
    | none => trivial
    | some x => exact le_refl x

instance : IsTrans (Option ℝ) AtMost where
  trans
    | _, _, none, _, _ => trivial
    | _, none, some _, _, h => h.elim
    | none, some _, some _, h, _ => h.elim
    | some _, some _, some _, h, h' => le_trans (α := ℝ) h h'

theorem atMost_of_closer : ∀ x dist : Option ℝ, closer x dist = true → AtMost x dist
  | none, _, h => Bool.noConfusion h
  | some _, none, _ => trivial
  | some _, some _, h => ((lt_real _ _).mp h).le

theorem atMost_of_not_closer : ∀ x dist : Option ℝ, closer x dist = false → AtMost dist x
  | none, none, _ => trivial
  | none, some _, _ => trivial
  | some _, none, h => Bool.noConfusion h
  | some _, some _, h => (lt_eq_false_real _ _).mp h

end Ray

end Lumos.Maths
