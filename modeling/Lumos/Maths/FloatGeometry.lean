import Lumos.Maths.BoundingBox
import Lumos.Maths.FloatArithmetic

/-!
# Lengths, rotations and boxes in floating point
-/
namespace Lumos.Maths

open FloatArithmetic FloatLiterals

section Arithmetic

variable {K : Type} [FloatArithmetic K]

/-- `Min` -/
def minFloat (lhs rhs : K) : K := if lt lhs rhs then lhs else rhs

/-- `Max` -/
def maxFloat (lhs rhs : K) : K := if lt rhs lhs then lhs else rhs

/-- `Abs` -/
def absFloat (value : K) : K := if le 0 value then value else -value

namespace Vector3

/-- `operator*` of vectors, entry by entry. -/
def scaled (a b : Vector3 K) : Vector3 K := ⟨a.x * b.x, a.y * b.y, a.z * b.z⟩

def length (a : Vector3 K) : K := sqrtf a.lengthSquared

end Vector3

namespace Quaternion

instance : Add (Quaternion K) := ⟨fun a b => ⟨a.w + b.w, a.x + b.x, a.y + b.y, a.z + b.z⟩⟩

/-- `operator*` of a vector and a quaternion. -/
def turn (v : Vector3 K) (rhs : Quaternion K) : Quaternion K :=
  ⟨-(rhs.x * v.x) - rhs.y * v.y - rhs.z * v.z,
   rhs.w * v.x + v.y * rhs.z - v.z * rhs.y,
   rhs.w * v.y + v.z * rhs.x - v.x * rhs.z,
   rhs.w * v.z + v.x * rhs.y - v.y * rhs.x⟩

def lengthSquared (q : Quaternion K) : K := q.w * q.w + q.x * q.x + q.y * q.y + q.z * q.z

def normalize (q : Quaternion K) : Quaternion K :=
  if !equals q.lengthSquared 1 && lt 0 q.lengthSquared then
    let invLen := 1 / sqrtf q.lengthSquared
    ⟨q.w * invLen, q.x * invLen, q.y * invLen, q.z * invLen⟩
  else q

end Quaternion

end Arithmetic

class FloatInfinity (K : Type) extends FloatLiterals K where
  /-- `M_INFINITY` -/
  infinity : K

/-- The largest `float` stands in for infinity. -/
instance : FloatInfinity ℚ where
  infinity := 340282346638528859811704183484516925440

namespace BoundingBox

section Transformed

variable {K : Type} [FloatLiterals K]

/-- `Transformed`, which takes the first three rows of the matrix. -/
def transformed (box : BoundingBox K) (m : Matrix4 K) : BoundingBox K :=
  let center := (box.max + box.min) * (literal (1 / 2) : K)
  let newCenter : Vector3 K :=
    ⟨m.m00 * center.x + m.m01 * center.y + m.m02 * center.z + m.m03,
     m.m10 * center.x + m.m11 * center.y + m.m12 * center.z + m.m13,
     m.m20 * center.x + m.m21 * center.y + m.m22 * center.z + m.m23⟩
  let oldEdge := (box.max - box.min) * (literal (1 / 2) : K)
  let newEdge : Vector3 K :=
    ⟨absFloat m.m00 * oldEdge.x + absFloat m.m01 * oldEdge.y + absFloat m.m02 * oldEdge.z,
     absFloat m.m10 * oldEdge.x + absFloat m.m11 * oldEdge.y + absFloat m.m12 * oldEdge.z,
     absFloat m.m20 * oldEdge.x + absFloat m.m21 * oldEdge.y + absFloat m.m22 * oldEdge.z⟩
  ⟨newCenter - newEdge, newCenter + newEdge⟩

end Transformed

variable {K : Type} [FloatInfinity K]

/-- `Clear` -/
def cleared : BoundingBox K :=
  let infinity : K := FloatInfinity.infinity
  ⟨⟨infinity, infinity, infinity⟩, ⟨-infinity, -infinity, -infinity⟩⟩

/-- `Merge`, of a point. -/
def mergePoint (box : BoundingBox K) (point : Vector3 K) : BoundingBox K where
  min := ⟨if lt point.x box.min.x then point.x else box.min.x,
    if lt point.y box.min.y then point.y else box.min.y,
    if lt point.z box.min.z then point.z else box.min.z⟩
  max := ⟨if lt box.max.x point.x then point.x else box.max.x,
    if lt box.max.y point.y then point.y else box.max.y,
    if lt box.max.z point.z then point.z else box.max.z⟩

end BoundingBox

end Lumos.Maths
