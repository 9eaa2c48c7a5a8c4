import Lumos.Maths.FloatArithmetic

/-!
# Projections, frustums and rays
-/
namespace Lumos.Maths

open FloatArithmetic FloatLiterals

/-- `CONFIG_CLIP_CONTROL` -/
inductive ClipControl where
  | LH_ZO | LH_NO | RH_ZO | RH_NO
  deriving DecidableEq, Repr

/-- `IsDepthZeroOne` -/
def ClipControl.isDepthZeroOne : ClipControl → Bool
  | .LH_ZO | .RH_ZO => true
  | .LH_NO | .RH_NO => false

section Literals

variable {K : Type} [FloatLiterals K]

/-- `M_DEGTORAD` -/
def degToRad : K := literal (314159265358979323846264338327950288 / 10 ^ 35) / literal 180

end Literals

namespace Matrix4

variable {K : Type} [FloatLiterals K]

/-! ## Perspective -/

/-- The entries in which the four matrices agree. -/
def perspectiveMatrix (h aspect m11 m22 m23 m32 offsetX offsetY : K) : Matrix4 K :=
  ⟨h / aspect, 0, offsetX * two, 0,
   0, m11, offsetY * two, 0,
   0, 0, m22, m23,
   0, 0, m32, 0⟩

variable (tan : K → K) (znear zfar aspect fov offsetX offsetY zoom : K)

def perspectiveRH_ZO : Matrix4 K :=
  let h := zoom / tan (fov * degToRad * literal (1 / 2))
  let neg_depth_r := 1 / (znear - zfar)
  perspectiveMatrix h aspect (-h) (zfar * neg_depth_r) (znear * zfar * neg_depth_r) (-1) offsetX offsetY

def perspectiveRH_NO : Matrix4 K :=
  let h := zoom / tan (fov * degToRad * literal (1 / 2))
  let neg_depth_r := 1 / (znear - zfar)
  perspectiveMatrix h aspect h ((zfar + znear) * neg_depth_r) (two * (znear * zfar) * neg_depth_r) (-1)
    offsetX offsetY

def perspectiveLH_ZO : Matrix4 K :=
  let h := zoom / tan (fov * degToRad * literal (1 / 2))
  let neg_depth_r := 1 / (znear - zfar)
  perspectiveMatrix h aspect h (zfar * neg_depth_r) (znear * zfar * neg_depth_r) 1 offsetX offsetY

/-- The depth is divided by the far plane's distance from itself. -/
def perspectiveLH_NO : Matrix4 K :=
  let h := zoom / tan (fov * degToRad * literal (1 / 2))
  let neg_depth_r := 1 / (zfar - zfar)
  perspectiveMatrix h aspect h ((zfar + znear) * neg_depth_r) (-two * (znear * zfar) * neg_depth_r) 1
    offsetX offsetY

def perspective (clip : ClipControl) : Matrix4 K :=
  match clip with
  | .LH_ZO => perspectiveLH_ZO tan znear zfar aspect fov offsetX offsetY zoom
  | .LH_NO => perspectiveLH_NO tan znear zfar aspect fov offsetX offsetY zoom
  | .RH_ZO => perspectiveRH_ZO tan znear zfar aspect fov offsetX offsetY zoom
  | .RH_NO => perspectiveRH_NO tan znear zfar aspect fov offsetX offsetY zoom

/-! ## Orthographic -/

variable (left right bottom top : K)

/-- The entries in which the four matrices agree. -/
def orthographicMatrix (m11 m22 m23 : K) : Matrix4 K :=
  let x_r := 1 / (right - left)
  let y_r := zoom / (top - bottom)
  ⟨two * x_r, 0, offsetX * two, -(right + left) * x_r,
   0, m11 * y_r, offsetY * two, -(top + bottom) * y_r,
   0, 0, m22 * (1 / (zfar - znear)), m23 * (1 / (zfar - znear)),
   0, 0, 0, 1⟩

def orthographicRH_ZO : Matrix4 K :=
  orthographicMatrix znear zfar offsetX offsetY zoom left right bottom top (-two) (-1) (-znear)

def orthographicRH_NO : Matrix4 K :=
  orthographicMatrix znear zfar offsetX offsetY zoom left right bottom top two (-two) (-(zfar + znear))

def orthographicLH_ZO : Matrix4 K :=
  orthographicMatrix znear zfar offsetX offsetY zoom left right bottom top two (-1) (-znear)

def orthographicLH_NO : Matrix4 K :=
  orthographicMatrix znear zfar offsetX offsetY zoom left right bottom top two two (-(zfar + znear))

def orthographic (clip : ClipControl) : Matrix4 K :=
  match clip with
  | .LH_ZO => orthographicLH_ZO znear zfar offsetX offsetY zoom left right bottom top
  | .LH_NO => orthographicLH_NO znear zfar offsetX offsetY zoom left right bottom top
  | .RH_ZO => orthographicRH_ZO znear zfar offsetX offsetY zoom left right bottom top
  | .RH_NO => orthographicRH_NO znear zfar offsetX offsetY zoom left right bottom top

end Matrix4

variable {K : Type} [FloatArithmetic K]

namespace Matrix4

/-- `Matrix4()` -/
def initial : Matrix4 K :=
  ⟨1, 0, 0, 0,
   0, 1, 0, 0,
   0, 0, 1, 0,
   0, 0, 0, 1⟩

def inverse (m : Matrix4 K) : Matrix4 K :=
  let v0 := m.m20 * m.m31 - m.m21 * m.m30
  let v1 := m.m20 * m.m32 - m.m22 * m.m30
  let v2 := m.m20 * m.m33 - m.m23 * m.m30
  let v3 := m.m21 * m.m32 - m.m22 * m.m31
  let v4 := m.m21 * m.m33 - m.m23 * m.m31
  let v5 := m.m22 * m.m33 - m.m23 * m.m32
  let i00 := v5 * m.m11 - v4 * m.m12 + v3 * m.m13
  let i10 := -(v5 * m.m10 - v2 * m.m12 + v1 * m.m13)
  let i20 := v4 * m.m10 - v2 * m.m11 + v0 * m.m13
  let i30 := -(v3 * m.m10 - v1 * m.m11 + v0 * m.m12)
  let invDet := 1 / (i00 * m.m00 + i10 * m.m01 + i20 * m.m02 + i30 * m.m03)
  let i01 := -(v5 * m.m01 - v4 * m.m02 + v3 * m.m03) * invDet
  let i11 := (v5 * m.m00 - v2 * m.m02 + v1 * m.m03) * invDet
  let i21 := -(v4 * m.m00 - v2 * m.m01 + v0 * m.m03) * invDet
  let i31 := (v3 * m.m00 - v1 * m.m01 + v0 * m.m02) * invDet
  let v0 := m.m10 * m.m31 - m.m11 * m.m30
  let v1 := m.m10 * m.m32 - m.m12 * m.m30
  let v2 := m.m10 * m.m33 - m.m13 * m.m30
  let v3 := m.m11 * m.m32 - m.m12 * m.m31
  let v4 := m.m11 * m.m33 - m.m13 * m.m31
  let v5 := m.m12 * m.m33 - m.m13 * m.m32
  let i02 := (v5 * m.m01 - v4 * m.m02 + v3 * m.m03) * invDet
  let i12 := -(v5 * m.m00 - v2 * m.m02 + v1 * m.m03) * invDet
  let i22 := (v4 * m.m00 - v2 * m.m01 + v0 * m.m03) * invDet
  let i32 := -(v3 * m.m00 - v1 * m.m01 + v0 * m.m02) * invDet
  let v0 := m.m21 * m.m10 - m.m20 * m.m11
  let v1 := m.m22 * m.m10 - m.m20 * m.m12
  let v2 := m.m23 * m.m10 - m.m20 * m.m13
  let v3 := m.m22 * m.m11 - m.m21 * m.m12
  let v4 := m.m23 * m.m11 - m.m21 * m.m13
  let v5 := m.m23 * m.m12 - m.m22 * m.m13
  let i03 := -(v5 * m.m01 - v4 * m.m02 + v3 * m.m03) * invDet
  let i13 := (v5 * m.m00 - v2 * m.m02 + v1 * m.m03) * invDet
  let i23 := -(v4 * m.m00 - v2 * m.m01 + v0 * m.m03) * invDet
  let i33 := (v3 * m.m00 - v1 * m.m01 + v0 * m.m02) * invDet
  ⟨i00 * invDet, i01, i02, i03,
   i10 * invDet, i11, i12, i13,
   i20 * invDet, i21, i22, i23,
   i30 * invDet, i31, i32, i33⟩

end Matrix4

/-! ## Frustums -/

structure Plane (K : Type) where
  normal : Vector3 K
  absNormal : Vector3 K
  d : K
  deriving DecidableEq

namespace Plane

/-- `Define`, from three vertices. -/
def define (v0 v1 v2 : Vector3 K) : Plane K :=
  let normal := ((v1 - v0).crossProduct (v2 - v0)).normalize
  ⟨normal, ⟨fabs normal.x, fabs normal.y, fabs normal.z⟩, -normal.dotProduct v0⟩

def distance (plane : Plane K) (point : Vector3 K) : K := plane.normal.dotProduct point + plane.d

def flip (plane : Plane K) : Plane K := { plane with normal := -plane.normal, d := -plane.d }

end Plane

structure Frustum (K : Type) where
  vertices : List (Vector3 K)
  /-- `PLANE_NEAR`, `PLANE_LEFT`, `PLANE_RIGHT`, `PLANE_UP`, `PLANE_DOWN` and `PLANE_FAR`. -/
  planes : List (Plane K)
  deriving DecidableEq

namespace Frustum

/-- `Frustum()` -/
def initial : Frustum K := ⟨List.replicate 8 0, List.replicate 6 ⟨0, 0, 0⟩⟩

/-- `UpdatePlanes`, with the planes flipped where they have come out inverted. -/
def updatePlanes (v0 v1 v2 v3 v4 v5 v6 v7 : Vector3 K) : Frustum K :=
  let near := Plane.define v2 v1 v0
  let planes := [near, Plane.define v3 v7 v6, Plane.define v1 v5 v4, Plane.define v0 v4 v7,
    Plane.define v6 v5 v1, Plane.define v5 v6 v7]
  ⟨[v0, v1, v2, v3, v4, v5, v6, v7],
   if lt (near.distance v5) 0 then planes.map Plane.flip else planes⟩

/-- `Define`, from a projection. -/
def define (clip : ClipControl) (projection : Matrix4 K) : Frustum K :=
  let projInverse := projection.inverse
  let front : K := if clip.isDepthZeroOne then 0 else -1
  updatePlanes (projInverse.apply ⟨1, 1, front⟩) (projInverse.apply ⟨1, -1, front⟩)
    (projInverse.apply ⟨-1, -1, front⟩) (projInverse.apply ⟨-1, 1, front⟩)
    (projInverse.apply ⟨1, 1, 1⟩) (projInverse.apply ⟨1, -1, 1⟩)
    (projInverse.apply ⟨-1, -1, 1⟩) (projInverse.apply ⟨-1, 1, 1⟩)

end Frustum

/-! ## Rays -/

structure Ray (K : Type) where
  origin : Vector3 K
  direction : Vector3 K
  deriving DecidableEq

end Lumos.Maths
