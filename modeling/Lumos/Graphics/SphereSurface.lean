import Lumos.Graphics.MeshSurfaces

/-!
# The vertices of a sphere

The loops over floats may stop late, or early: then a row has more vertices than the indices
count on, or some cells are missing.
-/
namespace Lumos.Graphics.MeshFactory

open Maths FloatArithmetic FloatLiterals FloatTrigonometry
open Library.ClosedSurface Library.Barrel Library.Revolution Library.FloatRounding

/-! ## Loops over floats -/

/-- A loop ends at the first number that fails its test. -/
theorem takeWhile_range {p : Nat → Bool} {k n : Nat} (hk : k ≤ n) (hbelow : ∀ i < k, p i = true)
    (hend : p k = false) : (List.range n).takeWhile p = List.range k := by
  obtain ⟨d, rfl⟩ := Nat.exists_eq_add_of_le hk
  rw [List.range_add, List.takeWhile_append_of_pos fun i hi => hbelow i (List.mem_range.mp hi)]
  cases d with
  | zero => simp
  | succ d =>
    rw [List.range_succ_eq_map, List.map_cons, List.takeWhile_cons_of_neg, List.append_nil]
    simpa using hend

theorem toFloat_mono {i j : Nat} (h : i ≤ j) : toFloat i ≤ toFloat j := round_mono (by decide) h

/-- The loop over vertices makes `e` turns too many, the one over cells makes `d`. -/
structure Turns (c e d : Nat) : Prop where
  vertices : turnsTo c = List.range (c + 1 + e)
  cells : turnsBelow c = List.range d
  cells_le : d ≤ c
  late_lt : e < d
  late : toFloat (c + e) ≤ c
  next : c < toFloat (c + e + 1)
  early : ∀ i < d, toFloat i < c
  reached : c ≤ toFloat d

theorem exists_turns {c : Nat} (hpos : 0 < c) (hc : toFloat c = c) : ∃ e d, Turns c e d := by
  have htwice : c < toFloat (c + (c - 1) + 1) := by
    have hsum : c + (c - 1) + 1 = 2 * c := by omega
    rw [hsum]
    exact lt_round_two_mul (by decide) hpos
  have hnext : ∃ e, c < toFloat (c + e + 1) := ⟨c - 1, htwice⟩
  have hreach : ∃ d, c ≤ toFloat d := ⟨c, hc.ge⟩
  have hearly : ∀ i < Nat.find hreach, toFloat i < c := fun i hi => not_le.mp (Nat.find_min hreach hi)
  have hlate : toFloat (c + Nat.find hnext) ≤ c := by
    rcases Nat.eq_zero_or_pos (Nat.find hnext) with hzero | hsome
    · rw [hzero]
      exact hc.le
    · have hmin := Nat.find_min hnext (by omega : Nat.find hnext - 1 < Nat.find hnext)
      have hsum : c + (Nat.find hnext - 1) + 1 = c + Nat.find hnext := by omega
      rw [hsum] at hmin
      exact not_lt.mp hmin
  have hle : Nat.find hnext ≤ c - 1 := Nat.find_le htwice
  have hcells : Nat.find hreach ≤ c := Nat.find_le hc.ge
  refine ⟨Nat.find hnext, Nat.find hreach, ?_, ?_, hcells, ?_, hlate, Nat.find_spec hnext, hearly, Nat.find_spec hreach⟩
  · apply takeWhile_range (by omega)
    · intro i hi
      exact decide_eq_true ((toFloat_mono (by omega)).trans hlate)
    · rw [Nat.add_right_comm]
      exact decide_eq_false (not_le.mpr (Nat.find_spec hnext))
  · apply takeWhile_range hcells
    · exact fun i hi => decide_eq_true (hearly i hi)
    · exact decide_eq_false (not_lt.mpr (Nat.find_spec hreach))
  · exact lt_of_round_le (by decide) hpos hlate (Nat.find_spec hreach)

namespace Turns

variable {c e d : Nat}

theorem pos (h : Turns c e d) : 0 < d := Nat.zero_lt_of_lt h.late_lt

/-- A row is as long as the indices count on exactly when the next number is a larger float. -/
theorem late_eq_zero_iff (h : Turns c e d) : e = 0 ↔ c < toFloat (c + 1) := by
  constructor
  · rintro rfl
    exact h.next
  · intro hlt
    by_contra hne
    have hle := (toFloat_mono (by omega : c + 1 ≤ c + e)).trans h.late
    omega

theorem cells_eq (hc : toFloat c = c) (h : Turns c 0 d) : d = c := by
  by_contra hne
  have hle := h.cells_le
  have hlt : toFloat (c - 1) < c := round_sub_one_lt (by decide) (by omega) hc h.next
  have hreach := h.reached.trans (toFloat_mono (by omega : d ≤ c - 1))
  omega

end Turns

/-! ## Places -/

noncomputable def sphereProfile {s : Nat} (hs : 0 < s) : Profile s where
  radius k := Real.sin (Real.pi * (k / s))
  height k := Real.cos (Real.pi * (k / s))
  radius_top := by simp
  radius_bottom := by
    have hs' : (s : ℝ) ≠ 0 := Nat.cast_ne_zero.mpr hs.ne'
    rw [div_self hs', mul_one, Real.sin_pi]
  radius_pos := by
    intro k hpos hk
    have hs' : (0 : ℝ) < s := Nat.cast_pos.mpr hs
    have hk' : (0 : ℝ) < k := Nat.cast_pos.mpr hpos
    have hlt : (k : ℝ) / s < 1 := (div_lt_one hs').mpr (by exact_mod_cast hk)
    have hpi := Real.pi_pos
    apply Real.sin_pos_of_pos_of_lt_pi
    · positivity
    · nlinarith
  distinct := by
    intro k k' hk hk' _ he
    apply @eq_of_height_eq s (fun k => Real.cos (Real.pi * (k / s))) _ k k' hk hk' he
    intro i hi
    have hs' : (0 : ℝ) < s := Nat.cast_pos.mpr hs
    have hpi := Real.pi_pos
    have hle : ((i + 1 : ℕ) : ℝ) / s ≤ 1 := (div_le_one hs').mpr (by exact_mod_cast hi)
    have hlt : (i : ℝ) / s < ((i + 1 : ℕ) : ℝ) / s := by
      apply div_lt_div_of_pos_right _ hs'
      exact_mod_cast Nat.lt_succ_self i
    apply Real.cos_lt_cos_of_nonneg_of_le_pi
    · positivity
    · nlinarith
    · exact mul_lt_mul_of_pos_left hlt hpi

/-- The axes of a sphere. -/
def sphereAxes (v : ℝ × ℝ × ℝ) : Vector3 ℝ := ⟨v.1, v.2.1, v.2.2⟩

theorem sphereAxes_injective : sphereAxes.Injective := by
  rintro ⟨a, b, h⟩ ⟨a', b', h'⟩ he
  simp only [sphereAxes, Vector3.mk.injEq] at he
  obtain ⟨rfl, rfl, rfl⟩ := he
  rfl

theorem position_sphereVertex (c s i j : Nat) : (sphereVertex c s i j : Vertex ℝ).position =
    sphereAxes (Real.sin (Real.pi * (i / s)) * Real.cos (angle c j),
      Real.sin (Real.pi * (i / s)) * Real.sin (angle c j), Real.cos (Real.pi * (i / s))) := by
  have hposition : (sphereVertex c s i j : Vertex ℝ).position =
      ⟨1 * Real.cos (Real.pi / ((2 : ℕ) : ℝ) - ((i : ℚ) : ℝ) * (Real.pi / ((s : ℚ) : ℝ))) *
          Real.cos (((j : ℚ) : ℝ) * (((2 : ℕ) : ℝ) * Real.pi / ((c : ℚ) : ℝ))),
        1 * Real.cos (Real.pi / ((2 : ℕ) : ℝ) - ((i : ℚ) : ℝ) * (Real.pi / ((s : ℚ) : ℝ))) *
          Real.sin (((j : ℚ) : ℝ) * (((2 : ℕ) : ℝ) * Real.pi / ((c : ℚ) : ℝ))),
        1 * Real.sin (Real.pi / ((2 : ℕ) : ℝ) - ((i : ℚ) : ℝ) * (Real.pi / ((s : ℚ) : ℝ)))⟩ := rfl
  have hstack : (i : ℝ) * (Real.pi / s) = Real.pi * (i / s) := by ring
  have hsector : (j : ℝ) * (2 * Real.pi / c) = angle c j := by
    rw [angle_eq]
    ring
  rw [hposition]
  simp only [Rat.cast_natCast, Nat.cast_ofNat, one_mul]
  rw [hstack, hsector, Real.cos_pi_div_two_sub, Real.sin_pi_div_two_sub]
  rfl

/-- The point that is at some position among the vertices, in rows of `c + 1 + e`. -/
def spherePoint (c e s k : Nat) : Point c := corner s (k / (c + 1 + e)) ((k % (c + 1 + e) : ℕ) : ZMod c)

section Places

variable {x y c s e d e' b : Nat}

theorem length_sphereVertices (hx : Turns c e d) (hy : Turns s e' b) :
    (sphereVertices c s : List (Vertex ℝ)).length = (s + 1 + e') * (c + 1 + e) := by
  rw [sphereVertices, hx.vertices, hy.vertices]
  exact length_rows _ _ _

theorem getElem?_sphereVertices (hx : Turns c e d) (hy : Turns s e' b) {k : Nat} (hk : k / (c + 1 + e) ≤ s) :
    (sphereVertices c s : List (Vertex ℝ))[k]? = some (sphereVertex c s (k / (c + 1 + e)) (k % (c + 1 + e))) := by
  have hrow := getElem?_rows (sphereVertex c s : Nat → Nat → Vertex ℝ) (by omega : k / (c + 1 + e) < s + 1 + e')
    (Nat.mod_lt k (by omega : 0 < c + 1 + e))
  rw [Nat.div_add_mod'] at hrow
  rw [sphereVertices, hx.vertices, hy.vertices]
  exact hrow

theorem place_createSphere (hx : Turns (toFloat x) e d) (hy : Turns (toFloat y) e' b) (hc : 0 < toFloat x)
    (hs : 0 < toFloat y) {k : Nat} (hk : k / (toFloat x + 1 + e) ≤ toFloat y) :
    (createSphere x y : Mesh ℝ).place k =
      some (sphereAxes ((sphereProfile hs).place (spherePoint (toFloat x) e (toFloat y) k))) := by
  have hvertices : (createSphere x y : Mesh ℝ).vertices = sphereVertices (toFloat x) (toFloat y) := by
    rw [createSphere_eq]
    rfl
  rw [Mesh.place, hvertices, getElem?_sphereVertices hx hy hk, Option.map_some, position_sphereVertex, spherePoint,
    Profile.place_corner _ hc]
  rfl

/-! ## Corners -/

theorem mem_sphereTriangles (hx : Turns c e d) (hy : Turns s e' b) {t : Triangle Nat} :
    t ∈ sphereTriangles c s ↔ ∃ i < b, ∃ j < d, t ∈ sphereCell c s i j := by
  simp only [sphereTriangles, hx.cells, hy.cells, List.mem_flatMap, List.mem_range]

theorem mem_sphereCell {i j : Nat} {t : Triangle Nat} : t ∈ sphereCell c s i j ↔
    (i ≠ 0 ∧ t = ⟨i * (c + 1) + j, i * (c + 1) + c + 1 + j, i * (c + 1) + j + 1⟩) ∨
      (toFloat i ≠ toFloat (s - 1) ∧
        t = ⟨i * (c + 1) + j + 1, i * (c + 1) + c + 1 + j, i * (c + 1) + c + 1 + j + 1⟩) := by
  rw [sphereCell, List.mem_append]
  by_cases hfirst : i = 0 <;> by_cases hsecond : toFloat i = toFloat (s - 1) <;> simp [hfirst, hsecond]

/-- The indices of the cells stay within rows of `c + 1`. -/
theorem corner_lt (hx : Turns c e d) (hy : Turns s e' b) {t : Triangle Nat} (ht : t ∈ sphereTriangles c s) {k : Nat}
    (hk : k ∈ t.corners) : k < (s + 1) * (c + 1) := by
  obtain ⟨i, hi, j, hj, hcell⟩ := (mem_sphereTriangles hx hy).mp ht
  have hcells := hx.cells_le
  have hrow : (i + 1) * (c + 1) ≤ s * (c + 1) := Nat.mul_le_mul_right _ (by have hle := hy.cells_le; omega)
  rw [Nat.add_one_mul] at hrow
  rw [Nat.add_one_mul]
  rcases mem_sphereCell.mp hcell with ⟨-, rfl⟩ | ⟨-, rfl⟩ <;>
    simp only [Triangle.corners, List.mem_cons, List.not_mem_nil, or_false] at hk <;> omega

theorem row_le {k : Nat} (hk : k < (s + 1) * (c + 1)) : k / (c + 1 + e) ≤ s := by
  have hle : (s + 1) * (c + 1) ≤ (s + 1) * (c + 1 + e) := Nat.mul_le_mul_left _ (by omega)
  exact Nat.le_of_lt_succ ((Nat.div_lt_iff_lt_mul (by omega)).mpr (hk.trans_le hle))

/-- The triangles by the points of the barrel at their corners. -/
def sphereSurface (c e s : Nat) : List (Triangle (Point c)) := (sphereTriangles c s).map (Triangle.map (spherePoint c e s))

theorem surface_createSphere (hx : Turns (toFloat x) e d) (hy : Turns (toFloat y) e' b) (hc : 0 < toFloat x)
    (hs : 0 < toFloat y) (hfits : (createSphere x y : Mesh ℝ).vertices.length ≤ 2 ^ 32) :
    (createSphere x y : Mesh ℝ).surface = (sphereSurface (toFloat x) e (toFloat y)).map
      (Triangle.map fun p => some (sphereAxes ((sphereProfile hs).place p))) := by
  have hlength : (createSphere x y : Mesh ℝ).vertices.length = (toFloat y + 1 + e') * (toFloat x + 1 + e) := by
    rw [createSphere_eq]
    exact length_sphereVertices hx hy
  have hle : (toFloat y + 1) * (toFloat x + 1) ≤ (toFloat y + 1 + e') * (toFloat x + 1 + e) :=
    Nat.mul_le_mul (by omega) (by omega)
  have hindices : (createSphere x y : Mesh ℝ).indices =
      ((sphereTriangles (toFloat x) (toFloat y)).map (Triangle.map (· % 2 ^ 32))).flatMap Triangle.corners := by
    rw [createSphere_eq]
    rfl
  rw [Mesh.surface, hindices, triangles_flatMap_corners, sphereSurface, List.map_map, List.map_map]
  apply List.map_congr_left
  intro t ht
  rw [Function.comp, Function.comp, Triangle.map_map, Triangle.map_map]
  apply Triangle.map_congr
  intro k hk
  have hlt := corner_lt hx hy ht hk
  rw [Function.comp, Nat.mod_eq_of_lt (by omega)]
  exact place_createSphere hx hy hc hs (row_le hlt)

/-- No index is out of range. -/
theorem indices_createSphere_lt (hx : Turns (toFloat x) e d) (hy : Turns (toFloat y) e' b) :
    ∀ i ∈ (createSphere x y : Mesh ℝ).indices, i < (createSphere x y : Mesh ℝ).vertices.length := by
  have hlength : (createSphere x y : Mesh ℝ).vertices.length = (toFloat y + 1 + e') * (toFloat x + 1 + e) := by
    rw [createSphere_eq]
    exact length_sphereVertices hx hy
  have hle : (toFloat y + 1) * (toFloat x + 1) ≤ (toFloat y + 1 + e') * (toFloat x + 1 + e) :=
    Nat.mul_le_mul (by omega) (by omega)
  intro i hi
  rw [createSphere_eq] at hi
  obtain ⟨t, ht, hi⟩ := List.mem_flatMap.mp hi
  obtain ⟨t', ht', rfl⟩ := List.mem_map.mp ht
  obtain ⟨k, hk, rfl⟩ : ∃ k ∈ t'.corners, k % 2 ^ 32 = i := List.mem_map.mp hi
  have hlt := corner_lt hx hy ht' hk
  have hmod := Nat.mod_le k (2 ^ 32)
  omega

theorem watertight_createSphere_iff (hx : Turns (toFloat x) e d) (hy : Turns (toFloat y) e' b) (hc : 0 < toFloat x)
    (hs : 0 < toFloat y) (hfits : (createSphere x y : Mesh ℝ).vertices.length ≤ 2 ^ 32) :
    (createSphere x y : Mesh ℝ).Watertight ↔ Closed (sphereSurface (toFloat x) e (toFloat y)) := by
  have hpoints : ∀ t ∈ sphereSurface (toFloat x) e (toFloat y), ∀ p ∈ t.corners,
      p ∈ Profile.points (toFloat y) (toFloat x) := by
    intro t ht p hp
    obtain ⟨t', ht', rfl⟩ := List.mem_map.mp ht
    obtain ⟨k, hk, rfl⟩ : ∃ k ∈ t'.corners, spherePoint (toFloat x) e (toFloat y) k = p := List.mem_map.mp hp
    exact ⟨_, row_le (corner_lt hx hy ht' hk), _, rfl⟩
  have hclosed := @closed_map_iff _ _ _ _ _ (injOn_some (sphereProfile hs) hc sphereAxes_injective) hpoints
  rw [← surface_createSphere hx hy hc hs hfits] at hclosed
  rw [← hclosed]
  exact ⟨Mesh.Watertight.closed, fun h => ⟨indices_createSphere_lt hx hy, h⟩⟩

end Places

end Lumos.Graphics.MeshFactory
