import Lumos.Graphics.MeshSurfaces

/-!
# Cylinders are closed

The rows of the side are those of a barrel without its ends, and the middles of the caps are its
ends: the vertices round a cap are generated for the points of the row next to it.
-/
namespace Lumos.Graphics.MeshFactory

open Maths FloatArithmetic FloatLiterals FloatTrigonometry
open Library.ClosedSurface Library.Barrel Library.Revolution

variable {B T H : ℝ} {n rings m k : Nat}

/-! ## Rows -/

noncomputable def cylinderRow (B T H : ℝ) (m k : Nat) : ℝ × ℝ :=
  if k = 0 then (0, half H)
  else if k ≤ m + 1 then (T + (B - T) * ((k - 1) / m), half H - H * ((k - 1) / m))
  else (0, half H - H)

theorem cylinderRow_top (B T H : ℝ) (m : Nat) : cylinderRow B T H m 0 = (0, H / 2) := by
  rw [cylinderRow, if_pos rfl, half_eq]

theorem cylinderRow_side (hk : k ≤ m) :
    cylinderRow B T H m (1 + k) = (T + (B - T) * (k / m), H / 2 - H * (k / m)) := by
  rw [cylinderRow, if_neg (by omega), if_pos (by omega), half_eq]
  push_cast
  rw [add_sub_cancel_left]

theorem cylinderRow_bottom (B T H : ℝ) (m : Nat) : cylinderRow B T H m (m + 2) = (0, H / 2 - H) := by
  rw [cylinderRow, if_neg (by omega), if_neg (by omega), half_eq]

theorem cylinderRow_pos (hB : 0 < B) (hT : 0 < T) (hm : 0 < m) (hk : k ≤ m) :
    0 < (cylinderRow B T H m (1 + k)).1 := by
  have hm' : (0 : ℝ) < m := Nat.cast_pos.mpr hm
  have hle : (k : ℝ) / m ≤ 1 := (div_le_one hm').mpr (by exact_mod_cast hk)
  have hnonneg : (0 : ℝ) ≤ k / m := by positivity
  rw [cylinderRow_side hk]
  rcases hnonneg.eq_or_lt with hzero | hpos
  · rw [← hzero]
    simpa using hT
  · have hsum : T + (B - T) * (k / m) = T * (1 - k / m) + B * (k / m) := by ring
    rw [hsum]
    exact add_pos_of_nonneg_of_pos (mul_nonneg hT.le (by linarith)) (mul_pos hB hpos)

/-- The ends of the barrel, or a row of the side. -/
theorem row_cases (hk : k ≤ m + 2) : k = 0 ∨ (∃ j ≤ m, k = 1 + j) ∨ k = m + 2 := by
  rcases Nat.eq_zero_or_pos k with rfl | hpos
  · exact Or.inl rfl
  · rcases Nat.lt_or_eq_of_le hk with hlt | rfl
    · exact Or.inr (Or.inl ⟨k - 1, by omega, by omega⟩)
    · exact Or.inr (Or.inr rfl)

noncomputable def cylinderProfile (hB : 0 < B) (hT : 0 < T) (hH : 0 < H) (hm : 0 < m) : Profile (m + 2) where
  radius k := (cylinderRow B T H m k).1
  height k := (cylinderRow B T H m k).2
  radius_top := by rw [cylinderRow_top]
  radius_bottom := by rw [cylinderRow_bottom]
  radius_pos := by
    intro k hpos hk
    obtain ⟨j, rfl⟩ : ∃ j, k = 1 + j := ⟨k - 1, by omega⟩
    exact cylinderRow_pos hB hT hm (by omega)
  distinct := by
    intro k k' hk hk' hradius hheight
    have hm' : (m : ℝ) ≠ 0 := Nat.cast_ne_zero.mpr hm.ne'
    rcases row_cases hk with rfl | ⟨j, hj, rfl⟩ | rfl <;> rcases row_cases hk' with rfl | ⟨j', hj', rfl⟩ | rfl
    · rfl
    · exact absurd hradius (cylinderRow_top B T H m ▸ (cylinderRow_pos hB hT hm hj').ne)
    · rw [cylinderRow_top, cylinderRow_bottom] at hheight
      simp only at hheight
      linarith
    · exact absurd hradius (cylinderRow_top B T H m ▸ (cylinderRow_pos hB hT hm hj).ne')
    · rw [cylinderRow_side hj, cylinderRow_side hj'] at hheight
      have hquot : H * ((j : ℝ) / m) = H * (j' / m) := by linarith
      have hcast : (j : ℝ) = j' := (div_left_inj' hm').mp (mul_left_cancel₀ hH.ne' hquot)
      rw [Nat.cast_injective hcast]
    · exact absurd hradius (cylinderRow_bottom B T H m ▸ (cylinderRow_pos hB hT hm hj).ne')
    · rw [cylinderRow_top, cylinderRow_bottom] at hheight
      simp only at hheight
      linarith
    · exact absurd hradius (cylinderRow_bottom B T H m ▸ (cylinderRow_pos hB hT hm hj').ne)
    · rfl

/-! ## Places -/

/-- The axes of a cylinder. -/
def cylinderAxes (v : ℝ × ℝ × ℝ) : Vector3 ℝ := ⟨v.2.1, v.2.2, v.1⟩

theorem cylinderAxes_injective : cylinderAxes.Injective := by
  rintro ⟨a, b, h⟩ ⟨a', b', h'⟩ he
  simp only [cylinderAxes, Vector3.mk.injEq] at he
  obtain ⟨rfl, rfl, rfl⟩ := he
  rfl

theorem position_sideVertex (B T H : ℝ) (n rings j i : Nat) :
    (sideVertex B T H n rings j i).position =
      cylinderAxes ((T + (B - T) * (j / (rings + 1 : ℕ))) * Real.cos (angle n i),
        (T + (B - T) * (j / (rings + 1 : ℕ))) * Real.sin (angle n i), H / 2 - H * (j / (rings + 1 : ℕ))) := by
  have hposition : (sideVertex B T H n rings j i).position =
      ⟨Real.sin (turned (((i : ℚ) : ℝ) / ((n : ℚ) : ℝ))) *
          (T + (B - T) * (((j : ℚ) : ℝ) / (((rings : ℚ) + 1 : ℚ) : ℝ))),
        H * ((1 / 2 : ℚ) : ℝ) - H * (((j : ℚ) : ℝ) / (((rings : ℚ) + 1 : ℚ) : ℝ)),
        Real.cos (turned (((i : ℚ) : ℝ) / ((n : ℚ) : ℝ))) *
          (T + (B - T) * (((j : ℚ) : ℝ) / (((rings : ℚ) + 1 : ℚ) : ℝ)))⟩ := rfl
  rw [hposition]
  simp only [Rat.cast_natCast, turned_real]
  rw [cylinderAxes, Vector3.mk.injEq]
  exact ⟨by push_cast; ring, by push_cast; ring, by push_cast; ring⟩

theorem position_topCapVertex (T H : ℝ) (n i : Nat) :
    (topCapVertex T H n i).position =
      cylinderAxes (T * Real.cos (angle n i), T * Real.sin (angle n i), H / 2) := by
  have hposition : (topCapVertex T H n i).position =
      ⟨Real.sin (turned (((i : ℚ) : ℝ) / ((n : ℚ) : ℝ))) * T, H * ((1 / 2 : ℚ) : ℝ),
        Real.cos (turned (((i : ℚ) : ℝ) / ((n : ℚ) : ℝ))) * T⟩ := rfl
  rw [hposition]
  simp only [Rat.cast_natCast, turned_real]
  rw [cylinderAxes, Vector3.mk.injEq]
  exact ⟨by ring, by push_cast; ring, by ring⟩

theorem position_bottomCapVertex (B H : ℝ) (n i : Nat) :
    (bottomCapVertex B H n i).position =
      cylinderAxes (B * Real.cos (angle n i), B * Real.sin (angle n i), H / 2 - H) := by
  have hposition : (bottomCapVertex B H n i).position =
      ⟨Real.sin (turned (((i : ℚ) : ℝ) / ((n : ℚ) : ℝ))) * B, H * -((1 / 2 : ℚ) : ℝ),
        Real.cos (turned (((i : ℚ) : ℝ) / ((n : ℚ) : ℝ))) * B⟩ := rfl
  rw [hposition]
  simp only [Rat.cast_natCast, turned_real]
  rw [cylinderAxes, Vector3.mk.injEq]
  exact ⟨by ring, by push_cast; ring, by ring⟩

theorem vertices_createCylinder (hB : 0 < B) (hT : 0 < T) :
    (createCylinder B T H n rings).vertices = cylinderVertices B T H n rings := by
  rw [createCylinder_eq B T H n rings ((lt_real 0 T).mpr hT) ((lt_real 0 B).mpr hB)]
  rfl

theorem position_topMiddle (H : ℝ) : (topMiddle H).position = cylinderAxes (0, 0, H / 2) := by
  have hposition : (topMiddle H).position = ⟨0, H * ((1 / 2 : ℚ) : ℝ), 0⟩ := rfl
  rw [hposition, cylinderAxes, Vector3.mk.injEq]
  exact ⟨rfl, by push_cast; ring, rfl⟩

theorem position_bottomMiddle (H : ℝ) : (bottomMiddle H).position = cylinderAxes (0, 0, H / 2 - H) := by
  have hposition : (bottomMiddle H).position = ⟨0, H * -((1 / 2 : ℚ) : ℝ), 0⟩ := rfl
  rw [hposition, cylinderAxes, Vector3.mk.injEq]
  exact ⟨rfl, by push_cast; ring, rfl⟩

section Surface

variable (hB : 0 < B) (hT : 0 < T) (hH : 0 < H)

/-- The place of a point of the barrel. -/
noncomputable def cylinderPlace (rings : Nat) (x : Point n) : Option (Vector3 ℝ) :=
  some (cylinderAxes ((cylinderProfile hB hT hH (Nat.succ_pos rings)).place x))

theorem cylinderPlace_corner (hn : 0 < n) (k i : Nat) :
    cylinderPlace hB hT hH rings (corner (rings + 1 + 2) k (i : ZMod n)) =
      some (cylinderAxes ((cylinderRow B T H (rings + 1) k).1 * Real.cos (angle n i),
        (cylinderRow B T H (rings + 1) k).1 * Real.sin (angle n i), (cylinderRow B T H (rings + 1) k).2)) := by
  rw [cylinderPlace, Profile.place_corner _ hn]
  rfl

theorem place_side (hn : 0 < n) {j i : Nat} (hj : j ≤ rings + 1) (hi : i ≤ n) :
    (createCylinder B T H n rings).place (0 + j * (n + 1) + i) =
      cylinderPlace hB hT hH rings (corner (rings + 1 + 2) (1 + j) (i : ZMod n)) := by
  have hvertex := @getElem?_part _ (sideVertex B T H n rings) n rings []
    (capVertices n (topMiddle H) (topCapVertex T H n) ++ capVertices n (bottomMiddle H) (bottomCapVertex B H n)) _ _ _
    List.length_nil hj hi
  rw [Mesh.place, vertices_createCylinder hB hT, cylinderPlace_corner hB hT hH hn, cylinderVertices, List.append_assoc,
    ← List.nil_append (partVertices (sideVertex B T H n rings) n rings ++ _), hvertex, Option.map_some,
    position_sideVertex, cylinderRow_side hj]

variable (rings) in
theorem place_topCap (hn : 0 < n) {i : Nat} (hi : i ≤ n) :
    (∀ c : Nat, (createCylinder B T H n rings).place (partSize n rings) =
        cylinderPlace hB hT hH rings (corner (rings + 1 + 2) 0 (c : ZMod n))) ∧
      (createCylinder B T H n rings).place (partSize n rings + 1 + i) =
        cylinderPlace hB hT hH rings (corner (rings + 1 + 2) 1 (i : ZMod n)) := by
  obtain ⟨hmiddle, hround⟩ := @getElem?_cap ℝ n (topMiddle H) (topCapVertex T H n) _
    (capVertices n (bottomMiddle H) (bottomCapVertex B H n)) _ i
    (length_partVertices (sideVertex B T H n rings) n rings) hi
  rw [← List.append_assoc] at hmiddle hround
  constructor
  · intro c
    rw [Mesh.place, vertices_createCylinder hB hT, cylinderPlace_corner hB hT hH hn, cylinderVertices, hmiddle,
      Option.map_some, position_topMiddle, cylinderRow_top, zero_mul, zero_mul]
  · have hrow : cylinderRow B T H (rings + 1) 1 = (T, H / 2) := by
      have hside : cylinderRow B T H (rings + 1) (1 + 0) = _ := cylinderRow_side (Nat.zero_le _)
      simpa using hside
    rw [Mesh.place, vertices_createCylinder hB hT, cylinderPlace_corner hB hT hH hn, cylinderVertices, hround,
      Option.map_some, position_topCapVertex, hrow]

variable (rings) in
theorem place_bottomCap (hn : 0 < n) {i : Nat} (hi : i ≤ n) :
    (∀ c : Nat, (createCylinder B T H n rings).place (partSize n rings + 1 + (n + 1)) =
        cylinderPlace hB hT hH rings (corner (rings + 1 + 2) (rings + 1 + 2) (c : ZMod n))) ∧
      (createCylinder B T H n rings).place (partSize n rings + 1 + (n + 1) + 1 + i) =
        cylinderPlace hB hT hH rings (corner (rings + 1 + 2) (1 + (rings + 1)) (i : ZMod n)) := by
  have hm' : ((rings + 1 : ℕ) : ℝ) ≠ 0 := Nat.cast_ne_zero.mpr (Nat.succ_ne_zero rings)
  have hlength : (partVertices (sideVertex B T H n rings) n rings ++
      capVertices n (topMiddle H) (topCapVertex T H n)).length = partSize n rings + 1 + (n + 1) := by
    rw [List.length_append, length_partVertices, capVertices, List.length_cons, List.length_map, List.length_range]
    omega
  obtain ⟨hmiddle, hround⟩ := @getElem?_cap ℝ n (bottomMiddle H) (bottomCapVertex B H n) _ [] _ i hlength hi
  rw [List.append_nil] at hmiddle hround
  constructor
  · intro c
    rw [Mesh.place, vertices_createCylinder hB hT, cylinderPlace_corner hB hT hH hn, cylinderVertices, hmiddle,
      Option.map_some, position_bottomMiddle, cylinderRow_bottom, zero_mul, zero_mul]
  · rw [Mesh.place, vertices_createCylinder hB hT, cylinderPlace_corner hB hT hH hn, cylinderVertices, hround,
      Option.map_some, position_bottomCapVertex, cylinderRow_side (Nat.le_refl _), div_self hm']
    simp

/-- A cylinder as a barrel: its side, and the cells of the caps that are not degenerate. -/
def cylinderBarrel (n rings : Nat) : List (Triangle (Point n)) :=
  ((List.range (rings + 1)).flatMap fun j => turnedBand (rings + 1 + 2) n (1 + j)) ++
    ((columns n).map fun c => (second (rings + 1 + 2) 0 c).rotate) ++
      ((columns n).map fun c => (first (rings + 1 + 2) (1 + (rings + 1)) c).rotate.rotate)

theorem cylinderTriangles_places (hn : 0 < n) :
    (cylinderTriangles n rings).map (Triangle.map (createCylinder B T H n rings).place) =
      (cylinderBarrel n rings).map (Triangle.map (cylinderPlace hB hT hH rings)) := by
  have hside := map_rowTriangles fun j hj i hi => @place_side B T H n rings hB hT hH hn j i hj hi
  have htop : (topTriangles n (partSize n rings)).map (Triangle.map (createCylinder B T H n rings).place) =
      ((columns n).map fun c => (second (rings + 1 + 2) 0 c).rotate).map
        (Triangle.map (cylinderPlace hB hT hH rings)) := by
    rw [topTriangles, columns, List.map_map, List.map_map, List.map_map]
    apply List.map_congr_left
    intro i hi
    rw [List.mem_range] at hi
    have hnext := place_topCap rings hB hT hH hn (by omega : i + 1 ≤ n)
    have hthis := place_topCap rings hB hT hH hn (by omega : i ≤ n)
    simp only [Function.comp_apply, Triangle.map, Triangle.rotate, second]
    rw [hnext.1 (i + 1), hnext.2, hthis.2]
    push_cast
    rfl
  have hbottom : (bottomTriangles n (partSize n rings + 1 + (n + 1))).map
      (Triangle.map (createCylinder B T H n rings).place) =
        ((columns n).map fun c => (first (rings + 1 + 2) (1 + (rings + 1)) c).rotate.rotate).map
          (Triangle.map (cylinderPlace hB hT hH rings)) := by
    rw [bottomTriangles, columns, List.map_map, List.map_map, List.map_map]
    apply List.map_congr_left
    intro i hi
    rw [List.mem_range] at hi
    have hnext := place_bottomCap rings hB hT hH hn (by omega : i + 1 ≤ n)
    have hthis := place_bottomCap rings hB hT hH hn (by omega : i ≤ n)
    have hrow : 1 + (rings + 1) + 1 = rings + 1 + 2 := by omega
    simp only [Function.comp_apply, Triangle.map, Triangle.rotate, first]
    rw [hnext.1 i, hnext.2, hthis.2, hrow]
    push_cast
    rfl
  rw [cylinderTriangles, cylinderBarrel, List.map_append, List.map_append, List.map_append, List.map_append, hside, htop,
    hbottom]

theorem corners_cylinderBarrel {t : Triangle (Point n)} (ht : t ∈ cylinderBarrel n rings) {x : Point n}
    (hx : x ∈ t.corners) : x ∈ Profile.points (rings + 1 + 2) n := by
  simp only [cylinderBarrel, List.mem_append, List.mem_flatMap, List.mem_map, List.mem_range] at ht
  rcases ht with (⟨j, hj, ht⟩ | ⟨c, -, rfl⟩) | ⟨c, -, rfl⟩
  · exact corners_turnedBand (by omega) ht hx
  · simp only [Triangle.corners, Triangle.rotate, second, List.mem_cons, List.not_mem_nil, or_false] at hx
    rcases hx with rfl | rfl | rfl
    · exact ⟨1, by omega, _, rfl⟩
    · exact ⟨1, by omega, _, rfl⟩
    · exact ⟨0, by omega, _, rfl⟩
  · simp only [Triangle.corners, Triangle.rotate, first, List.mem_cons, List.not_mem_nil, or_false] at hx
    rcases hx with rfl | rfl | rfl
    · exact ⟨1 + (rings + 1), by omega, _, rfl⟩
    · exact ⟨1 + (rings + 1), by omega, _, rfl⟩
    · exact ⟨1 + (rings + 1) + 1, by omega, _, rfl⟩

/-- One triangle of each cell of the end bands is degenerate. -/
theorem sides_topBand (N n : Nat) : sides ((columns n).flatMap (cell N 0)) =
    (columns n).flatMap fun c => sides [second N 0 c] := by
  rw [sides_flatMap]
  apply List.flatMap_congr
  intro c _
  rw [cell, sides_cons, sides_degenerate (not_proper_first N c), List.nil_append]

theorem sides_bottomBand {N k : Nat} (h : k + 1 = N) (n : Nat) : sides ((columns n).flatMap (cell N k)) =
    (columns n).flatMap fun c => sides [first N k c] := by
  rw [sides_flatMap]
  apply List.flatMap_congr
  intro c _
  rw [cell, sides_cons, sides_degenerate (not_proper_second h c), List.append_nil]

theorem sides_cylinderBarrel (n rings : Nat) :
    (sides (cylinderBarrel n rings)).Perm (sides (barrel (rings + 1 + 2) n)) := by
  have hrange : List.range (rings + 1 + 2) = [0] ++ (List.range (rings + 1)).map (1 + ·) ++ [1 + (rings + 1)] := by
    rw [List.range_succ_eq_map, List.range_succ]
    simp [Nat.add_comm 1]
  have hside : (sides ((List.range (rings + 1)).flatMap fun j => turnedBand (rings + 1 + 2) n (1 + j))).Perm
      (sides ((List.range (rings + 1)).flatMap fun j => (columns n).flatMap (cell (rings + 1 + 2) (1 + j)))) := by
    rw [sides_flatMap, sides_flatMap]
    exact List.Perm.flatMap_left _ fun j _ => sides_turnedBand _ n (1 + j)
  have htop : (sides ((columns n).map fun c => (second (rings + 1 + 2) 0 c).rotate)).Perm
      (sides ((columns n).flatMap (cell (rings + 1 + 2) 0))) := by
    rw [sides_topBand, List.map_eq_flatMap, sides_flatMap]
    exact List.Perm.flatMap_left _ fun c _ => sides_rotate _
  have hbottom : (sides ((columns n).map fun c => (first (rings + 1 + 2) (1 + (rings + 1)) c).rotate.rotate)).Perm
      (sides ((columns n).flatMap (cell (rings + 1 + 2) (1 + (rings + 1))))) := by
    rw [sides_bottomBand (by omega), List.map_eq_flatMap, sides_flatMap]
    exact List.Perm.flatMap_left _ fun c _ => (sides_rotate _).trans (sides_rotate _)
  rw [cylinderBarrel, barrel, hrange, List.flatMap_append, List.flatMap_append, List.flatMap_map, List.flatMap_singleton,
    List.flatMap_singleton, sides_append, sides_append, sides_append, sides_append]
  exact ((hside.append htop).trans List.perm_append_comm).append hbottom

theorem watertight_createCylinder (hB : 0 < B) (hT : 0 < T) (hH : 0 < H) (hn : 3 ≤ n) :
    (createCylinder B T H n rings).Watertight := by
  have hindices : (createCylinder B T H n rings).indices = (cylinderTriangles n rings).flatMap Triangle.corners := by
    rw [createCylinder_eq B T H n rings ((lt_real 0 T).mpr hT) ((lt_real 0 B).mpr hB)]
    rfl
  apply watertight_of_sides (cylinderProfile hB hT hH (Nat.succ_pos rings)) hn (by omega) cylinderAxes_injective hindices
    (cylinderTriangles_places hB hT hH (by omega))
  · exact fun t ht x hx => corners_cylinderBarrel ht hx
  · exact sides_cylinderBarrel n rings

end Surface

end Lumos.Graphics.MeshFactory
