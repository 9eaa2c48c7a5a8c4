import Lumos.Graphics.MeshSurfaces

/-!
# Capsules are closed

The three parts of a capsule are the bands of one barrel: neighbours share a row.
-/
namespace Lumos.Graphics.MeshFactory

open Maths FloatArithmetic FloatLiterals FloatTrigonometry
open Library.ClosedSurface Library.Barrel Library.Revolution

variable {R H : ℝ} {n rings : Nat}

/-- The rows of the three parts, of which neighbours share one. -/
noncomputable def capsuleRow (R H : ℝ) (m k : Nat) : ℝ × ℝ :=
  if k ≤ m then (R * Real.sin (half Real.pi * (k / m)), R * Real.cos (half Real.pi * (k / m)) + half H)
  else if k ≤ 2 * m then (R, half H - H * ((k - m) / m))
  else (R * Real.sin (half Real.pi * ((k - (m + m)) / m + 1)), R * Real.cos (half Real.pi * ((k - (m + m)) / m + 1)) - half H)

variable {m k : Nat}

theorem capsuleRow_top (hk : k ≤ m) : capsuleRow R H m k =
    (R * Real.sin (Real.pi / 2 * (k / m)), R * Real.cos (Real.pi / 2 * (k / m)) + H / 2) := by
  rw [capsuleRow, if_pos hk, half_eq, half_eq]

theorem capsuleRow_middle (hm : 0 < m) (hmk : m ≤ k) (hk : k ≤ 2 * m) :
    capsuleRow R H m k = (R, H / 2 - H * ((k - m) / m)) := by
  have hm' : (m : ℝ) ≠ 0 := Nat.cast_ne_zero.mpr (by omega)
  rcases Nat.lt_or_eq_of_le hmk with hlt | rfl
  · rw [capsuleRow, if_neg (by omega), if_pos hk, half_eq]
  · rw [capsuleRow_top (Nat.le_refl _), div_self hm', mul_one, Real.sin_pi_div_two, Real.cos_pi_div_two, sub_self]
    simp

theorem capsuleRow_bottom (hm : 0 < m) (hmk : 2 * m ≤ k) : capsuleRow R H m k =
    (R * Real.sin (Real.pi / 2 * ((k - 2 * m) / m + 1)), R * Real.cos (Real.pi / 2 * ((k - 2 * m) / m + 1)) - H / 2) := by
  have hm' : (m : ℝ) ≠ 0 := Nat.cast_ne_zero.mpr (by omega)
  rcases Nat.lt_or_eq_of_le hmk with hlt | rfl
  · rw [capsuleRow, if_neg (by omega), if_neg (by omega), half_eq, half_eq, two_mul]
  · rw [capsuleRow_middle hm (by omega) (Nat.le_refl _)]
    push_cast
    rw [sub_self, zero_div, zero_add, mul_one, Real.sin_pi_div_two, Real.cos_pi_div_two, two_mul, add_sub_cancel_left,
      div_self hm']
    ext
    · simp
    · simp
      ring

/-- Each row is below the one before it. -/
theorem capsuleRow_lt (hR : 0 < R) (hH : 0 < H) (hm : 0 < m) (hk : k < 3 * m) :
    (capsuleRow R H m (k + 1)).2 < (capsuleRow R H m k).2 := by
  have hm' : (0 : ℝ) < m := Nat.cast_pos.mpr hm
  have hpi := Real.pi_pos
  rcases Nat.lt_or_ge k m with htop | hmk
  · rw [capsuleRow_top (by omega : k ≤ m), capsuleRow_top (by omega : k + 1 ≤ m)]
    have hle : ((k + 1 : ℕ) : ℝ) / m ≤ 1 := (div_le_one hm').mpr (by exact_mod_cast htop)
    have hlt : (k : ℝ) / m < ((k + 1 : ℕ) : ℝ) / m := by
      apply div_lt_div_of_pos_right _ hm'
      exact_mod_cast Nat.lt_succ_self k
    have hnonneg : (0 : ℝ) ≤ k / m := by positivity
    have hcos : Real.cos (Real.pi / 2 * (((k + 1 : ℕ) : ℝ) / m)) < Real.cos (Real.pi / 2 * (k / m)) := by
      apply Real.cos_lt_cos_of_nonneg_of_le_pi
      · positivity
      · nlinarith
      · exact mul_lt_mul_of_pos_left hlt (by positivity)
    simpa using mul_lt_mul_of_pos_left hcos hR
  · rcases Nat.lt_or_ge k (2 * m) with hmiddle | hbottom
    · rw [capsuleRow_middle hm hmk (by omega), capsuleRow_middle hm (by omega) (by omega)]
      have hlt : ((k : ℝ) - m) / m < (((k + 1 : ℕ) : ℝ) - m) / m := by
        apply div_lt_div_of_pos_right _ hm'
        push_cast
        linarith
      simpa using mul_lt_mul_of_pos_left hlt hH
    · rw [capsuleRow_bottom hm hbottom, capsuleRow_bottom hm (by omega)]
      have hge : (2 * m : ℝ) ≤ k := by exact_mod_cast hbottom
      have hle : (((k + 1 : ℕ) : ℝ) - 2 * m) / m ≤ 1 := by
        rw [div_le_one hm']
        have hcast : ((k + 1 : ℕ) : ℝ) ≤ 3 * m := by exact_mod_cast hk
        linarith
      have hlt : ((k : ℝ) - 2 * m) / m < (((k + 1 : ℕ) : ℝ) - 2 * m) / m := by
        apply div_lt_div_of_pos_right _ hm'
        push_cast
        linarith
      have hnonneg : 0 ≤ ((k : ℝ) - 2 * m) / m := div_nonneg (by linarith) hm'.le
      have hcos : Real.cos (Real.pi / 2 * ((((k + 1 : ℕ) : ℝ) - 2 * m) / m + 1)) <
          Real.cos (Real.pi / 2 * (((k : ℝ) - 2 * m) / m + 1)) := by
        apply Real.cos_lt_cos_of_nonneg_of_le_pi
        · positivity
        · nlinarith
        · exact mul_lt_mul_of_pos_left (by linarith) (by positivity)
      simpa using mul_lt_mul_of_pos_left hcos hR

noncomputable def capsuleProfile (hR : 0 < R) (hH : 0 < H) (hm : 0 < m) : Profile (3 * m) where
  radius k := (capsuleRow R H m k).1
  height k := (capsuleRow R H m k).2
  radius_top := by
    rw [capsuleRow_top (Nat.zero_le _)]
    simp
  radius_bottom := by
    have hm' : (m : ℝ) ≠ 0 := Nat.cast_ne_zero.mpr (by omega)
    have hturn : Real.pi / 2 * ((((3 * m : ℕ) : ℝ) - 2 * m) / m + 1) = Real.pi := by
      push_cast
      field_simp
      ring
    rw [capsuleRow_bottom hm (by omega), hturn, Real.sin_pi, mul_zero]
  radius_pos := by
    intro k hpos hk
    have hm' : (0 : ℝ) < m := Nat.cast_pos.mpr hm
    have hpi := Real.pi_pos
    rcases Nat.lt_or_ge m k with hmk | htop
    · rcases Nat.lt_or_ge (2 * m) k with hbottom | hmiddle
      · rw [capsuleRow_bottom hm hbottom.le]
        have hge : (2 * m : ℝ) < k := by exact_mod_cast hbottom
        have hlt : ((k : ℝ) - 2 * m) / m < 1 := by
          rw [div_lt_one hm']
          have hcast : (k : ℝ) < 3 * m := by exact_mod_cast hk
          linarith
        have hnonneg : 0 < ((k : ℝ) - 2 * m) / m := div_pos (by linarith) hm'
        exact mul_pos hR (Real.sin_pos_of_pos_of_lt_pi (by positivity) (by nlinarith))
      · rw [capsuleRow_middle hm hmk.le hmiddle]
        exact hR
    · rw [capsuleRow_top htop]
      have hle : (k : ℝ) / m ≤ 1 := (div_le_one hm').mpr (by exact_mod_cast htop)
      have hnonneg : (0 : ℝ) < k / m := div_pos (by exact_mod_cast hpos) hm'
      exact mul_pos hR (Real.sin_pos_of_pos_of_lt_pi (by positivity) (by nlinarith))
  distinct := by
    intro k k' hk hk' _ he
    exact @eq_of_height_eq _ (fun k => (capsuleRow R H m k).2) (fun _ hlt => capsuleRow_lt hR hH hm hlt) _ _ hk hk' he

/-- The axes of a capsule. -/
def capsuleAxes (v : ℝ × ℝ × ℝ) : Vector3 ℝ := ⟨v.2.1, -v.1, v.2.2⟩

theorem capsuleAxes_injective : capsuleAxes.Injective := by
  rintro ⟨a, b, h⟩ ⟨a', b', h'⟩ he
  simp only [capsuleAxes, Vector3.mk.injEq, neg_inj] at he
  obtain ⟨rfl, rfl, rfl⟩ := he
  rfl

theorem position_topVertex (R H : ℝ) (n rings j i : Nat) :
    (topVertex R H n rings j i).position =
      capsuleAxes (R * Real.sin (Real.pi / 2 * (j / (rings + 1 : ℕ))) * Real.cos (angle n i),
        R * Real.sin (Real.pi / 2 * (j / (rings + 1 : ℕ))) * Real.sin (angle n i),
        R * Real.cos (Real.pi / 2 * (j / (rings + 1 : ℕ))) + H / 2) := by
  have hposition : (topVertex R H n rings j i).position =
      ⟨Real.sin (turned (((i : ℚ) : ℝ) / ((n : ℚ) : ℝ))) * R *
          Real.sin (((1 / 2 : ℚ) : ℝ) * Real.pi * (((j : ℚ) : ℝ) / (((rings : ℚ) + 1 : ℚ) : ℝ))) + 0,
        -Real.cos (turned (((i : ℚ) : ℝ) / ((n : ℚ) : ℝ))) * R *
          Real.sin (((1 / 2 : ℚ) : ℝ) * Real.pi * (((j : ℚ) : ℝ) / (((rings : ℚ) + 1 : ℚ) : ℝ))) + 0,
        R * Real.cos (((1 / 2 : ℚ) : ℝ) * Real.pi * (((j : ℚ) : ℝ) / (((rings : ℚ) + 1 : ℚ) : ℝ))) +
          ((1 / 2 : ℚ) : ℝ) * H⟩ := rfl
  have hv : ((1 / 2 : ℚ) : ℝ) * Real.pi * ((j : ℝ) / (((rings : ℚ) + 1 : ℚ) : ℝ)) =
      Real.pi / 2 * (j / (rings + 1 : ℕ)) := by
    push_cast
    ring
  rw [hposition]
  simp only [Rat.cast_natCast, turned_real]
  rw [hv, capsuleAxes, Vector3.mk.injEq]
  exact ⟨by ring, by ring, by push_cast; ring⟩

theorem position_middleVertex (R H : ℝ) (n rings j i : Nat) :
    (middleVertex R H n rings j i).position =
      capsuleAxes (R * Real.cos (angle n i), R * Real.sin (angle n i), H / 2 - H * (j / (rings + 1 : ℕ))) := by
  have hposition : (middleVertex R H n rings j i).position =
      ⟨Real.sin (turned (((i : ℚ) : ℝ) / ((n : ℚ) : ℝ))) * R, -Real.cos (turned (((i : ℚ) : ℝ) / ((n : ℚ) : ℝ))) * R,
        H * ((1 / 2 : ℚ) : ℝ) - H * (((j : ℚ) : ℝ) / (((rings : ℚ) + 1 : ℚ) : ℝ))⟩ := rfl
  rw [hposition]
  simp only [Rat.cast_natCast, turned_real]
  rw [capsuleAxes, Vector3.mk.injEq]
  exact ⟨by ring, by ring, by push_cast; ring⟩

theorem position_bottomVertex (R H : ℝ) (n rings j i : Nat) :
    (bottomVertex R H n rings j i).position =
      capsuleAxes (R * Real.sin (Real.pi / 2 * (j / (rings + 1 : ℕ) + 1)) * Real.cos (angle n i),
        R * Real.sin (Real.pi / 2 * (j / (rings + 1 : ℕ) + 1)) * Real.sin (angle n i),
        R * Real.cos (Real.pi / 2 * (j / (rings + 1 : ℕ) + 1)) - H / 2) := by
  have hposition : (bottomVertex R H n rings j i).position =
      ⟨Real.sin (turned (((i : ℚ) : ℝ) / ((n : ℚ) : ℝ))) * R *
          Real.sin (((1 / 2 : ℚ) : ℝ) * Real.pi * (((j : ℚ) : ℝ) / (((rings : ℚ) + 1 : ℚ) : ℝ) + 1)) + 0,
        -Real.cos (turned (((i : ℚ) : ℝ) / ((n : ℚ) : ℝ))) * R *
          Real.sin (((1 / 2 : ℚ) : ℝ) * Real.pi * (((j : ℚ) : ℝ) / (((rings : ℚ) + 1 : ℚ) : ℝ) + 1)) + 0,
        R * Real.cos (((1 / 2 : ℚ) : ℝ) * Real.pi * (((j : ℚ) : ℝ) / (((rings : ℚ) + 1 : ℚ) : ℝ) + 1)) +
          -((1 / 2 : ℚ) : ℝ) * H⟩ := rfl
  have hv : ((1 / 2 : ℚ) : ℝ) * Real.pi * ((j : ℝ) / (((rings : ℚ) + 1 : ℚ) : ℝ) + 1) =
      Real.pi / 2 * (j / (rings + 1 : ℕ) + 1) := by
    push_cast
    ring
  rw [hposition]
  simp only [Rat.cast_natCast, turned_real]
  rw [hv, capsuleAxes, Vector3.mk.injEq]
  exact ⟨by ring, by ring, by push_cast; ring⟩

section Places

variable (hR : 0 < R) (hH : 0 < H)

theorem capsuleProfile_place (hm : 0 < m) (hn : 0 < n) (k i : Nat) :
    capsuleAxes ((capsuleProfile hR hH hm).place (corner (3 * m) k (i : ZMod n))) =
      capsuleAxes ((capsuleRow R H m k).1 * Real.cos (angle n i), (capsuleRow R H m k).1 * Real.sin (angle n i),
        (capsuleRow R H m k).2) := by
  rw [Profile.place_corner _ hn]
  rfl

/-- The vertices of the parts are on the rows of the barrel, neighbours on the one they share. -/
theorem place_createCapsule (hn : 0 < n) {part j i : Nat} (hpart : part < 3) (hj : j ≤ rings + 1) (hi : i ≤ n) :
    (createCapsule R H n rings).place (part * partSize n rings + j * (n + 1) + i) =
      some (capsuleAxes ((capsuleProfile hR hH (Nat.succ_pos rings)).place
        (corner (3 * (rings + 1)) (part * (rings + 1) + j) (i : ZMod n)))) := by
  have hm : 0 < rings + 1 := Nat.succ_pos rings
  have hm' : ((rings + 1 : ℕ) : ℝ) ≠ 0 := Nat.cast_ne_zero.mpr hm.ne'
  have hvertices : (createCapsule R H n rings).vertices = capsuleVertices R H n rings := by
    rw [createCapsule_eq]
    rfl
  rw [Mesh.place, hvertices, capsuleProfile_place hR hH _ hn, capsuleVertices]
  obtain rfl | rfl | rfl : part = 0 ∨ part = 1 ∨ part = 2 := by omega
  · have hvertex := @getElem?_part _ (topVertex R H n rings) n rings []
      (partVertices (middleVertex R H n rings) n rings ++ partVertices (bottomVertex R H n rings) n rings) _ _ _
      List.length_nil hj hi
    rw [Nat.zero_mul, List.append_assoc, ← List.nil_append (partVertices (topVertex R H n rings) n rings ++ _), hvertex,
      Option.map_some, position_topVertex, Nat.zero_mul, Nat.zero_add, capsuleRow_top hj]
  · have hvertex := @getElem?_part _ (middleVertex R H n rings) n rings _ (partVertices (bottomVertex R H n rings) n rings)
      _ _ _ (length_partVertices (topVertex R H n rings) n rings) hj hi
    have hrow : (((1 * (rings + 1) + j : ℕ) : ℝ) - (rings + 1 : ℕ)) / (rings + 1 : ℕ) = j / (rings + 1 : ℕ) := by
      push_cast
      ring
    rw [Nat.one_mul, List.append_assoc, hvertex, Option.map_some, position_middleVertex,
      capsuleRow_middle hm (by omega) (by omega), hrow]
  · have hlength : (partVertices (topVertex R H n rings) n rings ++ partVertices (middleVertex R H n rings) n rings).length =
        2 * partSize n rings := by
      rw [List.length_append, length_partVertices, length_partVertices, Nat.two_mul]
    have hvertex := @getElem?_part _ (bottomVertex R H n rings) n rings _ [] _ _ _ hlength hj hi
    have hrow : (((2 * (rings + 1) + j : ℕ) : ℝ) - 2 * (rings + 1 : ℕ)) / (rings + 1 : ℕ) = j / (rings + 1 : ℕ) := by
      push_cast
      ring
    rw [List.append_nil] at hvertex
    rw [hvertex, Option.map_some, position_bottomVertex, capsuleRow_bottom hm (by omega), hrow]

/-- A capsule as a barrel. -/
def capsuleBarrel (n rings : Nat) : List (Triangle (Point n)) :=
  (List.range (3 * (rings + 1))).flatMap (turnedBand (3 * (rings + 1)) n)

theorem capsuleBarrel_eq (n rings : Nat) : capsuleBarrel n rings =
    ((List.range (rings + 1)).flatMap fun j => turnedBand (3 * (rings + 1)) n (0 * (rings + 1) + j)) ++
      ((List.range (rings + 1)).flatMap fun j => turnedBand (3 * (rings + 1)) n (1 * (rings + 1) + j)) ++
        ((List.range (rings + 1)).flatMap fun j => turnedBand (3 * (rings + 1)) n (2 * (rings + 1) + j)) := by
  have hsplit : 3 * (rings + 1) = (rings + 1) + (rings + 1) + (rings + 1) := by omega
  rw [capsuleBarrel, hsplit, List.range_add, List.range_add, ← hsplit]
  simp [List.flatMap_append, List.flatMap_map, Nat.two_mul]

/-- The parts are drawn one after the other as the bands of the barrel are. -/
theorem capsuleTriangles_places (hn : 0 < n) :
    (capsuleTriangles n rings).map (Triangle.map (createCapsule R H n rings).place) =
      (capsuleBarrel n rings).map (Triangle.map fun x =>
        some (capsuleAxes ((capsuleProfile hR hH (Nat.succ_pos rings)).place x))) := by
  have hparts : capsuleTriangles n rings = rowTriangles (0 * partSize n rings) n rings ++
      rowTriangles (1 * partSize n rings) n rings ++ rowTriangles (2 * partSize n rings) n rings := by
    rw [Nat.zero_mul, Nat.one_mul, Nat.two_mul]
    rfl
  have hpart : ∀ part < 3, (rowTriangles (part * partSize n rings) n rings).map
      (Triangle.map (createCapsule R H n rings).place) =
        ((List.range (rings + 1)).flatMap fun j => turnedBand (3 * (rings + 1)) n (part * (rings + 1) + j)).map
          (Triangle.map fun x => some (capsuleAxes ((capsuleProfile hR hH (Nat.succ_pos rings)).place x))) :=
    fun part hlt => map_rowTriangles fun j hj i hi => place_createCapsule hR hH hn hlt hj hi
  rw [hparts, capsuleBarrel_eq, List.map_append, List.map_append, List.map_append, List.map_append, hpart 0 (by decide),
    hpart 1 (by decide), hpart 2 (by decide)]

theorem watertight_createCapsule (hR : 0 < R) (hH : 0 < H) (hn : 3 ≤ n) :
    (createCapsule R H n rings).Watertight := by
  have hindices : (createCapsule R H n rings).indices = (capsuleTriangles n rings).flatMap Triangle.corners := by
    rw [createCapsule_eq]
    rfl
  apply watertight_of_sides (capsuleProfile hR hH (Nat.succ_pos rings)) hn (by omega) capsuleAxes_injective hindices
    (capsuleTriangles_places hR hH (by omega))
  · intro t ht
    obtain ⟨k, hk, ht⟩ := List.mem_flatMap.mp ht
    exact fun x hx => corners_turnedBand (List.mem_range.mp hk) ht hx
  · rw [capsuleBarrel, barrel, sides_flatMap, sides_flatMap]
    exact List.Perm.flatMap_left _ fun k _ => sides_turnedBand _ n k

end Places

end Lumos.Graphics.MeshFactory
