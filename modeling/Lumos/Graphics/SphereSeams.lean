import Lumos.Graphics.CapsuleSurface
import Lumos.Graphics.CylinderSurface
import Lumos.Graphics.SphereSurface

/-!
# Which meshes are closed

Where the rows have the length that the indices count on, a sphere is a barrel, of which bands
may be missing at the bottom. Where they are longer, its top is open. Capsules and cylinders
count in whole numbers, and are always closed.
-/
namespace Lumos.Graphics.MeshFactory

open Library.ClosedSurface Library.Barrel Library.Revolution Library.FloatRounding

variable {c s e d e' b : Nat}

/-! ## Rows of the right length -/

theorem spherePoint_row {i j : Nat} (hj : j ≤ c) : spherePoint c 0 s (i * (c + 1) + j) = corner s i (j : ZMod c) := by
  obtain ⟨hdiv, hmod⟩ : (i * (c + 1) + j) / (c + 1) = i ∧ (i * (c + 1) + j) % (c + 1) = j :=
    (Nat.div_mod_unique (Nat.succ_pos c)).mpr ⟨by rw [Nat.mul_comm, Nat.add_comm], by omega⟩
  rw [spherePoint, Nat.add_zero, hdiv, hmod]

/-- The kinds of directed edges in a band: those of the second triangles are left out of the last
one, and of all that the test takes for the last one. -/
def sphereKinds (s k : Nat) : List Kind :=
  (if k = 0 then [] else [.down, .rise, .back]) ++
    (if k + 1 = s ∨ toFloat k = toFloat (s - 1) then [] else [.fall, .along, .up])

theorem sides_sphereCell (hc : 3 ≤ c) {i j : Nat} (hi : i < s) (hj : j < c) :
    sides ((sphereCell c s i j).map (Triangle.map (spherePoint c 0 s))) =
      (sphereKinds s i).map fun kind => Slot.side s ⟨i, (j : ZMod c), kind⟩ := by
  have hbelow : i * (c + 1) + c + 1 = (i + 1) * (c + 1) := by rw [Nat.add_one_mul, Nat.add_assoc]
  have hfirst : Triangle.map (spherePoint c 0 s)
      ⟨i * (c + 1) + j, i * (c + 1) + c + 1 + j, i * (c + 1) + j + 1⟩ = first s i (j : ZMod c) := by
    rw [Triangle.map, hbelow, Nat.add_assoc _ j 1, spherePoint_row hj.le, spherePoint_row hj.le, spherePoint_row hj,
      Nat.cast_add_one]
    rfl
  have hsecond : Triangle.map (spherePoint c 0 s)
      ⟨i * (c + 1) + j + 1, i * (c + 1) + c + 1 + j, i * (c + 1) + c + 1 + j + 1⟩ = second s i (j : ZMod c) := by
    rw [Triangle.map, hbelow, Nat.add_assoc _ j 1, Nat.add_assoc _ j 1, spherePoint_row hj, spherePoint_row hj.le,
      spherePoint_row hj, Nat.cast_add_one]
    rfl
  have habove : sides ((if i ≠ 0 then [(⟨i * (c + 1) + j, i * (c + 1) + c + 1 + j, i * (c + 1) + j + 1⟩ : Triangle Nat)]
      else []).map (Triangle.map (spherePoint c 0 s))) =
        (if i = 0 then [] else [Kind.down, .rise, .back]).map fun kind => Slot.side s ⟨i, (j : ZMod c), kind⟩ := by
    by_cases htop : i = 0
    · simp [htop]
    · rw [if_pos htop, List.map_singleton, hfirst, sides_first hc hi]
  have hlast : sides ((if toFloat i ≠ toFloat (s - 1) then
      [(⟨i * (c + 1) + j + 1, i * (c + 1) + c + 1 + j, i * (c + 1) + c + 1 + j + 1⟩ : Triangle Nat)]
      else []).map (Triangle.map (spherePoint c 0 s))) =
        (if i + 1 = s ∨ toFloat i = toFloat (s - 1) then [] else [Kind.fall, .along, .up]).map
          fun kind => Slot.side s ⟨i, (j : ZMod c), kind⟩ := by
    by_cases hsame : toFloat i = toFloat (s - 1)
    · simp [hsame]
    · have hnot : i + 1 ≠ s := by
        rintro rfl
        exact hsame rfl
      rw [if_pos hsame, List.map_singleton, hsecond, sides_second hc, if_neg hnot, if_neg fun h => h.elim hnot hsame]
  rw [sphereCell, List.map_append, sides_append, habove, hlast, ← List.map_append]
  rfl

theorem sides_sphereSurface (hc : 3 ≤ c) (hx : Turns c 0 c) (hy : Turns s e' b) :
    sides (sphereSurface c 0 s) = (slots (sphereKinds s) b c).map (Slot.side s) := by
  rw [sphereSurface, sphereTriangles, hx.cells, hy.cells, List.map_flatMap, sides_flatMap, slots, List.map_flatMap]
  apply List.flatMap_congr
  intro i hi
  rw [List.map_flatMap, sides_flatMap, columns, List.flatMap_map, List.map_flatMap]
  apply List.flatMap_congr
  intro j hj
  have hband := hy.cells_le
  rw [List.mem_range] at hi hj
  rw [sides_sphereCell hc (by omega) hj, List.map_map]
  rfl

theorem nodup_sphereKinds (s k : Nat) : (sphereKinds s k).Nodup := by
  rw [sphereKinds]
  split <;> split <;> simp

theorem mem_sphereKinds {k : Nat} {kind : Kind} : kind ∈ sphereKinds s k ↔
    kind ∈ Slot.kinds s k ∧ (kind ∈ [Kind.fall, .along, .up] → toFloat k ≠ toFloat (s - 1)) := by
  by_cases hlast : k + 1 = s <;> by_cases hsame : toFloat k = toFloat (s - 1) <;> by_cases htop : k = 0 <;>
    cases kind <;> simp [sphereKinds, Slot.kinds, hlast, hsame, htop]

theorem mem_sphereSlots (hc : 0 < c) {k : Nat} {col : ZMod c} {kind : Kind} :
    (⟨k, col, kind⟩ : Slot c) ∈ slots (sphereKinds s) b c ↔
      k < b ∧ kind ∈ Slot.kinds s k ∧ (kind ∈ [Kind.fall, .along, .up] → toFloat k ≠ toFloat (s - 1)) := by
  rw [mem_slots hc, mem_sphereKinds]

theorem valid_of_mem_slots (hc : 0 < c) (hb : b ≤ s) {σ : Slot c} (h : σ ∈ slots (sphereKinds s) b c) : σ.Valid s := by
  obtain ⟨hband, hkind⟩ := (mem_slots hc).mp h
  exact ⟨by omega, (mem_sphereKinds.mp hkind).1⟩

/-- A row that is drawn from one side only is a seam. -/
theorem closed_sphereSurface_iff (hc : 3 ≤ c) (hs : 2 ≤ s) (hx : Turns c 0 c) (hy : Turns s e' b) :
    Closed (sphereSurface c 0 s) ↔ toFloat (s - 2) < toFloat (s - 1) ∧ toFloat (s - 1) < s := by
  have hc' : 0 < c := by omega
  have hvalid : ∀ σ ∈ slots (sphereKinds s) b c, σ.Valid s := fun σ => valid_of_mem_slots hc' hy.cells_le
  rw [closed_iff_reverse hc hs hvalid (nodup_slots (nodup_sphereKinds s) b c) (sides_sphereSurface hc hx hy)]
  have hbpos := hy.pos
  have hble := hy.cells_le
  constructor
  · intro h
    have hlast : toFloat (s - 1) < s := by
      by_contra hnot
      have hlt : b < s := by
        by_contra hge
        exact hnot (hy.early (s - 1) (by omega))
      have hearly := hy.early (b - 1) (by omega)
      have hmem : (⟨b - 1, 0, .along⟩ : Slot c) ∈ slots (sphereKinds s) b c :=
        (mem_sphereSlots hc').mpr ⟨by omega, Slot.mem_kinds.mpr (by omega), fun _ => by omega⟩
      have hrev := ((mem_slots hc').mp (h _ hmem)).1
      exact absurd hrev (by simp [Slot.reverse]; omega)
    refine ⟨?_, hlast⟩
    by_contra hnot
    have hsame : toFloat (s - 2) = toFloat (s - 1) := le_antisymm (toFloat_mono (by omega)) (not_lt.mp hnot)
    have hall : b = s := by
      by_contra hne
      have hle := hy.reached.trans (toFloat_mono (by omega : b ≤ s - 1))
      omega
    have hthree : 3 ≤ s := by
      by_contra htwo
      obtain rfl : s = 2 := by omega
      exact absurd hsame (by decide)
    have hmem : (⟨s - 1, 0, .back⟩ : Slot c) ∈ slots (sphereKinds s) b c :=
      (mem_sphereSlots hc').mpr ⟨by omega, Slot.mem_kinds.mpr (by omega), fun hkind => by simp at hkind⟩
    have hrev := (mem_sphereKinds.mp ((mem_slots hc').mp (h _ hmem)).2).2 (by simp [Slot.reverse])
    have htwo : s - 1 - 1 = s - 2 := by omega
    exact hrev (by rw [Slot.reverse, htwo, hsame])
  · rintro ⟨hbefore, hlast⟩
    have hall : b = s := by
      by_contra hne
      have hle := hy.reached.trans (toFloat_mono (by omega : b ≤ s - 1))
      omega
    have hiff : ∀ σ : Slot c, σ ∈ slots (sphereKinds s) b c ↔ σ ∈ slots (Slot.kinds s) s c := by
      intro σ
      rw [mem_slots hc', mem_slots hc', hall, mem_sphereKinds]
      refine and_congr_right fun hband => and_iff_left_of_imp fun hkind hsecond => ?_
      have hnot : σ.band + 1 ≠ s := by
        intro hbottom
        simp only [List.mem_cons, List.not_mem_nil, or_false] at hsecond
        rw [Slot.mem_kinds] at hkind
        rcases hsecond with hsecond | hsecond | hsecond <;> rw [hsecond] at hkind <;> exact hkind hbottom
      have hle := toFloat_mono (by omega : σ.band ≤ s - 2)
      omega
    exact fun σ hσ => (hiff _).mpr (reverse_mem_slots hc' hs ((hiff σ).mp hσ))

/-! ## Rows that are too long -/

theorem spherePoint_top (k : Nat) (hk : k < c + 1 + e) : spherePoint c e s k = (0, 0) := by
  rw [spherePoint, Nat.div_eq_of_lt hk, corner_top]

theorem row_of_top {k : Nat} (h : spherePoint c e s k = (0, 0)) : k < c + 1 + e := by
  have hrow := congrArg Prod.fst h
  rw [spherePoint, fst_corner] at hrow
  exact (Nat.div_eq_zero_iff_lt (by omega)).mp hrow

theorem spherePoint_second (hs : 2 ≤ s) {k : Nat} (hk : k < c + 1 + e) :
    spherePoint c e s (c + 1 + e + k) = (1, (k : ZMod c)) := by
  rw [spherePoint, Nat.add_div_left _ (by omega), Nat.add_mod_left, Nat.div_eq_of_lt hk, Nat.mod_eq_of_lt hk,
    corner_middle (by omega) (by omega)]

/-- A point of the second row is at one or two positions. -/
theorem position_of_second (hs : 2 ≤ s) (he : e < c) {k col : Nat} (hcol : col < c)
    (h : spherePoint c e s k = (1, (col : ZMod c))) : k = c + 1 + e + col ∨ k = c + 1 + e + c + col := by
  have hrow := congrArg Prod.fst h
  rw [spherePoint, fst_corner] at hrow
  have hk := Nat.div_add_mod' k (c + 1 + e)
  have hlt := Nat.mod_lt k (by omega : 0 < c + 1 + e)
  rw [hrow, Nat.one_mul] at hk
  rw [← hk, spherePoint_second hs hlt, Prod.mk.injEq] at h
  have hmod := (ZMod.natCast_eq_natCast_iff' _ _ _).mp h.2
  rw [Nat.mod_eq_of_lt hcol] at hmod
  rcases Nat.lt_or_ge (k % (c + 1 + e)) c with hsmall | hlarge
  · rw [Nat.mod_eq_of_lt hsmall] at hmod
    omega
  · rw [Nat.mod_eq_sub_mod hlarge, Nat.mod_eq_of_lt (by omega)] at hmod
    omega

/-- The last triangle at the top has no neighbour. -/
theorem not_closed_sphereSurface (hs : 2 ≤ s) (hx : Turns c e d) (hy : Turns s e' b) (he : 0 < e) :
    ¬ Closed (sphereSurface c e s) := by
  have hlate := hx.late_lt
  have hle := hx.cells_le
  have hcell : (⟨d, c + d, c + d + 1⟩ : Triangle Nat) ∈ sphereTriangles c s := by
    refine (mem_sphereTriangles hx hy).mpr ⟨0, hy.pos, d - 1, by omega, mem_sphereCell.mpr (Or.inr ⟨?_, ?_⟩)⟩
    · have hone : toFloat 1 ≤ toFloat (s - 1) := toFloat_mono (by omega)
      have hzero : toFloat 0 < toFloat 1 := by decide
      omega
    · rw [Triangle.mk.injEq]
      omega
  have hmap : Triangle.map (spherePoint c e s) ⟨d, c + d, c + d + 1⟩ =
      ⟨(0, 0), (1, ((d - 1 - e : ℕ) : ZMod c)), (1, ((d - e : ℕ) : ZMod c))⟩ := by
    have hsecond : c + d = c + 1 + e + (d - 1 - e) := by omega
    have hthird : c + d + 1 = c + 1 + e + (d - e) := by omega
    rw [Triangle.map, spherePoint_top d (by omega), hthird, spherePoint_second hs (by omega), hsecond,
      spherePoint_second hs (by omega)]
  have hproper : (Triangle.map (spherePoint c e s) ⟨d, c + d, c + d + 1⟩).Proper := by
    rw [hmap]
    refine ⟨by simp, fun hbc => ?_, by simp⟩
    have hmod := (ZMod.natCast_eq_natCast_iff' _ _ _).mp (congrArg Prod.snd hbc)
    rw [Nat.mod_eq_of_lt (by omega), Nat.mod_eq_of_lt (by omega)] at hmod
    omega
  have hside : (((1, ((d - e : ℕ) : ZMod c)), (0, 0)) : Point c × Point c) ∈ sides (sphereSurface c e s) := by
    refine mem_sides.mpr ⟨_, List.mem_map_of_mem hcell, hproper, ?_⟩
    rw [hmap]
    simp [Triangle.sides]
  apply not_closed hside
  intro hswap
  obtain ⟨t, ht, -, hmem⟩ := mem_sides.mp hswap
  obtain ⟨t', ht', rfl⟩ := List.mem_map.mp ht
  rw [Triangle.sides_map] at hmem
  obtain ⟨⟨p, q⟩, hpq, hpoints⟩ := List.mem_map.mp hmem
  obtain ⟨hp, hq⟩ := Prod.mk.inj hpoints
  have hp' := row_of_top hp
  have hq' := position_of_second hs (by omega) (by omega : d - e < c) hq
  obtain ⟨i, -, j, hj, hcell'⟩ := (mem_sphereTriangles hx hy).mp ht'
  -- the first cells of the next band come too late, whichever side is looked at
  have hrow : i = 0 ∧ i * (c + 1) = 0 ∨ c + 1 ≤ i * (c + 1) := by
    rcases Nat.eq_zero_or_pos i with rfl | hpos
    · exact Or.inl ⟨rfl, Nat.zero_mul _⟩
    · exact Or.inr (Nat.le_mul_of_pos_left _ hpos)
  rcases mem_sphereCell.mp hcell' with ⟨-, rfl⟩ | ⟨-, rfl⟩ <;>
    simp only [Triangle.sides, List.mem_cons, Prod.mk.injEq, List.not_mem_nil, or_false] at hpq <;> omega

/-! ## All spheres -/

theorem length_vertices_createSphere_le {x y : Nat} (hx : 0 < toFloat x) (hy : 0 < toFloat y) :
    (createSphere x y : Mesh ℝ).vertices.length ≤ 2 * toFloat y * (2 * toFloat x) := by
  have hfix : ∀ n, toFloat (toFloat n) = toFloat n := round_round (by decide)
  obtain ⟨e, d, hx'⟩ := exists_turns hx (hfix x)
  obtain ⟨e', b, hy'⟩ := exists_turns hy (hfix y)
  have hcells := hx'.cells_le
  have hlate := hx'.late_lt
  have hcells' := hy'.cells_le
  have hlate' := hy'.late_lt
  rw [createSphere_eq]
  calc (sphereVertices (toFloat x) (toFloat y) : List (Vertex ℝ)).length
      = (toFloat y + 1 + e') * (toFloat x + 1 + e) := length_sphereVertices hx' hy'
    _ ≤ 2 * toFloat y * (2 * toFloat x) := Nat.mul_le_mul (by omega) (by omega)

theorem watertight_createSphere_iff_lt {x y : Nat} (hx : 3 ≤ x) (hy : 2 ≤ y)
    (hfits : (createSphere x y : Mesh ℝ).vertices.length ≤ 2 ^ 32) : (createSphere x y : Mesh ℝ).Watertight ↔
      (x < 2 ^ 24 ∨ (2 ^ 24 < x ∧ x < 2 ^ 25 ∧ x % 4 = 2)) ∧ y ≤ 2 ^ 24 + 1 := by
  have hc : 3 ≤ toFloat x := (by decide : toFloat 3 = 3) ▸ toFloat_mono hx
  have hs : 2 ≤ toFloat y := (by decide : toFloat 2 = 2) ▸ toFloat_mono hy
  have hfix : ∀ n, toFloat (toFloat n) = toFloat n := round_round (by decide)
  obtain ⟨e, d, hx'⟩ := exists_turns (by omega) (hfix x)
  obtain ⟨e', b, hy'⟩ := exists_turns (by omega) (hfix y)
  have hcolumns : toFloat x < toFloat (toFloat x + 1) ↔ x < 2 ^ 24 ∨ (2 ^ 24 < x ∧ x < 2 ^ 25 ∧ x % 4 = 2) :=
    lt_round_add_one_iff (by decide) x
  have hrows : (toFloat (toFloat y - 2) < toFloat (toFloat y - 1) ∧ toFloat (toFloat y - 1) < toFloat y) ↔
      y ≤ 2 ^ 24 + 1 := round_sub_lt_iff (by decide) hy
  rw [watertight_createSphere_iff hx' hy' (by omega) (by omega) hfits, ← hcolumns, ← hrows]
  have hlate := hx'.late_eq_zero_iff
  rcases Nat.eq_zero_or_pos e with rfl | hpos
  · obtain rfl := hx'.cells_eq (hfix x)
    rw [and_iff_right (hlate.mp rfl)]
    exact closed_sphereSurface_iff hc hs hx' hy'
  · apply iff_of_false (not_closed_sphereSurface hs hx' hy' hpos)
    rintro ⟨hlt, -⟩
    exact hpos.ne' (hlate.mpr hlt)

end Lumos.Graphics.MeshFactory
