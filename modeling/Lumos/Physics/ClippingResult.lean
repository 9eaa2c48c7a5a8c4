import Lumos.Maths.ExactArithmetic
import Lumos.Physics.PolygonClipping

/-!
# What is left of a clipped polygon

The array that is clipped last is the local one after an odd number of planes. The caller's own
array then has the polygon as it was before the last plane.
-/
namespace Lumos.Physics.CollisionDetection

open Maths FloatArithmetic ClosedPolygon DoubleBuffer

section First

variable {α : Type}

/-- The first ones are those that pass a test exactly where none of the others stands before
one of them. -/
theorem take_countP_iff (p : α → Bool) (polygon : List α) :
    (polygon.Pairwise fun v w => p w = true → p v = true) ↔ ∀ v ∈ polygon.take (polygon.countP p), p v = true := by
  induction polygon with
  | nil => simp
  | cons v rest ih =>
    rw [List.pairwise_cons]
    cases hv : p v with
    | false =>
      rw [List.countP_cons_of_neg (by simp [hv])]
      constructor
      · rintro ⟨hnone, -⟩
        have hzero : rest.countP p = 0 := List.countP_eq_zero.mpr fun w hw hpw => by simpa using hnone w hw hpw
        simp [hzero]
      · intro hall
        have hzero : rest.countP p = 0 := by
          by_contra hpos
          obtain ⟨n, hn⟩ := Nat.exists_eq_succ_of_ne_zero hpos
          rw [hn] at hall
          simpa [hv] using hall v List.mem_cons_self
        have hnone := List.countP_eq_zero.mp hzero
        refine ⟨fun w hw hpw => absurd hpw (hnone w hw), ih.mpr ?_⟩
        simp [hzero]
    | true =>
      rw [List.countP_cons_of_pos hv, List.take_succ_cons, List.forall_mem_cons, ih]
      simp [hv]

theorem filter_eq_take {p : α → Bool} {polygon : List α}
    (h : ∀ v ∈ polygon.take (polygon.countP p), p v = true) : polygon.filter p = polygon.take (polygon.countP p) := by
  have hkept := List.filter_eq_self.mpr h
  have hsublist := (List.take_sublist (polygon.countP p) polygon).filter p
  rw [hkept] at hsublist
  refine (hsublist.eq_of_length ?_).symm
  rw [← List.countP_eq_length_filter, List.length_take, Nat.min_eq_left List.countP_le_length]

theorem take_of_take_length {array polygon : List α} (harray : array.take polygon.length = polygon) {n : Nat}
    (hn : n ≤ polygon.length) : array.take n = polygon.take n := by
  conv_rhs => rw [← harray, List.take_take, Nat.min_eq_left hn]

end First

section Lands

variable {K : Type} [FloatArithmetic K]

/-- The entries are the polygon clipped by the planes. -/
structure Clipped (planes : List (Plane K)) (polygon entries : List (Vector3 K)) : Prop where
  inPlanes : ∀ v ∈ entries, ∀ plane ∈ planes, plane.pointInPlane v = true
  kept : ∀ v ∈ polygon, (∀ plane ∈ planes, plane.pointInPlane v = true) → v ∈ entries

/-- A plane leaves a polygon's vertices where they are: it takes away all or nothing or, where
points are removed, none that stand before one that is kept. -/
def LeavesInPlace (removePoints : Bool) (plane : Plane K) (polygon : List (Vector3 K)) : Prop :=
  if removePoints then polygon.Pairwise fun v w => plane.pointInPlane w = true → plane.pointInPlane v = true
  else (∀ v ∈ polygon, plane.pointInPlane v = true) ∨ ∀ v ∈ polygon, plane.pointInPlane v = false

/-- The number of planes used is even or the last of them leaves the vertices where they are. -/
def Lands (removePoints : Bool) (planes : List (Plane K)) (polygon : List (Vector3 K)) : Prop :=
  Even (clippedBy removePoints planes polygon).length ∨
    ∃ init last, clippedBy removePoints planes polygon = init ++ [last] ∧
      LeavesInPlace removePoints last (clipAll removePoints init polygon)

variable {removePoints : Bool} {planes : List (Plane K)} {plane : Plane K} {polygon array : List (Vector3 K)}

/-- The entries of an array that begins with the polygon the plane is given, as many as it
leaves. -/
theorem leavesInPlace_iff (harray : array.take polygon.length = polygon) :
    LeavesInPlace removePoints plane polygon ↔
      ∀ v ∈ array.take (clip removePoints plane polygon).length, plane.pointInPlane v = true := by
  cases removePoints with
  | true =>
    have hlength : (clip true plane polygon).length = polygon.countP plane.pointInPlane :=
      List.countP_eq_length_filter.symm
    rw [hlength, take_of_take_length harray List.countP_le_length]
    exact take_countP_iff plane.pointInPlane polygon
  | false =>
    have hlength := (cutBy plane).length_clip polygon
    constructor
    · rintro (hall | hnone) v hv
      · rw [clip, if_neg Bool.false_ne_true, (cutBy plane).clip_of_inside hall, harray] at hv
        exact hall v hv
      · rw [clip, if_neg Bool.false_ne_true, (cutBy plane).clip_of_outside hnone] at hv
        cases hv
    · intro hentries
      by_contra hcut
      obtain ⟨edge, hedge, hcrosses⟩ := (cutBy plane).exists_crosses hcut
      have hcrossings : 0 < (edges polygon).countP (cutBy plane).crosses :=
        List.countP_pos_iff.mpr ⟨edge, hedge, hcrosses⟩
      change ∀ v ∈ array.take ((cutBy plane).clip polygon).length, _ at hentries
      obtain hlt | hle := Nat.lt_or_ge polygon.length ((cutBy plane).clip polygon).length
      · -- all the vertices of the polygon are among the entries
        refine hcut (.inl fun v hv => hentries v ?_)
        rw [← harray] at hv
        exact List.take_subset_take_left array hlt.le hv
      · -- more entries than the polygon has vertices in the plane
        rw [take_of_take_length harray hle] at hentries
        have hcount := List.countP_eq_length.mpr hentries
        rw [List.length_take, Nat.min_eq_left hle] at hcount
        have hsublist : (polygon.take ((cutBy plane).clip polygon).length).countP plane.pointInPlane ≤
            polygon.countP (cutBy plane).inside := (List.take_sublist _ _).countP_le
        omega

/-- Where a plane leaves the vertices in place, the array has what it leaves. -/
theorem take_of_leavesInPlace (harray : array.take polygon.length = polygon)
    (h : LeavesInPlace removePoints plane polygon) :
    array.take (clip removePoints plane polygon).length = clip removePoints plane polygon := by
  cases removePoints with
  | true =>
    have hlength : (clip true plane polygon).length = polygon.countP plane.pointInPlane :=
      List.countP_eq_length_filter.symm
    rw [hlength, take_of_take_length harray List.countP_le_length]
    exact (filter_eq_take ((take_countP_iff plane.pointInPlane polygon).mp h)).symm
  | false =>
    rw [clip, if_neg Bool.false_ne_true]
    obtain hall | hnone := h
    · rw [(cutBy plane).clip_of_inside hall, harray]
    · rw [(cutBy plane).clip_of_outside hnone]
      rfl

/-- The array after the clipping, by the planes used. -/
theorem exists_clipped {input_polygon : List (Vector3 K)} {input_polygon_count output_polygon_count : Nat}
    (h : sutherlandHodgesonClipping input_polygon input_polygon_count planes removePoints =
      some (array, output_polygon_count)) :
    (Even (clippedBy removePoints planes (input_polygon.take input_polygon_count)).length →
      array.take output_polygon_count = clipAll removePoints planes (input_polygon.take input_polygon_count)) ∧
    ∀ {init last}, clippedBy removePoints planes (input_polygon.take input_polygon_count) = init ++ [last] →
      ¬ Even (clippedBy removePoints planes (input_polygon.take input_polygon_count)).length →
      array.take (clipAll removePoints init (input_polygon.take input_polygon_count)).length =
          clipAll removePoints init (input_polygon.take input_polygon_count) ∧
        clipAll removePoints planes (input_polygon.take input_polygon_count) =
          clip removePoints last (clipAll removePoints init (input_polygon.take input_polygon_count)) ∧
        output_polygon_count =
          (clipAll removePoints planes (input_polygon.take input_polygon_count)).length := by
  obtain ⟨clipped, hturns, hout⟩ := Option.bind_eq_some_iff.mp h
  obtain ⟨rfl, rfl⟩ := Prod.mk.inj (Option.some.inj hout)
  have hturned := turned_of_turns fills_clipPlane (clip_nil removePoints) hturns
  obtain ⟨heven, hodd⟩ := take_homeArray hturned rfl
  refine ⟨heven, fun {init last} hsplit hnot => ⟨hodd hsplit hnot, ?_, ?_⟩⟩
  · have hresult := result_performed (clip_nil removePoints) planes (input_polygon.take input_polygon_count)
    change result _ (clippedBy removePoints planes _) _ = _ at hresult
    rw [hsplit, result_append_singleton] at hresult
    exact hresult.symm
  · have hlength := congrArg List.length hturned.entries
    rw [List.length_take, Nat.min_eq_left (hturned.behind hsplit).1] at hlength
    exact hlength

/-- Where it lands the array has the clipped polygon. -/
theorem entries_of_lands {input_polygon : List (Vector3 K)} {input_polygon_count output_polygon_count : Nat}
    (h : sutherlandHodgesonClipping input_polygon input_polygon_count planes removePoints =
      some (array, output_polygon_count))
    (hlands : Lands removePoints planes (input_polygon.take input_polygon_count)) :
    array.take output_polygon_count = clipAll removePoints planes (input_polygon.take input_polygon_count) := by
  obtain ⟨heven, hodd⟩ := exists_clipped h
  by_cases hparity : Even (clippedBy removePoints planes (input_polygon.take input_polygon_count)).length
  · exact heven hparity
  · obtain ⟨init, last, hsplit, hplace⟩ := hlands.resolve_left hparity
    obtain ⟨harray, hlast, hcount⟩ := hodd hsplit hparity
    rw [hcount, hlast]
    exact take_of_leavesInPlace harray hplace

/-- It lands wherever every entry is in every plane. -/
theorem lands_of_inPlanes {input_polygon : List (Vector3 K)} {input_polygon_count output_polygon_count : Nat}
    (h : sutherlandHodgesonClipping input_polygon input_polygon_count planes removePoints =
      some (array, output_polygon_count))
    (hin : ∀ v ∈ array.take output_polygon_count, ∀ plane ∈ planes, plane.pointInPlane v = true) :
    Lands removePoints planes (input_polygon.take input_polygon_count) := by
  refine or_iff_not_imp_left.mpr fun hparity => ?_
  have hne : clippedBy removePoints planes (input_polygon.take input_polygon_count) ≠ [] := by
    intro hnil
    rw [hnil] at hparity
    exact hparity Even.zero
  obtain ⟨init, last, hsplit⟩ := (List.eq_nil_or_concat' _).resolve_left hne
  obtain ⟨harray, hlast, hcount⟩ := (exists_clipped h).2 hsplit hparity
  refine ⟨init, last, hsplit, (leavesInPlace_iff harray).mpr ?_⟩
  rw [← hlast, ← hcount]
  have hmem : last ∈ planes := by
    apply @mem_of_mem_performed _ _ (clip removePoints)
    change last ∈ clippedBy removePoints planes _
    rw [hsplit]
    exact List.mem_append_right _ (List.mem_singleton_self last)
  exact fun v hv => hin v hv last hmem

end Lands

/-! ## Cuts without rounding -/

section Cuts

/-- The distance from a plane, as the point of a cut is found by. It is that of `Distance` where
the normal has unit length. -/
noncomputable def aimedDistance (plane : Plane ℝ) (v : Vector3 ℝ) : ℝ :=
  plane.normal.dotProduct v + plane.d * plane.normal.lengthSquared

/-- The plane that is aimed for is that of the cut, and between the vertices that are kept and
dropped; or they are too close to be cut. -/
def CutsBetween (plane : Plane ℝ) (kept dropped : Vector3 ℝ) : Prop :=
  |plane.normal.dotProduct (dropped - kept)| ≤ epsilon ∨
    0 ≤ aimedDistance plane kept ∧ aimedDistance plane dropped ≤ 0 ∧
      -epsilon ≤ plane.d - plane.d * plane.normal.lengthSquared

/-- All the edges that are cut by one plane after the other are cut between their ends. -/
def CutsCleanly : List (Plane ℝ) → List (Vector3 ℝ) → Prop
  | [], _ => True
  | plane :: rest, polygon =>
    (∀ kept dropped, ((kept, dropped) ∈ edges polygon ∨ (dropped, kept) ∈ edges polygon) →
      plane.pointInPlane kept = true → plane.pointInPlane dropped = false → CutsBetween plane kept dropped) ∧
    CutsCleanly rest (clip false plane polygon)

variable {plane other : Plane ℝ} {planes : List (Plane ℝ)} {polygon : List (Vector3 ℝ)} {kept dropped : Vector3 ℝ}

theorem pointInPlane_iff (plane : Plane ℝ) (v : Vector3 ℝ) :
    plane.pointInPlane v = true ↔ -epsilon ≤ plane.normal.dotProduct v + plane.d := by
  have hsum : v.dotProduct plane.normal + plane.distance (Vector3.fill 0) = plane.normal.dotProduct v + plane.d := by
    simp only [Plane.distance, Vector3.dotProduct_real, Vector3.fill]
    ring
  rw [Plane.pointInPlane, le_real, hsum]

/-- Along an edge the distances change evenly. -/
theorem dotProduct_along (normal start endPoint : Vector3 ℝ) (t : ℝ) :
    normal.dotProduct (start + (endPoint - start) * t) =
      (1 - t) * normal.dotProduct start + t * normal.dotProduct endPoint := by
  simp only [Vector3.dotProduct_real, Vector3.add_x, Vector3.add_y, Vector3.add_z, Vector3.sub_x, Vector3.sub_y,
    Vector3.sub_z, Vector3.mul_x, Vector3.mul_y, Vector3.mul_z]
  ring

theorem dotProduct_edge (plane : Plane ℝ) (start endPoint : Vector3 ℝ) :
    plane.normal.dotProduct (endPoint - start) = aimedDistance plane endPoint - aimedDistance plane start := by
  simp only [aimedDistance, Vector3.dotProduct_real, Vector3.sub_x, Vector3.sub_y, Vector3.sub_z]
  ring

/-- The point of the cut, by the distances. -/
theorem planeEdgeIntersection_eq (hfar : epsilon < |plane.normal.dotProduct (dropped - kept)|) :
    planeEdgeIntersection plane kept dropped = kept + (dropped - kept) *
      (aimedDistance plane kept / (aimedDistance plane kept - aimedDistance plane dropped)) := by
  have haimed : plane.normal.dotProduct (kept - plane.normal * (-plane.distance (Vector3.fill 0))) =
      aimedDistance plane kept := by
    simp only [aimedDistance, Plane.distance, Vector3.dotProduct_real, Vector3.lengthSquared_real, Vector3.fill,
      Vector3.sub_x, Vector3.sub_y, Vector3.sub_z, Vector3.mul_x, Vector3.mul_y, Vector3.mul_z]
    ring
  have hlt : lt epsilon (fabs (plane.normal.dotProduct (dropped - kept))) = true := (lt_real _ _).mpr hfar
  have hfac : -aimedDistance plane kept / (aimedDistance plane dropped - aimedDistance plane kept) =
      aimedDistance plane kept / (aimedDistance plane kept - aimedDistance plane dropped) := by
    rw [← neg_sub (aimedDistance plane kept), neg_div_neg_eq]
  simp only [planeEdgeIntersection]
  rw [if_pos hlt, haimed, dotProduct_edge, hfac]

/-- A cut between the ends is within the planes that the ends are in, and in the plane itself. -/
theorem pointInPlane_cut (hcut : CutsBetween plane kept dropped) (hkept : other.pointInPlane kept = true)
    (hdropped : other = plane ∨ other.pointInPlane dropped = true) :
    other.pointInPlane (planeEdgeIntersection plane kept dropped) = true := by
  by_cases hfar : FloatArithmetic.epsilon < |plane.normal.dotProduct (dropped - kept)|
  · obtain ⟨haimed, hbeyond, hown⟩ := hcut.resolve_left (not_le.mpr hfar)
    have hpos : 0 < aimedDistance plane kept - aimedDistance plane dropped := by
      rw [dotProduct_edge, abs_sub_comm, abs_of_nonneg (by linarith), epsilon_real] at hfar
      linarith
    rw [planeEdgeIntersection_eq hfar, pointInPlane_iff, dotProduct_along]
    obtain ⟨t, ht⟩ : ∃ t, aimedDistance plane kept / (aimedDistance plane kept - aimedDistance plane dropped) = t :=
      ⟨_, rfl⟩
    rw [ht]
    obtain rfl | hdropped := hdropped
    · -- the point is on the plane that is aimed for
      rw [div_eq_iff hpos.ne'] at ht
      unfold aimedDistance at ht
      linarith
    · have ht0 : 0 ≤ t := ht ▸ div_nonneg haimed hpos.le
      have ht1 : t ≤ 1 := by
        rw [← ht, div_le_one hpos]
        linarith
      rw [pointInPlane_iff] at hkept hdropped
      nlinarith [mul_nonneg (sub_nonneg.mpr ht1) (sub_nonneg.mpr hkept), mul_nonneg ht0 (sub_nonneg.mpr hdropped)]
  · have hlt : ¬ lt epsilon (fabs (plane.normal.dotProduct (dropped - kept))) = true := (lt_real _ _).not.mpr hfar
    simp only [planeEdgeIntersection]
    rw [if_neg hlt]
    exact hkept

/-- Cut cleanly, the polygon is in the planes and where it was before. -/
theorem inPlanes_result {P : Vector3 ℝ → Prop} (hclean : CutsCleanly planes polygon) (hpolygon : ∀ v ∈ polygon, P v)
    (hP : ∀ plane kept dropped, CutsBetween plane kept dropped → P kept → P dropped →
      P (planeEdgeIntersection plane kept dropped)) :
    ∀ v ∈ clipAll false planes polygon, P v ∧ ∀ plane ∈ planes, plane.pointInPlane v = true := by
  induction planes generalizing polygon P with
  | nil => exact fun v hv => ⟨hpolygon v hv, fun plane hplane => absurd hplane List.not_mem_nil⟩
  | cons plane rest ih =>
    obtain ⟨hcuts, hrest⟩ := hclean
    have hclip : ∀ v ∈ clip false plane polygon, P v ∧ plane.pointInPlane v = true := by
      rw [clip, if_neg Bool.false_ne_true]
      apply Cut.forall_clip
      · exact fun v hv hin => ⟨hpolygon v hv, hin⟩
      · intro kept hkept dropped hdropped hedge hin hout
        have hcut := hcuts kept dropped hedge hin hout
        exact ⟨hP plane kept dropped hcut (hpolygon kept hkept) (hpolygon dropped hdropped),
          pointInPlane_cut hcut hin (.inl rfl)⟩
    intro v hv
    obtain ⟨⟨hv, hplane⟩, hothers⟩ := ih hrest hclip (fun other kept dropped hcut hkept hdropped =>
      ⟨hP other kept dropped hcut hkept.1 hdropped.1, pointInPlane_cut hcut hkept.2 (.inr hdropped.2)⟩) v hv
    exact ⟨hv, List.forall_mem_cons.mpr ⟨hplane, hothers⟩⟩

/-- Points are only removed where they are not in the plane. -/
theorem inPlanes_removed (planes : List (Plane ℝ)) (polygon : List (Vector3 ℝ)) :
    ∀ v ∈ clipAll true planes polygon, v ∈ polygon ∧ ∀ plane ∈ planes, plane.pointInPlane v = true := by
  induction planes generalizing polygon with
  | nil => exact fun v hv => ⟨hv, fun plane hplane => absurd hplane List.not_mem_nil⟩
  | cons plane rest ih =>
    intro v hv
    obtain ⟨hmem, hothers⟩ := ih _ v hv
    obtain ⟨hpolygon, hplane⟩ := List.mem_filter.mp hmem
    exact ⟨hpolygon, List.forall_mem_cons.mpr ⟨hplane, hothers⟩⟩

/-- The caller's array has the clipped polygon only where it lands there, and has it there if no
edge is cut beyond its ends. -/
theorem clipped_lands {input_polygon array : List (Vector3 ℝ)} {input_polygon_count output_polygon_count : Nat}
    {removePoints : Bool} (h : sutherlandHodgesonClipping input_polygon input_polygon_count planes removePoints =
      some (array, output_polygon_count)) :
    (Clipped planes (input_polygon.take input_polygon_count) (array.take output_polygon_count) →
      Lands removePoints planes (input_polygon.take input_polygon_count)) ∧
    (Lands removePoints planes (input_polygon.take input_polygon_count) →
      (removePoints = false → CutsCleanly planes (input_polygon.take input_polygon_count)) →
      Clipped planes (input_polygon.take input_polygon_count) (array.take output_polygon_count)) := by
  constructor
  · intro hclipped
    exact lands_of_inPlanes h hclipped.inPlanes
  · intro hlands hclean
    rw [entries_of_lands h hlands]
    constructor
    · cases removePoints with
      | false =>
        have hall := inPlanes_result (P := fun _ => True) (hclean rfl) (fun _ _ => trivial) fun _ _ _ _ _ _ => trivial
        exact fun v hv => (hall v hv).2
      | true => exact fun v hv => (inPlanes_removed planes _ v hv).2
    · exact fun v hv hin => mem_clipAll_of_pointInPlane hv hin

end Cuts

/-! ## A square -/

section Square

variable {K : Type} [FloatArithmetic K]

/-- An array with the corners of a square around the origin. -/
def squareArray : List (Vector3 K) := [⟨1, 1, 0⟩, ⟨-1, 1, 0⟩, ⟨-1, -1, 0⟩, ⟨1, -1, 0⟩, 0, 0, 0, 0]

/-- A plane through the origin. -/
def planeThrough (normal : Vector3 K) : Plane K := .ofDistance normal 0

theorem pointInPlane_square : ∀ v ∈ (squareArray (K := ℝ)).take 4, (planeThrough ⟨0, 0, 1⟩).pointInPlane v = true := by
  have hnormal : (⟨0, 0, 1⟩ : Vector3 ℝ).normalize = ⟨0, 0, 1⟩ := by
    apply Vector3.normalize_of_near
    simp [Vector3.lengthSquared_real]
  intro v hv
  rw [pointInPlane_iff, planeThrough, Plane.ofDistance, hnormal, epsilon_real]
  simp only [squareArray, List.take_succ_cons, List.take_zero, List.mem_cons, List.not_mem_nil, or_false] at hv
  obtain rfl | rfl | rfl | rfl := hv <;> norm_num [Vector3.dotProduct_real]

/-- The plane the square lies in takes nothing away from it. -/
theorem clipped_lands_square : ∃ array count,
    sutherlandHodgesonClipping squareArray 4 [planeThrough (K := ℝ) ⟨0, 0, 1⟩] false = some (array, count) ∧
      (Clipped [planeThrough ⟨0, 0, 1⟩] (squareArray.take 4) (array.take count) →
        Lands false [planeThrough (K := ℝ) ⟨0, 0, 1⟩] (squareArray.take 4)) := by
  have hclip : clip false (planeThrough (K := ℝ) ⟨0, 0, 1⟩) (squareArray.take 4) = squareArray.take 4 :=
    (cutBy _).clip_of_inside pointInPlane_square
  have hfits : Fits (clip false) 8 [planeThrough (K := ℝ) ⟨0, 0, 1⟩] (squareArray.take 4) := by
    rw [Fits, hclip]
    exact ⟨by decide, trivial⟩
  have hsome := (isSome_turns_iff (b := ⟨List.replicate 8 0, squareArray, 4, true⟩) fills_clipPlane (clip_nil false)
    rfl rfl (by decide)).mpr hfits
  obtain ⟨clipped, hclipped⟩ := Option.isSome_iff_exists.mp hsome
  have h : sutherlandHodgesonClipping squareArray 4 [planeThrough (K := ℝ) ⟨0, 0, 1⟩] false =
      some (clipped.homeArray, clipped.outputCount) := by
    rw [sutherlandHodgesonClipping, hclipped]
    rfl
  exact ⟨_, _, h, (clipped_lands h).1⟩

/-- Cut in half, the square is in its array as it was. -/
theorem square_not_clipped : ∃ array,
    sutherlandHodgesonClipping squareArray 4 [planeThrough (K := ℚ) ⟨1, 0, 0⟩] false = some (array, 4) ∧
      ¬ Clipped [planeThrough (K := ℚ) ⟨1, 0, 0⟩] (squareArray.take 4) (array.take 4) := by
  refine ⟨squareArray, by decide +kernel, fun hclipped => ?_⟩
  have hin := hclipped.inPlanes ⟨-1, 1, 0⟩ (by decide) _ (List.mem_singleton_self _)
  exact absurd hin (by decide +kernel)

end Square

end Lumos.Physics.CollisionDetection
