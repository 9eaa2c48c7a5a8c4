import Lumos.Maths.RayHits

/-!
# Rays and boxes

From outside, a ray enters a box through the face it reaches last of those it starts beyond.
Every other face it is tested against lies behind that one, or is missed.
-/
namespace Lumos.Maths.Ray

open FloatArithmetic FloatInfinity RunningBest

variable {ray : Ray ℝ} {box : BoundingBox ℝ} {t : ℝ} {face : Fin 3 × Side}

/-! ## Along the axes -/

theorem holds_iff {v : Vector3 ℝ} :
    box.Holds v ↔ ∀ axis, box.min.get axis ≤ v.get axis ∧ v.get axis ≤ box.max.get axis := by
  rw [Vector3.forall_axis]
  exact ⟨fun h => ⟨h.x, h.y, h.z⟩, fun h => ⟨h.1, h.2.1, h.2.2⟩⟩

theorem proper_iff : box.Proper ↔ ∀ axis, box.min.get axis ≤ box.max.get axis := by
  rw [Vector3.forall_axis]
  exact ⟨fun h => ⟨h.x, h.y, h.z⟩, fun h => ⟨h.1, h.2.1, h.2.2⟩⟩

theorem pointAt_get (ray : Ray ℝ) (t : ℝ) (axis : Fin 3) :
    (ray.pointAt t).get axis = ray.origin.get axis + ray.direction.get axis * t := by
  match axis with
  | 0 => rfl
  | 1 => rfl
  | 2 => rfl

theorem within_iff {v : Vector3 ℝ} {axis : Fin 3} :
    box.within v axis = true ↔ box.min.get axis ≤ v.get axis ∧ v.get axis ≤ box.max.get axis := by
  rw [BoundingBox.within, Bool.and_eq_true, le_real, le_real]

theorem onFace_iff_within {v : Vector3 ℝ} :
    onFace box face v = true ↔ ∀ axis, axis ≠ face.1 → box.within v axis = true := by
  simp only [onFace, List.all_eq_true, List.mem_finRange, forall_true_left, Bool.or_eq_true, decide_eq_true_iff,
    or_iff_not_imp_left, ne_eq]

/-- The other axes and the one of the face are all there are. -/
theorem onFace_iff {v : Vector3 ℝ}
    (hface : box.min.get face.1 ≤ v.get face.1 ∧ v.get face.1 ≤ box.max.get face.1) :
    onFace box face v = true ↔ box.Holds v := by
  rw [onFace_iff_within, holds_iff]
  constructor
  · intro h axis
    by_cases haxis : axis = face.1
    · exact haxis ▸ hface
    · exact within_iff.mp (h axis haxis)
  · exact fun h axis _ => within_iff.mpr (h axis)

theorem isInsidePoint_real {v : Vector3 ℝ} : box.isInsidePoint v ≠ .outside ↔ box.Holds v := by
  have hiff : (lt v.x box.min.x || lt box.max.x v.x || lt v.y box.min.y || lt box.max.y v.y || lt v.z box.min.z ||
      lt box.max.z v.z) = true ↔ ¬ box.Holds v := by
    simp only [Bool.or_eq_true, lt_real]
    constructor
    · rintro (((((h | h) | h) | h) | h) | h) hholds
      · exact not_le.mpr h hholds.x.1
      · exact not_le.mpr h hholds.x.2
      · exact not_le.mpr h hholds.y.1
      · exact not_le.mpr h hholds.y.2
      · exact not_le.mpr h hholds.z.1
      · exact not_le.mpr h hholds.z.2
    · intro hnot
      by_contra hall
      simp only [not_or, not_lt] at hall
      exact hnot ⟨⟨hall.1.1.1.1.1, hall.1.1.1.1.2⟩, ⟨hall.1.1.1.2, hall.1.1.2⟩, ⟨hall.1.2, hall.2⟩⟩
  rw [BoundingBox.isInsidePoint]
  by_cases hholds : box.Holds v
  · rw [if_neg (fun h => hiff.mp h hholds)]
    exact iff_of_true Intersection.noConfusion hholds
  · rw [if_pos (hiff.mpr hholds)]
    exact iff_of_false (fun h => h rfl) hholds

/-! ## The tests -/

/-- What a test finds when nothing has been found before. -/
noncomputable def found (ray : Ray ℝ) (box : BoundingBox ℝ) (face : Fin 3 × Side) : Option ℝ :=
  if ray.towards box face ∧ onFace box face (ray.pointAt (ray.reach box face)) then some (ray.reach box face) else none

theorem testFace_eq_keep (dist : Option ℝ) (face : Fin 3 × Side) :
    (ray.testFace box dist face, ()) = keep closer (found ray box) (fun _ => ()) (dist, ()) face := by
  rw [keep, testFace, found]
  by_cases htowards : ray.towards box face = true
  · by_cases hon : onFace box face (ray.pointAt (ray.reach box face)) = true
    · simp only [htowards, hon, and_self, if_true]
      split <;> rfl
    · simp only [htowards, hon, and_false, if_true, if_false, Bool.false_eq_true]
      split <;> rfl
  · simp only [htowards, false_and, if_false, Bool.false_eq_true]
    rfl

theorem foldl_testFace (dist : Option ℝ) (tests : List (Fin 3 × Side)) :
    (tests.foldl (ray.testFace box) dist, ()) =
      tests.foldl (keep closer (found ray box) (fun _ => ())) (dist, ()) := by
  induction tests generalizing dist with
  | nil => rfl
  | cons face tests ih => rw [List.foldl_cons, List.foldl_cons, ih, testFace_eq_keep]

/-- The tests keep the least distance that one of them finds. -/
theorem best_faces (ray : Ray ℝ) (box : BoundingBox ℝ) : Best closer (found ray box) (fun _ => ()) AtMost (none, ()) faces
    (faces.foldl (ray.testFace box) none, ()) := by
  rw [foldl_testFace]
  exact best_foldl atMost_of_closer atMost_of_not_closer faces (none, ())

theorem mem_faces (face : Fin 3 × Side) : face ∈ faces := by
  obtain ⟨axis, kind⟩ := face
  cases kind <;> simp [faces]

/-- A face that the ray goes towards is reached, in front of the origin. -/
theorem reach_of_towards (h : ray.towards box face = true) : 0 ≤ ray.reach box face ∧
    (ray.pointAt (ray.reach box face)).get face.1 = faceValue box face := by
  obtain ⟨axis, kind⟩ := face
  cases kind with
  | low =>
    simp only [towards, Bool.and_eq_true, lt_real] at h
    obtain ⟨hbeyond, hdirection⟩ := h
    refine ⟨div_nonneg (sub_nonneg.mpr hbeyond.le) hdirection.le, ?_⟩
    rw [pointAt_get, reach, faceValue, mul_div_cancel₀ _ hdirection.ne']
    exact add_sub_cancel _ _
  | high =>
    simp only [towards, Bool.and_eq_true, lt_real] at h
    obtain ⟨hbeyond, hdirection⟩ := h
    refine ⟨div_nonneg_of_nonpos (sub_nonpos.mpr hbeyond.le) hdirection.le, ?_⟩
    rw [pointAt_get, reach, faceValue, mul_div_cancel₀ _ hdirection.ne]
    exact add_sub_cancel _ _

/-- What is found is in the box. -/
theorem holds_of_found (hbox : box.Proper) (h : found ray box face = some t) : 0 ≤ t ∧ box.Holds (ray.pointAt t) := by
  rw [found] at h
  split at h
  · next hboth =>
    obtain rfl := Option.some.inj h
    obtain ⟨hnonneg, hvalue⟩ := reach_of_towards hboth.1
    refine ⟨hnonneg, (onFace_iff ?_).mp hboth.2⟩
    rw [hvalue]
    have haxis := proper_iff.mp hbox face.1
    obtain ⟨axis, kind⟩ := face
    cases kind with
    | low => exact ⟨le_refl _, haxis⟩
    | high => exact ⟨haxis, le_refl _⟩
  · cases h

/-! ## The face through which the ray enters -/

/-- A ray that comes into the box from beyond a face goes towards it, and reaches it before. -/
theorem reach_le_of_beyond (hnonneg : 0 ≤ t) (hhit : box.Holds (ray.pointAt t)) (axis : Fin 3) :
    (ray.origin.get axis < box.min.get axis →
      ray.towards box (axis, .low) = true ∧ ray.reach box (axis, .low) ≤ t) ∧
    (box.max.get axis < ray.origin.get axis →
      ray.towards box (axis, .high) = true ∧ ray.reach box (axis, .high) ≤ t) := by
  have hrange := holds_iff.mp hhit axis
  rw [pointAt_get] at hrange
  constructor
  · intro hbeyond
    have hdirection : 0 < ray.direction.get axis := by
      by_contra hnot
      have hmul := mul_nonpos_of_nonpos_of_nonneg (not_lt.mp hnot) hnonneg
      linarith [hrange.1]
    refine ⟨?_, ?_⟩
    · simp only [towards, Bool.and_eq_true, lt_real]
      exact ⟨hbeyond, hdirection⟩
    · rw [reach, faceValue, div_le_iff₀ hdirection]
      linarith [hrange.1]
  · intro hbeyond
    have hdirection : ray.direction.get axis < 0 := by
      by_contra hnot
      have hmul := mul_nonneg (not_lt.mp hnot) hnonneg
      linarith [hrange.2]
    refine ⟨?_, ?_⟩
    · simp only [towards, Bool.and_eq_true, lt_real]
      exact ⟨hbeyond, hdirection⟩
    · rw [reach, faceValue, div_le_iff_of_neg hdirection]
      linarith [hrange.2]

/-- Between the last of the faces and a hit, the ray is in the box. -/
theorem holds_between {s : ℝ} (hs : 0 ≤ s) (hst : s ≤ t) (hhit : box.Holds (ray.pointAt t))
    (hlast : ∀ face, ray.towards box face = true → ray.reach box face ≤ t → ray.reach box face ≤ s) :
    box.Holds (ray.pointAt s) := by
  rw [holds_iff]
  intro axis
  have hrange := holds_iff.mp hhit axis
  have hbeyond := reach_le_of_beyond (hs.trans hst) hhit axis
  rw [pointAt_get] at hrange ⊢
  constructor
  · by_cases hlow : ray.origin.get axis < box.min.get axis
    · obtain ⟨htowards, hle⟩ := hbeyond.1 hlow
      have hreach := hlast _ htowards hle
      simp only [towards, Bool.and_eq_true, lt_real] at htowards
      rw [reach, faceValue, div_le_iff₀ htowards.2] at hreach
      linarith
    · rcases le_total 0 (ray.direction.get axis) with hup | hdown
      · have hmul := mul_nonneg hup hs
        linarith [not_lt.mp hlow]
      · have hmul := mul_le_mul_of_nonpos_left hst hdown
        linarith [hrange.1]
  · by_cases hhigh : box.max.get axis < ray.origin.get axis
    · obtain ⟨htowards, hle⟩ := hbeyond.2 hhigh
      have hreach := hlast _ htowards hle
      simp only [towards, Bool.and_eq_true, lt_real] at htowards
      rw [reach, faceValue, div_le_iff_of_neg htowards.2] at hreach
      linarith
    · rcases le_total 0 (ray.direction.get axis) with hup | hdown
      · have hmul := mul_le_mul_of_nonneg_left hst hup
        linarith [hrange.2]
      · have hmul := mul_nonpos_of_nonpos_of_nonneg hdown hs
        linarith [not_lt.mp hhigh]

/-- A ray that comes into the box from outside is found on a face of it, no later. -/
theorem exists_found (houtside : ¬ box.Holds ray.origin) (hnonneg : 0 ≤ t)
    (hhit : box.Holds (ray.pointAt t)) : ∃ face s, found ray box face = some s ∧ s ≤ t := by
  have hsome : ∃ face, ray.towards box face = true ∧ ray.reach box face ≤ t := by
    rw [holds_iff, not_forall] at houtside
    obtain ⟨axis, haxis⟩ := houtside
    have hbeyond := reach_le_of_beyond hnonneg hhit axis
    rw [not_and_or, not_le, not_le] at haxis
    rcases haxis with hlow | hhigh
    · exact ⟨_, hbeyond.1 hlow⟩
    · exact ⟨_, hbeyond.2 hhigh⟩
  let entered := faces.filter fun face => ray.towards box face && le (ray.reach box face) t
  have hmem : ∀ face, face ∈ entered ↔ ray.towards box face = true ∧ ray.reach box face ≤ t := by
    intro face
    rw [List.mem_filter, Bool.and_eq_true, le_real]
    exact and_iff_right (mem_faces face)
  have hne : entered.toFinset.Nonempty := by
    obtain ⟨face, hface⟩ := hsome
    exact ⟨face, List.mem_toFinset.mpr ((hmem face).mpr hface)⟩
  obtain ⟨last, hlast, hmax⟩ := entered.toFinset.exists_max_image (ray.reach box) hne
  rw [List.mem_toFinset, hmem] at hlast
  obtain ⟨hstart, hvalue⟩ := reach_of_towards hlast.1
  have hholds := holds_between hstart hlast.2 hhit fun face htowards hle =>
    hmax face (List.mem_toFinset.mpr ((hmem face).mpr ⟨htowards, hle⟩))
  refine ⟨last, _, ?_, hlast.2⟩
  rw [found, if_pos ⟨hlast.1, (onFace_iff (holds_iff.mp hholds last.1)).mpr hholds⟩]

/-! ## The distance -/

theorem defined_real : box.defined = true ↔ box.min.x ≠ fltMax := by
  rw [BoundingBox.defined, Bool.not_eq_true', ← Bool.not_eq_true, Bool.and_eq_true, le_real, le_real, ← le_antisymm_iff,
    infinity_real]

theorem pointAt_zero (ray : Ray ℝ) : ray.pointAt 0 = ray.origin := by
  ext <;> simp [pointAt]

/-- The distance to a box that has a point is that of the first point of the ray in it. -/
theorem firstHit_box (ray : Ray ℝ) (hbox : box.Proper) (hdefined : box.defined = true) :
    ray.FirstHit {v | box.Holds v} (ray.hitDistanceBox box) := by
  rw [hitDistanceBox, hdefined, Bool.not_true, if_neg Bool.false_ne_true]
  by_cases hinside : box.Holds ray.origin
  · rw [if_pos (isInsidePoint_real.mpr hinside)]
    refine ⟨⟨le_refl 0, ?_⟩, fun t ht => ht.1⟩
    rw [pointAt_zero]
    exact hinside
  · rw [if_neg (mt isInsidePoint_real.mp hinside)]
    have hbest := best_faces ray box
    generalize faces.foldl (ray.testFace box) none = dist at hbest
    have hleast : ∀ t, 0 ≤ t → box.Holds (ray.pointAt t) → AtMost dist (some t) := by
      intro t hnonneg hhit
      obtain ⟨face, s, hfound, hle⟩ := exists_found hinside hnonneg hhit
      have hface := hbest.le_value face (mem_faces face)
      rw [hfound] at hface
      have hlater : AtMost (some s) (some t) := hle
      exact trans_of AtMost hface hlater
    cases dist with
    | none => exact fun t hnonneg hhit => hleast t hnonneg hhit
    | some s =>
      obtain ⟨face, -, hface⟩ | ⟨hnone, -⟩ := hbest.found
      · exact ⟨holds_of_found hbox (congrArg Prod.fst hface).symm, fun t ht => hleast t ht.1 ht.2⟩
      · cases congrArg Prod.fst hnone

noncomputable def toTheRight : Ray ℝ := ⟨⟨-1, 0, 0⟩, ⟨1, 0, 0⟩⟩

theorem firstHit_box_cube : toTheRight.FirstHit {v | (⟨0, ⟨1, 1, 1⟩⟩ : BoundingBox ℝ).Holds v}
    (toTheRight.hitDistanceBox ⟨0, ⟨1, 1, 1⟩⟩) := by
  apply firstHit_box _ ⟨zero_le_one, zero_le_one, zero_le_one⟩
  rw [defined_real, fltMax_real]
  exact (by norm_num : (0 : ℝ) ≠ 340282346638528859811704183484516925440)

/-- A box whose minimum is beyond its maximum is defined and has no point, and is hit. -/
theorem not_firstHit_inverted : (⟨⟨1, 0, 0⟩, ⟨0, 1, 1⟩⟩ : BoundingBox ℝ).defined = true ∧
    ¬ toTheRight.FirstHit {v | (⟨⟨1, 0, 0⟩, ⟨0, 1, 1⟩⟩ : BoundingBox ℝ).Holds v}
      (toTheRight.hitDistanceBox ⟨⟨1, 0, 0⟩, ⟨0, 1, 1⟩⟩) := by
  have hempty : ∀ v, ¬ (⟨⟨1, 0, 0⟩, ⟨0, 1, 1⟩⟩ : BoundingBox ℝ).Holds v := fun v hv =>
    absurd (hv.x.1.trans hv.x.2) (not_le.mpr zero_lt_one)
  have hdefined : (⟨⟨1, 0, 0⟩, ⟨0, 1, 1⟩⟩ : BoundingBox ℝ).defined = true := by
    rw [defined_real, fltMax_real]
    exact (by norm_num : (1 : ℝ) ≠ 340282346638528859811704183484516925440)
  refine ⟨hdefined, fun hfirst => ?_⟩
  have hdist : ∃ s, toTheRight.hitDistanceBox ⟨⟨1, 0, 0⟩, ⟨0, 1, 1⟩⟩ = some s := by
    have hfound : found toTheRight ⟨⟨1, 0, 0⟩, ⟨0, 1, 1⟩⟩ (0, .low) =
        some (toTheRight.reach ⟨⟨1, 0, 0⟩, ⟨0, 1, 1⟩⟩ (0, .low)) := by
      apply if_pos
      refine ⟨?_, onFace_iff_within.mpr ?_⟩
      · simp [towards, toTheRight, Vector3.get]
      · simp only [within_iff, pointAt_get]
        rw [Vector3.forall_axis]
        simp [toTheRight, Vector3.get]
    have hle := (best_faces toTheRight ⟨⟨1, 0, 0⟩, ⟨0, 1, 1⟩⟩).le_value (0, .low) (mem_faces _)
    rw [hfound] at hle
    rw [hitDistanceBox, hdefined, Bool.not_true, if_neg Bool.false_ne_true,
      if_neg (mt isInsidePoint_real.mp (hempty _))]
    generalize faces.foldl _ none = dist at hle
    cases dist with
    | none => exact hle.elim
    | some s => exact ⟨s, rfl⟩
  obtain ⟨s, hs⟩ := hdist
  rw [hs] at hfirst
  exact hempty _ hfirst.1.2

end Lumos.Maths.Ray
