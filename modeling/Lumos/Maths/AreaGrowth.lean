import Lumos.Maths.AreaAllocator

/-!
# How far an area grows

The dimensions take turns. A call goes on until something fits or the dimension whose turn it
is has reached its limit, whatever the other one could still do.
-/
namespace Lumos.Maths.AreaAllocation.AreaAllocator

open Loop (Turn Returns)

/-! ## When the search ends -/

section Termination

variable {s t : AreaAllocator} {width height : Int}

/-- A dimension that is to grow can be shifted. -/
def Defined (width height : Int) (t : AreaAllocator) : Prop :=
  best width height t.freeAreas = none → t.due < t.dueMax → 0 ≤ t.due

/-- Neither dimension gets larger by being doubled, and both are to grow. -/
def Empty (s : AreaAllocator) : Prop := s.due = 0 ∧ s.other = 0 ∧ 0 < s.dueMax ∧ 0 < s.otherMax

def Stuck (width height : Int) (s : AreaAllocator) : Prop :=
  Empty s ∧ best width height s.freeAreas = none ∧ ¬ (width ≤ 0 ∧ height ≤ 0)

/-- What a positive value can still grow by. -/
def room (v : Int) : Nat := if 0 < v then (2 ^ 31 - v).toNat else 0

def measure (s : AreaAllocator) : Nat :=
  2 * (room s.due + room s.other) + if s.due = 0 ∧ 0 < s.dueMax then 1 else 0

@[simp] theorem int32_zero : int32 0 = 0 := int32_of_mem (by omega) (by omega)

theorem room_doubled {v : Int} (hpos : 0 < v) (hlt : v < 2 ^ 31) : room (int32 (2 * v)) < room v := by
  rw [room, room, if_pos hpos]
  obtain hsmall | hlarge := lt_or_ge v (2 ^ 30)
  · rw [int32_two_mul_of_lt (by omega) hsmall, if_pos (by omega)]
    omega
  · rw [int32_two_mul_of_le hlarge hlt, if_neg (by omega)]
    omega

theorem int32_two_mul_ne {v : Int} (hpos : 0 < v) (hlt : v < 2 ^ 31) : int32 (2 * v) ≠ 0 := by
  obtain hsmall | hlarge := lt_or_ge v (2 ^ 30)
  · rw [int32_two_mul_of_lt (by omega) hsmall]
    omega
  · rw [int32_two_mul_of_le hlarge hlt]
    omega

theorem dueMax_le (hs : s.Ints) : s.dueMax < 2 ^ 31 := by
  have hx := hs.x
  have hy := hs.y
  rw [dueMax]
  rw [maxInt] at hx hy
  split <;> omega

theorem measure_grown (hs : s.Ints) (hlt : s.due < s.dueMax) (hnonneg : 0 ≤ s.due) (hempty : ¬ Empty s) :
    measure s.grown < measure s := by
  have hmax := dueMax_le hs
  simp only [measure, due_grown, dueMax_grown, other_grown]
  obtain hzero | hpos := Int.le_iff_eq_or_lt.mp hnonneg
  · have hother : ¬ (s.other = 0 ∧ 0 < s.otherMax) := fun h => hempty ⟨hzero.symm, h.1, by omega, h.2⟩
    rw [← hzero, Int.mul_zero, int32_zero, if_neg hother, if_pos ⟨rfl, by omega⟩]
    omega
  · have hroom := room_doubled hpos (by omega)
    rw [if_neg (fun h : s.due = 0 ∧ 0 < s.dueMax => by omega)]
    split <;> omega

theorem not_empty_grown (hs : s.Ints) (hlt : s.due < s.dueMax) (hnonneg : 0 ≤ s.due) (hempty : ¬ Empty s) :
    ¬ Empty s.grown := by
  have hmax := dueMax_le hs
  simp only [Empty, due_grown, dueMax_grown, other_grown, otherMax_grown]
  rintro ⟨hother, hdouble, hotherMax, hdueMax⟩
  obtain hzero | hpos := Int.le_iff_eq_or_lt.mp hnonneg
  · exact hempty ⟨hzero.symm, hother, hdueMax, hotherMax⟩
  · exact int32_two_mul_ne hpos (by omega) hdouble

theorem ints_grown (hs : s.Ints) : s.grown.Ints := by
  constructor <;> rw [maxSize_grown]
  · exact hs.x
  · exact hs.y

/-- Each turn uses up some of the room, or leaves the turn to the other dimension. -/
theorem returns_of_defined (hs : s.Ints) (hempty : ¬ Empty s)
    (hdefined : ∀ t, Relation.ReflTransGen (Turn (search width height)) s t → Defined width height t) :
    ∃ r, Returns (search width height) s r := by
  refine Loop.returns_of_measure
    (fun t => Relation.ReflTransGen (Turn (search width height)) s t ∧ t.Ints ∧ ¬ Empty t) measure ?_ ⟨.refl, hs, hempty⟩
  rintro t ⟨hcall, ht, hnot⟩
  cases hbest : best width height t.freeAreas with
  | some i => exact .inl ⟨_, search_found hbest⟩
  | none =>
    obtain hlt | hmax := lt_or_ge t.due t.dueMax
    · have hnonneg := hdefined t hcall hbest hlt
      have hturn : Turn (search width height) t t.grown := turn_iff.mpr ⟨hbest, hlt, hnonneg, rfl⟩
      exact .inr ⟨t.grown, hturn, ⟨hcall.tail hturn, ints_grown ht, not_empty_grown ht hlt hnonneg hnot⟩,
        measure_grown ht hlt hnonneg hnot⟩
    · exact .inl ⟨_, leave_iff.mpr ⟨rfl, hbest, fun _ => hmax⟩⟩

/-! ## Two zeros -/

theorem Empty.grown (h : Empty s) : Empty s.grown := by
  obtain ⟨hdue, hother, hdueMax, hotherMax⟩ := h
  simp [Empty, hdue, hother, hdueMax, hotherMax]

theorem Empty.turn_grown (h : Empty s) (hnone : best width height s.freeAreas = none) :
    Turn (search width height) s s.grown := by
  obtain ⟨hdue, -, hdueMax, -⟩ := h
  exact turn_iff.mpr ⟨hnone, by omega, by omega, rfl⟩

/-- A free area without extent takes part in the search from then on. -/
theorem Empty.freeAreas_grown (h : Empty s) :
    (s.freeAreas = [⟨0, 0, 0, 0⟩] ∧ s.grown.freeAreas = s.freeAreas) ∨ s.grown.freeAreas = s.freeAreas ++ [⟨0, 0, 0, 0⟩] := by
  obtain ⟨hdue, hother, -, -⟩ := h
  rw [due] at hdue
  rw [other] at hother
  rw [AreaAllocator.grown]
  cases hturn : s.doubleWidth <;> simp only [hturn, if_true, Bool.false_eq_true, if_false] at hdue hother ⊢
  · rw [growHeight, hdue, hother, Int.mul_zero, int32_zero]
    simp only
    split
    case isTrue hzero => exact .inl ⟨hzero, hzero.symm⟩
    case isFalse => exact .inr rfl
  · rw [growWidth, hdue, hother, Int.mul_zero, int32_zero]
    simp only
    split
    case isTrue hzero => exact .inl ⟨hzero, hzero.symm⟩
    case isFalse => exact .inr rfl

theorem fits_zero_iff : (width ≤ (⟨0, 0, 0, 0⟩ : IntRect).width ∧ height ≤ (⟨0, 0, 0, 0⟩ : IntRect).height) ↔
    width ≤ 0 ∧ height ≤ 0 := by
  simp [IntRect.width, IntRect.height]

theorem Stuck.grown (h : Stuck width height s) : Stuck width height s.grown := by
  obtain ⟨hempty, hnone, hpositive⟩ := h
  refine ⟨hempty.grown, ?_, hpositive⟩
  obtain ⟨-, hsame⟩ | hmore := hempty.freeAreas_grown
  · rw [hsame]
    exact hnone
  · rw [hmore, best_append, better_of_not_fits (fun hfits => hpositive (fits_zero_iff.mp hfits))]
    exact hnone

/-- It goes on for ever. -/
theorem Stuck.not_returns (h : Stuck width height s) (r : AreaAllocator × Option Nat) :
    ¬ Returns (search width height) s r :=
  Loop.not_returns (Stuck width height) (fun t ht => ⟨t.grown, ht.1.turn_grown ht.2.1, ht.grown⟩) h r

/-- An area without extent is found for a request without extent. -/
theorem best_append_zero (hwidth : width ≤ 0) (hheight : height ≤ 0) {freeAreas : List IntRect}
    (hnone : best width height freeAreas = none) :
    best width height (freeAreas ++ [⟨0, 0, 0, 0⟩]) = some freeAreas.length := by
  rw [best_append, better]
  simp only
  rw [if_pos (fits_zero_iff.mpr ⟨hwidth, hheight⟩), rank_of_best_eq_none hnone, if_pos (by decide)]

theorem Empty.returns (h : Empty s) (hwidth : width ≤ 0) (hheight : height ≤ 0) :
    ∃ r, Returns (search width height) s r := by
  cases hbest : best width height s.freeAreas with
  | some i => exact ⟨_, Loop.returns_of_leave (search_found hbest)⟩
  | none =>
    have hturn : Turn (search width height) s s.grown := h.turn_grown hbest
    obtain ⟨hzero, -⟩ | hmore := h.freeAreas_grown
    · -- the only free area has no extent, and would have been found
      have hfound := @best_append_zero _ _ hwidth hheight [] rfl
      rw [hzero] at hbest
      cases hbest.symm.trans hfound
    · have hfound : best width height s.grown.freeAreas = some s.freeAreas.length := by
        rw [hmore, best_append_zero hwidth hheight hbest]
      exact ⟨_, (Loop.returns_turn_iff hturn).mpr (Loop.returns_of_leave (search_found hfound))⟩

/-- The search ends exactly where every dimension that is to grow can be shifted and it is not
stuck with two zeros. -/
theorem search_returns_iff (hs : s.Ints) : (∃ r, Returns (search width height) s r) ↔
    (∀ t, Relation.ReflTransGen (Turn (search width height)) s t → Defined width height t) ∧
      ¬ Stuck width height s := by
  constructor
  · rintro ⟨r, hr⟩
    refine ⟨fun t hcall hnone hlt => ?_, fun hstuck => hstuck.not_returns r hr⟩
    by_contra hneg
    exact hr.ne_none hcall (search_eq_none_iff.mpr ⟨hnone, hlt, not_le.mp hneg⟩)
  · rintro ⟨hdefined, hstuck⟩
    by_cases hempty : Empty s
    · cases hbest : best width height s.freeAreas with
      | some i => exact ⟨_, Loop.returns_of_leave (search_found hbest)⟩
      | none =>
        have hsmall : width ≤ 0 ∧ height ≤ 0 := by
          by_contra hpositive
          exact hstuck ⟨hempty, hbest, hpositive⟩
        exact hempty.returns hsmall.1 hsmall.2
    · exact returns_of_defined hs hempty hdefined

end Termination

/-! ## Calls -/

section Calls

variable {s t u : AreaAllocator} {width height : Int}

/-- The call returns, no dimension has been taken over its limit, and it has only failed with
both of them at theirs. -/
def AllocatesWell (s : AreaAllocator) (width height : Int) : Prop :=
  ∃ s' found, Allocates s width height (s', found) ∧ s'.size.x ≤ max s.size.x s.maxSize.x ∧
    s'.size.y ≤ max s.size.y s.maxSize.y ∧
    (found = none → s.maxSize.x ≤ s'.size.x ∧ s.maxSize.y ≤ s'.size.y)

/-- The condition on a turn. -/
def TurnMeets (width height : Int) (t : AreaAllocator) : Prop :=
  match best width height t.freeAreas with
  | some _ => t.fastMode = true ∨ t.freeAreas.length ≤ 1
  | none =>
    if t.due < t.dueMax then 0 ≤ t.due ∧ int32 (2 * t.due) ≤ t.dueMax
    else t.otherMax ≤ t.other

structure Meets (s : AreaAllocator) (width height : Int) : Prop where
  turns : ∀ t, InCall s width height t → TurnMeets (max width 0) (max height 0) t
  extent : ¬ Stuck (max width 0) (max height 0) s

/-- A relation between the dimensions with their limits that holds of both. -/
theorem both_iff (P : Int → Int → Prop) (s : AreaAllocator) :
    (P s.due s.dueMax ∧ P s.other s.otherMax) ↔ P s.size.x s.maxSize.x ∧ P s.size.y s.maxSize.y := by
  cases hturn : s.doubleWidth <;> simp [due, dueMax, other, otherMax, hturn, and_comm]

/-- A dimension at its limit stays as it is. -/
theorem size_x_grown (hlt : s.due < s.dueMax) (hmax : s.maxSize.x ≤ s.size.x) : s.grown.size.x = s.size.x := by
  cases hturn : s.doubleWidth
  · simp [grown, growHeight, hturn]
  · simp only [due, dueMax, hturn, if_true] at hlt
    omega

theorem size_y_grown (hlt : s.due < s.dueMax) (hmax : s.maxSize.y ≤ s.size.y) : s.grown.size.y = s.size.y := by
  cases hturn : s.doubleWidth
  · simp only [due, dueMax, hturn, Bool.false_eq_true, if_false] at hlt
    omega
  · simp [grown, growWidth, hturn]

theorem InCall.size_x_eq (h : InCall s width height t) (hmax : s.maxSize.x ≤ s.size.x) : t.size.x = s.size.x := by
  induction h with
  | refl => rfl
  | tail hcall hturn ih =>
    obtain ⟨-, hlt, -, rfl⟩ := turn_iff.mp hturn
    rw [size_x_grown hlt (by rw [InCall.maxSize_eq hcall, ih]; exact hmax), ih]

theorem InCall.size_y_eq (h : InCall s width height t) (hmax : s.maxSize.y ≤ s.size.y) : t.size.y = s.size.y := by
  induction h with
  | refl => rfl
  | tail hcall hturn ih =>
    obtain ⟨-, hlt, -, rfl⟩ := turn_iff.mp hturn
    rw [size_y_grown hlt (by rw [InCall.maxSize_eq hcall, ih]; exact hmax), ih]

theorem Ends.size_eq {result : AreaAllocator × Option (Int × Int)} (h : Ends width height t result) :
    result.1.size = t.size := by
  cases h with
  | full => rfl
  | fast => exact size_reserve _ _ _ _ _
  | clean => rfl

/-- A call ends alike from each of its turns on. -/
theorem InCall.allocates_congr {result : AreaAllocator × Option (Int × Int)} (h : InCall s width height t) :
    Allocates s width height result ↔ Allocates t width height result := by
  simp only [Allocates, allocate, Loop.finishes_run_bind_iff, Loop.returns_turns_iff h]

/-- From the last turn no other is reached. -/
theorem InCall.eq_of_leave {r : AreaAllocator × Option Nat} (h : InCall t width height u)
    (hleave : search (max width 0) (max height 0) t = some (.inr r)) : u = t := by
  obtain rfl | ⟨v, hturn, -⟩ := Relation.ReflTransGen.cases_head h
  · rfl
  · cases hleave.symm.trans hturn

theorem ends_of_leave {r : AreaAllocator × Option Nat} {result : AreaAllocator × Option (Int × Int)}
    (h : Allocates t width height result) (hleave : search (max width 0) (max height 0) t = some (.inr r)) :
    Ends (max width 0) (max height 0) t result := by
  obtain ⟨u, hcall, hends⟩ := allocates_iff.mp h
  obtain rfl := hcall.eq_of_leave hleave
  exact hends

/-- A dimension that is taken over its limit stays there. -/
theorem doubled_le_of_well (hwell : AllocatesWell s width height) (hcall : InCall s width height t)
    (hturn : Turn (search (max width 0) (max height 0)) t t.grown) (hlt : t.due < t.dueMax) :
    int32 (2 * t.due) ≤ t.dueMax := by
  obtain ⟨s', found, hallocates, hx, hy, -⟩ := hwell
  have hgrown : InCall s width height t.grown := hcall.tail hturn
  obtain ⟨u, hrest, hends⟩ := allocates_iff.mp (hgrown.allocates_congr.mp hallocates)
  have hsize : s'.size = u.size := hends.size_eq
  have hmax : t.maxSize = s.maxSize := hcall.maxSize_eq
  have hmax' : t.grown.maxSize = s.maxSize := hgrown.maxSize_eq
  by_contra hover
  rw [not_le] at hover
  cases hd : t.doubleWidth
  · have hdouble : t.grown.size.y = int32 (2 * t.due) := by simp [grown, growHeight, due, hd]
    have hdue : t.due = t.size.y := by simp [due, hd]
    have hdueMax : t.dueMax = s.maxSize.y := by simp [dueMax, hd, hmax]
    have hkept : u.size.y = t.grown.size.y := hrest.size_y_eq (by rw [hmax', hdouble]; omega)
    have hfirst : s.maxSize.y ≤ s.size.y := by
      rw [hsize] at hy
      omega
    have hsame : t.size.y = s.size.y := hcall.size_y_eq hfirst
    omega
  · have hdouble : t.grown.size.x = int32 (2 * t.due) := by simp [grown, growWidth, due, hd]
    have hdue : t.due = t.size.x := by simp [due, hd]
    have hdueMax : t.dueMax = s.maxSize.x := by simp [dueMax, hd, hmax]
    have hkept : u.size.x = t.grown.size.x := hrest.size_x_eq (by rw [hmax', hdouble]; omega)
    have hfirst : s.maxSize.x ≤ s.size.x := by
      rw [hsize] at hx
      omega
    have hsame : t.size.x = s.size.x := hcall.size_x_eq hfirst
    omega

theorem Allocates.returns {result : AreaAllocator × Option (Int × Int)} (h : Allocates s width height result) :
    ∃ r, Returns (search (max width 0) (max height 0)) s r := by
  obtain ⟨r, hr, -⟩ := Loop.finishes_run_bind_iff.mp h
  exact ⟨r, hr⟩

theorem meets_of_well (hs : s.Ints) (hwell : AllocatesWell s width height) : Meets s width height := by
  obtain ⟨s', found, hallocates, hx, hy, hfound⟩ := id hwell
  obtain ⟨hdefined, hstuck⟩ := (search_returns_iff hs).mp hallocates.returns
  refine ⟨fun t hcall => ?_, hstuck⟩
  have hrest := hcall.allocates_congr.mp hallocates
  rw [TurnMeets]
  cases hbest : best (max width 0) (max height 0) t.freeAreas with
  | some i =>
    cases ends_of_leave hrest (search_found hbest) with
    | full hnone => cases hbest.symm.trans hnone
    | fast _ _ hfast => exact .inl hfast
    | clean _ _ _ hlength => exact .inr hlength
  | none =>
    simp only
    split
    case isTrue hlt =>
      have hnonneg := hdefined t hcall hbest hlt
      exact ⟨hnonneg, doubled_le_of_well hwell hcall (turn_iff.mpr ⟨hbest, hlt, hnonneg, rfl⟩) hlt⟩
    case isFalse hmax =>
      cases ends_of_leave hrest (leave_iff.mpr ⟨rfl, hbest, fun _ => not_lt.mp hmax⟩) with
      | full =>
        have hboth := hfound rfl
        rw [← hcall.maxSize_eq] at hboth
        exact ((both_iff (fun v limit => limit ≤ v) s').mpr hboth).2
      | fast hsome => cases hbest.symm.trans hsome
      | clean hsome => cases hbest.symm.trans hsome

theorem Meets.defined (h : Meets s width height) (hcall : InCall s width height t) :
    Defined (max width 0) (max height 0) t := by
  intro hnone hlt
  have hturn := h.turns t hcall
  rw [TurnMeets, hnone] at hturn
  simp only [if_pos hlt] at hturn
  exact hturn.1

/-- No turn takes a dimension over its limit. -/
theorem Meets.size_le (h : Meets s width height) (hcall : InCall s width height t) :
    t.size.x ≤ max s.size.x s.maxSize.x ∧ t.size.y ≤ max s.size.y s.maxSize.y := by
  induction hcall with
  | refl => exact ⟨le_max_left _ _, le_max_left _ _⟩
  | @tail t _ hcall hturn ih =>
    obtain ⟨hnone, hlt, -, rfl⟩ := turn_iff.mp hturn
    have hmeets := h.turns t hcall
    rw [TurnMeets, hnone] at hmeets
    simp only [if_pos hlt] at hmeets
    have hmax : t.maxSize = s.maxSize := InCall.maxSize_eq hcall
    cases hd : t.doubleWidth
    · simp only [due, dueMax, hd, Bool.false_eq_true, if_false, hmax] at hmeets
      simp only [grown, growHeight, hd, Bool.false_eq_true, if_false]
      exact ⟨ih.1, le_max_of_le_right hmeets.2⟩
    · simp only [due, dueMax, hd, if_true, hmax] at hmeets
      simp only [grown, growWidth, hd, if_true]
      exact ⟨le_max_of_le_right hmeets.2, ih.2⟩

theorem well_of_meets (hs : s.Ints) (h : Meets s width height) : AllocatesWell s width height := by
  obtain ⟨⟨t, found⟩, hreturns⟩ := (search_returns_iff hs).mpr ⟨fun t hcall => h.defined hcall, h.extent⟩
  obtain ⟨t', hcall, hleave⟩ := Loop.returns_iff_turns.mp hreturns
  obtain ⟨rfl, hbest, hmax⟩ := leave_iff.mp hleave
  obtain ⟨hx, hy⟩ := h.size_le hcall
  have hmeets := h.turns t hcall
  rw [TurnMeets, hbest] at hmeets
  cases found with
  | none =>
    have hother : t.otherMax ≤ t.other := by
      simp only [if_neg (not_lt.mpr (hmax rfl))] at hmeets
      exact hmeets
    have hboth := (both_iff (fun v limit => limit ≤ v) t).mp ⟨hmax rfl, hother⟩
    rw [InCall.maxSize_eq hcall] at hboth
    exact ⟨t, none, allocates_iff.mpr ⟨t, hcall, .full hbest (hmax rfl)⟩, hx, hy, fun _ => hboth⟩
  | some i =>
    obtain ⟨area, harea, -⟩ := best_spec hbest
    cases hfast : t.fastMode with
    | true =>
      refine ⟨_, some (area.left, area.top), allocates_iff.mpr ⟨t, hcall, .fast hbest harea hfast⟩, ?_, ?_, ?_⟩
      · rw [size_reserve]
        exact hx
      · rw [size_reserve]
        exact hy
      · rintro ⟨⟩
    | false =>
      have hlength : t.freeAreas.length ≤ 1 := hmeets.resolve_left (by rw [hfast]; decide)
      refine ⟨t, some (area.left, area.top), allocates_iff.mpr ⟨t, hcall, .clean hbest harea hfast hlength⟩, hx, hy, ?_⟩
      rintro ⟨⟩

end Calls

end Lumos.Maths.AreaAllocation.AreaAllocator
