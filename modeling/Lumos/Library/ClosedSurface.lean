import Mathlib.Data.List.Count
import Mathlib.Data.List.Nodup
import Mathlib.Data.List.Perm.Basic
import Mathlib.Data.Set.Function

/-!
# Closed surfaces of triangles

When degenerate triangles are dropped, a surface is closed and consistently oriented if each
directed edge of a triangle is in no other one, and its reverse is in exactly one other.
-/
namespace Lumos.Library.ClosedSurface

variable {α β : Type}

/-- The corners, in the order in which they are gone round. -/
structure Triangle (α : Type) where
  a : α
  b : α
  c : α

namespace Triangle

def sides (t : Triangle α) : List (α × α) := [(t.a, t.b), (t.b, t.c), (t.c, t.a)]

def corners (t : Triangle α) : List α := [t.a, t.b, t.c]

/-- No two corners are the same. -/
structure Proper (t : Triangle α) : Prop where
  ab : t.a ≠ t.b
  bc : t.b ≠ t.c
  ca : t.c ≠ t.a

def map (f : α → β) (t : Triangle α) : Triangle β := ⟨f t.a, f t.b, f t.c⟩

def rotate (t : Triangle α) : Triangle α := ⟨t.b, t.c, t.a⟩

theorem nodup_sides {t : Triangle α} (h : t.Proper) : t.sides.Nodup := by
  simp [sides, h.ab, h.bc, Ne.symm h.ca]

theorem swap_not_mem_sides {t : Triangle α} (h : t.Proper) {side : α × α} (hside : side ∈ t.sides) :
    side.swap ∉ t.sides := by
  simp only [sides, List.mem_cons, List.not_mem_nil, or_false] at hside ⊢
  rcases hside with rfl | rfl | rfl
  · simp [h.ab, h.bc, Ne.symm h.ca]
  · simp [h.bc, h.ca, Ne.symm h.ab]
  · simp [h.ab, h.ca, Ne.symm h.bc]

theorem proper_rotate {t : Triangle α} : t.rotate.Proper ↔ t.Proper :=
  ⟨fun h => ⟨h.ca, h.ab, h.bc⟩, fun h => ⟨h.bc, h.ca, h.ab⟩⟩

theorem sides_rotate (t : Triangle α) : t.rotate.sides.Perm t.sides :=
  @List.perm_append_comm _ [(t.b, t.c), (t.c, t.a)] [(t.a, t.b)]

theorem sides_map (f : α → β) (t : Triangle α) : (t.map f).sides = t.sides.map (Prod.map f f) := rfl

theorem map_map {γ : Type} (g : β → γ) (f : α → β) (t : Triangle α) : (t.map f).map g = t.map (g ∘ f) := rfl

theorem map_congr {f g : α → β} {t : Triangle α} (h : ∀ x ∈ t.corners, f x = g x) : t.map f = t.map g := by
  rw [map, map, h t.a (by simp [corners]), h t.b (by simp [corners]), h t.c (by simp [corners])]

theorem proper_map {f : α → β} {t : Triangle α} (hf : ∀ x ∈ t.corners, ∀ y ∈ t.corners, f x = f y → x = y) :
    (t.map f).Proper ↔ t.Proper := by
  simp only [corners, List.mem_cons, List.not_mem_nil, or_false] at hf
  constructor
  · intro h
    exact ⟨fun he => h.ab (congrArg f he), fun he => h.bc (congrArg f he), fun he => h.ca (congrArg f he)⟩
  · intro h
    exact ⟨fun he => h.ab (hf _ (by simp) _ (by simp) he), fun he => h.bc (hf _ (by simp) _ (by simp) he),
      fun he => h.ca (hf _ (by simp) _ (by simp) he)⟩

end Triangle

open Classical

/-- The triangles that are left when degenerate ones are dropped. -/
noncomputable def solid (ts : List (Triangle α)) : List (Triangle α) := ts.filter fun t => t.Proper

/-- How many triangles have a directed edge. -/
noncomputable def uses (ts : List (Triangle α)) (side : α × α) : Nat := (solid ts).countP fun t => side ∈ t.sides

def Closed (ts : List (Triangle α)) : Prop :=
  ∀ t ∈ solid ts, ∀ side ∈ t.sides, uses ts side = 1 ∧ side.swap ∉ t.sides ∧ uses ts side.swap = 1

/-- All directed edges. -/
noncomputable def sides (ts : List (Triangle α)) : List (α × α) := (solid ts).flatMap Triangle.sides

section Sides

variable {ts us : List (Triangle α)}

theorem proper_of_mem_solid {t : Triangle α} (h : t ∈ solid ts) : t.Proper := by
  simpa using (List.mem_filter.mp h).2

theorem mem_sides {side : α × α} : side ∈ sides ts ↔ ∃ t ∈ ts, t.Proper ∧ side ∈ t.sides := by
  simp [sides, solid, and_assoc]

theorem uses_eq_count (ts : List (Triangle α)) (side : α × α) : uses ts side = (sides ts).count side := by
  have hproper : ∀ t ∈ solid ts, t.Proper := fun t => proper_of_mem_solid
  rw [uses, sides]
  generalize solid ts = rest at hproper
  induction rest with
  | nil => rfl
  | cons t rest ih =>
    have hone : t.sides.count side = if side ∈ t.sides then 1 else 0 :=
      List.Nodup.count (Triangle.nodup_sides (hproper t List.mem_cons_self))
    rw [List.flatMap_cons, List.count_append, List.countP_cons, ih fun u hu => hproper u (List.mem_cons_of_mem t hu),
      hone, Nat.add_comm]
    simp

theorem closed_iff : Closed ts ↔ (sides ts).Nodup ∧ ∀ side ∈ sides ts, side.swap ∈ sides ts := by
  constructor
  · intro h
    have hone : ∀ side ∈ sides ts, (sides ts).count side = 1 ∧ side.swap ∈ sides ts := by
      intro side hside
      obtain ⟨t, ht, hmem⟩ := List.mem_flatMap.mp hside
      obtain ⟨huses, -, hswap⟩ := h t ht side hmem
      rw [uses_eq_count] at huses hswap
      exact ⟨huses, List.count_pos_iff.mp (by omega)⟩
    exact ⟨List.nodup_iff_count_eq_one.mpr fun side hside => (hone side hside).1, fun side hside => (hone side hside).2⟩
  · rintro ⟨hnodup, hswap⟩ t ht side hside
    have hmem : side ∈ sides ts := List.mem_flatMap.mpr ⟨t, ht, hside⟩
    rw [uses_eq_count, uses_eq_count]
    exact ⟨List.count_eq_one_of_mem hnodup hmem, Triangle.swap_not_mem_sides (proper_of_mem_solid ht) hside,
      List.count_eq_one_of_mem hnodup (hswap side hmem)⟩

/-- Only the directed edges matter, in whichever order they come. -/
theorem closed_congr (h : (sides ts).Perm (sides us)) : Closed ts ↔ Closed us := by
  rw [closed_iff, closed_iff, h.nodup_iff]
  simp only [h.mem_iff]

theorem not_closed {side : α × α} (hside : side ∈ sides ts) (hswap : side.swap ∉ sides ts) : ¬ Closed ts :=
  fun h => hswap ((closed_iff.mp h).2 side hside)

/-! ## Putting surfaces together -/

@[simp] theorem sides_nil : sides ([] : List (Triangle α)) = [] := rfl

theorem sides_append (ts us : List (Triangle α)) : sides (ts ++ us) = sides ts ++ sides us := by
  rw [sides, solid, List.filter_append, List.flatMap_append]
  rfl

theorem sides_flatMap {γ : Type} (l : List γ) (f : γ → List (Triangle α)) :
    sides (l.flatMap f) = l.flatMap fun x => sides (f x) := by
  induction l with
  | nil => rfl
  | cons x l ih => rw [List.flatMap_cons, List.flatMap_cons, sides_append, ih]

theorem sides_singleton {t : Triangle α} (h : t.Proper) : sides [t] = t.sides := by
  simp [sides, solid, h]

theorem sides_degenerate {t : Triangle α} (h : ¬ t.Proper) : sides [t] = [] := by
  simp [sides, solid, h]

theorem sides_cons (t : Triangle α) (ts : List (Triangle α)) : sides (t :: ts) = sides [t] ++ sides ts :=
  sides_append [t] ts

theorem sides_rotate (t : Triangle α) : (sides [t.rotate]).Perm (sides [t]) := by
  by_cases h : t.Proper
  · rw [sides_singleton h, sides_singleton (Triangle.proper_rotate.mpr h)]
    exact t.sides_rotate
  · rw [sides_degenerate h, sides_degenerate (mt Triangle.proper_rotate.mp h)]

end Sides

/-! ## Other names for the corners -/

section Names

variable {ts : List (Triangle α)} {f : α → β} {S : Set α}

theorem mem_of_mem_sides (hts : ∀ t ∈ ts, ∀ x ∈ t.corners, x ∈ S) {side : α × α} (hside : side ∈ sides ts) :
    side.1 ∈ S ∧ side.2 ∈ S := by
  obtain ⟨t, ht, -, hmem⟩ := mem_sides.mp hside
  have hS := hts t ht
  simp only [Triangle.corners, List.mem_cons, List.not_mem_nil, or_false] at hS
  simp only [Triangle.sides, List.mem_cons, List.not_mem_nil, or_false] at hmem
  rcases hmem with rfl | rfl | rfl
  · exact ⟨hS _ (by simp), hS _ (by simp)⟩
  · exact ⟨hS _ (by simp), hS _ (by simp)⟩
  · exact ⟨hS _ (by simp), hS _ (by simp)⟩

theorem sides_map (hf : S.InjOn f) (hts : ∀ t ∈ ts, ∀ x ∈ t.corners, x ∈ S) :
    sides (ts.map (Triangle.map f)) = (sides ts).map (Prod.map f f) := by
  induction ts with
  | nil => rfl
  | cons t ts ih =>
    have hproper : (t.map f).Proper ↔ t.Proper := by
      apply Triangle.proper_map
      intro x hx y hy
      exact hf (hts t List.mem_cons_self x hx) (hts t List.mem_cons_self y hy)
    have hone : sides [t.map f] = (sides [t]).map (Prod.map f f) := by
      by_cases h : t.Proper
      · rw [sides_singleton h, sides_singleton (hproper.mpr h), Triangle.sides_map]
      · rw [sides_degenerate h, sides_degenerate (mt hproper.mp h), List.map_nil]
    rw [List.map_cons, sides_cons, sides_cons t ts, hone, ih fun u hu => hts u (List.mem_cons_of_mem t hu),
      List.map_append]

/-- Corners that differ get different names. -/
theorem closed_map_iff (hf : S.InjOn f) (hts : ∀ t ∈ ts, ∀ x ∈ t.corners, x ∈ S) :
    Closed (ts.map (Triangle.map f)) ↔ Closed ts := by
  have hmem : ∀ {x y : α}, x ∈ S → y ∈ S → ((f x, f y) ∈ (sides ts).map (Prod.map f f) ↔ (x, y) ∈ sides ts) := by
    intro x y hx hy
    constructor
    · intro hmem
      obtain ⟨⟨x', y'⟩, hother, he⟩ := List.mem_map.mp hmem
      obtain ⟨hx', hy'⟩ := mem_of_mem_sides hts hother
      obtain ⟨he₁, he₂⟩ := Prod.mk.inj he
      rw [← hf hx' hx he₁, ← hf hy' hy he₂]
      exact hother
    · exact fun hmem => List.mem_map.mpr ⟨(x, y), hmem, rfl⟩
  have hinj : ∀ side ∈ sides ts, ∀ other ∈ sides ts, Prod.map f f side = Prod.map f f other → side = other := by
    intro side hside other hother he
    obtain ⟨he₁, he₂⟩ := Prod.mk.inj he
    obtain ⟨hx, hy⟩ := mem_of_mem_sides hts hside
    obtain ⟨hx', hy'⟩ := mem_of_mem_sides hts hother
    exact Prod.ext (hf hx hx' he₁) (hf hy hy' he₂)
  rw [closed_iff, closed_iff, sides_map hf hts]
  constructor
  · rintro ⟨hnodup, hswap⟩
    refine ⟨hnodup.of_map, fun side hside => ?_⟩
    obtain ⟨hx, hy⟩ := mem_of_mem_sides hts hside
    exact (hmem hy hx).mp (hswap _ (List.mem_map_of_mem hside))
  · rintro ⟨hnodup, hswap⟩
    refine ⟨hnodup.map_on hinj, fun side hside => ?_⟩
    obtain ⟨other, hother, rfl⟩ := List.mem_map.mp hside
    obtain ⟨hx, hy⟩ := mem_of_mem_sides hts hother
    exact (hmem hy hx).mpr (hswap other hother)

end Names

end Lumos.Library.ClosedSurface
