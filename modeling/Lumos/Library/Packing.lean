import Mathlib

/-!
# Packed regions

Parts of a whole are in use or free, and no two of them overlap.
-/
namespace Lumos.Library.Packing

variable {ρ α : Type}

/-- No two overlap. -/
def Apart (cells : ρ → Set α) (r r' : ρ) : Prop := Disjoint (cells r) (cells r')

structure Packed (cells : ρ → Set α) (whole : Set α) (free used : List ρ) : Prop where
  inside : ∀ r ∈ free ++ used, cells r ⊆ whole
  apart : (free ++ used).Pairwise (Apart cells)

section Rules

variable {cells : ρ → Set α} {whole whole' : Set α} {free free' used : List ρ} {r r' taken : ρ}

theorem Apart.symm (h : Apart cells r r') : Apart cells r' r := Disjoint.symm h

theorem pairwise_perm {l l' : List ρ} (h : l.Perm l') : l.Pairwise (Apart cells) ↔ l'.Pairwise (Apart cells) :=
  h.pairwise_iff Apart.symm

/-- The order of the free parts does not matter. -/
theorem Packed.perm (h : Packed cells whole free used) (hperm : free.Perm free') : Packed cells whole free' used where
  inside := fun r hr => h.inside r ((hperm.append_right used).mem_iff.mpr hr)
  apart := (pairwise_perm (hperm.append_right used)).mp h.apart

/-- A free part is divided into one that is taken and others that stay free. -/
theorem Packed.divide (h : Packed cells whole (r :: free) used) {parts : List ρ}
    (hsubset : ∀ p ∈ taken :: parts, cells p ⊆ cells r) (hparts : (taken :: parts).Pairwise (Apart cells)) :
    Packed cells whole (parts ++ free) (used ++ [taken]) := by
  have hperm : ((taken :: parts) ++ (free ++ used)).Perm ((parts ++ free) ++ (used ++ [taken])) := by
    have hlast : ([taken] ++ (parts ++ free ++ used)).Perm ((parts ++ free ++ used) ++ [taken]) :=
      List.perm_append_comm
    simpa only [List.cons_append, List.nil_append, List.append_assoc] using hlast
  have hinside : cells r ⊆ whole := h.inside r (by simp)
  obtain ⟨hrest, happart⟩ := List.pairwise_cons.mp h.apart
  constructor
  · intro p hp
    obtain hp | hp := List.mem_append.mp (hperm.mem_iff.mpr hp)
    · exact (hsubset p hp).trans hinside
    · exact h.inside p (List.mem_cons_of_mem r hp)
  · refine (pairwise_perm hperm).mp (List.pairwise_append.mpr ⟨hparts, happart, fun p hp q hq => ?_⟩)
    exact Set.disjoint_of_subset_left (hsubset p hp) (hrest q hq)

/-- The whole becomes larger, and what is new is free. -/
theorem Packed.extend (h : Packed cells whole free used) (hwhole : whole ⊆ whole') (hinside : cells r ⊆ whole')
    (hnew : Disjoint (cells r) whole) : Packed cells whole' (free ++ [r]) used := by
  have hperm : (r :: (free ++ used)).Perm ((free ++ [r]) ++ used) := by
    rw [List.append_assoc]
    exact List.perm_middle.symm
  constructor
  · intro p hp
    obtain rfl | hp := List.mem_cons.mp (hperm.mem_iff.mpr hp)
    · exact hinside
    · exact (h.inside p hp).trans hwhole
  · exact (pairwise_perm hperm).mp
      (List.pairwise_cons.mpr ⟨fun p hp => Set.disjoint_of_subset_right (h.inside p hp) hnew, h.apart⟩)

/-- As long as everything is free, what is in use has no extent. -/
theorem Packed.eq_empty (h : Packed cells whole [r] used) (hwhole : whole ⊆ cells r) {u : ρ} (hu : u ∈ used) :
    cells u = ∅ := by
  have hinside : cells u ⊆ cells r := (h.inside u (List.mem_cons_of_mem r hu)).trans hwhole
  have hdisjoint : Disjoint (cells r) (cells u) := (List.pairwise_cons.mp h.apart).1 u hu
  exact disjoint_self.mp (Set.disjoint_of_subset_left hinside hdisjoint)

/-- Everything is free, and the whole becomes larger. -/
theorem Packed.widen (h : Packed cells whole [r] used) (hwhole : whole ⊆ cells r) (hinside : cells r' ⊆ whole') :
    Packed cells whole' [r'] used := by
  have hempty := fun u (hu : u ∈ used) => h.eq_empty hwhole hu
  constructor
  · intro p hp
    obtain rfl | hp := List.mem_cons.mp hp
    · exact hinside
    · rw [hempty p hp]
      exact Set.empty_subset whole'
  · refine List.pairwise_cons.mpr ⟨fun u hu => ?_, (List.pairwise_cons.mp h.apart).2⟩
    rw [Apart, hempty u hu]
    exact Set.disjoint_empty _

end Rules

end Lumos.Library.Packing
