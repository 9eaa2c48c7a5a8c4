import Mathlib.Algebra.GroupWithZero.Nat
import Mathlib.Data.List.Flatten
import Mathlib.Data.List.FinRange
import Mathlib.Data.List.Nodup

/-!
# Subdivision of crowded cells

A cell that is crowded is divided into `k` children, and so on for a number of levels.
A cell is named by the path of children that leads to it.
-/
namespace Lumos.Subdivision

variable {γ : Type} {k : Nat}

/-- The cell a path leads to. -/
def descend (child : γ → Fin k → γ) (c : γ) (path : List (Fin k)) : γ := path.foldl child c

/-- Every path of at most `n` steps. -/
def pathsUpTo (k : Nat) : Nat → List (List (Fin k))
  | 0 => [[]]
  | n + 1 => [] :: (List.finRange k).flatMap fun i => (pathsUpTo k n).map (i :: ·)

@[simp] theorem descend_nil (child : γ → Fin k → γ) (c : γ) : descend child c [] = c := rfl

section Leaves

variable (child : γ → Fin k → γ) (crowded : γ → Prop)

/-- The path ends at a cell that is not divided any more, every cell before it being
divided. -/
structure IsLeaf (n : Nat) (c : γ) (path : List (Fin k)) : Prop where
  divided : ∀ before i after, path = before ++ i :: after → crowded (descend child c before)
  depth : path.length ≤ n
  undivided : path.length < n → ¬ crowded (descend child c path)

variable [DecidablePred crowded]

/-- The leaves below a cell that may be divided `n` times. -/
def leafPaths : Nat → γ → List (List (Fin k))
  | 0, _ => [[]]
  | n + 1, c =>
    if crowded c then (List.finRange k).flatMap fun i => (leafPaths n (child c i)).map (i :: ·)
    else [[]]

/-- The number of cells that are divided. -/
def divisions : Nat → γ → Nat
  | 0, _ => 0
  | n + 1, c =>
    if crowded c then ((List.finRange k).map fun i => divisions n (child c i)).sum + 1 else 0

def leaves (n : Nat) (c : γ) : List γ := (leafPaths child crowded n c).map (descend child c)

variable {child crowded} {n : Nat} {c : γ}

theorem leaves_crowded (h : crowded c) :
    leaves child crowded (n + 1) c =
      (List.finRange k).flatMap fun i => leaves child crowded n (child c i) := by
  simp only [leaves, leafPaths, if_pos h, List.map_flatMap, List.map_map]
  rfl

theorem leaves_uncrowded (h : ¬ crowded c) : leaves child crowded (n + 1) c = [c] := by
  simp [leaves, leafPaths, h]

theorem divisions_crowded (h : crowded c) :
    divisions child crowded (n + 1) c =
      ((List.finRange k).map fun i => divisions child crowded n (child c i)).sum + 1 := by
  simp [divisions, h]

theorem divisions_uncrowded (h : ¬ crowded c) : divisions child crowded (n + 1) c = 0 := by
  simp [divisions, h]

omit [DecidablePred crowded] in
theorem isLeaf_nil : IsLeaf child crowded n c [] ↔ (0 < n → ¬ crowded c) := by
  constructor
  · intro h
    exact h.undivided
  · intro h
    exact ⟨fun before i after heq => by simp at heq, Nat.zero_le n, h⟩

omit [DecidablePred crowded] in
theorem isLeaf_cons {i : Fin k} {path : List (Fin k)} :
    IsLeaf child crowded (n + 1) c (i :: path) ↔ crowded c ∧ IsLeaf child crowded n (child c i) path := by
  constructor
  · intro h
    have hc : crowded c := h.divided [] i path rfl
    refine ⟨hc, ?_, Nat.le_of_succ_le_succ h.depth, fun hlt => h.undivided (Nat.succ_lt_succ hlt)⟩
    intro before j after heq
    exact h.divided (i :: before) j after (by rw [heq, List.cons_append])
  · intro h
    obtain ⟨hc, hpath⟩ := h
    refine ⟨?_, Nat.succ_le_succ hpath.depth, fun hlt => hpath.undivided (Nat.lt_of_succ_lt_succ hlt)⟩
    intro before j after heq
    cases before with
    | nil => exact hc
    | cons b before =>
      obtain ⟨hb, hrest⟩ := List.cons.inj (heq.trans (List.cons_append ..))
      subst hb
      exact hpath.divided before j after hrest

theorem mem_leafPaths {path : List (Fin k)} :
    path ∈ leafPaths child crowded n c ↔ IsLeaf child crowded n c path := by
  induction n generalizing c path with
  | zero =>
    constructor
    · intro h
      rw [List.mem_singleton.mp h]
      exact isLeaf_nil.mpr fun hlt => absurd hlt (Nat.lt_irrefl 0)
    · intro h
      exact List.mem_singleton.mpr (List.length_eq_zero_iff.mp (Nat.le_zero.mp h.depth))
  | succ n ih =>
    by_cases hc : crowded c
    · cases path with
      | nil => simp [leafPaths, hc, isLeaf_nil]
      | cons i path => simp [leafPaths, hc, isLeaf_cons, ih]
    · cases path with
      | nil => simp [leafPaths, hc, isLeaf_nil]
      | cons i path => simp [leafPaths, hc, isLeaf_cons]

theorem leafPaths_nodup : (leafPaths child crowded n c).Nodup := by
  induction n generalizing c with
  | zero => exact List.nodup_singleton []
  | succ n ih =>
    by_cases hc : crowded c
    · simp only [leafPaths, if_pos hc]
      refine List.nodup_flatMap.mpr ⟨?_, ?_⟩
      · intro i _
        exact ih.map (List.cons_injective)
      · apply (List.nodup_finRange k).imp
        intro i j hij path hi hj
        obtain ⟨p, _, rfl⟩ := List.mem_map.mp hi
        obtain ⟨q, _, hq⟩ := List.mem_map.mp hj
        exact hij (List.cons.inj hq).1.symm
    · simp [leafPaths, hc]

/-- What a cell hands down to one of its children reaches some leaf. -/
theorem exists_leaf {P : γ → Prop} (hchild : ∀ c, P c → ∃ i, P (child c i)) (hc : P c) :
    ∃ c' ∈ leaves child crowded n c, P c' := by
  induction n generalizing c with
  | zero => exact ⟨c, List.mem_singleton_self c, hc⟩
  | succ n ih =>
    by_cases hcrowded : crowded c
    · obtain ⟨i, hi⟩ := hchild c hc
      obtain ⟨c', hmem, hP⟩ := ih hi
      rw [leaves_crowded hcrowded]
      exact ⟨c', List.mem_flatMap.mpr ⟨i, List.mem_finRange i, hmem⟩, hP⟩
    · exact ⟨c, by simp [leaves_uncrowded hcrowded], hc⟩

omit [DecidablePred crowded] in
/-- Below an uncrowded cell no cell is crowded. -/
theorem uncrowded_below (hchild : ∀ c i, crowded (child c i) → crowded c) (hc : ¬ crowded c)
    (path : List (Fin k)) : ¬ crowded (descend child c path) := by
  induction path generalizing c with
  | nil => exact hc
  | cons i path ih =>
    exact ih fun h => hc (hchild c i h)

/-- Where crowding is inherited from below, the divided cells are the crowded ones. -/
theorem divisions_eq_countP (hchild : ∀ c i, crowded (child c i) → crowded c) :
    divisions child crowded (n + 1) c =
      (pathsUpTo k n).countP fun path => decide (crowded (descend child c path)) := by
  by_cases hc : crowded c
  · induction n generalizing c with
    | zero => simp [divisions, pathsUpTo, hc]
    | succ n ih =>
      rw [divisions_crowded hc]
      have hbranch : ∀ i, divisions child crowded (n + 1) (child c i) =
          (pathsUpTo k n).countP fun path => decide (crowded (descend child (child c i) path)) := by
        intro i
        by_cases hi : crowded (child c i)
        · exact ih hi
        · rw [divisions_uncrowded hi, eq_comm, List.countP_eq_zero]
          intro path _ h
          exact uncrowded_below hchild hi path (of_decide_eq_true h)
      have hbelow : ∀ i : Fin k, ((pathsUpTo k n).map (i :: ·)).countP
          (fun path => decide (crowded (descend child c path))) =
            divisions child crowded (n + 1) (child c i) := by
        intro i
        rw [hbranch, List.countP_map]
        rfl
      simp only [pathsUpTo, List.countP_cons, List.countP_flatMap, Function.comp_def, hbelow,
        descend_nil, hc, decide_true, if_true]
  · rw [divisions_uncrowded hc, eq_comm, List.countP_eq_zero]
    intro path _ h
    exact uncrowded_below hchild hc path (of_decide_eq_true h)

end Leaves

end Lumos.Subdivision
