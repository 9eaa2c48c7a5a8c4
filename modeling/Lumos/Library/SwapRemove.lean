import Mathlib.Data.List.Basic
import Mathlib.Data.List.Perm.Subperm

/-!
# Removing with the last element

A loop over an array removes an element by moving the last one into its place, and goes on
with the next index. The element that has been moved is overlooked.
-/
namespace Lumos.SwapRemove

variable {α : Type}

/-- The last element takes the place of the one at an index. -/
def swapRemove (xs : List α) (i : Nat) : List α :=
  match xs.getLast? with
  | some last => (xs.set i last).dropLast
  | none => []

/-- The loop, which also finds out whether an element that stays blocks. The fuel is the number
of turns. -/
def sweep (drops blocks : α → Bool) : Nat → Nat → List α → Bool → List α × Bool
  | 0, _, xs, free => (xs, free)
  | fuel + 1, i, xs, free =>
    match xs[i]? with
    | none => (xs, free)
    | some x =>
      if drops x then sweep drops blocks fuel (i + 1) (swapRemove xs i) free
      else sweep drops blocks fuel (i + 1) xs (free && !blocks x)

variable (drops blocks : α → Bool)

/-- What has been looked at and stays. -/
def kept : List α → List α
  | [] => []
  | x :: xs => if drops x then kept xs.dropLast else x :: kept xs
termination_by xs => xs.length
decreasing_by
  · rw [List.length_dropLast, List.length_cons]
    omega
  · exact Nat.lt_succ_self _

/-- What has been moved, and not looked at. -/
def overlooked : List α → List α
  | [] => []
  | x :: xs => if drops x then xs.getLast?.toList ++ overlooked xs.dropLast else overlooked xs
termination_by xs => xs.length
decreasing_by
  · rw [List.length_dropLast, List.length_cons]
    omega
  · exact Nat.lt_succ_self _

theorem swapRemove_singleton (before : List α) (x : α) : swapRemove (before ++ [x]) before.length = before := by
  simp [swapRemove]

theorem swapRemove_append (before middle : List α) (x last : α) :
    swapRemove (before ++ x :: (middle ++ [last])) before.length = before ++ last :: middle := by
  have hlast : (before ++ x :: (middle ++ [last])).getLast? = some last := by
    rw [← List.cons_append, ← List.append_assoc, List.getLast?_append_of_ne_nil _ (List.cons_ne_nil _ _)]
    rfl
  rw [swapRemove, hlast]
  simp only
  rw [List.set_append_right _ _ (Nat.le_refl _), Nat.sub_self, List.set_cons_zero, ← List.cons_append,
    ← List.append_assoc, List.dropLast_concat]

/-- What stays is among what there was. -/
theorem subperm_sweep (xs : List α) : List.Subperm (kept drops xs ++ overlooked drops xs) xs := by
  induction hn : xs.length using Nat.strongRecOn generalizing xs with
  | _ n ih =>
    cases xs with
    | nil =>
      rw [kept, overlooked]
      exact List.Subperm.refl _
    | cons x xs =>
      rw [kept, overlooked]
      by_cases hx : drops x = true
      · rw [if_pos hx, if_pos hx]
        obtain rfl | ⟨middle, last, rfl⟩ := List.eq_nil_or_concat' xs
        · simp [kept, overlooked]
        · rw [List.dropLast_concat, List.getLast?_concat]
          have hmiddle := ih middle.length (by rw [← hn, List.length_cons, List.length_append]; omega) middle rfl
          have hsplit : List.Perm (kept drops middle ++ ([last] ++ overlooked drops middle))
              (last :: (kept drops middle ++ overlooked drops middle)) := List.perm_middle
          have hconcat : List.Perm (last :: middle) (middle ++ [last]) := @List.perm_append_comm _ [last] middle
          exact (hsplit.subperm.trans ((List.subperm_cons last).mpr hmiddle)).trans
            (hconcat.subperm.trans (List.sublist_cons_self x _).subperm)
      · rw [if_neg hx, if_neg hx]
        exact (List.subperm_cons x).mpr (ih xs.length (by rw [← hn]; exact Nat.lt_succ_self _) xs rfl)

theorem sweep_end (xs : List α) (free : Bool) (fuel : Nat) {i : Nat} (h : xs.length ≤ i) :
    sweep drops blocks fuel i xs free = (xs, free) := by
  cases fuel with
  | zero => rfl
  | succ fuel => rw [sweep, List.getElem?_eq_none h]

/-- What the loop leaves, from some index on. -/
theorem sweep_spec (xs before : List α) (free : Bool) {fuel : Nat} (hfuel : xs.length ≤ fuel) :
    List.Perm (sweep drops blocks fuel before.length (before ++ xs) free).1
        (before ++ (kept drops xs ++ overlooked drops xs)) ∧
      (sweep drops blocks fuel before.length (before ++ xs) free).2 =
        (free && (kept drops xs).all fun x => !blocks x) := by
  induction fuel generalizing xs before free with
  | zero =>
    obtain rfl : xs = [] := List.eq_nil_of_length_eq_zero (Nat.le_zero.mp hfuel)
    simp [sweep, kept, overlooked]
  | succ fuel ih =>
    cases xs with
    | nil => simp [sweep, kept, overlooked]
    | cons x xs =>
      rw [List.length_cons] at hfuel
      have hat : (before ++ x :: xs)[before.length]? = some x := by simp
      have hnext : ∀ y : α, before.length + 1 = (before ++ [y]).length := fun y => by simp
      have hjoin : ∀ (y : α) (ys : List α), before ++ y :: ys = (before ++ [y]) ++ ys := fun y ys => by simp
      rw [sweep, hat, kept, overlooked]
      by_cases hx : drops x = true
      · simp only [if_pos hx]
        obtain rfl | ⟨middle, last, rfl⟩ := List.eq_nil_or_concat' xs
        · rw [swapRemove_singleton, sweep_end _ _ _ _ _ (Nat.le_succ _)]
          simp [kept, overlooked]
        · rw [List.length_append, List.length_singleton] at hfuel
          obtain ⟨hperm, hfree⟩ := ih middle (before ++ [last]) free (by omega)
          rw [swapRemove_append, hjoin, hnext last, List.dropLast_concat, List.getLast?_concat]
          refine ⟨hperm.trans ?_, hfree⟩
          have hmoved : List.Perm (last :: (kept drops middle ++ overlooked drops middle))
              (kept drops middle ++ last :: overlooked drops middle) := List.perm_middle.symm
          rw [List.append_assoc]
          exact hmoved.append_left before
      · simp only [if_neg hx]
        obtain ⟨hperm, hfree⟩ := ih xs (before ++ [x]) (free && !blocks x) (by omega)
        rw [hjoin, hnext x]
        refine ⟨hperm.trans ?_, hfree.trans ?_⟩
        · rw [List.append_assoc]
          exact List.Perm.refl _
        · rw [List.all_cons, Bool.and_assoc]

/-- What the loop leaves of an array. -/
theorem sweep_all (xs : List α) :
    List.Perm (sweep drops blocks xs.length 0 xs true).1 (kept drops xs ++ overlooked drops xs) ∧
      ((sweep drops blocks xs.length 0 xs true).2 = true ↔ ∀ x ∈ kept drops xs, blocks x = false) := by
  obtain ⟨hperm, hfree⟩ := sweep_spec drops blocks xs [] true (Nat.le_refl _)
  refine ⟨hperm, ?_⟩
  rw [show (sweep drops blocks xs.length 0 xs true).2 = _ from hfree]
  simp

variable {drops blocks}

/-- What has been looked at and stays is not to be dropped. -/
theorem not_drops_of_mem_kept {xs : List α} {x : α} (h : x ∈ kept drops xs) : drops x = false := by
  induction hn : xs.length using Nat.strongRecOn generalizing xs with
  | _ n ih =>
    cases xs with
    | nil =>
      rw [kept] at h
      cases h
    | cons y xs =>
      rw [kept] at h
      rw [List.length_cons] at hn
      by_cases hy : drops y = true
      · rw [if_pos hy] at h
        exact ih xs.dropLast.length (by rw [List.length_dropLast]; omega) h rfl
      · rw [if_neg hy] at h
        obtain rfl | h := List.mem_cons.mp h
        · exact Bool.eq_false_iff.mpr hy
        · exact ih xs.length (by omega) h rfl

end Lumos.SwapRemove
