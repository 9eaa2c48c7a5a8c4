import Mathlib.Data.List.Basic

/-!
# Fixed arrays filled from the front

An array with room for `capacity` entries of which the first ones are in use. Writing
behind the last of them when there is no room left is out of bounds.
-/
namespace Lumos.FixedArray

variable {α γ : Type}

/-- `array[count] = x; count++`, out of bounds at `none`. -/
def push (capacity : Nat) (used : List α) (x : α) : Option (List α) :=
  if used.length < capacity then some (used ++ [x]) else none

theorem push_of_lt {capacity : Nat} {used : List α} (h : used.length < capacity) (x : α) :
    push capacity used x = some (used ++ [x]) := if_pos h

theorem push_of_le {capacity : Nat} {used : List α} (h : capacity ≤ used.length) (x : α) :
    push capacity used x = none := if_neg (Nat.not_lt.mpr h)

/-- Putting the entries that pass a test into an array succeeds exactly when there is
room for them behind what is there. -/
theorem foldlM_push_filter (capacity : Nat) (p : α → Bool) (f : α → γ) (items : List α)
    (used : List γ) (h : used.length ≤ capacity) :
    items.foldlM (fun used x => if p x then push capacity used (f x) else some used) used =
      if used.length + (items.filter p).length ≤ capacity then
        some (used ++ (items.filter p).map f)
      else none := by
  induction items generalizing used with
  | nil => simp [h]
  | cons x items ih =>
    rw [List.foldlM_cons]
    by_cases hx : p x = true
    · rw [if_pos hx, List.filter_cons_of_pos hx, List.length_cons, List.map_cons]
      by_cases hroom : used.length < capacity
      · have hlength : (used ++ [f x]).length = used.length + 1 := by simp
        rw [push_of_lt hroom, Option.bind_eq_bind, Option.bind_some, ih _ (by omega), hlength]
        simp [Nat.add_assoc, Nat.add_comm 1]
      · rw [push_of_le (by omega), if_neg (by omega)]
        rfl
    · rw [if_neg hx, List.filter_cons_of_neg hx]
      exact ih used h

/-- Putting several entries into an array. -/
theorem foldlM_push (capacity : Nat) (items used : List α) (h : used.length ≤ capacity) :
    items.foldlM (push capacity) used =
      if used.length + items.length ≤ capacity then some (used ++ items) else none := by
  simpa using foldlM_push_filter capacity (fun _ => true) id items used h

/-! ## Contents and a count -/

/-- `array[count++] = x`, out of bounds at `none`. What is behind the entry stays. -/
def store (array : List α × Nat) (x : α) : Option (List α × Nat) :=
  if array.2 < array.1.length then some (array.1.set array.2 x, array.2 + 1) else none

/-- Entries stored one after the other stand behind those in use. -/
theorem foldlM_store (items : List α) (array : List α × Nat) (h : array.2 ≤ array.1.length) :
    items.foldlM store array =
      if array.2 + items.length ≤ array.1.length then
        some (array.1.take array.2 ++ items ++ array.1.drop (array.2 + items.length), array.2 + items.length)
      else none := by
  obtain ⟨contents, count⟩ := array
  induction items generalizing contents count with
  | nil => simpa using h
  | cons x items ih =>
    rw [List.foldlM_cons]
    by_cases hroom : count < contents.length
    · have hlength : (contents.set count x).length = contents.length := List.length_set
      have htake : (contents.set count x).take (count + 1) = contents.take count ++ [x] := by
        rw [List.take_add_one, List.take_set_of_le (Nat.le_refl count), List.getElem?_set_self hroom]
        rfl
      have hdrop : (contents.set count x).drop (count + 1 + items.length) =
          contents.drop (count + (x :: items).length) := by
        rw [List.drop_set_of_lt (by omega), List.length_cons, Nat.add_assoc, Nat.add_comm 1]
      rw [store, if_pos hroom, Option.bind_eq_bind, Option.bind_some]
      rw [ih _ _ (by rw [hlength]; exact hroom), hlength, htake, hdrop]
      simp [Nat.add_assoc, Nat.add_comm 1]
    · have hcount : ¬ count + (x :: items).length ≤ contents.length := by
        rw [List.length_cons]
        omega
      rw [store, if_neg hroom, if_neg hcount]
      rfl

end Lumos.FixedArray
