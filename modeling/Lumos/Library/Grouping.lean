import Mathlib

/-!
# Grouping a list by keys

The rows of a list: the items with the key 0, those with the key 1, and so on up to the largest key,
each in the order they come in. They can be filled item by item.
-/
namespace Lumos.Grouping

variable {α : Type} (key : α → Nat)

/-- One more than the largest key. -/
def rowCount (items : List α) : Nat := items.foldr (fun item count => max (key item + 1) count) 0

def group (items : List α) : List (List α) :=
  (List.range (rowCount key items)).map fun row => items.filter fun item => key item = row

/-- Put an item at the end of a row, if there is that row. -/
def putIn (rows : List (List α)) (row : Nat) (item : α) : Option (List (List α)) :=
  if row < rows.length then some (rows.modify row (· ++ [item])) else none

variable {key} {items : List α} {item : α} {row n : Nat}

@[simp] theorem rowCount_nil : rowCount key [] = 0 := rfl

@[simp] theorem rowCount_cons : rowCount key (item :: items) = max (key item + 1) (rowCount key items) := rfl

@[simp] theorem length_group : (group key items).length = rowCount key items := by simp [group]

theorem le_rowCount_iff : n ≤ rowCount key items ↔ n = 0 ∨ ∃ item ∈ items, n ≤ key item + 1 := by
  induction items with
  | nil => simp
  | cons item items ih =>
    rw [rowCount_cons, le_max_iff, ih, List.exists_mem_cons_iff]
    exact or_left_comm

theorem lt_rowCount (h : item ∈ items) : key item < rowCount key items :=
  le_rowCount_iff.mpr (Or.inr ⟨item, h, le_rfl⟩)

theorem rowCount_append_singleton : rowCount key (items ++ [item]) = max (rowCount key items) (key item + 1) := by
  induction items with
  | nil => simp
  | cons first items ih => rw [List.cons_append, rowCount_cons, rowCount_cons, ih, max_assoc]

theorem getElem?_group : (group key items)[row]? =
    if row < rowCount key items then some (items.filter fun item => key item = row) else none := by
  unfold group
  split
  · next h => rw [List.getElem?_map, List.getElem?_range h, Option.map_some]
  · next h => rw [List.getElem?_eq_none (by simpa using h)]

/-- The rows there are, with empty ones behind them, and an item put into its own. -/
theorem putIn_replicate (h : rowCount key items + n = max (rowCount key items) (key item + 1)) :
    putIn (group key items ++ List.replicate n []) (key item) item = some (group key (items ++ [item])) := by
  rw [putIn, if_pos (by rw [List.length_append, length_group, List.length_replicate]; omega)]
  congr 1
  apply List.ext_getElem?
  intro row
  have hrow : (group key items ++ List.replicate n [])[row]? = if row < max (rowCount key items) (key item + 1) then
      some (items.filter fun item => key item = row) else none := by
    rw [List.getElem?_append, length_group, getElem?_group, List.getElem?_replicate]
    split
    · next hlt => rw [if_pos (lt_max_of_lt_left hlt)]
    · next hnot =>
      have hempty : items.filter (fun item => key item = row) = [] := by
        rw [List.filter_eq_nil_iff]
        intro other hother hkey
        rw [decide_eq_true_eq] at hkey
        exact hnot (hkey ▸ lt_rowCount hother)
      rw [hempty]
      by_cases hlt : row < max (rowCount key items) (key item + 1)
      · rw [if_pos (by omega), if_pos hlt]
      · rw [if_neg (by omega), if_neg hlt]
  rw [List.getElem?_modify, hrow, getElem?_group, rowCount_append_singleton]
  by_cases hlt : row < max (rowCount key items) (key item + 1)
  · rw [if_pos hlt, if_pos hlt, Option.map_eq_map, Option.map_some, List.filter_append]
    by_cases hkey : key item = row
    · simp [hkey]
    · simp [hkey]
  · rw [if_neg hlt, if_neg hlt]
    rfl

theorem putIn_group (h : key item < rowCount key items) :
    putIn (group key items) (key item) item = some (group key (items ++ [item])) := by
  simpa using @putIn_replicate _ key items item 0 (by omega)

theorem putIn_group_append (h : key item = rowCount key items) :
    putIn (group key items ++ [[]]) (key item) item = some (group key (items ++ [item])) :=
  @putIn_replicate _ key items item 1 (by omega)

end Lumos.Grouping
