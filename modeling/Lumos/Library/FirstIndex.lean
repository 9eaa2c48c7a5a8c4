import Mathlib

/-!
# Elements by their first index

A list is stored as a table and a list of indices into it. Every element is in the table where
it occurs for the first time in the list, and what else is in the table does not matter.
Elements are compared with a test for equality that need not be that of Lean.
-/
namespace Lumos.FirstIndex

variable {α : Type} [BEq α]

/-- Where an element that equals `x` comes first. -/
def firstIndex (xs : List α) (x : α) : Option Nat := xs.findIdx? (· == x)

/-- The table and the indices of a list, which may have room for more. -/
structure Represents (xs table : List α) (indices : List Nat) : Prop where
  table : ∀ (k : Nat) (y : α), xs[k]? = some y → firstIndex xs y = some k → table[k]? = some y
  indices : ∀ (i : Nat) (y : α), xs[i]? = some y → indices[i]? = firstIndex xs y

variable {xs table : List α} {indices : List Nat} {x y : α} {i j k : Nat}

theorem represents_nil : Represents ([] : List α) table indices :=
  ⟨fun _ _ h => absurd h (by simp), fun _ _ h => absurd h (by simp)⟩

theorem firstIndex_concat (xs : List α) (x y : α) :
    firstIndex (xs ++ [y]) x = (firstIndex xs x).or (if y == x then some xs.length else none) := by
  rw [firstIndex, List.findIdx?_append, firstIndex]
  congr 1
  by_cases h : y == x <;> simp [List.findIdx?_cons, h]

theorem firstIndex_lt (h : firstIndex xs x = some k) : k < xs.length :=
  (List.findIdx?_eq_some_iff_getElem.mp h).1

theorem firstIndex_spec (h : firstIndex xs x = some k) : ∃ y, xs[k]? = some y ∧ (y == x) = true := by
  obtain ⟨hlt, heq, -⟩ := List.findIdx?_eq_some_iff_getElem.mp h
  exact ⟨xs[k], List.getElem?_eq_getElem hlt, heq⟩

section Equivalence

variable [EquivBEq α]

theorem exists_firstIndex (h : x ∈ xs) : ∃ k, firstIndex xs x = some k := by
  cases hfirst : firstIndex xs x with
  | none => exact absurd (List.findIdx?_eq_none_iff.mp hfirst x h) (by simp)
  | some k => exact ⟨k, rfl⟩

theorem firstIndex_congr (h : (x == y) = true) : firstIndex xs x = firstIndex xs y := by
  rw [firstIndex, firstIndex]
  congr 1
  funext z
  exact BEq.congr_right h

theorem firstIndex_eq_iff (hx : x ∈ xs) : firstIndex xs x = firstIndex xs y ↔ (x == y) = true := by
  constructor
  · intro h
    obtain ⟨k, hk⟩ := exists_firstIndex hx
    obtain ⟨z, hz, hzx⟩ := firstIndex_spec hk
    obtain ⟨z', hz', hzy⟩ := firstIndex_spec (h.symm.trans hk)
    cases hz.symm.trans hz'
    exact BEq.trans (BEq.symm hzx) hzy
  · exact firstIndex_congr

namespace Represents

/-- The element at an index is found in the table. -/
theorem lookup (h : Represents xs table indices) (hi : xs[i]? = some x) :
    ∃ k y, indices[i]? = some k ∧ table[k]? = some y ∧ (y == x) = true := by
  obtain ⟨k, hk⟩ := exists_firstIndex (List.mem_of_getElem? hi)
  obtain ⟨y, hy, hyx⟩ := firstIndex_spec hk
  have hfirst : firstIndex xs y = some k := (firstIndex_congr hyx).trans hk
  exact ⟨k, y, (h.indices i x hi).trans hk, h.table k y hy hfirst, hyx⟩

theorem index_eq_iff (h : Represents xs table indices) (hi : xs[i]? = some x) (hj : xs[j]? = some y) :
    indices[i]? = indices[j]? ↔ (x == y) = true := by
  rw [h.indices i x hi, h.indices j y hj]
  exact firstIndex_eq_iff (List.mem_of_getElem? hi)

/-- An element that is there already. -/
theorem concat_old (h : Represents xs table indices) (hlength : xs.length < indices.length)
    (hk : firstIndex xs x = some k) : Represents (xs ++ [x]) table (indices.set xs.length k) := by
  have hfirst : ∀ y, firstIndex (xs ++ [x]) y = firstIndex xs y := by
    intro y
    rw [firstIndex_concat]
    split_ifs with hxy
    · rw [← firstIndex_congr hxy, hk]
      rfl
    · exact Option.or_none
  constructor
  · intro i y hi hy
    rw [hfirst] at hy
    rw [List.getElem?_append_left (firstIndex_lt hy)] at hi
    exact h.table i y hi hy
  · intro i y hi
    rw [hfirst]
    rcases Nat.lt_or_ge i xs.length with hlt | hge
    · rw [List.getElem?_append_left hlt] at hi
      rw [List.getElem?_set_ne hlt.ne']
      exact h.indices i y hi
    · have hi' : i = xs.length := by
        have hlt := (List.getElem?_eq_some_iff.mp hi).1
        rw [List.length_append, List.length_singleton] at hlt
        omega
      subst hi'
      rw [List.getElem?_concat_length] at hi
      cases hi
      rw [List.getElem?_set_self hlength, hk]

/-- An element that is new is put into the table at its own index. -/
theorem concat_new (h : Represents xs table indices) (hlength : xs.length < indices.length)
    (htable : xs.length < table.length) (hk : firstIndex xs x = none) :
    Represents (xs ++ [x]) (table.set xs.length x) (indices.set xs.length xs.length) := by
  have hself : firstIndex (xs ++ [x]) x = some xs.length := by
    rw [firstIndex_concat, hk, if_pos BEq.rfl]
    rfl
  have hfirst : ∀ {y k}, firstIndex xs y = some k → firstIndex (xs ++ [x]) y = some k := by
    intro y k hy
    rw [firstIndex_concat, hy]
    rfl
  have hlast : ∀ {i y}, (xs ++ [x])[i]? = some y → xs[i]? = some y ∨ i = xs.length ∧ x = y := by
    intro i y hi
    rcases Nat.lt_or_ge i xs.length with hlt | hge
    · rw [List.getElem?_append_left hlt] at hi
      exact Or.inl hi
    · have hi' : i = xs.length := by
        have hlt := (List.getElem?_eq_some_iff.mp hi).1
        rw [List.length_append, List.length_singleton] at hlt
        omega
      subst hi'
      rw [List.getElem?_concat_length] at hi
      exact Or.inr ⟨rfl, Option.some.inj hi⟩
  constructor
  · intro i y hi hy
    rcases hlast hi with hi | ⟨rfl, rfl⟩
    · obtain ⟨k, hk'⟩ := exists_firstIndex (List.mem_of_getElem? hi)
      cases (hfirst hk').symm.trans hy
      rw [List.getElem?_set_ne (firstIndex_lt hk').ne']
      exact h.table i y hi hk'
    · exact List.getElem?_set_self htable
  · intro i y hi
    rcases hlast hi with hi | ⟨rfl, rfl⟩
    · obtain ⟨k, hk'⟩ := exists_firstIndex (List.mem_of_getElem? hi)
      have hlt := (List.getElem?_eq_some_iff.mp hi).1
      rw [List.getElem?_set_ne hlt.ne', h.indices i y hi, hk', hfirst hk']
    · rw [List.getElem?_set_self hlength, hself]

end Represents

end Equivalence

end Lumos.FirstIndex
