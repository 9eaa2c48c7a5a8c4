import Mathlib.Order.Defs.Unbundled

/-!
# The best of a list

A search keeps the best value it has come upon and the item that had it, starting from a
value of no item.
-/
namespace Lumos.RunningBest

variable {α β κ : Type*} (better : κ → κ → Bool) (value : α → κ) (item : α → β)

def keep (best : κ × β) (x : α) : κ × β := if better (value x) best.1 then (value x, item x) else best

/-- The best of what has been searched: of an item, unless none is better than the first
value. -/
structure Best (le : κ → κ → Prop) (first : κ × β) (searched : List α) (best : κ × β) : Prop where
  le_first : le best.1 first.1
  le_value : ∀ x ∈ searched, le best.1 (value x)
  found : (∃ x ∈ searched, best = (value x, item x)) ∨
    best = first ∧ ∀ x ∈ searched, better (value x) first.1 = false

variable {better value item} {le : κ → κ → Prop}

/-- Where an item is better than the first value, the best is that of an item. -/
theorem Best.exists_item {first best : κ × β} {searched : List α}
    (h : Best better value item le first searched best) {x : α} (hx : x ∈ searched)
    (hfirst : better (value x) first.1 = true) : ∃ y ∈ searched, best = (value y, item y) := by
  cases h.found with
  | inl hfound => exact hfound
  | inr hnone =>
    have hfalse := hnone.2 x hx
    rw [hfirst] at hfalse
    cases hfalse

variable [Std.Refl le] [IsTrans κ le]

theorem best_foldl (hbetter : ∀ a b, better a b = true → le a b) (hworse : ∀ a b, better a b = false → le b a)
    (l : List α) (first : κ × β) : Best better value item le first l (l.foldl (keep better value item) first) := by
  induction l generalizing first with
  | nil =>
    exact ⟨refl_of le _, fun x hx => absurd hx List.not_mem_nil,
      Or.inr ⟨rfl, fun x hx => absurd hx List.not_mem_nil⟩⟩
  | cons x l ih =>
    have hrest := ih (keep better value item first x)
    rw [List.foldl_cons]
    cases hx : better (value x) first.1 with
    | true =>
      have hkeep : keep better value item first x = (value x, item x) := by
        rw [keep, hx]
        rfl
      rw [hkeep] at hrest ⊢
      constructor
      · exact trans_of le hrest.le_first (hbetter _ _ hx)
      · intro y hy
        cases hy with
        | head => exact hrest.le_first
        | tail _ hy => exact hrest.le_value y hy
      · left
        cases hrest.found with
        | inl hfound =>
          obtain ⟨y, hy, hbest⟩ := hfound
          exact ⟨y, List.mem_cons_of_mem _ hy, hbest⟩
        | inr hfirst => exact ⟨x, List.mem_cons_self, hfirst.1⟩
    | false =>
      have hkeep : keep better value item first x = first := by
        rw [keep, hx]
        rfl
      rw [hkeep] at hrest ⊢
      constructor
      · exact hrest.le_first
      · intro y hy
        cases hy with
        | head => exact trans_of le hrest.le_first (hworse _ _ hx)
        | tail _ hy => exact hrest.le_value y hy
      · cases hrest.found with
        | inl hfound =>
          obtain ⟨y, hy, hbest⟩ := hfound
          exact Or.inl ⟨y, List.mem_cons_of_mem _ hy, hbest⟩
        | inr hfirst =>
          refine Or.inr ⟨hfirst.1, fun y hy => ?_⟩
          cases hy with
          | head => exact hx
          | tail _ hy => exact hfirst.2 y hy

end Lumos.RunningBest
