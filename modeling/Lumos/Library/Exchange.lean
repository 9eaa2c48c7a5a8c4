import Mathlib.Algebra.BigOperators.Pi
import Mathlib.Tactic.Abel

/-!
# Quantities that are exchanged

Parties in a finite family hold some of a quantity. What one of them is given and another
gives leaves the total as it was; and so does a sequence of steps that all do.
-/
namespace Lumos.Exchange

section Totals

variable {ι σ M : Type} [Fintype ι] [DecidableEq ι] [AddCommGroup M] (q : σ → M)

/-- What the family holds together. -/
def total (s : ι → σ) : M := ∑ i, q (s i)

theorem total_update (s : ι → σ) (i : ι) (x : σ) :
    total q (Function.update s i x) = total q s + (q x - q (s i)) := by
  have hupdate : (fun k => q (Function.update s i x k)) = Function.update (fun k => q (s k)) i (q x) := by
    funext k
    exact Function.apply_update (fun _ => q) s i x k
  have hsplit := Finset.sum_erase_add Finset.univ (fun k => q (s k)) (Finset.mem_univ i)
  rw [total, hupdate, Finset.sum_update_of_mem (Finset.mem_univ i), total, ← hsplit,
    Finset.sdiff_singleton_eq_erase]
  abel

/-- The parties may be one and the same. -/
theorem total_transfer {s : ι → σ} {i j : ι} {x y : σ} {d : M} (hx : q x = q (s i) + d)
    (hy : q y = q (Function.update s i x j) - d) :
    total q (Function.update (Function.update s i x) j y) = total q s := by
  rw [total_update, total_update, hx, hy]
  abel

end Totals

section Threads

variable {σ α : Type} (step : σ → α → σ × α)

/-- The step applied to every item in turn, each in the state the one before has left. -/
def thread : σ → List α → σ × List α
  | s, [] => (s, [])
  | s, a :: items =>
    let (s, a) := step s a
    let (s, items) := thread s items
    (s, a :: items)

/-- What every step keeps is kept all the way. -/
theorem thread_preserves {P : σ → Prop} (hstep : ∀ s a, P s → P (step s a).1) {s : σ} (items : List α)
    (hs : P s) : P (thread step s items).1 := by
  induction items generalizing s with
  | nil => exact hs
  | cons a items ih => exact ih (hstep s a hs)

/-- Every item meets the condition in the state it finds when it is its turn. -/
def Meets (C : σ → α → Prop) : σ → List α → Prop
  | _, [] => True
  | s, a :: items => C s a ∧ Meets C (step s a).1 items

/-- Where it depends on the condition what becomes of an item at its turn, it depends on it
what becomes of all of them. -/
theorem thread_forall_iff {I : σ → Prop} {P R : α → Prop} {C : σ → α → Prop} (hI : ∀ s a, I s → I (step s a).1)
    (hstep : ∀ s a, I s → P a → (R (step s a).2 ↔ C s a)) {s : σ} (items : List α) (hs : I s)
    (hitems : ∀ a ∈ items, P a) : (∀ a ∈ (thread step s items).2, R a) ↔ Meets step C s items := by
  induction items generalizing s with
  | nil => exact ⟨fun _ => trivial, fun _ a ha => absurd ha List.not_mem_nil⟩
  | cons a items ih =>
    obtain ⟨ha, hrest⟩ := List.forall_mem_cons.mp hitems
    rw [thread, List.forall_mem_cons, hstep s a hs ha, ih (hI s a hs) hrest]
    rfl

end Threads

end Lumos.Exchange
