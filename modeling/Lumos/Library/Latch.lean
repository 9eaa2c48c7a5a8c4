import Mathlib.Data.List.Basic

/-!
# Latches

A flag that some elements of a list set and others clear, as the list is worked through from
its head.
-/
namespace Lumos.Latch

variable {α σ : Type}

/-- Something sets the flag and nothing behind it clears it. -/
def Latched (sets clears : α → Prop) : List α → Prop
  | [] => False
  | x :: xs => (sets x ∧ ∀ y ∈ xs, ¬ clears y) ∨ Latched sets clears xs

variable {sets clears : α → Prop}

@[simp] theorem not_latched_nil : ¬ Latched sets clears [] := id

theorem latched_cons {x : α} {xs : List α} :
    Latched sets clears (x :: xs) ↔ (sets x ∧ ∀ y ∈ xs, ¬ clears y) ∨ Latched sets clears xs := Iff.rfl

/-- Where it does not matter for one step whether an element that sets the flag found it set,
the flag is set in the end if it is latched, or was set and is not cleared. -/
theorem flag_foldlM {step : σ → α → Option σ} (flag : σ → Prop)
    (hstep : ∀ s x t, step s x = some t → (flag t ↔ sets x ∨ flag s ∧ ¬ clears x)) (xs : List α) {s t : σ}
    (h : xs.foldlM step s = some t) :
    flag t ↔ Latched sets clears xs ∨ flag s ∧ ∀ x ∈ xs, ¬ clears x := by
  induction xs generalizing s with
  | nil =>
    cases h
    simp
  | cons x xs ih =>
    obtain ⟨u, hu, hrest⟩ := Option.bind_eq_some_iff.mp h
    rw [ih hrest, hstep s x u hu, latched_cons, List.forall_mem_cons]
    tauto

/-- The same where no step fails. -/
theorem flag_foldl {step : σ → α → σ} (flag : σ → Prop)
    (hstep : ∀ s x, flag (step s x) ↔ sets x ∨ flag s ∧ ¬ clears x) (xs : List α) (s : σ) :
    flag (xs.foldl step s) ↔ Latched sets clears xs ∨ flag s ∧ ∀ x ∈ xs, ¬ clears x := by
  induction xs generalizing s with
  | nil => simp
  | cons x xs ih =>
    rw [List.foldl_cons, ih, hstep, latched_cons, List.forall_mem_cons]
    tauto

theorem latched_append (xs ys : List α) : Latched sets clears (xs ++ ys) ↔
    Latched sets clears ys ∨ Latched sets clears xs ∧ ∀ y ∈ ys, ¬ clears y := by
  induction xs with
  | nil => simp
  | cons x xs ih =>
    rw [List.cons_append, latched_cons, ih, latched_cons, List.forall_mem_append]
    tauto

/-- Lists one behind the other are latched like one list. -/
theorem latched_flatMap {β : Type} (g : β → List α) (bs : List β) : Latched sets clears (bs.flatMap g) ↔
    Latched (fun b => Latched sets clears (g b)) (fun b => ∃ x ∈ g b, clears x) bs := by
  induction bs with
  | nil => rfl
  | cons b bs ih =>
    rw [List.flatMap_cons, latched_append, ih, latched_cons, List.forall_mem_flatMap, or_comm]
    simp only [not_exists, not_and]

theorem Latched.mono {sets' clears' : α → Prop} (hsets : ∀ x, sets x → sets' x) (hclears : ∀ x, clears' x → clears x)
    {xs : List α} (h : Latched sets clears xs) : Latched sets' clears' xs := by
  induction xs with
  | nil => exact h
  | cons x xs ih =>
    rcases h with ⟨hx, hxs⟩ | h
    · exact .inl ⟨hsets x hx, fun y hy hclear => hxs y hy (hclears y hclear)⟩
    · exact .inr (ih h)

/-- Leaving out what does not clear the flag can only leave out what sets it. -/
theorem Latched.of_filter {p : α → Bool} (hp : ∀ x, clears x → p x = true) {xs : List α}
    (h : Latched sets clears (xs.filter p)) : Latched sets clears xs := by
  induction xs with
  | nil => exact h
  | cons x xs ih =>
    rw [List.filter_cons] at h
    split at h
    · rcases h with ⟨hx, hxs⟩ | h
      · exact .inl ⟨hx, fun y hy hclear => hxs y (List.mem_filter.mpr ⟨hy, hp y hclear⟩) hclear⟩
      · exact .inr (ih h)
    · exact .inr (ih h)

theorem latched_of_clears_none (xs : List α) : Latched sets (fun _ => False) xs ↔ ∃ x ∈ xs, sets x := by
  induction xs with
  | nil => simp
  | cons x xs ih => rw [latched_cons, ih]; simp

end Lumos.Latch
