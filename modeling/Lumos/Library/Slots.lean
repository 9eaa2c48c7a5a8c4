import Mathlib.Logic.Function.Basic
import Mathlib.Data.List.Induction

/-!
# Slots

Values are stored under keys, one after the other, and each slot has what was stored last
under its key.
-/
namespace Lumos.Slots

variable {κ α β ι : Type}

/-- Nothing is stored. -/
def vacant : κ → Option α := fun _ => none

@[simp] theorem vacant_apply {k : κ} : (vacant : κ → Option α) k = none := rfl

variable [DecidableEq κ]

def store (writes : List (κ × α)) (slots : κ → Option α) : κ → Option α :=
  writes.foldl (fun slots w => Function.update slots w.1 (some w.2)) slots

variable {ws vs : List (κ × α)} {w : κ × α} {m : κ → Option α} {k : κ} {a : α}

@[simp] theorem store_nil : store [] m = m := rfl

theorem store_append : store (ws ++ vs) m = store vs (store ws m) := List.foldl_append

theorem store_concat : store (ws ++ [w]) m k = if k = w.1 then some w.2 else store ws m k := by
  rw [store_append]
  exact Function.update_apply _ _ _ _

/-- What was there before shows where nothing is stored. -/
theorem store_apply : store ws m k = (store ws vacant k).or (m k) := by
  induction ws using List.reverseRecOn with
  | nil => rfl
  | append_singleton ws w ih =>
    rw [store_concat, store_concat]
    split
    · rfl
    · exact ih

theorem store_append_apply : store (ws ++ vs) vacant k = (store vs vacant k).or (store ws vacant k) := by
  rw [store_append, store_apply]

theorem store_cons : store (w :: ws) vacant k = (store ws vacant k).or (if k = w.1 then some w.2 else none) := by
  have happend : w :: ws = ([] ++ [w]) ++ ws := rfl
  rw [happend, store_append_apply, store_concat, store_nil, vacant_apply]

/-- What was stored last is stored again to no effect. -/
theorem store_again : store vs (store (ws ++ vs) m) = store (ws ++ vs) m := by
  funext k
  rw [store_apply, store_append, store_apply (m := store ws m)]
  cases store vs vacant k <;> rfl

theorem store_eq_none : store ws vacant k = none ↔ ∀ w ∈ ws, w.1 ≠ k := by
  induction ws with
  | nil => exact ⟨fun _ w hw => absurd hw List.not_mem_nil, fun _ => rfl⟩
  | cons w ws ih =>
    rw [store_cons, Option.or_eq_none_iff, ih, List.forall_mem_cons, and_comm]
    refine and_congr_left fun _ => ?_
    by_cases hk : k = w.1
    · simp [hk]
    · simp [hk, Ne.symm hk]

/-- What a slot has was stored under its key, and nothing after it. -/
theorem store_eq_some : store ws vacant k = some a ↔
    ∃ before after, ws = before ++ (k, a) :: after ∧ ∀ w ∈ after, w.1 ≠ k := by
  constructor
  · intro h
    induction ws with
    | nil => cases h
    | cons w ws ih =>
      rw [store_cons] at h
      cases hrest : store ws vacant k with
      | some b =>
        rw [hrest] at h ih
        obtain ⟨before, after, rfl, hafter⟩ := ih h
        exact ⟨w :: before, after, rfl, hafter⟩
      | none =>
        rw [hrest, Option.none_or, Option.ite_none_right_eq_some] at h
        obtain ⟨rfl, hw⟩ := h
        cases hw
        exact ⟨[], ws, rfl, store_eq_none.mp hrest⟩
  · rintro ⟨before, after, rfl, hafter⟩
    rw [store_append_apply, store_cons, store_eq_none.mpr hafter, if_pos rfl]
    rfl

theorem store_map (f : α → β) :
    store (ws.map fun w => (w.1, f w.2)) vacant k = (store ws vacant k).map f := by
  induction ws with
  | nil => rfl
  | cons w ws ih =>
    rw [List.map_cons, store_cons, store_cons, ih]
    cases store ws vacant k with
    | some b => rfl
    | none =>
      by_cases hk : k = w.1
      · simp [hk]
      · simp [hk]

/-- Of several groups of values, the last with the key decides. -/
theorem store_flatMap {xs ys : List ι} {x : ι} {f : ι → List (κ × α)} (hx : store (f x) vacant k = some a)
    (hys : ∀ y ∈ ys, store (f y) vacant k = none) : store ((xs ++ x :: ys).flatMap f) vacant k = some a := by
  have hnone : store (ys.flatMap f) vacant k = none := by
    rw [store_eq_none]
    intro w hw
    obtain ⟨y, hy, hwy⟩ := List.mem_flatMap.mp hw
    exact store_eq_none.mp (hys y hy) w hwy
  rw [List.flatMap_append, List.flatMap_cons, store_append_apply, store_append_apply, hnone, hx]
  rfl

/-- Where the values have their keys, a slot has the last with its key. -/
theorem store_key_eq_some {xs : List α} {key : α → κ} {x : α} :
    store (xs.map fun x => (key x, x)) vacant k = some x ↔
      key x = k ∧ ∃ before after, xs = before ++ x :: after ∧ ∀ y ∈ after, key y ≠ k := by
  rw [store_eq_some]
  constructor
  · rintro ⟨before, after, heq, hafter⟩
    obtain ⟨xs₁, xs₂, rfl, -, hxs⟩ := List.map_eq_append_iff.mp heq
    obtain ⟨y, ys, rfl, hy, rfl⟩ := List.map_eq_cons_iff.mp hxs
    cases hy
    exact ⟨rfl, xs₁, ys, rfl, fun y hy => hafter _ (List.mem_map_of_mem hy)⟩
  · rintro ⟨rfl, before, after, rfl, hafter⟩
    refine ⟨before.map fun x => (key x, x), after.map fun x => (key x, x), by simp, ?_⟩
    intro w hw
    obtain ⟨y, hy, rfl⟩ := List.mem_map.mp hw
    exact hafter y hy

/-- The last of the elements with a property, if there is one. -/
theorem exists_last (p : α → Prop) (xs : List α) : (∀ x ∈ xs, ¬p x) ∨
    ∃ before x after, xs = before ++ x :: after ∧ p x ∧ ∀ y ∈ after, ¬p y := by
  induction xs with
  | nil => exact .inl fun x hx => absurd hx List.not_mem_nil
  | cons x xs ih =>
    obtain hnone | ⟨before, y, after, rfl, hy, hafter⟩ := ih
    · by_cases hx : p x
      · exact .inr ⟨[], x, xs, rfl, hx, hnone⟩
      · exact .inl (List.forall_mem_cons.mpr ⟨hx, hnone⟩)
    · exact .inr ⟨x :: before, y, after, rfl, hy, hafter⟩

end Lumos.Slots
