import Mathlib

/-!
# Values that are computed when they are asked for

A cache keeps a value and a flag that it has to be computed again. What it should hold is
the truth, which changes while the cache is not looked at.
-/
namespace Lumos.LazyCache

structure Cached (α : Type) where
  value : α
  dirty : Bool

namespace Cached

variable {α : Type}

/-- Unless it is to be computed again, the value is the truth. -/
def Coherent (c : Cached α) (truth : α) : Prop := c.dirty = false → c.value = truth

def invalidate (c : Cached α) : Cached α := { c with dirty := true }

/-- Computing the value again where this is due. -/
def refresh (truth : α) (c : Cached α) : Cached α := if c.dirty then ⟨truth, false⟩ else c

@[simp] theorem refresh_of_dirty {c : Cached α} (h : c.dirty = true) (truth : α) :
    c.refresh truth = ⟨truth, false⟩ := if_pos h

@[simp] theorem refresh_of_clean {c : Cached α} (h : c.dirty = false) (truth : α) :
    c.refresh truth = c := by simp [refresh, h]

@[simp] theorem refresh_dirty (c : Cached α) (truth : α) : (c.refresh truth).dirty = false := by
  cases h : c.dirty <;> simp [h]

theorem coherent_of_dirty {c : Cached α} (h : c.dirty = true) (truth : α) : c.Coherent truth := by
  intro hclean
  rw [h] at hclean
  contradiction

/-- What is read is the truth exactly when the cache is coherent. -/
theorem refresh_value_iff (c : Cached α) (truth : α) : (c.refresh truth).value = truth ↔ c.Coherent truth := by
  cases h : c.dirty with
  | true => simp [h, coherent_of_dirty h]
  | false => simp [h, Coherent]

theorem coherent_refresh {c : Cached α} {truth : α} (h : c.Coherent truth) :
    (c.refresh truth).Coherent truth := fun _ => (refresh_value_iff c truth).mpr h

/-- When the truth changes behind a clean cache, the cache is coherent with both only if
they are the same. -/
theorem coherent_change_iff {c : Cached α} {before after : α} (h : c.Coherent before) :
    c.Coherent after ↔ c.dirty = true ∨ before = after := by
  cases hc : c.dirty with
  | true => simp [coherent_of_dirty hc]
  | false =>
    have hvalue : c.value = before := h hc
    simp [Coherent, hc, hvalue]

end Cached

end Lumos.LazyCache

/-!
# Caches that know things by a key

Who asks for a thing by its description is handed what was made for the first description
with the same key, until the key is forgotten. Descriptions with the same key are taken for
one another.
-/
namespace Lumos.KeyedCache

variable {δ κ : Type}

inductive Event (δ κ : Type) where
  | ask (d : δ)
  | forget (gone : κ → Bool)

/-- What the thing under a key was made from. -/
abbrev Cache (δ κ : Type) := κ → Option δ

/-- Until `k` is forgotten nothing but `d` is asked for by it. -/
def Only (key : δ → κ) (k : κ) (d : δ) : List (Event δ κ) → Prop
  | [] => True
  | .ask d' :: es => (key d' = k → d' = d) ∧ Only key k d es
  | .forget gone :: es => gone k = false → Only key k d es

/-- Between two different descriptions with one key that key is forgotten. -/
def Apart (key : δ → κ) : List (Event δ κ) → Prop
  | [] => True
  | .ask d :: es => Only key (key d) d es ∧ Apart key es
  | .forget _ :: es => Apart key es

/-- What the thing was made from that is handed out for `d`. -/
def answer (key : δ → κ) (cache : Cache δ κ) (d : δ) : δ := (cache (key d)).getD d

section Answer

variable {key : δ → κ} {cache : Cache δ κ} {d d' : δ}

theorem answer_of_none (h : cache (key d) = none) : answer key cache d = d := by
  rw [answer, h, Option.getD_none]

theorem answer_of_some (h : cache (key d) = some d') : answer key cache d = d' := by
  rw [answer, h, Option.getD_some]

end Answer

variable [DecidableEq κ] (key : δ → κ)

def step (cache : Cache δ κ) : Event δ κ → Cache δ κ
  | .ask d => fun k => if k = key d then some (answer key cache d) else cache k
  | .forget gone => fun k => if gone k then none else cache k

/-- Everything handed out was made from what was asked for. -/
def Right : Cache δ κ → List (Event δ κ) → Prop
  | _, [] => True
  | cache, .ask d :: es => answer key cache d = d ∧ Right (step key cache (.ask d)) es
  | cache, .forget gone :: es => Right (step key cache (.forget gone)) es

variable {key} {cache : Cache δ κ}

theorem step_ask_same (d : δ) : step key cache (.ask d) (key d) = some (answer key cache d) := if_pos rfl

theorem step_ask_other {d : δ} {k : κ} (h : k ≠ key d) : step key cache (.ask d) k = cache k := if_neg h

theorem step_forget_eq_some_iff (gone : κ → Bool) (k : κ) (d : δ) :
    step key cache (.forget gone) k = some d ↔ gone k = false ∧ cache k = some d := by
  cases h : gone k <;> simp [step, h]

/-- From any cache. -/
theorem right_iff (es : List (Event δ κ)) :
    Right key cache es ↔ (∀ k d, cache k = some d → Only key k d es) ∧ Apart key es := by
  induction es generalizing cache with
  | nil => exact ⟨fun _ => ⟨fun _ _ _ => trivial, trivial⟩, fun _ => trivial⟩
  | cons e es ih =>
    cases e with
    | ask d =>
      constructor
      · rintro ⟨hanswer, hrest⟩
        obtain ⟨honly, hapart⟩ := ih.mp hrest
        have hd : Only key (key d) d es := honly (key d) d (by rw [step_ask_same, hanswer])
        refine ⟨fun k d' hk => ?_, hd, hapart⟩
        by_cases hkey : k = key d
        · subst hkey
          have heq : d' = d := (answer_of_some hk).symm.trans hanswer
          subst heq
          exact ⟨fun _ => rfl, hd⟩
        · exact ⟨fun h => absurd h.symm hkey, honly k d' (by rw [step_ask_other hkey, hk])⟩
      · rintro ⟨honly, hd, hapart⟩
        have hanswer : answer key cache d = d := by
          cases hk : cache (key d) with
          | none => exact answer_of_none hk
          | some d' => rw [answer_of_some hk, (honly (key d) d' hk).1 rfl]
        refine ⟨hanswer, ih.mpr ⟨fun k d' hk => ?_, hapart⟩⟩
        by_cases hkey : k = key d
        · subst hkey
          rw [step_ask_same, hanswer] at hk
          exact Option.some.inj hk ▸ hd
        · rw [step_ask_other hkey] at hk
          exact (honly k d' hk).2
    | forget gone =>
      rw [Right, ih, Apart]
      apply and_congr_left'
      constructor
      · intro h k d hk hgone
        exact h k d ((step_forget_eq_some_iff gone k d).mpr ⟨hgone, hk⟩)
      · intro h k d hk
        obtain ⟨hgone, hk'⟩ := (step_forget_eq_some_iff gone k d).mp hk
        exact h k d hk' hgone

/-- A cache that is empty at first hands out what was asked for exactly when descriptions
with one key are kept apart. -/
theorem right_iff_apart (es : List (Event δ κ)) : Right key (fun _ => none) es ↔ Apart key es := by
  rw [right_iff]
  exact ⟨fun h => h.2, fun h => ⟨fun _ _ hk => absurd hk (Option.some_ne_none _).symm, h⟩⟩

end Lumos.KeyedCache
