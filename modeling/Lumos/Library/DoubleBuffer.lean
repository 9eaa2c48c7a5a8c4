import Mathlib.Algebra.Group.Nat.Even
import Mathlib.Data.List.Basic

/-!
# Two arrays in turn

Each step reads the array that the step before it has written and writes over the other one.
The last result is in the array that was written first or in the other, by the number of steps.
-/
namespace Lumos.DoubleBuffer

variable {ι α : Type}

structure Buffers (α : Type) where
  input : List α
  output : List α
  outputCount : Nat
  /-- Whether `output` is the array it was at first. -/
  home : Bool

namespace Buffers

/-- The entries that the array in which they were at first has now. -/
def homeArray (b : Buffers α) : List α := if b.home then b.output else b.input

end Buffers

/-- The steps, until one has left nothing. A step is given the array it reads, the number of
its entries and the array to write over, and fails out of bounds. -/
def turns (fill : ι → List α → Nat → List α → Option (List α × Nat)) : List ι → Buffers α → Option (Buffers α)
  | [], b => some b
  | i :: rest, b =>
    if b.outputCount = 0 then some b else do
      let (output, outputCount) ← fill i b.output b.outputCount b.input
      turns fill rest ⟨b.output, output, outputCount, !b.home⟩

section Steps

variable (step : ι → List α → List α)

def result (steps : List ι) (items : List α) : List α := steps.foldl (fun items i => step i items) items

/-- The steps up to the one that leaves nothing. -/
def performed : List ι → List α → List ι
  | [], _ => []
  | i :: rest, items => if items.isEmpty then [] else i :: performed rest (step i items)

variable {step}

theorem result_cons (i : ι) (steps : List ι) (items : List α) :
    result step (i :: steps) items = result step steps (step i items) := rfl

theorem result_append_singleton (init : List ι) (last : ι) (items : List α) :
    result step (init ++ [last]) items = step last (result step init items) := by
  simp [result]

theorem result_nil (hnil : ∀ i, step i [] = []) (steps : List ι) : result step steps [] = [] := by
  induction steps with
  | nil => rfl
  | cons i rest ih =>
    rw [result_cons, hnil]
    exact ih

theorem performed_cons_of_ne_nil {items : List α} (h : items ≠ []) (i : ι) (rest : List ι) :
    performed step (i :: rest) items = i :: performed step rest (step i items) := by
  rw [performed, if_neg (by simpa using h)]

theorem performed_nil (steps : List ι) : performed step steps [] = [] := by
  cases steps <;> rfl

theorem mem_of_mem_performed {steps : List ι} {items : List α} {i : ι} (h : i ∈ performed step steps items) :
    i ∈ steps := by
  induction steps generalizing items with
  | nil => cases h
  | cons j rest ih =>
    unfold performed at h
    split at h
    · cases h
    · obtain rfl | h := List.mem_cons.mp h
      · exact List.mem_cons_self
      · exact List.mem_cons_of_mem j (ih h)

/-- The steps that are left out would do nothing. -/
theorem result_performed (hnil : ∀ i, step i [] = []) (steps : List ι) (items : List α) :
    result step (performed step steps items) items = result step steps items := by
  induction steps generalizing items with
  | nil => rfl
  | cons i rest ih =>
    by_cases hitems : items = []
    · subst hitems
      rw [performed_nil, result_nil hnil (i :: rest)]
      rfl
    · rw [performed_cons_of_ne_nil hitems, result_cons, result_cons]
      exact ih (step i items)

end Steps

/-! ## What the arrays hold -/

/-- The filling writes what the step leaves of the entries it reads over the front of the
array, where there is room. -/
def Fills (fill : ι → List α → Nat → List α → Option (List α × Nat)) (step : ι → List α → List α) : Prop :=
  ∀ i array count target, 0 < count → fill i array count target =
    if count ≤ array.length ∧ (step i (array.take count)).length ≤ target.length then
      some (step i (array.take count) ++ target.drop (step i (array.take count)).length,
        (step i (array.take count)).length)
    else none

/-- What has been written. -/
theorem Fills.written {fill : ι → List α → Nat → List α → Option (List α × Nat)} {step : ι → List α → List α}
    (hfill : Fills fill step) {i : ι} {array target output : List α} {count outputCount : Nat} (hpos : 0 < count)
    (h : fill i array count target = some (output, outputCount)) :
    count ≤ array.length ∧ outputCount ≤ output.length ∧ output.take outputCount = step i (array.take count) := by
  rw [hfill i array count target hpos] at h
  split at h
  · next hroom =>
    cases h
    refine ⟨hroom.1, ?_, List.take_left⟩
    rw [List.length_append]
    exact Nat.le_add_right _ _
  · cases h

/-- After the steps: the one array has the result of them all and the other that of all but the
last. -/
structure Turned (step : ι → List α → List α) (steps : List ι) (b b' : Buffers α) : Prop where
  entries : b'.output.take b'.outputCount = result step steps (b.output.take b.outputCount)
  home : b'.home = b.home ↔ Even (performed step steps (b.output.take b.outputCount)).length
  still : performed step steps (b.output.take b.outputCount) = [] → b' = b
  behind : ∀ {init : List ι} {last : ι}, performed step steps (b.output.take b.outputCount) = init ++ [last] →
    b'.outputCount ≤ b'.output.length ∧
      b'.input.take (result step init (b.output.take b.outputCount)).length =
        result step init (b.output.take b.outputCount)

section Turns

variable {fill : ι → List α → Nat → List α → Option (List α × Nat)} {step : ι → List α → List α}
  {steps : List ι} {b b' : Buffers α}

theorem turned_refl (hnone : performed step steps (b.output.take b.outputCount) = [])
    (hresult : result step steps (b.output.take b.outputCount) = b.output.take b.outputCount) :
    Turned step steps b b where
  entries := hresult.symm
  home := by simp [hnone]
  still := fun _ => rfl
  behind := by simp [hnone]

/-- One step before others. -/
theorem turned_cons {i : ι} {output : List α} {outputCount : Nat} (hzero : b.outputCount ≠ 0)
    (hcount : b.outputCount ≤ b.output.length) (hlength : outputCount ≤ output.length)
    (hentries : output.take outputCount = step i (b.output.take b.outputCount))
    (h : Turned step steps ⟨b.output, output, outputCount, !b.home⟩ b') : Turned step (i :: steps) b b' := by
  have hitems : b.output.take b.outputCount ≠ [] := by
    rw [ne_eq, ← List.length_eq_zero_iff, List.length_take]
    omega
  have hperformed := @performed_cons_of_ne_nil _ _ step _ hitems i steps
  obtain ⟨hresult, hhome, hstill, hbehind⟩ := h
  simp only [hentries] at hresult hhome hstill hbehind
  constructor
  · rw [hresult, result_cons]
  · rw [hperformed, List.length_cons, Nat.even_add_one, ← hhome]
    cases b.home <;> cases b'.home <;> simp
  · intro hnone
    rw [hperformed] at hnone
    cases hnone
  · intro init last hsplit
    rw [hperformed] at hsplit
    cases init with
    | nil =>
      cases hstill (List.cons.inj hsplit).2
      refine ⟨hlength, ?_⟩
      change b.output.take (b.output.take b.outputCount).length = b.output.take b.outputCount
      rw [List.length_take, Nat.min_eq_left hcount]
    | cons j init =>
      obtain ⟨rfl, hrest⟩ := List.cons.inj hsplit
      exact hbehind hrest

theorem turned_of_turns (hfill : Fills fill step) (hnil : ∀ i, step i [] = [])
    (h : turns fill steps b = some b') : Turned step steps b b' := by
  induction steps generalizing b with
  | nil =>
    cases h
    exact turned_refl rfl rfl
  | cons i rest ih =>
    unfold turns at h
    by_cases hzero : b.outputCount = 0
    · rw [if_pos hzero] at h
      cases h
      apply turned_refl
      · rw [hzero, List.take_zero, performed_nil]
      · rw [hzero, List.take_zero, result_nil hnil]
    · rw [if_neg hzero] at h
      obtain ⟨⟨output, outputCount⟩, hwritten, hrest⟩ := Option.bind_eq_some_iff.mp h
      obtain ⟨hcount, hlength, hentries⟩ := hfill.written (Nat.pos_of_ne_zero hzero) hwritten
      exact turned_cons hzero hcount hlength hentries (ih hrest)

/-- Each result fits into an array. -/
def Fits (step : ι → List α → List α) (capacity : Nat) : List ι → List α → Prop
  | [], _ => True
  | i :: rest, items => (step i items).length ≤ capacity ∧ Fits step capacity rest (step i items)

theorem fits_nil (hnil : ∀ i, step i [] = []) (capacity : Nat) (steps : List ι) : Fits step capacity steps [] := by
  induction steps with
  | nil => trivial
  | cons i rest ih =>
    rw [Fits, hnil]
    exact ⟨Nat.zero_le _, ih⟩

/-- The steps go through exactly where each result fits into an array. -/
theorem isSome_turns_iff (hfill : Fills fill step) (hnil : ∀ i, step i [] = []) {capacity : Nat}
    (hinput : b.input.length = capacity) (houtput : b.output.length = capacity) (hcount : b.outputCount ≤ capacity) :
    (turns fill steps b).isSome ↔ Fits step capacity steps (b.output.take b.outputCount) := by
  induction steps generalizing b with
  | nil => exact iff_of_true rfl trivial
  | cons i rest ih =>
    unfold turns
    by_cases hzero : b.outputCount = 0
    · rw [if_pos hzero, hzero, List.take_zero]
      exact iff_of_true rfl (fits_nil hnil capacity _)
    · rw [if_neg hzero, hfill _ _ _ _ (Nat.pos_of_ne_zero hzero), Fits, hinput, houtput]
      by_cases hfits : (step i (b.output.take b.outputCount)).length ≤ capacity
      · rw [if_pos ⟨hcount, hfits⟩, Option.bind_eq_bind, Option.bind_some]
        refine (ih houtput ?_ hfits).trans ?_
        · rw [List.length_append, List.length_drop, hinput]
          exact Nat.add_sub_of_le hfits
        · rw [List.take_left]
          exact (and_iff_right hfits).symm
      · rw [if_neg fun h => hfits h.2]
        exact iff_of_false Bool.false_ne_true fun h => hfits h.1

/-- The arrays keep their size, and the entries stay within it. -/
theorem length_of_turns (hfill : Fills fill step) {capacity : Nat} (hinput : b.input.length = capacity)
    (houtput : b.output.length = capacity) (hcount : b.outputCount ≤ capacity) (h : turns fill steps b = some b') :
    b'.input.length = capacity ∧ b'.output.length = capacity ∧ b'.outputCount ≤ capacity := by
  induction steps generalizing b with
  | nil =>
    cases h
    exact ⟨hinput, houtput, hcount⟩
  | cons i rest ih =>
    unfold turns at h
    by_cases hzero : b.outputCount = 0
    · rw [if_pos hzero] at h
      cases h
      exact ⟨hinput, houtput, hcount⟩
    · rw [if_neg hzero] at h
      obtain ⟨⟨output, outputCount⟩, hwritten, hrest⟩ := Option.bind_eq_some_iff.mp h
      rw [hfill i b.output b.outputCount b.input (Nat.pos_of_ne_zero hzero)] at hwritten
      split at hwritten
      · next hroom =>
        cases hwritten
        refine ih houtput ?_ (hinput ▸ hroom.2) hrest
        rw [List.length_append, List.length_drop, Nat.add_sub_of_le hroom.2, hinput]
      · cases hwritten

theorem fits_iff_isPrefix {capacity : Nat} {items : List α} (hitems : items.length ≤ capacity) :
    Fits step capacity steps items ↔ ∀ init, init <+: steps → (result step init items).length ≤ capacity := by
  induction steps generalizing items with
  | nil =>
    refine iff_of_true trivial fun init hinit => ?_
    rw [List.prefix_nil.mp hinit]
    exact hitems
  | cons i rest ih =>
    constructor
    · rintro ⟨hfirst, hrest⟩ init hinit
      cases init with
      | nil => exact hitems
      | cons j init =>
        obtain ⟨rfl, hrestInit⟩ := List.cons_prefix_cons.mp hinit
        exact (ih hfirst).mp hrest init hrestInit
    · intro hall
      have hfirst : (step i items).length ≤ capacity := hall [i] (List.cons_prefix_cons.mpr ⟨rfl, List.nil_prefix⟩)
      exact ⟨hfirst, (ih hfirst).mpr fun init hinit => hall (i :: init) (List.cons_prefix_cons.mpr ⟨rfl, hinit⟩)⟩

/-- What the first array begins with: after an even number of steps the result, and else what
the last step was given. -/
theorem take_homeArray (h : Turned step steps b b') (hhome : b.home = true) :
    (Even (performed step steps (b.output.take b.outputCount)).length →
      b'.homeArray.take b'.outputCount = result step steps (b.output.take b.outputCount)) ∧
    ∀ {init : List ι} {last : ι}, performed step steps (b.output.take b.outputCount) = init ++ [last] →
      ¬ Even (performed step steps (b.output.take b.outputCount)).length →
      b'.homeArray.take (result step init (b.output.take b.outputCount)).length =
        result step init (b.output.take b.outputCount) := by
  have hparity := h.home
  rw [hhome] at hparity
  constructor
  · intro heven
    rw [Buffers.homeArray, if_pos (hparity.mpr heven)]
    exact h.entries
  · intro init last hsplit hodd
    rw [Buffers.homeArray, if_neg (mt hparity.mp hodd)]
    exact (h.behind hsplit).2

end Turns

end Lumos.DoubleBuffer
