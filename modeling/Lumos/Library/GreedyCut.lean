import Mathlib.Data.List.Basic

/-!
# Cutting a list into runs

Items arrive one after the other and are put into the current run as long as they fit; an
item that does not fit begins the next run. If whatever fits also fits behind less, no other
way of cutting the list into runs needs fewer of them.
-/
namespace Lumos.GreedyCut

variable {α : Type}

section Cut

variable (fits : List α → α → Prop) [∀ run a, Decidable (fits run a)]

/-- The runs, of which the first continues the current one. -/
def cutFrom (current : List α) : List α → List (List α)
  | [] => [current]
  | a :: items => if fits current a then cutFrom (current ++ [a]) items else current :: cutFrom [a] items

def cut (items : List α) : List (List α) := cutFrom fits [] items

variable {fits}

@[simp] theorem cutFrom_nil (current : List α) : cutFrom fits current [] = [current] := rfl

theorem cutFrom_of_fits {current : List α} {a : α} (h : fits current a) (items : List α) :
    cutFrom fits current (a :: items) = cutFrom fits (current ++ [a]) items := if_pos h

theorem cutFrom_of_not_fits {current : List α} {a : α} (h : ¬ fits current a) (items : List α) :
    cutFrom fits current (a :: items) = current :: cutFrom fits [a] items := if_neg h

theorem flatten_cutFrom (current items : List α) : (cutFrom fits current items).flatten = current ++ items := by
  induction items generalizing current with
  | nil => simp
  | cons a items ih =>
    by_cases h : fits current a
    · rw [cutFrom_of_fits h, ih, List.append_assoc, List.singleton_append]
    · rw [cutFrom_of_not_fits h, List.flatten_cons, ih, List.singleton_append]

theorem flatten_cut (items : List α) : (cut fits items).flatten = items := flatten_cutFrom [] items

/-- The current run begins the first one. -/
theorem cutFrom_eq_cons (current items : List α) :
    ∃ more rest, cutFrom fits current items = (current ++ more) :: rest := by
  induction items generalizing current with
  | nil => exact ⟨[], [], by simp⟩
  | cons a items ih =>
    by_cases h : fits current a
    · obtain ⟨more, rest, hcut⟩ := ih (current ++ [a])
      exact ⟨a :: more, rest, by rw [cutFrom_of_fits h, hcut, List.append_assoc, List.singleton_append]⟩
    · exact ⟨[], cutFrom fits [a] items, by rw [cutFrom_of_not_fits h, List.append_nil]⟩

/-- Every item of a run fits behind those before it. -/
def Packed (fits : List α → α → Prop) (run : List α) : Prop := ∀ before a, before ++ [a] <+: run → fits before a

omit [∀ run a, Decidable (fits run a)] in
theorem packed_nil : Packed fits [] := by
  intro before a h
  simp at h

omit [∀ run a, Decidable (fits run a)] in
theorem packed_snoc {run : List α} {a : α} (hrun : Packed fits run) (ha : fits run a) : Packed fits (run ++ [a]) := by
  intro before b h
  rcases List.prefix_concat_iff.mp h with heq | hbegins
  · obtain ⟨rfl, hb⟩ := List.append_inj' heq rfl
    cases hb
    exact ha
  · exact hrun before b hbegins

/-- Every run that begins with an item is packed if items fit behind nothing. -/
theorem packed_of_mem_cutFrom (hempty : ∀ a, fits [] a) {current : List α} (hcurrent : Packed fits current)
    {items run : List α} (h : run ∈ cutFrom fits current items) : Packed fits run := by
  induction items generalizing current with
  | nil =>
    rw [cutFrom_nil, List.mem_singleton] at h
    rw [h]
    exact hcurrent
  | cons a items ih =>
    by_cases hfits : fits current a
    · rw [cutFrom_of_fits hfits] at h
      exact ih (packed_snoc hcurrent hfits) h
    · rw [cutFrom_of_not_fits hfits, List.mem_cons] at h
      rcases h with rfl | h
      · exact hcurrent
      · exact ih (packed_snoc packed_nil (hempty a)) h

theorem packed_of_mem_cut (hempty : ∀ a, fits [] a) {items run : List α} (h : run ∈ cut fits items) :
    Packed fits run := packed_of_mem_cutFrom hempty packed_nil h

/-! ## The least number of runs -/

/-- Whatever fits behind a run also fits behind the end of it. -/
def FitsBehindLess (fits : List α → α → Prop) : Prop :=
  ∀ less run a, less <:+ run → fits run a → fits less a

/-- With less in the current run there are no more runs, and with more there is at most one
more. -/
theorem length_cutFrom_of_suffix (hless : FitsBehindLess fits) (items : List α) :
    ∀ less run : List α, less <:+ run →
      (cutFrom fits less items).length ≤ (cutFrom fits run items).length ∧
        (cutFrom fits run items).length ≤ (cutFrom fits less items).length + 1 := by
  induction items with
  | nil =>
    intro less run _
    simp
  | cons a items ih =>
    intro less run h
    have happend : less ++ [a] <:+ run ++ [a] := by
      obtain ⟨t, rfl⟩ := h
      exact ⟨t, by simp⟩
    by_cases hrun : fits run a
    · rw [cutFrom_of_fits hrun, cutFrom_of_fits (hless less run a h hrun)]
      exact ih _ _ happend
    · by_cases hfits : fits less a
      · have hone := ih [a] (less ++ [a]) (List.suffix_append less [a])
        rw [cutFrom_of_not_fits hrun, cutFrom_of_fits hfits, List.length_cons]
        omega
      · rw [cutFrom_of_not_fits hrun, cutFrom_of_not_fits hfits, List.length_cons, List.length_cons]
        omega

/-- A packed run is not cut. -/
theorem cutFrom_packed {current run : List α} (h : Packed fits (current ++ run)) (items : List α) :
    cutFrom fits current (run ++ items) = cutFrom fits (current ++ run) items := by
  induction run generalizing current with
  | nil => simp
  | cons a run ih =>
    have hfits : fits current a := h current a ⟨run, by simp⟩
    have hpacked : Packed fits ((current ++ [a]) ++ run) := by
      rw [List.append_assoc]
      exact h
    rw [List.cons_append, cutFrom_of_fits hfits, ih hpacked, List.append_assoc, List.singleton_append]

theorem cut_of_packed {run : List α} (h : Packed fits run) : cut fits run = [run] := by
  have hpacked : Packed fits ([] ++ run) := h
  have hcut := cutFrom_packed hpacked []
  simpa [cut] using hcut

/-- No way of cutting a list into packed runs has fewer of them. -/
theorem length_cut_le (hless : FitsBehindLess fits) {runs : List (List α)} (hne : runs ≠ [])
    (hpacked : ∀ run ∈ runs, Packed fits run) : (cut fits runs.flatten).length ≤ runs.length := by
  induction runs with
  | nil => exact absurd rfl hne
  | cons run runs ih =>
    have hfirst : cut fits (run ++ runs.flatten) = cutFrom fits run runs.flatten := by
      rw [cut, cutFrom_packed (by simpa using hpacked run List.mem_cons_self), List.nil_append]
    rw [List.flatten_cons, hfirst, List.length_cons]
    cases runs with
    | nil => simp
    | cons next runs =>
      have hrest := ih (List.cons_ne_nil _ _) (fun r hr => hpacked r (List.mem_cons_of_mem _ hr))
      have hmore := (length_cutFrom_of_suffix hless (next :: runs).flatten [] run (List.nil_suffix)).2
      rw [cut] at hrest
      omega

/-- The greedy runs are no more than `bound` exactly when some packed runs are. -/
theorem length_cut_le_iff (hless : FitsBehindLess fits) (hempty : ∀ a, fits [] a) {bound : Nat} (hbound : 0 < bound)
    (items : List α) :
    (cut fits items).length ≤ bound ↔
      ∃ runs : List (List α), runs.flatten = items ∧ runs.length ≤ bound ∧ ∀ run ∈ runs, Packed fits run := by
  constructor
  · intro h
    exact ⟨cut fits items, flatten_cut items, h, fun run hrun => packed_of_mem_cut hempty hrun⟩
  · intro h
    obtain ⟨runs, rfl, hlength, hpacked⟩ := h
    by_cases hne : runs = []
    · subst hne
      exact hbound
    · exact Nat.le_trans (length_cut_le hless hne hpacked) hlength

end Cut

end Lumos.GreedyCut
