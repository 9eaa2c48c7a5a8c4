import Mathlib

/-!
# Maximal runs

A list is cut at its separators. What lies between two of them, if there is anything, is a run that
cannot be made longer.
-/
namespace Lumos.MaximalRuns

variable {α : Type} (p : α → Bool) (l : List α)

/-- There is a separator at this place. -/
def Separator (i : Nat) : Prop := ∃ a ∈ l[i]?, p a = true

/-- From `start` on, up to `stop`, there are elements and no separators. -/
structure Run (start stop : Nat) : Prop where
  nonempty : start < stop
  inside : stop ≤ l.length
  free : ∀ i, start ≤ i → i < stop → ¬ Separator p l i

/-- No other run contains it. -/
def Maximal (start stop : Nat) : Prop :=
  Run p l start stop ∧
    ∀ start' stop', start' ≤ start → stop ≤ stop' → Run p l start' stop' → start' = start ∧ stop' = stop

/-- What lies there. -/
def piece (run : Nat × Nat) : List α := (l.drop run.1).take (run.2 - run.1)

variable {p l} {start stop : Nat}

/-- A run is maximal where it is bounded by separators or by the ends of the list. -/
theorem maximal_iff : Maximal p l start stop ↔
    Run p l start stop ∧ (start = 0 ∨ Separator p l (start - 1)) ∧ (stop = l.length ∨ Separator p l stop) := by
  constructor
  · rintro ⟨hrun, hmax⟩
    refine ⟨hrun, ?_, ?_⟩
    · by_contra hleft
      obtain ⟨hne, hsep⟩ := not_or.mp hleft
      have hlonger : Run p l (start - 1) stop := ⟨by have := hrun.nonempty; omega, hrun.inside, fun i hi hlt => by
        rcases Nat.eq_or_lt_of_le hi with rfl | hlt'
        · exact hsep
        · exact hrun.free i (by omega) hlt⟩
      have hsame := (hmax (start - 1) stop (by omega) (Nat.le_refl _) hlonger).1
      omega
    · by_contra hright
      obtain ⟨hne, hsep⟩ := not_or.mp hright
      have hinside := hrun.inside
      have hlonger : Run p l start (stop + 1) := ⟨by have := hrun.nonempty; omega, by omega, fun i hi hlt => by
        rcases Nat.eq_or_lt_of_le (Nat.le_of_lt_succ hlt) with rfl | hlt'
        · exact hsep
        · exact hrun.free i hi hlt'⟩
      have hsame := (hmax start (stop + 1) (Nat.le_refl _) (by omega) hlonger).2
      omega
  · rintro ⟨hrun, hleft, hright⟩
    refine ⟨hrun, fun start' stop' hstart hstop hrun' => ⟨?_, ?_⟩⟩
    · have hnonempty := hrun.nonempty
      rcases hleft with rfl | hsep
      · omega
      · by_contra hne
        exact hrun'.free (start - 1) (by omega) (by omega) hsep
    · have hnonempty := hrun.nonempty
      have hinside := hrun'.inside
      rcases hright with rfl | hsep
      · omega
      · by_contra hne
        exact hrun'.free stop (by omega) (by omega) hsep

/-! ## Cutting at the first separator -/

variable {front back : List α} {a : α}

theorem separator_append_cons (i : Nat) :
    Separator p (front ++ a :: back) (i + (front.length + 1)) ↔ Separator p back i := by
  rw [Separator, Separator, List.getElem?_append_right (by omega),
    show i + (front.length + 1) - front.length = i + 1 by omega, List.getElem?_cons_succ]

theorem run_append_cons : Run p (front ++ a :: back) (start + (front.length + 1)) (stop + (front.length + 1)) ↔
    Run p back start stop := by
  have hlength : (front ++ a :: back).length = back.length + (front.length + 1) := by
    rw [List.length_append, List.length_cons]
    omega
  constructor
  · intro h
    have hnonempty := h.nonempty
    have hinside := h.inside
    refine ⟨by omega, by omega, fun i hi hlt hsep => ?_⟩
    exact h.free (i + (front.length + 1)) (by omega) (by omega) ((separator_append_cons i).mpr hsep)
  · intro h
    have hnonempty := h.nonempty
    have hinside := h.inside
    refine ⟨by omega, by omega, fun i hi hlt hsep => ?_⟩
    obtain ⟨j, rfl⟩ : ∃ j, i = j + (front.length + 1) := ⟨i - (front.length + 1), by omega⟩
    exact h.free j (by omega) (by omega) ((separator_append_cons j).mp hsep)

section Front

variable (hfront : ∀ b ∈ front, p b = false)

include hfront

theorem not_separator_of_lt {rest : List α} {i : Nat} (h : i < front.length) : ¬ Separator p (front ++ rest) i := by
  rintro ⟨b, hb, hp⟩
  rw [List.getElem?_append_left h] at hb
  exact Bool.false_ne_true ((hfront b (List.mem_of_getElem? hb)).symm.trans hp)

/-- Without separators the whole list is the only run. -/
theorem maximal_of_free : Maximal p front start stop ↔ front ≠ [] ∧ (start, stop) = (0, front.length) := by
  have hnone : ∀ i, ¬ Separator p front i := fun i => by
    rcases Nat.lt_or_ge i front.length with hlt | hle
    · have hsep : ¬ Separator p (front ++ []) i := not_separator_of_lt hfront hlt
      rwa [List.append_nil] at hsep
    · rintro ⟨b, hb, -⟩
      rw [List.getElem?_eq_none hle] at hb
      cases hb
  rw [maximal_iff, Prod.mk.injEq]
  constructor
  · rintro ⟨hrun, hleft, hright⟩
    have hstop := hright.resolve_right (hnone stop)
    refine ⟨?_, hleft.resolve_right (hnone _), hstop⟩
    rintro rfl
    have hlt := hrun.nonempty
    rw [hstop] at hlt
    exact Nat.not_lt_zero _ hlt
  · rintro ⟨hne, rfl, rfl⟩
    exact ⟨⟨List.length_pos_iff.mpr hne, Nat.le_refl _, fun i _ _ => hnone i⟩, Or.inl rfl, Or.inl rfl⟩

/-- The runs are what is before the first separator, and those behind it. -/
theorem maximal_append_cons (ha : p a = true) : Maximal p (front ++ a :: back) start stop ↔
    (front ≠ [] ∧ (start, stop) = (0, front.length)) ∨
    ∃ start' stop', Maximal p back start' stop' ∧
      (start, stop) = (start' + (front.length + 1), stop' + (front.length + 1)) := by
  have hcut : Separator p (front ++ a :: back) front.length := ⟨a, by simp, ha⟩
  have hlength : (front ++ a :: back).length = back.length + (front.length + 1) := by
    rw [List.length_append, List.length_cons]
    omega
  simp only [maximal_iff, Prod.mk.injEq]
  constructor
  · rintro ⟨hrun, hleft, hright⟩
    have hnonempty := hrun.nonempty
    have hinside := hrun.inside
    rcases Nat.lt_or_ge front.length stop with hlt | hle
    · have hstart : front.length < start := by
        by_contra hle
        exact hrun.free front.length (by omega) hlt hcut
      obtain ⟨start', rfl⟩ : ∃ start', start = start' + (front.length + 1) := ⟨start - (front.length + 1), by omega⟩
      obtain ⟨stop', rfl⟩ : ∃ stop', stop = stop' + (front.length + 1) := ⟨stop - (front.length + 1), by omega⟩
      refine Or.inr ⟨start', stop', ⟨run_append_cons.mp hrun, ?_, ?_⟩, rfl, rfl⟩
      · rcases Nat.eq_zero_or_pos start' with hzero | hpos
        · exact Or.inl hzero
        · have hsep := hleft.resolve_left (by omega)
          rw [show start' + (front.length + 1) - 1 = start' - 1 + (front.length + 1) by omega] at hsep
          exact Or.inr ((separator_append_cons (start' - 1)).mp hsep)
      · rcases hright with hend | hsep
        · exact Or.inl (by omega)
        · exact Or.inr ((separator_append_cons stop').mp hsep)
    · have hstart : start = 0 := by
        by_contra hne
        exact not_separator_of_lt hfront (by omega) (hleft.resolve_left hne)
      have hstop : stop = front.length := by
        by_contra hne
        exact not_separator_of_lt hfront (by omega) (hright.resolve_left (by omega))
      refine Or.inl ⟨?_, hstart, hstop⟩
      rintro rfl
      rw [List.length_nil] at hstop
      omega
  · rintro (⟨hne, rfl, rfl⟩ | ⟨start', stop', ⟨hrun, hleft, hright⟩, rfl, rfl⟩)
    · exact ⟨⟨List.length_pos_iff.mpr hne, by omega, fun i _ hlt => not_separator_of_lt hfront hlt⟩, Or.inl rfl,
        Or.inr hcut⟩
    · refine ⟨run_append_cons.mpr hrun, Or.inr ?_, ?_⟩
      · rcases hleft with rfl | hsep
        · rwa [Nat.zero_add, Nat.add_sub_cancel]
        · rcases Nat.eq_zero_or_pos start' with rfl | hpos
          · rwa [Nat.zero_add, Nat.add_sub_cancel]
          · rw [show start' + (front.length + 1) - 1 = start' - 1 + (front.length + 1) by omega]
            exact (separator_append_cons (start' - 1)).mpr hsep
      · rcases hright with rfl | hsep
        · exact Or.inl hlength.symm
        · exact Or.inr ((separator_append_cons stop').mpr hsep)

end Front

/-! ## All runs in their order -/

/-- The runs of `l` are `runs`, one behind the other, and what lies there is `tokens`. -/
structure Lists (p : α → Bool) (l : List α) (runs : List (Nat × Nat)) (tokens : List (List α)) : Prop where
  ordered : runs.Pairwise fun run next => run.2 < next.1
  maximal : ∀ start stop, (start, stop) ∈ runs ↔ Maximal p l start stop
  pieces : tokens = runs.map (piece l)

theorem lists_of_free (hfront : ∀ b ∈ front, p b = false) :
    ∃ runs, Lists p front runs ([front].filter fun token => !token.isEmpty) := by
  by_cases hne : front = []
  · subst hne
    exact ⟨[], List.Pairwise.nil, fun start stop => by simp [maximal_of_free hfront], rfl⟩
  · refine ⟨[(0, front.length)], List.pairwise_singleton _ _, fun start stop => ?_, ?_⟩
    · rw [List.mem_singleton, maximal_of_free hfront, and_iff_right hne]
    · simp [hne, piece]

theorem piece_append_cons (run : Nat × Nat) :
    piece (front ++ a :: back) (run.1 + (front.length + 1), run.2 + (front.length + 1)) = piece back run := by
  rw [piece, piece, Nat.add_sub_add_right, Nat.add_comm run.1, ← List.drop_drop]
  simp

theorem lists_append_cons (hfront : ∀ b ∈ front, p b = false) (ha : p a = true) {runs : List (Nat × Nat)}
    {tokens : List (List α)} (h : Lists p back runs tokens) :
    ∃ runs, Lists p (front ++ a :: back) runs ([front].filter (fun token => !token.isEmpty) ++ tokens) := by
  let behind := runs.map fun run => (run.1 + (front.length + 1), run.2 + (front.length + 1))
  have hordered : behind.Pairwise fun run next => run.2 < next.1 := by
    refine List.pairwise_map.mpr (h.ordered.imp fun hlt => ?_)
    omega
  have hbehind : ∀ start stop, (start, stop) ∈ behind ↔ ∃ start' stop', Maximal p back start' stop' ∧
      (start, stop) = (start' + (front.length + 1), stop' + (front.length + 1)) := by
    intro start stop
    simp only [behind, List.mem_map, Prod.exists, h.maximal, eq_comm]
  have hpieces : tokens = behind.map (piece (front ++ a :: back)) := by
    rw [h.pieces, List.map_map]
    exact List.map_congr_left fun run _ => (piece_append_cons run).symm
  by_cases hne : front = []
  · refine ⟨behind, hordered, fun start stop => ?_, ?_⟩
    · rw [hbehind, maximal_append_cons hfront ha]
      exact (or_iff_right fun hfirst => hfirst.1 hne).symm
    · rw [← hpieces, hne]
      rfl
  · refine ⟨(0, front.length) :: behind, List.pairwise_cons.mpr ⟨fun run hrun => ?_, hordered⟩, fun start stop => ?_, ?_⟩
    · obtain ⟨run', -, rfl⟩ := List.mem_map.mp hrun
      exact Nat.lt_of_lt_of_le (Nat.lt_succ_self _) (Nat.le_add_left _ _)
    · rw [List.mem_cons, hbehind, maximal_append_cons hfront ha, and_iff_right hne]
    · rw [List.map_cons, ← hpieces]
      simp [hne, piece]

/-- The pieces of a list that are not empty are its maximal runs. -/
theorem exists_lists (p : α → Bool) (l : List α) :
    ∃ runs, Lists p l runs ((l.splitOnP p).filter fun token => !token.isEmpty) := by
  induction hlength : l.length using Nat.strongRecOn generalizing l with
  | ind n ih =>
    cases hfind : l.find? p with
    | none =>
      have hfree : ∀ b ∈ l, p b = false := fun b hb => by simpa using List.find?_eq_none.mp hfind b hb
      rw [List.splitOnP_eq_singleton hfree]
      exact lists_of_free hfree
    | some a =>
      obtain ⟨ha, front, back, rfl, hfront⟩ := List.find?_eq_some_iff_append.mp hfind
      have hfree : ∀ b ∈ front, p b = false := fun b hb => by simpa using hfront b hb
      obtain ⟨runs, hruns⟩ := ih back.length (by rw [← hlength, List.length_append, List.length_cons]; omega) back rfl
      rw [List.splitOnP_append_cons front back ha, List.filter_append, List.splitOnP_eq_singleton hfree]
      exact lists_append_cons hfree ha hruns

end Lumos.MaximalRuns

/-!
## Repeated separators

Squeezing makes one separator of several that follow each other.
-/
namespace Lumos.Squeeze

variable {α : Type} [DecidableEq α]

def squeeze (separator : α) : List α → List α
  | [] => []
  | a :: l => if a = separator ∧ l.head? = some separator then squeeze separator l else a :: squeeze separator l

variable {separator : α}

@[simp] theorem squeeze_nil : squeeze separator ([] : List α) = [] := rfl

theorem squeeze_cons_cons (l : List α) :
    squeeze separator (separator :: separator :: l) = squeeze separator (separator :: l) := if_pos ⟨rfl, rfl⟩

/-- One separator more behind a separator makes no difference. -/
theorem squeeze_append_cons_cons (front back : List α) :
    squeeze separator (front ++ separator :: separator :: back) = squeeze separator (front ++ separator :: back) := by
  induction front with
  | nil => exact squeeze_cons_cons back
  | cons a front ih =>
    have hhead : (front ++ separator :: separator :: back).head? = (front ++ separator :: back).head? := by
      cases front <;> rfl
    rw [List.cons_append, List.cons_append, squeeze, squeeze, ih, hhead]

/-- What does not begin with a separator is squeezed by itself. -/
theorem squeeze_append {front back : List α} (h : back.head? ≠ some separator) :
    squeeze separator (front ++ back) = squeeze separator front ++ squeeze separator back := by
  induction front with
  | nil => rfl
  | cons a front ih =>
    rw [List.cons_append, squeeze, squeeze, ih]
    cases front with
    | nil => simp [h]
    | cons b front =>
      by_cases hab : a = separator ∧ b = separator
      · simp [hab]
      · simp [hab]

/-- What is behind a separator, apart from further separators. -/
theorem squeeze_append_separator (front back : List α) :
    squeeze separator (front ++ separator :: back) =
      squeeze separator (front ++ [separator]) ++ squeeze separator (back.dropWhile (· = separator)) := by
  induction back with
  | nil => simp
  | cons a back ih =>
    by_cases ha : a = separator
    · rw [ha, squeeze_append_cons_cons, ih]
      simp
    · have hsplit : front ++ separator :: a :: back = (front ++ [separator]) ++ a :: back := by simp
      rw [hsplit, squeeze_append (by simpa using ha)]
      simp [ha]

theorem squeeze_append_separator_eq_iff {front other : List α} (back : List α) :
    squeeze separator (front ++ separator :: back) = squeeze separator (other ++ separator :: back) ↔
      squeeze separator (front ++ [separator]) = squeeze separator (other ++ [separator]) := by
  rw [squeeze_append_separator front, squeeze_append_separator other, List.append_cancel_right_eq]

theorem getLast?_squeeze (l : List α) : (squeeze separator l).getLast? = l.getLast? := by
  induction l with
  | nil => rfl
  | cons a l ih =>
    rw [squeeze]
    cases l with
    | nil => simp
    | cons b l =>
      split
      · rw [ih, List.getLast?_cons_cons]
      · have hne : squeeze separator (b :: l) ≠ [] := by
          intro hnil
          rw [hnil] at ih
          exact absurd (List.getLast?_eq_none_iff.mp ih.symm) (List.cons_ne_nil _ _)
        rw [List.getLast?_cons_of_ne_nil hne, ih, List.getLast?_cons_cons]

end Lumos.Squeeze
