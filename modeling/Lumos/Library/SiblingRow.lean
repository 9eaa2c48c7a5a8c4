import Mathlib.Data.List.Nodup

/-!
# Rows and their neighbours

The neighbours an entry has in a row without repetitions, and what taking an entry
out of the row or putting one at its end does to the neighbours of the others.
-/
namespace Lumos.SiblingRow

variable {α : Type} [DecidableEq α]

/-- The entry after `a`. -/
def nextIn : List α → α → Option α
  | [], _ => none
  | x :: xs, a => if x = a then xs.head? else nextIn xs a

/-- The entry before `a`, where `before` stands in front of the row. -/
def prevFrom (before : Option α) : List α → α → Option α
  | [], _ => none
  | x :: xs, a => if x = a then before else prevFrom (some x) xs a

def prevIn (row : List α) (a : α) : Option α := prevFrom none row a

@[simp] theorem nextIn_nil (a : α) : nextIn [] a = none := rfl

@[simp] theorem nextIn_cons_self (a : α) (row : List α) : nextIn (a :: row) a = row.head? := by
  simp [nextIn]

theorem nextIn_cons_of_ne {x a : α} (h : x ≠ a) (row : List α) :
    nextIn (x :: row) a = nextIn row a := by simp [nextIn, h]

@[simp] theorem prevFrom_nil (before : Option α) (a : α) : prevFrom before [] a = none := rfl

@[simp] theorem prevFrom_cons_self (before : Option α) (a : α) (row : List α) :
    prevFrom before (a :: row) a = before := by simp [prevFrom]

theorem prevFrom_cons_of_ne {x a : α} (h : x ≠ a) (before : Option α) (row : List α) :
    prevFrom before (x :: row) a = prevFrom (some x) row a := by simp [prevFrom, h]

variable {row : List α} {before : Option α} {a b x e : α}

theorem nextIn_of_not_mem (h : a ∉ row) : nextIn row a = none := by
  induction row with
  | nil => rfl
  | cons y ys ih =>
    rw [List.mem_cons, not_or] at h
    rw [nextIn_cons_of_ne (Ne.symm h.1), ih h.2]

theorem mem_of_nextIn (h : nextIn row a = some b) : b ∈ row := by
  induction row with
  | nil => cases h
  | cons y ys ih =>
    by_cases hy : y = a
    · subst hy
      rw [nextIn_cons_self] at h
      exact List.mem_cons_of_mem _ (List.mem_of_mem_head? h)
    · rw [nextIn_cons_of_ne hy] at h
      exact List.mem_cons_of_mem _ (ih h)

theorem mem_of_prevFrom (h : prevFrom before row a = some b) : before = some b ∨ b ∈ row := by
  induction row generalizing before with
  | nil => cases h
  | cons y ys ih =>
    by_cases hy : y = a
    · subst hy
      rw [prevFrom_cons_self] at h
      exact .inl h
    · rw [prevFrom_cons_of_ne hy] at h
      cases ih h with
      | inl hb => cases hb; exact .inr List.mem_cons_self
      | inr hb => exact .inr (List.mem_cons_of_mem _ hb)

/-! ## At a known place -/

theorem nextIn_split {front back : List α} (h : a ∉ front) :
    nextIn (front ++ a :: back) a = back.head? := by
  induction front with
  | nil => simp
  | cons y ys ih =>
    rw [List.mem_cons, not_or] at h
    rw [List.cons_append, nextIn_cons_of_ne (Ne.symm h.1), ih h.2]

theorem nextIn_ne_self (hrow : row.Nodup) : nextIn row a ≠ some a := by
  intro h
  by_cases ha : a ∈ row
  · obtain ⟨front, back, hsplit, hfront⟩ := List.eq_append_cons_of_mem ha
    rw [hsplit, nextIn_split hfront] at h
    rw [hsplit] at hrow
    exact (List.nodup_cons.mp (List.nodup_append.mp hrow).2.1).1 (List.mem_of_mem_head? h)
  · rw [nextIn_of_not_mem ha] at h
    cases h

theorem prevFrom_split {front back : List α} (h : a ∉ front) :
    prevFrom before (front ++ a :: back) a = front.getLast?.or before := by
  induction front generalizing before with
  | nil => simp
  | cons y ys ih =>
    rw [List.mem_cons, not_or] at h
    rw [List.cons_append, prevFrom_cons_of_ne (Ne.symm h.1), ih h.2]
    cases hys : ys.getLast? with
    | none => simp [List.getLast?_eq_none_iff.mp hys]
    | some z => simp [List.getLast?_cons, hys]

/-! ## The two directions agree -/

theorem prevFrom_eq_some_iff (hrow : row.Nodup) :
    prevFrom before row b = some a ↔
      (before = some a ∧ row.head? = some b) ∨ nextIn row a = some b := by
  induction row generalizing before with
  | nil => simp
  | cons y ys ih =>
    obtain ⟨hy, hys⟩ := List.nodup_cons.mp hrow
    by_cases hb : y = b
    · subst hb
      have hnext : nextIn (y :: ys) a ≠ some y := by
        intro h
        by_cases ha : y = a
        · subst ha
          rw [nextIn_cons_self] at h
          exact hy (List.mem_of_mem_head? h)
        · rw [nextIn_cons_of_ne ha] at h
          exact hy (mem_of_nextIn h)
      simp [hnext]
    · rw [prevFrom_cons_of_ne hb, ih hys]
      by_cases ha : y = a
      · subst ha
        simp [nextIn_of_not_mem hy, hb]
      · simp [nextIn_cons_of_ne ha, ha, hb]

theorem nextIn_eq_some_iff (hrow : row.Nodup) : nextIn row a = some b ↔ prevIn row b = some a := by
  simp [prevIn, prevFrom_eq_some_iff hrow]

theorem head?_eq_some_iff : row.head? = some a ↔ a ∈ row ∧ prevIn row a = none := by
  cases row with
  | nil => simp
  | cons y ys =>
    by_cases hy : y = a
    · subst hy; simp [prevIn]
    · simp only [List.head?_cons, Option.some.injEq, hy, List.mem_cons, Ne.symm hy, false_or, false_iff,
        not_and, prevIn, prevFrom_cons_of_ne hy]
      intro ha hn
      obtain ⟨front, back, hsplit, hfront⟩ := List.eq_append_cons_of_mem ha
      rw [hsplit, prevFrom_split hfront] at hn
      simp at hn

/-! ## Taking an entry out -/

theorem head?_erase (e : α) :
    (row.erase e).head? = if row.head? = some e then nextIn row e else row.head? := by
  cases row with
  | nil => simp
  | cons y ys =>
    by_cases hy : y = e
    · subst hy; simp
    · simp [hy]

theorem nextIn_erase (hrow : row.Nodup) (hx : x ≠ e) :
    nextIn (row.erase e) x = if nextIn row x = some e then nextIn row e else nextIn row x := by
  induction row with
  | nil => simp
  | cons y ys ih =>
    obtain ⟨hy, hys⟩ := List.nodup_cons.mp hrow
    by_cases he : y = e
    · subst he
      have hne : nextIn ys x ≠ some y := fun h => hy (mem_of_nextIn h)
      simp [nextIn_cons_of_ne (Ne.symm hx), hne]
    · rw [List.erase_cons_tail (by simpa using he), nextIn_cons_of_ne he]
      by_cases hyx : y = x
      · subst hyx
        simp [head?_erase]
      · rw [nextIn_cons_of_ne hyx, nextIn_cons_of_ne hyx, ih hys]

theorem prevFrom_erase (hrow : row.Nodup) (hbefore : before ≠ some e) (hx : x ≠ e) :
    prevFrom before (row.erase e) x =
      if prevFrom before row x = some e then prevFrom before row e else prevFrom before row x := by
  induction row generalizing before with
  | nil => simp
  | cons y ys ih =>
    obtain ⟨hy, hys⟩ := List.nodup_cons.mp hrow
    by_cases he : y = e
    · subst he
      rw [List.erase_cons_head, prevFrom_cons_of_ne (Ne.symm hx), prevFrom_cons_self]
      cases ys with
      | nil => simp
      | cons z zs =>
        by_cases hz : z = x
        · subst hz; simp
        · rw [prevFrom_cons_of_ne hz, prevFrom_cons_of_ne hz]
          have hne : prevFrom (some z) zs x ≠ some y := by
            intro h
            cases mem_of_prevFrom h with
            | inl hzy => cases hzy; exact hy List.mem_cons_self
            | inr hzs => exact hy (List.mem_cons_of_mem _ hzs)
          simp [hne]
    · rw [List.erase_cons_tail (by simpa using he), prevFrom_cons_of_ne he]
      by_cases hyx : y = x
      · subst hyx
        simp [hbefore]
      · rw [prevFrom_cons_of_ne hyx, prevFrom_cons_of_ne hyx, ih hys (by simpa using he)]

/-! ## Putting an entry at the end -/

theorem nextIn_concat (hrow : row.Nodup) (hx : x ≠ e) :
    nextIn (row ++ [e]) x = if row.getLast? = some x then some e else nextIn row x := by
  induction row with
  | nil => simp [nextIn, Ne.symm hx]
  | cons y ys ih =>
    obtain ⟨hy, hys⟩ := List.nodup_cons.mp hrow
    cases ys with
    | nil =>
      by_cases hyx : y = x
      · subst hyx; simp
      · simp [nextIn, hyx, Ne.symm hx]
    | cons z zs =>
      have hlast : (y :: z :: zs).getLast? = (z :: zs).getLast? := by simp [List.getLast?_cons]
      rw [hlast]
      by_cases hyx : y = x
      · subst hyx
        have hne : (z :: zs).getLast? ≠ some y := fun h => hy (List.mem_of_getLast? h)
        simp [hne]
      · rw [nextIn_cons_of_ne hyx, ← ih hys]
        simp [nextIn_cons_of_ne hyx]

theorem prevFrom_concat (hx : x ≠ e) : prevFrom before (row ++ [e]) x = prevFrom before row x := by
  induction row generalizing before with
  | nil => simp [prevFrom, Ne.symm hx]
  | cons y ys ih =>
    by_cases hyx : y = x
    · subst hyx; simp
    · rw [List.cons_append, prevFrom_cons_of_ne hyx, prevFrom_cons_of_ne hyx, ih]

end Lumos.SiblingRow
