import Mathlib.Data.List.Basic

/-!
# Regions of a pool

A pool has a fixed number of cells. Lists are put into it one after the other, each from its
own start on, and a later one may take cells of an earlier one.
-/
namespace Lumos.Regions

variable {α : Type} {capacity : Nat}

/-- There is no cell beyond the capacity to put a value in. -/
def put (pool : Vector α capacity) (i : Nat) (a : α) : Option (Vector α capacity) :=
  if h : i < capacity then some (pool.set i a h) else none

/-- The values one after the other, from `start` on. -/
def fill : List α → Nat → Vector α capacity → Option (Vector α capacity)
  | [], _, pool => some pool
  | a :: as, start, pool => (put pool start a).bind fun pool => fill as (start + 1) pool

/-- Lists with their starts, one after the other. -/
def fillAll : List (Nat × List α) → Vector α capacity → Option (Vector α capacity)
  | [], pool => some pool
  | (start, as) :: regions, pool => (fill as start pool).bind (fillAll regions)

/-- The `n` cells from `start` on. -/
def region (pool : Vector α capacity) (start n : Nat) : List α := (pool.toList.drop start).take n

/-- The values are in the pool from `start` on. -/
def Holds (pool : Vector α capacity) (start : Nat) (as : List α) : Prop :=
  ∀ j a, as[j]? = some a → pool[start + j]? = some a

/-- In the cells they have in common, two lists have the same values. -/
def Agree (start : Nat) (as : List α) (start' : Nat) (bs : List α) : Prop :=
  ∀ j k a b, as[j]? = some a → bs[k]? = some b → start + j = start' + k → a = b

variable {pool pool' : Vector α capacity} {i j n start start' : Nat} {a : α} {as bs : List α}

theorem put_eq_some : put pool i a = some pool' ↔ ∃ h : i < capacity, pool' = pool.set i a h := by
  unfold put
  split
  · next h => exact ⟨fun hsome => ⟨h, (Option.some.inj hsome).symm⟩, fun ⟨_, heq⟩ => by rw [heq]⟩
  · next h => exact ⟨fun hsome => absurd hsome (Option.some_ne_none _).symm, fun ⟨hlt, _⟩ => absurd hlt h⟩

theorem getElem?_put (h : put pool i a = some pool') : pool'[j]? = if i = j then some a else pool[j]? := by
  obtain ⟨hlt, rfl⟩ := put_eq_some.mp h
  exact Vector.getElem?_set hlt

variable (pool a) in
theorem put_isSome : (put pool i a).isSome = true ↔ i < capacity := by
  unfold put
  split
  · next h => exact ⟨fun _ => h, fun _ => rfl⟩
  · next h => exact ⟨fun hsome => absurd hsome Bool.false_ne_true, fun hlt => absurd hlt h⟩

theorem fill_cons : fill (a :: as) start pool = some pool' ↔
    ∃ between, put pool start a = some between ∧ fill as (start + 1) between = some pool' := by
  rw [fill, Option.bind_eq_some_iff]

variable (pool) in
/-- It depends on the room alone whether a list can be filled in. -/
theorem fill_isSome : (fill as start pool).isSome = true ↔ as = [] ∨ start + as.length ≤ capacity := by
  induction as generalizing start pool with
  | nil => exact ⟨fun _ => .inl rfl, fun _ => rfl⟩
  | cons a as ih =>
    rw [fill, or_iff_right (List.cons_ne_nil a as), List.length_cons]
    by_cases hlt : start < capacity
    · obtain ⟨between, hbetween⟩ := Option.isSome_iff_exists.mp ((put_isSome pool a).mpr hlt)
      rw [hbetween, Option.bind_some, ih]
      constructor
      · rintro (rfl | h)
        · rw [List.length_nil]
          omega
        · omega
      · exact fun h => .inr (by omega)
    · have hnone : put pool start a = none := dif_neg hlt
      rw [hnone, Option.bind_none]
      exact ⟨fun h => absurd h Bool.false_ne_true, fun h => absurd (show start < capacity by omega) hlt⟩

/-- What is not among the cells filled stays. -/
theorem getElem?_fill_other (h : fill as start pool = some pool') (hj : j < start ∨ start + as.length ≤ j) :
    pool'[j]? = pool[j]? := by
  induction as generalizing start pool with
  | nil =>
    cases h
    rfl
  | cons a as ih =>
    obtain ⟨between, hput, hfill⟩ := fill_cons.mp h
    rw [List.length_cons] at hj
    rw [ih hfill (by omega), getElem?_put hput, if_neg (by omega)]

theorem holds_fill (h : fill as start pool = some pool') : Holds pool' start as := by
  induction as generalizing start pool with
  | nil => exact fun j a ha => absurd ha (by simp)
  | cons a as ih =>
    obtain ⟨between, hput, hfill⟩ := fill_cons.mp h
    intro j b hb
    cases j with
    | zero =>
      cases hb
      rw [getElem?_fill_other hfill (.inl (by omega)), getElem?_put hput, Nat.add_zero, if_pos rfl]
    | succ j =>
      rw [List.getElem?_cons_succ] at hb
      rw [← Nat.succ_add_eq_add_succ]
      exact ih hfill j b hb

/-- A list stays when one that agrees with it is filled in. -/
theorem Holds.fill (hholds : Holds pool start as) (h : fill bs start' pool = some pool')
    (hagree : Agree start as start' bs) : Holds pool' start as := by
  intro j a ha
  by_cases hj : start + j < start' ∨ start' + bs.length ≤ start + j
  · rw [getElem?_fill_other h hj]
    exact hholds j a ha
  · obtain ⟨k, hk⟩ := Nat.exists_eq_add_of_le (show start' ≤ start + j by omega)
    have hlt : k < bs.length := by omega
    have hb := List.getElem?_eq_getElem hlt
    rw [hagree j k a _ ha hb hk, hk]
    exact holds_fill h k _ hb

/-- Two lists that are both in the pool agree. -/
theorem Holds.agree (ha : Holds pool start as) (hb : Holds pool start' bs) : Agree start as start' bs := by
  intro j k a b hja hkb heq
  have hsame := ha j a hja
  rw [heq, hb k b hkb] at hsame
  exact (Option.some.inj hsame).symm

theorem fill_append : fill (as ++ bs) start pool = (fill as start pool).bind (fill bs (start + as.length)) := by
  induction as generalizing start pool with
  | nil => rfl
  | cons a as ih =>
    rw [List.cons_append, fill, fill, Option.bind_assoc, List.length_cons, ← Nat.add_assoc, Nat.add_right_comm]
    simp only [ih]

variable {regions : List (Nat × List α)}

variable (pool) in
theorem fillAll_isSome :
    (fillAll regions pool).isSome = true ↔ ∀ r ∈ regions, r.2 = [] ∨ r.1 + r.2.length ≤ capacity := by
  induction regions generalizing pool with
  | nil => exact ⟨fun _ r hr => absurd hr List.not_mem_nil, fun _ => rfl⟩
  | cons r regions ih =>
    rw [fillAll, List.forall_mem_cons, ← fill_isSome pool]
    cases hfill : fill r.2 r.1 pool with
    | none => exact ⟨fun h => absurd h Bool.false_ne_true, fun h => absurd h.1 Bool.false_ne_true⟩
    | some between => exact ⟨fun h => ⟨rfl, (ih _).mp h⟩, fun h => (ih _).mpr h.2⟩

theorem Holds.fillAll (hholds : Holds pool start as) (h : fillAll regions pool = some pool')
    (hagree : ∀ r ∈ regions, Agree start as r.1 r.2) : Holds pool' start as := by
  induction regions generalizing pool with
  | nil =>
    cases h
    exact hholds
  | cons r regions ih =>
    obtain ⟨between, hfill, hrest⟩ := Option.bind_eq_some_iff.mp h
    exact ih (hholds.fill hfill (hagree r List.mem_cons_self)) hrest fun r' hr' =>
      hagree r' (List.mem_cons_of_mem r hr')

/-- All lists are in the pool in the end just when any two of them agree. -/
theorem holds_all_iff (h : fillAll regions pool = some pool') :
    (∀ r ∈ regions, Holds pool' r.1 r.2) ↔ regions.Pairwise fun r s => Agree r.1 r.2 s.1 s.2 := by
  induction regions generalizing pool with
  | nil => exact ⟨fun _ => .nil, fun _ r hr => absurd hr List.not_mem_nil⟩
  | cons r regions ih =>
    obtain ⟨between, hfill, hrest⟩ := Option.bind_eq_some_iff.mp h
    rw [List.forall_mem_cons, List.pairwise_cons, ih hrest]
    constructor
    · rintro ⟨hr, hpairs⟩
      exact ⟨fun s hs => hr.agree ((ih hrest).mpr hpairs s hs), hpairs⟩
    · rintro ⟨hagree, hpairs⟩
      exact ⟨(holds_fill hfill).fillAll hrest hagree, hpairs⟩

theorem region_eq_iff : region pool start as.length = as ↔ Holds pool start as := by
  have hcell : ∀ j < as.length, (region pool start as.length)[j]? = pool[start + j]? := by
    intro j hj
    rw [region, List.getElem?_take_of_lt hj, List.getElem?_drop, Vector.getElem?_toList]
  constructor
  · intro h j a ha
    have hj : j < as.length := (List.getElem?_eq_some_iff.mp ha).1
    rw [← hcell j hj, h, ha]
  · intro h
    apply List.ext_getElem?
    intro j
    by_cases hj : j < as.length
    · rw [hcell j hj, List.getElem?_eq_getElem hj]
      exact h j _ (List.getElem?_eq_getElem hj)
    · have hlength : (region pool start as.length).length ≤ as.length := List.length_take_le _ _
      rw [List.getElem?_eq_none (by omega), List.getElem?_eq_none (by omega)]

end Lumos.Regions
