import Mathlib.Data.List.Nodup
import Mathlib.Data.List.Perm.Subperm
import Mathlib.Data.List.Sort
import Mathlib.Order.Defs.LinearOrder

/-!
# Pairs of entries in order

The pairs a double loop over a list goes through, the first entry standing before the
second, and what sorting the list first does to them.
-/
namespace Lumos.OrderedPairs

variable {α κ : Type}

/-- For every entry, every later one. -/
def pairsOf : List α → List (α × α)
  | [] => []
  | x :: xs => xs.map (fun y => (x, y)) ++ pairsOf xs

/-- The two pairs have the same entries. -/
def SamePair (p q : α × α) : Prop := p = q ∨ p = q.swap

/-- No two of the pairs have the same entries. -/
def Once (pairs : List (α × α)) : Prop := pairs.Pairwise fun p q => ¬ SamePair p q

/-- The two entries are one of the pairs, in either order. -/
def Joined (pairs : List (α × α)) (a b : α) : Prop := (a, b) ∈ pairs ∨ (b, a) ∈ pairs

theorem joined_comm {pairs : List (α × α)} {a b : α} : Joined pairs a b ↔ Joined pairs b a := or_comm

theorem SamePair.symm {p q : α × α} (h : SamePair p q) : SamePair q p := by
  cases h with
  | inl h => exact .inl h.symm
  | inr h => exact .inr (by rw [h, Prod.swap_swap])

theorem mem_pairsOf {items : List α} {a b : α} : (a, b) ∈ pairsOf items ↔ [a, b].Sublist items := by
  induction items with
  | nil => simp [pairsOf]
  | cons x items ih =>
    simp only [pairsOf, List.mem_append, List.mem_map, Prod.mk.injEq, ih]
    constructor
    · intro h
      cases h with
      | inl h =>
        obtain ⟨y, hy, rfl, rfl⟩ := h
        exact (List.singleton_sublist.mpr hy).cons_cons _
      | inr h => exact h.cons _
    · intro h
      cases h with
      | cons _ h => exact .inr h
      | cons_cons _ h => exact .inl ⟨b, List.singleton_sublist.mp h, rfl, rfl⟩

theorem mem_of_mem_pairsOf {items : List α} {p : α × α} (h : p ∈ pairsOf items) :
    p.1 ∈ items ∧ p.2 ∈ items := by
  have hsub := mem_pairsOf.mp h
  exact ⟨hsub.subset (by simp), hsub.subset (by simp)⟩

theorem pairsOf_map {γ : Type} (f : α → γ) (items : List α) :
    pairsOf (items.map f) = (pairsOf items).map (Prod.map f f) := by
  induction items with
  | nil => rfl
  | cons x items ih =>
    simp only [List.map_cons, pairsOf, List.map_append, List.map_map, ih]
    rfl

/-- A list without repetitions gives every pair once. -/
theorem pairsOf_once {items : List α} (h : items.Nodup) : Once (pairsOf items) := by
  induction items with
  | nil => exact List.Pairwise.nil
  | cons x items ih =>
    obtain ⟨hx, hitems⟩ := List.nodup_cons.mp h
    refine List.pairwise_append.mpr ⟨?_, ih hitems, ?_⟩
    · rw [List.pairwise_map]
      refine List.Pairwise.imp_of_mem ?_ hitems
      intro y z hy _ hne hsame
      cases hsame with
      | inl h => exact hne (Prod.mk.inj h).2
      | inr h =>
        have hyx : y = x := (Prod.mk.inj h).2
        exact hx (hyx ▸ hy)
    · intro p hp q hq hsame
      obtain ⟨y, hy, rfl⟩ := List.mem_map.mp hp
      obtain ⟨hq₁, hq₂⟩ := mem_of_mem_pairsOf hq
      cases hsame with
      | inl h =>
        have hxq : x = q.1 := congrArg Prod.fst h
        exact hx (hxq ▸ hq₁)
      | inr h =>
        have hxq : x = q.2 := congrArg Prod.fst h
        exact hx (hxq ▸ hq₂)

/-- The members of a list without repetitions are paired in one order or the other. -/
theorem pair_or_swap {items : List α} {a b : α} (ha : a ∈ items) (hb : b ∈ items) (hab : a ≠ b) :
    [a, b].Sublist items ∨ [b, a].Sublist items := by
  induction items with
  | nil => cases ha
  | cons x items ih =>
    by_cases hxa : x = a
    · subst hxa
      have hb' : b ∈ items := (List.mem_cons.mp hb).resolve_left (Ne.symm hab)
      exact .inl ((List.singleton_sublist.mpr hb').cons_cons _)
    · have ha' : a ∈ items := (List.mem_cons.mp ha).resolve_left (Ne.symm hxa)
      by_cases hxb : x = b
      · subst hxb
        exact .inr ((List.singleton_sublist.mpr ha').cons_cons _)
      · have hb' : b ∈ items := (List.mem_cons.mp hb).resolve_left (Ne.symm hxb)
        exact (ih ha' hb').imp (List.Sublist.cons _) (List.Sublist.cons _)

/-- Two entries that can be picked from a list stand in it in one order or the other. -/
theorem pair_of_subperm {items : List α} {a b : α} (h : [a, b].Subperm items) :
    [a, b].Sublist items ∨ [b, a].Sublist items := by
  obtain ⟨pair, hpair, hsub⟩ := h
  have hlength := hpair.length_eq
  match pair, hlength with
  | [x, y], _ =>
    by_cases hxa : x = a
    · subst hxa
      have hy := List.perm_singleton.mp (List.perm_cons x |>.mp hpair)
      cases hy
      exact .inl hsub
    · have hx : x ∈ [a, b] := hpair.subset (by simp)
      have hxb : x = b := by simpa [hxa] using hx
      subst hxb
      have hswap : [x, y].Perm [x, a] := hpair.trans (List.Perm.swap x a [])
      have hy := List.perm_singleton.mp (List.perm_cons x |>.mp hswap)
      cases hy
      exact .inr hsub

/-- A rearrangement keeps every pair, in one order or the other. -/
theorem pair_of_perm {items items' : List α} {a b : α} (h : [a, b].Sublist items)
    (hperm : items'.Perm items) : [a, b].Sublist items' ∨ [b, a].Sublist items' :=
  pair_of_subperm (h.subperm.trans hperm.symm.subperm)

/-! ## Sorting -/

/-- A sort by the order of a key; it may arrange entries of equal key as it likes. -/
structure SortBy [LinearOrder κ] (key : α → κ) where
  sort : List α → List α
  perm : ∀ items, (sort items).Perm items
  sorted : ∀ items, (sort items).Pairwise fun a b => key a ≤ key b

section SortBy

variable [LinearOrder κ] (key : α → κ)

/-- The sort that keeps entries of equal key in their order. -/
def SortBy.stable : SortBy key where
  sort items := items.insertionSort fun a b => key a ≤ key b
  perm items := List.perm_insertionSort _ items
  sorted items := by
    have htotal : Std.Total fun a b => key a ≤ key b := ⟨fun a b => le_total _ _⟩
    have htrans : IsTrans α fun a b => key a ≤ key b := ⟨fun _ _ _ => le_trans⟩
    exact List.pairwise_insertionSort _ items

/-- The order by key, with `a` in front of the other entries of its key. -/
def Favours (a x y : α) : Prop := key x < key y ∨ (key x = key y ∧ (x = a ∨ y ≠ a))

instance [DecidableEq α] (a : α) : DecidableRel (Favours key a) :=
  fun x y => inferInstanceAs (Decidable (key x < key y ∨ (key x = key y ∧ (x = a ∨ y ≠ a))))

instance (a : α) : Std.Total (Favours key a) where
  total x y := by
    rcases lt_trichotomy (key x) (key y) with h | h | h
    · exact .inl (.inl h)
    · by_cases hx : x = a
      · exact .inl (.inr ⟨h, .inl hx⟩)
      · exact .inr (.inr ⟨h.symm, .inr hx⟩)
    · exact .inr (.inl h)

instance (a : α) : IsTrans α (Favours key a) where
  trans x y z hxy hyz := by
    rcases hxy with hxy | ⟨hxy, hx⟩
    · rcases hyz with hyz | ⟨hyz, _⟩
      · exact .inl (hxy.trans hyz)
      · exact .inl (hyz ▸ hxy)
    · rcases hyz with hyz | ⟨hyz, hy⟩
      · exact .inl (hxy ▸ hyz)
      · refine .inr ⟨hxy.trans hyz, ?_⟩
        by_cases hxa : x = a
        · exact .inl hxa
        · have hya : y ≠ a := hx.resolve_left hxa
          exact .inr (hy.resolve_left hya)

/-- A sort that puts `a` before any other entry of the same key. -/
def SortBy.favour [DecidableEq α] (a : α) : SortBy key where
  sort items := items.insertionSort (Favours key a)
  perm items := List.perm_insertionSort _ items
  sorted items := by
    apply (List.pairwise_insertionSort (Favours key a) items).imp
    intro x y h
    cases h with
    | inl h => exact le_of_lt h
    | inr h => exact le_of_eq h.1

/-- The sort keeps the order it is made for. -/
theorem favour_pairwise [DecidableEq α] {key : α → κ} {a x y : α} {items : List α}
    (h : [x, y].Sublist ((SortBy.favour key a).sort items)) : Favours key a x y := by
  have hpair := (List.pairwise_insertionSort (Favours key a) items).sublist h
  simpa using hpair

theorem favour_first_of_subperm [DecidableEq α] {key : α → κ} {a b : α} {items : List α}
    (hkey : key a ≤ key b) (h : [a, b].Subperm items) :
    [a, b].Sublist ((SortBy.favour key a).sort items) := by
  have hperm := (SortBy.favour key a).perm items
  cases pair_of_subperm (h.trans hperm.symm.subperm) with
  | inl hab => exact hab
  | inr hba =>
    cases favour_pairwise hba with
    | inl hlt => exact absurd hkey (not_le_of_gt hlt)
    | inr heq =>
      cases heq.2 with
      | inl h =>
        subst h
        exact hba
      | inr h => exact absurd rfl h

theorem favour_first [DecidableEq α] {key : α → κ} {a b : α} {items : List α} (hab : a ≠ b)
    (hkey : key a ≤ key b) (ha : a ∈ items) (hb : b ∈ items) :
    [a, b].Sublist ((SortBy.favour key a).sort items) := by
  apply favour_first_of_subperm hkey
  cases pair_or_swap ha hb hab with
  | inl h => exact h.subperm
  | inr h => exact (List.Perm.swap b a []).subperm.trans h.subperm

/-- A sort that puts `a` before any other entry of its key in one list and `b` in all
others. -/
def SortBy.favourIn [DecidableEq α] (only : List α) (a b : α) : SortBy key where
  sort items := if items = only then (favour key a).sort items else (favour key b).sort items
  perm items := by
    split
    · exact (favour key a).perm items
    · exact (favour key b).perm items
  sorted items := by
    split
    · exact (favour key a).sorted items
    · exact (favour key b).sorted items

end SortBy

end Lumos.OrderedPairs
