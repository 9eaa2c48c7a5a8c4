import Mathlib.Data.List.Basic

/-!
# Rows that refer to each other

Records in a list refer to one another by their positions. A new record at the end is linked
with those before it, each of the two taking down the position of the other.
-/
namespace Lumos.Library.PairedRows

variable {α : Type}

/-- Record `i` and the new one at `n` take down each other, if they are related. -/
def link (related : α → Bool) (push : Nat → α → α) (n : Nat) (l : List α) (i : Nat) : List α :=
  if (l[i]?).any related then (l.modify i (push n)).modify n (push i) else l

def linkAll (related : α → Bool) (push : Nat → α → α) (n : Nat) (l : List α) : List α :=
  (List.range n).foldl (link related push n) l

/-- Record `v` takes something down unless it has it already. -/
def addOnce (has : α → Bool) (push : α → α) (l : List α) (v : Nat) : List α :=
  l.modify v fun a => if has a then a else push a

theorem modify_append_of_lt (f : α → α) {l : List α} (rest : List α) {i : Nat} (h : i < l.length) :
    (l ++ rest).modify i f = l.modify i f ++ rest := by
  induction l generalizing i with
  | nil => exact absurd h (Nat.not_lt_zero i)
  | cons a l ih =>
    cases i with
    | zero => rfl
    | succ i =>
      rw [List.cons_append, List.modify_succ_cons, List.modify_succ_cons, ih (Nat.lt_of_succ_lt_succ h)]
      rfl

/-- The last record. -/
theorem modify_append_last (f : α → α) (l : List α) (x : α) {n : Nat} (hn : n = l.length) :
    (l ++ [x]).modify n f = l ++ [f x] := by
  subst hn
  induction l with
  | nil => rfl
  | cons a l ih => exact congrArg (a :: ·) ih

section Views

variable {β : Type} {view : α → β}

theorem map_modify {f : α → α} (hview : ∀ a, view (f a) = view a) (l : List α) (i : Nat) :
    (l.modify i f).map view = l.map view := by
  refine List.ext_getElem? fun j => ?_
  rw [List.getElem?_map, List.getElem?_map, List.getElem?_modify]
  cases l[j]? with
  | none => rfl
  | some a => by_cases hi : i = j <;> simp [hi, hview]

/-- What does not show the positions taken down. -/
theorem map_linkAll {related : α → Bool} {push : Nat → α → α} (hview : ∀ i a, view (push i a) = view a) (n : Nat)
    (l : List α) : (linkAll related push n l).map view = l.map view := by
  rw [linkAll]
  induction List.range n generalizing l with
  | nil => rfl
  | cons i ids ih =>
    rw [List.foldl_cons, ih, link]
    split
    · rw [map_modify (hview i), map_modify (hview n)]
    · rfl

theorem map_foldl_addOnce {has : α → Bool} {push : α → α} (hview : ∀ a, view (push a) = view a) (names : List Nat)
    (l : List α) : (names.foldl (addOnce has push) l).map view = l.map view := by
  induction names generalizing l with
  | nil => rfl
  | cons name names ih =>
    rw [List.foldl_cons, ih, addOnce, map_modify]
    intro a
    split
    · rfl
    · exact hview a

end Views

section Links

variable {related : α → Bool} {push : Nat → α → α}

/-- The positions of the related records. -/
def relatives (related : α → Bool) (l : List α) (m : Nat) : List Nat :=
  (List.range m).filter fun i => (l[i]?).any related

theorem relatives_succ (related : α → Bool) (l : List α) (m : Nat) : relatives related l (m + 1) =
    relatives related l m ++ if (l[m]?).any related then [m] else [] := by
  rw [relatives, List.range_succ, List.filter_append]
  simp [relatives, List.filter_cons]

theorem relatives_append {m : Nat} {l : List α} (hm : m ≤ l.length) (rest : List α) :
    relatives related (l ++ rest) m = relatives related l m := by
  refine List.filter_congr fun i hi => ?_
  rw [List.getElem?_append_left (Nat.lt_of_lt_of_le (List.mem_range.mp hi) hm)]

theorem relatives_concat (related : α → Bool) (l : List α) (x : α) : relatives related (l ++ [x]) (l.length + 1) =
    relatives related l l.length ++ if related x then [l.length] else [] := by
  rw [relatives_succ, relatives_append (Nat.le_refl _), List.getElem?_concat_length]
  rfl

theorem mem_relatives {l : List α} {m i : Nat} :
    i ∈ relatives related l m ↔ i < m ∧ ∃ a, l[i]? = some a ∧ related a = true := by
  rw [relatives, List.mem_filter, List.mem_range]
  cases l[i]? <;> simp

theorem nodup_relatives (related : α → Bool) (l : List α) (m : Nat) : (relatives related l m).Nodup :=
  List.nodup_range.filter _

theorem relatives_eq_nil {l : List α} {m : Nat} (h : ∀ a ∈ l, related a = false) : relatives related l m = [] := by
  refine List.eq_nil_iff_forall_not_mem.mpr fun i hi => ?_
  obtain ⟨-, a, ha, hrelated⟩ := mem_relatives.mp hi
  rw [h a (List.mem_of_getElem? ha)] at hrelated
  cases hrelated

/-- The records may hold more than what decides whether they are related. -/
theorem relatives_mapIdx {β : Type} {related' : β → Bool} {g : Nat → α → β} (h : ∀ i a, related' (g i a) = related a)
    (l : List α) (m : Nat) : relatives related' (l.mapIdx g) m = relatives related l m := by
  refine List.filter_congr fun i _ => ?_
  rw [List.getElem?_mapIdx]
  cases l[i]? <;> simp [h]

/-- What has been linked when the first `m` have been looked at. -/
def linkedTo (related : α → Bool) (push : Nat → α → α) (n m : Nat) (l : List α) : List α :=
  l.mapIdx fun i a => if i < m ∧ related a then push n a else a

theorem linkedTo_succ_of_related {l : List α} {n m : Nat} (h : (l[m]?).any related) :
    (linkedTo related push n m l).modify m (push n) = linkedTo related push n (m + 1) l := by
  refine List.ext_getElem? fun i => ?_
  rw [List.getElem?_modify, linkedTo, linkedTo, List.getElem?_mapIdx, List.getElem?_mapIdx]
  cases hi : l[i]? with
  | none => rfl
  | some a =>
    by_cases him : m = i
    · subst him
      rw [hi] at h
      simp only [Option.any_some] at h
      simp [h]
    · have hlt : i < m ↔ i < m + 1 := by omega
      simp [him, hlt]

theorem linkedTo_succ_of_not_related {l : List α} {n m : Nat} (h : ¬ (l[m]?).any related) :
    linkedTo related push n (m + 1) l = linkedTo related push n m l := by
  refine List.ext_getElem? fun i => ?_
  rw [linkedTo, linkedTo, List.getElem?_mapIdx, List.getElem?_mapIdx]
  cases hi : l[i]? with
  | none => rfl
  | some a =>
    by_cases him : m = i
    · subst him
      rw [hi] at h
      simp only [Option.any_some] at h
      simp [h]
    · have hlt : i < m + 1 ↔ i < m := by omega
      simp [hlt]

theorem getElem?_linkedTo_self (l : List α) (n m : Nat) : (linkedTo related push n m l)[m]? = l[m]? := by
  rw [linkedTo, List.getElem?_mapIdx]
  cases l[m]? <;> simp

theorem foldl_link (l : List α) (x : α) {m : Nat} (hm : m ≤ l.length) :
    (List.range m).foldl (link related push l.length) (l ++ [x]) =
      linkedTo related push l.length m l ++ [(relatives related l m).foldl (fun x i => push i x) x] := by
  induction m with
  | zero =>
    have hnone : linkedTo related push l.length 0 l = l := by
      refine List.ext_getElem? fun i => ?_
      rw [linkedTo, List.getElem?_mapIdx]
      cases l[i]? <;> simp
    rw [hnone]
    rfl
  | succ m ih =>
    have hlength : (linkedTo related push l.length m l).length = l.length := by simp [linkedTo]
    rw [List.range_succ, List.foldl_append, ih (by omega), List.foldl_cons, List.foldl_nil, link, relatives_succ,
      List.getElem?_append_left (by omega), getElem?_linkedTo_self]
    split
    case isTrue hrelated =>
      have hfirst : m < (linkedTo related push l.length m l).length := by omega
      have hlast : l.length = (linkedTo related push l.length (m + 1) l).length := by simp [linkedTo]
      rw [modify_append_of_lt _ _ hfirst, linkedTo_succ_of_related hrelated, modify_append_last _ _ _ hlast,
        List.foldl_append]
      rfl
    case isFalse hrelated => rw [linkedTo_succ_of_not_related hrelated, List.append_nil]

/-- A new record linked with all before it. -/
theorem linkAll_append (l : List α) (x : α) : linkAll related push l.length (l ++ [x]) =
    l.map (fun a => if related a then push l.length a else a) ++
      [(relatives related l l.length).foldl (fun x i => push i x) x] := by
  rw [linkAll, foldl_link l x (Nat.le_refl _), linkedTo]
  congr 1
  refine List.ext_getElem? fun i => ?_
  rw [List.getElem?_mapIdx, List.getElem?_map]
  cases hi : l[i]? with
  | none => rfl
  | some a =>
    obtain ⟨hlt, -⟩ := List.getElem?_eq_some_iff.mp hi
    simp [hlt]

end Links

section Once

variable {has : α → Bool} {push : α → α}

/-- Each record that is named takes it down, however often it is named. -/
theorem foldl_addOnce (hpush : ∀ a, has (push a) = true) (l : List α) (names : List Nat) :
    names.foldl (addOnce has push) l = l.mapIdx fun v a => if v ∈ names ∧ has a = false then push a else a := by
  induction names generalizing l with
  | nil =>
    refine List.ext_getElem? fun i => ?_
    rw [List.getElem?_mapIdx, List.foldl_nil]
    cases hi : l[i]? <;> simp
  | cons name names ih =>
    rw [List.foldl_cons, ih]
    refine List.ext_getElem? fun i => ?_
    rw [List.getElem?_mapIdx, List.getElem?_mapIdx, addOnce, List.getElem?_modify]
    cases l[i]? with
    | none => rfl
    | some a =>
      by_cases hname : name = i
      · subst hname
        cases hhas : has a <;> simp [hhas, hpush]
      · simp [hname, Ne.symm hname]

end Once

end Lumos.Library.PairedRows
