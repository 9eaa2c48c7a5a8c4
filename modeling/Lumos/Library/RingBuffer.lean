import Mathlib.Data.List.Basic
import Mathlib.Data.Nat.ModEq
import Mathlib.Logic.Function.Basic

/-!
# Ring buffers

An array with a head, where the next item goes, and a tail, where the oldest is taken from.
One entry always stays free, so that a full buffer is told from an empty one.
-/
namespace Lumos

structure RingBuffer (α : Type) (capacity : Nat) where
  data : Fin capacity → α
  head : Fin capacity
  tail : Fin capacity

namespace RingBuffer

variable {α : Type} {capacity : Nat}

/-- `count` entries further on. -/
def advance (i : Fin capacity) (count : Nat) : Fin capacity :=
  ⟨(i.val + count) % capacity, Nat.mod_lt _ (Nat.zero_lt_of_lt i.isLt)⟩

/-- Put an item at the head, unless there is no room. -/
def pushBack (b : RingBuffer α capacity) (item : α) : Option (RingBuffer α capacity) :=
  let next := advance b.head 1
  if next ≠ b.tail then some { b with data := Function.update b.data b.head item, head := next }
  else none

/-- Take the item at the tail, unless there is none. -/
def popFront (b : RingBuffer α capacity) : Option (α × RingBuffer α capacity) :=
  if b.tail ≠ b.head then some (b.data b.tail, { b with tail := advance b.tail 1 }) else none

/-- The number of items. -/
def size (b : RingBuffer α capacity) : Nat := (b.head.val + capacity - b.tail.val) % capacity

/-- The items from the oldest to the newest. -/
def contents (b : RingBuffer α capacity) : List α :=
  (List.range (size b)).map fun k => b.data (advance b.tail k)

variable {b : RingBuffer α capacity} {item : α}

@[simp] theorem length_contents : (contents b).length = size b := by simp [contents]

theorem size_congr {b b' : RingBuffer α capacity} (h : b.contents = b'.contents) : size b = size b' := by
  rw [← length_contents, h, length_contents]

theorem size_of_cons {b b' : RingBuffer α capacity} (h : b.contents = item :: b'.contents) :
    size b = size b' + 1 := by
  rw [← length_contents, h, List.length_cons, length_contents]

theorem size_of_concat {b b' : RingBuffer α capacity} (h : b.contents = b'.contents ++ [item]) :
    size b = size b' + 1 := by
  rw [← length_contents, h, List.length_append, length_contents, List.length_singleton]

theorem size_lt : size b < capacity := Nat.mod_lt _ (Nat.zero_lt_of_lt b.head.isLt)

@[simp] theorem advance_zero (i : Fin capacity) : advance i 0 = i := by
  apply Fin.ext
  exact Nat.mod_eq_of_lt i.isLt

theorem advance_advance (i : Fin capacity) (k l : Nat) :
    advance (advance i k) l = advance i (k + l) := by
  apply Fin.ext
  simp only [advance, Nat.mod_add_mod, Nat.add_assoc]

theorem advance_inj {i : Fin capacity} {k l : Nat} (hk : k < capacity) (hl : l < capacity)
    (h : advance i k = advance i l) : k = l := by
  have hval : (i.val + k) % capacity = (i.val + l) % capacity := congrArg Fin.val h
  have hmod : k % capacity = l % capacity := Nat.ModEq.add_left_cancel' i.val hval
  rwa [Nat.mod_eq_of_lt hk, Nat.mod_eq_of_lt hl] at hmod

theorem head_eq (b : RingBuffer α capacity) : b.head = advance b.tail (size b) := by
  apply Fin.ext
  have htail := b.tail.isLt
  have hsum : b.tail.val + (b.head.val + capacity - b.tail.val) = b.head.val + capacity := by omega
  simp only [advance, size, Nat.add_mod_mod, hsum, Nat.add_mod_right]
  exact (Nat.mod_eq_of_lt b.head.isLt).symm

/-- The size is what the head is ahead of the tail. -/
theorem size_eq {n : Nat} (hn : n < capacity) (h : b.head = advance b.tail n) : size b = n :=
  advance_inj size_lt hn ((head_eq b).symm.trans h)

theorem size_pos_iff : 0 < size b ↔ b.tail ≠ b.head := by
  rw [head_eq b, Nat.pos_iff_ne_zero, not_iff_not]
  constructor
  · intro h
    rw [h, advance_zero]
  · intro h
    have hzero : advance b.tail (size b) = advance b.tail 0 := by rw [← h, advance_zero]
    exact advance_inj size_lt (Nat.zero_lt_of_lt b.head.isLt) hzero

theorem popFront_empty (h : contents b = []) : popFront b = none := by
  have hsize : size b = 0 := by rw [← length_contents, h, List.length_nil]
  have hsame : ¬ b.tail ≠ b.head := fun hne => Nat.ne_of_gt (size_pos_iff.mpr hne) hsize
  exact if_neg hsame

/-- What is taken is the oldest item, and the others stay. -/
theorem popFront_cons {items : List α} (h : contents b = item :: items) :
    ∃ b', popFront b = some (item, b') ∧ contents b' = items := by
  have hsize : size b = items.length + 1 := by rw [← length_contents, h, List.length_cons]
  have hne : b.tail ≠ b.head := size_pos_iff.mp (by omega)
  let b' : RingBuffer α capacity := { b with tail := advance b.tail 1 }
  have hsize' : size b' = items.length := by
    apply size_eq (by have hlt := size_lt (b := b); omega)
    change b.head = advance (advance b.tail 1) items.length
    rw [advance_advance, head_eq b, hsize, Nat.add_comm]
  have hcontents : contents b = b.data b.tail :: contents b' := by
    simp only [contents, hsize, hsize', List.range_succ_eq_map, List.map_cons, List.map_map, advance_zero]
    congr 1
    apply List.map_congr_left
    intro k _
    simp [b', advance_advance, Nat.add_comm]
  rw [h] at hcontents
  obtain ⟨hitem, hitems⟩ := List.cons.inj hcontents
  exact ⟨b', by simp [popFront, hne, hitem, b'], hitems.symm⟩

theorem advance_head_ne_iff : advance b.head 1 ≠ b.tail ↔ size b + 1 < capacity := by
  have hlt := size_lt (b := b)
  have hnext : advance b.head 1 = advance b.tail (size b + 1) := by
    rw [← advance_advance, ← head_eq]
  rw [hnext]
  constructor
  · intro hne
    by_contra hfull
    have hcapacity : size b + 1 = capacity := by omega
    apply hne
    apply Fin.ext
    simp only [advance, hcapacity, Nat.add_mod_right]
    exact Nat.mod_eq_of_lt b.tail.isLt
  · intro hroom heq
    have hzero : advance b.tail (size b + 1) = advance b.tail 0 := by rw [heq, advance_zero]
    have hsame := advance_inj hroom (by omega) hzero
    omega

/-- An item that finds room goes behind all others. -/
theorem pushBack_room (h : size b + 1 < capacity) (item : α) :
    ∃ b', pushBack b item = some b' ∧ contents b' = contents b ++ [item] := by
  have hne := advance_head_ne_iff.mpr h
  let b' : RingBuffer α capacity :=
    { b with data := Function.update b.data b.head item, head := advance b.head 1 }
  have hsize : size b' = size b + 1 := by
    apply size_eq h
    change advance b.head 1 = advance b.tail (size b + 1)
    rw [← advance_advance, ← head_eq]
  refine ⟨b', by simp [pushBack, hne, b'], ?_⟩
  simp only [contents, hsize, List.range_succ, List.map_append, List.map_cons, List.map_nil]
  congr 1
  · apply List.map_congr_left
    intro k hk
    have hbefore : advance b.tail k ≠ b.head := by
      intro heq
      rw [head_eq b] at heq
      have hsame := advance_inj (Nat.lt_trans (List.mem_range.mp hk) size_lt) size_lt heq
      have hlt := List.mem_range.mp hk
      omega
    exact Function.update_of_ne hbefore _ _
  · have hhead : advance b'.tail (size b) = b.head := (head_eq b).symm
    rw [hhead]
    simp [b']

theorem pushBack_full (h : ¬ size b + 1 < capacity) (item : α) : pushBack b item = none := by
  have hsame : ¬ advance b.head 1 ≠ b.tail := fun hne => h (advance_head_ne_iff.mp hne)
  exact if_neg hsame

end RingBuffer

end Lumos
