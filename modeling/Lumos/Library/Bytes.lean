import Mathlib

/-!
# Strings of bytes

Parts of a string of bytes, and the numbers they hold with the least significant byte first.
-/
namespace Lumos.Bytes

/-- `n` bytes from `start` on, as far as there are any. -/
def slice (bytes : List UInt8) (start n : Nat) : List UInt8 := (bytes.drop start).take n

def littleEndian : List UInt8 → Nat
  | [] => 0
  | b :: bytes => b.toNat + 256 * littleEndian bytes

/-- A number in so many bytes, as far as it fits. -/
def toBytes : Nat → Nat → List UInt8
  | 0, _ => []
  | k + 1, n => UInt8.ofNat n :: toBytes k (n / 256)

variable {bytes bytes' : List UInt8} {start start' n n' i : Nat} {byte : UInt8}

@[simp] theorem length_toBytes (k n : Nat) : (toBytes k n).length = k := by
  induction k generalizing n with
  | zero => rfl
  | succ k ih => rw [toBytes, List.length_cons, ih]

theorem littleEndian_toBytes (k n : Nat) : littleEndian (toBytes k n) = n % 256 ^ k := by
  induction k generalizing n with
  | zero => exact (Nat.mod_one n).symm
  | succ k ih =>
    have hbyte : (UInt8.ofNat n).toNat = n % 256 := UInt8.toNat_ofNat
    rw [toBytes, littleEndian, ih, hbyte, Nat.pow_succ, Nat.mul_comm (256 ^ k), Nat.mod_mul]

/-- No byte is more than the number. -/
theorem le_littleEndian (h : byte ∈ bytes) : byte.toNat ≤ littleEndian bytes := by
  induction bytes with
  | nil => cases h
  | cons b bytes ih =>
    rw [littleEndian]
    cases h with
    | head => omega
    | tail _ h =>
      have hrest := ih h
      omega

theorem length_slice (h : start + n ≤ bytes.length) : (slice bytes start n).length = n := by
  rw [slice, List.length_take, List.length_drop]
  omega

theorem slice_slice (h : start' + n' ≤ n) :
    slice (slice bytes start n) start' n' = slice bytes (start + start') n' := by
  rw [slice, slice, slice, List.drop_take, List.take_take, List.drop_drop, Nat.min_eq_left (by omega)]

theorem getElem?_slice (h : i < n) : (slice bytes start n)[i]? = bytes[start + i]? := by
  rw [slice, List.getElem?_take_of_lt h, List.getElem?_drop]

theorem slice_append_left (h : start + n ≤ bytes.length) : slice (bytes ++ bytes') start n = slice bytes start n := by
  rw [slice, slice, List.drop_append_of_le_length (by omega), List.take_append_of_le_length]
  rw [List.length_drop]
  omega

theorem slice_append_right : slice (bytes ++ bytes') (bytes.length + start) n = slice bytes' start n := by
  rw [slice, slice, List.drop_append, List.drop_of_length_le (by omega), Nat.add_sub_cancel_left, List.nil_append]

theorem slice_all : slice bytes 0 bytes.length = bytes := List.take_length

theorem slice_append_self : slice (bytes ++ bytes') 0 bytes.length = bytes := by
  rw [slice_append_left (by omega), slice_all]

/-- A part, by what comes before it. -/
theorem slice_middle (before middle after : List UInt8) :
    slice (before ++ (middle ++ after)) before.length middle.length = middle :=
  slice_append_right.trans slice_append_self

theorem length_slice_le : (slice bytes start n).length ≤ n := List.length_take_le _ _

theorem length_slice_eq : (slice bytes start n).length = n ↔ n = 0 ∨ start + n ≤ bytes.length := by
  rw [slice, List.length_take, List.length_drop]
  omega

/-- Zero but for one byte, which is one. -/
def spike (length position : Nat) : List UInt8 := (List.replicate length 0).set position 1

@[simp] theorem length_spike (length position : Nat) : (spike length position).length = length := by
  simp [spike]

theorem littleEndian_eq_zero (h : ∀ b ∈ bytes, b = 0) : littleEndian bytes = 0 := by
  induction bytes with
  | nil => rfl
  | cons b bytes ih =>
    have hb : b = 0 := h b List.mem_cons_self
    rw [littleEndian, ih fun b' hb' => h b' (List.mem_cons_of_mem _ hb'), hb]
    rfl

/-- Away from the spike there is nothing. -/
theorem littleEndian_spike_other {length position : Nat} (h : position < start ∨ start + n ≤ position) :
    littleEndian (slice (spike length position) start n) = 0 := by
  apply littleEndian_eq_zero
  intro b hb
  obtain ⟨i, hi⟩ := List.mem_iff_getElem?.mp hb
  have hlt : i < n := by
    have hlength := (List.getElem?_eq_some_iff.mp hi).1
    rw [slice, List.length_take] at hlength
    omega
  rw [getElem?_slice hlt, spike, List.getElem?_set_ne (by omega)] at hi
  exact List.eq_of_mem_replicate (List.mem_of_getElem? hi)

theorem littleEndian_spike_same {length position : Nat} (hn : 0 < n) (h : position < length) :
    littleEndian (slice (spike length position) position n) = 1 := by
  obtain ⟨n, rfl⟩ := Nat.exists_eq_succ_of_ne_zero (Nat.pos_iff_ne_zero.mp hn)
  have hdrop : (spike length position).drop position =
      1 :: (List.replicate length (0 : UInt8)).drop (position + 1) := by
    rw [List.drop_eq_getElem_cons (by simpa using h)]
    simp [spike, List.drop_set]
  have hzero : littleEndian (((List.replicate length (0 : UInt8)).drop (position + 1)).take n) = 0 := by
    apply littleEndian_eq_zero
    intro b hb
    exact List.eq_of_mem_replicate (List.mem_of_mem_drop (List.mem_of_mem_take hb))
  rw [slice, hdrop, List.take_succ_cons, littleEndian, hzero]
  rfl

end Lumos.Bytes
