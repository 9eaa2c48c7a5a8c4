import Mathlib.Algebra.BigOperators.Group.List.Basic
import Mathlib.Tactic.Linarith

/-!
# Blocks end to end

Blocks of bytes are laid one after another into a buffer, at an offset that is added up as it goes and
wraps around. The same items may be gone through several times.
-/
namespace Lumos.EndToEnd

variable {α ι : Type} {M n f l i start : Nat}

/-! ## Running offsets -/

/-- Where blocks of these sizes start. -/
def starts (M : Nat) : Nat → List Nat → List Nat
  | _, [] => []
  | start, size :: sizes => start :: starts M ((start + size) % M) sizes

theorem getElem?_starts {sizes : List Nat} {j : Nat} (hstart : start % M = start) (hj : j < sizes.length) :
    (starts M start sizes)[j]? = some ((start + (sizes.take j).sum) % M) := by
  induction sizes generalizing start j with
  | nil => cases hj
  | cons size sizes ih =>
    cases j with
    | zero => simp [starts, hstart]
    | succ j =>
      rw [starts, List.getElem?_cons_succ, ih (Nat.mod_mod _ _) (Nat.lt_of_succ_lt_succ hj), List.take_succ_cons,
        List.sum_cons, Nat.mod_add_mod, Nat.add_assoc]

/-! ## Copies -/

/-- Nothing is written beyond the end. -/
def memcpy (buffer : List α) (offset : Nat) (block : List α) : Option (List α) :=
  if offset + block.length ≤ buffer.length then
    some (buffer.take offset ++ block ++ buffer.drop (offset + block.length))
  else none

theorem memcpy_append (front back block : List α) : memcpy (front ++ back) front.length block =
    if block.length ≤ back.length then some (front ++ block ++ back.drop block.length) else none := by
  have hdrop : (front ++ back).drop (front.length + block.length) = back.drop block.length := by simp
  unfold memcpy
  simp only [List.length_append, Nat.add_le_add_iff_left, List.take_left, hdrop]

def memcpyAll (buffer : List α) (copies : List (Nat × List α)) : Option (List α) :=
  copies.foldlM (fun buffer copy => memcpy buffer copy.1 copy.2) buffer

/-- Blocks that fit are all there, one after another, with the rest of the buffer behind. -/
theorem memcpyAll_starts (blocks : List (List α)) (front back : List α) (hM : (front ++ back).length < M) :
    memcpyAll (front ++ back) ((starts M front.length (blocks.map List.length)).zip blocks) =
      if blocks.flatten.length ≤ back.length then
        some (front ++ blocks.flatten ++ back.drop blocks.flatten.length)
      else none := by
  induction blocks generalizing front back with
  | nil => simp [memcpyAll]
  | cons block blocks ih =>
    rw [List.map_cons, starts, List.zip_cons_cons, memcpyAll, List.foldlM_cons, memcpy_append, List.flatten_cons,
      List.length_append]
    by_cases hblock : block.length ≤ back.length
    · have hlength : (front ++ block ++ back.drop block.length).length = (front ++ back).length := by
        simp only [List.length_append, List.length_drop]
        omega
      have hnext : (front.length + block.length) % M = (front ++ block).length := by
        rw [List.length_append, Nat.mod_eq_of_lt]
        rw [List.length_append] at hM
        omega
      have hrest := ih (front ++ block) (back.drop block.length) (by rwa [hlength])
      rw [if_pos hblock, hnext]
      refine hrest.trans ?_
      rw [List.length_drop, List.drop_drop, ← List.append_assoc]
      split <;> split <;> first | rfl | omega
    · rw [if_neg hblock, if_neg (by omega)]
      rfl

theorem getElem?_flatten {blocks : List (List α)} {j : Nat} {block : List α} (hj : blocks[j]? = some block)
    (hi : i < block.length) : blocks.flatten[((blocks.map List.length).take j).sum + i]? = block[i]? := by
  induction blocks generalizing j with
  | nil => cases hj
  | cons first blocks ih =>
    cases j with
    | zero =>
      obtain rfl := Option.some.inj hj
      rw [List.take_zero, List.sum_nil, Nat.zero_add, List.flatten_cons, List.getElem?_append_left hi]
    | succ j =>
      rw [List.map_cons, List.take_succ_cons, List.sum_cons, List.flatten_cons, Nat.add_assoc,
        List.getElem?_append_right (Nat.le_add_right _ _), Nat.add_sub_cancel_left, ih hj]

/-- Blocks of one length. -/
theorem getElem?_flatMap_range {block : Nat → List α} {length j : Nat} (hlength : ∀ j, (block j).length = length)
    (hj : j < n) (hi : i < length) : ((List.range n).flatMap block)[j * length + i]? = (block j)[i]? := by
  have hget : ((List.range n).map block)[j]? = some (block j) := by
    rw [List.getElem?_map, List.getElem?_range hj]
    rfl
  have hsum : ((((List.range n).map block).map List.length).take j).sum = j * length := by
    have hconst : List.length ∘ block = fun _ => length := funext hlength
    rw [List.map_map, hconst, List.map_const', List.take_replicate, List.length_range, Nat.min_eq_left hj.le,
      List.sum_replicate_nat]
  rw [List.flatMap_def, ← hsum]
  exact getElem?_flatten hget ((hlength j).symm ▸ hi)

/-! ## Several turns -/

/-- All items, several times. -/
def turns (n : Nat) (items : List ι) : List (Nat × ι) := (List.range n).flatMap fun f => items.map (Prod.mk f)

theorem turns_succ (n : Nat) (items : List ι) : turns (n + 1) items = turns n items ++ items.map (Prod.mk n) := by
  rw [turns, turns, List.range_succ, List.flatMap_append, List.flatMap_singleton]

theorem length_turns (n : Nat) (items : List ι) : (turns n items).length = n * items.length := by
  induction n with
  | zero => rw [Nat.zero_mul]; rfl
  | succ n ih => rw [turns_succ, List.length_append, List.length_map, ih, Nat.succ_mul]

theorem getElem?_turns {items : List ι} {item : ι} (hf : f < n) (hl : items[l]? = some item) :
    (turns n items)[f * items.length + l]? = some (f, item) := by
  have hlt : l < items.length := (List.getElem?_eq_some_iff.mp hl).1
  induction n with
  | zero => cases hf
  | succ n ih =>
    rw [turns_succ]
    rcases Nat.lt_succ_iff_lt_or_eq.mp hf with hlow | rfl
    · rw [List.getElem?_append_left, ih hlow]
      rw [length_turns]
      nlinarith
    · rw [List.getElem?_append_right (by rw [length_turns]; exact Nat.le_add_right _ _), length_turns,
        Nat.add_sub_cancel_left, List.getElem?_map, hl]
      rfl

/-- Each place is that of an item in a turn. -/
theorem exists_of_getElem?_turns {items : List ι} {item : ι} {j : Nat} (h : (turns n items)[j]? = some (f, item)) :
    f < n ∧ ∃ l, items[l]? = some item ∧ j = f * items.length + l := by
  have hj : j < n * items.length := by
    rw [← length_turns]
    exact (List.getElem?_eq_some_iff.mp h).1
  have hpos : 0 < items.length := Nat.pos_of_ne_zero fun hzero => by simp [hzero] at hj
  have hl : j % items.length < items.length := Nat.mod_lt _ hpos
  have hf : j / items.length < n := Nat.div_lt_of_lt_mul (by rwa [Nat.mul_comm])
  have hplace : j / items.length * items.length + j % items.length = j := Nat.div_add_mod' _ _
  have hget := getElem?_turns hf (List.getElem?_eq_getElem hl)
  rw [hplace, h] at hget
  obtain ⟨rfl, rfl⟩ := Prod.mk.inj (Option.some.inj hget)
  exact ⟨hf, j % items.length, List.getElem?_eq_getElem hl, hplace.symm⟩

theorem map_turns_succ {β : Type} (size : ι → β) (n : Nat) (items : List ι) :
    (turns (n + 1) items).map (fun turn => size turn.2) =
      (turns n items).map (fun turn => size turn.2) ++ items.map size := by
  rw [turns_succ, List.map_append, List.map_map]
  rfl

theorem sum_turns (size : ι → Nat) (n : Nat) (items : List ι) :
    ((turns n items).map fun turn => size turn.2).sum = n * (items.map size).sum := by
  induction n with
  | zero => rw [Nat.zero_mul]; rfl
  | succ n ih => rw [map_turns_succ, List.sum_append, ih, Nat.succ_mul]

/-- What is before an item of a turn: all items once for each turn before, and those before it. -/
theorem sum_take_turns (size : ι → Nat) {items : List ι} (hf : f < n) (hl : l ≤ items.length) :
    (((turns n items).map fun turn => size turn.2).take (f * items.length + l)).sum =
      f * (items.map size).sum + ((items.take l).map size).sum := by
  induction n with
  | zero => cases hf
  | succ n ih =>
    rw [map_turns_succ]
    rcases Nat.lt_succ_iff_lt_or_eq.mp hf with hlow | rfl
    · rw [List.take_append_of_le_length, ih hlow]
      rw [List.length_map, length_turns]
      nlinarith
    · rw [List.take_append, List.length_map, length_turns, Nat.add_sub_cancel_left, List.take_of_length_le,
        List.sum_append, sum_turns, List.map_take]
      rw [List.length_map, length_turns]
      exact Nat.le_add_right _ _

/-- All items several times, each with where it starts. -/
def placed (M n : Nat) (size : ι → Nat) (items : List ι) : List (Nat × Nat × ι) :=
  (starts M 0 ((turns n items).map fun turn => size turn.2)).zip (turns n items)

theorem mem_placed_iff {size : ι → Nat} {items : List ι} {item : ι} : (start, f, item) ∈ placed M n size items ↔
    f < n ∧ ∃ l, items[l]? = some item ∧
      start = (f * (items.map size).sum + ((items.take l).map size).sum) % M := by
  have hstart : ∀ {f l : Nat} {item : ι}, f < n → items[l]? = some item →
      (starts M 0 ((turns n items).map fun turn => size turn.2))[f * items.length + l]? =
        some ((f * (items.map size).sum + ((items.take l).map size).sum) % M) := by
    intro f l item hf hl
    have hlt : l < items.length := (List.getElem?_eq_some_iff.mp hl).1
    rw [getElem?_starts (Nat.zero_mod M), sum_take_turns size hf hlt.le, Nat.zero_add]
    rw [List.length_map, length_turns]
    nlinarith
  rw [placed, List.mem_iff_getElem?]
  constructor
  · rintro ⟨j, hj⟩
    obtain ⟨hs, ht⟩ := List.getElem?_zip_eq_some.mp hj
    obtain ⟨hf, l, hl, rfl⟩ := exists_of_getElem?_turns ht
    exact ⟨hf, l, hl, Option.some.inj (hs.symm.trans (hstart hf hl))⟩
  · rintro ⟨hf, l, hl, rfl⟩
    exact ⟨f * items.length + l, List.getElem?_zip_eq_some.mpr ⟨hstart hf hl, getElem?_turns hf hl⟩⟩

end Lumos.EndToEnd
