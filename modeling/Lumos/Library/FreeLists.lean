import Lumos.Library.Bytes

/-!
# Lists through memory

A memory of bytes, and lists whose links are in the first bytes of their own members. The
address zero ends a list.
-/
namespace Lumos.FreeLists

open Bytes

abbrev Memory := Nat → UInt8

/-- The number in `k` bytes, with the least significant one first. -/
def load (m : Memory) (p k : Nat) : Nat := littleEndian ((List.range k).map fun i => m (p + i))

def store (m : Memory) (p k v : Nat) : Memory :=
  fun a => if p ≤ a ∧ a < p + k then (toBytes k v).getD (a - p) 0 else m a

/-- `k` bytes from `p` on and `l` bytes from `q` on have no byte in common. -/
def Apart (p k q l : Nat) : Prop := p + k ≤ q ∨ q + l ≤ p

/-- The bytes that hold a link. -/
def linkSize : Nat := 8

/-- The list that starts with some address. -/
def Chain (m : Memory) : Nat → List Nat → Prop
  | head, [] => head = 0
  | head, p :: ps => head = p ∧ p ≠ 0 ∧ Chain m (load m p linkSize) ps

/-- An address that is found when the links are followed. -/
inductive Linked (m : Memory) : Nat → Nat → Prop
  | head {p : Nat} (hp : p ≠ 0) : Linked m p p
  | next {p q : Nat} (hp : p ≠ 0) (h : Linked m (load m p linkSize) q) : Linked m p q

variable {m m' : Memory} {p q k l v head : Nat} {ps : List Nat}

theorem Apart.symm (h : Apart p k q l) : Apart q l p k := Or.symm h

theorem Apart.mono (h : Apart p k q l) {k' l' : Nat} (hk : k' ≤ k) (hl : l' ≤ l) : Apart p k' q l' := by
  rcases h with h | h
  · exact Or.inl (by omega)
  · exact Or.inr (by omega)

theorem load_congr (h : ∀ i < k, m (p + i) = m' (p + i)) : load m p k = load m' p k := by
  rw [load, load]
  congr 1
  apply List.map_congr_left
  intro i hi
  exact h i (List.mem_range.mp hi)

theorem store_apply_of_lt {i : Nat} (hi : i < k) : store m p k v (p + i) = (toBytes k v).getD i 0 := by
  rw [store, if_pos (by omega), Nat.add_sub_cancel_left]

theorem load_store_same : load (store m p k v) p k = v % 256 ^ k := by
  have hbytes : (List.range k).map (fun i => store m p k v (p + i)) = toBytes k v := by
    apply List.ext_getElem
    · rw [List.length_map, List.length_range, length_toBytes]
    · intro i hi hi'
      rw [length_toBytes] at hi'
      rw [List.getElem_map, List.getElem_range, store_apply_of_lt hi']
      exact List.getD_eq_getElem _ _ _
  rw [load, hbytes, littleEndian_toBytes]

theorem load_store_apart (h : Apart p k q l) : load (store m p k v) q l = load m q l := by
  apply load_congr
  intro i hi
  have hout : ¬ (p ≤ q + i ∧ q + i < p + k) := by
    rcases h with h | h <;> omega
  rw [store, if_neg hout]

/-! ## Chains -/

theorem Chain.frame (h : Chain m head ps) (hsame : ∀ p ∈ ps, load m' p linkSize = load m p linkSize) :
    Chain m' head ps := by
  induction ps generalizing head with
  | nil => exact h
  | cons p ps ih =>
    obtain ⟨rfl, hne, hrest⟩ := h
    refine ⟨rfl, hne, ?_⟩
    rw [hsame _ List.mem_cons_self]
    exact ih hrest fun q hq => hsame q (List.mem_cons_of_mem _ hq)

/-- A block whose link is stored in it comes before the others. -/
theorem Chain.push (h : Chain m head ps) (hhead : head < 256 ^ linkSize) (hp : p ≠ 0)
    (hapart : ∀ q ∈ ps, Apart p linkSize q linkSize) : Chain (store m p linkSize head) p (p :: ps) := by
  refine ⟨rfl, hp, ?_⟩
  rw [load_store_same, Nat.mod_eq_of_lt hhead]
  exact h.frame fun q hq => load_store_apart (hapart q hq)

theorem Chain.eq_cons (h : Chain m head ps) (hhead : head ≠ 0) :
    ∃ qs, ps = head :: qs ∧ Chain m (load m head linkSize) qs := by
  cases ps with
  | nil => exact absurd h hhead
  | cons p qs =>
    obtain ⟨rfl, -, hrest⟩ := h
    exact ⟨qs, rfl, hrest⟩

theorem Chain.linked_iff (h : Chain m head ps) : Linked m head q ↔ q ∈ ps := by
  constructor
  · intro hlinked
    induction hlinked generalizing ps with
    | head hp =>
      obtain ⟨qs, rfl, -⟩ := h.eq_cons hp
      exact List.mem_cons_self
    | next hp _ ih =>
      obtain ⟨qs, rfl, hrest⟩ := h.eq_cons hp
      exact List.mem_cons_of_mem _ (ih hrest)
  · intro hmem
    induction ps generalizing head with
    | nil => cases hmem
    | cons p ps ih =>
      obtain ⟨rfl, hne, hrest⟩ := h
      rcases List.mem_cons.mp hmem with rfl | hmem
      · exact Linked.head hne
      · exact Linked.next hne (ih hrest hmem)

end Lumos.FreeLists
