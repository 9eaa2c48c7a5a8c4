import Mathlib.Data.List.Nodup

/-!
# Sparse sets

Values under keys, packed in the order in which they have been put in.
-/
namespace Lumos.Library

structure SparseSet (κ α : Type) where
  packed : List (κ × α)
  nodup : (packed.map Prod.fst).Nodup

namespace SparseSet

variable {κ α : Type} {s : SparseSet κ α} {k : κ} {a : α}

def empty : SparseSet κ α := ⟨[], List.nodup_nil⟩

def keys (s : SparseSet κ α) : List κ := s.packed.map Prod.fst

def find [DecidableEq κ] (s : SparseSet κ α) (k : κ) : Option α :=
  (s.packed.find? fun p => p.1 = k).map Prod.snd

/-- Put a value under a new key. -/
def push (s : SparseSet κ α) (k : κ) (a : α) (h : k ∉ s.keys) : SparseSet κ α where
  packed := s.packed ++ [(k, a)]
  nodup := by
    rw [List.map_append, List.map_singleton, ← List.concat_eq_append]
    exact s.nodup.concat h

@[simp] theorem packed_empty : (empty : SparseSet κ α).packed = [] := rfl

@[simp] theorem packed_push (h : k ∉ s.keys) : (s.push k a h).packed = s.packed ++ [(k, a)] := rfl

theorem find_eq_some [DecidableEq κ] : s.find k = some a ↔ (k, a) ∈ s.packed := by
  constructor
  · intro h
    obtain ⟨⟨x, b⟩, hfind, rfl⟩ := Option.map_eq_some_iff.mp h
    have hx : x = k := by simpa using List.find?_some hfind
    exact hx ▸ List.mem_of_find?_eq_some hfind
  · intro h
    have hsome : (s.packed.find? fun p => p.1 = k).isSome := by
      rw [List.find?_isSome]
      exact ⟨(k, a), h, by simp⟩
    obtain ⟨⟨x, b⟩, hfind⟩ := Option.isSome_iff_exists.mp hsome
    have hx : x = k := by simpa using List.find?_some hfind
    have hmem : (x, b) ∈ s.packed := List.mem_of_find?_eq_some hfind
    have hsame : (x, b) = (k, a) := List.inj_on_of_nodup_map s.nodup hmem h hx
    rw [find, hfind, hsame]
    rfl

/-- Entries of a sparse set are known by their keys. -/
theorem eq_of_keys_eq {l l' : List (κ × α)} (hkeys : l.map Prod.fst = l'.map Prod.fst) (hl : l ⊆ s.packed)
    (hl' : l' ⊆ s.packed) : l = l' := by
  induction l generalizing l' with
  | nil => exact (List.map_eq_nil_iff.mp hkeys.symm).symm
  | cons p l ih =>
    cases l' with
    | nil => cases hkeys
    | cons p' l' =>
      rw [List.map_cons, List.map_cons, List.cons.injEq] at hkeys
      rw [List.cons_subset] at hl hl'
      rw [List.inj_on_of_nodup_map s.nodup hl.1 hl'.1 hkeys.1, ih hkeys.2 hl.2 hl'.2]

end SparseSet

end Lumos.Library
