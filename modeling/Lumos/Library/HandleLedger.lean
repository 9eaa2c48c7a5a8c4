import Mathlib.Data.List.Perm.Basic
import Mathlib.Data.List.Range
import Mathlib.Data.List.Nodup

/-!
# Fresh handles

A device gives each object that is created a handle of its own, and keeps a record of what has been
destroyed. Someone who holds handles accounts for the device if each is either destroyed or held, once.
-/
namespace Lumos.HandleLedger

structure Device (ω : Type) where
  created : List ω := []
  destroyed : List Nat := []
  deriving DecidableEq

variable {ω : Type} {d d' : Device ω} {held : List Nat} {handle : Nat} {o : ω}

namespace Device

/-- The handle of a new object is its place among those created. -/
def create (d : Device ω) (o : ω) : Nat × Device ω := (d.created.length, { d with created := d.created ++ [o] })

/-- Nothing happens for no handle. -/
def destroy (d : Device ω) (handle : Option Nat) : Device ω := { d with destroyed := d.destroyed ++ handle.toList }

@[simp] theorem destroyed_destroy (handle : Option Nat) :
    (d.destroy handle).destroyed = d.destroyed ++ handle.toList := rfl

/-- The object is there and has not been destroyed. -/
def Live (d : Device ω) (handle : Nat) (o : ω) : Prop := d.created[handle]? = some o ∧ handle ∉ d.destroyed

/-- All that has been created has been destroyed, once. -/
def EachOnce (d : Device ω) : Prop := ∀ handle < d.created.length, d.destroyed.count handle = 1

/-- What has been created is destroyed or held. -/
def Accounts (d : Device ω) (held : List Nat) : Prop := (d.destroyed ++ held).Perm (List.range d.created.length)

theorem Accounts.perm {held' : List Nat} (h : d.Accounts held) (hperm : held.Perm held') : d.Accounts held' :=
  (hperm.symm.append_left d.destroyed).trans h

/-- New objects are held. -/
theorem Accounts.create {n : Nat} (h : d.Accounts held) (hdestroyed : d'.destroyed = d.destroyed)
    (hcreated : d'.created.length = d.created.length + n) :
    d'.Accounts (held ++ List.range' d.created.length n) := by
  have hrange : List.range (d.created.length + n) = List.range d.created.length ++ List.range' d.created.length n := by
    rw [List.range_add, List.range'_eq_map_range]
  rw [Accounts, hdestroyed, hcreated, hrange, ← List.append_assoc]
  exact h.append_right _

/-- A handle that is given up is not held any more. -/
theorem Accounts.destroy {handle : Option Nat} (h : d.Accounts (handle.toList ++ held)) :
    (d.destroy handle).Accounts held := by
  rw [Accounts, destroyed_destroy, List.append_assoc]
  exact h

theorem Accounts.live (h : d.Accounts held) (hmem : handle ∈ held) (ho : d.created[handle]? = some o) :
    d.Live handle o := by
  have hnodup : (d.destroyed ++ held).Nodup := h.nodup_iff.mpr List.nodup_range
  exact ⟨ho, fun hdestroyed => List.disjoint_of_nodup_append hnodup hdestroyed hmem⟩

/-- In the end nothing may be held. -/
theorem Accounts.eachOnce_iff (h : d.Accounts held) : d.EachOnce ↔ held = [] := by
  have hnodup : (d.destroyed ++ held).Nodup := h.nodup_iff.mpr List.nodup_range
  constructor
  · intro honce
    refine List.eq_nil_iff_forall_not_mem.mpr fun handle hmem => ?_
    have hlt : handle < d.created.length := List.mem_range.mp (h.subset (List.mem_append_right _ hmem))
    have hdestroyed : handle ∈ d.destroyed := List.count_pos_iff.mp (honce handle hlt ▸ Nat.one_pos)
    exact List.disjoint_of_nodup_append hnodup hdestroyed hmem
  · rintro rfl handle hlt
    rw [List.append_nil] at hnodup
    have hmem : handle ∈ d.destroyed := by
      have := h.mem_iff.mpr (List.mem_range.mpr hlt)
      rwa [List.append_nil] at this
    exact List.count_eq_one_of_mem hnodup hmem

end Device

end Lumos.HandleLedger
