import Mathlib.Data.List.Basic
import Lumos.Core.ReferenceRuns

/-!
# What the variables refer to

In memory whose counts are right, with room for a few more references, an operation has no
other effect than what it does to the list of the variables.
-/
namespace Lumos.Core.Memory

/-- A variable that refers to object `o`. -/
def refersTo (o : Nat) : Option Handle := some ⟨some o, some o⟩

/-- The counts are right, and these are the variables and the number of objects. -/
structure Holds (m : Memory) (slots : List (Option Handle)) (objects : Nat) : Prop where
  counted : m.Counted
  handles : m.handles = slots
  objects : m.objects.length = objects

/-- Every counter has room for `n` more references. -/
def Spare (slots : List (Option Handle)) (n : Nat) : Prop := ∀ k, slots.countP (holdsCounter k) + n < 2 ^ 32

variable {m : Memory} {slots added : List (Option Handle)} {objects i j k o n : Nat} {this other : Handle}

theorem Spare.room (h : Spare slots 1) (hm : m.handles = slots) (other : Handle) : m.Room other := by
  intro k _
  rw [holders, hm]
  exact h k

/-- New variables take up as much room as there are of them. -/
theorem Spare.append (h : Spare slots n) (hn : added.length + 1 ≤ n) : Spare (slots ++ added) 1 := by
  intro k
  have hlength : added.countP (holdsCounter k) ≤ added.length := List.countP_le_length
  have hroom := h k
  rw [List.countP_append]
  omega

theorem Holds.handle (h : m.Holds slots objects) (hi : slots[i]? = some (some this)) : m.handle i = some this := by
  simp [Memory.handle, h.handles, hi]

theorem Holds.null (h : m.Holds slots objects) : (m.newHandle .null).2.Holds (slots ++ [some .null]) objects := by
  refine ⟨⟨newHandle_spec h.counted.consistent, h.counted.lengths⟩, ?_, h.objects⟩
  rw [← h.handles]
  rfl

theorem Holds.adopt (h : m.Holds slots objects) :
    ((m.newObject.2.newHandle .null).2.refPointer m.handles.length m.objects.length).Holds
      (slots ++ [refersTo objects]) (objects + 1) := by
  refine ⟨adopt_spec h.counted, ?_, ?_⟩
  · simp [refPointer, setHandle, newObject, newHandle, refersTo, h.handles, h.counted.lengths, h.objects]
  · rw [(refPointer_lengths _ _ _).2.1]
    simp [newObject, newHandle, h.objects]

theorem Holds.destroy (h : m.Holds slots objects) (hi : slots[i]? = some (some this)) :
    ∃ m', m.destroy i = some m' ∧ m'.Holds (slots.set i none) objects := by
  obtain ⟨m₁, hunref, hl⟩ := unref_spec h.counted.consistent (h.handle hi)
  have hcall : m.destroy i = some (m₁.withSlot i none) := by
    simp only [Memory.destroy, hunref, Option.bind_eq_bind, Option.bind_some]
    rfl
  refine ⟨_, hcall, h.counted.of_sameHeap (hl.sameHeap none) (hl.consistent none vacant_dead), ?_, ?_⟩
  · rw [hl.handles none, ← h.handles]
    rfl
  · rw [(hl.sameHeap none).objects, h.objects]

theorem Holds.ref (h : m.Holds slots objects) (hi : slots[i]? = some (some this))
    (hj : slots[j]? = some (some other)) (hroom : Spare slots 1) :
    ∃ m', m.ref i j = some m' ∧ m'.Holds (slots.set i (some other)) objects := by
  have hi' := h.handle hi
  have hj' := h.handle hj
  have hc := h.counted.consistent
  obtain ⟨m', href, hc', hheap⟩ := ref_spec hc hi' hj' fun _ => hroom.room h.handles other
  refine ⟨m', href, h.counted.of_sameHeap hheap hc', ?_, hheap.objects.trans h.objects⟩
  by_cases hptr : other.ptr = this.ptr
  · rw [ref_same hi' hj' hptr] at href
    cases href
    have hcounter : other.counter = this.counter := by
      rw [hc.paired j other hj', hptr, hc.paired i this hi']
    have hsame : other = this := by
      cases other
      cases this
      cases hptr
      cases hcounter
      rfl
    obtain ⟨hlt, hget⟩ := List.getElem?_eq_some_iff.mp hi
    rw [h.handles, hsame, ← hget, List.set_getElem_self hlt]
  · obtain ⟨m₁, hunref, hl⟩ := unref_spec hc hi'
    rw [ref_other hi' hj' hptr hunref] at href
    have hj₁ := (hl.handle_other (ne_of_ptr_ne hi' hj' hptr) (some .null)).trans hj'
    have hhandles : (m₁.withSlot i (some .null)).handles = slots.set i (some .null) := by
      rw [hl.handles, ← h.handles]
      rfl
    cases hk : other.counter with
    | none =>
      rw [share_none hj₁ hk] at href
      cases href
      have hnull : other = .null := by
        have hnone := (hc.paired j other hj').symm.trans hk
        cases other
        cases hk
        cases hnone
        rfl
      rw [hhandles, hnull]
    | some k =>
      have hother := handle_eq_of_paired hc hj' hk
      obtain ⟨r, hr⟩ := (hl.consistent _ vacant_null).held hj₁ hk
      rw [share_some (hother ▸ hj₁) hr.counter] at href
      cases href
      change ((m₁.withSlot i (some .null)).handles).set i _ = _
      rw [hhandles, List.set_set, hother]

theorem Holds.copy (h : m.Holds slots objects) (hj : slots[j]? = some (some other)) (hroom : Spare slots 2) :
    ∃ m', m.copy j = some m' ∧ m'.Holds (slots ++ [some other]) objects := by
  have hnew : (slots ++ [some Handle.null])[slots.length]? = some (some .null) := by simp
  have hold : (slots ++ [some Handle.null])[j]? = some (some other) := by
    rw [List.getElem?_append_left (List.getElem?_eq_some_iff.mp hj).1]
    exact hj
  obtain ⟨m', href, hm'⟩ := h.null.ref hnew hold (hroom.append (Nat.le_refl 2))
  refine ⟨m', ?_, ?_⟩
  · rw [← href, ← h.handles]
    rfl
  · rw [List.set_append_right _ _ (Nat.le_refl _), Nat.sub_self] at hm'
    exact hm'

/-- The only reference to an object is the one in variable `i`. -/
def Sole (slots : List (Option Handle)) (i o : Nat) : Prop := ∀ j, j ≠ i → slots[j]? ≠ some (refersTo o)

theorem holdsCounter_refersTo (k o : Nat) : holdsCounter k (refersTo o) = decide (o = k) := by
  simp [holdsCounter, refersTo]

theorem Holds.holdsCounter_iff (h : m.Holds slots objects) (j : Nat) :
    (∃ slot, slots[j]? = some slot ∧ holdsCounter k slot = true) ↔ slots[j]? = some (refersTo k) := by
  constructor
  · rintro ⟨slot, hj, hholds⟩
    have hcounter : slot.bind Handle.counter = some k := of_decide_eq_true hholds
    obtain ⟨x, rfl, hx⟩ := Option.bind_eq_some_iff.mp hcounter
    rw [hj, handle_eq_of_paired h.counted.consistent (h.handle hj) hx]
    rfl
  · intro hj
    exact ⟨_, hj, by simp [holdsCounter_refersTo]⟩

theorem countP_eq_one_iff {α : Type} {p : α → Bool} {l : List α} {x : α} (hi : l[i]? = some x) (hx : p x = true) :
    l.countP p = 1 ↔ ∀ j, j ≠ i → ∀ y, l[j]? = some y → p y = false := by
  induction l generalizing i with
  | nil => simp at hi
  | cons a l ih =>
    cases i with
    | zero =>
      have ha : a = x := by simpa using hi
      subst ha
      rw [List.countP_cons_of_pos hx]
      constructor
      · intro hone j hj y hy
        obtain ⟨j, rfl⟩ := Nat.exists_eq_succ_of_ne_zero hj
        have hzero : l.countP p = 0 := by omega
        rw [List.getElem?_cons_succ] at hy
        simpa using List.countP_eq_zero.mp hzero y (List.mem_of_getElem? hy)
      · intro h
        have hzero : l.countP p = 0 := by
          apply List.countP_eq_zero.mpr
          intro y hy
          obtain ⟨j, hj⟩ := List.mem_iff_getElem?.mp hy
          simp [h (j + 1) (Nat.succ_ne_zero j) y (by rw [List.getElem?_cons_succ, hj])]
        rw [hzero]
    | succ i =>
      rw [List.getElem?_cons_succ] at hi
      have hpos : 0 < l.countP p := List.countP_pos_iff.mpr ⟨x, List.mem_of_getElem? hi, hx⟩
      by_cases ha : p a = true
      · rw [List.countP_cons_of_pos ha]
        constructor
        · intro hone
          omega
        · intro h
          have hfalse := h 0 (Nat.succ_ne_zero i).symm a rfl
          rw [ha] at hfalse
          contradiction
      · rw [List.countP_cons_of_neg ha, ih hi]
        constructor
        · intro h j hj y hy
          cases j with
          | zero =>
            have hy' : a = y := by simpa using hy
            subst hy'
            simpa using ha
          | succ j =>
            rw [List.getElem?_cons_succ] at hy
            exact h j (fun heq => hj (heq ▸ rfl)) y hy
        · intro h j hj y hy
          exact h (j + 1) (by omega) y (by rw [List.getElem?_cons_succ, hy])

/-- An object has a count of one exactly when there is no second reference to it. -/
theorem Holds.getReferenceCount_eq_one_iff (h : m.Holds slots objects) (hi : slots[i]? = some (refersTo o)) :
    ∃ r, m.counterAt o = some r ∧ (r.getReferenceCount = 1 ↔ Sole slots i o) := by
  obtain ⟨r, hr⟩ := h.counted.consistent.held (h.handle hi) rfl
  refine ⟨r, hr.counter, ?_⟩
  have hcount : r.getReferenceCount = 1 ↔ r.strong = 1 := by
    have hinjective : r.getReferenceCount = 1 ↔ r.refcount.count = 1 := by
      constructor
      · intro hone
        have hback := congrArg Int32.toUInt32 hone
        exact hback
      · intro hone
        rw [RefCount.getReferenceCount, ReferenceCounter.get, hone]
        rfl
    rw [hinjective, RefCount.strong, ← UInt32.toNat_inj]
    rfl
  have hholders : r.strong = slots.countP (holdsCounter o) := by rw [hr.strong, holders, h.handles]
  rw [hcount, hholders, countP_eq_one_iff hi (by simp [holdsCounter_refersTo])]
  apply forall_congr'
  intro j
  apply imp_congr_right
  intro _
  rw [Ne, ← h.holdsCounter_iff j]
  simp

end Lumos.Core.Memory
