import Lumos.Core.Reference

/-!
# Counting references

As long as no reference loses count of itself, every counter belongs to the object of its
own index, counts the references that point to it, and goes together with the object
when the last of them does.
-/
namespace Lumos.Core

namespace Memory

/-- The slot of a variable that points to counter `k`. -/
def holdsCounter (k : Nat) (slot : Option Handle) : Bool := decide (slot.bind Handle.counter = some k)

/-- The number of references that hold counter `k`. -/
def holders (m : Memory) (k : Nat) : Nat := m.handles.countP (holdsCounter k)

def withSlot (m : Memory) (i : Nat) (slot : Option Handle) : Memory :=
  { m with handles := m.handles.set i slot }

variable {m : Memory} {i j k : Nat}

theorem lt_of_handle {h : Handle} (hi : m.handle i = some h) : i < m.handles.length := by
  have hslot := Option.join_eq_some_iff.mp hi
  exact (List.getElem?_eq_some_iff.mp hslot).1

@[simp] theorem setHandle_eq (m : Memory) (i : Nat) (h : Handle) :
    m.setHandle i h = m.withSlot i (some h) := rfl

@[simp] theorem counterAt_withSlot (m : Memory) (i : Nat) (slot : Option Handle) (c : Nat) :
    (m.withSlot i slot).counterAt c = m.counterAt c := rfl

@[simp] theorem holders_setCounter (m : Memory) (c : Nat) (r : RefCount) (k : Nat) :
    (m.setCounter c r).holders k = m.holders k := rfl

theorem handle_withSlot_self {slot : Option Handle} (h : i < m.handles.length) :
    (m.withSlot i slot).handle i = slot := by
  simp [handle, withSlot, h]

theorem handle_withSlot_other {slot : Option Handle} (h : i ≠ j) :
    (m.withSlot i slot).handle j = m.handle j := by
  simp [handle, withSlot, h]

theorem counterAt_setCounter_self {r : RefCount} (hr : m.counterAt k = some r) (r' : RefCount) :
    (m.setCounter k r').counterAt k = some r' := by
  have hslot := Option.join_eq_some_iff.mp hr
  have hlt := (List.getElem?_eq_some_iff.mp hslot).1
  simp [counterAt, setCounter, hlt]

theorem counterAt_setCounter_other {r : RefCount} {c : Nat} (h : c ≠ k) :
    (m.setCounter c r).counterAt k = m.counterAt k := by
  simp [counterAt, setCounter, h]

/-- A slot that is written takes its share of the holders with it and brings its own. -/
theorem holders_withSlot {h : Handle} (hi : m.handle i = some h) (slot : Option Handle) (k : Nat) :
    (m.withSlot i slot).holders k + (if h.counter = some k then 1 else 0) =
      m.holders k + (if slot.bind Handle.counter = some k then 1 else 0) := by
  have hlt := lt_of_handle hi
  have hslot : m.handles[i] = some h := by
    have hjoin := Option.join_eq_some_iff.mp hi
    exact (List.getElem?_eq_some_iff.mp hjoin).2
  have hcount := List.countP_set (p := holdsCounter k) (a := slot) hlt
  have hpos : (if h.counter = some k then 1 else 0) ≤ m.holders k := by
    split
    · rename_i hk
      apply List.countP_pos_iff.mpr
      exact ⟨some h, hslot ▸ List.getElem_mem hlt, by simp [holdsCounter, hk]⟩
    · exact Nat.zero_le _
  simp only [holdsCounter, hslot, Option.bind_some, decide_eq_true_eq] at hcount
  change (m.handles.set i slot).countP (holdsCounter k) + _ = _
  simp only [holders] at hpos ⊢
  rw [hcount]
  omega

theorem holders_pos {h : Handle} (hi : m.handle i = some h) (hk : h.counter = some k) :
    0 < m.holders k := by
  have hcount := holders_withSlot hi none k
  simp only [hk, if_true, Option.bind_none, reduceCtorEq, if_false] at hcount
  omega

/-- Counter and object `k` are in use, and the counter is right. -/
structure Held (m : Memory) (outside : List Nat) (k : Nat) (r : RefCount) : Prop where
  counter : m.counterAt k = some r
  object : m.objects[k]? = some .alive
  strong : r.strong = m.holders k
  weak : r.weak = 0
  inside : k ∉ outside

/-- Counter `k` is deleted, and so is the object unless it is in the hands of others. -/
structure Gone (m : Memory) (outside : List Nat) (k : Nat) : Prop where
  counter : m.counterAt k = none
  object : m.objects[k]? = some .alive → k ∈ outside
  unheld : m.holders k = 0

/-- The counter is in use and right, or deleted. -/
def Entry (m : Memory) (outside : List Nat) (k : Nat) : Prop :=
  (0 < m.holders k ∧ ∃ r, m.Held outside k r) ∨ m.Gone outside k

/-- The references are in order, where `outside` are objects in the hands of others. -/
structure Consistent (m : Memory) (outside : List Nat) : Prop where
  paired : ∀ i h, m.handle i = some h → h.counter = h.ptr
  entries : ∀ k, m.Entry outside k
  known : ∀ o ∈ outside, o < m.objects.length

variable {outside : List Nat}

theorem Consistent.held (h : m.Consistent outside) {this : Handle} (hi : m.handle i = some this)
    (hk : this.counter = some k) : ∃ r, m.Held outside k r := by
  cases h.entries k with
  | inl hheld => exact hheld.2
  | inr hgone => exact absurd hgone.unheld (Nat.pos_iff_ne_zero.mp (holders_pos hi hk))

theorem Held.unreference_last {this : Handle} {r : RefCount} (hr : m.Held outside k r)
    (hi : m.handle i = some this) (hk : this.counter = some k) : r.unreference.1 = decide (m.holders k = 1) := by
  have hpos : 0 < r.strong := hr.strong ▸ holders_pos hi hk
  rw [RefCount.unreference_last hpos, hr.strong]

theorem Held.strong_unreference {this : Handle} {r : RefCount} (hr : m.Held outside k r)
    (hi : m.handle i = some this) (hk : this.counter = some k) : r.unreference.2.strong = m.holders k - 1 := by
  have hpos : 0 < r.strong := hr.strong ▸ holders_pos hi hk
  rw [RefCount.strong_unreference hpos, hr.strong]

theorem Held.strong_reference {this : Handle} {r : RefCount} (hr : m.Held outside k r)
    (hi : m.handle i = some this) (hk : this.counter = some k) : r.reference.2.strong = (m.holders k + 1) % 2 ^ 32 := by
  have hpos : 0 < r.strong := hr.strong ▸ holders_pos hi hk
  rw [RefCount.strong_reference hpos, hr.strong]

theorem counter_ne {this : Handle} {c : Nat} (hk : this.counter = some k) (hck : c ≠ k) :
    this.counter ≠ some c := by
  intro hc
  exact hck (Option.some.inj (hc.symm.trans hk))

theorem Entry.congr {m' : Memory} {outside' : List Nat} (h : m.Entry outside k)
    (hcounter : m'.counterAt k = m.counterAt k) (hobject : m'.objects[k]? = m.objects[k]?)
    (hholders : m'.holders k = m.holders k) (houtside : k ∈ outside' ↔ k ∈ outside) :
    m'.Entry outside' k := by
  cases h with
  | inl hheld =>
    obtain ⟨hpos, r, hr⟩ := hheld
    refine .inl ⟨hholders ▸ hpos, r, hcounter.trans hr.counter, hobject.trans hr.object, ?_, hr.weak, ?_⟩
    · exact hr.strong.trans hholders.symm
    · exact fun hin => hr.inside (houtside.mp hin)
  | inr hgone =>
    refine .inr ⟨hcounter.trans hgone.counter, ?_, hholders.trans hgone.unheld⟩
    intro halive
    exact houtside.mpr (hgone.object (hobject ▸ halive))

/-- A slot without a counter. -/
def Vacant (slot : Option Handle) : Prop := slot = none ∨ slot = some .null

theorem Vacant.counter {slot : Option Handle} (h : Vacant slot) : slot.bind Handle.counter = none := by
  cases h with
  | inl h => rw [h]; rfl
  | inr h => rw [h]; rfl

theorem paired_withSlot (h : ∀ j h, m.handle j = some h → h.counter = h.ptr) {slot : Option Handle}
    (hi : i < m.handles.length) (hslot : ∀ h, slot = some h → h.counter = h.ptr) :
    ∀ j h, (m.withSlot i slot).handle j = some h → h.counter = h.ptr := by
  intro j x hx
  by_cases hij : i = j
  · subst hij
    rw [handle_withSlot_self hi] at hx
    exact hslot x hx
  · rw [handle_withSlot_other hij] at hx
    exact h j x hx

theorem Vacant.paired {slot : Option Handle} (h : Vacant slot) :
    ∀ x, slot = some x → x.counter = x.ptr := by
  intro x hx
  cases h with
  | inl h => cases h.symm.trans hx
  | inr h =>
    cases h.symm.trans hx
    rfl

/-- Nothing has been allocated or released. -/
structure SameHeap (m m' : Memory) : Prop where
  counters : m'.counters.length = m.counters.length
  objects : m'.objects.length = m.objects.length
  released : m'.released = m.released

/-- Once the variable gives up its slot, everything is in order again. -/
structure LetsGo (m m' : Memory) (outside : List Nat) (i : Nat) : Prop where
  consistent : ∀ slot, Vacant slot → (m'.withSlot i slot).Consistent outside
  handles : ∀ slot, (m'.withSlot i slot).handles = (m.withSlot i slot).handles
  heap : SameHeap m m'
  others : ∀ o ∈ outside, m'.objects[o]? = m.objects[o]?

/-- A reference that is not the last one of its object only takes itself out of the count. -/
theorem unref_shared {this : Handle} (hi : m.handle i = some this) (hk : this.counter = some k)
    {r : RefCount} (hr : m.Held outside k r) (hshared : m.holders k ≠ 1) :
    m.unref i = some (m.setCounter k r.unreference.2) := by
  have hdie : r.unreference.1 = false := (hr.unreference_last hi hk).trans (decide_eq_false hshared)
  simp only [unref, hi, hk, hr.counter, Option.bind_eq_bind, Option.bind_some, hdie]
  rfl

/-- The last reference of an object takes the object and the counter with it. -/
theorem unref_last {this : Handle} (hi : m.handle i = some this) (hk : this.counter = some k)
    (hptr : this.ptr = some k) {r : RefCount} (hr : m.Held outside k r) (hlast : m.holders k = 1) :
    m.unref i = some { m with
      handles := m.handles.set i (some .null)
      counters := m.counters.set k none
      objects := m.objects.set k .destroyed } := by
  have hdie : r.unreference.1 = true := (hr.unreference_last hi hk).trans (decide_eq_true hlast)
  have hweak : r.unreference.2.getWeakReferenceCount = 0 := RefCount.getWeakReferenceCount_eq_zero hr.weak
  have hdelete : (m.setCounter k r.unreference.2).deletePtr (some k) =
      some { m.setCounter k r.unreference.2 with objects := m.objects.set k .destroyed } :=
    if_pos hr.object
  have hcounter : ({ m.setCounter k r.unreference.2 with
      objects := m.objects.set k .destroyed } : Memory).counterAt k = some r.unreference.2 :=
    counterAt_setCounter_self hr.counter _
  simp only [unref, hi, hk, hptr, hr.counter, Option.bind_eq_bind, Option.bind_some, hdie, if_true,
    hdelete, hweak, deleteCounter, hcounter]
  simp [setHandle, setCounter]

theorem unref_none {this : Handle} (hi : m.handle i = some this) (hk : this.counter = none) :
    m.unref i = some m := by
  simp [unref, hi, hk]

/-- What a variable holds loses a holder with it. -/
theorem holders_vacate {this : Handle} (hi : m.handle i = some this) (hk : this.counter = some k)
    {slot : Option Handle} (hslot : Vacant slot) :
    (m.withSlot i slot).holders k + 1 = m.holders k := by
  have hcount := holders_withSlot hi slot k
  simpa [hk, hslot.counter] using hcount

theorem holders_vacate_other {this : Handle} (hi : m.handle i = some this) (hk : this.counter ≠ some k)
    {slot : Option Handle} (hslot : Vacant slot) : (m.withSlot i slot).holders k = m.holders k := by
  have hcount := holders_withSlot hi slot k
  simpa [hk, hslot.counter] using hcount

theorem letsGo_none (h : m.Consistent outside) {this : Handle} (hi : m.handle i = some this)
    (hk : this.counter = none) : LetsGo m m outside i := by
  refine ⟨?_, fun _ => rfl, ⟨rfl, rfl, rfl⟩, fun _ _ => rfl⟩
  intro slot hslot
  refine ⟨paired_withSlot h.paired (lt_of_handle hi) hslot.paired, fun k => ?_, h.known⟩
  have hholders := holders_vacate_other (k := k) hi (by simp [hk]) hslot
  exact (h.entries k).congr rfl rfl hholders Iff.rfl

theorem letsGo_shared (h : m.Consistent outside) {this : Handle} (hi : m.handle i = some this)
    (hk : this.counter = some k) {r : RefCount} (hr : m.Held outside k r) (hshared : m.holders k ≠ 1) :
    LetsGo m (m.setCounter k r.unreference.2) outside i := by
  have hpos : 0 < m.holders k := holders_pos hi hk
  refine ⟨?_, fun _ => rfl, ⟨by simp [setCounter], rfl, rfl⟩, fun _ _ => rfl⟩
  intro slot hslot
  refine ⟨paired_withSlot h.paired (lt_of_handle hi) hslot.paired, fun c => ?_, h.known⟩
  by_cases hck : c = k
  · subst hck
    have hless := holders_vacate hi hk hslot
    have hcount := hr.strong_unreference hi hk
    have hsame : ((m.setCounter c r.unreference.2).withSlot i slot).holders c =
        (m.withSlot i slot).holders c := rfl
    refine .inl ⟨by omega, r.unreference.2, ?_, hr.object, by omega, hr.weak, hr.inside⟩
    exact counterAt_setCounter_self hr.counter _
  · have hne := counter_ne hk hck
    refine (h.entries c).congr ?_ rfl (holders_vacate_other hi hne hslot) Iff.rfl
    exact counterAt_setCounter_other (Ne.symm hck)

theorem letsGo_last (h : m.Consistent outside) {this : Handle} (hi : m.handle i = some this)
    (hk : this.counter = some k) {r : RefCount} (hr : m.Held outside k r) (hlast : m.holders k = 1) :
    LetsGo m { m with
      handles := m.handles.set i (some .null)
      counters := m.counters.set k none
      objects := m.objects.set k .destroyed } outside i := by
  have hothers : ∀ o ∈ outside, (m.objects.set k .destroyed)[o]? = m.objects[o]? := by
    intro o ho
    have hne : k ≠ o := fun heq => hr.inside (heq ▸ ho)
    simp [hne]
  refine ⟨?_, by simp [withSlot], ⟨by simp, by simp, rfl⟩, hothers⟩
  intro slot hslot
  have hholders : ∀ c, (({ m with
      handles := m.handles.set i (some .null)
      counters := m.counters.set k none
      objects := m.objects.set k .destroyed } : Memory).withSlot i slot).holders c =
        (m.withSlot i slot).holders c := by
    intro c
    simp [holders, withSlot]
  refine ⟨?_, fun c => ?_, ?_⟩
  · intro j x hx
    have hx' : (m.withSlot i slot).handle j = some x := by
      rw [← hx]
      simp [handle, withSlot]
    exact paired_withSlot h.paired (lt_of_handle hi) hslot.paired j x hx'
  · by_cases hck : c = k
    · subst hck
      refine .inr ⟨?_, ?_, ?_⟩
      · simp only [counterAt, withSlot, List.getElem?_set]
        simp only [if_true]
        split <;> rfl
      · intro hobject
        simp [withSlot, List.getElem?_set] at hobject
      · have hless := holders_vacate hi hk hslot
        rw [hholders]
        omega
    · have hne := counter_ne hk hck
      refine (h.entries c).congr ?_ ?_ ((hholders c).trans (holders_vacate_other hi hne hslot)) Iff.rfl
      · simp [counterAt, withSlot, Ne.symm hck]
      · simp [withSlot, Ne.symm hck]
  · simpa [withSlot] using h.known

theorem unref_spec (h : m.Consistent outside) {this : Handle} (hi : m.handle i = some this) :
    ∃ m', m.unref i = some m' ∧ LetsGo m m' outside i := by
  cases hk : this.counter with
  | none => exact ⟨m, unref_none hi hk, letsGo_none h hi hk⟩
  | some k =>
    have hptr : this.ptr = some k := (h.paired i this hi).symm.trans hk
    obtain ⟨r, hr⟩ := h.held hi hk
    by_cases hlast : m.holders k = 1
    · exact ⟨_, unref_last hi hk hptr hr hlast, letsGo_last h hi hk hr hlast⟩
    · exact ⟨_, unref_shared hi hk hr hlast, letsGo_shared h hi hk hr hlast⟩

end Memory

end Lumos.Core
