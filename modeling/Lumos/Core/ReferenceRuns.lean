import Lumos.Core.ReferenceCounts

/-!
# Programs over references

A reference that is assigned a converted null reference drops its count but keeps its
pointer, and so does one that releases an object it shares. Programs that do neither
keep all counts right.
-/
namespace Lumos.Core

namespace Memory

variable {m m' : Memory} {outside : List Nat} {i j k : Nat}

/-- What is expected of the references: counters count their holders, and exactly the
objects without a reference are destroyed, apart from those handed out by `release`. -/
structure Sound (m : Memory) : Prop where
  counts : ∀ c r, m.counterAt c = some r → r.strong = m.holders c
  counters : ∀ c, 0 < m.holders c → (m.counterAt c).isSome = true
  destroyed : ∀ o, o < m.objects.length → o ∉ m.released →
    (m.objects[o]? = some .destroyed ↔ ∀ i h, m.handle i = some h → h.ptr ≠ some o)
  alive : ∀ i h o, m.handle i = some h → h.ptr = some o → m.objects[o]? = some .alive

/-- The invariant of the programs that keep count. -/
structure Counted (m : Memory) : Prop where
  consistent : m.Consistent m.released
  lengths : m.counters.length = m.objects.length

theorem exists_holder (h : 0 < m.holders k) : ∃ i x, m.handle i = some x ∧ x.counter = some k := by
  obtain ⟨slot, hslot, hholds⟩ := List.countP_pos_iff.mp h
  obtain ⟨i, hi⟩ := List.mem_iff_getElem?.mp hslot
  have hcounter : slot.bind Handle.counter = some k := of_decide_eq_true hholds
  obtain ⟨x, rfl, hx⟩ := Option.bind_eq_some_iff.mp hcounter
  exact ⟨i, x, by simp [handle, hi], hx⟩

theorem Counted.sound (h : m.Counted) : m.Sound := by
  have hc := h.consistent
  constructor
  · intro c r hr
    cases hc.entries c with
    | inl hheld =>
      obtain ⟨_, r', hr'⟩ := hheld
      cases hr.symm.trans hr'.counter
      exact hr'.strong
    | inr hgone => cases hr.symm.trans hgone.counter
  · intro c hpos
    cases hc.entries c with
    | inl hheld =>
      obtain ⟨_, r, hr⟩ := hheld
      rw [hr.counter]
      rfl
    | inr hgone => exact absurd hgone.unheld (Nat.pos_iff_ne_zero.mp hpos)
  · intro o ho hreleased
    cases hc.entries o with
    | inl hheld =>
      obtain ⟨hpos, r, hr⟩ := hheld
      obtain ⟨i, x, hx, hcounter⟩ := exists_holder hpos
      have hptr : x.ptr = some o := (hc.paired i x hx).symm.trans hcounter
      constructor
      · intro hdestroyed
        cases hdestroyed.symm.trans hr.object
      · intro hnone
        exact absurd hptr (hnone i x hx)
    | inr hgone =>
      constructor
      · intro _ i x hx hptr
        have hcounter : x.counter = some o := (hc.paired i x hx).trans hptr
        exact absurd hgone.unheld (Nat.pos_iff_ne_zero.mp (holders_pos hx hcounter))
      · intro _
        have hobject := List.getElem?_eq_getElem ho
        cases hstate : m.objects[o] with
        | alive => exact absurd (hgone.object (hobject.trans (congrArg some hstate))) hreleased
        | destroyed => exact hobject.trans (congrArg some hstate)
  · intro i x o hx hptr
    have hcounter : x.counter = some o := (hc.paired i x hx).trans hptr
    obtain ⟨r, hr⟩ := hc.held hx hcounter
    exact hr.object

theorem SameHeap.trans {m'' : Memory} (h : SameHeap m m') (h' : SameHeap m' m'') : SameHeap m m'' :=
  ⟨h'.counters.trans h.counters, h'.objects.trans h.objects, h'.released.trans h.released⟩

theorem Counted.of_sameHeap (h : m.Counted) (hheap : SameHeap m m') (hc : m'.Consistent m.released) :
    m'.Counted := by
  refine ⟨hheap.released ▸ hc, ?_⟩
  rw [hheap.counters, hheap.objects]
  exact h.lengths

/-! ## Sharing -/

/-- There is room in the counter for one more reference. -/
def Room (m : Memory) (other : Handle) : Prop := ∀ k, other.counter = some k → m.holders k + 1 < 2 ^ 32

theorem share_none {other : Handle} (hj : m.handle j = some other) (hk : other.counter = none) :
    m.share i j = some m := by
  simp [share, hj, hk]

theorem share_some {o : Nat} (hj : m.handle j = some ⟨some o, some k⟩) {r : RefCount}
    (hr : m.counterAt k = some r) :
    m.share i j = some ((m.setCounter k r.reference.2).withSlot i (some ⟨some o, some k⟩)) := by
  simp [share, hj, hr]

theorem holders_share {this : Handle} (hi : m.handle i = some this) (hvacant : this.counter = none)
    (k c : Nat) : (m.withSlot i (some ⟨some k, some k⟩)).holders c =
      m.holders c + if c = k then 1 else 0 := by
  have hcount := holders_withSlot hi (some ⟨some k, some k⟩) c
  simpa [hvacant, eq_comm] using hcount

theorem handle_eq_of_paired (h : m.Consistent outside) {other : Handle} (hj : m.handle j = some other)
    (hk : other.counter = some k) : other = ⟨some k, some k⟩ := by
  have hptr : other.ptr = some k := (h.paired j other hj).symm.trans hk
  cases other
  cases hk
  cases hptr
  rfl

theorem share_spec (h : m.Consistent outside) {this other : Handle} (hi : m.handle i = some this)
    (hvacant : this.counter = none) (hj : m.handle j = some other) (hroom : m.Room other) :
    ∃ m', m.share i j = some m' ∧ m'.Consistent outside ∧ SameHeap m m' := by
  cases hk : other.counter with
  | none => exact ⟨m, share_none hj hk, h, rfl, rfl, rfl⟩
  | some k =>
    obtain ⟨r, hr⟩ := h.held hj hk
    have hpos : 0 < m.holders k := holders_pos hj hk
    have hother := handle_eq_of_paired h hj hk
    refine ⟨_, share_some (hother ▸ hj) hr.counter, ?_, by simp [setCounter, withSlot], rfl, rfl⟩
    have hholders : ∀ c, ((m.setCounter k r.reference.2).withSlot i (some ⟨some k, some k⟩)).holders c =
        m.holders c + if c = k then 1 else 0 := holders_share hi hvacant k
    refine ⟨?_, fun c => ?_, h.known⟩
    · apply paired_withSlot h.paired (lt_of_handle hi)
      intro x hx
      cases hx
      rfl
    · by_cases hck : c = k
      · subst hck
        have hcount := hholders c
        rw [if_pos rfl] at hcount
        have hroom' := hroom c hk
        have hstrong : r.reference.2.strong = m.holders c + 1 := by
          rw [hr.strong_reference hj hk, Nat.mod_eq_of_lt hroom']
        refine .inl ⟨by omega, r.reference.2, ?_, hr.object, hstrong.trans hcount.symm, hr.weak, hr.inside⟩
        exact counterAt_setCounter_self hr.counter _
      · have hcount := hholders c
        rw [if_neg hck, Nat.add_zero] at hcount
        exact (h.entries c).congr (counterAt_setCounter_other (Ne.symm hck)) rfl hcount Iff.rfl

theorem ptr_ne_none_of_full (h : m.Consistent outside) {other : Handle} (hj : m.handle j = some other)
    (hfull : ¬ m.Room other) : other.ptr ≠ none := by
  intro hnone
  have hcounter : other.counter = none := (h.paired j other hj).trans hnone
  exact hfull fun k hk => by cases hcounter.symm.trans hk

/-- One reference more than the counter has room for makes it start from zero. -/
theorem share_full (h : m.Consistent outside) {this other : Handle} (hi : m.handle i = some this)
    (hvacant : this.counter = none) (hj : m.handle j = some other) (hfull : ¬ m.Room other)
    (hshare : m.share i j = some m') : ¬ m'.Sound := by
  simp only [Room, not_forall, Nat.not_lt] at hfull
  obtain ⟨k, hk, hfull⟩ := hfull
  obtain ⟨r, hr⟩ := h.held hj hk
  have hother := handle_eq_of_paired h hj hk
  rw [share_some (hother ▸ hj) hr.counter] at hshare
  cases hshare
  intro hsound
  have hlt := r.strong_lt
  have hcounter : ((m.setCounter k r.reference.2).withSlot i (some ⟨some k, some k⟩)).counterAt k =
      some r.reference.2 := counterAt_setCounter_self hr.counter _
  have hcount := hsound.counts k _ hcounter
  have hholders : ((m.setCounter k r.reference.2).withSlot i (some ⟨some k, some k⟩)).holders k =
      m.holders k + 1 := (holders_share hi hvacant k k).trans (by rw [if_pos rfl])
  have hstrong := hr.strong_reference hj hk
  rw [hstrong, hholders] at hcount
  have hzero : (m.holders k + 1) % 2 ^ 32 < 2 ^ 32 := Nat.mod_lt _ (by decide)
  omega

/-- What a variable that is about to be overwritten holds does not matter. -/
theorem share_withSlot (hij : i ≠ j) {other : Handle} (hj : m.handle j = some other)
    (hk : other.counter = some k) {o : Nat} (hptr : other.ptr = some o) (slot : Option Handle) :
    (m.withSlot i slot).share i j = m.share i j := by
  have hj' : (m.withSlot i slot).handle j = some other := (handle_withSlot_other hij).trans hj
  simp only [share, hj, hj', hk, hptr, counterAt_withSlot, Option.bind_eq_bind, Option.bind_some]
  cases m.counterAt k with
  | none => rfl
  | some r => simp [setCounter, withSlot]

/-! ## Letting go -/

section LetsGo

variable {this : Handle} (hl : LetsGo m m' outside i) (hi : m.handle i = some this)

include hl in
theorem LetsGo.holders_eq (slot : Option Handle) (k : Nat) :
    (m'.withSlot i slot).holders k = (m.withSlot i slot).holders k := by
  rw [holders, hl.handles, holders]

include hl in
theorem LetsGo.handle_eq (slot : Option Handle) (j : Nat) :
    (m'.withSlot i slot).handle j = (m.withSlot i slot).handle j := by
  rw [handle, hl.handles, handle]

include hl hi in
theorem LetsGo.handle_self (slot : Option Handle) : (m'.withSlot i slot).handle i = slot :=
  (hl.handle_eq slot i).trans (handle_withSlot_self (lt_of_handle hi))

include hl in
theorem LetsGo.handle_other (hij : i ≠ j) (slot : Option Handle) :
    (m'.withSlot i slot).handle j = m.handle j :=
  (hl.handle_eq slot j).trans (handle_withSlot_other hij)

include hl in
theorem LetsGo.sameHeap (slot : Option Handle) : SameHeap m (m'.withSlot i slot) :=
  ⟨hl.heap.counters, hl.heap.objects, hl.heap.released⟩

include hl hi in
theorem LetsGo.room {other : Handle} {slot : Option Handle} (hslot : Vacant slot) (h : m.Room other) :
    (m'.withSlot i slot).Room other := by
  intro k hk
  have hroom := h k hk
  have hcount := holders_withSlot hi slot k
  rw [hslot.counter] at hcount
  rw [hl.holders_eq]
  simp only [reduceCtorEq, if_false] at hcount
  omega

include hl hi in
theorem LetsGo.room_iff {other : Handle} {slot : Option Handle} (hslot : Vacant slot)
    (hne : other.counter ≠ this.counter) : (m'.withSlot i slot).Room other ↔ m.Room other := by
  refine forall_congr' fun k => forall_congr' fun hk => ?_
  have hthis : this.counter ≠ some k := fun heq => hne (hk.trans heq.symm)
  rw [hl.holders_eq, holders_vacate_other hi hthis hslot]

theorem vacant_null : Vacant (some Handle.null) := .inr rfl

theorem vacant_dead : Vacant none := .inl rfl

section Share

variable {other : Handle} (hj : m.handle j = some other) (hij : i ≠ j)

include hl hi hj hij

theorem LetsGo.share_spec (hroom : (m'.withSlot i (some .null)).Room other) :
    ∃ m'', (m'.withSlot i (some .null)).share i j = some m'' ∧ m''.Consistent outside ∧ SameHeap m m'' := by
  have hj' := (hl.handle_other hij (some .null)).trans hj
  obtain ⟨m'', hshare, hc, hheap⟩ :=
    Memory.share_spec (hl.consistent _ vacant_null) (hl.handle_self hi _) rfl hj' hroom
  exact ⟨m'', hshare, hc, (hl.sameHeap _).trans hheap⟩

theorem LetsGo.share_full {m'' : Memory} (h : m.Consistent outside) (hptr : other.ptr ≠ this.ptr)
    (hfull : ¬ m.Room other) (hshare : (m'.withSlot i (some .null)).share i j = some m'') : ¬ m''.Sound := by
  have hj' := (hl.handle_other hij (some .null)).trans hj
  have hne : other.counter ≠ this.counter := by
    rw [h.paired i this hi, h.paired j other hj]
    exact hptr
  have hfull' : ¬ (m'.withSlot i (some .null)).Room other := fun hroom =>
    hfull ((hl.room_iff hi vacant_null hne).mp hroom)
  exact Memory.share_full (hl.consistent _ vacant_null) (hl.handle_self hi _) rfl hj' hfull' hshare

end Share

end LetsGo

theorem ref_same {this other : Handle} (hi : m.handle i = some this) (hj : m.handle j = some other)
    (hptr : other.ptr = this.ptr) : m.ref i j = some m := by
  simp [ref, hi, hj, hptr]

theorem ref_other {this other : Handle} (hi : m.handle i = some this) (hj : m.handle j = some other)
    (hptr : other.ptr ≠ this.ptr) (hunref : m.unref i = some m') :
    m.ref i j = (m'.withSlot i (some .null)).share i j := by
  simp [ref, hi, hj, hptr, hunref]

theorem ne_of_ptr_ne {this other : Handle} (hi : m.handle i = some this) (hj : m.handle j = some other)
    (hptr : other.ptr ≠ this.ptr) : i ≠ j := by
  intro hij
  subst hij
  cases hi.symm.trans hj
  exact hptr rfl

theorem ref_spec (h : m.Consistent outside) {this other : Handle} (hi : m.handle i = some this)
    (hj : m.handle j = some other) (hroom : other.ptr ≠ this.ptr → m.Room other) :
    ∃ m', m.ref i j = some m' ∧ m'.Consistent outside ∧ SameHeap m m' := by
  by_cases hptr : other.ptr = this.ptr
  · exact ⟨m, ref_same hi hj hptr, h, rfl, rfl, rfl⟩
  · obtain ⟨m₁, hunref, hl⟩ := unref_spec h hi
    obtain ⟨m₂, hshare, hc, hheap⟩ := hl.share_spec hi hj (ne_of_ptr_ne hi hj hptr)
      (hl.room hi vacant_null (hroom hptr))
    exact ⟨m₂, (ref_other hi hj hptr hunref).trans hshare, hc, hheap⟩

theorem ref_full (h : m.Consistent outside) {this other : Handle} (hi : m.handle i = some this)
    (hj : m.handle j = some other) (hptr : other.ptr ≠ this.ptr) (hfull : ¬ m.Room other)
    (href : m.ref i j = some m') : ¬ m'.Sound := by
  obtain ⟨m₁, hunref, hl⟩ := unref_spec h hi
  rw [ref_other hi hj hptr hunref] at href
  exact hl.share_full hi hj (ne_of_ptr_ne hi hj hptr) h hptr hfull href

/-! ## The other operations -/

theorem handle_newHandle_new (m : Memory) (x : Handle) :
    (m.newHandle x).2.handle m.handles.length = some x := by
  simp [handle, newHandle]

theorem handle_newHandle_old {x this : Handle} (hi : m.handle i = some this) :
    (m.newHandle x).2.handle i = some this := by
  have hlt := lt_of_handle hi
  rw [← hi]
  simp [handle, newHandle, List.getElem?_append_left hlt]

theorem holders_newHandle_null (m : Memory) (k : Nat) : (m.newHandle .null).2.holders k = m.holders k := by
  simp [holders, newHandle, List.countP_append, holdsCounter, Handle.null]

theorem newHandle_spec (h : m.Consistent outside) : (m.newHandle .null).2.Consistent outside := by
  refine ⟨?_, fun k => (h.entries k).congr rfl rfl (holders_newHandle_null m k) Iff.rfl, h.known⟩
  intro i x hx
  by_cases hlt : i < m.handles.length
  · apply h.paired i x
    rw [← hx]
    simp [handle, newHandle, List.getElem?_append_left hlt]
  · by_cases hi : i = m.handles.length
    · subst hi
      rw [handle_newHandle_new] at hx
      cases hx
      rfl
    · have hnone : (m.newHandle .null).2.handle i = none := by
        have hbehind : (m.handles ++ [some Handle.null]).length ≤ i := by
          rw [List.length_append, List.length_singleton]
          omega
        simp [handle, newHandle, List.getElem?_eq_none hbehind]
      cases hnone.symm.trans hx

theorem room_newHandle {other : Handle} : (m.newHandle .null).2.Room other ↔ m.Room other := by
  simp only [Room, holders_newHandle_null]

theorem convert_eq {other : Handle} (hj : m.handle j = some other) :
    m.convert j = if other.ptr = none then some (m.newHandle .null).2
      else (m.newHandle .null).2.share m.handles.length j := by
  have hnew := handle_newHandle_new m .null
  have hold := handle_newHandle_old (x := .null) hj
  have hindex : (m.newHandle .null).1 = m.handles.length := rfl
  have hunref := unref_none hnew rfl
  simp only [convert, hindex, hold, hunref, hnew, Option.bind_eq_bind, Option.bind_some]
  by_cases hptr : other.ptr = none
  · simp [hptr]
  · simp [hptr, Handle.null]

theorem convert_spec (h : m.Consistent outside) {other : Handle} (hj : m.handle j = some other)
    (hroom : m.Room other) : ∃ m', m.convert j = some m' ∧ m'.Consistent outside ∧ SameHeap m m' := by
  rw [convert_eq hj]
  split
  · exact ⟨_, rfl, newHandle_spec h, rfl, rfl, rfl⟩
  · obtain ⟨m₁, hshare, hc, hheap⟩ := share_spec (newHandle_spec h) (handle_newHandle_new m .null) rfl
      (handle_newHandle_old hj) (room_newHandle.mpr hroom)
    exact ⟨m₁, hshare, hc, hheap.counters, hheap.objects, hheap.released⟩

theorem convert_full (h : m.Consistent outside) {other : Handle} (hj : m.handle j = some other)
    (hfull : ¬ m.Room other) (hconvert : m.convert j = some m') : ¬ m'.Sound := by
  rw [convert_eq hj, if_neg (ptr_ne_none_of_full h hj hfull)] at hconvert
  exact share_full (newHandle_spec h) (handle_newHandle_new m .null) rfl (handle_newHandle_old hj)
    (fun hroom => hfull (room_newHandle.mp hroom)) hconvert

/-- The variable does not share what it holds. -/
def Alone (m : Memory) (this : Handle) : Prop := ∀ k, this.counter = some k → m.holders k = 1

/-- A variable that is alone is null after `unref`. -/
theorem unref_alone (h : m.Consistent outside) {this : Handle} (hi : m.handle i = some this)
    (halone : m.Alone this) (hunref : m.unref i = some m') : m'.withSlot i (some .null) = m' := by
  cases hk : this.counter with
  | none =>
    rw [unref_none hi hk] at hunref
    cases hunref
    have hnull : this = .null := by
      have hptr := (h.paired i this hi).symm.trans hk
      cases this
      cases hk
      cases hptr
      rfl
    have hslot := Option.join_eq_some_iff.mp hi
    rw [hnull] at hslot
    obtain ⟨hlt, hget⟩ := List.getElem?_eq_some_iff.mp hslot
    have hset : m.handles.set i (some .null) = m.handles := by
      rw [← hget]
      exact List.set_getElem_self hlt
    simp only [withSlot, hset]
  | some k =>
    have hptr : this.ptr = some k := (h.paired i this hi).symm.trans hk
    obtain ⟨r, hr⟩ := h.held hi hk
    rw [unref_last hi hk hptr hr (halone k hk)] at hunref
    cases hunref
    simp [withSlot]

theorem convertAssign_null {other : Handle} (hj : m.handle j = some other)
    (hptr : other.ptr = none) : m.convertAssign i j = m.unref i := by
  cases hunref : m.unref i with
  | none => simp [convertAssign, hj, hunref]
  | some m₁ => simp [convertAssign, hj, hptr, hunref]

theorem convertAssign_some (h : m.Consistent outside) {other : Handle}
    (hj : m.handle j = some other) (hij : i ≠ j) (hptr : other.ptr ≠ none)
    (hl : LetsGo m m' outside i) (hunref : m.unref i = some m') :
    m.convertAssign i j = (m'.withSlot i (some .null)).share i j := by
  obtain ⟨k, hk⟩ := Option.ne_none_iff_exists'.mp hptr
  have hcounter : other.counter = some k := (h.paired j other hj).trans hk
  have hj' : m'.handle j = some other := by
    have hsame : (m'.withSlot i none).handle j = m'.handle j := handle_withSlot_other hij
    exact hsame.symm.trans ((hl.handle_other hij none).trans hj)
  rw [share_withSlot hij hj' hcounter hk]
  simp [convertAssign, hj, hptr, hunref]

theorem convertAssign_spec (h : m.Consistent outside) {this other : Handle} (hi : m.handle i = some this)
    (hj : m.handle j = some other) (hij : i ≠ j) (halone : other.ptr = none → m.Alone this)
    (hroom : other.ptr ≠ this.ptr → m.Room other) :
    ∃ m', m.convertAssign i j = some m' ∧ m'.Consistent outside ∧ SameHeap m m' := by
  obtain ⟨m₁, hunref, hl⟩ := unref_spec h hi
  by_cases hptr : other.ptr = none
  · refine ⟨m₁, (convertAssign_null hj hptr).trans hunref, ?_, hl.heap⟩
    rw [← unref_alone h hi (halone hptr) hunref]
    exact hl.consistent _ vacant_null
  · have hroom' : (m₁.withSlot i (some .null)).Room other := by
      by_cases hsame : other.ptr = this.ptr
      · intro k hk
        have hthis : this.counter = some k := by
          rw [h.paired i this hi, ← hsame, ← h.paired j other hj]
          exact hk
        obtain ⟨r, hr⟩ := h.held hi hthis
        have hless := holders_vacate hi hthis vacant_null
        have hlt := r.strong_lt
        rw [hr.strong] at hlt
        rw [hl.holders_eq]
        omega
      · exact hl.room hi vacant_null (hroom hsame)
    obtain ⟨m₂, hshare, hc, hheap⟩ := hl.share_spec hi hj hij hroom'
    exact ⟨m₂, (convertAssign_some h hj hij hptr hl hunref).trans hshare, hc, hheap⟩

/-- Assigned a converted null reference, a variable that shares its object still points to
it but is not counted any more. -/
theorem convertAssign_stale (h : m.Consistent outside) {this other : Handle} (hi : m.handle i = some this)
    (hj : m.handle j = some other) (hptr : other.ptr = none) (hshared : ¬ m.Alone this)
    (hassign : m.convertAssign i j = some m') : ¬ m'.Sound := by
  simp only [Alone, not_forall] at hshared
  obtain ⟨k, hk, hshared⟩ := hshared
  obtain ⟨r, hr⟩ := h.held hi hk
  have hpos : 0 < m.holders k := holders_pos hi hk
  rw [convertAssign_null hj hptr, unref_shared hi hk hr hshared] at hassign
  cases hassign
  intro hsound
  have hcount := hsound.counts k _ (counterAt_setCounter_self hr.counter r.unreference.2)
  rw [hr.strong_unreference hi hk, holders_setCounter] at hcount
  omega

theorem convertAssign_full (h : m.Consistent outside) {this other : Handle} (hi : m.handle i = some this)
    (hj : m.handle j = some other) (hij : i ≠ j) (hptr : other.ptr ≠ this.ptr) (hfull : ¬ m.Room other)
    (hassign : m.convertAssign i j = some m') : ¬ m'.Sound := by
  obtain ⟨m₁, hunref, hl⟩ := unref_spec h hi
  have hsome := ptr_ne_none_of_full h hj hfull
  rw [convertAssign_some h hj hij hsome hl hunref] at hassign
  exact hl.share_full hi hj hij h hptr hfull hassign

theorem reset_none_spec (h : m.Consistent outside) {this : Handle} (hi : m.handle i = some this) :
    ∃ m', m.reset i none = some m' ∧ m'.Consistent outside ∧ SameHeap m m' := by
  obtain ⟨m₁, hunref, hl⟩ := unref_spec h hi
  exact ⟨_, by simp [reset, hunref], hl.consistent _ vacant_null, hl.sameHeap _⟩

theorem destroy_spec (h : m.Consistent outside) {this : Handle} (hi : m.handle i = some this) :
    ∃ m', m.destroy i = some m' ∧ m'.Consistent outside ∧ SameHeap m m' := by
  obtain ⟨m₁, hunref, hl⟩ := unref_spec h hi
  have hcall : m.destroy i = some (m₁.withSlot i none) := by
    simp only [destroy, hunref, Option.bind_eq_bind, Option.bind_some]
    rfl
  exact ⟨_, hcall, hl.consistent none vacant_dead, hl.sameHeap none⟩

theorem newObject_spec (h : m.Consistent outside) :
    m.newObject.2.Consistent (m.objects.length :: outside) := by
  refine ⟨h.paired, fun k => ?_, ?_⟩
  · by_cases hk : k = m.objects.length
    · subst hk
      cases h.entries m.objects.length with
      | inl hheld =>
        obtain ⟨_, r, hr⟩ := hheld
        have hobject := hr.object
        simp at hobject
      | inr hgone => exact .inr ⟨hgone.counter, fun _ => by simp, hgone.unheld⟩
    · refine (h.entries k).congr rfl ?_ rfl (by simp [hk])
      simp only [newObject]
      by_cases hlt : k < m.objects.length
      · exact List.getElem?_append_left hlt
      · rw [List.getElem?_eq_none (by simp; omega), List.getElem?_eq_none (by omega)]
  · intro o ho
    simp only [newObject, List.length_append, List.length_singleton]
    cases List.mem_cons.mp ho with
    | inl heq => omega
    | inr hmem =>
      have hlt := h.known o hmem
      omega

theorem refPointer_withSlot (m : Memory) (i o : Nat) (slot : Option Handle) :
    (m.withSlot i slot).refPointer i o = m.refPointer i o := by
  simp [refPointer, setHandle, withSlot]

/-- A new counter takes an object in. -/
theorem refPointer_spec (h : m.Consistent (k :: outside)) {this : Handle} (hi : m.handle i = some this)
    (hvacant : this.counter = none) (hcounters : m.counters.length = k)
    (hobject : m.objects[k]? = some .alive) (hk : k ∉ outside) :
    (m.refPointer i k).Consistent outside := by
  have hholders : ∀ c, (m.refPointer i k).holders c = m.holders c + if c = k then 1 else 0 := by
    intro c
    rw [← holders_share hi hvacant k c]
    simp [refPointer, setHandle, withSlot, holders, hcounters]
  have hcounter : ∀ c, (m.refPointer i k).counterAt c =
      if c = k then some RefCount.create.initRef.2 else m.counterAt c := by
    intro c
    simp only [refPointer, setHandle, counterAt]
    by_cases hck : c = k
    · subst hck
      simp [← hcounters]
    · rw [if_neg hck]
      by_cases hlt : c < m.counters.length
      · rw [List.getElem?_append_left hlt]
      · rw [List.getElem?_eq_none (by simp; omega), List.getElem?_eq_none (by omega)]
  refine ⟨?_, fun c => ?_, fun o ho => h.known o (by simp [ho])⟩
  · intro j x hx
    have hx' : (m.withSlot i (some ⟨some k, some k⟩)).handle j = some x := by
      rw [← hx]
      simp [refPointer, setHandle, withSlot, handle, hcounters]
    refine paired_withSlot h.paired (lt_of_handle hi) ?_ j x hx'
    intro y hy
    cases hy
    rfl
  · by_cases hck : c = k
    · subst hck
      have hunheld : m.holders c = 0 := by
        cases h.entries c with
        | inl hheld =>
          obtain ⟨_, r, hr⟩ := hheld
          exact absurd (by simp) hr.inside
        | inr hgone => exact hgone.unheld
      have hone : (m.refPointer i c).holders c = 1 := by rw [hholders, hunheld, if_pos rfl]
      refine .inl ⟨by omega, RefCount.create.initRef.2, (hcounter c).trans (if_pos rfl), hobject, ?_, ?_, hk⟩
      · rw [hone, RefCount.initRef_create]
        rfl
      · rw [RefCount.initRef_create]
        rfl
    · refine (h.entries c).congr ((hcounter c).trans (if_neg hck)) rfl ?_ (by simp [hck])
      rw [hholders, if_neg hck, Nat.add_zero]

theorem refPointer_lengths (m : Memory) (i o : Nat) :
    (m.refPointer i o).counters.length = m.counters.length + 1 ∧
      (m.refPointer i o).objects = m.objects ∧ (m.refPointer i o).released = m.released := by
  simp [refPointer, setHandle]

theorem Counted.not_released (h : m.Counted) : m.objects.length ∉ m.released := fun hin =>
  Nat.lt_irrefl _ (h.consistent.known _ hin)

theorem adopt_spec (h : m.Counted) : ((m.newObject.2.newHandle .null).2.refPointer m.handles.length
    m.objects.length).Counted := by
  have hnew := newHandle_spec (newObject_spec h.consistent)
  have hobject : (m.newObject.2.newHandle .null).2.objects[m.objects.length]? = some .alive := by
    simp [newObject, newHandle]
  have hslot := handle_newHandle_new m.newObject.2 .null
  have hc := refPointer_spec hnew hslot rfl h.lengths hobject h.not_released
  refine ⟨hc, ?_⟩
  rw [(refPointer_lengths _ _ _).1, (refPointer_lengths _ _ _).2.1]
  simp [newObject, newHandle, h.lengths]

theorem resetTo_spec (h : m.Counted) {this : Handle} (hi : m.handle i = some this) :
    ∃ m', m.newObject.2.reset i (some m.objects.length) = some m' ∧ m'.Counted := by
  obtain ⟨m₁, hunref, hl⟩ := unref_spec (newObject_spec h.consistent) hi
  have hcall : m.newObject.2.reset i (some m.objects.length) =
      some ((m₁.withSlot i (some .null)).refPointer i m.objects.length) := by
    rw [refPointer_withSlot]
    simp [reset, hunref]
  have hcounters : m₁.counters.length = m.objects.length := hl.heap.counters.trans h.lengths
  have hc := hl.consistent _ vacant_null
  have hobjects : m₁.objects.length = m.objects.length + 1 := by
    rw [hl.heap.objects]
    simp [newObject]
  have hobject : m₁.objects[m.objects.length]? = some .alive := by
    rw [hl.others m.objects.length (by simp)]
    simp [newObject]
  have hreleased : m₁.released = m.released := hl.heap.released
  refine ⟨_, hcall, ?_, ?_⟩
  · rw [(refPointer_lengths _ _ _).2.2]
    have hfinal := refPointer_spec hc (hl.handle_self hi _) rfl hcounters hobject h.not_released
    exact hreleased ▸ hfinal
  · rw [(refPointer_lengths _ _ _).1, (refPointer_lengths _ _ _).2.1]
    exact (congrArg (· + 1) hcounters).trans hobjects.symm

/-- The object goes to the caller, the counter with the last reference. -/
theorem release_spec (h : m.Consistent m.released) {this : Handle} (hi : m.handle i = some this)
    (hk : this.counter = some k) (hlast : m.holders k = 1) :
    ∃ m', m.release i = some m' ∧ m'.Consistent m'.released ∧
      m'.counters.length = m.counters.length ∧ m'.objects.length = m.objects.length := by
  have hptr : this.ptr = some k := (h.paired i this hi).symm.trans hk
  obtain ⟨r, hr⟩ := h.held hi hk
  have hdie : r.unreference.1 = true := (hr.unreference_last hi hk).trans (decide_eq_true hlast)
  let m' : Memory := { m.withSlot i (some .null) with
    counters := m.counters.set k none, released := k :: m.released }
  have hcall : m.release i = some m' := by
    have hcounter : ({ m.setCounter k r.unreference.2 with
        released := k :: m.released } : Memory).counterAt k = some r.unreference.2 :=
      counterAt_setCounter_self hr.counter _
    simp only [release, hi, hk, hptr, hr.counter, hdie, Option.bind_eq_bind, Option.bind_some,
      Option.toList_some, List.singleton_append, if_true, deleteCounter]
    simp [setCounter] at hcounter ⊢
    simp [hcounter, withSlot, Handle.null, m']
  have hless := holders_vacate hi hk vacant_null
  refine ⟨m', hcall, ⟨?_, fun c => ?_, ?_⟩, by simp [m'], rfl⟩
  · exact paired_withSlot h.paired (lt_of_handle hi) vacant_null.paired
  · by_cases hck : c = k
    · subst hck
      refine .inr ⟨?_, fun _ => by simp [m'], ?_⟩
      · simp only [counterAt, m', List.getElem?_set, if_true]
        split <;> rfl
      · have hsame : m'.holders c = (m.withSlot i (some .null)).holders c := rfl
        omega
    · have hne := counter_ne hk hck
      refine (h.entries c).congr ?_ rfl (holders_vacate_other hi hne vacant_null) (by simp [m', hck])
      simp [counterAt, m', Ne.symm hck]
  · intro o ho
    cases List.mem_cons.mp ho with
    | inl heq =>
      rw [heq]
      exact (List.getElem?_eq_some_iff.mp hr.object).1
    | inr hmem => exact h.known o hmem

/-- A reference that releases an object it shares keeps the counter, but is not counted. -/
theorem release_stale (h : m.Consistent outside) {this : Handle} (hi : m.handle i = some this)
    (hlast : ¬ ∃ k, this.counter = some k ∧ m.holders k = 1) (hrelease : m.release i = some m') :
    ¬ m'.Sound := by
  cases hk : this.counter with
  | none => simp [release, hi, hk] at hrelease
  | some k =>
    have hshared : m.holders k ≠ 1 := fun hone => hlast ⟨k, hk, hone⟩
    obtain ⟨r, hr⟩ := h.held hi hk
    have hpos : 0 < m.holders k := holders_pos hi hk
    have hdie : r.unreference.1 = false := (hr.unreference_last hi hk).trans (decide_eq_false hshared)
    have hcall : m.release i = some ({ m.setCounter k r.unreference.2 with
        released := this.ptr.toList ++ m.released }.withSlot i (some ⟨none, some k⟩)) := by
      simp only [release, hi, hk, hr.counter, hdie, Option.bind_eq_bind, Option.bind_some]
      rfl
    rw [hcall] at hrelease
    cases hrelease
    intro hsound
    have hcount := hsound.counts k _ (counterAt_setCounter_self hr.counter r.unreference.2)
    have hholders := holders_withSlot hi (some ⟨none, some k⟩) k
    simp only [hk, if_true, Option.bind_some] at hholders
    have hsame : ({ m.setCounter k r.unreference.2 with
        released := this.ptr.toList ++ m.released }.withSlot i (some ⟨none, some k⟩)).holders k =
          (m.withSlot i (some ⟨none, some k⟩)).holders k := rfl
    rw [hr.strong_unreference hi hk, hsame] at hcount
    omega

theorem swap_spec (h : m.Consistent outside) {this other : Handle} (hi : m.handle i = some this)
    (hj : m.handle j = some other) : ∃ m', m.swap i j = some m' ∧ m'.Consistent outside ∧ SameHeap m m' := by
  refine ⟨(m.withSlot i (some other)).withSlot j (some this), by simp [swap, hi, hj], ⟨?_, fun k => ?_, h.known⟩,
    rfl, rfl, rfl⟩
  · have hother : ∀ x, some other = some x → x.counter = x.ptr := by
      intro x hx
      cases hx
      exact h.paired j other hj
    refine paired_withSlot (paired_withSlot h.paired (lt_of_handle hi) hother) ?_ ?_
    · simpa [withSlot] using lt_of_handle hj
    · intro x hx
      cases hx
      exact h.paired i this hi
  · have hfirst := holders_withSlot hi (some other) k
    have hj' : (m.withSlot i (some other)).handle j = some other := by
      by_cases hij : i = j
      · subst hij
        exact handle_withSlot_self (lt_of_handle hi)
      · exact (handle_withSlot_other hij).trans hj
    have hsecond := holders_withSlot hj' (some this) k
    simp only [Option.bind_some] at hfirst hsecond
    refine (h.entries k).congr rfl rfl ?_ Iff.rfl
    omega

end Memory

/-! ## Whole programs -/

namespace Operation

open Memory

/-- What a program has to see to: a counter has room for one more reference, a variable
that is assigned a converted null reference and one that releases do not share. -/
def KeepsCount (m : Memory) : Operation → Prop
  | copy j | move j | convert j => ∀ other, m.handle j = some other → m.Room other
  | assign i j | moveAssign i j => ∀ this other, m.handle i = some this → m.handle j = some other →
      other.ptr ≠ this.ptr → m.Room other
  | convertAssign i j => ∀ this other, m.handle i = some this → m.handle j = some other →
      (other.ptr = none → m.Alone this) ∧ (other.ptr ≠ this.ptr → m.Room other)
  | release i => ∀ this, m.handle i = some this → ∃ k, this.counter = some k ∧ m.holders k = 1
  | null | adopt | assignNull _ | reset _ | resetTo _ | swap _ _ | destroy _ => True

variable {m : Memory}

theorem counted_of_spec (h : m.Counted) {result : Option Memory}
    (hspec : ∃ m', result = some m' ∧ m'.Consistent m.released ∧ SameHeap m m') :
    ∃ m', result = some m' ∧ m'.Counted := by
  obtain ⟨m', hcall, hc, hheap⟩ := hspec
  exact ⟨m', hcall, h.of_sameHeap hheap hc⟩

/-- One operation of a program that keeps count. -/
theorem perform_counted (h : m.Counted) (e : Operation) (hscope : InScope m e) (hkeeps : KeepsCount m e) :
    ∃ m', perform m e = some m' ∧ m'.Counted := by
  have hc := h.consistent
  have hlive : ∀ {i : Nat}, (m.handle i).isSome = true → ∃ this, m.handle i = some this :=
    fun hi => Option.isSome_iff_exists.mp hi
  cases e with
  | null => exact ⟨_, rfl, newHandle_spec hc, h.lengths⟩
  | adopt => exact ⟨_, rfl, adopt_spec h⟩
  | copy j | move j =>
    obtain ⟨other, hj⟩ := hlive hscope
    have hroom := room_newHandle.mpr (hkeeps other hj)
    obtain ⟨m', hcall, hc', hheap⟩ := ref_spec (newHandle_spec hc) (handle_newHandle_new m .null)
      (handle_newHandle_old hj) fun _ => hroom
    exact ⟨m', hcall, h.of_sameHeap ⟨hheap.counters, hheap.objects, hheap.released⟩ hc'⟩
  | convert j =>
    obtain ⟨other, hj⟩ := hlive hscope
    exact counted_of_spec h (convert_spec hc hj (hkeeps other hj))
  | assign i j | moveAssign i j =>
    obtain ⟨this, hi⟩ := hlive hscope.1
    obtain ⟨other, hj⟩ := hlive hscope.2
    exact counted_of_spec h (ref_spec hc hi hj (hkeeps this other hi hj))
  | convertAssign i j =>
    obtain ⟨this, hi⟩ := hlive hscope.1
    obtain ⟨other, hj⟩ := hlive hscope.2.1
    obtain ⟨halone, hroom⟩ := hkeeps this other hi hj
    exact counted_of_spec h (convertAssign_spec hc hi hj hscope.2.2 halone hroom)
  | assignNull i | reset i =>
    obtain ⟨this, hi⟩ := hlive hscope
    exact counted_of_spec h (reset_none_spec hc hi)
  | resetTo i =>
    obtain ⟨this, hi⟩ := hlive hscope
    exact resetTo_spec h hi
  | swap i j =>
    obtain ⟨this, hi⟩ := hlive hscope.1
    obtain ⟨other, hj⟩ := hlive hscope.2
    exact counted_of_spec h (swap_spec hc hi hj)
  | release i =>
    obtain ⟨this, hi⟩ := hlive hscope
    obtain ⟨k, hk, hlast⟩ := hkeeps this hi
    obtain ⟨m', hcall, hc', hcounters, hobjects⟩ := release_spec hc hi hk hlast
    exact ⟨m', hcall, hc', by rw [hcounters, hobjects]; exact h.lengths⟩
  | destroy i =>
    obtain ⟨this, hi⟩ := hlive hscope
    exact counted_of_spec h (destroy_spec hc hi)

/-- Any other operation puts a count wrong at once. -/
theorem perform_unsound (h : m.Counted) (e : Operation) (hscope : InScope m e) (hkeeps : ¬ KeepsCount m e)
    (m' : Memory) (hperform : perform m e = some m') : ¬ m'.Sound := by
  have hc := h.consistent
  cases e with
  | null | adopt | assignNull i | reset i | resetTo i | swap i j | destroy i => exact absurd trivial hkeeps
  | copy j | move j =>
    simp only [KeepsCount, not_forall] at hkeeps
    obtain ⟨other, hj, hfull⟩ := hkeeps
    have hptr : other.ptr ≠ Handle.null.ptr := ptr_ne_none_of_full hc hj hfull
    exact ref_full (newHandle_spec hc) (handle_newHandle_new m .null) (handle_newHandle_old hj) hptr
      (fun hroom => hfull (room_newHandle.mp hroom)) hperform
  | convert j =>
    simp only [KeepsCount, not_forall] at hkeeps
    obtain ⟨other, hj, hfull⟩ := hkeeps
    exact convert_full hc hj hfull hperform
  | assign i j | moveAssign i j =>
    simp only [KeepsCount, not_forall] at hkeeps
    obtain ⟨this, other, hi, hj, hptr, hfull⟩ := hkeeps
    exact ref_full hc hi hj hptr hfull hperform
  | convertAssign i j =>
    simp only [KeepsCount, not_forall] at hkeeps
    obtain ⟨this, other, hi, hj, hnot⟩ := hkeeps
    by_cases hnull : other.ptr = none → m.Alone this
    · have hfull : ¬ (other.ptr ≠ this.ptr → m.Room other) := fun hroom => hnot ⟨hnull, hroom⟩
      rw [Classical.not_imp] at hfull
      exact convertAssign_full hc hi hj hscope.2.2 hfull.1 hfull.2 hperform
    · rw [Classical.not_imp] at hnull
      exact convertAssign_stale hc hi hj hnull.1 hnull.2 hperform
  | release i =>
    simp only [KeepsCount, not_forall] at hkeeps
    obtain ⟨this, hi, hlast⟩ := hkeeps
    exact release_stale hc hi hlast hperform

end Operation

theorem counted_empty : Memory.empty.Counted := by
  refine ⟨⟨?_, fun k => .inr ⟨rfl, ?_, rfl⟩, ?_⟩, rfl⟩
  · intro i x hx
    simp [Memory.handle, Memory.empty] at hx
  · intro hobject
    simp [Memory.empty] at hobject
  · intro o ho
    cases ho

/-- Over every sequence of operations: no operation faults and all states on the way are
sound exactly when every operation keeps count. -/
theorem references_sound_iff (es : List Operation) :
    references.Always Memory.Sound Memory.empty es ↔
      references.Throughout Operation.KeepsCount Memory.empty es :=
  Runs.System.always_iff_throughout (I := Memory.Counted) (fun _ h => h.sound)
    (fun _ e h hscope hkeeps => Operation.perform_counted h e hscope hkeeps)
    (fun _ e h hscope hkeeps => Operation.perform_unsound h e hscope hkeeps) es counted_empty

/-- Of two references to one object the first is assigned a converted null reference. The
second then takes the object with it, and the first is left pointing to it. -/
theorem references_stale :
    ¬ references.Always Memory.Sound Memory.empty
      [.adopt, .copy 0, .null, .convertAssign 0 2, .destroy 1] := by
  intro h
  obtain ⟨_, hadopt, h⟩ := h.2 trivial
  cases hadopt
  obtain ⟨_, hcopy, h⟩ := h.2 rfl
  cases hcopy
  obtain ⟨_, hnull, h⟩ := h.2 trivial
  cases hnull
  obtain ⟨_, hassign, h⟩ := h.2 ⟨rfl, rfl, by decide⟩
  cases hassign
  obtain ⟨_, hdestroy, hsound⟩ := h.2 rfl
  cases hdestroy
  have halive := hsound.alive 0 ⟨some 0, some 0⟩ 0 rfl rfl
  exact absurd halive (by decide)

end Lumos.Core
