import Lumos.Core.ReferenceRuns

/-!
# `WeakReference`

The weak count of a new counter is zero, and a count of zero is never increased. So no
weak reference is ever counted, and every one that points to something is wrong from the
start.
-/
namespace Lumos.Core

namespace Memory

variable {m m' : Memory} {i j : Nat}

def weakHandle (m : Memory) (j : Nat) : Option Handle := m.weakHandles[j]?.join

def weakHolders (m : Memory) (k : Nat) : Nat := m.weakHandles.countP (holdsCounter k)

def newWeakHandle (m : Memory) (w : Handle) : Memory := { m with weakHandles := m.weakHandles ++ [some w] }

/-- `AddRef` of a weak reference with this counter. -/
def addRef (m : Memory) (counter : Option Nat) : Option Memory := do
  let c ← counter
  let r ← m.counterAt c
  some (m.setCounter c r.weakReference.2)

/-- `WeakReference(const WeakReference<T>& rhs)` -/
def weakCopy (m : Memory) (j : Nat) : Option Memory := do
  let rhs ← m.weakHandle j
  (m.newWeakHandle rhs).addRef rhs.counter

/-- `WeakReference(T* ptr)`, where the pointer is what a reference gives out. -/
def weakFromPointer (m : Memory) (i : Nat) : Option Memory := do
  let this ← m.handle i
  let ptr ← this.ptr -- "Creating weak ptr with nullptr"
  let c := m.counters.length
  let m := { m with counters := m.counters ++ [some RefCount.create.weakReference.2] }
  some (m.newWeakHandle ⟨some ptr, some c⟩)

/-- `WeakReference(const Reference<T>& rhs)` -/
def weakFromReference (m : Memory) (i : Nat) : Option Memory := do
  let rhs ← m.handle i
  (m.newWeakHandle rhs).addRef rhs.counter

/-- The assignment the compiler supplies, member by member. -/
def weakAssign (m : Memory) (i j : Nat) : Option Memory := do
  let _ ← m.weakHandle i
  let rhs ← m.weakHandle j
  some { m with weakHandles := m.weakHandles.set i (some rhs) }

/-- `~WeakReference()` -/
def weakDestroy (m : Memory) (j : Nat) : Option Memory := do
  let this ← m.weakHandle j
  let c ← this.counter
  let r ← m.counterAt c
  let (die, r) := r.weakUnreference
  let m := m.setCounter c r
  let m ← if die then m.deletePtr this.ptr else some m
  some { m with weakHandles := m.weakHandles.set j none }

/-- `Expired` of a weak reference. -/
def expired (m : Memory) (w : Handle) : Option Bool :=
  match w.counter with
  | none => some true
  | some c => do
    let r ← m.counterAt c
    some (decide (r.getReferenceCount ≤ 0))

/-- A variable is constructed from what `Lock` returns. -/
def lock (m : Memory) (j : Nat) : Option Memory := do
  let this ← m.weakHandle j
  let expired ← m.expired this
  let (i, m) := m.newHandle .null
  if expired then some m
  else
    match this.ptr with
    | none => some m
    | some o => some (m.refPointer i o)

end Memory

/-- The operations on references and weak references. -/
inductive WeakOperation where
  | strong (e : Operation)
  /-- `WeakReference()`, `WeakReference(nullptr)` -/
  | null
  | copy (j : Nat)
  | fromPointer (i : Nat)
  | fromReference (i : Nat)
  | assign (i j : Nat)
  | lock (j : Nat)
  | destroy (j : Nat)

namespace WeakOperation

def InScope (m : Memory) : WeakOperation → Prop
  | strong e => e.InScope m
  | null => True
  | fromReference i => (m.handle i).isSome = true
  | fromPointer i => ∃ this o, m.handle i = some this ∧ this.ptr = some o
  | copy j | lock j | destroy j => (m.weakHandle j).isSome = true
  | assign i j => (m.weakHandle i).isSome = true ∧ (m.weakHandle j).isSome = true

def perform (m : Memory) : WeakOperation → Option Memory
  | strong e => e.perform m
  | null => some (m.newWeakHandle .null)
  | copy j => m.weakCopy j
  | fromPointer i => m.weakFromPointer i
  | fromReference i => m.weakFromReference i
  | assign i j => m.weakAssign i j
  | lock j => m.lock j
  | destroy j => m.weakDestroy j

end WeakOperation

/-- Programs over references and weak references. -/
def weakReferences : Runs.System Memory WeakOperation where
  inScope := WeakOperation.InScope
  perform := WeakOperation.perform

namespace Memory

variable {m m' : Memory} {i j : Nat}

/-- What is expected of references and weak references together. -/
structure WeakSound (m : Memory) : Prop where
  weakCounts : ∀ c r, m.counterAt c = some r → r.weak = m.weakHolders c
  freed : ∀ c, m.counterAt c = none → m.holders c = 0 ∧ m.weakHolders c = 0
  expired_iff : ∀ j w o, m.weakHandle j = some w → w.ptr = some o →
    (m.expired w = some true ↔ m.objects[o]? = some .destroyed)
  lock_shares : ∀ j w, m.weakHandle j = some w → m.expired w = some false →
    ∃ m' h, m.lock j = some m' ∧ m'.handle m.handles.length = some h ∧ h.counter = w.counter
  destroyed : ∀ o, o < m.objects.length → o ∉ m.released →
    (m.objects[o]? = some .destroyed ↔ ∀ i h, m.handle i = some h → h.ptr ≠ some o)
  alive : ∀ i h o, m.handle i = some h → h.ptr = some o → m.objects[o]? = some .alive

theorem Counted.withWeakHandles (h : m.Counted) (weakHandles : List (Option Handle)) :
    ({ m with weakHandles } : Memory).Counted :=
  ⟨⟨h.consistent.paired, fun k => (h.consistent.entries k).congr rfl rfl rfl Iff.rfl, h.consistent.known⟩,
    h.lengths⟩

/-- References are counted, and weak references are null. -/
structure Unwatched (m : Memory) : Prop where
  counted : m.Counted
  null : ∀ j w, m.weakHandle j = some w → w = .null

theorem Unwatched.weakHolders_eq (h : m.Unwatched) (k : Nat) : m.weakHolders k = 0 := by
  apply List.countP_eq_zero.mpr
  intro slot hslot hholds
  obtain ⟨j, hj⟩ := List.mem_iff_getElem?.mp hslot
  have hcounter : slot.bind Handle.counter = some k := of_decide_eq_true hholds
  obtain ⟨w, rfl, hw⟩ := Option.bind_eq_some_iff.mp hcounter
  have hnull := h.null j w (by simp [weakHandle, hj])
  rw [hnull] at hw
  cases hw

theorem Unwatched.weakSound (h : m.Unwatched) : m.WeakSound := by
  have hsound := h.counted.sound
  constructor
  · intro c r hr
    rw [h.weakHolders_eq]
    cases h.counted.consistent.entries c with
    | inl hheld =>
      obtain ⟨_, r', hr'⟩ := hheld
      cases hr.symm.trans hr'.counter
      exact hr'.weak
    | inr hgone => cases hr.symm.trans hgone.counter
  · intro c hc
    refine ⟨?_, h.weakHolders_eq c⟩
    by_contra hheld
    have hsome := hsound.counters c (Nat.pos_of_ne_zero hheld)
    simp [hc] at hsome
  · intro j w o hj hptr
    rw [h.null j w hj] at hptr
    cases hptr
  · intro j w hj hexpired
    rw [h.null j w hj] at hexpired
    cases hexpired
  · exact hsound.destroyed
  · exact hsound.alive

/-! ## References leave weak references alone -/

theorem weakHandles_deletePtr {ptr : Option Nat} (h : m.deletePtr ptr = some m') :
    m'.weakHandles = m.weakHandles := by
  cases ptr with
  | none =>
    cases h
    rfl
  | some o =>
    simp only [deletePtr] at h
    split at h
    · cases h
      rfl
    · cases h

theorem weakHandles_deleteCounter {c : Nat} (h : m.deleteCounter c = some m') :
    m'.weakHandles = m.weakHandles := by
  obtain ⟨_, _, heq⟩ := Option.bind_eq_some_iff.mp h
  cases heq
  rfl

theorem weakHandles_unref (h : m.unref i = some m') : m'.weakHandles = m.weakHandles := by
  obtain ⟨this, _, hbody⟩ := Option.bind_eq_some_iff.mp h
  cases hk : this.counter with
  | none =>
    rw [hk] at hbody
    cases hbody
    rfl
  | some c =>
    rw [hk] at hbody
    obtain ⟨r, _, hrest⟩ := Option.bind_eq_some_iff.mp hbody
    by_cases hdie : r.unreference.1 = true
    · simp only [hdie, if_true, Option.bind_eq_bind, Option.bind_eq_some_iff] at hrest
      obtain ⟨m₁, hptr, hcounter⟩ := hrest
      have hfirst := weakHandles_deletePtr hptr
      split at hcounter
      · obtain ⟨m₂, hdelete, heq⟩ := Option.bind_eq_some_iff.mp hcounter
        cases heq
        have hsecond := weakHandles_deleteCounter hdelete
        exact hsecond.trans hfirst
      · cases hcounter
        exact hfirst
    · simp only [hdie, if_false, Bool.false_eq_true] at hrest
      cases hrest
      rfl

theorem weakHandles_share (h : m.share i j = some m') : m'.weakHandles = m.weakHandles := by
  obtain ⟨other, _, hbody⟩ := Option.bind_eq_some_iff.mp h
  split at hbody
  · obtain ⟨r, _, heq⟩ := Option.bind_eq_some_iff.mp hbody
    cases heq
    rfl
  · cases hbody
    rfl

theorem weakHandles_ref (h : m.ref i j = some m') : m'.weakHandles = m.weakHandles := by
  obtain ⟨this, _, hbody⟩ := Option.bind_eq_some_iff.mp h
  obtain ⟨other, _, hrest⟩ := Option.bind_eq_some_iff.mp hbody
  split at hrest
  · cases hrest
    rfl
  · obtain ⟨m₁, hunref, hshare⟩ := Option.bind_eq_some_iff.mp hrest
    have hsame := weakHandles_share hshare
    have hfirst := weakHandles_unref hunref
    exact hsame.trans hfirst

theorem weakHandles_convert (h : m.convert j = some m') : m'.weakHandles = m.weakHandles := by
  obtain ⟨moving, _, hbody⟩ := Option.bind_eq_some_iff.mp h
  obtain ⟨m₁, hunref, hrest⟩ := Option.bind_eq_some_iff.mp hbody
  have hsame := weakHandles_unref hunref
  split at hrest
  · obtain ⟨this, _, hlast⟩ := Option.bind_eq_some_iff.mp hrest
    split at hlast
    · cases hlast
      exact hsame
    · exact (weakHandles_share hlast).trans hsame
  · cases hrest
    exact hsame

theorem weakHandles_convertAssign (h : m.convertAssign i j = some m') :
    m'.weakHandles = m.weakHandles := by
  obtain ⟨moving, _, hbody⟩ := Option.bind_eq_some_iff.mp h
  obtain ⟨m₁, hunref, hrest⟩ := Option.bind_eq_some_iff.mp hbody
  have hsame : m₁.weakHandles = m.weakHandles := weakHandles_unref hunref
  split at hrest
  · exact (weakHandles_share hrest).trans hsame
  · cases hrest
    exact hsame

theorem weakHandles_reset {ptr : Option Nat} (h : m.reset i ptr = some m') :
    m'.weakHandles = m.weakHandles := by
  obtain ⟨m₁, hunref, hrest⟩ := Option.bind_eq_some_iff.mp h
  have hsame := weakHandles_unref hunref
  cases ptr with
  | none =>
    cases hrest
    exact hsame
  | some o =>
    cases hrest
    exact hsame

theorem weakHandles_release (h : m.release i = some m') : m'.weakHandles = m.weakHandles := by
  obtain ⟨this, _, hbody⟩ := Option.bind_eq_some_iff.mp h
  obtain ⟨c, _, hbody⟩ := Option.bind_eq_some_iff.mp hbody
  obtain ⟨r, _, hrest⟩ := Option.bind_eq_some_iff.mp hbody
  by_cases hdie : r.unreference.1 = true
  · simp only [hdie, if_true, Option.bind_eq_bind, Option.bind_eq_some_iff] at hrest
    obtain ⟨m₁, hdelete, heq⟩ := hrest
    cases heq
    have hsame := weakHandles_deleteCounter hdelete
    exact hsame
  · simp only [hdie, if_false, Bool.false_eq_true] at hrest
    cases hrest
    rfl

theorem weakHandles_perform {e : Operation} (h : e.perform m = some m') :
    m'.weakHandles = m.weakHandles := by
  cases e with
  | null =>
    cases h
    rfl
  | adopt =>
    cases h
    rfl
  | copy j | move j =>
    have hsame := weakHandles_ref h
    exact hsame
  | convert j => exact weakHandles_convert h
  | assign i j | moveAssign i j => exact weakHandles_ref h
  | convertAssign i j => exact weakHandles_convertAssign h
  | assignNull i | reset i =>
    have hcall : m.reset i none = some m' := h
    exact weakHandles_reset hcall
  | resetTo i =>
    have hcall : m.newObject.2.reset i (some m.objects.length) = some m' := h
    have hsame := weakHandles_reset hcall
    exact hsame
  | swap i j =>
    obtain ⟨this, _, hbody⟩ := Option.bind_eq_some_iff.mp h
    obtain ⟨other, _, heq⟩ := Option.bind_eq_some_iff.mp hbody
    cases heq
    rfl
  | release i => exact weakHandles_release h
  | destroy i =>
    obtain ⟨m₁, hunref, heq⟩ := Option.bind_eq_some_iff.mp h
    cases heq
    have hsame := weakHandles_unref hunref
    exact hsame

/-! ## Weak references that point to something -/

theorem weakHandle_newWeakHandle_new (m : Memory) (w : Handle) :
    (m.newWeakHandle w).weakHandle m.weakHandles.length = some w := by
  simp [weakHandle, newWeakHandle]

theorem weakHandle_newWeakHandle {w x : Handle} (h : (m.newWeakHandle w).weakHandle j = some x) :
    x = w ∨ m.weakHandle j = some x := by
  have hslot := Option.join_eq_some_iff.mp h
  simp only [newWeakHandle] at hslot
  by_cases hlt : j < m.weakHandles.length
  · rw [List.getElem?_append_left hlt] at hslot
    exact .inr (by simp [weakHandle, hslot])
  · rw [List.getElem?_append_right (Nat.not_lt.mp hlt)] at hslot
    obtain ⟨_, hget⟩ := List.getElem?_eq_some_iff.mp hslot
    rw [List.getElem_singleton] at hget
    exact .inl (Option.some.inj hget).symm

theorem weakHolders_pos {w : Handle} {k : Nat} (hj : m.weakHandle j = some w) (hk : w.counter = some k) :
    0 < m.weakHolders k := by
  have hslot := Option.join_eq_some_iff.mp hj
  apply List.countP_pos_iff.mpr
  exact ⟨some w, List.mem_of_getElem? hslot, by simp [holdsCounter, hk]⟩

/-- A counter without weak references that a weak reference points to. -/
theorem not_weakSound {w : Handle} {k : Nat} {r : RefCount} (hj : m.weakHandle j = some w)
    (hk : w.counter = some k) (hr : m.counterAt k = some r) (hweak : r.weak = 0) : ¬ m.WeakSound := by
  intro h
  have hcount := h.weakCounts k r hr
  have hpos := weakHolders_pos hj hk
  omega

theorem weakFromPointer_unsound (h : m.weakFromPointer i = some m') : ¬ m'.WeakSound := by
  obtain ⟨this, _, hbody⟩ := Option.bind_eq_some_iff.mp h
  obtain ⟨ptr, _, heq⟩ := Option.bind_eq_some_iff.mp hbody
  cases heq
  have hnew := weakHandle_newWeakHandle_new
    { m with counters := m.counters ++ [some RefCount.create.weakReference.2] }
    ⟨some ptr, some m.counters.length⟩
  refine not_weakSound hnew rfl (r := RefCount.create.weakReference.2) ?_ (by decide)
  simp [counterAt, newWeakHandle]

theorem weakFromReference_unsound (hc : m.Counted) (h : m.weakFromReference i = some m') :
    ¬ m'.WeakSound := by
  obtain ⟨rhs, hrhs, hbody⟩ := Option.bind_eq_some_iff.mp h
  obtain ⟨c, hk, hbody⟩ := Option.bind_eq_some_iff.mp hbody
  obtain ⟨r, hr, heq⟩ := Option.bind_eq_some_iff.mp hbody
  cases heq
  obtain ⟨r', hr'⟩ := hc.consistent.held hrhs hk
  have hsame : r = r' := Option.some.inj (hr.symm.trans hr'.counter)
  have hweak : r.weak = 0 := hsame ▸ hr'.weak
  have hnew := weakHandle_newWeakHandle_new m rhs
  rw [RefCount.weakReference_none hweak]
  exact not_weakSound (k := c) hnew hk (counterAt_setCounter_self hr r) hweak

end Memory

namespace WeakOperation

open Memory

/-- The strong operations keep count. -/
def KeepsCount (m : Memory) : WeakOperation → Prop
  | strong e => e.KeepsCount m
  | _ => True

/-- No weak reference is attached, copied or destroyed. -/
def Harmless (_ : Memory) : WeakOperation → Prop
  | copy _ | fromPointer _ | fromReference _ | destroy _ => False
  | strong _ | null | assign _ _ | lock _ => True

variable {m : Memory}

theorem perform_unwatched (h : m.Unwatched) (e : WeakOperation) (hscope : InScope m e)
    (hkeeps : KeepsCount m e) (hharmless : Harmless m e) :
    ∃ m', perform m e = some m' ∧ m'.Unwatched := by
  cases e with
  | strong e =>
    obtain ⟨m', hperform, hc⟩ := Operation.perform_counted h.counted e hscope hkeeps
    have hsame := weakHandles_perform hperform
    refine ⟨m', hperform, hc, fun j w hj => h.null j w ?_⟩
    rw [weakHandle, ← hsame]
    exact hj
  | null =>
    refine ⟨_, rfl, h.counted.withWeakHandles _, fun j w hj => ?_⟩
    cases weakHandle_newWeakHandle hj with
    | inl hnew => exact hnew
    | inr hold => exact h.null j w hold
  | assign i j =>
    obtain ⟨this, hi⟩ := Option.isSome_iff_exists.mp hscope.1
    obtain ⟨rhs, hj⟩ := Option.isSome_iff_exists.mp hscope.2
    refine ⟨{ m with weakHandles := m.weakHandles.set i (some rhs) }, by simp [perform, weakAssign, hi, hj],
      h.counted.withWeakHandles _, fun k w hk => ?_⟩
    by_cases hik : i = k
    · subst hik
      have hlt : i < m.weakHandles.length := by
        have hslot := Option.join_eq_some_iff.mp hi
        exact (List.getElem?_eq_some_iff.mp hslot).1
      have hw : rhs = w := by simpa [weakHandle, hlt] using hk
      exact hw ▸ h.null j rhs hj
    · apply h.null k w
      simpa [weakHandle, hik] using hk
  | lock j =>
    obtain ⟨this, hj⟩ := Option.isSome_iff_exists.mp hscope
    have hnull := h.null j this hj
    subst hnull
    have hexpired : m.expired .null = some true := rfl
    refine ⟨(m.newHandle .null).2, by simp [perform, Memory.lock, hj, hexpired], ?_, h.null⟩
    exact ⟨newHandle_spec h.counted.consistent, h.counted.lengths⟩
  | copy j | fromPointer i | fromReference i | destroy j => exact absurd hharmless id

theorem perform_watched (h : m.Unwatched) (e : WeakOperation) (hharmless : ¬ Harmless m e) (m' : Memory)
    (hperform : perform m e = some m') : ¬ m'.WeakSound := by
  cases e with
  | strong e | null | assign i j | lock j => exact absurd trivial hharmless
  | fromPointer i => exact weakFromPointer_unsound hperform
  | fromReference i => exact weakFromReference_unsound h.counted hperform
  | copy j =>
    -- There is no counter to count the new weak reference on.
    obtain ⟨rhs, hrhs, hbody⟩ := Option.bind_eq_some_iff.mp hperform
    rw [h.null j rhs hrhs] at hbody
    cases hbody
  | destroy j =>
    obtain ⟨this, hthis, hbody⟩ := Option.bind_eq_some_iff.mp hperform
    rw [h.null j this hthis] at hbody
    cases hbody

end WeakOperation

theorem unwatched_empty : Memory.empty.Unwatched := by
  refine ⟨counted_empty, fun j w hj => ?_⟩
  simp [Memory.weakHandle, Memory.empty] at hj

/-- Over every sequence whose strong operations keep count: no operation faults and all
states on the way are sound exactly when no weak reference is attached to an object,
copied or destroyed. -/
theorem weakReferences_sound_iff (es : List WeakOperation)
    (hkeeps : weakReferences.Throughout WeakOperation.KeepsCount Memory.empty es) :
    weakReferences.Always Memory.WeakSound Memory.empty es ↔
      weakReferences.Throughout WeakOperation.Harmless Memory.empty es :=
  Runs.System.always_iff_throughout_of (I := Memory.Unwatched) (fun _ h => h.weakSound)
    (fun _ e h hscope hkeeps hharmless => WeakOperation.perform_unwatched h e hscope hkeeps hharmless)
    (fun _ e h _ _ hharmless => WeakOperation.perform_watched h e hharmless) es unwatched_empty hkeeps

theorem weakReferences_sound_adopt :
    weakReferences.Always Memory.WeakSound Memory.empty [.strong .adopt, .null, .lock 0] ↔
      weakReferences.Throughout WeakOperation.Harmless Memory.empty [.strong .adopt, .null, .lock 0] := by
  apply weakReferences_sound_iff
  exact fun _ => ⟨trivial, fun _ _ _ => ⟨trivial, fun _ _ _ => ⟨trivial, fun _ _ => trivial⟩⟩⟩

/-- A weak reference to an object is not counted. -/
theorem weakReferences_uncounted :
    ¬ weakReferences.Always Memory.WeakSound Memory.empty [.strong .adopt, .fromPointer 0] := by
  intro h
  obtain ⟨_, hadopt, h⟩ := h.2 trivial
  cases hadopt
  obtain ⟨_, hweak, hsound⟩ := h.2 ⟨_, _, rfl, rfl⟩
  cases hweak
  have hcount := hsound.weakCounts 1 _ rfl
  exact absurd hcount (by decide)

end Lumos.Core
