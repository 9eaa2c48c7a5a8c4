import Mathlib.Algebra.Group.Nat.Defs
import Mathlib.Logic.Basic
import Mathlib.Data.List.Basic
import Lumos.Library.Runs

/-!
# `ReferenceCounter` and `RefCount`

Counts are unsigned and have 32 bits, so that adding to the largest of them gives zero and
taking from zero gives the largest.
-/
namespace Lumos.Core

structure ReferenceCounter where
  count : UInt32
  deriving DecidableEq

namespace ReferenceCounter

def init (value : UInt32 := 1) : ReferenceCounter := ⟨value⟩

def get (c : ReferenceCounter) : UInt32 := c.count

/-- The value returned, and the counter afterwards. -/
def atomicConditionalIncrement (c : ReferenceCounter) : UInt32 × ReferenceCounter :=
  if c.count = 0 then (0, c) -- "if zero, can't add to it anymore"
  else (c.count + 1, ⟨c.count + 1⟩)

def atomicDecrement (c : ReferenceCounter) : UInt32 × ReferenceCounter :=
  (c.count - 1, ⟨c.count - 1⟩)

def ref (c : ReferenceCounter) : Bool × ReferenceCounter :=
  let (value, c) := c.atomicConditionalIncrement
  (value != 0, c)

def unref (c : ReferenceCounter) : Bool × ReferenceCounter :=
  let (value, c) := c.atomicDecrement
  (value == 0, c)

theorem toNat_unref {c : ReferenceCounter} (h : 0 < c.count.toNat) :
    c.unref.2.count.toNat = c.count.toNat - 1 := by
  have hlt := c.count.toNat_lt
  simp only [unref, atomicDecrement, UInt32.toNat_sub, UInt32.toNat_one]
  omega

/-- Taking the last reference is reported. -/
theorem unref_last {c : ReferenceCounter} (h : 0 < c.count.toNat) :
    c.unref.1 = decide (c.count.toNat = 1) := by
  have hvalue := toNat_unref h
  have hzero : c.unref.2.count = 0 ↔ c.unref.2.count.toNat = 0 := UInt32.toNat_inj.symm
  have hreported : c.unref.1 = decide (c.unref.2.count = 0) := rfl
  rw [hreported]
  apply decide_eq_decide.mpr
  rw [hzero, hvalue]
  omega

theorem toNat_ref {c : ReferenceCounter} (h : 0 < c.count.toNat) :
    c.ref.2.count.toNat = (c.count.toNat + 1) % 2 ^ 32 := by
  have hne : c.count ≠ 0 := by
    intro hzero
    simp [hzero] at h
  simp [ref, atomicConditionalIncrement, hne, UInt32.toNat_add]

/-- Nothing can be added to an empty counter. -/
theorem ref_empty {c : ReferenceCounter} (h : c.count = 0) : c.ref = (false, c) := by
  simp [ref, atomicConditionalIncrement, h]

end ReferenceCounter

structure RefCount where
  refcount : ReferenceCounter
  refcountInit : ReferenceCounter
  weakRefcount : ReferenceCounter
  deriving DecidableEq

namespace RefCount

/-- The constructor. -/
def create : RefCount := ⟨.init, .init, .init 0⟩

def reference (r : RefCount) : Bool × RefCount :=
  let (success, refcount) := r.refcount.ref
  (success, { r with refcount })

def unreference (r : RefCount) : Bool × RefCount :=
  let (die, refcount) := r.refcount.unref
  (die, { r with refcount })

def initRef (r : RefCount) : Bool × RefCount :=
  let (success, r) := r.reference
  if success then
    if r.refcountInit.get > 0 then
      let (_, refcountInit) := r.refcountInit.unref
      -- "first referencing is already 1, so compensate for the ref above"
      let (_, r) := { r with refcountInit }.unreference
      (true, r)
    else (true, r)
  else (false, r)

def weakReference (r : RefCount) : Bool × RefCount :=
  let (success, weakRefcount) := r.weakRefcount.ref
  (success, { r with weakRefcount })

def weakUnreference (r : RefCount) : Bool × RefCount :=
  let (last, weakRefcount) := r.weakRefcount.unref
  (last && r.refcount.count == 0, { r with weakRefcount })

/-- Signed, as the function returns it. -/
def getReferenceCount (r : RefCount) : Int32 := r.refcount.get.toInt32

def getWeakReferenceCount (r : RefCount) : Int32 := r.weakRefcount.get.toInt32

/-- The strong and the weak count. -/
def strong (r : RefCount) : Nat := r.refcount.count.toNat

def weak (r : RefCount) : Nat := r.weakRefcount.count.toNat

theorem strong_unreference {r : RefCount} (h : 0 < r.strong) :
    r.unreference.2.strong = r.strong - 1 := ReferenceCounter.toNat_unref h

theorem unreference_last {r : RefCount} (h : 0 < r.strong) :
    r.unreference.1 = decide (r.strong = 1) := ReferenceCounter.unref_last h

theorem strong_reference {r : RefCount} (h : 0 < r.strong) :
    r.reference.2.strong = (r.strong + 1) % 2 ^ 32 := ReferenceCounter.toNat_ref h

theorem strong_lt (r : RefCount) : r.strong < 2 ^ 32 := r.refcount.count.toNat_lt

/-- A counter that is new counts one reference. -/
theorem initRef_create : create.initRef = (true, ⟨⟨1⟩, ⟨0⟩, ⟨0⟩⟩) := by decide

theorem getWeakReferenceCount_eq_zero {r : RefCount} (h : r.weak = 0) :
    r.getWeakReferenceCount = 0 := by
  have hcount : r.weakRefcount.count = 0 := UInt32.toNat_inj.mp h
  rw [getWeakReferenceCount, ReferenceCounter.get, hcount]
  rfl

/-- No weak reference is ever counted on a counter that counts none. -/
theorem weakReference_none {r : RefCount} (h : r.weak = 0) : r.weakReference = (false, r) := by
  have hcount : r.weakRefcount.count = 0 := UInt32.toNat_inj.mp h
  simp [weakReference, ReferenceCounter.ref_empty hcount]

end RefCount

end Lumos.Core

/-!
# `Reference`

The variables of type `Reference`, of whatever class, the counters and objects on the heap
they point to, and what the member functions do to them. Using a counter or an object
that has been deleted faults, as does following a null pointer.
-/
namespace Lumos.Core

/-- The members `m_Ptr` and `m_Counter` of a `Reference` or a `WeakReference`. -/
structure Handle where
  ptr : Option Nat
  counter : Option Nat
  deriving DecidableEq

def Handle.null : Handle := ⟨none, none⟩

inductive Object where
  | alive
  | destroyed
  deriving DecidableEq

structure Memory where
  /-- In the order of their construction; `none` where the destructor has run. -/
  handles : List (Option Handle)
  weakHandles : List (Option Handle)
  /-- In the order of `new RefCount()`; `none` where deleted. -/
  counters : List (Option RefCount)
  objects : List Object
  /-- The pointers that `release` has handed to its callers. -/
  released : List Nat
  deriving DecidableEq

namespace Memory

def empty : Memory := ⟨[], [], [], [], []⟩

def handle (m : Memory) (i : Nat) : Option Handle := m.handles[i]?.join

def counterAt (m : Memory) (c : Nat) : Option RefCount := m.counters[c]?.join

def setHandle (m : Memory) (i : Nat) (h : Handle) : Memory :=
  { m with handles := m.handles.set i (some h) }

def setCounter (m : Memory) (c : Nat) (r : RefCount) : Memory :=
  { m with counters := m.counters.set c (some r) }

/-- `delete m_Counter` -/
def deleteCounter (m : Memory) (c : Nat) : Option Memory := do
  let _ ← m.counterAt c
  some { m with counters := m.counters.set c none }

/-- `delete m_Ptr` -/
def deletePtr (m : Memory) : Option Nat → Option Memory
  | none => some m
  | some o =>
    if m.objects[o]? = some .alive then some { m with objects := m.objects.set o .destroyed } else none

/-- `new T` -/
def newObject (m : Memory) : Nat × Memory :=
  (m.objects.length, { m with objects := m.objects ++ [.alive] })

/-- A variable comes to life. -/
def newHandle (m : Memory) (h : Handle) : Nat × Memory :=
  (m.handles.length, { m with handles := m.handles ++ [some h] })

/-- The assignments `m_Ptr = ptr`, `m_Counter = new RefCount()` and `m_Counter->InitRef()`. -/
def refPointer (m : Memory) (i : Nat) (ptr : Nat) : Memory :=
  { m with counters := m.counters ++ [some RefCount.create.initRef.2] }.setHandle i
    ⟨some ptr, some m.counters.length⟩

def unref (m : Memory) (i : Nat) : Option Memory := do
  let this ← m.handle i
  match this.counter with
  | none => some m
  | some c => do
    let counter ← m.counterAt c
    let (die, counter) := counter.unreference
    let m := m.setCounter c counter
    if die then do
      let m ← m.deletePtr this.ptr
      let m ← if counter.getWeakReferenceCount = 0 then m.deleteCounter c else some m
      some (m.setHandle i .null)
    else some m

/-- Take the pointer and the counter of the other reference, unless one of them is null,
and count one more reference. -/
def share (m : Memory) (i j : Nat) : Option Memory := do
  let other ← m.handle j
  match other.counter, other.ptr with
  | some c, some o => do
    let counter ← m.counterAt c
    some ((m.setCounter c counter.reference.2).setHandle i ⟨some o, some c⟩)
  | _, _ => some m

def ref (m : Memory) (i j : Nat) : Option Memory := do
  let this ← m.handle i
  let other ← m.handle j
  if other.ptr = this.ptr then some m
  else do
    let m ← m.unref i
    (m.setHandle i .null).share i j

/-- `Reference(const Reference<T>& other)`, and the same for `Reference(Reference<T>&& rhs)`. -/
def copy (m : Memory) (j : Nat) : Option Memory :=
  let (i, m) := m.newHandle .null
  m.ref i j

/-- `Reference(const Reference<U>& moving)`. A cast only gives a null pointer for one. -/
def convert (m : Memory) (j : Nat) : Option Memory := do
  let (i, m) := m.newHandle .null
  let moving ← m.handle j
  let castPointer := moving.ptr
  let m ← m.unref i
  if castPointer ≠ none then do
    let this ← m.handle i
    if moving.ptr = this.ptr then some m else m.share i j
  else some m -- "Failed to cast Reference"

/-- `operator=(const Reference<U>& moving)`. As a `U*` is assigned to `m_Ptr`, the cast goes
to a base class and gives a null pointer only for one. -/
def convertAssign (m : Memory) (i j : Nat) : Option Memory := do
  let moving ← m.handle j
  let castPointer := moving.ptr
  let m ← m.unref i
  if castPointer ≠ none then m.share i j
  else some m -- "Failed to cast Reference"

def reset (m : Memory) (i : Nat) (ptr : Option Nat) : Option Memory := do
  let m ← m.unref i
  match ptr with
  | none => some (m.setHandle i .null)
  | some o => some (m.refPointer i o)

/-- The pointer goes to the caller. -/
def release (m : Memory) (i : Nat) : Option Memory := do
  let this ← m.handle i
  let c ← this.counter
  let counter ← m.counterAt c
  let (die, counter) := counter.unreference
  let m := m.setCounter c counter
  let m := { m with released := this.ptr.toList ++ m.released }
  if die then do
    let m ← m.deleteCounter c
    some (m.setHandle i ⟨none, none⟩)
  else some (m.setHandle i ⟨none, some c⟩)

def swap (m : Memory) (i j : Nat) : Option Memory := do
  let this ← m.handle i
  let other ← m.handle j
  some ((m.setHandle i other).setHandle j this)

/-- The destructor. -/
def destroy (m : Memory) (i : Nat) : Option Memory := do
  let m ← m.unref i
  some { m with handles := m.handles.set i none }

end Memory

/-- The operations on references. -/
inductive Operation where
  /-- `Reference()`, `Reference(nullptr)` -/
  | null
  /-- `Reference(new T)` -/
  | adopt
  | copy (j : Nat)
  | move (j : Nat)
  | convert (j : Nat)
  | assign (i j : Nat)
  | moveAssign (i j : Nat)
  | convertAssign (i j : Nat)
  /-- `operator=(nullptr)` -/
  | assignNull (i : Nat)
  | reset (i : Nat)
  /-- `reset(new T)`, `operator=(new T)` -/
  | resetTo (i : Nat)
  | swap (i j : Nat)
  | release (i : Nat)
  | destroy (i : Nat)

namespace Operation

/-- The variables an operation is about are alive. What is converted is a reference to
another class, and so another variable. -/
def InScope (m : Memory) : Operation → Prop
  | null | adopt => True
  | copy j | move j | convert j => (m.handle j).isSome = true
  | assignNull i | reset i | resetTo i | release i | destroy i => (m.handle i).isSome = true
  | assign i j | moveAssign i j | swap i j => (m.handle i).isSome = true ∧ (m.handle j).isSome = true
  | convertAssign i j => (m.handle i).isSome = true ∧ (m.handle j).isSome = true ∧ i ≠ j

def perform (m : Memory) : Operation → Option Memory
  | null => some (m.newHandle .null).2
  | adopt =>
    let (o, m) := m.newObject
    let (i, m) := m.newHandle .null
    some (m.refPointer i o)
  | copy j | move j => m.copy j
  | convert j => m.convert j
  | assign i j | moveAssign i j => m.ref i j
  | convertAssign i j => m.convertAssign i j
  | assignNull i | reset i => m.reset i none
  | resetTo i =>
    let (o, m) := m.newObject
    m.reset i (some o)
  | swap i j => m.swap i j
  | release i => m.release i
  | destroy i => m.destroy i

end Operation

/-- Programs over references. -/
def references : Runs.System Memory Operation where
  inScope := Operation.InScope
  perform := Operation.perform

end Lumos.Core
