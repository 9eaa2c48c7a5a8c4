import Lumos.Core.ReferenceHandles

/-!
# The resource manager

Resources are loaded by name and kept in a map, each with a reference of its own. `Update`
erases those whose reference count is one.
-/
namespace Lumos.Utilities

open Lumos.Core (Handle Memory)
open Lumos.Core.Memory (refersTo Holds Spare Sole)

structure ResourceManager where
  /-- All references, those in the map and those of the callers. -/
  memory : Memory
  /-- The variable `data` of each `Resource`. -/
  nameResourceMap : List (String × Nat)
  /-- The names the load function has been called with. -/
  loads : List String
  deriving DecidableEq

namespace ResourceManager

def empty : ResourceManager := ⟨.empty, [], []⟩

/-- `resourceData = Ref<T>(new T)`, what a load function does. -/
def load (m : Memory) (resourceData : Nat) : Option Memory := do
  let (o, m) := m.newObject
  let (temporary, m) := m.newHandle .null
  let m := m.refPointer temporary o
  let m ← m.ref resourceData temporary
  m.destroy temporary

/-- From the declaration of `newResource` to the end of the function, which returns
`resourceData` and destroys both. -/
def addResource (manager : ResourceManager) (m : Memory) (name : String) (resourceData : Nat) :
    Option (Nat × ResourceManager) := do
  let (newResource, m) := m.newHandle .null
  let m ← m.ref newResource resourceData
  let data := m.handles.length
  let m ← m.copy newResource
  let returned := m.handles.length
  let m ← m.copy resourceData
  let m ← m.destroy newResource
  let m ← m.destroy resourceData
  some (returned, { manager with memory := m, nameResourceMap := manager.nameResourceMap ++ [(name, data)] })

/-- `return itr->second.data` -/
def returnData (manager : ResourceManager) (data : Nat) : Option (Nat × ResourceManager) := do
  let returned := manager.memory.handles.length
  let m ← manager.memory.copy data
  some (returned, { manager with memory := m })

/-- `GetResource` of a name. The variable that holds what is returned comes with it. -/
def getResource (manager : ResourceManager) (name : String) : Option (Nat × ResourceManager) :=
  match manager.nameResourceMap.lookup name with
  | some data => manager.returnData data
  | none => do
    let (resourceData, m) := manager.memory.newHandle .null
    let m ← load m resourceData
    { manager with loads := name :: manager.loads }.addResource m name resourceData

/-- `GetResource` of a reference. -/
def getResourceOf (getId : Option Nat → String) (manager : ResourceManager) (data : Nat) :
    Option (Nat × ResourceManager) := do
  let handle ← manager.memory.handle data
  let newId := getId handle.ptr
  match manager.nameResourceMap.lookup newId with
  | none =>
    let resourceData := manager.memory.handles.length
    let m ← manager.memory.copy data
    manager.addResource m newId resourceData
  | some found => manager.returnData found

/-- The loop of `Update`, and what it leaves of the map. -/
def updateLoop : Memory → List (String × Nat) → Option (Memory × List (String × Nat))
  | m, [] => some (m, [])
  | m, (name, data) :: rest => do
    let handle ← m.handle data
    let counter ← handle.counter
    let refCount ← m.counterAt counter
    if refCount.getReferenceCount = 1 then do
      let m ← m.destroy data
      updateLoop m rest
    else do
      let (m, kept) ← updateLoop m rest
      some (m, (name, data) :: kept)

def update (manager : ResourceManager) : Option ResourceManager := do
  let (m, kept) ← updateLoop manager.memory manager.nameResourceMap
  some { manager with memory := m, nameResourceMap := kept }

/-- What the callers do: the functions of the manager, and what they do to references of
their own. -/
inductive Call where
  | getResource (name : String)
  | getResourceOf (data : Nat)
  | update
  /-- `Ref<T>()` -/
  | null
  /-- `Ref<T>(new T)` -/
  | adopt
  | copy (j : Nat)
  | assign (i j : Nat)
  /-- The destructor. -/
  | drop (i : Nat)

/-- A reference of a caller. -/
def Own (manager : ResourceManager) (i : Nat) : Prop :=
  (manager.memory.handle i).isSome = true ∧ i ∉ manager.nameResourceMap.map Prod.snd

def InScope (manager : ResourceManager) : Call → Prop
  | .getResource _ | .update | .null | .adopt => True
  | .getResourceOf i | .copy i | .drop i => manager.Own i
  | .assign i j => manager.Own i ∧ manager.Own j

def perform (getId : Option Nat → String) (manager : ResourceManager) : Call → Option ResourceManager
  | .getResource name => (manager.getResource name).map Prod.snd
  | .getResourceOf data => (manager.getResourceOf getId data).map Prod.snd
  | .update => manager.update
  | .null => some { manager with memory := (manager.memory.newHandle .null).2 }
  | .adopt =>
    let (o, m) := manager.memory.newObject
    let (i, m) := m.newHandle .null
    some { manager with memory := m.refPointer i o }
  | .copy j => (manager.memory.copy j).map fun m => { manager with memory := m }
  | .assign i j => (manager.memory.ref i j).map fun m => { manager with memory := m }
  | .drop i => (manager.memory.destroy i).map fun m => { manager with memory := m }

/-- The programs over a resource manager. -/
def programs (getId : Option Nat → String) : Runs.System ResourceManager Call where
  inScope := InScope
  perform := perform getId

/-- The object that is stored under a name. -/
def stored (manager : ResourceManager) (name : String) : Option Nat :=
  (manager.nameResourceMap.lookup name).bind fun data => (manager.memory.handle data).bind Handle.ptr

/-- A caller has a reference to the object. -/
def Held (manager : ResourceManager) (o : Nat) : Prop :=
  ∃ i handle, manager.memory.handle i = some handle ∧ handle.ptr = some o ∧ manager.Own i

/-- What is expected of a call. -/
structure Proper (getId : Option Nat → String) (manager : ResourceManager) (call : Call)
    (after : ResourceManager) : Prop where
  /-- Only `Update` erases entries, -/
  kept : call ≠ .update → ∀ name o, manager.stored name = some o → after.stored name = some o
  /-- and it erases exactly those nobody holds. -/
  erased : call = .update → ∀ name o, manager.stored name = some o →
    (manager.Held o → after.stored name = some o) ∧ (¬ manager.Held o → after.stored name = none)
  /-- What is stored is not loaded again. -/
  loaded : ∀ name o, manager.stored name = some o → after.loads.count name = manager.loads.count name
  /-- What is stored is what is returned. -/
  returned : ∀ name, call = .getResource name → ∀ o, manager.stored name = some o →
    ∃ i, manager.getResource name = some (i, after) ∧ after.memory.handle i = refersTo o
  returnedOf : ∀ data, call = .getResourceOf data → ∀ handle, manager.memory.handle data = some handle →
    ∀ o, manager.stored (getId handle.ptr) = some o →
    ∃ i, manager.getResourceOf getId data = some (i, after) ∧ after.memory.handle i = refersTo o

/-- No object is near the end of its count, and no null reference is added. -/
def Countable (manager : ResourceManager) (call : Call) : Prop :=
  (∀ k, manager.memory.holders k + 8 < 2 ^ 32) ∧
    ∀ data handle, call = .getResourceOf data → manager.memory.handle data = some handle → handle.ptr ≠ none

/-- When `Update` is called, what nobody holds is stored under one name only. -/
def OneName (manager : ResourceManager) (call : Call) : Prop :=
  call = .update → ∀ name name' o, manager.stored name = some o → manager.stored name' = some o →
    ¬ manager.Held o → name = name'

end ResourceManager

end Lumos.Utilities
