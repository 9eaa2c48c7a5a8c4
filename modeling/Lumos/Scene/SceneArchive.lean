import Lumos.Library.SparseSet
import Lumos.Scene.ComponentArchive

/-!
# `Scene::Serialise` and `Scene::Deserialise`

A scene file holds a version, the name, the identifiers of the registry and one pool after
the other. Pools are loaded into the registry component by component, so that what has been
loaded is there when the archive throws.
-/
namespace Lumos.Serialisation

open Maths Library Library.Archive

variable {K ε : Type}

/-! ## The registry -/

/-- The entities alive and a pool for each component type, which holds components of entities
that are alive. -/
structure Registry (K ε : Type) where
  alive : Finset ε
  pool : (type : ComponentType) → SparseSet ε (Component K ε type)
  owned : ∀ type, ∀ e ∈ (pool type).keys, e ∈ alive

namespace Registry

/-- `registry.assign`, to a registry without components. -/
def assign (entities : Finset ε) : Registry K ε := ⟨entities, fun _ => .empty, by simp [SparseSet.keys]⟩

def empty : Registry K ε := assign ∅

/-- The components of a type in the order of their pool. -/
def components (R : Registry K ε) (type : ComponentType) : List (Component K ε type) :=
  (R.pool type).packed.map Prod.snd

variable [DecidableEq ε]

/-- Give an entity, which is created if need be, a component it does not have. -/
def push (R : Registry K ε) (type : ComponentType) (e : ε) (c : Component K ε type)
    (h : e ∉ (R.pool type).keys) : Registry K ε where
  alive := insert e R.alive
  pool := Function.update R.pool type ((R.pool type).push e c h)
  owned := by
    intro t x hx
    by_cases ht : t = type
    · subst ht
      rw [Function.update_self, SparseSet.keys, SparseSet.packed_push, List.map_append, List.mem_append] at hx
      cases hx with
      | inl hx => exact Finset.mem_insert_of_mem (R.owned t x hx)
      | inr hx => simp_all
    · rw [Function.update_of_ne ht] at hx
      exact Finset.mem_insert_of_mem (R.owned t x hx)

section Lemmas

variable {R : Registry K ε} {type t : ComponentType} {e : ε} {c : Component K ε type}
  (h : e ∉ (R.pool type).keys)

@[simp] theorem packed_push : ((R.push type e c h).pool type).packed = (R.pool type).packed ++ [(e, c)] := by
  simp [push]

theorem pool_push_of_ne (ht : t ≠ type) : (R.push type e c h).pool t = R.pool t :=
  Function.update_of_ne ht _ _

end Lemmas

variable [FloatLiterals K]

/-- `registry.get_or_emplace<Transform>` -/
def getOrEmplaceTransform (R : Registry K ε) (e : ε) : Registry K ε :=
  if h : e ∈ (R.pool .transform).keys then R else R.push .transform e Transform.new h

/-- The types the constructor of `Scene` adds a dependency for. -/
def dependsOnTransform : ComponentType → Bool
  | .physics3D | .physics2D | .camera | .model | .light | .sprite | .animatedSprite => true
  | _ => false

/-- `registry.emplace`, which asserts that there is no such component yet, and the listeners to
the construct signals; `Hierarchy::OnConstruct` is not one of them during a load. -/
def emplace (R : Registry K ε) (type : ComponentType) (e : ε) (c : Component K ε type) :
    Option (Registry K ε) :=
  if h : e ∈ (R.pool type).keys then none
  else
    let R := R.push type e c h
    some (if dependsOnTransform type then R.getOrEmplaceTransform e else R)

end Registry

/-! ## Snapshots -/

section Snapshots

variable [FloatLiterals K] (A : Assets K)

def saveItems {type : ComponentType} : List (ε × Component K ε type) → Option (Saved K ε)
  | [] => some []
  | (e, c) :: items => do
    let saved ← Component.save A type c
    let rest ← saveItems items
    return entry "" (some e) :: saved ++ rest

/-- `snapshot.component` for these types. -/
def savePools (R : Registry K ε) : List ComponentType → Option (Saved K ε)
  | [] => some []
  | type :: types => do
    let items ← saveItems A (R.pool type).packed
    let rest ← savePools R types
    return entry "" (R.pool type).packed.length :: items ++ rest

/-- The entity and, read over an instance, its component. -/
def loadItem (type : ComponentType) (c : Component K ε type) :
    Load K ε (Option ε × Component K ε type) := do
  let e ← nvp ""
  let c ← Component.load A type c
  return (e, c)

variable [DecidableEq ε]

/-- `assign` of the snapshot loader, with a number of components left to load. The same
instance is read into each time. -/
def loadPool (type : ComponentType) :
    Nat → Component K ε type → Registry K ε → Saved K ε → Registry K ε × Except Failure (Saved K ε)
  | 0, _, R, entries => (R, .ok entries)
  | length + 1, c, R, entries =>
    match StateT.run (loadItem A type c) entries with
    | .error f => (R, .error f)
    | .ok ((none, _), _) => (R, .error .fault)
    | .ok ((some e, c), rest) =>
      match R.emplace type e c with
      | none => (R, .error .fault)
      | some R => loadPool type length c R rest

/-- `snapshot_loader.component` for these types. -/
def loadPools : List ComponentType → Registry K ε → Saved K ε → Registry K ε × Except Failure (Saved K ε)
  | [], R, entries => (R, .ok entries)
  | type :: types, R, entries =>
    match StateT.run (nvp "" : Load K ε Nat) entries with
    | .error f => (R, .error f)
    | .ok (length, rest) =>
      match loadPool A type length (Component.new ε type) R rest with
      | (R, .error f) => (R, .error f)
      | (R, .ok rest) => loadPools types R rest

/-- `snapshot_loader.entities`, then the components. -/
def loadEntities (types : List ComponentType) (R : Registry K ε) (entries : Saved K ε) :
    Registry K ε × Except Failure (Saved K ε) :=
  match StateT.run (nvp "" : Load K ε (Finset ε)) entries with
  | .error f => (R, .error f)
  | .ok (entities, rest) => loadPools A types (.assign entities) rest

/-- What is loaded depends on the version of the file; of some versions nothing is. -/
def loadSnapshot (version : Int) (R : Registry K ε) (entries : Saved K ε) :
    Registry K ε × Except Failure (Saved K ε) :=
  if version < 2 then loadEntities A allComponentsV1 R entries
  else if version = 3 then loadEntities A allComponentsV2 R entries
  else if version = 4 then loadEntities A allComponentsV3 R entries
  else (R, .ok entries)

end Snapshots

/-! ## Scenes -/

/-- What `isspace` holds of. -/
def isSpace (c : Char) : Bool := c = ' ' || (9 ≤ c.toNat && c.toNat ≤ 13)

def removeSpaces (s : String) : String := String.ofList (s.toList.filter fun c => !isSpace c)

/-- The entries of the files on disk; a text that is no JSON has none. -/
abbrev Files (K ε : Type) := String → Option (Saved K ε)

structure Scene (K ε : Type) where
  sceneName : String
  sceneSerialisationVersion : Int
  registry : Registry K ε
  /-- Whether `Hierarchy::OnConstruct` listens to the construct signal. -/
  onConstruct : Bool

inductive Outcome where
  | loaded
  | notFound
  | threw
  | faulted
  deriving DecidableEq

def Outcome.ofFailure : Failure → Outcome
  | .exception => .threw
  | .fault => .faulted

namespace Scene

variable [FloatLiterals K] (A : Assets K)

/-- The name, which loses its spaces where it stands, after the path. -/
def filePath (s : Scene K ε) (path : String) (binary : Bool) : String :=
  path ++ removeSpaces s.sceneName ++ if binary then ".bin" else ".lsn"

/-- `output(*this)` and the snapshot. -/
def save (s : Scene K ε) : Option (Saved K ε) := do
  let pools ← savePools A s.registry allComponentsV3
  return entry "Version" (4 : Int) :: entry "Scene Name" s.sceneName :: entry "" s.registry.alive :: pools

/-- `Serialise`: the scene and the files it leaves; `none` where cereal throws. -/
def serialise (s : Scene K ε) (files : Files K ε) (path : String) (binary : Bool) :
    Option (Scene K ε × Files K ε) := do
  let s' := { s with sceneName := removeSpaces s.sceneName }
  let file ← s'.save A
  return (s', Function.update files (s.filePath path binary) (some file))

variable [DecidableEq ε]

/-- `input(*this)` and the snapshot loader. -/
def load (s : Scene K ε) (file : Saved K ε) : Scene K ε × Outcome :=
  match StateT.run (nvp "Version" : Load K ε Int) file with
  | .error f => (s, .ofFailure f)
  | .ok (version, rest) =>
    let s := { s with sceneSerialisationVersion := version }
    match StateT.run (nvp "Scene Name" : Load K ε String) rest with
    | .error f => (s, .ofFailure f)
    | .ok (sceneName, rest) =>
      let s := { s with sceneName }
      match loadSnapshot A version s.registry rest with
      | (registry, .error f) => ({ s with registry }, .ofFailure f)
      | (registry, .ok _) => ({ s with registry }, .loaded)

/-- `SceneGraph::DisableOnConstruct` -/
def disableOnConstruct (s : Scene K ε) (disable : Bool) : Scene K ε := { s with onConstruct := !disable }

/-- The scene when the path of the file has been put together. -/
def clear (s : Scene K ε) : Scene K ε :=
  disableOnConstruct { s with registry := .empty, sceneName := removeSpaces s.sceneName } true

/-- `Deserialise`: the scene it leaves, and how it ends. -/
def deserialise (s : Scene K ε) (files : Files K ε) (path : String) (binary : Bool) :
    Scene K ε × Outcome :=
  match files (s.filePath path binary) with
  | none => (s.clear, .notFound)
  | some file =>
    match s.clear.load A file with
    | (s, .loaded) => (s.disableOnConstruct false, .loaded)
    | (s, outcome) => (s, outcome)

end Scene

end Lumos.Serialisation
