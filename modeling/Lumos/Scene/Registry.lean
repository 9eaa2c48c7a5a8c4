import Mathlib.Data.Finset.Card
import Mathlib.Logic.Function.Basic

/-!
# The registry

The part of `entt::registry` that the scene hierarchy is kept in: the entities alive,
the `Hierarchy` and `Transform` pools and the three signals of the `Hierarchy` pool.
An entity handle that is not alive, or a component asked for where there is none, is
undefined behaviour there and a fault here.
-/
namespace Lumos.Scene

/-- The links of one entity; `none` is `entt::null`. -/
structure Hierarchy (ε : Type) where
  parent : Option ε
  first : Option ε
  next : Option ε
  prev : Option ε
  deriving DecidableEq

/-- `Hierarchy(entt::entity p)` -/
def Hierarchy.ofParent {ε : Type} (p : Option ε) : Hierarchy ε := ⟨p, none, none, none⟩

/-- `Hierarchy()` -/
def Hierarchy.new {ε : Type} : Hierarchy ε := .ofParent none

/-- Which handlers `SceneGraph` has connected to the signals of the `Hierarchy` pool. -/
structure HierarchySignals where
  construct : Bool
  update : Bool
  destroy : Bool
  deriving DecidableEq

structure Registry (ε τ : Type) where
  alive : Finset ε
  hierarchy : ε → Option (Hierarchy ε)
  transform : ε → Option τ
  signals : HierarchySignals

namespace Registry

variable {ε τ : Type}

/-- A registry no entity has been created in. -/
def new : Registry ε τ where
  alive := ∅
  hierarchy := fun _ => none
  transform := fun _ => none
  signals := ⟨false, false, false⟩

/-- `m_Parent` of an entity that has the component. -/
def parentOf (R : Registry ε τ) (e : ε) : Option ε := (R.hierarchy e).bind Hierarchy.parent

variable [DecidableEq ε]

/-- `registry.try_get<Hierarchy>`: the component or the null pointer. -/
def tryGet (R : Registry ε τ) (e : ε) : Option (Option (Hierarchy ε)) :=
  if e ∈ R.alive then some (R.hierarchy e) else none

/-- `registry.get<Hierarchy>` -/
def get (R : Registry ε τ) (e : ε) : Option (Hierarchy ε) :=
  if e ∈ R.alive then R.hierarchy e else none

/-- Write to the component of `e`, where it has one. -/
def modify (R : Registry ε τ) (e : ε) (f : Hierarchy ε → Hierarchy ε) : Registry ε τ :=
  { R with hierarchy := Function.update R.hierarchy e ((R.hierarchy e).map f) }

/-- Store a component without publishing a signal. -/
def store (R : Registry ε τ) (e : ε) (h : Option (Hierarchy ε)) : Registry ε τ :=
  { R with hierarchy := Function.update R.hierarchy e h }

/-- `try_get`, then a write unless it gave the null pointer. -/
def patch (R : Registry ε τ) (e : ε) (f : Hierarchy ε → Hierarchy ε) : Option (Registry ε τ) :=
  if e ∈ R.alive then some (R.modify e f) else none

/-- `patch` behind a comparison with `entt::null`. -/
def patchLink (R : Registry ε τ) (link : Option ε) (f : Hierarchy ε → Hierarchy ε) :
    Option (Registry ε τ) :=
  match link with
  | none => some R
  | some e => R.patch e f

/-- `registry.create`; which unused handle it returns is left open. -/
def create (R : Registry ε τ) (e : ε) : Option (Registry ε τ) :=
  if e ∈ R.alive then none else some { R with alive := insert e R.alive }

/-- Turns after which a walk over live entities has met one of them twice and, as it
changes nothing, never ends. -/
def walkBound (R : Registry ε τ) : Nat := R.alive.card + 1

section Lemmas

variable {R : Registry ε τ} {e x : ε} {f : Hierarchy ε → Hierarchy ε} {h : Option (Hierarchy ε)}

theorem tryGet_of_mem (he : e ∈ R.alive) : R.tryGet e = some (R.hierarchy e) := by simp [tryGet, he]

theorem get_of_mem (he : e ∈ R.alive) : R.get e = R.hierarchy e := by simp [get, he]

theorem hierarchy_modify :
    (R.modify e f).hierarchy x = if x = e then (R.hierarchy x).map f else R.hierarchy x := by
  by_cases hx : x = e
  · subst hx; simp [modify]
  · simp [modify, hx]

theorem hierarchy_store :
    (R.store e h).hierarchy x = if x = e then h else R.hierarchy x := by
  by_cases hx : x = e
  · subst hx; simp [store]
  · simp [store, hx]

theorem patch_of_mem (he : e ∈ R.alive) : R.patch e f = some (R.modify e f) := by simp [patch, he]

/-- What a write through a link does to each entity. -/
theorem patchLink_spec {link : Option ε} (hlink : ∀ y, link = some y → y ∈ R.alive)
    (f : Hierarchy ε → Hierarchy ε) :
    ∃ R', R.patchLink link f = some R' ∧ R'.alive = R.alive ∧ R'.transform = R.transform ∧
      R'.signals = R.signals ∧
      ∀ x, R'.hierarchy x = if link = some x then (R.hierarchy x).map f else R.hierarchy x := by
  cases link with
  | none => exact ⟨R, rfl, rfl, rfl, rfl, by simp⟩
  | some y =>
    refine ⟨R.modify y f, patch_of_mem (hlink y rfl), rfl, rfl, rfl, ?_⟩
    intro x
    simp [hierarchy_modify, eq_comm]

end Lemmas

end Registry

end Lumos.Scene
