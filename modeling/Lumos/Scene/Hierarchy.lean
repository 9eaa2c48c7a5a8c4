import Lumos.Scene.Registry
import Lumos.Library.Loop

/-!
# The hierarchy handlers

`Hierarchy::OnConstruct`, `OnUpdate`, `OnDestroy` and `Reparent`, the registry calls
that publish them, and the members of `Entity` that walk along the links.
-/
namespace Lumos.Scene

open Loop

variable {ε τ : Type} [DecidableEq ε]

namespace Registry

/-! ## Leaving a row -/

/-- The first branch of `OnUpdate` and `OnDestroy`: `entity` is the first child. -/
def unlinkFirst (checked : Bool) (R : Registry ε τ) (hierarchy : Hierarchy ε) : Option (Registry ε τ) :=
  match hierarchy.parent with
  | none => some R
  | some p =>
    if checked ∧ p ∉ R.alive then some R
    else
      match R.tryGet p with
      | none => none
      | some none => some R
      | some (some _) =>
        (R.modify p fun h => { h with first := hierarchy.next }).patchLink hierarchy.next
          fun h => { h with prev := none }

/-- Take `entity` out of the row of its parent. Its own links stay as they are. -/
def unlink (checked : Bool) (R : Registry ε τ) (entity : ε) : Option (Registry ε τ) :=
  match R.get entity with
  | none => none
  | some hierarchy =>
    match hierarchy.prev with
    | none => R.unlinkFirst checked hierarchy
    | some prev =>
      if checked ∧ prev ∉ R.alive then R.unlinkFirst checked hierarchy
      else
        match R.patch prev fun h => { h with next := hierarchy.next } with
        | none => none
        | some R => R.patchLink hierarchy.next fun h => { h with prev := hierarchy.prev }

/-- `Hierarchy::OnUpdate`, which does not ask whether a link is still valid. -/
def onUpdate (R : Registry ε τ) (entity : ε) : Option (Registry ε τ) := R.unlink false entity

/-- `Hierarchy::OnDestroy` -/
def onDestroy (R : Registry ε τ) (entity : ε) : Option (Registry ε τ) := R.unlink true entity

/-! ## Entering a row -/

/-- One turn of the walk to the last child: the entity reached and its component. -/
def lastChildBody (R : Registry ε τ) :
    Body (ε × Option (Hierarchy ε)) (ε × Option (Hierarchy ε)) := fun s =>
  match s.2.bind Hierarchy.next with
  | none => some (.inr s)
  | some next => (R.tryGet next).map fun current => .inl (next, current)

/-- Put `entity` behind the last child that starts the row `first`. The pointer to the
last child's component is followed without a check. -/
def appendChild (R : Registry ε τ) (entity first : ε) : Option (Registry ε τ) :=
  match R.tryGet first with
  | none => none
  | some current =>
    match run R.lastChildBody R.walkBound (first, current) with
    | none => none
    | some (_, none) => none
    | some (prevEnt, some _) =>
      some ((R.modify prevEnt fun h => { h with next := some entity }).modify entity
        fun h => { h with prev := some prevEnt })

/-- `registry.get_or_emplace<Hierarchy>`, where `construct` is the handler connected. -/
def getOrEmplace (construct : Registry ε τ → ε → Option (Registry ε τ)) (R : Registry ε τ) (p : ε) :
    Option (Registry ε τ) :=
  match R.tryGet p with
  | none => none
  | some (some _) => some R
  | some none =>
    let R := R.store p (some .new)
    if R.signals.construct then construct R p else some R

/-- `Hierarchy::OnConstruct`. The parent's component is made when it is missing, and
its own handler then runs; `depth` bounds these nested calls. -/
def onConstruct (depth : Nat) (R : Registry ε τ) (entity : ε) : Option (Registry ε τ) :=
  match depth with
  | 0 => none
  | depth + 1 =>
    match R.get entity with
    | none => none
    | some hierarchy =>
      match hierarchy.parent with
      | none => some R
      | some p =>
        match R.getOrEmplace (fun R p => onConstruct depth R p) p with
        | none => none
        | some R =>
          match R.get p with
          | none => none
          | some parentHierarchy =>
            match parentHierarchy.first with
            | none => some (R.modify p fun h => { h with first := some entity })
            | some first => R.appendChild entity first

/-- `Hierarchy::Reparent`; `OnConstruct` can nest once only, as the component it makes
for a parent has no parent itself. -/
def reparent (R : Registry ε τ) (entity : ε) (parent : Option ε) : Option (Registry ε τ) :=
  match R.onDestroy entity with
  | none => none
  | some R =>
    let R := R.modify entity fun h => { h with parent := none, next := none, prev := none }
    match parent with
    | none => some R
    | some p => (R.modify entity fun h => { h with parent := some p }).onConstruct 2 entity

/-! ## Signals -/

/-- `registry.emplace<Hierarchy>` -/
def emplace (R : Registry ε τ) (entity : ε) (hierarchy : Hierarchy ε) : Option (Registry ε τ) :=
  match R.tryGet entity with
  | some none =>
    let R := R.store entity (some hierarchy)
    if R.signals.construct then R.onConstruct 2 entity else some R
  | _ => none

/-- `registry.remove<Hierarchy>`: the signal first, then the component goes. -/
def remove (R : Registry ε τ) (entity : ε) : Option (Registry ε τ) :=
  match R.get entity with
  | none => none
  | some _ =>
    (if R.signals.destroy then R.onDestroy entity else some R).map fun R => R.store entity none

/-- `registry.destroy`: every component is removed, then the handle goes. -/
def destroy (R : Registry ε τ) (entity : ε) : Option (Registry ε τ) :=
  match R.tryGet entity with
  | none => none
  | some hierarchy =>
    (if hierarchy.isSome then R.remove entity else some R).map fun R =>
      { R with
        alive := R.alive.erase entity
        transform := Function.update R.transform entity none }

/-! ## `Entity` -/

/-- One turn of the climb in `IsParent`. -/
def isParentBody (R : Registry ε τ) (potentialParent : ε) : Body (Option ε) Bool := fun parent =>
  match parent with
  | none => some (.inr false)
  | some p =>
    if p = potentialParent then some (.inr true)
    else (R.tryGet p).map fun hierarchy => .inl (hierarchy.bind Hierarchy.parent)

/-- `Entity::IsParent`: whether `potentialParent` lies above `entity`. -/
def isParent (R : Registry ε τ) (entity potentialParent : ε) : Option Bool :=
  match R.tryGet entity with
  | none => none
  | some hierarchy => run (R.isParentBody potentialParent) R.walkBound (hierarchy.bind Hierarchy.parent)

/-- `Entity::SetParent` -/
def setParent (R : Registry ε τ) (entity parent : ε) : Option (Registry ε τ) :=
  match R.tryGet entity with
  | none => none
  | some none => if parent = entity then some R else R.emplace entity (.ofParent (some parent))
  | some (some hierarchy) =>
    if parent = entity then some R
    else
      match R.isParent parent entity with
      | none => none
      | some above =>
        if above ∨ hierarchy.parent = some entity then some R else R.reparent entity (some parent)

/-- One turn of the walk in `GetChildren`. A child without the component is met again. -/
def getChildrenBody (R : Registry ε τ) : Body (Option ε × List ε) (List ε) := fun s =>
  match s.1 with
  | none => some (.inr s.2)
  | some child =>
    if child ∉ R.alive then some (.inr s.2)
    else
      match R.hierarchy child with
      | none => some (.inl (some child, s.2 ++ [child]))
      | some hierarchy => some (.inl (hierarchy.next, s.2 ++ [child]))

/-- `Entity::GetChildren` -/
def getChildren (R : Registry ε τ) (entity : ε) : Option (List ε) :=
  match R.tryGet entity with
  | none => none
  | some none => some []
  | some (some hierarchy) => run R.getChildrenBody R.walkBound (hierarchy.first, [])

end Registry

/-- All three handlers are connected. -/
def Registry.Connected (R : Registry ε τ) : Prop := R.signals = ⟨true, true, true⟩

/-- `SceneGraph::Init` -/
def SceneGraph.init (R : Registry ε τ) : Registry ε τ := { R with signals := ⟨true, true, true⟩ }

end Lumos.Scene
