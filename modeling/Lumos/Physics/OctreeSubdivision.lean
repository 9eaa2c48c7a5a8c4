import Mathlib.Data.Fintype.Basic
import Mathlib.Data.List.Forall2
import Mathlib.Tactic.FinCases
import Lumos.Library.Subdivision
import Lumos.Physics.OctreeBroadphase

/-!
# What `Divide` does

A cell is a box with the bodies in it. `Divide` carries out the subdivision of crowded
cells: the pool grows by eight nodes for each of them, and the leaf list names nodes that
hold the leaves of the subdivision. Where the pool has no room for that it is out of
bounds.
-/
namespace Lumos.Physics

open Maths Subdivision FixedArray OctreeBroadphase

variable {β C : Type}

section Octants

variable [Coordinate C]

/-- Along each axis an octant takes the lower or the upper half. -/
theorem division_halves (box : BoundingBox C) (i : Fin 8) (axis : Fin 3) :
    ((division box i).min.get axis = box.min.get axis ∧
        (division box i).max.get axis = box.center.get axis) ∨
      ((division box i).min.get axis = box.center.get axis ∧
        (division box i).max.get axis = box.max.get axis) := by
  fin_cases i <;> fin_cases axis <;> first
    | exact .inl ⟨rfl, rfl⟩
    | exact .inr ⟨rfl, rfl⟩

/-- Every point of a box lies in one of its octants, wherever the center may be. -/
theorem exists_division {box : BoundingBox C} {p : Vector3 C} (h : box.Contains p) :
    ∃ i, (division box i).Contains p := by
  obtain ⟨⟨hx, hx'⟩, ⟨hy, hy'⟩, ⟨hz, hz'⟩⟩ := Vector3.forall_axis.mp h
  rcases le_total p.x box.center.x with hcx | hcx <;>
    rcases le_total p.y box.center.y with hcy | hcy <;>
      rcases le_total p.z box.center.z with hcz | hcz
  · exact ⟨0, Vector3.forall_axis.mpr ⟨⟨hx, hcx⟩, ⟨hy, hcy⟩, ⟨hz, hcz⟩⟩⟩
  · exact ⟨4, Vector3.forall_axis.mpr ⟨⟨hx, hcx⟩, ⟨hy, hcy⟩, ⟨hcz, hz'⟩⟩⟩
  · exact ⟨2, Vector3.forall_axis.mpr ⟨⟨hx, hcx⟩, ⟨hcy, hy'⟩, ⟨hz, hcz⟩⟩⟩
  · exact ⟨6, Vector3.forall_axis.mpr ⟨⟨hx, hcx⟩, ⟨hcy, hy'⟩, ⟨hcz, hz'⟩⟩⟩
  · exact ⟨1, Vector3.forall_axis.mpr ⟨⟨hcx, hx'⟩, ⟨hy, hcy⟩, ⟨hz, hcz⟩⟩⟩
  · exact ⟨5, Vector3.forall_axis.mpr ⟨⟨hcx, hx'⟩, ⟨hy, hcy⟩, ⟨hcz, hz'⟩⟩⟩
  · exact ⟨3, Vector3.forall_axis.mpr ⟨⟨hcx, hx'⟩, ⟨hcy, hy'⟩, ⟨hz, hcz⟩⟩⟩
  · exact ⟨7, Vector3.forall_axis.mpr ⟨⟨hcx, hx'⟩, ⟨hcy, hy'⟩, ⟨hcz, hz'⟩⟩⟩

end Octants

structure Cell (β C : Type) where
  boundingBox : BoundingBox C
  physicsObjects : List β

namespace Cell

section

variable [Coordinate C] (bodies : β → RigidBody3D C)

/-- The bodies that `IsInsideFast` does not find outside. -/
def touches (box : BoundingBox C) (b : β) : Bool :=
  decide (box.isInsideFast (bodies b).worldSpaceAABB ≠ .outside)

def child (c : Cell β C) (i : Fin 8) : Cell β C :=
  ⟨division c.boundingBox i, c.physicsObjects.filter (touches bodies (division c.boundingBox i))⟩

end

def Crowded (maxObjectsPerPartition : Nat) (c : Cell β C) : Prop :=
  maxObjectsPerPartition < c.physicsObjects.length

/-- `PhysicsObjectCount != 0` -/
def occupied (c : Cell β C) : Bool := decide (c.physicsObjects.length ≠ 0)

instance (maxObjectsPerPartition : Nat) :
    DecidablePred (Crowded maxObjectsPerPartition : Cell β C → Prop) :=
  fun c => inferInstanceAs (Decidable (_ < c.physicsObjects.length))

variable [Coordinate C] (bodies : β → RigidBody3D C)

/-- The leaves of the subdivision that hold a body. -/
def occupiedLeaves (maxObjectsPerPartition levels : Nat) (c : Cell β C) : List (Cell β C) :=
  (leaves (child bodies) (Crowded maxObjectsPerPartition) levels c).filter occupied

/-- The number of nodes the subdivision puts behind the one it starts from. -/
def nodesBelow (maxObjectsPerPartition levels : Nat) (c : Cell β C) : Nat :=
  8 * divisions (child bodies) (Crowded maxObjectsPerPartition) levels c

variable {bodies}

theorem crowded_of_child {maxObjectsPerPartition : Nat} (c : Cell β C) (i : Fin 8)
    (h : Crowded maxObjectsPerPartition (c.child bodies i)) : Crowded maxObjectsPerPartition c :=
  Nat.lt_of_lt_of_le h (List.length_filter_le ..)

theorem nodesBelow_crowded {maxObjectsPerPartition levels : Nat} {c : Cell β C}
    (h : Crowded maxObjectsPerPartition c) :
    nodesBelow bodies maxObjectsPerPartition (levels + 1) c =
      ((List.finRange 8).map fun i =>
        nodesBelow bodies maxObjectsPerPartition levels (c.child bodies i) + 1).sum := by
  rw [nodesBelow, divisions_crowded h]
  simp only [nodesBelow, List.finRange_succ, List.finRange_zero, List.map_cons, List.map_nil,
    List.sum_cons, List.sum_nil]
  omega

theorem occupiedLeaves_crowded {maxObjectsPerPartition levels : Nat} {c : Cell β C}
    (h : Crowded maxObjectsPerPartition c) :
    occupiedLeaves bodies maxObjectsPerPartition (levels + 1) c =
      (List.finRange 8).flatMap fun i =>
        occupiedLeaves bodies maxObjectsPerPartition levels (c.child bodies i) := by
  rw [occupiedLeaves, leaves_crowded h, List.filter_flatMap]
  rfl

end Cell

/-- Node `k` holds the cell. -/
structure Holds (o : OctreeBroadphase β C) (k : PoolIndex) (c : Cell β C) : Prop where
  index : (o.nodePool k).index = k
  physicsObjects : (o.nodePool k).physicsObjects = c.physicsObjects.map some
  boundingBox : (o.nodePool k).boundingBox = c.boundingBox

/-- Node `k` is in use, holds the cell and is about to be divided. -/
structure Ready (o : OctreeBroadphase β C) (k : PoolIndex) (c : Cell β C) : Prop where
  holds : Holds o k c
  used : k.val < o.currentPoolIndex
  pool : o.currentPoolIndex ≤ poolSize
  room : c.physicsObjects.length ≤ maxObjectsPerNode

/-- From `o` to `o'` so many nodes have been put behind those in use, only node `k` of the
latter has changed, and the leaves found, `new`, hold the cells. -/
structure Grows (o o' : OctreeBroadphase β C) (k : PoolIndex) (nodes : Nat)
    (new : List PoolIndex) (cells : List (Cell β C)) : Prop where
  pool : o'.currentPoolIndex = o.currentPoolIndex + nodes
  others : ∀ j : PoolIndex, j.val < o.currentPoolIndex → j ≠ k → o'.nodePool j = o.nodePool j
  node : ∀ c, Holds o k c → Holds o' k c
  leaves : o'.leaves = o.leaves ++ new
  distinct : new.Nodup
  below : ∀ j ∈ new, j.val < o'.currentPoolIndex
  cells : List.Forall₂ (Holds o') new cells
  leafCount : o'.leaves.length ≤ o'.currentPoolIndex

theorem Holds.congr {o o' : OctreeBroadphase β C} {k : PoolIndex} {c : Cell β C} (h : Holds o k c)
    (heq : o'.nodePool k = o.nodePool k) : Holds o' k c :=
  ⟨heq ▸ h.index, heq ▸ h.physicsObjects, heq ▸ h.boundingBox⟩

theorem Holds.congr_all {o o' : OctreeBroadphase β C} {ks : List PoolIndex} {cells : List (Cell β C)}
    (h : List.Forall₂ (Holds o) ks cells) (heq : ∀ k ∈ ks, o'.nodePool k = o.nodePool k) :
    List.Forall₂ (Holds o') ks cells := by
  induction h with
  | nil => exact .nil
  | cons hfirst _ ih =>
    exact .cons (hfirst.congr (heq _ List.mem_cons_self)) (ih fun k hk => heq k (List.mem_cons_of_mem _ hk))

variable [Coordinate C] {bodies : β → RigidBody3D C}

theorem foldlM_addInside (box : BoundingBox C) {objects : List β}
    (hroom : objects.length ≤ maxObjectsPerNode) :
    (objects.map some).foldlM (addInside bodies box) [] =
      some ((objects.filter (Cell.touches bodies box)).map some) := by
  have hstep : (fun used b => addInside bodies box used (some b)) =
      fun used b => if Cell.touches bodies box b then push maxObjectsPerNode used (some b)
        else some used := by
    funext used b
    simp [addInside, Cell.touches]
  have hfits := (List.length_filter_le (Cell.touches bodies box) objects).trans hroom
  rw [List.foldlM_map, hstep, foldlM_push_filter _ _ _ _ _ (Nat.zero_le _), if_pos (by simpa using hfits)]
  rfl

/-- The node pool with `node` put behind the nodes in use as a child of node `k`. -/
def withChild (o : OctreeBroadphase β C) (k new : PoolIndex) (node : OctreeNode β C) :
    OctreeBroadphase β C :=
  { o with
    currentPoolIndex := o.currentPoolIndex + 1
    nodePool := Function.update (Function.update o.nodePool k
      { o.nodePool k with childNodeIndices := (o.nodePool k).childNodeIndices ++ [new] }) new node }

section WithChild

variable (o : OctreeBroadphase β C) (k new : PoolIndex) (node : OctreeNode β C)

omit [Coordinate C]

@[simp] theorem nodePool_withChild_new : (withChild o k new node).nodePool new = node := by
  simp [withChild]

theorem nodePool_withChild_parent (h : k ≠ new) :
    (withChild o k new node).nodePool k =
      { o.nodePool k with childNodeIndices := (o.nodePool k).childNodeIndices ++ [new] } := by
  simp [withChild, h]

theorem nodePool_withChild_other {j : PoolIndex} (hk : j ≠ k) (hnew : j ≠ new) :
    (withChild o k new node).nodePool j = o.nodePool j := by
  simp [withChild, hk, hnew]

end WithChild

/-- What "Create Child" leaves for the call that follows it. -/
structure Creates (bodies : β → RigidBody3D C) (o o' : OctreeBroadphase β C) (k : PoolIndex)
    (c : Cell β C) (i : Fin 8) (new : PoolIndex) : Prop where
  behind : new.val = o.currentPoolIndex
  pool : o'.currentPoolIndex = o.currentPoolIndex + 1
  leaves : o'.leaves = o.leaves
  others : ∀ j : PoolIndex, j.val < o.currentPoolIndex → j ≠ k → o'.nodePool j = o.nodePool j
  node : ∀ c, Holds o k c → Holds o' k c
  childNodeIndices : (o'.nodePool k).childNodeIndices = (o.nodePool k).childNodeIndices ++ [new]
  ready : Ready o' new (c.child bodies i)
  childless : (o'.nodePool new).childNodeIndices = []

theorem createChild_spec (bodies : β → RigidBody3D C) {o : OctreeBroadphase β C} {k : PoolIndex} {c : Cell β C} (i : Fin 8)
    (h : Ready o k c) (hpool : o.currentPoolIndex < poolSize)
    (hchildren : (o.nodePool k).childNodeIndices.length < 8) :
    ∃ new o', createChild bodies k i o = some (new, o') ∧ Creates bodies o o' k c i new := by
  let new : PoolIndex := ⟨o.currentPoolIndex, hpool⟩
  have hbehind : ∀ j : PoolIndex, j.val < o.currentPoolIndex → j ≠ new := by
    intro j hj heq
    exact absurd (congrArg Fin.val heq) (Nat.ne_of_lt hj)
  let node : OctreeNode β C :=
    ⟨new, [], (c.child bodies i).physicsObjects.map some, (c.child bodies i).boundingBox⟩
  refine ⟨new, withChild o k new node, ?_, ?_⟩
  · have hbox : division (o.nodePool k).boundingBox i = (c.child bodies i).boundingBox := by
      rw [h.holds.boundingBox]
      rfl
    have hinside : (o.nodePool k).physicsObjects.foldlM (addInside bodies (c.child bodies i).boundingBox) [] =
        some ((c.child bodies i).physicsObjects.map some) := by
      rw [h.holds.physicsObjects]
      exact foldlM_addInside _ h.room
    simp only [createChild, dif_pos hpool, push_of_lt hchildren, hbox, hinside, Option.bind_eq_bind,
      Option.bind_some]
    rfl
  · have hparent := nodePool_withChild_parent o k new node (hbehind k h.used)
    exact {
      behind := rfl
      pool := rfl
      leaves := rfl
      others := fun j hj hjk => nodePool_withChild_other o k new node hjk (hbehind j hj)
      node := fun c' hc' => ⟨by rw [hparent]; exact hc'.index, by rw [hparent]; exact hc'.physicsObjects,
        by rw [hparent]; exact hc'.boundingBox⟩
      childNodeIndices := by rw [hparent]
      ready := {
        holds := ⟨by simp [node], by simp [node], by simp [node]⟩
        used := Nat.lt_succ_self _
        pool := hpool
        room := (List.length_filter_le ..).trans h.room }
      childless := by simp [node] }

omit [Coordinate C] in
theorem addLeaf_spec {o : OctreeBroadphase β C} {k : PoolIndex} {c : Cell β C} (h : Ready o k c)
    (hleaves : o.leaves.length < o.currentPoolIndex) :
    ∃ o' new, addLeaf k o = some o' ∧ Grows o o' k 0 new ([c].filter Cell.occupied) ∧ ∀ j ∈ new, j = k := by
  have hcount : (o.nodePool k).physicsObjects.length = c.physicsObjects.length := by
    rw [h.holds.physicsObjects, List.length_map]
  by_cases hempty : c.physicsObjects.length = 0
  · refine ⟨o, [], by simp [addLeaf, hcount, hempty], ?_, by simp⟩
    have hcells : [c].filter Cell.occupied = [] := by simp [Cell.occupied, hempty]
    rw [hcells]
    exact ⟨rfl, fun _ _ _ => rfl, fun _ hc => hc, (List.append_nil _).symm, List.nodup_nil, by simp, .nil,
      Nat.le_of_lt hleaves⟩
  · have hpush := push_of_lt (Nat.lt_of_lt_of_le hleaves h.pool) k
    refine ⟨{ o with leaves := o.leaves ++ [k] }, [k], ?_, ?_, by simp⟩
    · simp [addLeaf, hcount, hempty, h.holds.index, hpush]
    · have hcells : [c].filter Cell.occupied = [c] := by simp [Cell.occupied, hempty]
      rw [hcells]
      refine ⟨rfl, fun _ _ _ => rfl, fun _ hc => ?_, rfl, List.nodup_singleton k, ?_, ?_, ?_⟩
      · exact hc.congr rfl
      · intro j hj
        rw [List.mem_singleton.mp hj]
        exact h.used
      · exact .cons (h.holds.congr rfl) .nil
      · rw [List.length_append]
        exact hleaves

/-- A child created and divided leaves its parent ready for the next one. -/
theorem Ready.after_child {o o₁ o₂ : OctreeBroadphase β C} {k child : PoolIndex} {c : Cell β C}
    {i : Fin 8} {nodes : Nat} {new : List PoolIndex} {cells : List (Cell β C)} (h : Ready o k c)
    (hcreate : Creates bodies o o₁ k c i child) (hchild : Grows o₁ o₂ child nodes new cells)
    (hfits : o₂.currentPoolIndex ≤ poolSize) :
    o₂.nodePool k = o₁.nodePool k ∧ Ready o₂ k c := by
  have hused := h.used
  have hbehind := hcreate.behind
  have hpool₁ := hcreate.pool
  have hpool₂ := hchild.pool
  have hne : k ≠ child := by
    intro heq
    have hval := congrArg Fin.val heq
    omega
  have hnode : o₂.nodePool k = o₁.nodePool k := hchild.others k (by omega) hne
  exact ⟨hnode, (hcreate.node c h.holds).congr hnode, by omega, hfits, h.room⟩

/-- A child created and divided, then the rest of the loop. -/
theorem Grows.after_child {o o₁ o₂ o' : OctreeBroadphase β C} {k child : PoolIndex} {c : Cell β C}
    {i : Fin 8} {m n : Nat} {new new' : List PoolIndex} {cells cells' : List (Cell β C)}
    (hcreate : Creates bodies o o₁ k c i child) (hk : k.val < o.currentPoolIndex)
    (hchild : Grows o₁ o₂ child m new cells)
    (hnew : ∀ j ∈ new, j = child ∨ o₁.currentPoolIndex ≤ j.val)
    (hrest : Grows o₂ o' k n new' cells') (hnew' : ∀ j ∈ new', o₂.currentPoolIndex ≤ j.val) :
    Grows o o' k (m + 1 + n) (new ++ new') (cells ++ cells') ∧
      ∀ j ∈ new ++ new', o.currentPoolIndex ≤ j.val := by
  have hpool₁ := hcreate.pool
  have hpool₂ := hchild.pool
  have hbehind := hcreate.behind
  have hne : ∀ j : PoolIndex, j.val < o.currentPoolIndex → j ≠ child := by
    intro j hj heq
    have hval := congrArg Fin.val heq
    omega
  have hfrom : ∀ j ∈ new, o.currentPoolIndex ≤ j.val := by
    intro j hj
    cases hnew j hj with
    | inl heq =>
      have hval := congrArg Fin.val heq
      omega
    | inr hle => omega
  have hkept : ∀ j ∈ new, o'.nodePool j = o₂.nodePool j := by
    intro j hj
    apply hrest.others j (hchild.below j hj)
    intro heq
    have hle := hfrom j hj
    have hval := congrArg Fin.val heq
    omega
  refine ⟨?_, ?_⟩
  · refine {
      pool := by rw [hrest.pool, hpool₂, hpool₁]; omega
      others := ?_
      node := ?_
      leaves := by rw [hrest.leaves, hchild.leaves, hcreate.leaves, List.append_assoc]
      distinct := ?_
      below := ?_
      cells := ?_
      leafCount := hrest.leafCount }
    · intro j hj hjk
      rw [hrest.others j (by omega) hjk, hchild.others j (by omega) (hne j hj),
        hcreate.others j hj hjk]
    · intro c' hc'
      exact hrest.node c' ((hcreate.node c' hc').congr (hchild.others k (by omega) (hne k hk)))
    · refine List.nodup_append.mpr ⟨hchild.distinct, hrest.distinct, ?_⟩
      intro j hj j' hj' heq
      have hlt := hchild.below j hj
      have hle := hnew' j' hj'
      rw [heq] at hlt
      omega
    · intro j hj
      cases List.mem_append.mp hj with
      | inl hj =>
        have hlt := hchild.below j hj
        have hgrow := hrest.pool
        omega
      | inr hj => exact hrest.below j hj
    · exact List.rel_append (Holds.congr_all hchild.cells hkept) hrest.cells
  · intro j hj
    cases List.mem_append.mp hj with
    | inl hj => exact hfrom j hj
    | inr hj =>
      have hle := hnew' j hj
      omega

/-- The outcome of `Divide` at node `k`: the nodes and leaves of the subdivision, or out of
bounds where the pool has no room for the nodes. -/
def DividesTo (o : OctreeBroadphase β C) (k : PoolIndex) (nodes : Nat) (cells : List (Cell β C))
    (result : Option (OctreeBroadphase β C)) : Prop :=
  (o.currentPoolIndex + nodes ≤ poolSize →
    ∃ o' new, result = some o' ∧ Grows o o' k nodes new cells ∧
      ∀ j ∈ new, j = k ∨ o.currentPoolIndex ≤ j.val) ∧
  (poolSize < o.currentPoolIndex + nodes → result = none)

section Divide

variable (bodies) (maxObjectsPerPartition levels : Nat)

omit [Coordinate C] in
theorem addLeaf_dividesTo {o : OctreeBroadphase β C} {k : PoolIndex} {c : Cell β C} (h : Ready o k c)
    (hleaves : o.leaves.length < o.currentPoolIndex) :
    DividesTo o k 0 ([c].filter Cell.occupied) (addLeaf k o) := by
  obtain ⟨o', new, hcall, hgrows, hnew⟩ := addLeaf_spec h hleaves
  constructor
  · intro _
    exact ⟨o', new, hcall, hgrows, fun j hj => .inl (hnew j hj)⟩
  · intro hover
    exact absurd h.pool (Nat.not_le.mpr hover)

/-- The loop over the children still to be created, where each call does what it should. -/
theorem divideChildren_spec
    {divideNode : PoolIndex → OctreeBroadphase β C → Option (OctreeBroadphase β C)}
    (hdivide : ∀ o child c, Ready o child c → (o.nodePool child).childNodeIndices = [] →
      o.leaves.length < o.currentPoolIndex →
      DividesTo o child (c.nodesBelow bodies maxObjectsPerPartition levels)
        (c.occupiedLeaves bodies maxObjectsPerPartition levels) (divideNode child o))
    {k : PoolIndex} {c : Cell β C} (indices : List (Fin 8)) (o : OctreeBroadphase β C)
    (h : Ready o k c) (hchildren : (o.nodePool k).childNodeIndices.length + indices.length ≤ 8)
    (hleaves : o.leaves.length ≤ o.currentPoolIndex) :
    let nodes := (indices.map fun i =>
      (c.child bodies i).nodesBelow bodies maxObjectsPerPartition levels + 1).sum
    let cells := indices.flatMap fun i =>
      (c.child bodies i).occupiedLeaves bodies maxObjectsPerPartition levels
    let result := indices.foldlM (divideChild bodies divideNode k) o
    (o.currentPoolIndex + nodes ≤ poolSize →
      ∃ o' new, result = some o' ∧ Grows o o' k nodes new cells ∧
        ∀ j ∈ new, o.currentPoolIndex ≤ j.val) ∧
    (poolSize < o.currentPoolIndex + nodes → result = none) := by
  induction indices generalizing o with
  | nil =>
    refine ⟨fun _ => ⟨o, [], rfl, ?_, by simp⟩, fun hover => absurd h.pool (Nat.not_le.mpr hover)⟩
    exact ⟨rfl, fun _ _ _ => rfl, fun _ hc => hc, (List.append_nil _).symm, List.nodup_nil, by simp,
      .nil, hleaves⟩
  | cons i indices ih =>
    simp only [List.map_cons, List.sum_cons, List.flatMap_cons, List.foldlM_cons, List.length_cons]
      at hchildren ⊢
    by_cases hpool : o.currentPoolIndex < poolSize
    · obtain ⟨child, o₁, hcall, hcreate⟩ := createChild_spec bodies i h hpool (by omega)
      have hturn : divideChild bodies divideNode k o i = divideNode child o₁ := by
        simp [divideChild, hcall]
      have hpool₁ := hcreate.pool
      have hleaves₁ : o₁.leaves.length < o₁.currentPoolIndex := by
        rw [hcreate.leaves]
        omega
      obtain ⟨hfits, hover⟩ := hdivide o₁ child _ hcreate.ready hcreate.childless hleaves₁
      by_cases hchild : o₁.currentPoolIndex +
          (c.child bodies i).nodesBelow bodies maxObjectsPerPartition levels ≤ poolSize
      · obtain ⟨o₂, new, hfirst, hgrows, hnew⟩ := hfits hchild
        have hpool₂ := hgrows.pool
        obtain ⟨hnode, hready⟩ := h.after_child hcreate hgrows (by omega)
        have hchildren₂ : (o₂.nodePool k).childNodeIndices.length + indices.length ≤ 8 := by
          rw [hnode, hcreate.childNodeIndices, List.length_append, List.length_singleton]
          omega
        obtain ⟨hrest, hrestOver⟩ := ih o₂ hready hchildren₂ hgrows.leafCount
        rw [hturn, hfirst, Option.bind_eq_bind, Option.bind_some]
        constructor
        · intro htotal
          obtain ⟨o', new', hrun, hgrows', hnew'⟩ := hrest (by omega)
          obtain ⟨hall, hfrom⟩ := hgrows.after_child hcreate h.used hnew hgrows' hnew'
          exact ⟨o', new ++ new', hrun, hall, hfrom⟩
        · intro htotal
          exact hrestOver (by omega)
      · rw [hturn, hover (by omega)]
        refine ⟨fun htotal => ?_, fun _ => rfl⟩
        omega
    · have hturn : divideChild bodies divideNode k o i = none := by
        simp [divideChild, createChild, hpool]
      rw [hturn]
      refine ⟨fun htotal => ?_, fun _ => rfl⟩
      omega

theorem divide_spec (o : OctreeBroadphase β C) (k : PoolIndex) (c : Cell β C)
    (h : Ready o k c) (hchildless : (o.nodePool k).childNodeIndices = [])
    (hleaves : o.leaves.length < o.currentPoolIndex) :
    DividesTo o k (c.nodesBelow bodies maxObjectsPerPartition levels)
      (c.occupiedLeaves bodies maxObjectsPerPartition levels)
      (divide bodies maxObjectsPerPartition levels k o) := by
  induction levels generalizing o k c with
  | zero => exact addLeaf_dividesTo h hleaves
  | succ levels ih =>
    have hcount : (o.nodePool k).physicsObjects.length = c.physicsObjects.length := by
      rw [h.holds.physicsObjects, List.length_map]
    by_cases hcrowded : c.Crowded maxObjectsPerPartition
    · have hnot : ¬ (o.nodePool k).physicsObjects.length ≤ maxObjectsPerPartition := by
        rw [hcount]
        exact Nat.not_le.mpr hcrowded
      rw [Cell.nodesBelow_crowded hcrowded, Cell.occupiedLeaves_crowded hcrowded, divide, if_neg hnot]
      obtain ⟨hfits, hover⟩ := divideChildren_spec bodies maxObjectsPerPartition levels ih
        (List.finRange 8) o h (by simp [hchildless]) (Nat.le_of_lt hleaves)
      refine ⟨fun htotal => ?_, hover⟩
      obtain ⟨o', new, hcall, hgrows, hfrom⟩ := hfits htotal
      exact ⟨o', new, hcall, hgrows, fun j hj => .inr (hfrom j hj)⟩
    · have hle : (o.nodePool k).physicsObjects.length ≤ maxObjectsPerPartition := by
        rw [hcount]
        exact Nat.not_lt.mp hcrowded
      rw [Cell.nodesBelow, divisions_uncrowded hcrowded, Cell.occupiedLeaves,
        leaves_uncrowded hcrowded, divide, if_pos hle]
      exact addLeaf_dividesTo h hleaves

end Divide

end Lumos.Physics
