import Lumos.Scene.Hierarchy
import Lumos.Maths.Transform
import Lumos.Scene.HierarchyForest

/-!
# `SceneGraph::Update`

World matrices are written by a flat loop over the entities without a `Hierarchy`, and
by a descent along the `First` and `Next` links from every root that has a `Transform`.
-/
namespace Lumos.Scene.Registry

open Maths

variable {ε K : Type}

/-- The two views `Update` iterates, each in some order. -/
structure Views (R : Registry ε (Transform K)) (nonHierarchyView view : List ε) : Prop where
  nonHierarchy : ∀ e, e ∈ nonHierarchyView ↔ e ∈ R.alive ∧ (R.transform e).isSome ∧ R.hierarchy e = none
  hierarchy : ∀ e, e ∈ view ↔ e ∈ R.alive ∧ (R.transform e).isSome ∧ (R.hierarchy e).isSome

/-- The world matrix stored at an entity. -/
def worldOf (R : Registry ε (Transform K)) (e : ε) : Option (Matrix4 K) :=
  (R.transform e).map Transform.worldMatrix

variable [DecidableEq ε]

/-- `registry.try_get<Transform>` -/
def tryGetTransform (R : Registry ε (Transform K)) (e : ε) : Option (Option (Transform K)) :=
  if e ∈ R.alive then some (R.transform e) else none

/-- Write to the `Transform` of `e`, where it has one. -/
def modifyTransform (R : Registry ε (Transform K)) (e : ε) (f : Transform K → Transform K) :
    Registry ε (Transform K) :=
  { R with transform := Function.update R.transform e ((R.transform e).map f) }

theorem transform_modifyTransform {R : Registry ε (Transform K)} {e x : ε} {f : Transform K → Transform K} :
    (R.modifyTransform e f).transform x = if x = e then (R.transform x).map f else R.transform x := by
  by_cases hx : x = e
  · subst hx; simp [modifyTransform]
  · simp [modifyTransform, hx]

variable [CommRing K]

/-- The local matrix an entity has for `GetLocalMatrix`. -/
def localOf (R : Registry ε (Transform K)) (e : ε) : Option (Matrix4 K) :=
  (R.transform e).map fun t => t.getLocalMatrix.1

/-- `UpdateTransform` up to its loop. The reference to the parent's world matrix is read
after the parent's local matrix may have been rebuilt. -/
def placeTransform (R : Registry ε (Transform K)) (entity : ε) (hierarchyComponent : Hierarchy ε) :
    Option (Registry ε (Transform K)) :=
  match R.tryGetTransform entity with
  | none => none
  | some none => some R
  | some (some _) =>
    match hierarchyComponent.parent with
    | none => some (R.modifyTransform entity fun t => t.setWorldMatrix 1)
    | some parent =>
      match R.tryGetTransform parent with
      | none => none
      | some none => some R
      | some (some parentTransform) =>
        some ((R.modifyTransform parent fun t => t.getWorldMatrix.2).modifyTransform entity
          fun t => t.setWorldMatrix parentTransform.getWorldMatrix.1)

mutual

/-- `SceneGraph::UpdateTransform` -/
def updateTransform (fuel : Nat) (R : Registry ε (Transform K)) (entity : ε) :
    Option (Registry ε (Transform K)) :=
  match fuel with
  | 0 => none
  | fuel + 1 =>
    (R.tryGet entity).bind fun hierarchyComponent =>
      match hierarchyComponent with
      | none => some R
      | some hierarchy =>
        (R.placeTransform entity hierarchy).bind fun R => updateChildren fuel R hierarchy.first

/-- `while (child != entt::null)` in `UpdateTransform` -/
def updateChildren (fuel : Nat) (R : Registry ε (Transform K)) (child : Option ε) :
    Option (Registry ε (Transform K)) :=
  match fuel with
  | 0 => none
  | fuel + 1 =>
    match child with
    | none => some R
    | some child =>
      (R.tryGet child).bind fun hierarchyComponent =>
        (updateTransform fuel R child).bind fun R =>
          updateChildren fuel R (hierarchyComponent.bind Hierarchy.next)

end

/-- One entity of the first loop of `Update`. -/
def resetWorldMatrix (R : Registry ε (Transform K)) (entity : ε) : Option (Registry ε (Transform K)) :=
  match R.tryGetTransform entity with
  | some (some _) => some (R.modifyTransform entity fun t => t.setWorldMatrix 1)
  | _ => none

/-- One entity of the second loop of `Update`. -/
def updateRoot (fuel : Nat) (R : Registry ε (Transform K)) (entity : ε) : Option (Registry ε (Transform K)) :=
  match R.tryGet entity with
  | none => none
  | some none => some R
  | some (some hierarchy) =>
    match hierarchy.parent with
    | none => R.updateTransform fuel entity
    | some _ => some R

/-- `SceneGraph::Update` -/
def update (fuel : Nat) (R : Registry ε (Transform K)) (nonHierarchyView view : List ε) :
    Option (Registry ε (Transform K)) :=
  (nonHierarchyView.foldlM resetWorldMatrix R).bind fun R => view.foldlM (updateRoot fuel) R

end Lumos.Scene.Registry

/-!
# What `Update` leaves behind

Every entity the update reaches has its world matrix settled: a root by its own local
matrix, a child by the world matrix its parent ends up with. A child whose parent has no
`Transform` is passed over, and so is everything the update does not reach.
-/
namespace Lumos.Scene

open Maths Loop Registry Relation ParentLinks

variable {ε K : Type} [CommRing K]

/-- From `R` to `R'` the world matrices of the entities in `S` have been settled, and
nothing else that matters here has changed. -/
structure Settled (F : OrderedForest ε) (S : ε → Prop) (R R' : Registry ε (Transform K)) : Prop where
  alive : R'.alive = R.alive
  hierarchy : R'.hierarchy = R.hierarchy
  locals : ∀ x, R'.localOf x = R.localOf x
  others : ∀ x, ¬ S x → R'.worldOf x = R.worldOf x
  root : ∀ x m, S x → F.parent x = none → R.localOf x = some m → R'.worldOf x = some (1 * m)
  link : ∀ x p w m, S x → F.parent x = some p → R'.worldOf p = some w → R.localOf x = some m →
    R'.worldOf x = some (w * m)
  gap : ∀ x p, S x → F.parent x = some p → R.localOf p = none → R'.worldOf x = R.worldOf x

section Settled

variable {F : OrderedForest ε} {S S' : ε → Prop} {R R₁ R' : Registry ε (Transform K)}

theorem localOf_eq_none {x : ε} : R.localOf x = none ↔ R.transform x = none := by simp [localOf]

omit [CommRing K] in
theorem worldOf_eq_none {x : ε} : R.worldOf x = none ↔ R.transform x = none := by simp [worldOf]

theorem Settled.congr (h : Settled F S R R') (heq : ∀ x, S x ↔ S' x) : Settled F S' R R' := by
  have hS : S = S' := by
    funext x
    exact propext (heq x)
  exact hS ▸ h

theorem settled_nothing (hS : ∀ x, ¬ S x) : Settled F S R R where
  alive := rfl
  hierarchy := rfl
  locals := fun _ => rfl
  others := fun _ _ => rfl
  root := fun x _ hx => absurd hx (hS x)
  link := fun x _ _ _ hx => absurd hx (hS x)
  gap := fun x _ hx => absurd hx (hS x)

/-- A second update settles more, as long as it reaches whole subtrees only. -/
theorem Settled.trans (h : Settled F S R R₁) (h' : Settled F S' R₁ R')
    (hclosed : ∀ x p, F.parent x = some p → S' p → S' x) : Settled F (fun x => S x ∨ S' x) R R' where
  alive := h'.alive.trans h.alive
  hierarchy := h'.hierarchy.trans h.hierarchy
  locals := fun x => (h'.locals x).trans (h.locals x)
  others := by
    intro x hx
    rw [not_or] at hx
    exact (h'.others x hx.2).trans (h.others x hx.1)
  root := by
    intro x m hx hp hm
    by_cases hx' : S' x
    · exact h'.root x m hx' hp ((h.locals x).trans hm)
    · rw [h'.others x hx']
      exact h.root x m (hx.resolve_right hx') hp hm
  link := by
    intro x p w m hx hp hw hm
    by_cases hx' : S' x
    · exact h'.link x p w m hx' hp hw ((h.locals x).trans hm)
    · have hpS : ¬ S' p := fun hpS => hx' (hclosed x p hp hpS)
      rw [h'.others p hpS] at hw
      rw [h'.others x hx']
      exact h.link x p w m (hx.resolve_right hx') hp hw hm
  gap := by
    intro x p hx hp hnone
    have hfirst : R₁.worldOf x = R.worldOf x := by
      by_cases hxS : S x
      · exact h.gap x p hxS hp hnone
      · exact h.others x hxS
    by_cases hx' : S' x
    · exact (h'.gap x p hx' hp ((h.locals p).trans hnone)).trans hfirst
    · exact (h'.others x hx').trans hfirst

variable [DecidableEq ε]

theorem Settled.represents (h : Settled F S R R') (hR : Represents R F) : Represents R' F :=
  ⟨fun x hx => h.alive ▸ hR.members x hx, h.hierarchy.trans hR.links⟩

/-- `SetWorldMatrix` at one entity keeps every local matrix. -/
theorem localOf_setWorldMatrix (R : Registry ε (Transform K)) (e x : ε) (mat : Matrix4 K) :
    (R.modifyTransform e fun t => t.setWorldMatrix mat).localOf x = R.localOf x := by
  unfold localOf
  rw [transform_modifyTransform]
  by_cases hx : x = e
  · cases R.transform x <;> simp [hx]
  · simp [hx]

theorem worldOf_setWorldMatrix (R : Registry ε (Transform K)) (e x : ε) (mat : Matrix4 K) :
    (R.modifyTransform e fun t => t.setWorldMatrix mat).worldOf x =
      if x = e then (R.localOf x).map (mat * ·) else R.worldOf x := by
  unfold worldOf localOf
  rw [transform_modifyTransform]
  by_cases hx : x = e
  · cases R.transform x <;> simp [hx]
  · simp [hx]

/-- Reading a world matrix changes no matrix of any entity. -/
theorem localOf_getWorldMatrix (R : Registry ε (Transform K)) (e x : ε) :
    (R.modifyTransform e fun t => t.getWorldMatrix.2).localOf x = R.localOf x := by
  unfold localOf
  rw [transform_modifyTransform]
  by_cases hx : x = e
  · cases R.transform x <;> simp [hx]
  · simp [hx]

theorem worldOf_getWorldMatrix (R : Registry ε (Transform K)) (e x : ε) :
    (R.modifyTransform e fun t => t.getWorldMatrix.2).worldOf x = R.worldOf x := by
  unfold worldOf
  rw [transform_modifyTransform]
  by_cases hx : x = e
  · cases R.transform x <;> simp [hx, Transform.getWorldMatrix]
  · simp [hx]

/-- `SetWorldMatrix` of the identity settles an entity without a parent. -/
theorem settled_root {e : ε} (hp : F.parent e = none) :
    Settled F (· = e) R (R.modifyTransform e fun t => t.setWorldMatrix 1) where
  alive := rfl
  hierarchy := rfl
  locals := fun x => localOf_setWorldMatrix R e x 1
  others := by
    intro x hx
    rw [worldOf_setWorldMatrix, if_neg hx]
  root := by
    intro x m hx _ hm
    rw [worldOf_setWorldMatrix, if_pos hx, hm]
    rfl
  link := by
    intro x p w m hx hxp
    rw [hx, hp] at hxp
    cases hxp
  gap := by
    intro x p hx hxp
    rw [hx, hp] at hxp
    cases hxp

/-- `SetWorldMatrix` of the parent's world matrix settles a child. -/
theorem settled_child {e p : ε} {t : Transform K} (hp : F.parent e = some p) (ht : R.transform p = some t) :
    Settled F (· = e) R ((R.modifyTransform p fun t => t.getWorldMatrix.2).modifyTransform e
      fun s => s.setWorldMatrix t.getWorldMatrix.1) where
  alive := rfl
  hierarchy := rfl
  locals := by
    intro x
    rw [localOf_setWorldMatrix, localOf_getWorldMatrix]
  others := by
    intro x hx
    rw [worldOf_setWorldMatrix, if_neg hx, worldOf_getWorldMatrix]
  root := by
    intro x m hx hroot
    rw [hx, hp] at hroot
    cases hroot
  link := by
    intro x q w m hx hxq hw hm
    have hqp : q = p := by
      rw [hx, hp] at hxq
      exact (Option.some.inj hxq).symm
    have hpe : p ≠ e := by
      intro h
      subst h
      exact F.not_mem_kids_self p (F.mem_kids.mpr hp)
    subst hqp
    rw [worldOf_setWorldMatrix, if_neg hpe, worldOf_getWorldMatrix] at hw
    have hwt : w = t.getWorldMatrix.1 := by
      simpa [worldOf, ht, Transform.getWorldMatrix, eq_comm] using hw
    rw [worldOf_setWorldMatrix, if_pos hx, localOf_getWorldMatrix, hm, hwt]
    rfl
  gap := by
    intro x q hx hxq hnone
    rw [hx, hp] at hxq
    cases hxq
    rw [localOf_eq_none, ht] at hnone
    cases hnone

/-- What `UpdateTransform` does before its loop settles the entity itself. -/
theorem placeTransform_settled {e : ε} (hR : Represents R F) (he : e ∈ F.members) :
    ∃ R', R.placeTransform e (linksAt F e) = some R' ∧ Settled F (· = e) R R' := by
  have hlook : ∀ x ∈ F.members, R.tryGetTransform x = some (R.transform x) := by
    intro x hx
    simp [tryGetTransform, hR.members x hx]
  cases ht : R.transform e with
  | none =>
    refine ⟨R, by simp [placeTransform, hlook e he, ht], rfl, rfl, fun _ => rfl, fun _ _ => rfl, ?_, ?_,
      fun _ _ _ _ _ => rfl⟩
    · intro x m hx _ hm
      rw [hx, localOf_eq_none.mpr ht] at hm
      cases hm
    · intro x p w m hx _ _ hm
      rw [hx, localOf_eq_none.mpr ht] at hm
      cases hm
  | some t =>
    cases hp : F.parent e with
    | none =>
      refine ⟨_, ?_, settled_root hp⟩
      simp [placeTransform, hlook e he, ht, linksAt, hp]
    | some p =>
      have hmp : p ∈ F.members := (F.mem_of_link hp).2
      cases htp : R.transform p with
      | none =>
        refine ⟨R, by simp [placeTransform, hlook e he, ht, linksAt, hp, hlook p hmp, htp], rfl, rfl,
          fun _ => rfl, fun _ _ => rfl, ?_, ?_, fun _ _ _ _ _ => rfl⟩
        · intro x m hx hroot
          rw [hx, hp] at hroot
          cases hroot
        · intro x q w m hx hxq hw
          rw [hx, hp] at hxq
          cases hxq
          rw [worldOf_eq_none.mpr htp] at hw
          cases hw
      | some tp =>
        refine ⟨_, ?_, settled_child hp htp⟩
        simp [placeTransform, hlook e he, ht, linksAt, hp, hlook p hmp, htp]

/-! ## The descent -/

/-- The loop over the rest of a row settles the subtrees below it. -/
theorem updateChildren_settled {e : ε} (front : List ε) {back : List ε} (hkids : F.kids e = front ++ back)
    (hchild : ∀ c ∈ F.kids e, ∀ R : Registry ε (Transform K), Represents R F →
      ∃ R', Finishes (fun fuel => R.updateTransform fuel c) R' ∧ Settled F (F.Below · c) R R')
    (hR : Represents R F) :
    ∃ R', Finishes (fun fuel => R.updateChildren fuel back.head?) R' ∧
      Settled F (fun x => ∃ c ∈ back, F.Below x c) R R' := by
  induction back generalizing front R with
  | nil =>
    refine ⟨R, ?_, settled_nothing (by simp)⟩
    exact Finishes.call (fun _ => by rw [List.head?_nil, updateChildren]) finishes_const
  | cons c back ih =>
    obtain ⟨hparent, hnext, _⟩ := F.sides_of_split hkids
    have hmem : c ∈ F.members := (F.mem_of_link hparent).1
    obtain ⟨R₁, hrun₁, hset₁⟩ := hchild c (F.mem_kids.mpr hparent) R hR
    obtain ⟨R₂, hrun₂, hset₂⟩ := ih (front ++ [c]) (by simp [hkids]) (hset₁.represents hR)
    have hlook : R.tryGet c = some (some (linksAt F c)) := by
      rw [tryGet_of_mem (hR.members c hmem), hR.links, linksOf_of_mem hmem]
    refine ⟨R₂, ?_, (hset₁.trans hset₂ ?_).congr (by simp)⟩
    · refine Finishes.call ?_ (hrun₁.bind (g := fun fuel R => R.updateChildren fuel back.head?) hrun₂)
      intro fuel
      rw [List.head?_cons, updateChildren, hlook]
      simp only [Option.bind_some, show (linksAt F c).next = back.head? from hnext]
    · intro x p hxp hbelow
      obtain ⟨d, hd, hpd⟩ := hbelow
      exact ⟨d, hd, hpd.head hxp⟩

/-- `UpdateTransform` settles the whole subtree of an entity. -/
theorem updateTransform_settled (F : OrderedForest ε) (e : ε) (R : Registry ε (Transform K))
    (hR : Represents R F) (he : e ∈ F.members) :
    ∃ R', Finishes (fun fuel => R.updateTransform fuel e) R' ∧ Settled F (F.Below · e) R R' := by
  refine F.descend (P := fun e => ∀ R : Registry ε (Transform K), Represents R F → e ∈ F.members →
    ∃ R', Finishes (fun fuel => R.updateTransform fuel e) R' ∧ Settled F (F.Below · e) R R') ?_ e R hR he
  intro e ih R hR he
  obtain ⟨R₁, hplace, hset₁⟩ := placeTransform_settled hR he
  obtain ⟨R₂, hrun₂, hset₂⟩ := updateChildren_settled [] rfl
    (fun c hc R hR => ih c hc R hR (F.kids_subset e c hc)) (hset₁.represents hR)
  have hlook : R.tryGet e = some (some (linksAt F e)) := by
    rw [tryGet_of_mem (hR.members e he), hR.links, linksOf_of_mem he]
  refine ⟨R₂, ?_, (hset₁.trans hset₂ ?_).congr fun x => F.below_iff.symm⟩
  · refine Finishes.call ?_ hrun₂
    intro fuel
    rw [updateTransform, hlook]
    simp only [Option.bind_some, hplace]
    rfl
  · intro x p hxp hbelow
    obtain ⟨d, hd, hpd⟩ := hbelow
    exact ⟨d, hd, hpd.head hxp⟩

end Settled

/-! ## The loops of `Update` -/

section Update

variable [DecidableEq ε] {F : OrderedForest ε} {R : Registry ε (Transform K)}

theorem resetWorldMatrix_settled (hR : Represents R F) {plain : List ε}
    (hplain : ∀ e ∈ plain, e ∈ R.alive ∧ (R.transform e).isSome ∧ e ∉ F.members) :
    ∃ R', plain.foldlM resetWorldMatrix R = some R' ∧ Settled F (· ∈ plain) R R' := by
  induction plain generalizing R with
  | nil => exact ⟨R, rfl, settled_nothing (by simp)⟩
  | cons e plain ih =>
    obtain ⟨hlive, hhas, hnot⟩ := hplain e List.mem_cons_self
    obtain ⟨t, ht⟩ := Option.isSome_iff_exists.mp hhas
    have hset := settled_root (R := R) (F.parent_of_not_mem hnot)
    obtain ⟨R₂, hrun₂, hset₂⟩ := ih (hset.represents hR) (by
      intro x hx
      obtain ⟨hxl, hxt, hxm⟩ := hplain x (List.mem_cons_of_mem e hx)
      refine ⟨hxl, ?_, hxm⟩
      rw [transform_modifyTransform]
      split
      · simpa using hxt
      · exact hxt)
    refine ⟨R₂, ?_, (hset.trans hset₂ ?_).congr (by simp)⟩
    · have hstep : R.resetWorldMatrix e = some (R.modifyTransform e fun t => t.setWorldMatrix 1) := by
        simp [resetWorldMatrix, tryGetTransform, hlive, ht]
      rw [List.foldlM_cons, hstep]
      exact hrun₂
    · intro x p hxp hp
      exact absurd (F.mem_of_link hxp).2 (hplain p (List.mem_cons_of_mem e hp)).2.2

theorem updateRoots_settled (hR : Represents R F) {view : List ε} (hview : ∀ e ∈ view, e ∈ F.members) :
    ∃ R', Finishes (fun fuel => view.foldlM (updateRoot fuel) R) R' ∧
      Settled F (fun x => ∃ r ∈ view, F.parent r = none ∧ F.Below x r) R R' := by
  induction view generalizing R with
  | nil => exact ⟨R, finishes_const, settled_nothing (by simp)⟩
  | cons e view ih =>
    have he := hview e List.mem_cons_self
    have hlook : R.tryGet e = some (some (linksAt F e)) := by
      rw [tryGet_of_mem (hR.members e he), hR.links, linksOf_of_mem he]
    have hfirst : ∃ R₁, Finishes (fun fuel => R.updateRoot fuel e) R₁ ∧
        Settled F (fun x => F.parent e = none ∧ F.Below x e) R R₁ := by
      cases hp : F.parent e with
      | none =>
        obtain ⟨R₁, hrun₁, hset₁⟩ := updateTransform_settled F e R hR he
        refine ⟨R₁, ?_, hset₁.congr (by simp)⟩
        simpa [updateRoot, hlook, linksAt, hp] using hrun₁
      | some p =>
        refine ⟨R, ?_, settled_nothing (by simp)⟩
        simpa [updateRoot, hlook, linksAt, hp] using finishes_const
    obtain ⟨R₁, hrun₁, hset₁⟩ := hfirst
    obtain ⟨R₂, hrun₂, hset₂⟩ := ih (hset₁.represents hR) fun x hx => hview x (List.mem_cons_of_mem e hx)
    refine ⟨R₂, ?_, (hset₁.trans hset₂ ?_).congr (by simp)⟩
    · have hrun := hrun₁.bind (g := fun fuel R => view.foldlM (updateRoot fuel) R) hrun₂
      simpa [List.foldlM_cons] using hrun
    · intro x p hxp hbelow
      obtain ⟨r, hr, hroot, hpr⟩ := hbelow
      exact ⟨r, hr, hroot, hpr.head hxp⟩

/-- The entities whose world matrix one `Update` settles. -/
def Reached (F : OrderedForest ε) (plain view : List ε) (x : ε) : Prop :=
  x ∈ plain ∨ ∃ r ∈ view, F.parent r = none ∧ F.Below x r

theorem update_settled (hR : Represents R F) {plain view : List ε} (hviews : R.Views plain view) :
    ∃ R', Finishes (fun fuel => R.update fuel plain view) R' ∧ Settled F (Reached F plain view) R R' := by
  have hnot : ∀ e, R.hierarchy e = none ↔ e ∉ F.members := by
    intro e
    rw [hR.links]
    simp [linksOf]
  have hplain : ∀ e ∈ plain, e ∈ R.alive ∧ (R.transform e).isSome ∧ e ∉ F.members := by
    intro e he
    obtain ⟨hlive, hhas, hnone⟩ := (hviews.nonHierarchy e).mp he
    exact ⟨hlive, hhas, (hnot e).mp hnone⟩
  have hview : ∀ e ∈ view, e ∈ F.members := by
    intro e he
    by_contra hm
    have hsome := ((hviews.hierarchy e).mp he).2.2
    rw [(hnot e).mpr hm] at hsome
    cases hsome
  obtain ⟨R₁, hrun₁, hset₁⟩ := resetWorldMatrix_settled hR hplain
  obtain ⟨R₂, hrun₂, hset₂⟩ := updateRoots_settled (hset₁.represents hR) hview
  refine ⟨R₂, ?_, hset₁.trans hset₂ ?_⟩
  · have hrun := (finishes_const (r := R₁)).bind (g := fun fuel R => view.foldlM (updateRoot fuel) R) hrun₂
    simpa [update, hrun₁] using hrun
  · intro x p hxp hbelow
    obtain ⟨r, hr, hroot, hpr⟩ := hbelow
    exact ⟨r, hr, hroot, hpr.head hxp⟩

end Update

end Lumos.Scene
