import Lumos.Scene.SceneGraph

/-!
# World matrices

Where no `Transform` is missing above another one, an update gives every entity the
product of the local matrices on the way down from its root, and nothing of what was
stored before. Where one is missing, what hangs below the gap is never written.
-/
namespace Lumos.Scene

open Maths Loop Registry Relation ParentLinks

variable {ε K : Type} [CommRing K]

namespace Registry

/-- Every ancestor of an entity with a `Transform` has a `Transform`. -/
def Covered (R : Registry ε (Transform K)) : Prop :=
  ∀ e ∈ R.alive, (R.transform e).isSome → ∀ a, ReflTransGen (Link R.parentOf) e a → (R.transform a).isSome

/-- `M` is the product of the local matrices on the way from the root of `e` to `e`. -/
def PathProduct (R : Registry ε (Transform K)) (e : ε) (M : Matrix4 K) : Prop :=
  ∃ (up : List ε) (locals : List (Matrix4 K)),
    Ascent R.parentOf e up ∧ up.map R.localOf = locals.map some ∧ M = locals.reverse.prod

/-- The registries differ in nothing but the world matrices stored. -/
structure SameButWorlds (R₁ R₂ : Registry ε (Transform K)) : Prop where
  alive : R₂.alive = R₁.alive
  hierarchy : R₂.hierarchy = R₁.hierarchy
  signals : R₂.signals = R₁.signals
  transform : ∀ e, (R₂.transform e).map (fun t => { t with worldMatrix := 1 }) =
    (R₁.transform e).map fun t => { t with worldMatrix := 1 }

end Registry

section Paths

variable {R R' : Registry ε (Transform K)} {e : ε} {M N : Matrix4 K}

theorem Registry.PathProduct.unique (h : R.PathProduct e M) (h' : R.PathProduct e N) : M = N := by
  obtain ⟨up, locals, hup, hlocals, rfl⟩ := h
  obtain ⟨up', locals', hup', hlocals', rfl⟩ := h'
  rw [hup.unique hup', hlocals'] at hlocals
  rw [List.map_injective_iff.mpr (Option.some_injective _) hlocals]

theorem Registry.PathProduct.congr (hparent : R'.parentOf = R.parentOf) (hlocal : R'.localOf = R.localOf) :
    R'.PathProduct e M ↔ R.PathProduct e M := by
  unfold Registry.PathProduct
  rw [hparent, hlocal]

theorem isSome_localOf : (R.localOf e).isSome = (R.transform e).isSome := by simp [localOf]

theorem Registry.Covered.congr (halive : R'.alive = R.alive) (hparent : R'.parentOf = R.parentOf)
    (hlocal : R'.localOf = R.localOf) (h : R.Covered) : R'.Covered := by
  intro x hx hhas a ha
  rw [← isSome_localOf, hlocal, isSome_localOf] at hhas ⊢
  exact h x (halive ▸ hx) hhas a (hparent ▸ ha)

theorem Registry.SameButWorlds.localOf (h : SameButWorlds R R') : R'.localOf = R.localOf := by
  funext x
  have hx := h.transform x
  unfold Registry.localOf
  cases ht : R.transform x with
  | none => simpa [ht] using hx
  | some t =>
    cases ht' : R'.transform x with
    | none => simp [ht, ht'] at hx
    | some t' =>
      rw [ht, ht', Option.map_some, Option.map_some, Option.some.injEq] at hx
      simp [Transform.getLocalMatrix_congr hx]

theorem Registry.SameButWorlds.parentOf (h : SameButWorlds R R') : R'.parentOf = R.parentOf := by
  funext x
  unfold Registry.parentOf
  rw [h.hierarchy]

end Paths

section Update

variable [DecidableEq ε] {F : OrderedForest ε} {R R' : Registry ε (Transform K)} {S : ε → Prop} {e : ε}

omit [DecidableEq ε] in
/-- Along a way up that has been settled the world matrix is the product. -/
theorem Settled.world_eq (h : Settled F S R R') {up : List ε} (hup : Ascent F.parent e up)
    (hS : ∀ x ∈ up, S x) (hlocal : ∀ x ∈ up, (R.localOf x).isSome) :
    ∃ locals : List (Matrix4 K), up.map R.localOf = locals.map some ∧
      R'.worldOf e = some locals.reverse.prod := by
  induction hup with
  | @root e hroot =>
    obtain ⟨m, hm⟩ := Option.isSome_iff_exists.mp (hlocal e (by simp))
    refine ⟨[m], by simp [hm], ?_⟩
    rw [h.root e m (hS e (by simp)) hroot hm]
    simp
  | @link e p up hl hup ih =>
    obtain ⟨locals, hlocals, hworld⟩ := ih (fun x hx => hS x (List.mem_cons_of_mem e hx))
      fun x hx => hlocal x (List.mem_cons_of_mem e hx)
    obtain ⟨m, hm⟩ := Option.isSome_iff_exists.mp (hlocal e (by simp))
    refine ⟨m :: locals, by simp [hm, hlocals], ?_⟩
    rw [h.link e p _ m (hS e (by simp)) hl hworld hm]
    simp

omit [CommRing K] in
/-- Where nothing is missing the update reaches the whole way up. -/
theorem reached_of_covered (hR : Represents R F) (hcovered : R.Covered) {plain view : List ε}
    (hviews : R.Views plain view) (he : e ∈ R.alive) (hhas : (R.transform e).isSome) {up : List ε}
    (hup : Ascent F.parent e up) : ∀ x ∈ up, Reached F plain view x := by
  obtain ⟨r, hr, hroot, hall⟩ := hup.exists_root
  have her := hup.above hr
  have hrhas : (R.transform r).isSome := hcovered e he hhas r (by rw [hR.parentOf]; exact her)
  by_cases hm : e ∈ F.members
  · have hrm : r ∈ F.members := by
      cases her.cases_tail with
      | inl heq => exact heq ▸ hm
      | inr hlast =>
        obtain ⟨c, _, hc⟩ := hlast
        exact (F.mem_of_link hc).2
    have hview : r ∈ view := by
      refine (hviews.hierarchy r).mpr ⟨hR.members r hrm, hrhas, ?_⟩
      rw [hR.links, linksOf_of_mem hrm]
      rfl
    intro x hx
    exact .inr ⟨r, hview, hroot, hall x hx⟩
  · have halone : up = [e] := hup.unique (.root (F.parent_of_not_mem hm))
    intro x hx
    rw [halone, List.mem_singleton] at hx
    refine .inl (hx ▸ (hviews.nonHierarchy e).mpr ⟨he, hhas, ?_⟩)
    rw [hR.links]
    simp [linksOf, hm]

/-- An update of a covered registry writes the path products. -/
theorem update_covered (hR : Represents R F) (hcovered : R.Covered) {plain view : List ε}
    (hviews : R.Views plain view) :
    ∃ R', Finishes (fun fuel => R.update fuel plain view) R' ∧ Settled F (Reached F plain view) R R' ∧
      ∀ e ∈ R.alive, (R.transform e).isSome → ∃ M, R.PathProduct e M ∧ R'.worldOf e = some M := by
  obtain ⟨R', hrun, hset⟩ := update_settled hR hviews
  refine ⟨R', hrun, hset, ?_⟩
  intro e he hhas
  obtain ⟨up, hup⟩ := (F.rooted e).exists_ascent
  have hreached := reached_of_covered hR hcovered hviews he hhas hup
  have hlocal : ∀ x ∈ up, (R.localOf x).isSome := by
    intro x hx
    rw [isSome_localOf]
    exact hcovered e he hhas x (by rw [hR.parentOf]; exact hup.above hx)
  obtain ⟨locals, hlocals, hworld⟩ := hset.world_eq hup hreached hlocal
  exact ⟨_, ⟨up, locals, by rw [hR.parentOf]; exact hup, hlocals, rfl⟩, hworld⟩

omit [DecidableEq ε] in
/-- On every alive entity, two updates that write the same path products agree. -/
theorem worlds_agree (R₁ : Registry ε (Transform K)) {R₁' R₂' : Registry ε (Transform K)}
    (hlocal : ∀ x, R₁'.localOf x = R.localOf x) (hlocal' : ∀ x, R₂'.localOf x = R.localOf x)
    (hproduct : ∀ M, R₁.PathProduct e M ↔ R.PathProduct e M)
    (h : (R.transform e).isSome → ∃ M, R.PathProduct e M ∧ R₁'.worldOf e = some M)
    (h' : (R.transform e).isSome → ∃ M, R₁.PathProduct e M ∧ R₂'.worldOf e = some M) :
    R₁'.worldOf e = R₂'.worldOf e := by
  cases hhas : (R.transform e).isSome with
  | true =>
    obtain ⟨M, hM, hworld⟩ := h hhas
    obtain ⟨N, hN, hworld'⟩ := h' hhas
    rw [hworld, hworld', hM.unique ((hproduct N).mp hN)]
  | false =>
    rw [← isSome_localOf, Option.isSome_eq_false_iff, Option.isNone_iff_eq_none] at hhas
    rw [worldOf_eq_none.mpr (localOf_eq_none.mp ((hlocal e).trans hhas)),
      worldOf_eq_none.mpr (localOf_eq_none.mp ((hlocal' e).trans hhas))]

end Update

/-! ## One update after another -/

section Results

variable [DecidableEq ε]

/-- In a well-formed hierarchy where every ancestor of an entity with a `Transform` has
one, `Update` gives every such entity the product of the local matrices on its path,
whatever order the views are iterated in, and a second `Update` changes no world matrix. -/
theorem update_worlds (R : Registry ε (Transform K)) (hwf : R.WellFormed) (hcovered : R.Covered)
    (plain view : List ε) (hviews : R.Views plain view) :
    ∃ R', Finishes (fun fuel => R.update fuel plain view) R' ∧
      (∀ e ∈ R.alive, (R.transform e).isSome → ∃ M, R.PathProduct e M ∧ R'.worldOf e = some M) ∧
      ∀ plain' view', R'.Views plain' view' →
        ∃ R'', Finishes (fun fuel => R'.update fuel plain' view') R'' ∧
          ∀ e ∈ R.alive, R''.worldOf e = R'.worldOf e := by
  obtain ⟨F, hR⟩ := hwf.exists_forest
  obtain ⟨R', hrun, hset, hworlds⟩ := update_covered hR hcovered hviews
  refine ⟨R', hrun, hworlds, ?_⟩
  intro plain' view' hviews'
  have hR' := hset.represents hR
  have hlocal : R'.localOf = R.localOf := funext hset.locals
  have hparent : R'.parentOf = R.parentOf := by rw [hR'.parentOf, hR.parentOf]
  have hcovered' := hcovered.congr hset.alive hparent hlocal
  obtain ⟨R'', hrun', hset', hworlds'⟩ := update_covered hR' hcovered' hviews'
  refine ⟨R'', hrun', ?_⟩
  intro e he
  refine (worlds_agree (R := R) R' hset.locals (fun x => (hset'.locals x).trans (hset.locals x))
    (fun M => PathProduct.congr hparent hlocal) (hworlds e he) ?_).symm
  intro hhas
  apply hworlds' e (hset.alive ▸ he)
  rw [← isSome_localOf, hlocal, isSome_localOf]
  exact hhas

theorem parent_pair : OrderedForest.empty.parent 1 = none := rfl

theorem apart_pair : ¬ OrderedForest.empty.Below 0 1 := fun h =>
  absurd (OrderedForest.empty.below_of_not_mem (by decide) h) (by decide)

/-- A child below a root, either with or without a `Transform`. -/
def pair (root child : Option (Transform ℤ)) : Registry Nat (Transform ℤ) where
  alive := {0, 1}
  hierarchy := linksOf (OrderedForest.empty.attach 1 0 parent_pair apart_pair)
  transform := fun e => if e = 0 then root else if e = 1 then child else none
  signals := ⟨true, true, true⟩

theorem pair_wellFormed (root child : Option (Transform ℤ)) : (pair root child).WellFormed :=
  have hmembers : ∀ e ∈ (insert 1 (insert 0 ∅) : Finset Nat), e ∈ ({0, 1} : Finset Nat) := by decide
  Represents.wellFormed ⟨hmembers, rfl⟩

theorem pair_views {root child : Option (Transform ℤ)} {view : List Nat}
    (h : ∀ e, e ∈ view ↔ (e = 0 ∧ root.isSome) ∨ (e = 1 ∧ child.isSome)) :
    (pair root child).Views [] view := by
  have halive : ∀ e, e ∈ (pair root child).alive ↔ e = 0 ∨ e = 1 := by simp [pair]
  constructor
  · intro e
    simp only [List.not_mem_nil, false_iff]
    intro hview
    obtain ⟨he, _, hnone⟩ := hview
    rcases (halive e).mp he with rfl | rfl <;> cases hnone
  · intro e
    rw [h e, halive e]
    constructor
    · intro hview
      rcases hview with ⟨rfl, hhas⟩ | ⟨rfl, hhas⟩
      · exact ⟨.inl rfl, hhas, rfl⟩
      · exact ⟨.inr rfl, hhas, rfl⟩
    · intro hview
      obtain ⟨rfl | rfl, hhas, _⟩ := hview
      · exact .inl ⟨rfl, hhas⟩
      · exact .inr ⟨rfl, hhas⟩

/-- Both entities have been moved, and their matrices have not been rebuilt since. -/
def moved : Registry Nat (Transform ℤ) :=
  pair (some (Transform.new.setLocalPosition ⟨1, 0, 0⟩)) (some (Transform.new.setLocalPosition ⟨0, 2, 0⟩))

theorem moved_ascent : Ascent moved.parentOf 1 [1, 0] := .link rfl (.root rfl)

theorem moved_covered : moved.Covered := by
  intro e he _ a ha
  have hmem : a ∈ [1, 0] := by
    simp only [moved, pair, Finset.mem_insert, Finset.mem_singleton] at he
    rcases he with rfl | rfl
    · exact List.mem_cons_of_mem 1 (Ascent.mem_of_above (.root rfl) ha)
    · exact moved_ascent.mem_of_above ha
  simp only [List.mem_cons, List.not_mem_nil, or_false] at hmem
  rcases hmem with rfl | rfl <;> rfl

theorem moved_views : moved.Views [] [1, 0] := pair_views fun e => by simp [or_comm]

theorem update_worlds_moved : moved.WellFormed ∧ moved.Covered ∧ moved.Views [] [1, 0] ∧
    ∃ R', Finishes (fun fuel => moved.update fuel [] [1, 0]) R' ∧
      R'.worldOf 1 = some (Matrix4.translation ⟨1, 2, 0⟩) := by
  have hwf : moved.WellFormed := pair_wellFormed _ _
  obtain ⟨R', hrun, hworlds, _⟩ := update_worlds moved hwf moved_covered [] [1, 0] moved_views
  obtain ⟨M, hM, hworld⟩ := hworlds 1 (by decide) rfl
  have hproduct : moved.PathProduct 1 (Matrix4.translation ⟨1, 2, 0⟩) :=
    ⟨[1, 0], [Matrix4.translation ⟨0, 2, 0⟩, Matrix4.translation ⟨1, 0, 0⟩], moved_ascent,
      by decide, by decide⟩
  exact ⟨hwf, moved_covered, moved_views, R', hrun, hM.unique hproduct ▸ hworld⟩

omit [CommRing K] [DecidableEq ε] in
/-- The views of a registry in one of their orders. -/
theorem exists_views (R : Registry ε (Transform K)) : ∃ plain view, R.Views plain view :=
  ⟨(R.alive.filter fun e => (R.transform e).isSome ∧ R.hierarchy e = none).toList,
    (R.alive.filter fun e => (R.transform e).isSome ∧ (R.hierarchy e).isSome).toList,
    ⟨by simp, by simp⟩⟩

omit [DecidableEq ε] in
/-- Below a gap the world matrix of an earlier frame stays. -/
theorem Settled.stale {F : OrderedForest ε} {S : ε → Prop} {R R' : Registry ε (Transform K)} {y p : ε}
    (h : Settled F S R R') (hp : F.parent y = some p) (hnone : R.transform p = none) :
    R'.worldOf y = R.worldOf y := by
  by_cases hy : S y
  · exact h.gap y p hy hp (localOf_eq_none.mpr hnone)
  · exact h.others y hy

/-- A registry and the same one with another world matrix stored at `y`. -/
theorem exists_sameButWorlds [Nontrivial K] (R : Registry ε (Transform K)) {y : ε}
    (hy : (R.transform y).isSome) : ∃ R₂, SameButWorlds R R₂ ∧ R₂.worldOf y ≠ R.worldOf y := by
  obtain ⟨t, ht⟩ := Option.isSome_iff_exists.mp hy
  obtain ⟨M, hM⟩ := exists_ne t.worldMatrix
  refine ⟨R.modifyTransform y fun t => { t with worldMatrix := M }, ⟨rfl, rfl, rfl, ?_⟩, ?_⟩
  · intro e
    rw [transform_modifyTransform]
    by_cases he : e = y
    · cases R.transform e <;> simp [he]
    · simp [he]
  · unfold worldOf
    rw [transform_modifyTransform, if_pos rfl, ht]
    simpa using hM

/-- `Update` forgets the world matrices stored before it exactly when no `Transform` is
missing above another one. -/
theorem update_forgets_iff [Nontrivial K] (R : Registry ε (Transform K)) (hwf : R.WellFormed) :
    (∀ R₂, SameButWorlds R R₂ →
      ∀ plain view, R.Views plain view → ∀ plain₂ view₂, R₂.Views plain₂ view₂ →
        ∃ R' R₂', Finishes (fun fuel => R.update fuel plain view) R' ∧
          Finishes (fun fuel => R₂.update fuel plain₂ view₂) R₂' ∧
          ∀ e ∈ R.alive, R'.worldOf e = R₂'.worldOf e) ↔ R.Covered := by
  obtain ⟨F, hR⟩ := hwf.exists_forest
  constructor
  · intro h e he hhas a hea
    by_contra hmissing
    obtain ⟨y, p, hyp, hy, hp⟩ := exists_gap (P := fun x => (R.transform x).isSome) hea hhas hmissing
    rw [hR.parentOf] at hyp
    have hpnone : R.transform p = none := by simpa using hp
    obtain ⟨R₂, hsame, hne⟩ := exists_sameButWorlds R hy
    obtain ⟨plain, view, hviews⟩ := exists_views R
    obtain ⟨plain₂, view₂, hviews₂⟩ := exists_views R₂
    have hR₂ : Represents R₂ F := ⟨fun x hx => hsame.alive ▸ hR.members x hx, hsame.hierarchy.trans hR.links⟩
    have hpnone₂ : R₂.transform p = none := by
      rw [← localOf_eq_none, hsame.localOf, localOf_eq_none]
      exact hpnone
    obtain ⟨R', R₂', hrun, hrun₂, hagree⟩ := h R₂ hsame plain view hviews plain₂ view₂ hviews₂
    obtain ⟨Q, hQ, hset⟩ := update_settled hR hviews
    obtain ⟨Q₂, hQ₂, hset₂⟩ := update_settled hR₂ hviews₂
    cases hrun.unique hQ
    cases hrun₂.unique hQ₂
    apply hne
    rw [← hset₂.stale hyp hpnone₂, ← hset.stale hyp hpnone]
    exact (hagree y (hR.members y (F.mem_of_link hyp).1)).symm
  · intro hcovered R₂ hsame plain view hviews plain₂ view₂ hviews₂
    have hR₂ : Represents R₂ F := ⟨fun x hx => hsame.alive ▸ hR.members x hx, hsame.hierarchy.trans hR.links⟩
    have hcovered₂ := hcovered.congr hsame.alive hsame.parentOf hsame.localOf
    obtain ⟨R', hrun, hset, hworlds⟩ := update_covered hR hcovered hviews
    obtain ⟨R₂', hrun₂, hset₂, hworlds₂⟩ := update_covered hR₂ hcovered₂ hviews₂
    refine ⟨R', R₂', hrun, hrun₂, ?_⟩
    intro e he
    refine worlds_agree (R := R) R₂ hset.locals (fun x => ?_)
      (fun M => PathProduct.congr hsame.parentOf hsame.localOf) (hworlds e he) ?_
    · rw [hset₂.locals x, hsame.localOf]
    · intro hhas
      apply hworlds₂ e (hsame.alive ▸ he)
      rw [← isSome_localOf, hsame.localOf, isSome_localOf]
      exact hhas

theorem update_forgets_moved : moved.WellFormed ∧
    ∀ R₂, SameButWorlds moved R₂ →
      ∀ plain view, moved.Views plain view → ∀ plain₂ view₂, R₂.Views plain₂ view₂ →
        ∃ R' R₂', Finishes (fun fuel => moved.update fuel plain view) R' ∧
          Finishes (fun fuel => R₂.update fuel plain₂ view₂) R₂' ∧
          ∀ e ∈ moved.alive, R'.worldOf e = R₂'.worldOf e :=
  have hwf : moved.WellFormed := pair_wellFormed _ _
  ⟨hwf, (update_forgets_iff moved hwf).mpr moved_covered⟩

/-- A child below a root without a `Transform`, with the world matrix of an earlier frame. -/
def orphaned (world : Matrix4 ℤ) : Registry Nat (Transform ℤ) :=
  pair none (some { (Transform.new : Transform ℤ) with worldMatrix := world })

/-- The child keeps its world matrix, whatever it is. -/
theorem update_orphaned :
    (orphaned 1).WellFormed ∧ SameButWorlds (orphaned 1) (orphaned (Matrix4.translation ⟨1, 0, 0⟩)) ∧
    (∀ world, (orphaned world).Views [] [1] ∧
      Finishes (fun fuel => (orphaned world).update fuel [] [1]) (orphaned world)) ∧
    (orphaned 1).worldOf 1 ≠ (orphaned (Matrix4.translation ⟨1, 0, 0⟩)).worldOf 1 := by
  refine ⟨pair_wellFormed _ _, ⟨rfl, rfl, rfl, ?_⟩, ?_, by decide⟩
  · intro e
    by_cases he : e = 1
    · subst he; rfl
    · simp [orphaned, pair, he]
  · intro world
    exact ⟨pair_views fun e => by simp, 0, fun _ _ => rfl⟩

end Results

end Lumos.Scene
