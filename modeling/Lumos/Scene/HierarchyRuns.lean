import Lumos.Scene.SetParent

/-!
# Runs of a connected registry

Entities are created, moved, stripped of their `Hierarchy` and destroyed in any order.
`OnDestroy` takes the entity out of its row but leaves the parent links of its own
children as they are, so the hierarchy stays well formed exactly as long as no entity
goes before its children.
-/
namespace Lumos.Scene

open Registry

variable {ε τ : Type} [DecidableEq ε] {R R' : Registry ε τ} {F : OrderedForest ε} {e : ε}

/-- What a scene does to its hierarchy; the handle of a new entity is the registry's choice. -/
inductive HierarchyOp (ε : Type)
  | create (e : ε)
  | setParent (e p : ε)
  | remove (e : ε)
  | destroy (e : ε)
  deriving DecidableEq

namespace HierarchyOp

def apply (R : Registry ε τ) : HierarchyOp ε → Option (Registry ε τ)
  | create e => R.create e
  | setParent e p => R.setParent e p
  | remove e => R.remove e
  | destroy e => R.destroy e

/-- The handles are alive, a new one is not in use, and there is a component to remove. -/
def Legal (R : Registry ε τ) : HierarchyOp ε → Prop
  | create e => e ∉ R.alive
  | setParent e p => e ∈ R.alive ∧ p ∈ R.alive
  | remove e => e ∈ R.alive ∧ (R.hierarchy e).isSome
  | destroy e => e ∈ R.alive

instance (R : Registry ε τ) (op : HierarchyOp ε) : Decidable (op.Legal R) :=
  match op with
  | create e => inferInstanceAs (Decidable (e ∉ R.alive))
  | setParent e p => inferInstanceAs (Decidable (e ∈ R.alive ∧ p ∈ R.alive))
  | remove e => inferInstanceAs (Decidable (e ∈ R.alive ∧ (R.hierarchy e).isSome))
  | destroy e => inferInstanceAs (Decidable (e ∈ R.alive))

/-- No entity that loses its component is the parent of another one. -/
def Childless (R : Registry ε τ) : HierarchyOp ε → Prop
  | create _ => True
  | setParent _ _ => True
  | remove e => ∀ c, R.parentOf c ≠ some e
  | destroy e => ∀ c, R.parentOf c ≠ some e

end HierarchyOp

theorem Represents.childless_iff (h : Represents R F) : (∀ c, R.parentOf c ≠ some e) ↔ F.kids e = [] := by
  rw [h.parentOf, List.eq_nil_iff_forall_not_mem]
  constructor
  · intro hc c hmem
    exact hc c (F.mem_kids.mp hmem)
  · intro hc c hparent
    exact hc c (F.mem_kids.mpr hparent)

/-! ## Steps -/

/-- `remove` detaches the entity for all the others and drops its component. -/
theorem remove_run (hR : Represents R F) (hconnected : R.Connected) (he : e ∈ F.members) :
    ∃ R', R.remove e = some R' ∧ SameEntities R R' ∧
      ∀ x, R'.hierarchy x = if x = e then none else linksOf (F.detach e) x := by
  obtain ⟨R₁, hR₁, hsame, hlinks⟩ := onDestroy_spec hR he
  have hdestroy : R.signals.destroy = true := by rw [hconnected]
  refine ⟨R₁.store e none, ?_, ⟨hsame.alive, hsame.transform, hsame.signals⟩, ?_⟩
  · simp [remove, hR.get he, hdestroy, hR₁]
  · intro x
    rw [hierarchy_store, hlinks x]
    by_cases hx : x = e <;> simp [hx]

/-- A registry that has lost the component of `e` is well formed exactly when `e` had no
children; those it had still name it as their parent. -/
theorem wellFormed_without_iff (hR : Represents R F)
    (hlinks : ∀ x, R'.hierarchy x = if x = e then none else linksOf (F.detach e) x)
    (halive : ∀ x ∈ F.members, x ≠ e → x ∈ R'.alive) :
    R'.WellFormed ↔ ∀ c, R.parentOf c ≠ some e := by
  rw [hR.childless_iff]
  constructor
  · intro hwf
    rw [List.eq_nil_iff_forall_not_mem]
    intro c hc
    have hparent := F.mem_kids.mp hc
    have hce : c ≠ e := by
      intro h
      subst h
      exact F.not_mem_kids_self c hc
    have hlink : R'.hierarchy c = some (linksAt (F.detach e) c) := by
      rw [hlinks c, if_neg hce]
      exact linksOf_of_mem (F := F.detach e) (F.mem_of_link hparent).1
    have hrefers : (linksAt (F.detach e) c).Refers e := by
      left
      simp [linksAt, hce, hparent]
    obtain ⟨_, k, hk⟩ := hwf.linked c _ hlink e hrefers
    rw [hlinks e, if_pos rfl] at hk
    cases hk
  · intro hkids
    have hkids' : (F.detach e).kids e = [] := by simp [hkids]
    have hrep : Represents R' ((F.detach e).remove e (by simp) hkids') := by
      constructor
      · intro x hx
        obtain ⟨hxe, hx⟩ := Finset.mem_erase.mp hx
        exact halive x hx hxe
      · funext x
        rw [hlinks x]
        by_cases hx : x = e
        · simp [linksOf, OrderedForest.remove, hx]
        · simp only [linksOf, OrderedForest.remove, Finset.mem_erase, ne_eq, hx,
            not_false_eq_true, true_and]
          rfl
    exact hrep.wellFormed

theorem create_step (hR : Represents R F) (hconnected : R.Connected) (he : e ∉ R.alive) :
    ∃ R', R.create e = some R' ∧ R'.Connected ∧ R'.WellFormed := by
  refine ⟨{ R with alive := insert e R.alive }, by simp [create, he], hconnected, ?_⟩
  have hrep : Represents { R with alive := insert e R.alive } F :=
    ⟨fun x hx => Finset.mem_insert_of_mem (hR.members x hx), hR.links⟩
  exact hrep.wellFormed

theorem setParent_step {p : ε} (hR : Represents R F) (hconnected : R.Connected) (he : e ∈ R.alive)
    (hp : p ∈ R.alive) : ∃ R', R.setParent e p = some R' ∧ R'.Connected ∧ R'.WellFormed := by
  by_cases hbelow : F.Below p e
  · exact ⟨R, setParent_refused hR he hp hbelow, hconnected, hR.wellFormed⟩
  · obtain ⟨R', hR', hsame, hrep⟩ := setParent_spec hR hconnected he hp hbelow
    exact ⟨R', hR', hsame.signals.trans hconnected, hrep.wellFormed⟩

theorem remove_step (hR : Represents R F) (hconnected : R.Connected) (he : (R.hierarchy e).isSome) :
    ∃ R', R.remove e = some R' ∧ R'.Connected ∧ (R'.WellFormed ↔ ∀ c, R.parentOf c ≠ some e) := by
  have hm : e ∈ F.members := by
    by_contra hm
    simp [hR.links, linksOf, hm] at he
  obtain ⟨R', hR', hsame, hlinks⟩ := remove_run hR hconnected hm
  refine ⟨R', hR', hsame.signals.trans hconnected, wellFormed_without_iff hR hlinks ?_⟩
  intro x hx _
  rw [hsame.alive]
  exact hR.members x hx

theorem destroy_step (hR : Represents R F) (hconnected : R.Connected) (he : e ∈ R.alive) :
    ∃ R', R.destroy e = some R' ∧ R'.Connected ∧ (R'.WellFormed ↔ ∀ c, R.parentOf c ≠ some e) := by
  have hstrip : ∃ R₁, (if (R.hierarchy e).isSome then R.remove e else some R) = some R₁ ∧
      SameEntities R R₁ ∧ ∀ x, R₁.hierarchy x = if x = e then none else linksOf (F.detach e) x := by
    by_cases hm : e ∈ F.members
    · obtain ⟨R₁, hR₁, hsame, hlinks⟩ := remove_run hR hconnected hm
      exact ⟨R₁, by simp [hR.links, linksOf_of_mem hm, hR₁], hsame, hlinks⟩
    · refine ⟨R, by simp [hR.links, linksOf, hm], .refl R, ?_⟩
      intro x
      rw [F.detach_of_root (F.parent_of_not_mem hm), hR.links]
      by_cases hx : x = e
      · simp [linksOf, hx, hm]
      · simp [hx]
  obtain ⟨R₁, hR₁, hsame, hlinks⟩ := hstrip
  refine ⟨{ R₁ with
    alive := R₁.alive.erase e
    transform := Function.update R₁.transform e none }, ?_, hsame.signals.trans hconnected,
    wellFormed_without_iff hR hlinks ?_⟩
  · simp only [destroy, tryGet_of_mem he, hR₁, Option.map_some]
  · intro x hx hxe
    refine Finset.mem_erase.mpr ⟨hxe, ?_⟩
    rw [hsame.alive]
    exact hR.members x hx

/-- In a well-formed registry every legal operation succeeds, and the registry stays well
formed exactly when no entity loses its component before its children. -/
theorem HierarchyOp.apply_step (hwf : R.WellFormed) (hconnected : R.Connected) {op : HierarchyOp ε}
    (hlegal : op.Legal R) :
    ∃ R', op.apply R = some R' ∧ R'.Connected ∧ (R'.WellFormed ↔ op.Childless R) := by
  obtain ⟨F, hR⟩ := hwf.exists_forest
  cases op with
  | create e =>
    obtain ⟨R', hR', hc, hwf'⟩ := create_step hR hconnected hlegal
    exact ⟨R', hR', hc, by simp [Childless, hwf']⟩
  | setParent e p =>
    obtain ⟨R', hR', hc, hwf'⟩ := setParent_step hR hconnected hlegal.1 hlegal.2
    exact ⟨R', hR', hc, by simp [Childless, hwf']⟩
  | remove e => exact remove_step hR hconnected hlegal.2
  | destroy e => exact destroy_step hR hconnected hlegal

/-! ## Runs -/

/-- Legal operations from `R₀` on: the states passed, each with the operation taken
there, and the state reached. -/
inductive HierarchyRun (R₀ : Registry ε τ) : List (Registry ε τ × HierarchyOp ε) → Registry ε τ → Prop
  | start : HierarchyRun R₀ [] R₀
  | step {steps : List (Registry ε τ × HierarchyOp ε)} {R R' : Registry ε τ} {op : HierarchyOp ε} :
      HierarchyRun R₀ steps R → op.Legal R → op.apply R = some R' → HierarchyRun R₀ (steps ++ [(R, op)]) R'

theorem init_new_represents : Represents (SceneGraph.init (.new : Registry ε τ)) OrderedForest.empty := by
  constructor
  · intro x hx
    cases hx
  · funext x
    simp [SceneGraph.init, Registry.new, linksOf, OrderedForest.empty]

section Runs

variable {steps : List (Registry ε τ × HierarchyOp ε)}

theorem HierarchyRun.wellFormed_of_childless (h : HierarchyRun (SceneGraph.init .new) steps R)
    (hsteps : ∀ s ∈ steps, s.2.Childless s.1) :
    R.Connected ∧ R.WellFormed ∧ ∀ s ∈ steps, s.1.WellFormed := by
  induction h with
  | start => exact ⟨rfl, init_new_represents.wellFormed, by simp⟩
  | @step steps R R' op _ hlegal happly ih =>
    obtain ⟨hconnected, hwf, hall⟩ := ih fun s hs => hsteps s (List.mem_append_left _ hs)
    obtain ⟨R'', hR'', hconnected', hiff⟩ := HierarchyOp.apply_step hwf hconnected hlegal
    rw [happly] at hR''
    cases hR''
    refine ⟨hconnected', hiff.mpr (hsteps (R, op) (by simp)), ?_⟩
    intro s hs
    cases List.mem_append.mp hs with
    | inl hs => exact hall s hs
    | inr hs =>
      cases List.mem_singleton.mp hs
      exact hwf

theorem HierarchyRun.childless_of_wellFormed (h : HierarchyRun (SceneGraph.init .new) steps R)
    (hwf : R.WellFormed) (hsteps : ∀ s ∈ steps, s.1.WellFormed) : ∀ s ∈ steps, s.2.Childless s.1 := by
  induction h with
  | start => simp
  | @step steps R R' op hrun hlegal happly ih =>
    have hR := hsteps (R, op) (by simp)
    have hbefore := ih hR fun s hs => hsteps s (List.mem_append_left _ hs)
    obtain ⟨hconnected, _, _⟩ := hrun.wellFormed_of_childless hbefore
    obtain ⟨R'', hR'', _, hiff⟩ := HierarchyOp.apply_step hR hconnected hlegal
    rw [happly] at hR''
    cases hR''
    intro s hs
    cases List.mem_append.mp hs with
    | inl hs => exact hbefore s hs
    | inr hs =>
      cases List.mem_singleton.mp hs
      exact hiff.mp hwf

end Runs

/-- A run of a connected registry is well formed in every state exactly when no step
takes the component of an entity that still has children; then no legal step faults. -/
theorem hierarchyRun_wellFormed_iff (steps : List (Registry ε τ × HierarchyOp ε)) (R : Registry ε τ)
    (h : HierarchyRun (SceneGraph.init .new) steps R) :
    ((R.WellFormed ∧ ∀ s ∈ steps, s.1.WellFormed) ↔ ∀ s ∈ steps, s.2.Childless s.1) ∧
    ((∀ s ∈ steps, s.2.Childless s.1) →
      ∀ op : HierarchyOp ε, op.Legal R → ∃ R', op.apply R = some R') := by
  constructor
  · constructor
    · intro hall
      exact h.childless_of_wellFormed hall.1 hall.2
    · intro hall
      exact (h.wellFormed_of_childless hall).2
  · intro hall op hlegal
    obtain ⟨hconnected, hwf, _⟩ := h.wellFormed_of_childless hall
    obtain ⟨R', hR', _⟩ := HierarchyOp.apply_step hwf hconnected hlegal
    exact ⟨R', hR'⟩

/-- Two entities are created and one moved below the other. -/
theorem adoption_run : ∃ (steps : List (Registry Nat Unit × HierarchyOp Nat)) (R : Registry Nat Unit),
    HierarchyRun (SceneGraph.init .new) steps R ∧
      steps.map Prod.snd = [.create 0, .create 1, .setParent 1 0] ∧
      0 ∈ R.alive ∧ R.parentOf 1 = some 0 ∧ R.getChildren 0 = some [1] := by
  have h₁ : HierarchyRun (SceneGraph.init (.new : Registry Nat Unit)) _ _ :=
    .step .start (show (HierarchyOp.create 0).Legal _ by decide) rfl
  have h₂ := HierarchyRun.step h₁ (show (HierarchyOp.create 1).Legal _ by decide) rfl
  have h₃ := HierarchyRun.step h₂ (show (HierarchyOp.setParent 1 0).Legal _ by decide) rfl
  exact ⟨_, _, h₃, rfl, by decide, by decide, by decide⟩

theorem hierarchyRun_wellFormed_adoption :
    ∃ (steps : List (Registry Nat Unit × HierarchyOp Nat)) (R : Registry Nat Unit),
      HierarchyRun (SceneGraph.init .new) steps R ∧
      steps.map Prod.snd = [.create 0, .create 1, .setParent 1 0] ∧
      R.WellFormed ∧ ∀ s ∈ steps, s.1.WellFormed := by
  obtain ⟨steps, R, hrun, hops, _⟩ := adoption_run
  refine ⟨steps, R, hrun, hops, (hierarchyRun_wellFormed_iff steps R hrun).1.mpr ?_⟩
  intro s hs
  have hop : s.2 ∈ steps.map Prod.snd := List.mem_map_of_mem hs
  rw [hops] at hop
  simp only [List.mem_cons, List.not_mem_nil, or_false] at hop
  rcases hop with h | h | h <;> rw [h] <;> trivial

/-- Destroying the parent leaves the child with a link to an entity no longer alive. -/
theorem hierarchyRun_orphan :
    ∃ (steps : List (Registry Nat Unit × HierarchyOp Nat)) (R : Registry Nat Unit),
      HierarchyRun (SceneGraph.init .new) steps R ∧
      steps.map Prod.snd = [.create 0, .create 1, .setParent 1 0, .destroy 0] ∧
      1 ∈ R.alive ∧ R.parentOf 1 = some 0 ∧ 0 ∉ R.alive ∧ ¬ R.WellFormed := by
  have h₁ : HierarchyRun (SceneGraph.init (.new : Registry Nat Unit)) _ _ :=
    .step .start (show (HierarchyOp.create 0).Legal _ by decide) rfl
  have h₂ := HierarchyRun.step h₁ (show (HierarchyOp.create 1).Legal _ by decide) rfl
  have h₃ := HierarchyRun.step h₂ (show (HierarchyOp.setParent 1 0).Legal _ by decide) rfl
  have h₄ := HierarchyRun.step h₃ (show (HierarchyOp.destroy 0).Legal _ by decide) rfl
  refine ⟨_, _, h₄, rfl, by decide, by decide, by decide, ?_⟩
  intro hwf
  obtain ⟨hlive, _⟩ := hwf.linked 1 _ rfl 0 (.inl rfl)
  exact absurd hlive (by decide)

end Lumos.Scene
