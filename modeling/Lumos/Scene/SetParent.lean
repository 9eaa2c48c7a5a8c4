import Lumos.Scene.HierarchyHandlers

/-!
# Moving an entity below another

`Entity::SetParent` is refused when the new parent is the entity or lies below it, and
otherwise detaches the entity and attaches it at the end of the new parent's row.
-/
namespace Lumos.Scene

open Relation ParentLinks Registry

variable {ε τ : Type} [DecidableEq ε] {R : Registry ε τ} {F : OrderedForest ε} {e p : ε}

namespace Registry

/-- `p` is `e` or a descendant of it. -/
def Inside (R : Registry ε τ) (p e : ε) : Prop := ReflTransGen (Link R.parentOf) p e

end Registry

theorem Represents.inside_iff (h : Represents R F) : R.Inside p e ↔ F.Below p e := by
  unfold Registry.Inside OrderedForest.Below
  rw [h.parentOf]

/-- `Reparent` moves a member below an entity that is not inside it. -/
theorem reparent_spec (hR : Represents R F) (he : e ∈ F.members) (hp : p ∈ R.alive) (hoff : ¬ F.Below p e) :
    ∃ R', R.reparent e (some p) = some R' ∧ SameEntities R R' ∧
      Represents R' ((F.detach e).attach e p (by simp) (F.not_below_detach hoff)) := by
  obtain ⟨R₁, hR₁, hsame, hlinks⟩ := onDestroy_spec hR he
  let R₂ := (R₁.modify e fun h => { h with parent := none, next := none, prev := none }).modify e
    fun h => { h with parent := some p }
  have hpending : Pending R₂ (F.detach e) e p := by
    refine ⟨?_, ?_, ?_, ?_⟩
    · intro x hx
      exact hsame.alive ▸ hR.members x hx
    · exact hsame.alive ▸ hR.members e he
    · exact hsame.alive ▸ hp
    · intro x
      have hown : (F.kids e).erase e = F.kids e := List.erase_of_not_mem (F.not_mem_kids_self e)
      simp only [R₂, hierarchy_modify, hlinks x]
      by_cases hx : x = e
      · subst hx
        simp [hR.links, linksOf_of_mem he, linksAt, hown]
      · simp [hx]
  obtain ⟨R', hR', hsame', hrep⟩ := onConstruct_spec hpending (by simp) (F.not_below_detach hoff)
  refine ⟨R', ?_, hsame.trans ⟨hsame'.alive, hsame'.transform, hsame'.signals⟩, hrep⟩
  simp only [reparent, hR₁]
  exact hR'

/-- `emplace` of a component with a parent attaches an entity that had none. -/
theorem emplace_spec (hR : Represents R F) (hconnected : R.Connected) (he : e ∈ R.alive) (hnew : e ∉ F.members)
    (hp : p ∈ R.alive) (hoff : ¬ F.Below p e) :
    ∃ R', R.emplace e (.ofParent (some p)) = some R' ∧ SameEntities R R' ∧
      Represents R' (F.attach e p (F.parent_of_not_mem hnew) hoff) := by
  have hpending : Pending (R.store e (some (.ofParent (some p)))) F e p := by
    refine ⟨hR.members, he, hp, ?_⟩
    intro x
    rw [hierarchy_store, hR.links, F.kids_of_not_mem hnew]
    rfl
  obtain ⟨R', hR', hsame, hrep⟩ := onConstruct_spec hpending (F.parent_of_not_mem hnew) hoff
  refine ⟨R', ?_, ⟨hsame.alive, hsame.transform, hsame.signals⟩, hrep⟩
  have hlook : R.tryGet e = some none := by rw [tryGet_of_mem he, hR.links]; simp [linksOf, hnew]
  have hconstruct : (R.store e (some (.ofParent (some p)))).signals.construct = true := by
    change R.signals.construct = true
    rw [hconnected]
  simp only [emplace, hlook, hconstruct, if_true]
  exact hR'

theorem setParent_refused (hR : Represents R F) (he : e ∈ R.alive) (hp : p ∈ R.alive) (hbelow : F.Below p e) :
    R.setParent e p = some R := by
  unfold setParent
  rw [tryGet_of_mem he, hR.links]
  by_cases hpe : p = e
  · cases linksOf F e <;> simp [hpe]
  · have hm : e ∈ F.members := by
      by_contra hm
      exact hpe (F.below_of_not_mem hm hbelow)
    obtain ⟨above, habove, hiff⟩ := isParent_spec hR hp hpe
    simp [linksOf_of_mem hm, hpe, habove, hiff.mpr hbelow]

theorem setParent_spec (hR : Represents R F) (hconnected : R.Connected) (he : e ∈ R.alive) (hp : p ∈ R.alive)
    (hoff : ¬ F.Below p e) :
    ∃ R', R.setParent e p = some R' ∧ SameEntities R R' ∧
      Represents R' ((F.detach e).attach e p (by simp) (F.not_below_detach hoff)) := by
  have hpe : p ≠ e := by
    intro h
    subst h
    exact hoff .refl
  by_cases hm : e ∈ F.members
  · obtain ⟨above, habove, hiff⟩ := isParent_spec hR hp hpe
    have hfalse : above = false := by
      rw [← Bool.not_eq_true, hiff]
      exact hoff
    have hself : (linksAt F e).parent ≠ some e :=
      fun h => F.not_mem_kids_self e (F.mem_kids.mpr h)
    have hset : R.setParent e p = R.reparent e (some p) := by
      unfold setParent
      rw [tryGet_of_mem he, hR.links, linksOf_of_mem hm]
      simp [hpe, habove, hfalse, hself]
    rw [hset]
    exact reparent_spec hR hm hp hoff
  · have hset : R.setParent e p = R.emplace e (.ofParent (some p)) := by
      unfold setParent
      rw [tryGet_of_mem he, hR.links]
      simp [linksOf, hm, hpe]
    obtain ⟨R', hR', hsame, hrep⟩ := emplace_spec hR hconnected he hm hp hoff
    refine ⟨R', hset.trans hR', hsame, ?_⟩
    have hdetach := F.detach_of_root (F.parent_of_not_mem hm)
    have hforest : (F.detach e).attach e p (by simp) (F.not_below_detach hoff) =
        F.attach e p (F.parent_of_not_mem hm) hoff := by
      congr 1
    rw [hforest]
    exact hrep

/-- On a well-formed hierarchy `SetParent` changes nothing when the new parent is the
entity or lies below it. Otherwise the entity goes to the end of the new parent's row
and leaves its old one; nothing else moves, and the hierarchy stays well formed. -/
theorem setParent_moves (R : Registry ε τ) (hconnected : R.Connected) (hwf : R.WellFormed) (e p : ε)
    (he : e ∈ R.alive) (hp : p ∈ R.alive) :
    (R.Inside p e → R.setParent e p = some R) ∧
    (¬ R.Inside p e → ∃ R', R.setParent e p = some R' ∧ R'.WellFormed ∧ SameEntities R R' ∧
      R'.parentOf = Function.update R.parentOf e (some p) ∧
      (∀ x, (R'.hierarchy x).isSome ↔ (R.hierarchy x).isSome ∨ x = e ∨ x = p) ∧
      ∀ q ∈ R.alive, ∃ row, R.getChildren q = some row ∧
        R'.getChildren q = some (if q = p then row.erase e ++ [e] else row.erase e)) := by
  obtain ⟨F, hF⟩ := hwf.exists_forest
  rw [hF.inside_iff]
  refine ⟨setParent_refused hF he hp, ?_⟩
  intro hoff
  obtain ⟨R', hset, hsame, hrep⟩ := setParent_spec hF hconnected he hp hoff
  refine ⟨R', hset, hrep.wellFormed, hsame, ?_, ?_, ?_⟩
  · rw [hrep.parentOf, hF.parentOf, OrderedForest.parent_attach, OrderedForest.parent_detach,
      Function.update_idem]
  · intro x
    rw [hrep.links, hF.links]
    simp only [linksOf, Option.isSome_ite, OrderedForest.members_attach, OrderedForest.members_detach,
      Finset.mem_insert]
    constructor
    · intro h
      rcases h with h | h | h
      · exact .inr (.inl h)
      · exact .inr (.inr h)
      · exact .inl h
    · intro h
      rcases h with h | h | h
      · exact .inr (.inr h)
      · exact .inl h
      · exact .inr (.inl h)
  · intro q hq
    refine ⟨F.kids q, getChildren_spec hF hq, ?_⟩
    rw [getChildren_spec hrep (hsame.alive ▸ hq), OrderedForest.kids_attach]
    by_cases hqp : q = p
    · subst hqp
      simp
    · simp [hqp]

/-- An entity with two children. -/
def familyForest : OrderedForest Nat :=
  let only := OrderedForest.empty.attach 1 0 rfl fun h =>
    absurd (OrderedForest.empty.below_of_not_mem (by decide) h) (by decide)
  only.attach 2 0 rfl fun h => absurd (only.below_of_not_mem (by decide) h) (by decide)

def family : Registry Nat Unit where
  alive := {0, 1, 2}
  hierarchy := linksOf familyForest
  transform := fun _ => none
  signals := ⟨true, true, true⟩

theorem family_represents : Represents family familyForest := ⟨by decide, rfl⟩

/-- The first child moves behind its sibling. -/
theorem setParent_moves_family : family.Connected ∧ family.WellFormed ∧ ¬ family.Inside 0 1 ∧
    ∃ R', family.setParent 1 0 = some R' ∧ R'.WellFormed ∧ R'.getChildren 0 = some [2, 1] := by
  have hwf := family_represents.wellFormed
  have hoff : ¬ family.Inside 0 1 := by
    intro h
    cases h.cases_head with
    | inl heq => cases heq
    | inr hlink =>
      obtain ⟨c, hc, _⟩ := hlink
      exact absurd hc (by simp [Link, show family.parentOf 0 = none from rfl])
  obtain ⟨R', hset, hwf', _, _, _, hrows⟩ :=
    (setParent_moves family rfl hwf 1 0 (by decide) (by decide)).2 hoff
  obtain ⟨row, hrow, hrow'⟩ := hrows 0 (by decide)
  have hchildren : family.getChildren 0 = some [1, 2] := by decide
  rw [hchildren] at hrow
  cases hrow
  exact ⟨rfl, hwf, hoff, R', hset, hwf', hrow'⟩

end Lumos.Scene
