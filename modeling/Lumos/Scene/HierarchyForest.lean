import Lumos.Scene.Hierarchy
import Lumos.Library.OrderedForest
import Mathlib.Data.Finset.Filter

/-!
# Well-formed hierarchies are forests

What the links of a registry have to look like, and that they do so exactly when they
are the links of an ordered forest. The handlers are then operations on that forest.
-/
namespace Lumos.Scene

open ParentLinks SiblingRow Loop

variable {ε τ : Type}

/-- The `Next` links lead from `first` through `row` and end; the `Prev` links lead back
to `prev`, which stands in front of it. -/
inductive SiblingLinks (hierarchy : ε → Option (Hierarchy ε)) : Option ε → Option ε → List ε → Prop
  | nil {prev : Option ε} : SiblingLinks hierarchy prev none []
  | cons {prev : Option ε} {c : ε} {h : Hierarchy ε} {row : List ε} :
      hierarchy c = some h → h.prev = prev → SiblingLinks hierarchy (some c) h.next row →
      SiblingLinks hierarchy prev (some c) (c :: row)

/-- The links `h` holds. -/
def Hierarchy.Refers (h : Hierarchy ε) (x : ε) : Prop :=
  h.parent = some x ∨ h.first = some x ∨ h.next = some x ∨ h.prev = some x

namespace Registry

/-- No dangling link, acyclic parents, and for every entity one doubly linked row that
holds exactly its children, each once; a root is on no row. -/
structure WellFormed (R : Registry ε τ) : Prop where
  alive : ∀ e h, R.hierarchy e = some h → e ∈ R.alive
  linked : ∀ e h, R.hierarchy e = some h → ∀ x, h.Refers x → x ∈ R.alive ∧ ∃ k, R.hierarchy x = some k
  acyclic : ∀ e, Rooted R.parentOf e
  rows : ∀ p h, R.hierarchy p = some h → ∃ row, SiblingLinks R.hierarchy none h.first row ∧
    row.Nodup ∧ ∀ c, c ∈ row ↔ R.parentOf c = some p
  roots : ∀ e h, R.hierarchy e = some h → h.parent = none → h.next = none ∧ h.prev = none

end Registry

section SiblingLinks

variable {hierarchy hierarchy' : ε → Option (Hierarchy ε)} {prev first : Option ε} {row : List ε} {x : ε}

theorem SiblingLinks.first_eq (h : SiblingLinks hierarchy prev first row) : first = row.head? := by
  cases h <;> rfl

theorem SiblingLinks.congr (h : SiblingLinks hierarchy prev first row)
    (heq : ∀ x ∈ row, hierarchy' x = hierarchy x) : SiblingLinks hierarchy' prev first row := by
  induction h with
  | nil => exact .nil
  | @cons prev c k row hc hprev _ ih =>
    refine .cons ?_ hprev (ih fun x hx => heq x (List.mem_cons_of_mem _ hx))
    rw [heq c List.mem_cons_self, hc]

variable [DecidableEq ε]

/-- On a row without repetitions every entry links to its neighbours. -/
theorem SiblingLinks.neighbours (h : SiblingLinks hierarchy prev first row) (hrow : row.Nodup)
    (hx : x ∈ row) :
    ∃ k, hierarchy x = some k ∧ k.next = nextIn row x ∧ k.prev = prevFrom prev row x := by
  induction h with
  | nil => cases hx
  | @cons prev c k row hc hprev hrest ih =>
    obtain ⟨hcr, hnodup⟩ := List.nodup_cons.mp hrow
    by_cases hcx : c = x
    · subst hcx
      exact ⟨k, hc, by rw [nextIn_cons_self, hrest.first_eq], by rw [prevFrom_cons_self, hprev]⟩
    · have hxr : x ∈ row := (List.mem_cons.mp hx).resolve_left (Ne.symm hcx)
      rw [nextIn_cons_of_ne hcx, prevFrom_cons_of_ne hcx]
      exact ih hnodup hxr

end SiblingLinks

variable [DecidableEq ε]

/-- The links of a node of the forest. -/
def linksAt (F : OrderedForest ε) (e : ε) : Hierarchy ε :=
  ⟨F.parent e, (F.kids e).head?, F.next e, F.prev e⟩

/-- The `Hierarchy` pool that stores the forest. -/
def linksOf (F : OrderedForest ε) (e : ε) : Option (Hierarchy ε) :=
  if e ∈ F.members then some (linksAt F e) else none

/-- The registry stores the forest. -/
structure Represents (R : Registry ε τ) (F : OrderedForest ε) : Prop where
  members : ∀ e ∈ F.members, e ∈ R.alive
  links : R.hierarchy = linksOf F

section Links

variable {F : OrderedForest ε} {e : ε}

theorem linksOf_of_mem (he : e ∈ F.members) : linksOf F e = some (linksAt F e) := by simp [linksOf, he]

theorem linksOf_eq_some {h : Hierarchy ε} (hl : linksOf F e = some h) : e ∈ F.members ∧ h = linksAt F e := by
  unfold linksOf at hl
  split at hl
  · next he => exact ⟨he, (Option.some.inj hl).symm⟩
  · cases hl

theorem linksAt_refers {x : ε} (h : (linksAt F e).Refers x) : x ∈ F.members := by
  rcases h with h | h | h | h
  · exact (F.mem_of_link h).2
  · exact F.kids_subset e x (List.mem_of_mem_head? h)
  · exact (F.mem_of_next h).2
  · exact (F.mem_of_prev h).2

/-- The row of a node is linked from any place on. -/
theorem siblingLinks_suffix {p : ε} (front : List ε) {back : List ε} (h : F.kids p = front ++ back) :
    SiblingLinks (linksOf F) front.getLast? back.head? back := by
  induction back generalizing front with
  | nil => exact .nil
  | cons c back ih =>
    obtain ⟨hparent, hnext, hprev⟩ := F.sides_of_split h
    refine .cons (linksOf_of_mem (F.mem_of_link hparent).1) hprev ?_
    have hrest := ih (front ++ [c]) (by simp [h])
    rw [List.getLast?_append, List.getLast?_singleton, Option.some_or] at hrest
    rw [show (linksAt F c).next = back.head? from hnext]
    exact hrest

theorem siblingLinks_kids (F : OrderedForest ε) (p : ε) :
    SiblingLinks (linksOf F) none (F.kids p).head? (F.kids p) :=
  siblingLinks_suffix [] rfl

end Links

section Represents

variable {R : Registry ε τ} {F : OrderedForest ε}

theorem Represents.parentOf (h : Represents R F) : R.parentOf = F.parent := by
  funext e
  by_cases he : e ∈ F.members
  · simp [Registry.parentOf, h.links, linksOf_of_mem he, linksAt]
  · simp [Registry.parentOf, h.links, linksOf, he, F.parent_of_not_mem he]

theorem Represents.wellFormed (h : Represents R F) : R.WellFormed := by
  constructor
  · intro e k hk
    rw [h.links] at hk
    exact h.members e (linksOf_eq_some hk).1
  · intro e k hk x hx
    rw [h.links] at hk ⊢
    obtain ⟨_, rfl⟩ := linksOf_eq_some hk
    have hmem := linksAt_refers hx
    exact ⟨h.members x hmem, _, linksOf_of_mem hmem⟩
  · intro e
    rw [h.parentOf]
    exact F.rooted e
  · intro p k hk
    rw [h.links] at hk ⊢
    obtain ⟨_, rfl⟩ := linksOf_eq_some hk
    refine ⟨F.kids p, siblingLinks_kids F p, F.nodup p, ?_⟩
    intro c
    rw [h.parentOf]
    exact F.mem_kids
  · intro e k hk hroot
    rw [h.links] at hk
    obtain ⟨_, rfl⟩ := linksOf_eq_some hk
    have hparent : F.parent e = none := hroot
    simp [linksAt, OrderedForest.next, OrderedForest.prev, hparent]

omit [DecidableEq ε] in
/-- The rows of a well-formed registry, chosen for every entity at once. -/
theorem Registry.WellFormed.exists_kids (h : R.WellFormed) : ∃ kids : ε → List ε, ∀ p, (kids p).Nodup ∧
    (∀ c, c ∈ kids p ↔ R.parentOf c = some p) ∧
    ∀ k, R.hierarchy p = some k → SiblingLinks R.hierarchy none k.first (kids p) := by
  have hrow : ∀ p, ∃ row : List ε, row.Nodup ∧ (∀ c, c ∈ row ↔ R.parentOf c = some p) ∧
      ∀ k, R.hierarchy p = some k → SiblingLinks R.hierarchy none k.first row := by
    intro p
    cases hp : R.hierarchy p with
    | some k =>
      obtain ⟨row, hlinks, hnodup, hmem⟩ := h.rows p k hp
      refine ⟨row, hnodup, hmem, ?_⟩
      intro k' hk'
      cases hk'
      exact hlinks
    | none =>
      refine ⟨[], List.nodup_nil, ?_, by simp⟩
      intro c
      simp only [List.not_mem_nil, false_iff]
      intro hc
      obtain ⟨k, hk, hparent⟩ := Option.bind_eq_some_iff.mp hc
      obtain ⟨_, k', hk'⟩ := h.linked c k hk p (.inl hparent)
      rw [hp] at hk'
      cases hk'
  exact Classical.skolem.mp hrow

theorem Registry.WellFormed.exists_forest (h : R.WellFormed) : ∃ F, Represents R F := by
  obtain ⟨kids, hkids⟩ := h.exists_kids
  have hmember : ∀ e k, R.hierarchy e = some k → e ∈ R.alive.filter fun e => (R.hierarchy e).isSome := by
    intro e k hk
    simp [h.alive e k hk, hk]
  let F : OrderedForest ε :=
    { members := R.alive.filter fun e => (R.hierarchy e).isSome
      parent := R.parentOf
      kids := kids
      nodup := fun p => (hkids p).1
      mem_kids := fun {c p} => (hkids p).2.1 c
      rooted := h.acyclic
      mem_of_link := by
        intro c p hc
        obtain ⟨k, hk, hparent⟩ := Option.bind_eq_some_iff.mp hc
        obtain ⟨_, k', hk'⟩ := h.linked c k hk p (.inl hparent)
        exact ⟨hmember c k hk, hmember p k' hk'⟩ }
  refine ⟨F, fun e he => (Finset.mem_filter.mp he).1, ?_⟩
  funext e
  cases he : R.hierarchy e with
  | none => simp [linksOf, F, he]
  | some k =>
    rw [linksOf_of_mem (hmember e k he), linksAt]
    have hparent : F.parent e = k.parent := by simp [F, Registry.parentOf, he]
    have hfirst : (F.kids e).head? = k.first := ((hkids e).2.2 k he).first_eq.symm
    have hsides : F.next e = k.next ∧ F.prev e = k.prev := by
      unfold OrderedForest.next OrderedForest.prev
      rw [hparent]
      cases hp : k.parent with
      | none =>
        obtain ⟨hn, hv⟩ := h.roots e k he hp
        simp [hn, hv]
      | some p =>
        obtain ⟨_, kp, hkp⟩ := h.linked e k he p (.inl hp)
        have hmem : e ∈ kids p := ((hkids p).2.1 e).mpr (hparent.trans hp)
        obtain ⟨k', hk', hnext, hprev⟩ := ((hkids p).2.2 kp hkp).neighbours (hkids p).1 hmem
        rw [he] at hk'
        cases hk'
        exact ⟨hnext.symm, hprev.symm⟩
    rw [hparent, hfirst, hsides.1, hsides.2]

/-- A registry is well formed exactly when it stores an ordered forest. -/
theorem wellFormed_iff_exists_forest : R.WellFormed ↔ ∃ F, Represents R F := by
  constructor
  · exact Registry.WellFormed.exists_forest
  · intro h
    obtain ⟨F, hF⟩ := h
    exact hF.wellFormed

end Represents

end Lumos.Scene
