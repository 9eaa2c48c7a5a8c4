import Mathlib.Logic.Relation
import Mathlib.Logic.Function.Basic
import Mathlib.Data.List.Nodup

/-!
# Parent links

Every node stores at most one link to a parent. The links are acyclic when the
way up from every node comes to an end; the nodes met on the way are its ascent.
-/
namespace Lumos.ParentLinks

open Relation

variable {α : Type}

/-- `b` is the parent stored at `a`. -/
def Link (parent : α → Option α) (a b : α) : Prop := parent a = some b

/-- The way up from a node comes to an end. -/
inductive Rooted (parent : α → Option α) : α → Prop
  | root {a : α} : parent a = none → Rooted parent a
  | link {a b : α} : parent a = some b → Rooted parent b → Rooted parent a

/-- The nodes on the way up from a node, itself first and its root last. -/
inductive Ascent (parent : α → Option α) : α → List α → Prop
  | root {a : α} : parent a = none → Ascent parent a [a]
  | link {a b : α} {up : List α} :
      parent a = some b → Ascent parent b up → Ascent parent a (a :: up)

variable {parent : α → Option α}

theorem Rooted.of_link {a b : α} (h : Rooted parent a) (hab : parent a = some b) :
    Rooted parent b := by
  cases h with
  | root hn => rw [hn] at hab; cases hab
  | link hl hr =>
    rw [hl] at hab
    cases hab
    exact hr

theorem Rooted.exists_ascent {a : α} (h : Rooted parent a) : ∃ up, Ascent parent a up := by
  induction h with
  | root hn => exact ⟨_, .root hn⟩
  | link hl _ ih =>
    obtain ⟨up, hup⟩ := ih
    exact ⟨_, .link hl hup⟩

theorem Ascent.unique {a : α} {up up' : List α} (h : Ascent parent a up)
    (h' : Ascent parent a up') : up = up' := by
  induction h generalizing up' with
  | root hn =>
    cases h' with
    | root => rfl
    | link hl => rw [hn] at hl; cases hl
  | link hl _ ih =>
    cases h' with
    | root hn => rw [hl] at hn; cases hn
    | link hl' hup' =>
      rw [hl] at hl'
      cases hl'
      rw [ih hup']

/-- Every node on the way up has its own ascent, no longer than the whole. -/
theorem Ascent.of_mem {a x : α} {up : List α} (h : Ascent parent a up) (hx : x ∈ up) :
    ∃ up', Ascent parent x up' ∧ up'.length ≤ up.length := by
  induction h with
  | root hn =>
    cases List.mem_singleton.mp hx
    exact ⟨_, .root hn, Nat.le_refl _⟩
  | @link a b up hl hup ih =>
    rcases List.mem_cons.mp hx with rfl | hx
    · exact ⟨_, .link hl hup, Nat.le_refl _⟩
    · obtain ⟨up', hup', hle⟩ := ih hx
      exact ⟨up', hup', by rw [List.length_cons]; omega⟩

/-- The way up never meets a node twice. -/
theorem Ascent.nodup {a : α} {up : List α} (h : Ascent parent a up) : up.Nodup := by
  induction h with
  | root => exact List.nodup_singleton _
  | @link a b up hl hup ih =>
    refine List.nodup_cons.mpr ⟨?_, ih⟩
    intro ha
    obtain ⟨up', hup', hle⟩ := hup.of_mem ha
    have he := hup'.unique (.link hl hup)
    rw [he, List.length_cons] at hle
    omega

theorem Ascent.above {a x : α} {up : List α} (h : Ascent parent a up) (hx : x ∈ up) :
    ReflTransGen (Link parent) a x := by
  induction h with
  | root => cases List.mem_singleton.mp hx; exact .refl
  | link hl _ ih =>
    rcases List.mem_cons.mp hx with rfl | hx
    · exact .refl
    · exact (ih hx).head hl

theorem Ascent.mem_of_above {a x : α} {up : List α} (h : Ascent parent a up)
    (hx : ReflTransGen (Link parent) a x) : x ∈ up := by
  induction h with
  | root hn =>
    rcases hx.cases_head with rfl | ⟨c, hc, _⟩
    · exact List.mem_singleton_self _
    · rw [Link, hn] at hc; cases hc
  | link hl _ ih =>
    rcases hx.cases_head with rfl | ⟨c, hc, hcx⟩
    · exact List.mem_cons_self
    · rw [Link, hl] at hc
      cases hc
      exact List.mem_cons_of_mem _ (ih hcx)

/-- The way up leads from each of its nodes to one root. -/
theorem Ascent.exists_root {a : α} {up : List α} (h : Ascent parent a up) :
    ∃ r ∈ up, parent r = none ∧ ∀ x ∈ up, ReflTransGen (Link parent) x r := by
  induction h with
  | @root a hn =>
    refine ⟨a, List.mem_singleton_self a, hn, ?_⟩
    intro x hx
    cases List.mem_singleton.mp hx
    exact .refl
  | @link a b up hl hup ih =>
    obtain ⟨r, hr, hroot, hall⟩ := ih
    refine ⟨r, List.mem_cons_of_mem a hr, hroot, ?_⟩
    intro x hx
    cases List.mem_cons.mp hx with
    | inl hxa => exact hxa ▸ (hup.above hr).head hl
    | inr hx => exact hall x hx

/-- Between a node with a property and one above it without it there is a link on which
the property is lost. -/
theorem exists_gap {P : α → Prop} {a b : α} (h : ReflTransGen (Link parent) a b) (ha : P a)
    (hb : ¬ P b) : ∃ x y, parent x = some y ∧ P x ∧ ¬ P y := by
  induction h with
  | refl => exact absurd ha hb
  | @tail b c _ hbc ih =>
    by_cases hPb : P b
    · exact ⟨b, c, hbc, hPb, hb⟩
    · exact ih hPb

/-- No node lies strictly above itself. -/
theorem Rooted.not_cycle {a b : α} (h : Rooted parent a) (hab : parent a = some b) :
    ¬ ReflTransGen (Link parent) b a := by
  intro hba
  obtain ⟨up, hup⟩ := (h.of_link hab).exists_ascent
  have hn := (Ascent.link hab hup).nodup
  exact (List.nodup_cons.mp hn).1 (hup.mem_of_above hba)

section Update

variable [DecidableEq α]

/-- Cutting a link leaves every way up finite. -/
theorem Rooted.cut {a : α} (q : α) (h : Rooted parent a) :
    Rooted (Function.update parent q none) a := by
  induction h with
  | @root a hn =>
    refine .root ?_
    by_cases ha : a = q <;> simp [ha, hn]
  | @link a b hl _ ih =>
    by_cases ha : a = q
    · exact .root (by simp [ha])
    · exact .link (by simpa [ha] using hl) ih

/-- The way up from a node does not see a change of links at nodes off it. -/
theorem Rooted.relink_off {a q : α} {link : Option α} (h : Rooted parent a)
    (hq : ¬ ReflTransGen (Link parent) a q) : Rooted (Function.update parent q link) a := by
  induction h with
  | @root a hn =>
    have ha : a ≠ q := by rintro rfl; exact hq .refl
    exact .root (by simpa [ha] using hn)
  | @link a b hl _ ih =>
    have ha : a ≠ q := by rintro rfl; exact hq .refl
    exact .link (by simpa [ha] using hl) (ih fun h => hq (h.head hl))

/-- A new link keeps every way up finite when the new parent is not below it. -/
theorem Rooted.relink {a p q : α} (hp : Rooted parent p)
    (hq : ¬ ReflTransGen (Link parent) p q) (h : Rooted parent a) :
    Rooted (Function.update parent q (some p)) a := by
  induction h with
  | @root a hn =>
    by_cases ha : a = q
    · exact .link (b := p) (by simp [ha]) (hp.relink_off hq)
    · exact .root (by simpa [ha] using hn)
  | @link a b hl _ ih =>
    by_cases ha : a = q
    · exact .link (b := p) (by simp [ha]) (hp.relink_off hq)
    · exact .link (by simpa [ha] using hl) ih

end Update

end Lumos.ParentLinks
