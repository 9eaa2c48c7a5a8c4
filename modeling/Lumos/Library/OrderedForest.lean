import Lumos.Library.ParentLinks
import Lumos.Library.SiblingRow
import Mathlib.Data.Finset.Card
import Mathlib.Data.Finset.Filter

/-!
# Ordered forests

Nodes that each have at most one parent and an ordered row of children. A node is
taken out of its row, put at the end of another node's row, entered and removed.
-/
namespace Lumos

open Relation ParentLinks SiblingRow

@[ext]
structure OrderedForest (α : Type) where
  members : Finset α
  parent : α → Option α
  kids : α → List α
  nodup : ∀ p, (kids p).Nodup
  mem_kids : ∀ {c p}, c ∈ kids p ↔ parent c = some p
  rooted : ∀ a, Rooted parent a
  mem_of_link : ∀ {c p}, parent c = some p → c ∈ members ∧ p ∈ members

namespace OrderedForest

variable {α : Type}

/-- `p` is `e` or lies below it. -/
def Below (F : OrderedForest α) (p e : α) : Prop := ReflTransGen (Link F.parent) p e

theorem kids_of_not_mem (F : OrderedForest α) {p : α} (hp : p ∉ F.members) : F.kids p = [] := by
  rw [List.eq_nil_iff_forall_not_mem]
  intro c hc
  exact hp (F.mem_of_link (F.mem_kids.mp hc)).2

theorem parent_of_not_mem (F : OrderedForest α) {e : α} (he : e ∉ F.members) : F.parent e = none := by
  cases hp : F.parent e with
  | none => rfl
  | some p => exact absurd (F.mem_of_link hp).1 he

theorem kids_subset (F : OrderedForest α) (p : α) : ∀ c ∈ F.kids p, c ∈ F.members :=
  fun _ hc => (F.mem_of_link (F.mem_kids.mp hc)).1

/-- No node is on its own row. -/
theorem not_mem_kids_self (F : OrderedForest α) (e : α) : e ∉ F.kids e := by
  intro h
  exact (F.rooted e).not_cycle (F.mem_kids.mp h) .refl

theorem not_mem_kids_of_root (F : OrderedForest α) {e : α} (h : F.parent e = none) (p : α) :
    e ∉ F.kids p := by
  rw [F.mem_kids, h]
  simp

/-- A node that is not in the forest is above itself only. -/
theorem below_of_not_mem (F : OrderedForest α) {p e : α} (he : e ∉ F.members) (h : F.Below p e) : p = e := by
  cases h.cases_tail with
  | inl heq => exact heq.symm
  | inr hlast =>
    obtain ⟨c, _, hc⟩ := hlast
    exact absurd (F.mem_of_link hc).2 he

variable [DecidableEq α]

/-- The node after `e` on the row of its parent. -/
def next (F : OrderedForest α) (e : α) : Option α := (F.parent e).bind fun p => nextIn (F.kids p) e

/-- The node before `e` on the row of its parent. -/
def prev (F : OrderedForest α) (e : α) : Option α := (F.parent e).bind fun p => prevIn (F.kids p) e

def empty : OrderedForest α where
  members := ∅
  parent := fun _ => none
  kids := fun _ => []
  nodup := fun _ => List.nodup_nil
  mem_kids := by simp
  rooted := fun _ => .root rfl
  mem_of_link := by simp

/-- Enter `e`, without any link. -/
def enter (F : OrderedForest α) (e : α) : OrderedForest α :=
  { F with
    members := insert e F.members
    mem_of_link := fun h =>
      ⟨Finset.mem_insert_of_mem (F.mem_of_link h).1, Finset.mem_insert_of_mem (F.mem_of_link h).2⟩ }

/-- Take `e` off its parent's row. -/
def detach (F : OrderedForest α) (e : α) : OrderedForest α where
  members := F.members
  parent := Function.update F.parent e none
  kids := fun p => (F.kids p).erase e
  nodup := fun p => (F.nodup p).erase e
  mem_kids := by
    intro c p
    rw [(F.nodup p).mem_erase_iff, F.mem_kids]
    by_cases hc : c = e
    · simp [hc]
    · simp [hc]
  rooted := fun a => (F.rooted a).cut e
  mem_of_link := by
    intro c p h
    by_cases hc : c = e
    · simp [hc] at h
    · exact F.mem_of_link (by simpa [hc] using h)

/-- Put the root `e` at the end of the row of `p`. -/
def attach (F : OrderedForest α) (e p : α) (hroot : F.parent e = none) (hoff : ¬ F.Below p e) :
    OrderedForest α where
  members := insert e (insert p F.members)
  parent := Function.update F.parent e (some p)
  kids := Function.update F.kids p (F.kids p ++ [e])
  nodup := by
    intro q
    by_cases hq : q = p
    · subst hq
      simpa using (F.nodup q).concat (F.not_mem_kids_of_root hroot q)
    · simpa [hq] using F.nodup q
  mem_kids := by
    intro c q
    by_cases hc : c = e
    · subst hc
      have hfree := F.not_mem_kids_of_root hroot
      by_cases hq : q = p
      · subst hq; simp
      · simp [hq, hfree q, Ne.symm hq]
    · by_cases hq : q = p
      · subst hq; simp [hc, F.mem_kids]
      · simp [hq, hc, F.mem_kids]
  rooted := fun a => (F.rooted p).relink hoff (F.rooted a)
  mem_of_link := by
    intro c q h
    by_cases hc : c = e
    · subst hc
      have hq : p = q := by simpa using h
      subst hq
      simp
    · have hold := F.mem_of_link (c := c) (p := q) (by simpa [hc] using h)
      simp [hold]

/-- Remove `e`, which has no parent and no children. -/
def remove (F : OrderedForest α) (e : α) (hroot : F.parent e = none) (hkids : F.kids e = []) :
    OrderedForest α :=
  { F with
    members := F.members.erase e
    mem_of_link := by
      intro c p h
      have hold := F.mem_of_link h
      have hc : c ≠ e := by
        intro hce
        subst hce
        rw [hroot] at h
        cases h
      have hp : p ≠ e := by
        intro hpe
        subst hpe
        have hmem := F.mem_kids.mpr h
        rw [hkids] at hmem
        cases hmem
      exact ⟨Finset.mem_erase.mpr ⟨hc, hold.1⟩, Finset.mem_erase.mpr ⟨hp, hold.2⟩⟩ }

variable (F : OrderedForest α) {e p x y : α}

/-! ## Neighbours -/

theorem next_eq_some_iff : F.next x = some y ↔ F.prev y = some x := by
  unfold next prev
  constructor
  · intro h
    obtain ⟨p, hp, hnext⟩ := Option.bind_eq_some_iff.mp h
    have hy : F.parent y = some p := F.mem_kids.mp (mem_of_nextIn hnext)
    rw [hy]
    exact (nextIn_eq_some_iff (F.nodup p)).mp hnext
  · intro h
    obtain ⟨p, hp, hprev⟩ := Option.bind_eq_some_iff.mp h
    have hx : x ∈ F.kids p := (mem_of_prevFrom hprev).resolve_left (by simp)
    rw [F.mem_kids.mp hx]
    exact (nextIn_eq_some_iff (F.nodup p)).mpr hprev

theorem head?_kids : (F.kids p).head? = some e ↔ F.parent e = some p ∧ F.prev e = none := by
  rw [head?_eq_some_iff, F.mem_kids]
  constructor
  · intro h
    refine ⟨h.1, ?_⟩
    rw [prev, h.1]
    exact h.2
  · intro h
    refine ⟨h.1, ?_⟩
    have hprev := h.2
    rw [prev, h.1] at hprev
    exact hprev

/-- The neighbours of a child whose place on the row is known. -/
theorem sides_of_split {front back : List α} (h : F.kids p = front ++ e :: back) :
    F.parent e = some p ∧ F.next e = back.head? ∧ F.prev e = front.getLast? := by
  have hparent : F.parent e = some p := F.mem_kids.mp (by rw [h]; simp)
  have hfront : e ∉ front := by
    have hnodup := F.nodup p
    rw [h] at hnodup
    intro he
    exact (List.nodup_append.mp hnodup).2.2 e he e List.mem_cons_self rfl
  refine ⟨hparent, ?_, ?_⟩
  · simp [next, hparent, h, nextIn_split hfront]
  · simp [prev, hparent, h, prevIn, prevFrom_split hfront]

theorem next_ne_self : F.next e ≠ some e := by
  intro h
  obtain ⟨p, _, hnext⟩ := Option.bind_eq_some_iff.mp h
  exact nextIn_ne_self (F.nodup p) hnext

theorem mem_of_next (h : F.next x = some y) : x ∈ F.members ∧ y ∈ F.members := by
  obtain ⟨p, hp, hnext⟩ := Option.bind_eq_some_iff.mp h
  exact ⟨(F.mem_of_link hp).1, F.kids_subset p y (mem_of_nextIn hnext)⟩

theorem mem_of_prev (h : F.prev x = some y) : x ∈ F.members ∧ y ∈ F.members :=
  (F.mem_of_next (F.next_eq_some_iff.mpr h)).symm

/-! ## Detaching -/

@[simp] theorem members_detach : (F.detach e).members = F.members := rfl

@[simp] theorem parent_detach : (F.detach e).parent = Function.update F.parent e none := rfl

@[simp] theorem kids_detach : (F.detach e).kids p = (F.kids p).erase e := rfl

theorem head?_kids_detach : ((F.detach e).kids p).head? =
    if F.parent e = some p ∧ F.prev e = none then F.next e else (F.kids p).head? := by
  rw [kids_detach, head?_erase]
  by_cases h : F.parent e = some p ∧ F.prev e = none
  · have hhead := F.head?_kids.mpr h
    simp [h, hhead, next]
  · have hhead : (F.kids p).head? ≠ some e := fun hh => h (F.head?_kids.mp hh)
    simp [h, hhead]

theorem next_detach (hx : x ≠ e) :
    (F.detach e).next x = if F.next x = some e then F.next e else F.next x := by
  unfold next
  cases hp : F.parent x with
  | none => simp [hx, hp]
  | some q =>
    simp only [parent_detach, Function.update_of_ne hx, hp, Option.bind_some, kids_detach,
      nextIn_erase (F.nodup q) hx]
    by_cases hn : nextIn (F.kids q) x = some e
    · have he : F.parent e = some q := F.mem_kids.mp (mem_of_nextIn hn)
      simp [hn, he]
    · simp [hn]

theorem prev_detach (hx : x ≠ e) :
    (F.detach e).prev x = if F.prev x = some e then F.prev e else F.prev x := by
  unfold prev
  cases hp : F.parent x with
  | none => simp [hx, hp]
  | some q =>
    simp only [parent_detach, Function.update_of_ne hx, hp, Option.bind_some, kids_detach, prevIn,
      prevFrom_erase (F.nodup q) (show none ≠ some e by simp) hx]
    by_cases hn : prevFrom none (F.kids q) x = some e
    · have he : F.parent e = some q := F.mem_kids.mp ((mem_of_prevFrom hn).resolve_left (by simp))
      simp [hn, he]
    · simp [hn]

/-- A root is on no row to be taken off. -/
theorem detach_of_root (h : F.parent e = none) : F.detach e = F := by
  apply OrderedForest.ext
  · rfl
  · exact Function.update_eq_self_iff.mpr h.symm
  · funext p
    exact List.erase_of_not_mem (F.not_mem_kids_of_root h p)

/-- A node not below `e` is not below it after `e` has been detached. -/
theorem not_below_detach (h : ¬ F.Below p e) : ¬ (F.detach e).Below p e := by
  intro hbelow
  apply h
  refine ReflTransGen.mono ?_ _ _ hbelow
  intro a b hab
  by_cases ha : a = e
  · simp [Link, ha] at hab
  · simpa [Link, ha] using hab

/-! ## Attaching -/

section Attach

variable {hroot : F.parent e = none} {hoff : ¬ F.Below p e}

@[simp] theorem members_attach : (F.attach e p hroot hoff).members = insert e (insert p F.members) := rfl

@[simp] theorem parent_attach :
    (F.attach e p hroot hoff).parent = Function.update F.parent e (some p) := rfl

@[simp] theorem kids_attach :
    (F.attach e p hroot hoff).kids = Function.update F.kids p (F.kids p ++ [e]) := rfl

theorem next_attach (hx : x ≠ e) : (F.attach e p hroot hoff).next x =
    if (F.kids p).getLast? = some x then some e else F.next x := by
  unfold next
  cases hq : F.parent x with
  | none =>
    have hlast : (F.kids p).getLast? ≠ some x := by
      intro h
      rw [F.mem_kids.mp (List.mem_of_getLast? h)] at hq
      cases hq
    simp [hx, hq, hlast]
  | some q =>
    by_cases hqp : q = p
    · subst hqp
      simp [hx, hq, nextIn_concat (F.nodup q) hx]
    · have hlast : (F.kids p).getLast? ≠ some x := by
        intro h
        rw [F.mem_kids.mp (List.mem_of_getLast? h)] at hq
        cases hq
        exact hqp rfl
      simp [hx, hq, hqp, hlast]

theorem prev_attach (hx : x ≠ e) : (F.attach e p hroot hoff).prev x = F.prev x := by
  unfold prev
  cases hq : F.parent x with
  | none => simp [hx, hq]
  | some q =>
    by_cases hqp : q = p
    · subst hqp
      simp [hx, hq, prevIn, prevFrom_concat hx]
    · simp [hx, hq, hqp]

theorem next_attach_self : (F.attach e p hroot hoff).next e = none := by
  have he := F.not_mem_kids_of_root hroot p
  simp [next, nextIn_split he]

theorem prev_attach_self : (F.attach e p hroot hoff).prev e = (F.kids p).getLast? := by
  have he := F.not_mem_kids_of_root hroot p
  simp [prev, prevIn, prevFrom_split he]

theorem head?_kids_attach (q : α) : ((F.attach e p hroot hoff).kids q).head? =
    if q = p ∧ F.kids p = [] then some e else (F.kids q).head? := by
  by_cases hq : q = p
  · subst hq
    cases hk : F.kids q <;> simp [hk]
  · simp [hq]

end Attach

/-! ## Going down -/

omit [DecidableEq α] in
theorem below_iff : F.Below x e ↔ x = e ∨ ∃ c ∈ F.kids e, F.Below x c := by
  constructor
  · intro h
    cases h.cases_tail with
    | inl heq => exact .inl heq.symm
    | inr hlast =>
      obtain ⟨c, hxc, hce⟩ := hlast
      exact .inr ⟨c, F.mem_kids.mpr hce, hxc⟩
  · intro h
    cases h with
    | inl heq => exact heq ▸ .refl
    | inr hbelow =>
      obtain ⟨c, hc, hxc⟩ := hbelow
      exact hxc.tail (F.mem_kids.mp hc)

omit [DecidableEq α] in
/-- What holds of a node when it holds of its children holds of every node. -/
theorem descend {P : α → Prop} (h : ∀ p, (∀ c ∈ F.kids p, P c) → P p) (p : α) : P p := by
  classical
  induction hn : (F.members.filter (F.Below · p)).card using Nat.strongRecOn generalizing p with
  | ind n ih =>
    subst hn
    apply h p
    intro c hc
    refine ih _ ?_ c rfl
    -- the subtree of a child misses its parent
    have hlink := F.mem_kids.mp hc
    apply Finset.card_lt_card
    refine (Finset.ssubset_iff_of_subset ?_).mpr ⟨p, ?_, ?_⟩
    · intro x hx
      obtain ⟨hm, hxc⟩ := Finset.mem_filter.mp hx
      exact Finset.mem_filter.mpr ⟨hm, hxc.tail hlink⟩
    · exact Finset.mem_filter.mpr ⟨(F.mem_of_link hlink).2, .refl⟩
    · intro hp
      exact (F.rooted c).not_cycle hlink (Finset.mem_filter.mp hp).2

/-- The number of children is at most the number of members. -/
theorem length_kids_le (p : α) : (F.kids p).length ≤ F.members.card := by
  rw [← List.toFinset_card_of_nodup (F.nodup p)]
  apply Finset.card_le_card
  intro c hc
  exact F.kids_subset p c (List.mem_toFinset.mp hc)

end OrderedForest

end Lumos
