import Lumos.Scene.HierarchyForest

/-!
# What the handlers do to the forest

`OnDestroy` detaches an entity and leaves its own links behind; `OnConstruct` attaches
an entity whose parent link has been written. The walks along the links see the rows
and the ways up of the forest.
-/
namespace Lumos.Scene

open Relation ParentLinks SiblingRow Loop Registry

variable {ε τ : Type} [DecidableEq ε] {R : Registry ε τ} {F : OrderedForest ε} {e p : ε}

/-- `R'` differs from `R` in nothing but links. -/
structure SameEntities (R R' : Registry ε τ) : Prop where
  alive : R'.alive = R.alive
  transform : R'.transform = R.transform
  signals : R'.signals = R.signals

omit [DecidableEq ε] in
theorem SameEntities.refl (R : Registry ε τ) : SameEntities R R := ⟨rfl, rfl, rfl⟩

omit [DecidableEq ε] in
theorem SameEntities.trans {R₁ R₂ R₃ : Registry ε τ} (h : SameEntities R₁ R₂) (h' : SameEntities R₂ R₃) :
    SameEntities R₁ R₃ :=
  ⟨h'.alive.trans h.alive, h'.transform.trans h.transform, h'.signals.trans h.signals⟩

theorem Represents.get (h : Represents R F) (he : e ∈ F.members) : R.get e = some (linksAt F e) := by
  rw [get_of_mem (h.members e he), h.links, linksOf_of_mem he]

/-! ## Detaching -/

/-- The links of `x` after `e` has been spliced out around it. -/
def splice (F : OrderedForest ε) (e x : ε) (h : Hierarchy ε) : Hierarchy ε :=
  { h with
    first := if F.parent e = some x ∧ F.prev e = none then F.next e else h.first
    next := if F.prev e = some x then F.next e else h.next
    prev := if F.next e = some x then F.prev e else h.prev }

/-- Splicing writes the links of the forest without `e`. -/
theorem splice_links {x : ε} (hx : x ≠ e) :
    (linksOf F x).map (splice F e x) = linksOf (F.detach e) x := by
  by_cases hm : x ∈ F.members
  · rw [linksOf_of_mem hm, linksOf_of_mem (F := F.detach e) hm, Option.map_some]
    congr 1
    unfold linksAt splice
    rw [F.head?_kids_detach, F.next_detach hx, F.prev_detach hx, OrderedForest.parent_detach,
      Function.update_of_ne hx]
    have hnext : F.next x = some e ↔ F.prev e = some x := F.next_eq_some_iff
    have hprev : F.prev x = some e ↔ F.next e = some x := F.next_eq_some_iff.symm
    simp only [hnext, hprev]
  · simp [linksOf, hm]

/-- An entity is not its own parent, nor next to itself. -/
theorem splice_self (h : Hierarchy ε) : splice F e e h = h := by
  have hparent : F.parent e ≠ some e := fun hp => F.not_mem_kids_self e (F.mem_kids.mpr hp)
  have hnext : F.next e ≠ some e := F.next_ne_self
  have hprev : F.prev e ≠ some e := fun hp => hnext (F.next_eq_some_iff.mpr hp)
  simp [splice, hparent, hnext, hprev]

theorem unlinkFirst_spec (hR : Represents R F) (hprev : F.prev e = none) :
    ∃ R', R.unlinkFirst true (linksAt F e) = some R' ∧ SameEntities R R' ∧
      ∀ x, R'.hierarchy x = (R.hierarchy x).map (splice F e x) := by
  cases hp : F.parent e with
  | none =>
    have hnext : F.next e = none := by simp [OrderedForest.next, hp]
    refine ⟨R, by simp [unlinkFirst, linksAt, hp], .refl R, ?_⟩
    intro x
    have hid : splice F e x = id := by
      funext h
      simp [splice, hp, hnext, hprev]
    rw [hid, Option.map_id]
    rfl
  | some q =>
    have hq : q ∈ F.members := (F.mem_of_link hp).2
    have hlive : ∀ y, F.next e = some y → y ∈ (R.modify q fun h => { h with first := F.next e }).alive :=
      fun y hy => hR.members y (F.mem_of_next hy).2
    obtain ⟨R', hR', halive, htransform, hsignals, hlinks⟩ :=
      patchLink_spec hlive fun h => { h with prev := none }
    refine ⟨R', ?_, ⟨halive, htransform, hsignals⟩, ?_⟩
    · have hlook : R.tryGet q = some (some (linksAt F q)) := by
        rw [tryGet_of_mem (hR.members q hq), hR.links, linksOf_of_mem hq]
      have hlq : q ∈ R.alive := hR.members q hq
      simp only [unlinkFirst, linksAt, hp, hlook, hlq, not_true_eq_false, and_false, if_false]
      exact hR'
    · intro x
      rw [hlinks x, hierarchy_modify]
      cases R.hierarchy x with
      | none => simp
      | some h =>
        by_cases hxq : x = q
        · subst hxq
          by_cases hxn : F.next e = some x <;> simp [splice, hp, hprev, hxn]
        · by_cases hxn : F.next e = some x <;> simp [splice, hp, hprev, hxn, hxq, Ne.symm hxq]

/-- `OnDestroy` of a member succeeds and detaches it for all the others. -/
theorem onDestroy_spec (hR : Represents R F) (he : e ∈ F.members) :
    ∃ R', R.onDestroy e = some R' ∧ SameEntities R R' ∧
      ∀ x, R'.hierarchy x = if x = e then R.hierarchy e else linksOf (F.detach e) x := by
  have hsplice : ∃ R', R.onDestroy e = some R' ∧ SameEntities R R' ∧
      ∀ x, R'.hierarchy x = (R.hierarchy x).map (splice F e x) := by
    cases hprev : F.prev e with
    | none =>
      obtain ⟨R', hR', hrest⟩ := unlinkFirst_spec hR hprev
      refine ⟨R', ?_, hrest⟩
      simp only [onDestroy, unlink, hR.get he, show (linksAt F e).prev = none from hprev]
      exact hR'
    | some b =>
      have hb : b ∈ R.alive := hR.members b (F.mem_of_prev hprev).2
      have hlive : ∀ y, F.next e = some y → y ∈ (R.modify b fun h => { h with next := F.next e }).alive :=
        fun y hy => hR.members y (F.mem_of_next hy).2
      obtain ⟨R', hR', halive, htransform, hsignals, hlinks⟩ :=
        patchLink_spec hlive fun h => { h with prev := some b }
      refine ⟨R', ?_, ⟨halive, htransform, hsignals⟩, ?_⟩
      · simp only [onDestroy, unlink, hR.get he, show (linksAt F e).prev = some b from hprev,
          hb, not_true_eq_false, and_false, if_false, patch_of_mem hb]
        exact hR'
      · intro x
        rw [hlinks x, hierarchy_modify]
        cases R.hierarchy x with
        | none => simp
        | some h =>
          by_cases hxb : x = b
          · subst hxb
            by_cases hxn : F.next e = some x <;> simp [splice, hprev, hxn]
          · by_cases hxn : F.next e = some x <;> simp [splice, hprev, hxn, hxb, Ne.symm hxb]
  obtain ⟨R', hR', hsame, hlinks⟩ := hsplice
  refine ⟨R', hR', hsame, ?_⟩
  intro x
  rw [hlinks x]
  by_cases hx : x = e
  · subst hx
    rw [if_pos rfl]
    cases R.hierarchy x with
    | none => rfl
    | some h => simp [splice_self]
  · rw [if_neg hx, hR.links, splice_links hx]

/-! ## The walks -/

/-- The walk from an entity on a row ends at the last entity of the row. -/
theorem lastChild_run {prev : Option ε} {x : ε} {row : List ε}
    (h : SiblingLinks R.hierarchy prev (some x) (x :: row)) (hlive : ∀ y ∈ row, y ∈ R.alive) {n : Nat}
    (hn : row.length < n) :
    ∃ last k, (x :: row).getLast? = some last ∧ R.hierarchy last = some k ∧
      run R.lastChildBody n (x, R.hierarchy x) = some (last, some k) := by
  induction row generalizing prev x n with
  | nil =>
    cases h with
    | @cons _ _ k _ hk _ hrest =>
      have hnext : k.next = none := hrest.first_eq
      obtain ⟨m, rfl⟩ : ∃ m, n = m + 1 := ⟨n - 1, by omega⟩
      refine ⟨x, k, rfl, hk, ?_⟩
      rw [hk]
      exact run_leave (by simp [lastChildBody, hnext]) m
  | cons y row ih =>
    cases h with
    | @cons _ _ k _ hk _ hrest =>
      have hnext : k.next = some y := hrest.first_eq
      rw [hnext] at hrest
      rw [List.length_cons] at hn
      obtain ⟨m, rfl⟩ : ∃ m, n = m + 1 := ⟨n - 1, by omega⟩
      obtain ⟨last, kl, hlast, hkl, hrun⟩ :=
        ih hrest (fun z hz => hlive z (List.mem_cons_of_mem y hz)) (n := m) (by omega)
      refine ⟨last, kl, by rw [List.getLast?_cons_cons, hlast], hkl, ?_⟩
      have hturn : Turn R.lastChildBody (x, R.hierarchy x) (y, R.hierarchy y) := by
        simp [Turn, lastChildBody, hk, hnext, tryGet_of_mem (hlive y List.mem_cons_self)]
      rw [run_turn hturn]
      exact hrun

/-- The walk of `GetChildren` collects the rest of the row. -/
theorem getChildren_run {prev first : Option ε} {row : List ε}
    (h : SiblingLinks R.hierarchy prev first row) (hlive : ∀ y ∈ row, y ∈ R.alive) {n : Nat}
    (hn : row.length < n) (children : List ε) :
    run R.getChildrenBody n (first, children) = some (children ++ row) := by
  induction h generalizing n children with
  | nil =>
    obtain ⟨m, rfl⟩ : ∃ m, n = m + 1 := ⟨n - 1, by omega⟩
    rw [List.append_nil]
    exact run_leave rfl m
  | @cons prev c k row hk _ _ ih =>
    rw [List.length_cons] at hn
    obtain ⟨m, rfl⟩ : ∃ m, n = m + 1 := ⟨n - 1, by omega⟩
    have hturn : Turn R.getChildrenBody (some c, children) (k.next, children ++ [c]) := by
      simp [Turn, getChildrenBody, hlive c List.mem_cons_self, hk]
    rw [run_turn hturn, ih (fun z hz => hlive z (List.mem_cons_of_mem c hz)) (by omega)]
    simp

/-- `GetChildren` returns the row of the entity. -/
theorem getChildren_spec (hR : Represents R F) (he : e ∈ R.alive) : R.getChildren e = some (F.kids e) := by
  unfold getChildren
  rw [tryGet_of_mem he, hR.links]
  by_cases hm : e ∈ F.members
  · have hlinks : SiblingLinks R.hierarchy none (linksAt F e).first (F.kids e) := by
      rw [hR.links]
      exact siblingLinks_kids F e
    have hlength : (F.kids e).length < R.walkBound := by
      have hcard := Finset.card_le_card (show F.members ⊆ R.alive from hR.members)
      have hle := F.length_kids_le e
      unfold walkBound
      omega
    rw [linksOf_of_mem hm]
    exact getChildren_run hlinks (fun y hy => hR.members y (F.kids_subset e y hy)) hlength []
  · simp [linksOf, hm, F.kids_of_not_mem hm]

/-- The climb finds an entity exactly when it is on the way up. -/
theorem isParent_run (hR : Represents R F) {q : ε} {up : List ε} (h : Ascent F.parent q up)
    (hup : ∀ x ∈ up, x ∈ R.alive) {n : Nat} (hn : up.length < n) (e : ε) :
    run (R.isParentBody e) n (some q) = some (decide (e ∈ up)) := by
  induction h generalizing n with
  | @root q hq =>
    obtain ⟨m, rfl⟩ : ∃ m, n = m + 1 := ⟨n - 1, by omega⟩
    by_cases hqe : q = e
    · subst hqe
      rw [run_leave (r := true) (by simp [isParentBody])]
      simp
    · have hturn : Turn (R.isParentBody e) (some q) none := by
        have hparent : (R.hierarchy q).bind Hierarchy.parent = none := by
          rw [← hq, ← hR.parentOf]
          rfl
        simp [Turn, isParentBody, hqe, tryGet_of_mem (hup q (by simp)), hparent]
      rw [run_turn hturn]
      obtain ⟨k, rfl⟩ : ∃ k, m = k + 1 := ⟨m - 1, by simp at hn; omega⟩
      rw [run_leave (r := false) rfl]
      simp [Ne.symm hqe]
  | @link q r up hl hrest ih =>
    rw [List.length_cons] at hn
    obtain ⟨m, rfl⟩ : ∃ m, n = m + 1 := ⟨n - 1, by omega⟩
    by_cases hqe : q = e
    · subst hqe
      rw [run_leave (r := true) (by simp [isParentBody])]
      simp
    · have hturn : Turn (R.isParentBody e) (some q) (some r) := by
        have hparent : (R.hierarchy q).bind Hierarchy.parent = some r := by
          rw [← hl, ← hR.parentOf]
          rfl
        simp [Turn, isParentBody, hqe, tryGet_of_mem (hup q (by simp)), hparent]
      rw [run_turn hturn, ih (fun x hx => hup x (List.mem_cons_of_mem q hx)) (by omega)]
      simp [Ne.symm hqe]

/-- `IsParent` of two different entities tells whether one lies below the other. -/
theorem isParent_spec (hR : Represents R F) (hp : p ∈ R.alive) (hpe : p ≠ e) :
    ∃ above, R.isParent p e = some above ∧ (above = true ↔ F.Below p e) := by
  unfold isParent
  rw [tryGet_of_mem hp]
  change ∃ above, run (R.isParentBody e) R.walkBound (R.parentOf p) = some above ∧ _
  rw [hR.parentOf]
  cases hq : F.parent p with
  | none =>
    refine ⟨false, run_leave rfl _, ?_⟩
    simp only [Bool.false_eq_true, false_iff]
    intro hbelow
    cases hbelow.cases_head with
    | inl heq => exact hpe heq
    | inr hlink =>
      obtain ⟨c, hc, _⟩ := hlink
      rw [Link, hq] at hc
      cases hc
  | some q =>
    obtain ⟨up, hup⟩ := (F.rooted q).exists_ascent
    have hlive : ∀ x ∈ up, x ∈ F.members := by
      intro x hx
      cases (hup.above hx).cases_tail with
      | inl heq => rw [heq]; exact (F.mem_of_link hq).2
      | inr hlast =>
        obtain ⟨c, _, hc⟩ := hlast
        exact (F.mem_of_link hc).2
    have hlength : up.length < R.walkBound := by
      have hcard := Finset.card_le_card (show F.members ⊆ R.alive from hR.members)
      have hle : up.length ≤ F.members.card := by
        rw [← List.toFinset_card_of_nodup hup.nodup]
        apply Finset.card_le_card
        intro x hx
        exact hlive x (List.mem_toFinset.mp hx)
      unfold walkBound
      omega
    refine ⟨decide (e ∈ up), isParent_run hR hup (fun x hx => hR.members x (hlive x hx)) hlength e, ?_⟩
    rw [decide_eq_true_iff]
    constructor
    · intro he
      exact (hup.above he).head hq
    · intro hbelow
      cases hbelow.cases_head with
      | inl heq => exact absurd heq hpe
      | inr hlink =>
        obtain ⟨c, hc, hce⟩ := hlink
        rw [Link, hq] at hc
        cases hc
        exact hup.mem_of_above hce

/-! ## Attaching -/

/-- `R` stores the forest, and beside it `e` with its parent link written and no row. -/
structure Pending (R : Registry ε τ) (F : OrderedForest ε) (e p : ε) : Prop where
  members : ∀ x ∈ F.members, x ∈ R.alive
  entity : e ∈ R.alive
  parent : p ∈ R.alive
  links : ∀ x, R.hierarchy x =
    if x = e then some ⟨some p, (F.kids e).head?, none, none⟩ else linksOf F x

/-- The links of `x` after `e` has been put at the end of the row of `p`. -/
def append (F : OrderedForest ε) (e p x : ε) (h : Hierarchy ε) : Hierarchy ε :=
  { h with
    first := if x = p ∧ F.kids p = [] then some e else h.first
    next := if (F.kids p).getLast? = some x then some e else h.next
    prev := if x = e then (F.kids p).getLast? else h.prev }

/-- Appending writes the links of the forest with `e` below `p`. -/
theorem append_links (hp : p ∈ F.members) (hroot : F.parent e = none) (hoff : ¬ F.Below p e) (x : ε) :
    (if x = e then some ⟨some p, (F.kids e).head?, none, none⟩ else linksOf F x).map (append F e p x) =
      linksOf (F.attach e p hroot hoff) x := by
  have hpe : e ≠ p := by
    intro h
    subst h
    exact hoff .refl
  have hlast : (F.kids p).getLast? ≠ some e :=
    fun h => F.not_mem_kids_of_root hroot p (List.mem_of_getLast? h)
  by_cases hx : x = e
  · subst hx
    have hm : x ∈ (F.attach x p hroot hoff).members := by simp
    rw [if_pos rfl, linksOf_of_mem hm, Option.map_some, linksAt, F.head?_kids_attach,
      F.next_attach_self, F.prev_attach_self]
    simp [append, hpe, hlast]
  · rw [if_neg hx]
    by_cases hm : x ∈ F.members
    · have hm' : x ∈ (F.attach e p hroot hoff).members := by simp [hm]
      rw [linksOf_of_mem hm, linksOf_of_mem hm', Option.map_some]
      congr 1
      simp only [linksAt, append, F.head?_kids_attach, F.next_attach hx, F.prev_attach hx, if_neg hx,
        OrderedForest.parent_attach, Function.update_of_ne hx]
    · have hxp : x ≠ p := fun h => hm (h ▸ hp)
      simp [linksOf, hm, hx, hxp]

/-- A missing component of the parent is made first; it has no links. -/
theorem getOrEmplace_spec (hR : Pending R F e p) (hpe : p ≠ e) :
    ∃ R', R.getOrEmplace (fun R p => onConstruct 1 R p) p = some R' ∧ SameEntities R R' ∧ Pending R' (F.enter p) e p := by
  have hlook : R.tryGet p = some (linksOf F p) := by
    rw [tryGet_of_mem hR.parent, hR.links, if_neg hpe]
  have hmembers : ∀ x ∈ (F.enter p).members, x ∈ R.alive := by
    intro x hx
    cases Finset.mem_insert.mp hx with
    | inl hxp => exact hxp ▸ hR.parent
    | inr hx => exact hR.members x hx
  by_cases hp : p ∈ F.members
  · have hsame : linksOf (F.enter p) = linksOf F := by
      funext x
      have hmem : x ∈ (F.enter p).members ↔ x ∈ F.members := by
        simp only [OrderedForest.enter, Finset.mem_insert, or_iff_right_iff_imp]
        intro hx
        exact hx ▸ hp
      simp only [linksOf, hmem]
      rfl
    refine ⟨R, ?_, .refl R, hmembers, hR.entity, hR.parent, ?_⟩
    · simp [getOrEmplace, hlook, linksOf_of_mem hp]
    · intro x
      rw [hsame]
      exact hR.links x
  · have hnone : linksOf F p = none := by simp [linksOf, hp]
    refine ⟨R.store p (some .new), ?_, ⟨rfl, rfl, rfl⟩, hmembers, hR.entity, hR.parent, ?_⟩
    · have hget : (R.store p (some .new)).get p = some .new := by
        rw [get_of_mem (R := R.store p _) hR.parent, hierarchy_store, if_pos rfl]
      rw [getOrEmplace, hlook, hnone]
      dsimp only
      split
      · rw [onConstruct, hget]
        rfl
      · rfl
    · intro x
      rw [hierarchy_store]
      by_cases hx : x = p
      · subst hx
        have hparent := F.parent_of_not_mem hp
        have hmem : x ∈ (F.enter x).members := by simp [OrderedForest.enter]
        have hat : linksAt (F.enter x) x = .new := by
          simp [linksAt, OrderedForest.enter, OrderedForest.next, OrderedForest.prev, hparent,
            F.kids_of_not_mem hp, Hierarchy.new, Hierarchy.ofParent]
        rw [if_pos rfl, if_neg hpe, linksOf_of_mem hmem, hat]
      · have hmem : x ∈ (F.enter p).members ↔ x ∈ F.members := by simp [OrderedForest.enter, hx]
        rw [if_neg hx, hR.links x]
        simp only [linksOf, hmem]
        rfl

section Append

variable (hR : Pending R F e p) (hp : p ∈ F.members) (hroot : F.parent e = none) (hoff : ¬ F.Below p e)

include hR

theorem Pending.attach_alive : ∀ x ∈ (F.attach e p hroot hoff).members, x ∈ R.alive := by
  intro x hx
  simp only [OrderedForest.members_attach, Finset.mem_insert] at hx
  rcases hx with rfl | rfl | hx
  · exact hR.entity
  · exact hR.parent
  · exact hR.members x hx

include hp

/-- The first child of a parent without children. -/
theorem append_first (hkids : F.kids p = []) :
    Represents (R.modify p fun h => { h with first := some e }) (F.attach e p hroot hoff) := by
  have hpe : p ≠ e := by
    intro h
    subst h
    exact hoff .refl
  refine ⟨hR.attach_alive hroot hoff, ?_⟩
  funext x
  rw [← append_links hp hroot hoff x, ← hR.links x, hierarchy_modify]
  by_cases hxp : x = p
  · subst hxp
    rw [if_pos rfl]
    cases R.hierarchy x with
    | none => rfl
    | some h => simp [append, hkids, hpe]
  · by_cases hxe : x = e
    · subst hxe
      have hh : R.hierarchy x = some ⟨some p, (F.kids x).head?, none, none⟩ := by
        rw [hR.links, if_pos rfl]
      rw [hh]
      simp [append, hkids, hxp]
    · have hid : append F e p x = id := by
        funext h
        simp [append, hkids, hxp, hxe]
      rw [hid, Option.map_id, if_neg hxp]
      rfl

/-- A further child, behind the last one of the row. -/
theorem append_last {c : ε} {row : List ε} (hkids : F.kids p = c :: row) :
    ∃ R', R.appendChild e c = some R' ∧ SameEntities R R' ∧
      Represents R' (F.attach e p hroot hoff) := by
  have hnote : ∀ y ∈ F.kids p, y ≠ e := by
    intro y hy hye
    exact F.not_mem_kids_of_root hroot p (hye ▸ hy)
  have hlinks : SiblingLinks R.hierarchy none (some c) (c :: row) := by
    have hrow := siblingLinks_kids F p
    rw [hkids] at hrow
    apply hrow.congr
    intro y hy
    rw [hR.links y, if_neg (hnote y (hkids ▸ hy))]
  have hlive : ∀ y ∈ c :: row, y ∈ R.alive := fun y hy => hR.members y (F.kids_subset p y (hkids ▸ hy))
  have hlength : row.length < R.walkBound := by
    have hcard := Finset.card_le_card (show F.members ⊆ R.alive from hR.members)
    have hle := F.length_kids_le p
    rw [hkids, List.length_cons] at hle
    unfold walkBound
    omega
  obtain ⟨last, k, hlast, hk, hrun⟩ :=
    lastChild_run hlinks (fun y hy => hlive y (List.mem_cons_of_mem c hy)) hlength
  have hle : last ≠ e := hnote last (hkids ▸ List.mem_of_getLast? hlast)
  refine ⟨(R.modify last fun h => { h with next := some e }).modify e
      fun h => { h with prev := some last }, ?_, ⟨rfl, rfl, rfl⟩, hR.attach_alive hroot hoff, ?_⟩
  · simp [appendChild, tryGet_of_mem (hlive c List.mem_cons_self), hrun]
  · funext x
    rw [← append_links hp hroot hoff x, ← hR.links x, hierarchy_modify, hierarchy_modify]
    cases R.hierarchy x with
    | none => simp
    | some h =>
      by_cases hxe : x = e
      · subst hxe
        simp [append, hkids, hlast, hle, Ne.symm hle]
      · by_cases hxl : x = last
        · subst hxl
          simp [append, hkids, hlast, hxe]
        · simp [append, hkids, hlast, hxe, hxl, Ne.symm hxl]

/-- The rest of `OnConstruct`, with the component of the parent in place. -/
theorem append_spec :
    ∃ R', (match (F.kids p).head? with
        | none => some (R.modify p fun h => { h with first := some e })
        | some first => R.appendChild e first) = some R' ∧ SameEntities R R' ∧
      Represents R' (F.attach e p hroot hoff) := by
  cases hkids : F.kids p with
  | nil => exact ⟨_, rfl, ⟨rfl, rfl, rfl⟩, append_first hR hp hroot hoff hkids⟩
  | cons c row => exact append_last hR hp hroot hoff hkids

end Append

/-- `OnConstruct` attaches an entity whose parent link has been written. -/
theorem onConstruct_spec (hR : Pending R F e p) (hroot : F.parent e = none) (hoff : ¬ F.Below p e) :
    ∃ R', R.onConstruct 2 e = some R' ∧ SameEntities R R' ∧ Represents R' (F.attach e p hroot hoff) := by
  have hpe : p ≠ e := by
    intro h
    subst h
    exact hoff .refl
  obtain ⟨R₁, hR₁, hsame₁, hpending⟩ := getOrEmplace_spec hR hpe
  have hp : p ∈ (F.enter p).members := by simp [OrderedForest.enter]
  obtain ⟨R₂, hR₂, hsame₂, hrep⟩ := append_spec hpending hp (show (F.enter p).parent e = none from hroot) hoff
  refine ⟨R₂, ?_, hsame₁.trans hsame₂, ?_⟩
  · have hget : R.get e = some ⟨some p, (F.kids e).head?, none, none⟩ := by
      rw [get_of_mem hR.entity, hR.links, if_pos rfl]
    have hgetp : R₁.get p = some (linksAt (F.enter p) p) := by
      rw [get_of_mem hpending.parent, hpending.links, if_neg hpe, linksOf_of_mem hp]
    rw [onConstruct, hget]
    dsimp only
    rw [hR₁]
    dsimp only
    rw [hgetp]
    exact hR₂
  · refine ⟨fun x hx => hrep.members x (by simpa [OrderedForest.enter] using hx), ?_⟩
    rw [hrep.links]
    funext x
    simp only [linksOf, OrderedForest.members_attach, OrderedForest.enter, Finset.mem_insert, or_self_left]
    rfl

end Lumos.Scene
