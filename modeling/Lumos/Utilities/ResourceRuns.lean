import Mathlib.Data.List.Nodup
import Lumos.Utilities.AssetManager

/-!
# Which resources are erased

Copies made on the way to the map and to the caller are all gone at the end of a call, so that
the count of a resource is the number of entries that store it and of references the callers
have to it. An object that is stored under two names has a count of two when nobody holds it.
-/
namespace Lumos.Utilities.ResourceManager

open Lumos.Core (Handle Memory)
open Lumos.Core.Memory (refersTo Holds Spare Sole)

variable {s t : ResourceManager} {m : Memory} {name : String} {d i j n o : Nat}
  {slots : List (Option Handle)} {es : List (String × Nat)}

theorem lookup_eq_some_iff (h : (es.map Prod.fst).Nodup) : es.lookup name = some d ↔ (name, d) ∈ es := by
  induction es with
  | nil => simp
  | cons e es ih =>
    obtain ⟨name', d'⟩ := e
    rw [List.map_cons, List.nodup_cons] at h
    by_cases hname : name = name'
    · subst hname
      have hother : (name, d) ∉ es := fun hmem => h.1 (List.mem_map.mpr ⟨_, hmem, rfl⟩)
      simp [hother, eq_comm]
    · have hbeq : (name == name') = false := beq_false_of_ne hname
      simp [List.lookup_cons, hbeq, hname, ih h.2]

theorem lookup_eq_none (h : es.lookup name = none) : name ∉ es.map Prod.fst := by
  intro hmem
  obtain ⟨e, he, rfl⟩ := List.mem_map.mp hmem
  have hdiffer := List.lookup_eq_none_iff.mp h e he
  simp at hdiffer

theorem handle_eq_refersTo_iff : m.handle i = refersTo o ↔ m.handles[i]? = some (refersTo o) :=
  Option.join_eq_some_iff

/-! ## The state between calls -/

structure Good (s : ResourceManager) : Prop where
  counted : s.memory.Counted
  entries : ∀ e ∈ s.nameResourceMap, ∃ o, s.memory.handles[e.2]? = some (refersTo o)
  names : (s.nameResourceMap.map Prod.fst).Nodup
  data : (s.nameResourceMap.map Prod.snd).Nodup

theorem good_empty : Good .empty where
  counted := ⟨⟨by simp [empty, Memory.handle, Memory.empty], fun k => .inr ⟨rfl, by simp [empty, Memory.empty], rfl⟩,
    by simp [empty, Memory.empty]⟩, rfl⟩
  entries := by simp [empty]
  names := List.nodup_nil
  data := List.nodup_nil

namespace Good

variable (h : s.Good)

include h

theorem holds : s.memory.Holds s.memory.handles s.memory.objects.length := ⟨h.counted, rfl, rfl⟩

theorem handle_iff : (∃ x, s.memory.handle i = some x ∧ x.ptr = some o) ↔
    s.memory.handles[i]? = some (refersTo o) := by
  rw [← handle_eq_refersTo_iff]
  constructor
  · rintro ⟨x, hx, hptr⟩
    have hcounter := (h.counted.consistent.paired i x hx).trans hptr
    rw [hx, Memory.handle_eq_of_paired h.counted.consistent hx hcounter]
    rfl
  · intro hi
    exact ⟨_, hi, rfl⟩

theorem stored_iff : s.stored name = some o ↔
    ∃ d, (name, d) ∈ s.nameResourceMap ∧ s.memory.handles[d]? = some (refersTo o) := by
  simp only [stored, Option.bind_eq_some_iff, h.handle_iff, lookup_eq_some_iff h.names]

theorem held_iff : s.Held o ↔
    ∃ i, s.memory.handles[i]? = some (refersTo o) ∧ i ∉ s.nameResourceMap.map Prod.snd := by
  constructor
  · rintro ⟨i, x, hx, hptr, hown⟩
    exact ⟨i, h.handle_iff.mp ⟨x, hx, hptr⟩, hown.2⟩
  · rintro ⟨i, hi, hi'⟩
    obtain ⟨x, hx, hptr⟩ := h.handle_iff.mpr hi
    exact ⟨i, x, hx, hptr, by rw [hx]; rfl, hi'⟩

theorem lt_of_entry {e : String × Nat} (he : e ∈ s.nameResourceMap) : e.2 < s.memory.handles.length := by
  obtain ⟨o, ho⟩ := h.entries e he
  exact (List.getElem?_eq_some_iff.mp ho).1

end Good

/-! ## Calls that leave the map alone or add to it -/

/-- All entries are still there. -/
structure Extends (s t : ResourceManager) : Prop where
  good : t.Good
  entries : ∀ e ∈ s.nameResourceMap, e ∈ t.nameResourceMap
  handles : ∀ e ∈ s.nameResourceMap, t.memory.handles[e.2]? = s.memory.handles[e.2]?
  loads : ∀ e ∈ s.nameResourceMap, t.loads.count e.1 = s.loads.count e.1

theorem Extends.stored (h : Extends s t) (hs : s.Good) (hstored : s.stored name = some o) :
    t.stored name = some o := by
  obtain ⟨d, hd, ho⟩ := hs.stored_iff.mp hstored
  exact h.good.stored_iff.mpr ⟨d, h.entries _ hd, (h.handles _ hd).trans ho⟩

theorem Extends.loads_stored (h : Extends s t) (hs : s.Good) (hstored : s.stored name = some o) :
    t.loads.count name = s.loads.count name := by
  obtain ⟨d, hd, -⟩ := hs.stored_iff.mp hstored
  exact h.loads _ hd

/-- Where variables of the map are not touched, it is not either. -/
theorem extends_memory (h : s.Good) (hm : m.Counted)
    (hsame : ∀ e ∈ s.nameResourceMap, m.handles[e.2]? = s.memory.handles[e.2]?) :
    Extends s { s with memory := m } where
  good := {
    counted := hm
    entries := fun e he => by
      obtain ⟨o, ho⟩ := h.entries e he
      exact ⟨o, (hsame e he).trans ho⟩
    names := h.names
    data := h.data }
  entries := fun _ he => he
  handles := hsame
  loads := fun _ _ => rfl

theorem extends_append (h : s.Good) (hm : m.Holds (s.memory.handles ++ slots) n) :
    Extends s { s with memory := m } := by
  apply extends_memory h hm.counted
  intro e he
  rw [hm.handles, List.getElem?_append_left (h.lt_of_entry he)]

theorem extends_set {slot : Option Handle} (h : s.Good) (hown : s.Own i)
    (hm : m.Holds (s.memory.handles.set i slot) n) : Extends s { s with memory := m } := by
  apply extends_memory h hm.counted
  intro e he
  have hne : i ≠ e.2 := fun heq => hown.2 (heq ▸ List.mem_map.mpr ⟨e, he, rfl⟩)
  rw [hm.handles, List.getElem?_set_ne hne]

/-- An entry under a new name, with a new variable. -/
theorem extends_add (h : s.Good) (hname : s.nameResourceMap.lookup name = none)
    (hm : m.Holds (s.memory.handles ++ slots) n) (hd : s.memory.handles.length ≤ d)
    (ho : (s.memory.handles ++ slots)[d]? = some (refersTo o)) {loads : List String}
    (hloads : ∀ name', name' ≠ name → loads.count name' = s.loads.count name') :
    Extends s ⟨m, s.nameResourceMap ++ [(name, d)], loads⟩ where
  good := {
    counted := hm.counted
    entries := fun e he => by
      rw [hm.handles]
      cases List.mem_append.mp he with
      | inl hold =>
        rw [List.getElem?_append_left (h.lt_of_entry hold)]
        exact h.entries e hold
      | inr hnew =>
        rw [List.mem_singleton.mp hnew]
        exact ⟨o, ho⟩
    names := by
      rw [List.map_append, List.map_singleton, List.nodup_append]
      refine ⟨h.names, List.pairwise_singleton _ _, ?_⟩
      intro name' hname' name'' hname'' heq
      rw [List.mem_singleton.mp hname''] at heq
      subst heq
      exact lookup_eq_none hname hname'
    data := by
      rw [List.map_append, List.map_singleton, List.nodup_append]
      refine ⟨h.data, List.pairwise_singleton _ _, ?_⟩
      intro i hi i' hi' heq
      obtain ⟨e, he, rfl⟩ := List.mem_map.mp hi
      have hlt := h.lt_of_entry he
      rw [List.mem_singleton.mp hi'] at heq
      omega }
  entries := fun e he => List.mem_append_left _ he
  handles := fun e he => by rw [hm.handles, List.getElem?_append_left (h.lt_of_entry he)]
  loads := fun e he => hloads e.1 fun heq =>
    lookup_eq_none hname (heq ▸ List.mem_map.mpr ⟨e, he, rfl⟩)

theorem returnData_spec (h : s.Good) (hspare : Spare s.memory.handles 2)
    (hlookup : s.nameResourceMap.lookup name = some d) :
    ∃ t, s.returnData d = some (s.memory.handles.length, t) ∧ Extends s t ∧
      ∀ o, s.stored name = some o → t.memory.handle s.memory.handles.length = refersTo o := by
  obtain ⟨o, ho⟩ := h.entries _ ((lookup_eq_some_iff h.names).mp hlookup)
  obtain ⟨m, hcopy, hm⟩ := h.holds.copy ho hspare
  refine ⟨_, by simp only [returnData, hcopy, Option.bind_eq_bind, Option.bind_some], extends_append h hm, ?_⟩
  intro o' ho'
  obtain ⟨d', hd', hsame⟩ := h.stored_iff.mp ho'
  rw [← lookup_eq_some_iff h.names, hlookup] at hd'
  cases hd'
  cases ho.symm.trans hsame
  rw [handle_eq_refersTo_iff, hm.handles]
  simp [refersTo]

theorem stored_eq_none (hlookup : s.nameResourceMap.lookup name = none) : s.stored name = none := by
  simp [stored, hlookup]

variable (s name) in
/-- What `newResource` and `resourceData` leave behind: the entry and what is returned. -/
theorem addResource_spec (hm : m.Holds slots n) (hi : slots[i]? = some (refersTo o))
    (hspare : Spare slots 4) : ∃ m' returned,
      s.addResource m name i = some (returned,
        ⟨m', s.nameResourceMap ++ [(name, slots.length + 1)], s.loads⟩) ∧
      m'.Holds (slots.set i none ++ [none, refersTo o, refersTo o]) n := by
  have hlt : i < slots.length := (List.getElem?_eq_some_iff.mp hi).1
  have hbehind : ∀ added : List (Option Handle), (slots ++ added)[i]? = some (refersTo o) := by
    intro added
    rw [List.getElem?_append_left hlt, hi]
  have hset : ∀ (slot slot' : Option Handle) (added : List (Option Handle)),
      (slots ++ slot :: added).set slots.length slot' = slots ++ slot' :: added := by
    intro slot slot' added
    rw [List.set_append_right _ _ (Nat.le_refl _), Nat.sub_self, List.set_cons_zero]
  have hget : ∀ (slot : Option Handle) (added : List (Option Handle)),
      (slots ++ slot :: added)[slots.length]? = some slot := by
    intro slot added
    rw [List.getElem?_append_right (Nat.le_refl _), Nat.sub_self, List.getElem?_cons_zero]
  have hspare' : ∀ added : List (Option Handle), added.length + 2 ≤ 4 → Spare (slots ++ added) 2 := by
    intro added hlength k
    have hcount : added.countP (Memory.holdsCounter k) ≤ added.length := List.countP_le_length
    have hroom := hspare k
    rw [List.countP_append]
    omega
  obtain ⟨m₁, href, hm₁⟩ := hm.null.ref (hget _ []) (hbehind _) (hspare.append (by simp))
  rw [hset] at hm₁
  obtain ⟨m₂, hcopy₂, hm₂⟩ := hm₁.copy (hget _ []) (hspare' _ (by simp))
  rw [List.append_assoc] at hm₂
  obtain ⟨m₃, hcopy₃, hm₃⟩ := hm₂.copy (hbehind _) (hspare' _ (by simp))
  rw [List.append_assoc] at hm₃
  obtain ⟨m₄, hdestroy₄, hm₄⟩ := hm₃.destroy (hget _ _)
  simp only [List.cons_append, hset] at hm₄
  obtain ⟨m₅, hdestroy₅, hm₅⟩ := hm₄.destroy (hbehind _)
  rw [List.set_append_left _ _ hlt] at hm₅
  have hlength : m₁.handles.length = slots.length + 1 := by simp [hm₁.handles]
  refine ⟨m₅, m₂.handles.length, ?_, hm₅⟩
  have hnew : (m.newHandle .null).1 = slots.length := congrArg List.length hm.handles
  simp only [addResource, hnew, href, hcopy₂, hcopy₃, hdestroy₄, hdestroy₅, hlength, Option.bind_eq_bind,
    Option.bind_some]

theorem load_spec (hm : m.Holds (slots ++ [some .null]) n) (hspare : Spare slots 3) :
    ∃ m', load m slots.length = some m' ∧ m'.Holds (slots ++ [refersTo n, none]) (n + 1) := by
  have hadopt := hm.adopt
  rw [List.append_assoc] at hadopt
  have hfirst : ∀ slot slot' : Option Handle, (slots ++ [slot, slot'])[slots.length]? = some slot := by simp
  have hsecond : ∀ slot slot' : Option Handle, (slots ++ [slot, slot'])[slots.length + 1]? = some slot' := by simp
  obtain ⟨m₁, href, hm₁⟩ := hadopt.ref (hfirst _ _) (hsecond _ _) (hspare.append (by simp))
  have hset : (slots ++ [some Handle.null, refersTo n]).set slots.length (refersTo n) =
      slots ++ [refersTo n, refersTo n] := by simp
  rw [List.singleton_append] at hm₁
  have hm₁' : m₁.Holds (slots ++ [refersTo n, refersTo n]) (n + 1) := hset ▸ hm₁
  obtain ⟨m₂, hdestroy, hm₂⟩ := hm₁'.destroy (hsecond _ _)
  have hset' : (slots ++ [refersTo n, refersTo n]).set (slots.length + 1) none = slots ++ [refersTo n, none] := by
    simp
  have hvariable : m.handles.length = slots.length + 1 := by simp [hm.handles]
  have hnew : (m.newObject.2.newHandle .null).1 = slots.length + 1 := hvariable
  refine ⟨m₂, ?_, hset' ▸ hm₂⟩
  have hobject : m.newObject.1 = m.objects.length := rfl
  rw [hvariable] at href
  simp only [load, hnew, hobject, href, hdestroy, Option.bind_eq_bind, Option.bind_some]

theorem spare_of_le {k : Nat} (h : Spare slots n) (hk : k ≤ n) : Spare slots k := fun c => by
  have hroom := h c
  omega

theorem getResource_spec (h : s.Good) (hspare : Spare s.memory.handles 8) (name : String) :
    ∃ i t, s.getResource name = some (i, t) ∧ Extends s t ∧
      ∀ o, s.stored name = some o → t.memory.handle i = refersTo o := by
  cases hlookup : s.nameResourceMap.lookup name with
  | some d =>
    obtain ⟨t, hreturn, hextends, hreturned⟩ := returnData_spec h (spare_of_le hspare (by decide)) hlookup
    exact ⟨_, t, by simp only [getResource, hlookup]; exact hreturn, hextends, hreturned⟩
  | none =>
    obtain ⟨m₁, hload, hm₁⟩ := load_spec h.holds.null (spare_of_le hspare (by decide))
    have hfirst : (s.memory.handles ++ [refersTo s.memory.objects.length, none])[s.memory.handles.length]? =
        some (refersTo s.memory.objects.length) := by simp
    have hspare' : Spare (s.memory.handles ++ [refersTo s.memory.objects.length, none]) 4 := by
      intro k
      have hroom := hspare k
      have hcount := List.countP_le_length (p := Memory.holdsCounter k)
        (l := [refersTo s.memory.objects.length, none])
      rw [List.length_cons, List.length_singleton] at hcount
      rw [List.countP_append]
      omega
    obtain ⟨m₂, i, hadd, hm₂⟩ := addResource_spec { s with loads := name :: s.loads } name
      hm₁ hfirst hspare'
    have hset : (s.memory.handles ++ [refersTo s.memory.objects.length, none]).set s.memory.handles.length none =
        s.memory.handles ++ [none, none] := by simp
    rw [hset, List.append_assoc] at hm₂
    have hnew : (s.memory.newHandle .null).1 = s.memory.handles.length := rfl
    have hcall : s.getResource name = some (i, ⟨m₂, s.nameResourceMap ++
        [(name, (s.memory.handles ++ [refersTo s.memory.objects.length, none]).length + 1)], name :: s.loads⟩) := by
      simp only [getResource, hlookup, hnew, hload, Option.bind_eq_bind, Option.bind_some]
      exact hadd
    have hindex : (s.memory.handles ++ [refersTo s.memory.objects.length, none]).length + 1 =
        s.memory.handles.length + 3 := by simp
    refine ⟨i, _, hcall, extends_add h hlookup hm₂ (o := s.memory.objects.length) ?_ ?_ ?_, ?_⟩
    · omega
    · rw [hindex, List.getElem?_append_right (Nat.le_add_right _ _), Nat.add_sub_cancel_left]
      rfl
    · intro name' hne
      exact List.count_cons_of_ne (Ne.symm hne)
    · simp [stored_eq_none hlookup]

theorem getResourceOf_spec (getId : Option Nat → String) (h : s.Good) (hspare : Spare s.memory.handles 8)
    (ho : s.memory.handles[j]? = some (refersTo o)) :
    ∃ i t, s.getResourceOf getId j = some (i, t) ∧ Extends s t ∧
      ∀ o', s.stored (getId (some o)) = some o' → t.memory.handle i = refersTo o' := by
  have hhandle : s.memory.handle j = some ⟨some o, some o⟩ := handle_eq_refersTo_iff.mpr ho
  cases hlookup : s.nameResourceMap.lookup (getId (some o)) with
  | some d =>
    obtain ⟨t, hreturn, hextends, hreturned⟩ := returnData_spec h (spare_of_le hspare (by decide)) hlookup
    refine ⟨_, t, ?_, hextends, hreturned⟩
    simp only [getResourceOf, hhandle, Option.bind_eq_bind, Option.bind_some, hlookup]
    exact hreturn
  | none =>
    obtain ⟨m₁, hcopy, hm₁⟩ := h.holds.copy ho (spare_of_le hspare (by decide))
    have hlast : (s.memory.handles ++ [refersTo o])[s.memory.handles.length]? = some (refersTo o) := by simp
    have hspare' : Spare (s.memory.handles ++ [refersTo o]) 4 := by
      intro k
      have hroom := hspare k
      have hcount := List.countP_le_length (p := Memory.holdsCounter k) (l := [refersTo o])
      rw [List.length_singleton] at hcount
      rw [List.countP_append]
      omega
    have hm₁' : m₁.Holds (s.memory.handles ++ [refersTo o]) s.memory.objects.length := hm₁
    obtain ⟨m₂, i, hadd, hm₂⟩ := addResource_spec s (getId (some o)) hm₁' hlast hspare'
    have hset : (s.memory.handles ++ [refersTo o]).set s.memory.handles.length none = s.memory.handles ++ [none] := by
      simp
    rw [hset, List.append_assoc] at hm₂
    have hcall : s.getResourceOf getId j = some (i, ⟨m₂, s.nameResourceMap ++
        [(getId (some o), (s.memory.handles ++ [refersTo o]).length + 1)], s.loads⟩) := by
      simp only [getResourceOf, hhandle, Option.bind_eq_bind, Option.bind_some, hlookup, hcopy]
      exact hadd
    have hindex : (s.memory.handles ++ [refersTo o]).length + 1 = s.memory.handles.length + 2 := by simp
    refine ⟨i, _, hcall, extends_add h hlookup hm₂ (o := o) ?_ ?_ (fun _ _ => rfl), ?_⟩
    · omega
    · rw [hindex, List.getElem?_append_right (Nat.le_add_right _ _), Nat.add_sub_cancel_left]
      rfl
    · simp [stored_eq_none hlookup]

/-! ## `Update` -/

/-- What variable `i` refers to has no other reference. -/
def Lonely (slots : List (Option Handle)) (i : Nat) : Prop := ∃ o, slots[i]? = some (refersTo o) ∧ Sole slots i o

theorem lonely_iff (hi : slots[i]? = some (refersTo o)) : Lonely slots i ↔ Sole slots i o := by
  constructor
  · rintro ⟨o', ho', hsole⟩
    cases hi.symm.trans ho'
    exact hsole
  · intro hsole
    exact ⟨o, hi, hsole⟩

/-- Taking away the only reference to an object makes no other one the only one. -/
theorem lonely_set_none (hd : slots[d]? = some (refersTo o)) (hsole : Sole slots d o) (hne : i ≠ d) :
    Lonely (slots.set d none) i ↔ Lonely slots i := by
  have hsame : ∀ j, j ≠ d → (slots.set d none)[j]? = slots[j]? := fun j hj => List.getElem?_set_ne (Ne.symm hj)
  have hgone : ∀ o', (slots.set d none)[d]? ≠ some (refersTo o') := by
    intro o' h
    rw [List.getElem?_set_self (List.getElem?_eq_some_iff.mp hd).1] at h
    cases h
  constructor
  · rintro ⟨o', ho', hsole'⟩
    rw [hsame i hne] at ho'
    refine ⟨o', ho', fun j hj hj' => ?_⟩
    by_cases hjd : j = d
    · subst hjd
      cases hd.symm.trans hj'
      exact hsole i hne ho'
    · exact hsole' j hj ((hsame j hjd).trans hj')
  · rintro ⟨o', ho', hsole'⟩
    refine ⟨o', (hsame i hne).trans ho', fun j hj hj' => ?_⟩
    by_cases hjd : j = d
    · exact hgone o' (hjd ▸ hj')
    · exact hsole' j hj ((hsame j hjd).symm.trans hj')

/-- The loop erases the entries with the only reference to their object. -/
theorem updateLoop_spec (hm : m.Counted) (hes : ∀ e ∈ es, ∃ o, m.handles[e.2]? = some (refersTo o))
    (hdata : (es.map Prod.snd).Nodup) :
    ∃ m' kept, updateLoop m es = some (m', kept) ∧ m'.Counted ∧ kept.Sublist es ∧
      (∀ e ∈ es, e ∈ kept ↔ ¬ Lonely m.handles e.2) ∧
      ∀ j, (j ∈ es.map Prod.snd → ¬ Lonely m.handles j) → m'.handles[j]? = m.handles[j]? := by
  induction es generalizing m with
  | nil => exact ⟨m, [], rfl, hm, List.Sublist.refl _, by simp, fun _ _ => rfl⟩
  | cons e es ih =>
    obtain ⟨name, d⟩ := e
    rw [List.map_cons, List.nodup_cons] at hdata
    obtain ⟨o, ho⟩ := hes (name, d) List.mem_cons_self
    have hholds : m.Holds m.handles m.objects.length := ⟨hm, rfl, rfl⟩
    have hhandle : m.handle d = some ⟨some o, some o⟩ := handle_eq_refersTo_iff.mpr ho
    obtain ⟨r, hcounter, hone⟩ := hholds.getReferenceCount_eq_one_iff ho
    have hne : ∀ e ∈ es, e.2 ≠ d := fun e he heq => hdata.1 (heq ▸ List.mem_map.mpr ⟨e, he, rfl⟩)
    by_cases hsole : Sole m.handles d o
    · obtain ⟨m₁, hdestroy, hm₁⟩ := hholds.destroy ho
      have hlonely : ∀ i, i ≠ d → (Lonely m₁.handles i ↔ Lonely m.handles i) := by
        intro i hi
        rw [hm₁.handles]
        exact lonely_set_none ho hsole hi
      obtain ⟨m', kept, hloop, hm', hkept, hmem, hsame⟩ := ih hm₁.counted (fun e he => by
        rw [hm₁.handles, List.getElem?_set_ne (Ne.symm (hne e he))]
        exact hes e (List.mem_cons_of_mem _ he)) hdata.2
      have hcall : updateLoop m ((name, d) :: es) = some (m', kept) := by
        simp only [updateLoop, hhandle, hcounter, Option.bind_eq_bind, Option.bind_some, if_pos (hone.mpr hsole),
          hdestroy, hloop]
      refine ⟨m', kept, hcall, hm', hkept.trans (List.sublist_cons_self _ _), ?_, ?_⟩
      · intro e he
        cases List.mem_cons.mp he with
        | inl heq =>
          subst heq
          have hout : (name, d) ∉ kept := fun h => hne _ (hkept.subset h) rfl
          simp [hout, lonely_iff ho, hsole]
        | inr hrest => rw [hmem e hrest, hlonely e.2 (hne e hrest)]
      · intro j hj
        have hjd : j ≠ d := fun heq =>
          hj (heq ▸ List.mem_cons_self) ((lonely_iff (heq ▸ ho)).mpr (heq ▸ hsole))
        rw [hsame j fun hin => (hlonely j hjd).not.mpr (hj (List.mem_cons_of_mem _ hin)), hm₁.handles,
          List.getElem?_set_ne (Ne.symm hjd)]
    · obtain ⟨m', kept, hloop, hm', hkept, hmem, hsame⟩ := ih hm (fun e he => hes e (List.mem_cons_of_mem _ he)) hdata.2
      have hcall : updateLoop m ((name, d) :: es) = some (m', (name, d) :: kept) := by
        simp only [updateLoop, hhandle, hcounter, Option.bind_eq_bind, Option.bind_some, if_neg (hone.not.mpr hsole),
          hloop]
      refine ⟨m', (name, d) :: kept, hcall, hm', hkept.cons_cons _, ?_, ?_⟩
      · intro e he
        cases List.mem_cons.mp he with
        | inl heq =>
          subst heq
          simp [lonely_iff ho, hsole]
        | inr hrest =>
          have hother : e ≠ (name, d) := fun heq => hne e hrest (heq ▸ rfl)
          rw [List.mem_cons, or_iff_right hother, hmem e hrest]
      · intro j hj
        exact hsame j fun hin => hj (List.mem_cons_of_mem _ hin)

theorem update_spec (h : s.Good) : ∃ t, s.update = some t ∧ t.Good ∧ t.loads = s.loads ∧
    ∀ e ∈ s.nameResourceMap, ∀ o, s.memory.handles[e.2]? = some (refersTo o) →
      (Sole s.memory.handles e.2 o → t.stored e.1 = none) ∧
        (¬ Sole s.memory.handles e.2 o → t.stored e.1 = some o) := by
  obtain ⟨m', kept, hloop, hm', hkept, hmem, hsame⟩ := updateLoop_spec h.counted h.entries h.data
  have hhandles : ∀ e ∈ kept, m'.handles[e.2]? = s.memory.handles[e.2]? := by
    intro e he
    exact hsame e.2 fun _ => (hmem e (hkept.subset he)).mp he
  have hgood : Good ⟨m', kept, s.loads⟩ := by
    refine ⟨hm', fun e he => ?_, h.names.sublist (hkept.map _), h.data.sublist (hkept.map _)⟩
    rw [hhandles e he]
    exact h.entries e (hkept.subset he)
  refine ⟨_, by simp only [update, hloop, Option.bind_eq_bind, Option.bind_some], hgood, rfl, ?_⟩
  intro e he o ho
  constructor
  · intro hsole
    rw [← Option.not_isSome_iff_eq_none, Option.isSome_iff_exists]
    rintro ⟨o', ho'⟩
    obtain ⟨d, hd, -⟩ := hgood.stored_iff.mp ho'
    have hsame' : d = e.2 := by
      have hfirst := (lookup_eq_some_iff h.names).mpr (hkept.subset hd)
      have hsecond := (lookup_eq_some_iff h.names).mpr he
      exact Option.some.inj (hfirst.symm.trans hsecond)
    subst hsame'
    exact (hmem e he).mp hd ((lonely_iff ho).mpr hsole)
  · intro hsole
    have hin : e ∈ kept := (hmem e he).mpr ((lonely_iff ho).not.mpr hsole)
    exact hgood.stored_iff.mpr ⟨e.2, hin, (hhandles e hin).trans ho⟩

/-! ## Whole runs -/

variable {getId : Option Nat → String} {call : Call}

theorem Own.slot (h : s.Own i) : ∃ x, s.memory.handles[i]? = some (some x) := by
  obtain ⟨x, hx⟩ := Option.isSome_iff_exists.mp h.1
  exact ⟨x, Option.join_eq_some_iff.mp hx⟩

theorem extends_perform (h : s.Good) (hscope : s.InScope call) (hcount : s.Countable call) (hcall : call ≠ .update) :
    ∃ t, perform getId s call = some t ∧ Extends s t := by
  have hspare : Spare s.memory.handles 8 := hcount.1
  cases call with
  | getResource name =>
    obtain ⟨i, t, hget, hextends, -⟩ := getResource_spec h hspare name
    exact ⟨t, by simp only [perform, hget, Option.map_some], hextends⟩
  | getResourceOf data =>
    obtain ⟨x, hx⟩ := Option.isSome_iff_exists.mp hscope.1
    obtain ⟨o, ho⟩ := Option.ne_none_iff_exists'.mp (hcount.2 data x rfl hx)
    obtain ⟨i, t, hget, hextends, -⟩ := getResourceOf_spec getId h hspare (h.handle_iff.mp ⟨x, hx, ho⟩)
    exact ⟨t, by simp only [perform, hget, Option.map_some], hextends⟩
  | update => exact absurd rfl hcall
  | null => exact ⟨_, rfl, extends_append h h.holds.null⟩
  | adopt => exact ⟨_, rfl, extends_append h h.holds.adopt⟩
  | copy j =>
    obtain ⟨x, hx⟩ := hscope.slot
    obtain ⟨m, hcopy, hm⟩ := h.holds.copy hx (spare_of_le hspare (by decide))
    exact ⟨_, by simp only [perform, hcopy, Option.map_some], extends_append h hm⟩
  | assign i j =>
    obtain ⟨x, hx⟩ := hscope.1.slot
    obtain ⟨y, hy⟩ := hscope.2.slot
    obtain ⟨m, href, hm⟩ := h.holds.ref hx hy (spare_of_le hspare (by decide))
    exact ⟨_, by simp only [perform, href, Option.map_some], extends_set h hscope.1 hm⟩
  | drop i =>
    obtain ⟨x, hx⟩ := hscope.slot
    obtain ⟨m, hdestroy, hm⟩ := h.holds.destroy hx
    exact ⟨_, by simp only [perform, hdestroy, Option.map_some], extends_set h hscope hm⟩

theorem proper_of_extends (h : s.Good) (hcount : s.Countable call) (hcall : call ≠ .update)
    (hperform : perform getId s call = some t) (hextends : Extends s t) : Proper getId s call t where
  kept := fun _ name o ho => hextends.stored h ho
  erased := fun heq => absurd heq hcall
  loaded := fun name o ho => hextends.loads_stored h ho
  returned := by
    rintro name rfl o ho
    obtain ⟨i, t', hget, -, hreturned⟩ := getResource_spec h hcount.1 name
    simp only [perform, hget, Option.map_some, Option.some.injEq] at hperform
    subst hperform
    exact ⟨i, hget, hreturned o ho⟩
  returnedOf := by
    rintro data rfl x hx o ho
    obtain ⟨o', ho'⟩ := Option.ne_none_iff_exists'.mp (hcount.2 data x rfl hx)
    obtain ⟨i, t', hget, -, hreturned⟩ := getResourceOf_spec getId h hcount.1 (h.handle_iff.mp ⟨x, hx, ho'⟩)
    simp only [perform, hget, Option.map_some, Option.some.injEq] at hperform
    subst hperform
    exact ⟨i, hget, hreturned o (ho' ▸ ho)⟩

/-- Where an object that nobody holds is stored once, its entry has the only reference. -/
theorem sole_iff (h : s.Good) (hone : s.OneName .update) {e : String × Nat} (he : e ∈ s.nameResourceMap)
    (ho : s.memory.handles[e.2]? = some (refersTo o)) : Sole s.memory.handles e.2 o ↔ ¬ s.Held o := by
  rw [h.held_iff]
  constructor
  · rintro hsole ⟨i, hi, hout⟩
    exact hsole i (fun heq => hout (heq ▸ List.mem_map.mpr ⟨e, he, rfl⟩)) hi
  · intro hnone j hj hj'
    have hin : j ∈ s.nameResourceMap.map Prod.snd := by
      by_contra hout
      exact hnone ⟨j, hj', hout⟩
    obtain ⟨e', he', rfl⟩ := List.mem_map.mp hin
    have hname : e.1 = e'.1 := hone rfl e.1 e'.1 o (h.stored_iff.mpr ⟨e.2, he, ho⟩)
      (h.stored_iff.mpr ⟨e'.2, he', hj'⟩) fun hheld => hnone (h.held_iff.mp hheld)
    have hfirst := (lookup_eq_some_iff h.names).mpr he
    have hsecond := (lookup_eq_some_iff h.names).mpr he'
    rw [hname, hsecond] at hfirst
    exact hj (Option.some.inj hfirst)

theorem proper_update (h : s.Good) (hone : s.OneName .update) :
    ∃ t, s.update = some t ∧ Proper getId s .update t ∧ t.Good := by
  obtain ⟨t, hupdate, hgood, hloads, hstored⟩ := update_spec h
  refine ⟨t, hupdate, ?_, hgood⟩
  refine ⟨fun hne => absurd rfl hne, fun _ name o ho => ?_, fun _ _ _ => by rw [hloads], ?_, ?_⟩
  · obtain ⟨d, hd, hd'⟩ := h.stored_iff.mp ho
    have hsole := sole_iff h hone hd hd'
    obtain ⟨hgone, hkept⟩ := hstored _ hd o hd'
    exact ⟨fun hheld => hkept (hsole.not.mpr (not_not_intro hheld)), fun hnone => hgone (hsole.mpr hnone)⟩
  · rintro name ⟨⟩
  · rintro data ⟨⟩

/-- An object under two names keeps both of them. -/
theorem not_proper_update (h : s.Good) (hone : ¬ s.OneName .update) (hupdate : s.update = some t) :
    ¬ Proper getId s .update t := by
  intro hproper
  simp only [OneName, true_implies, not_forall] at hone
  obtain ⟨name, name', o, ho, ho', hnone, hne⟩ := hone
  obtain ⟨d, hd, hdo⟩ := h.stored_iff.mp ho
  obtain ⟨d', hd', hdo'⟩ := h.stored_iff.mp ho'
  have hdata : d' ≠ d := by
    intro heq
    subst heq
    have hpair := List.inj_on_of_nodup_map h.data hd hd' rfl
    exact hne (congrArg Prod.fst hpair)
  obtain ⟨t', hupdate', -, -, hstored⟩ := update_spec h
  cases hupdate.symm.trans hupdate'
  have hkept := (hstored _ hd o hdo).2 fun hsole => hsole d' hdata hdo'
  have hgone := (hproper.erased rfl name o ho).2 hnone
  rw [hkept] at hgone
  cases hgone

theorem performs_iff_oneName (calls : List Call) (h : (programs getId).Throughout Countable .empty calls) :
    (programs getId).Performs (Proper getId) .empty calls ↔ (programs getId).Throughout OneName .empty calls := by
  apply Runs.System.performs_iff_throughout_of (I := Good) _ _ calls good_empty h
  · intro s call hs hscope hcount hone
    by_cases hcall : call = .update
    · subst hcall
      exact proper_update hs hone
    · obtain ⟨t, hperform, hextends⟩ := extends_perform hs hscope hcount hcall
      exact ⟨t, hperform, proper_of_extends hs hcount hcall hperform hextends, hextends.good⟩
  · intro s call hs hscope hcount hone t hperform
    by_cases hcall : call = .update
    · subst hcall
      exact not_proper_update hs hone hperform
    · exact absurd (fun heq => absurd heq hcall) hone

/-- In every run in which counts do not overflow and no null reference is added: what nobody
holds is erased, and what somebody holds is kept and returned, exactly when at each `Update`
what nobody holds is stored under one name. -/
theorem update_erases_unheld (getId : Option Nat → String) (calls : List Call) :
    ((programs getId).Throughout (fun s call => Countable s call ∧ OneName s call) .empty calls →
      (programs getId).Performs (Proper getId) .empty calls) ∧
    ((programs getId).Throughout Countable .empty calls → (programs getId).Performs (Proper getId) .empty calls →
      (programs getId).Throughout OneName .empty calls) := by
  constructor
  · intro h
    obtain ⟨hcount, hone⟩ := (Runs.System.throughout_and calls).mp h
    exact (performs_iff_oneName calls hcount).mpr hone
  · intro hcount
    exact (performs_iff_oneName calls hcount).mp

/-! ## Two names for one resource -/

/-- A resource is loaded as "a", and added once more under the identifier "b" it has. -/
def aliasing : List Call := [.getResource "a", .getResourceOf 4, .drop 4, .drop 8, .update]

def aliased (n : Nat) : ResourceManager := ((aliasing.take n).foldlM (perform fun _ => "b") .empty).getD .empty

theorem not_held_aliased : ¬ (aliased 4).Held 0 := by
  rintro ⟨i, x, hx, hptr, hown⟩
  have hlt : i < 9 := Memory.lt_of_handle hx
  have hall : ∀ i < 9, ((aliased 4).memory.handle i).bind Handle.ptr = some 0 →
      i ∈ (aliased 4).nameResourceMap.map Prod.snd := by decide +kernel
  exact hown.2 (hall i hlt (by rw [hx, Option.bind_some, hptr]))

/-- `Update` keeps a resource that nobody holds. -/
theorem update_keeps_unheld : ¬ (programs fun _ => "b").Performs (Proper fun _ => "b") .empty aliasing := by
  intro h
  have hown₄ : (aliased 1).Own 4 := ⟨by decide +kernel, by decide +kernel⟩
  have hown₄' : (aliased 2).Own 4 := ⟨by decide +kernel, by decide +kernel⟩
  have hown₈ : (aliased 3).Own 8 := ⟨by decide +kernel, by decide +kernel⟩
  have h₁ := (Runs.System.performs_cons h (t := aliased 1) trivial (by decide +kernel)).2
  have h₂ := (Runs.System.performs_cons h₁ (t := aliased 2) hown₄ (by decide +kernel)).2
  have h₃ := (Runs.System.performs_cons h₂ (t := aliased 3) hown₄' (by decide +kernel)).2
  have h₄ := (Runs.System.performs_cons h₃ (t := aliased 4) hown₈ (by decide +kernel)).2
  have h₅ := (Runs.System.performs_cons h₄ (t := aliased 5) trivial (by decide +kernel)).1
  have hstored : (aliased 4).stored "a" = some 0 := by decide +kernel
  have hkept : (aliased 5).stored "a" = some 0 := by decide +kernel
  have hgone := (h₅.erased rfl "a" 0 hstored).2 not_held_aliased
  rw [hkept] at hgone
  cases hgone

end Lumos.Utilities.ResourceManager
