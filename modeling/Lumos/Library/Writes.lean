import Mathlib.Data.List.AList
import Mathlib.Logic.Function.Basic
import Mathlib.Data.List.Induction

/-!
# Maps that keep the first value

Pairs are put into a map one after the other, and a key that is there already keeps its value.
What the map then holds of a key is the first pair with that key.
-/
namespace Lumos.FirstWins

variable {α : Type} [DecidableEq α] {β : Type}

/-- `insert`, which leaves a map with the key as it is. -/
def register (map : AList fun _ : α => β) (pair : Σ _ : α, β) : AList fun _ : α => β :=
  if pair.1 ∈ map then map else map.insert pair.1 pair.2

theorem lookup_register (map : AList fun _ : α => β) (pair : Σ _ : α, β) (key : α) :
    (register map pair).lookup key = (map.lookup key).or ([pair].dlookup key) := by
  obtain ⟨a, b⟩ := pair
  by_cases hmem : a ∈ map
  · have hsome := AList.lookup_isSome.mpr hmem
    rw [register, if_pos hmem]
    by_cases hkey : key = a
    · subst hkey
      rw [Option.or_of_isSome hsome]
    · rw [List.dlookup_cons_ne _ _ hkey, List.dlookup_nil, Option.or_none]
  · rw [register, if_neg hmem]
    by_cases hkey : key = a
    · subst hkey
      rw [AList.lookup_insert, AList.lookup_eq_none.mpr hmem, Option.none_or, List.dlookup_cons_eq]
    · rw [AList.lookup_insert_ne hkey, List.dlookup_cons_ne _ _ hkey, List.dlookup_nil, Option.or_none]

/-- A map that pairs are put into one after the other. -/
theorem lookup_foldl_register (pairs : List (Σ _ : α, β)) (map : AList fun _ : α => β) (key : α) :
    (pairs.foldl register map).lookup key = (map.lookup key).or (pairs.dlookup key) := by
  induction pairs generalizing map with
  | nil => simp
  | cons pair pairs ih =>
    have hcons : (pair :: pairs).dlookup key = ([pair].dlookup key).or (pairs.dlookup key) :=
      List.dlookup_append [pair] pairs key
    rw [List.foldl_cons, ih, lookup_register, hcons, Option.or_assoc]

end Lumos.FirstWins

/-!
# Slots and the last write

A list of writes to named slots, one after the other. What is written has to be looked up first, and
afterwards each slot holds what the last write to it names.
-/
namespace Lumos.LastWrite

variable {σ α β : Type} [DecidableEq σ]

/-- The last thing written to a slot. -/
def lastWrite (writes : List (σ × α)) (slot : σ) : Option α :=
  ((writes.filter fun write => write.1 = slot).getLast?).map Prod.snd

/-- One write, of what is looked up for it. -/
def write (look : α → Option β) (held : σ → Option β) (write : σ × α) : Option (σ → Option β) :=
  (look write.2).map fun b => Function.update held write.1 (some b)

/-- What the slots hold after all of them. -/
def written (look : α → Option β) (held : σ → Option β) (writes : List (σ × α)) (slot : σ) : Option β :=
  match lastWrite writes slot with
  | some a => look a
  | none => held slot

variable {look : α → Option β} {held : σ → Option β} {writes : List (σ × α)} {slot : σ} {a : α}

theorem lastWrite_append_self : lastWrite (writes ++ [(slot, a)]) slot = some a := by
  simp [lastWrite, List.filter_append]

theorem lastWrite_append_of_ne {other : σ} (h : slot ≠ other) :
    lastWrite (writes ++ [(slot, a)]) other = lastWrite writes other := by
  simp [lastWrite, List.filter_append, h]

/-- What is last written to a slot is one of the writes. -/
theorem mem_of_lastWrite (h : lastWrite writes slot = some a) : (slot, a) ∈ writes := by
  obtain ⟨⟨slot', a'⟩, hlast, rfl⟩ := Option.map_eq_some_iff.mp h
  obtain ⟨hmem, hslot⟩ := List.mem_filter.mp (List.mem_of_getLast? hlast)
  rw [← of_decide_eq_true hslot]
  exact hmem

theorem written_append (b : β) (h : look a = some b) :
    written look held (writes ++ [(slot, a)]) = Function.update (written look held writes) slot (some b) := by
  funext other
  by_cases hother : slot = other
  · subst hother
    rw [written, lastWrite_append_self, Function.update_self]
    exact h
  · rw [written, lastWrite_append_of_ne hother, Function.update_of_ne (Ne.symm hother)]
    rfl

/-- All goes well exactly if everything is found. -/
theorem foldlM_write_iff {after : σ → Option β} : writes.foldlM (write look) held = some after ↔
    (∀ w ∈ writes, (look w.2).isSome) ∧ after = written look held writes := by
  induction writes using List.reverseRecOn generalizing after with
  | nil =>
    have hnone : written look held [] = held := rfl
    rw [hnone, List.foldlM_nil]
    refine ⟨fun h => ⟨fun w hw => absurd hw List.not_mem_nil, (Option.some.inj h).symm⟩, fun h => ?_⟩
    rw [h.2]
    rfl
  | append_singleton writes w ih =>
    obtain ⟨slot, a⟩ := w
    rw [List.foldlM_append]
    constructor
    · intro h
      obtain ⟨middle, hmiddle, hlast⟩ := Option.bind_eq_some_iff.mp h
      obtain ⟨hfound, rfl⟩ := ih.mp hmiddle
      rw [List.foldlM_cons] at hlast
      obtain ⟨after', hwrite, heq⟩ := Option.bind_eq_some_iff.mp hlast
      obtain ⟨b, hb, rfl⟩ := Option.map_eq_some_iff.mp hwrite
      refine ⟨fun w hw => ?_, ?_⟩
      · rcases List.mem_append.mp hw with hw | hw
        · exact hfound w hw
        · rw [List.mem_singleton.mp hw, hb]
          rfl
      · rw [written_append b hb]
        exact (Option.some.inj heq).symm
    · rintro ⟨hfound, rfl⟩
      have hbefore := ih.mpr ⟨fun w hw => hfound w (List.mem_append_left _ hw), rfl⟩
      obtain ⟨b, hb⟩ := Option.isSome_iff_exists.mp (hfound (slot, a) (List.mem_append_right _ List.mem_cons_self))
      change (writes.foldlM (write look) held).bind _ = _
      rw [hbefore, Option.bind_some, written_append b hb, List.foldlM_cons, write, hb]
      rfl

end Lumos.LastWrite
