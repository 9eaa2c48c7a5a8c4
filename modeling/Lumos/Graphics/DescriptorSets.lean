import Mathlib.Data.List.Chain
import Mathlib.Data.List.Induction
import Lumos.Graphics.Renderer2D

/-!
# The descriptor sets the batches of a frame are bound to

A set that is written to while a batch is bound to it no longer holds the textures of that
batch. Two textured batches that follow each other are bound to one set exactly when they
have the same number of textures.
-/
namespace Lumos.Graphics.Batching

variable {T : Type}

/-- The sets, and what was bound of them for which textures since the frame began. -/
structure Bindings (T : Type) where
  descriptorSet : Nat
  descriptorSets : List (List T)
  previousFrameTextureCount : Nat
  bound : List (List T × Nat)

namespace Bindings

/-- A batch with these textures is recorded. -/
def present (b : Bindings T) (textures : List T) : Bindings T :=
  if textures.length = 0 then b
  else
    let b :=
      if textures.length ≠ b.previousFrameTextureCount then
        { b with descriptorSet := b.descriptorSets.length, descriptorSets := b.descriptorSets ++ [[]] }
      else b
    { b with
      descriptorSets := b.descriptorSets.modify b.descriptorSet (Renderer2D.updateSet textures)
      previousFrameTextureCount := textures.length
      bound := b.bound ++ [(textures, b.descriptorSet)] }

/-- The set still holds the textures it was bound for. -/
def Holds (b : Bindings T) (binding : List T × Nat) : Prop :=
  ∃ content, b.descriptorSets[binding.2]? = some content ∧ binding.1 <+: content

def Held (b : Bindings T) : Prop := ∀ binding ∈ b.bound, b.Holds binding

/-- The set in use holds what was last written to it, for the last batch if there is one.
No other set of the frame is written to again. -/
structure Follows (b : Bindings T) (tables : List (List T)) : Prop where
  tables_eq : b.bound.map Prod.fst = tables
  current : ∃ content, b.descriptorSets[b.descriptorSet]? = some content ∧
    content.length = b.previousFrameTextureCount ∧ ∀ last ∈ tables.getLast?, last = content
  last_bound : ∀ binding ∈ b.bound.getLast?, binding.2 = b.descriptorSet
  bound_le : ∀ binding ∈ b.bound, binding.2 ≤ b.descriptorSet
  length_eq : ∀ binding ∈ b.bound, binding.2 = b.descriptorSet →
    binding.1.length = b.previousFrameTextureCount

/-- Two batches that follow each other do not get in each other's way. -/
def Compatible (table next : List T) : Prop := table.length = next.length → table = next

variable {b : Bindings T} {tables : List (List T)} {textures : List T}

theorem present_nil : b.present [] = b := if_pos rfl

/-- With another number of textures there is a new set. -/
theorem present_of_ne (hne : textures ≠ []) (h : textures.length ≠ b.previousFrameTextureCount) :
    b.present textures =
      { descriptorSet := b.descriptorSets.length
        descriptorSets := b.descriptorSets ++ [textures]
        previousFrameTextureCount := textures.length
        bound := b.bound ++ [(textures, b.descriptorSets.length)] } := by
  have hlength : textures.length ≠ 0 := fun h => hne (List.length_eq_zero_iff.mp h)
  have hset : (b.descriptorSets ++ [[]]).modify b.descriptorSets.length (Renderer2D.updateSet textures) =
      b.descriptorSets ++ [textures] := by
    simp [List.modify_eq_set, Renderer2D.updateSet]
  rw [present, if_neg hlength]
  simp only [ne_eq, h, not_false_eq_true, if_true, hset]

/-- With the same number of textures the set in use is overwritten. -/
theorem present_of_eq (hne : textures ≠ []) (h : textures.length = b.previousFrameTextureCount)
    {content : List T} (hcontent : b.descriptorSets[b.descriptorSet]? = some content)
    (hlength : content.length = b.previousFrameTextureCount) :
    b.present textures =
      { b with
        descriptorSets := b.descriptorSets.set b.descriptorSet textures
        bound := b.bound ++ [(textures, b.descriptorSet)] } := by
  have hzero : textures.length ≠ 0 := fun h => hne (List.length_eq_zero_iff.mp h)
  have hdrop : Renderer2D.updateSet textures content = textures := by
    rw [Renderer2D.updateSet, List.drop_of_length_le (by omega), List.append_nil]
  have hset : b.descriptorSets.modify b.descriptorSet (Renderer2D.updateSet textures) =
      b.descriptorSets.set b.descriptorSet textures := by
    rw [List.modify_eq_set, hcontent, Option.getD_some, hdrop]
  rw [present, if_neg hzero]
  simp only [ne_eq, h, not_true_eq_false, if_false, hset]

/-- Every set in use lies within the sets there are. -/
theorem Follows.lt_length (h : Follows b tables) : b.descriptorSet < b.descriptorSets.length := by
  obtain ⟨content, hcontent, -⟩ := h.current
  exact (List.getElem?_eq_some_iff.mp hcontent).1

theorem follows_present_of_ne (h : Follows b tables) (hne : textures ≠ [])
    (hcount : textures.length ≠ b.previousFrameTextureCount) :
    Follows (b.present textures) (tables ++ [textures]) := by
  have hbelow := h.lt_length
  rw [present_of_ne hne hcount]
  constructor
  · simp [h.tables_eq]
  · exact ⟨textures, by simp, rfl, by simp⟩
  · simp
  · intro binding hmem
    rcases List.mem_append.mp hmem with hold | hnew
    · exact Nat.le_trans (h.bound_le binding hold) (Nat.le_of_lt hbelow)
    · rw [List.mem_singleton.mp hnew]
  · intro binding hmem hset
    rcases List.mem_append.mp hmem with hold | hnew
    · have hle := h.bound_le binding hold
      simp only at hset
      omega
    · rw [List.mem_singleton.mp hnew]

theorem follows_present_of_eq (h : Follows b tables) (hne : textures ≠ [])
    (hcount : textures.length = b.previousFrameTextureCount) :
    Follows (b.present textures) (tables ++ [textures]) := by
  have hbelow := h.lt_length
  obtain ⟨content, hcontent, hlength, -⟩ := h.current
  rw [present_of_eq hne hcount hcontent hlength]
  constructor
  · simp [h.tables_eq]
  · exact ⟨textures, by simp [hbelow], hcount, by simp⟩
  · simp
  · intro binding hmem
    rcases List.mem_append.mp hmem with hold | hnew
    · exact h.bound_le binding hold
    · rw [List.mem_singleton.mp hnew]
  · intro binding hmem hset
    rcases List.mem_append.mp hmem with hold | hnew
    · exact h.length_eq binding hold hset
    · rw [List.mem_singleton.mp hnew]
      exact hcount

theorem follows_present (h : Follows b tables) (hne : textures ≠ []) :
    Follows (b.present textures) (tables ++ [textures]) := by
  by_cases hcount : textures.length = b.previousFrameTextureCount
  · exact follows_present_of_eq h hne hcount
  · exact follows_present_of_ne h hne hcount

/-- The last textures have the number the set in use was written with. -/
theorem Follows.length_last (h : Follows b tables) {last : List T} (hlast : last ∈ tables.getLast?) :
    last.length = b.previousFrameTextureCount := by
  obtain ⟨content, -, hlength, hcontent⟩ := h.current
  rw [hcontent last hlast]
  exact hlength

theorem Follows.exists_last (h : Follows b tables) {binding : List T × Nat} (hmem : binding ∈ b.bound) :
    ∃ last, last ∈ tables.getLast? := by
  have hne : tables ≠ [] := by
    rw [← h.tables_eq]
    exact fun hnil => List.ne_nil_of_mem hmem (List.map_eq_nil_iff.mp hnil)
  exact ⟨tables.getLast hne, List.getLast?_eq_some_getLast hne⟩

theorem Follows.exists_bound (h : Follows b tables) {last : List T} (hlast : last ∈ tables.getLast?) :
    ∃ binding ∈ b.bound, binding.1 = last ∧ binding.2 = b.descriptorSet := by
  rw [← h.tables_eq, List.getLast?_map] at hlast
  obtain ⟨binding, hbinding, hfst⟩ := Option.mem_map.mp hlast
  exact ⟨binding, List.mem_of_getLast? hbinding, hfst, h.last_bound binding hbinding⟩

/-- A new set disturbs no batch. -/
theorem held_present_of_ne (h : Follows b tables) (hne : textures ≠ [])
    (hcount : textures.length ≠ b.previousFrameTextureCount) : (b.present textures).Held ↔ b.Held := by
  have hbelow := h.lt_length
  have hold : ∀ binding ∈ b.bound, (b.present textures).Holds binding ↔ b.Holds binding := by
    intro binding hmem
    have hle := h.bound_le binding hmem
    rw [present_of_ne hne hcount, Holds, Holds]
    simp only
    rw [List.getElem?_append_left (by omega)]
  have hnew : (b.present textures).Holds (textures, b.descriptorSets.length) := by
    rw [present_of_ne hne hcount]
    exact ⟨textures, by simp, List.prefix_rfl⟩
  have hbound : (b.present textures).bound = b.bound ++ [(textures, b.descriptorSets.length)] := by
    rw [present_of_ne hne hcount]
  constructor
  · intro hheld binding hmem
    exact (hold binding hmem).mp (hheld binding (by rw [hbound]; exact List.mem_append_left _ hmem))
  · intro hheld binding hmem
    rw [hbound] at hmem
    rcases List.mem_append.mp hmem with hmem | hmem
    · exact (hold binding hmem).mpr (hheld binding hmem)
    · rw [List.mem_singleton.mp hmem]
      exact hnew

/-- The batches bound to the set in use hold what is in it. -/
theorem Follows.eq_of_holds (h : Follows b tables) {content : List T}
    (hcontent : b.descriptorSets[b.descriptorSet]? = some content)
    (hlength : content.length = b.previousFrameTextureCount) {binding : List T × Nat} (hmem : binding ∈ b.bound)
    (hset : binding.2 = b.descriptorSet) : b.Holds binding ↔ binding.1 = content := by
  have hsame : binding.1.length = content.length := by
    rw [h.length_eq binding hmem hset, hlength]
  constructor
  · intro hholds
    obtain ⟨there, hthere, hbegins⟩ := hholds
    rw [hset, hcontent] at hthere
    cases hthere
    exact hbegins.eq_of_length hsame
  · intro heq
    rw [Holds, hset, heq]
    exact ⟨content, hcontent, List.prefix_rfl⟩

/-- Overwriting the set in use disturbs the last batch unless it has the same textures. -/
theorem held_present_of_eq (h : Follows b tables) (hne : textures ≠ [])
    (hcount : textures.length = b.previousFrameTextureCount) :
    (b.present textures).Held ↔ b.Held ∧ ∀ last ∈ tables.getLast?, last = textures := by
  have hbelow := h.lt_length
  have hfollows := follows_present_of_eq h hne hcount
  obtain ⟨content, hcontent, hlength, hlast⟩ := h.current
  have hpresent := present_of_eq hne hcount hcontent hlength
  have hset : (b.present textures).descriptorSet = b.descriptorSet := by rw [hpresent]
  have hprevious : (b.present textures).previousFrameTextureCount = b.previousFrameTextureCount := by rw [hpresent]
  have hbound : (b.present textures).bound = b.bound ++ [(textures, b.descriptorSet)] := by rw [hpresent]
  have hwritten : (b.present textures).descriptorSets[(b.present textures).descriptorSet]? = some textures := by
    rw [hpresent]
    simp [hbelow]
  have hmembound : ∀ binding ∈ b.bound, binding ∈ (b.present textures).bound := by
    intro binding hmem
    rw [hbound]
    exact List.mem_append_left _ hmem
  -- a batch bound to the set in use holds its textures exactly when they are what is written there
  have hused : ∀ binding ∈ (b.present textures).bound, binding.2 = b.descriptorSet →
      ((b.present textures).Holds binding ↔ binding.1 = textures) := by
    intro binding hmem hb
    exact hfollows.eq_of_holds hwritten (by rw [hprevious, hcount]) hmem (by rw [hset, hb])
  have hother : ∀ binding ∈ b.bound, binding.2 ≠ b.descriptorSet →
      ((b.present textures).Holds binding ↔ b.Holds binding) := by
    intro binding hmem hb
    rw [hpresent, Holds, Holds]
    simp only
    rw [List.getElem?_set_ne (Ne.symm hb)]
  constructor
  · intro hheld
    have hsame : ∀ last ∈ tables.getLast?, last = textures := by
      intro last hmem
      obtain ⟨binding, hbinding, rfl, hb⟩ := h.exists_bound hmem
      exact (hused binding (hmembound binding hbinding) hb).mp (hheld binding (hmembound binding hbinding))
    constructor
    · intro binding hmem
      have hholds := hheld binding (hmembound binding hmem)
      by_cases hb : binding.2 = b.descriptorSet
      · obtain ⟨last, hgetLast⟩ := h.exists_last hmem
        rw [h.eq_of_holds hcontent hlength hmem hb, (hused binding (hmembound binding hmem) hb).mp hholds,
          ← hsame last hgetLast]
        exact hlast last hgetLast
      · exact (hother binding hmem hb).mp hholds
    · exact hsame
  · rintro ⟨hheld, hsame⟩ binding hmem
    rw [hbound] at hmem
    rcases List.mem_append.mp hmem with hold | hnew
    · by_cases hb : binding.2 = b.descriptorSet
      · obtain ⟨last, hgetLast⟩ := h.exists_last hold
        have hcontenteq : content = textures := (hlast last hgetLast).symm.trans (hsame last hgetLast)
        rw [hused binding (hmembound binding hold) hb,
          (h.eq_of_holds hcontent hlength hold hb).mp (hheld binding hold)]
        exact hcontenteq
      · exact (hother binding hold hb).mpr (hheld binding hold)
    · rw [List.mem_singleton.mp hnew]
      exact (hused _ (by rw [hbound]; exact List.mem_append_right _ (List.mem_singleton_self _)) rfl).mpr rfl

/-- What one more batch does to those before it. -/
theorem held_present_iff (h : Follows b tables) (hne : textures ≠ []) :
    (b.present textures).Held ↔ b.Held ∧ ∀ last ∈ tables.getLast?, Compatible last textures := by
  by_cases hcount : textures.length = b.previousFrameTextureCount
  · rw [held_present_of_eq h hne hcount]
    have hcompatible : ∀ last ∈ tables.getLast?, Compatible last textures ↔ last = textures := by
      intro last hlast
      have hsame : last.length = textures.length := by rw [h.length_last hlast, hcount]
      exact ⟨fun hc => hc hsame, fun heq _ => heq⟩
    exact and_congr_right fun _ => forall₂_congr fun last hlast => (hcompatible last hlast).symm
  · rw [held_present_of_ne h hne hcount]
    have hcompatible : ∀ last ∈ tables.getLast?, Compatible last textures := by
      intro last hlast heq
      rw [h.length_last hlast] at heq
      exact absurd heq.symm hcount
    exact (and_iff_left hcompatible).symm

/-- The tables of the batches that have textures. -/
def textured (tables : List (List T)) : List (List T) := tables.filter (fun table => !table.isEmpty)

/-- Over a whole frame. -/
theorem follows_foldl (h : Follows b []) (hheld : b.bound = []) (tables : List (List T)) :
    Follows (tables.foldl present b) (textured tables) ∧
      ((tables.foldl present b).Held ↔ (textured tables).IsChain Compatible) := by
  induction tables using List.reverseRecOn with
  | nil =>
    refine ⟨h, ?_⟩
    simp [textured, Held, hheld]
  | append_singleton tables textures ih =>
    rw [List.foldl_append, List.foldl_cons, List.foldl_nil]
    by_cases hne : textures = []
    · subst hne
      have htextured : textured (tables ++ [[]]) = textured tables := by simp [textured]
      rw [present_nil, htextured]
      exact ih
    · have htextured : textured (tables ++ [textures]) = textured tables ++ [textures] := by simp [textured, hne]
      rw [htextured]
      refine ⟨follows_present ih.1 hne, ?_⟩
      rw [held_present_iff ih.1 hne, ih.2, List.isChain_append]
      simp

end Bindings

end Lumos.Graphics.Batching
