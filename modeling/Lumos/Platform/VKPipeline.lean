import Lumos.Library.Grouping
import Lumos.Platform.DescriptorInfos
import Lumos.Platform.GLShader

/-!
# Descriptor layouts of a pipeline

A shader lists its resources stage by stage, and the pipeline sorts them into one layout for each
set. The list of layouts grows by at most one for each of them.
-/
namespace Lumos.Graphics.VKPipeline

open Grouping
open GLShader (ShaderType)

/-! ## The code -/

structure DescriptorLayoutInfo where
  type : DescriptorType
  stage : ShaderType
  binding : UInt32
  setID : UInt32
  count : UInt32
  deriving DecidableEq

/-- A resource, as reflection has it. -/
structure Resource where
  set : UInt32
  binding : UInt32
  array : List UInt32

structure ShaderResources where
  uniformBuffers : List Resource
  sampledImages : List Resource

def layoutInfo (type : DescriptorType) (stage : ShaderType) (u : Resource) : DescriptorLayoutInfo :=
  ⟨type, stage, u.binding, u.set, u.array.headD 1⟩

/-- What `VKShader::Init` collects of its stages. -/
def descriptorLayoutInfo (files : List (ShaderType × ShaderResources)) : List DescriptorLayoutInfo :=
  files.flatMap fun (stage, resources) =>
    resources.uniformBuffers.map (layoutInfo .uniformBuffer stage) ++
      resources.sampledImages.map (layoutInfo .imageSampler stage)

/-- One turn of the loop in `Init`. It fails where there is no layout for the set. -/
def addLayout (layouts : List (List DescriptorLayoutInfo)) (info : DescriptorLayoutInfo) :
    Option (List (List DescriptorLayoutInfo)) :=
  let layouts := if layouts.length < (info.setID + 1).toNat then layouts ++ [[]] else layouts
  putIn layouts info.setID.toNat info

/-- The list of layouts that `Init` makes. -/
def layouts (infos : List DescriptorLayoutInfo) : Option (List (List DescriptorLayoutInfo)) := infos.foldlM addLayout []

/-! ## What is asked of it -/

def setOf (info : DescriptorLayoutInfo) : Nat := info.setID.toNat

/-- The layout of each set has the infos with this set, as many sets as there are up to the largest. -/
def Grouped (infos : List DescriptorLayoutInfo) : Prop := layouts infos = some (group setOf infos)

/-- A set comes after the one before it, and none is the last there could be. -/
structure InOrder (infos : List DescriptorLayoutInfo) : Prop where
  next : ∀ before info after, infos = before ++ info :: after →
    info.setID = 0 ∨ ∃ earlier ∈ before, info.setID.toNat ≤ earlier.setID.toNat + 1
  small : ∀ info ∈ infos, info.setID.toNat + 1 < 2 ^ 32

/-! ## One turn -/

variable {infos : List DescriptorLayoutInfo} {info : DescriptorLayoutInfo}

theorem rowCount_lt (h : ∀ info ∈ infos, setOf info + 1 < 2 ^ 32) : rowCount setOf infos < 2 ^ 32 := by
  rcases le_rowCount_iff.mp (le_refl (rowCount setOf infos)) with hzero | ⟨info, hinfo, hle⟩
  · rw [hzero]
    exact Nat.two_pow_pos 32
  · exact hle.trans_lt (h info hinfo)

/-- A layout is there, or is the next one. -/
theorem addLayout_group (hsmall : ∀ info ∈ infos, setOf info + 1 < 2 ^ 32) :
    addLayout (group setOf infos) info =
      if setOf info ≤ rowCount setOf infos ∧ setOf info + 1 < 2 ^ 32 then some (group setOf (infos ++ [info]))
      else none := by
  have hbound : setOf info < 2 ^ 32 := info.setID.toNat_lt
  have hcount := rowCount_lt hsmall
  have hnext : (info.setID + 1).toNat = (setOf info + 1) % 2 ^ 32 := by rw [UInt32.toNat_add]; rfl
  change putIn (if (group setOf infos).length < (info.setID + 1).toNat then _ else _) (setOf info) info = _
  rw [length_group, hnext]
  by_cases hlast : setOf info + 1 < 2 ^ 32
  · rw [Nat.mod_eq_of_lt hlast]
    rcases lt_trichotomy (setOf info) (rowCount setOf infos) with hlt | heq | hgt
    · rw [if_neg (by omega), if_pos ⟨hlt.le, hlast⟩, putIn_group hlt]
    · rw [if_pos (by omega), if_pos ⟨heq.le, hlast⟩, putIn_group_append heq]
    · rw [if_pos (by omega), if_neg (by omega), putIn, if_neg]
      rw [List.length_append, length_group, List.length_singleton]
      omega
  · have hwraps : setOf info + 1 = 2 ^ 32 := by omega
    rw [hwraps, Nat.mod_self, if_neg (Nat.not_lt_zero _), if_neg (by omega), putIn, length_group, if_neg (by omega)]

/-! ## All turns -/

theorem foldlM_addLayout_iff (infos : List DescriptorLayoutInfo) {before : List DescriptorLayoutInfo}
    (hsmall : ∀ info ∈ before, setOf info + 1 < 2 ^ 32) :
    infos.foldlM addLayout (group setOf before) = some (group setOf (before ++ infos)) ↔
      ∀ front info back, infos = front ++ info :: back →
        setOf info ≤ rowCount setOf (before ++ front) ∧ setOf info + 1 < 2 ^ 32 := by
  induction infos generalizing before with
  | nil =>
    rw [List.append_nil]
    exact iff_of_true rfl fun front info back h => by simp at h
  | cons first rest ih =>
    rw [List.foldlM_cons, addLayout_group hsmall]
    by_cases hfirst : setOf first ≤ rowCount setOf before ∧ setOf first + 1 < 2 ^ 32
    · have hsmall' : ∀ info ∈ before ++ [first], setOf info + 1 < 2 ^ 32 := by
        intro info hinfo
        rcases List.mem_append.mp hinfo with hmem | hmem
        · exact hsmall info hmem
        · exact List.mem_singleton.mp hmem ▸ hfirst.2
      rw [if_pos hfirst, Option.bind_eq_bind, Option.bind_some, List.append_cons before first rest, ih hsmall']
      constructor
      · intro h front info back hsplit
        rcases List.cons_eq_append_iff.mp hsplit with ⟨rfl, hcons⟩ | ⟨front', rfl, hrest⟩
        · obtain ⟨rfl, -⟩ := List.cons.inj hcons
          rwa [List.append_nil]
        · rw [List.append_cons]
          exact h front' info back hrest
      · intro h front info back hrest
        have hinfo := h (first :: front) info back (by rw [hrest]; rfl)
        rwa [List.append_cons] at hinfo
    · rw [if_neg hfirst]
      refine iff_of_false (fun h => ?_) fun h => hfirst ?_
      · cases h
      · have hinfo := h [] first rest rfl
        rwa [List.append_nil] at hinfo

/-- The infos are grouped exactly if they come in such an order. -/
theorem grouped_iff_inOrder (infos : List DescriptorLayoutInfo) : Grouped infos ↔ InOrder infos := by
  have hfold := @foldlM_addLayout_iff infos [] (fun _ h => absurd h List.not_mem_nil)
  have hnext : ∀ (front : List DescriptorLayoutInfo) (info : DescriptorLayoutInfo),
      setOf info ≤ rowCount setOf front ↔
        info.setID = 0 ∨ ∃ earlier ∈ front, info.setID.toNat ≤ earlier.setID.toNat + 1 := by
    intro front info
    have hzero : info.setID.toNat = 0 ↔ info.setID = 0 := UInt32.toNat_inj (b := 0)
    rw [le_rowCount_iff, setOf, hzero]
    rfl
  refine hfold.trans ⟨fun h => ⟨fun front info back hsplit => ?_, fun info hinfo => ?_⟩, fun h front info back hsplit => ?_⟩
  · exact (hnext front info).mp (h front info back hsplit).1
  · obtain ⟨front, back, hsplit⟩ := List.append_of_mem hinfo
    exact (h front info back hsplit).2
  · exact ⟨(hnext front info).mpr (h.next front info back hsplit), h.small info (hsplit ▸ List.mem_append_right _
      List.mem_cons_self)⟩

/-- A fragment shader with a buffer in the second set and a texture in the first one. -/
def bufferInSecondSet : List (ShaderType × ShaderResources) := [(.fragment, ⟨[⟨1, 0, []⟩], [⟨0, 0, []⟩]⟩)]

/-- The buffer comes first, and there is no layout for it. -/
theorem bufferInSecondSet_not_grouped : ¬ Grouped (descriptorLayoutInfo bufferInSecondSet) := by
  have hnone : layouts (descriptorLayoutInfo bufferInSecondSet) = none := by decide
  rw [Grouped, hnone]
  exact fun h => by cases h

end Lumos.Graphics.VKPipeline
