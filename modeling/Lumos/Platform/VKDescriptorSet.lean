import Lumos.Library.Regions
import Lumos.Platform.DescriptorInfos

/-!
# Descriptor writes of the Vulkan backend

The writes point into pools of a fixed size, which are read when all writes have been made. An
array of images takes as many cells as it has textures, but the next image is put one cell
after its first.
-/
namespace Lumos.Graphics

open Regions

/-- `MAX_BUFFER_INFOS`, `MAX_IMAGE_INFOS` and `MAX_WRITE_DESCTIPTORS` -/
def maxInfos : Nat := 32

/-- `VkDescriptorImageInfo` -/
structure DescriptorImageInfo where
  imageLayout : Nat
  imageView : Nat
  sampler : Nat
  deriving DecidableEq

/-- `VkDescriptorBufferInfo` -/
structure DescriptorBufferInfo where
  buffer : Nat
  offset : Nat
  range : Nat
  deriving DecidableEq

/-- `VkWriteDescriptorSet`, where pointers are positions in the pools. -/
structure WriteDescriptorSet where
  descriptorType : DescriptorType
  dstBinding : Nat
  pImageInfo : Option Nat
  pBufferInfo : Option Nat
  descriptorCount : Nat
  deriving DecidableEq

structure VKDescriptorSet where
  bufferInfoPool : Vector DescriptorBufferInfo maxInfos
  imageInfoPool : Vector DescriptorImageInfo maxInfos
  writeDescriptorSetPool : Vector WriteDescriptorSet maxInfos
  dynamic : Bool

/-- What `vkUpdateDescriptorSets` is called with: the writes, and the pools they point into. -/
structure UpdateCall where
  writes : List WriteDescriptorSet
  imageInfoPool : Vector DescriptorImageInfo maxInfos
  bufferInfoPool : Vector DescriptorBufferInfo maxInfos

/-- The image infos a write refers to. -/
def UpdateCall.images (call : UpdateCall) (write : WriteDescriptorSet) : List DescriptorImageInfo :=
  match write.pImageInfo with
  | some first => region call.imageInfoPool first write.descriptorCount
  | none => []

/-- The buffer infos a write refers to. -/
def UpdateCall.buffers (call : UpdateCall) (write : WriteDescriptorSet) : List DescriptorBufferInfo :=
  match write.pBufferInfo with
  | some first => region call.bufferInfoPool first write.descriptorCount
  | none => []

namespace VKDescriptorSet

variable {T B : Type} (getHandle : T → DescriptorImageInfo) (getBuffer : B → Nat)

/-! ## The code -/

def imageWrite (imageInfo : ImageInfo T) (imageIndex : Nat) : WriteDescriptorSet where
  descriptorType := .imageSampler
  dstBinding := imageInfo.binding
  pImageInfo := some imageIndex
  pBufferInfo := none
  descriptorCount := imageInfo.count

def bufferWrite (bufferInfo : BufferInfo B) (index : Nat) : WriteDescriptorSet where
  descriptorType := bufferInfo.type
  dstBinding := bufferInfo.binding
  pImageInfo := none
  pBufferInfo := some index
  descriptorCount := 1

def bufferCell (bufferInfo : BufferInfo B) : DescriptorBufferInfo where
  buffer := getBuffer bufferInfo.buffer
  offset := bufferInfo.offset
  range := bufferInfo.size

/-- The loop over the images, with the number of writes at its end. -/
def writeImages : List (ImageInfo T) → Nat → Nat → VKDescriptorSet → Option (Nat × VKDescriptorSet)
  | [], _, descriptorWritesCount, set => some (descriptorWritesCount, set)
  | imageInfo :: imageInfos, imageIndex, descriptorWritesCount, set => do
    let images ← fill (imageInfo.all.map getHandle) imageIndex set.imageInfoPool
    let writes ← put set.writeDescriptorSetPool descriptorWritesCount (imageWrite imageInfo imageIndex)
    writeImages imageInfos (imageIndex + 1) (descriptorWritesCount + 1)
      { set with imageInfoPool := images, writeDescriptorSetPool := writes }

/-- The loop over the buffers. -/
def writeBuffers : List (BufferInfo B) → Nat → Nat → VKDescriptorSet → Option (Nat × VKDescriptorSet)
  | [], _, descriptorWritesCount, set => some (descriptorWritesCount, set)
  | bufferInfo :: bufferInfos, index, descriptorWritesCount, set => do
    let buffers ← put set.bufferInfoPool index (bufferCell getBuffer bufferInfo)
    let writes ← put set.writeDescriptorSetPool descriptorWritesCount (bufferWrite bufferInfo index)
    writeBuffers bufferInfos (index + 1) (descriptorWritesCount + 1)
      { set with
        bufferInfoPool := buffers
        writeDescriptorSetPool := writes
        dynamic := if bufferInfo.type = .uniformBufferDynamic then true else set.dynamic }

/-- A list that is not given is a null pointer in the source. -/
def updateInternal (imageInfos : Option (List (ImageInfo T))) (bufferInfos : Option (List (BufferInfo B)))
    (set : VKDescriptorSet) : Option (UpdateCall × VKDescriptorSet) := do
  let set := { set with dynamic := false }
  let (descriptorWritesCount, set) ← match imageInfos with
    | some imageInfos => writeImages getHandle imageInfos 0 0 set
    | none => some (0, set)
  let (descriptorWritesCount, set) ← match bufferInfos with
    | some bufferInfos => writeBuffers getBuffer bufferInfos 0 descriptorWritesCount set
    | none => some (descriptorWritesCount, set)
  some (⟨region set.writeDescriptorSetPool 0 descriptorWritesCount, set.imageInfoPool, set.bufferInfoPool⟩, set)

def update (set : VKDescriptorSet) : Update T B → Option (UpdateCall × VKDescriptorSet)
  | .images imageInfos => updateInternal getHandle getBuffer (some imageInfos) none set
  | .buffers bufferInfos => updateInternal getHandle getBuffer none (some bufferInfos) set
  | .both imageInfos bufferInfos => updateInternal getHandle getBuffer (some imageInfos) (some bufferInfos) set

/-! ## What is asked of the writes -/

/-- A write for each info, which refers to what the info says and nothing else. -/
structure Right (call : UpdateCall) (update : Update T B) : Prop where
  length : call.writes.length = update.imageInfos.length + update.bufferInfos.length
  images : ∀ (i : Nat) info, update.imageInfos[i]? = some info → ∃ write, call.writes[i]? = some write ∧
    write.dstBinding = info.binding ∧ call.images write = info.all.map getHandle
  buffers : ∀ (i : Nat) info, update.bufferInfos[i]? = some info →
    ∃ write, call.writes[update.imageInfos.length + i]? = some write ∧
      write.dstBinding = info.binding ∧ call.buffers write = [bufferCell getBuffer info]

/-- None of the updates faults, and all calls are right. -/
def Sound : VKDescriptorSet → List (Update T B) → Prop
  | _, [] => True
  | set, update :: updates => ∃ call set', set.update getHandle getBuffer update = some (call, set') ∧
      Right getHandle getBuffer call update ∧ Sound set' updates

/-- There is room for all infos, and where the cells of an array are taken by a later info,
that has the same textures. -/
structure Fits (update : Update T B) : Prop where
  writes : update.imageInfos.length + update.bufferInfos.length ≤ maxInfos
  inside : ∀ (i : Nat) info, update.imageInfos[i]? = some info → info.count = 0 ∨ i + info.count ≤ maxInfos
  agree : ∀ (i i' j k : Nat) info later texture texture', i < i' → i + j = i' + k →
    update.imageInfos[i]? = some info → update.imageInfos[i']? = some later →
    info.all[j]? = some texture → later.all[k]? = some texture' → getHandle texture = getHandle texture'

/-! ## The loops fill the pools -/

def imageRegions (imageInfos : List (ImageInfo T)) (imageIndex : Nat) : List (Nat × List DescriptorImageInfo) :=
  (imageInfos.zipIdx imageIndex).map fun p => (p.2, p.1.all.map getHandle)

def imageWrites (imageInfos : List (ImageInfo T)) (imageIndex : Nat) : List WriteDescriptorSet :=
  (imageInfos.zipIdx imageIndex).map fun p => imageWrite p.1 p.2

def bufferWrites (bufferInfos : List (BufferInfo B)) (index : Nat) : List WriteDescriptorSet :=
  (bufferInfos.zipIdx index).map fun p => bufferWrite p.1 p.2

/-- All writes of an update. -/
def writes (update : Update T B) : List WriteDescriptorSet :=
  imageWrites update.imageInfos 0 ++ bufferWrites update.bufferInfos 0

variable {getHandle getBuffer} {u : Update T B} {imageInfos : List (ImageInfo T)}
  {bufferInfos : List (BufferInfo B)} {set set' : VKDescriptorSet} {call : UpdateCall} {i k w : Nat}

theorem writeImages_eq (imageInfos : List (ImageInfo T)) : writeImages getHandle imageInfos k w set =
    (fillAll (imageRegions getHandle imageInfos k) set.imageInfoPool).bind fun images =>
      (fill (imageWrites imageInfos k) w set.writeDescriptorSetPool).bind fun writes =>
        some (w + imageInfos.length, { set with imageInfoPool := images, writeDescriptorSetPool := writes }) := by
  induction imageInfos generalizing k w set with
  | nil => rfl
  | cons info infos ih =>
    simp only [writeImages, ih, imageRegions, imageWrites, List.zipIdx_cons, List.map_cons, fillAll, fill,
      Option.bind_eq_bind, Option.bind_assoc, List.length_cons]
    cases fill (info.all.map getHandle) k set.imageInfoPool with
    | none => rfl
    | some images =>
      simp only [Option.bind_some]
      rw [Option.bind_comm]
      simp only [Nat.add_assoc, Nat.add_comm 1]

theorem writeBuffers_eq (bufferInfos : List (BufferInfo B)) : writeBuffers getBuffer bufferInfos k w set =
    (fill (bufferInfos.map (bufferCell getBuffer)) k set.bufferInfoPool).bind fun buffers =>
      (fill (bufferWrites bufferInfos k) w set.writeDescriptorSetPool).bind fun writes =>
        some (w + bufferInfos.length,
          { set with
            bufferInfoPool := buffers
            writeDescriptorSetPool := writes
            dynamic := set.dynamic || bufferInfos.any fun info => info.type = .uniformBufferDynamic }) := by
  induction bufferInfos generalizing k w set with
  | nil =>
    rw [List.any_nil, Bool.or_false]
    rfl
  | cons info infos ih =>
    have hdynamic : (if info.type = .uniformBufferDynamic then true else set.dynamic) =
        (set.dynamic || decide (info.type = .uniformBufferDynamic)) := by
      by_cases h : info.type = .uniformBufferDynamic <;> simp [h]
    simp only [writeBuffers, ih, bufferWrites, List.zipIdx_cons, List.map_cons, fill, hdynamic,
      Option.bind_eq_bind, Option.bind_assoc, List.length_cons, List.any_cons, Bool.or_assoc]
    cases put set.bufferInfoPool k (bufferCell getBuffer info) with
    | none => rfl
    | some buffers =>
      simp only [Option.bind_some]
      rw [Option.bind_comm]
      simp only [Nat.add_assoc, Nat.add_comm 1]

theorem length_writes (u : Update T B) : (writes u).length = u.imageInfos.length + u.bufferInfos.length := by
  simp [writes, imageWrites, bufferWrites]

/-- An update fills each pool from its first cell on. -/
theorem update_eq (u : Update T B) : set.update getHandle getBuffer u =
    (fillAll (imageRegions getHandle u.imageInfos 0) set.imageInfoPool).bind fun images =>
      (fill (u.bufferInfos.map (bufferCell getBuffer)) 0 set.bufferInfoPool).bind fun buffers =>
        (fill (writes u) 0 set.writeDescriptorSetPool).bind fun pool =>
          some (⟨region pool 0 (writes u).length, images, buffers⟩,
            ⟨buffers, images, pool, u.bufferInfos.any fun info => info.type = .uniformBufferDynamic⟩) := by
  have hinternal : set.update getHandle getBuffer u =
      (writeImages getHandle u.imageInfos 0 0 { set with dynamic := false }).bind fun p =>
        (writeBuffers getBuffer u.bufferInfos 0 p.1 p.2).bind fun q =>
          some (⟨region q.2.writeDescriptorSetPool 0 q.1, q.2.imageInfoPool, q.2.bufferInfoPool⟩, q.2) := by
    cases u <;> rfl
  rw [hinternal, writeImages_eq, length_writes, writes, fill_append]
  simp only [writeBuffers_eq, Option.bind_assoc, Option.bind_some, Bool.false_or]
  congr 1
  funext images
  rw [Option.bind_comm]
  simp [imageWrites]

/-! ## Which updates are right -/

theorem getElem?_imageRegions : (imageRegions getHandle imageInfos 0)[i]? =
    imageInfos[i]?.map fun info => (i, info.all.map getHandle) := by
  rw [imageRegions, List.getElem?_map, List.getElem?_zipIdx, Option.map_map, Nat.zero_add]
  rfl

theorem mem_imageRegions {r : Nat × List DescriptorImageInfo} : r ∈ imageRegions getHandle imageInfos 0 ↔
    ∃ i info, imageInfos[i]? = some info ∧ r = (i, info.all.map getHandle) := by
  rw [List.mem_iff_getElem?]
  simp only [getElem?_imageRegions, Option.map_eq_some_iff, eq_comm (a := r)]

variable (getHandle) in
theorem room_iff : (∀ r ∈ imageRegions getHandle imageInfos 0, r.2 = [] ∨ r.1 + r.2.length ≤ maxInfos) ↔
    ∀ (i : Nat) info, imageInfos[i]? = some info → info.count = 0 ∨ i + info.count ≤ maxInfos := by
  have hroom : ∀ (i : Nat) (info : ImageInfo T), info.all.map getHandle = [] ∨
      i + (info.all.map getHandle).length ≤ maxInfos ↔ info.count = 0 ∨ i + info.count ≤ maxInfos := by
    intro i info
    rw [← List.length_eq_zero_iff, List.length_map, info.length_all]
  constructor
  · intro h i info hinfo
    exact (hroom i info).mp (h _ (mem_imageRegions.mpr ⟨i, info, hinfo, rfl⟩))
  · intro h r hr
    obtain ⟨i, info, hinfo, rfl⟩ := mem_imageRegions.mp hr
    exact (hroom i info).mpr (h i info hinfo)

theorem agree_iff : (imageRegions getHandle imageInfos 0).Pairwise (fun r s => Agree r.1 r.2 s.1 s.2) ↔
    ∀ (i i' j k : Nat) info later texture texture', i < i' → i + j = i' + k →
      imageInfos[i]? = some info → imageInfos[i']? = some later →
      info.all[j]? = some texture → later.all[k]? = some texture' → getHandle texture = getHandle texture' := by
  rw [List.pairwise_iff_getElem]
  constructor
  · intro h i i' j k info later texture texture' hlt heq hinfo hlater htexture htexture'
    obtain ⟨hi, hri⟩ := List.getElem?_eq_some_iff.mp
      (getElem?_imageRegions.trans (congrArg (Option.map fun info => (i, info.all.map getHandle)) hinfo))
    obtain ⟨hi', hri'⟩ := List.getElem?_eq_some_iff.mp
      (getElem?_imageRegions.trans (congrArg (Option.map fun info => (i', info.all.map getHandle)) hlater))
    have hagree := h i i' hi hi' hlt
    rw [hri, hri'] at hagree
    apply hagree j k _ _ _ _ heq
    · rw [List.getElem?_map, htexture, Option.map_some]
    · rw [List.getElem?_map, htexture', Option.map_some]
  · intro h i i' hi hi' hlt
    obtain ⟨info, hinfo, hri⟩ := Option.map_eq_some_iff.mp
      (getElem?_imageRegions.symm.trans (List.getElem?_eq_getElem hi))
    obtain ⟨later, hlater, hri'⟩ := Option.map_eq_some_iff.mp
      (getElem?_imageRegions.symm.trans (List.getElem?_eq_getElem hi'))
    rw [← hri, ← hri']
    intro j k a b ha hb heq
    rw [List.getElem?_map] at ha hb
    obtain ⟨texture, htexture, rfl⟩ := Option.map_eq_some_iff.mp ha
    obtain ⟨texture', htexture', rfl⟩ := Option.map_eq_some_iff.mp hb
    exact h i i' j k info later texture texture' hlt heq hinfo hlater htexture htexture'

theorem getElem?_writes_image {info : ImageInfo T} (h : u.imageInfos[i]? = some info) :
    (writes u)[i]? = some (imageWrite info i) := by
  have hi : i < (imageWrites u.imageInfos 0).length := by
    rw [imageWrites, List.length_map, List.length_zipIdx]
    exact (List.getElem?_eq_some_iff.mp h).1
  rw [writes, List.getElem?_append_left hi, imageWrites, List.getElem?_map, List.getElem?_zipIdx, h]
  simp

theorem getElem?_writes_buffer {info : BufferInfo B} (h : u.bufferInfos[i]? = some info) :
    (writes u)[u.imageInfos.length + i]? = some (bufferWrite info i) := by
  have hlength : (imageWrites u.imageInfos 0).length = u.imageInfos.length := by
    rw [imageWrites, List.length_map, List.length_zipIdx]
  rw [writes, List.getElem?_append_right (by omega), hlength, Nat.add_sub_cancel_left, bufferWrites,
    List.getElem?_map, List.getElem?_zipIdx, h]
  simp

/-- A call without a fault has all writes, which are right if the images hold. -/
theorem right_iff (h : set.update getHandle getBuffer u = some (call, set')) :
    Right getHandle getBuffer call u ↔
      (imageRegions getHandle u.imageInfos 0).Pairwise fun r s => Agree r.1 r.2 s.1 s.2 := by
  rw [update_eq] at h
  obtain ⟨images, himages, h⟩ := Option.bind_eq_some_iff.mp h
  obtain ⟨buffers, hbuffers, h⟩ := Option.bind_eq_some_iff.mp h
  obtain ⟨pool, hpool, h⟩ := Option.bind_eq_some_iff.mp h
  cases h
  rw [← holds_all_iff himages]
  have hwrites : region pool 0 (writes u).length = writes u := region_eq_iff.mpr (holds_fill hpool)
  have hslice : ∀ (info : ImageInfo T) (i : Nat), region images i info.count = info.all.map getHandle ↔
      Holds images i (info.all.map getHandle) := by
    intro info i
    rw [← region_eq_iff, List.length_map, info.length_all]
  constructor
  · intro hright r hr
    obtain ⟨i, info, hinfo, rfl⟩ := mem_imageRegions.mp hr
    obtain ⟨write, hwrite, -, hholds⟩ := hright.images i info hinfo
    rw [hwrites, getElem?_writes_image hinfo, Option.some.injEq] at hwrite
    rw [← hwrite] at hholds
    exact (hslice info i).mp hholds
  · intro hholds
    constructor
    · rw [hwrites, length_writes]
    · intro i info hinfo
      refine ⟨imageWrite info i, by rw [hwrites, getElem?_writes_image hinfo], rfl, ?_⟩
      exact (hslice info i).mpr (hholds _ (mem_imageRegions.mpr ⟨i, info, hinfo, rfl⟩))
    · intro i info hinfo
      refine ⟨bufferWrite info i, by rw [hwrites, getElem?_writes_buffer hinfo], rfl, ?_⟩
      have hcell := holds_fill hbuffers i (bufferCell getBuffer info)
        (by rw [List.getElem?_map, hinfo, Option.map_some])
      rw [Nat.zero_add] at hcell
      change region buffers i [bufferCell getBuffer info].length = [bufferCell getBuffer info]
      apply region_eq_iff.mpr
      intro j a ha
      cases j with
      | zero =>
        cases ha
        exact hcell
      | succ j => exact absurd ha (by simp)

/-- Nothing faults where there is room in the pools. -/
theorem update_isSome : (set.update getHandle getBuffer u).isSome = true ↔
    u.imageInfos.length + u.bufferInfos.length ≤ maxInfos ∧
      ∀ (i : Nat) info, u.imageInfos[i]? = some info → info.count = 0 ∨ i + info.count ≤ maxInfos := by
  rw [← room_iff getHandle, ← fillAll_isSome set.imageInfoPool, update_eq]
  have hwrites : (fill (writes u) 0 set.writeDescriptorSetPool).isSome = true ↔
      u.imageInfos.length + u.bufferInfos.length ≤ maxInfos := by
    rw [fill_isSome, ← List.length_eq_zero_iff, length_writes]
    omega
  have hbuffers : (fill (writes u) 0 set.writeDescriptorSetPool).isSome = true →
      (fill (u.bufferInfos.map (bufferCell getBuffer)) 0 set.bufferInfoPool).isSome = true := by
    rw [hwrites, fill_isSome, List.length_map]
    omega
  rw [← hwrites]
  revert hbuffers
  cases fillAll (imageRegions getHandle u.imageInfos 0) set.imageInfoPool <;>
    cases fill (u.bufferInfos.map (bufferCell getBuffer)) 0 set.bufferInfoPool <;>
    cases fill (writes u) 0 set.writeDescriptorSetPool <;> simp

/-- One update. -/
theorem update_right_iff : (∃ call set', set.update getHandle getBuffer u = some (call, set') ∧
    Right getHandle getBuffer call u) ↔ Fits getHandle u := by
  constructor
  · rintro ⟨call, set', hupdate, hright⟩
    obtain ⟨hroom, hinside⟩ := update_isSome.mp (Option.isSome_of_eq_some hupdate)
    exact ⟨hroom, hinside, agree_iff.mp ((right_iff hupdate).mp hright)⟩
  · intro hfits
    obtain ⟨⟨call, set'⟩, hupdate⟩ := Option.isSome_iff_exists.mp (update_isSome.mpr ⟨hfits.writes, hfits.inside⟩)
    exact ⟨call, set', hupdate, (right_iff hupdate).mpr (agree_iff.mpr hfits.agree)⟩

/-- Whatever the pools hold at first, a sequence of updates is sound just when each fits. -/
theorem sound_iff (set : VKDescriptorSet) (updates : List (Update T B)) :
    Sound getHandle getBuffer set updates ↔ ∀ u ∈ updates, Fits getHandle u := by
  induction updates generalizing set with
  | nil => exact ⟨fun _ u hu => absurd hu List.not_mem_nil, fun _ => trivial⟩
  | cons u updates ih =>
    rw [List.forall_mem_cons]
    constructor
    · rintro ⟨call, set', hupdate, hright, hrest⟩
      exact ⟨update_right_iff.mp ⟨call, set', hupdate, hright⟩, (ih set').mp hrest⟩
    · rintro ⟨hfits, hrest⟩
      obtain ⟨call, set', hupdate, hright⟩ := update_right_iff.mpr hfits
      exact ⟨call, set', hupdate, hright, (ih set').mpr hrest⟩

/-- An array of two textures, and one more image. -/
def arrayThenImage : Update Nat Nat :=
  .images [⟨[1, 2], 0, 2, 0, "textures", .inr rfl⟩, ⟨[], 3, 1, 1, "shadow", .inl rfl⟩]

def emptySet : VKDescriptorSet :=
  ⟨.replicate _ ⟨0, 0, 0⟩, .replicate _ ⟨0, 0, 0⟩, .replicate _ ⟨.imageSampler, 0, none, none, 0⟩, false⟩

/-- The second image takes the place of the second texture. -/
theorem arrayThenImage_wrong :
    ¬Sound (fun view => ⟨0, view, 0⟩) (fun buffer => buffer) emptySet [arrayThenImage] := by
  rintro ⟨call, set', hupdate, hright, -⟩
  obtain ⟨write, hwrite, -, hslice⟩ := hright.images 0 _ rfl
  have hcall : ((emptySet.update (fun view => ⟨0, view, 0⟩) (fun buffer => buffer) arrayThenImage).bind fun p =>
      p.1.writes[0]?.map p.1.images) = some [⟨0, 1, 0⟩, ⟨0, 3, 0⟩] := by decide +kernel
  rw [hupdate, Option.bind_some, hwrite, Option.map_some, hslice] at hcall
  exact absurd hcall (by decide)

end VKDescriptorSet

end Lumos.Graphics
