import Mathlib
import Lumos.Library.HandleLedger

/-!
# `VKTextureDepthArray`

An array of depth textures owns an image with a view of all its layers, a view of each, and a sampler.
`Resize` makes all of them anew.
-/
namespace Lumos.Graphics.VKTextureDepthArray

open HandleLedger

/-! ## The code -/

inductive Object where
  | image (width height arrayLayers : UInt32)
  | imageView (image : Nat) (layerCount baseArrayLayer : UInt32)
  | sampler
  deriving DecidableEq

structure DescriptorImageInfo where
  sampler : Option Nat
  imageView : Option Nat

structure Size where
  width : UInt32
  height : UInt32
  count : UInt32

/-- Handles are null before `Init`. -/
structure State where
  device : Device Object
  width : UInt32
  height : UInt32
  count : UInt32
  textureImage : Option Nat := none
  textureImageView : Option Nat := none
  textureSampler : Option Nat := none
  descriptor : DescriptorImageInfo := ⟨none, none⟩
  individualImageViews : List Nat := []

def updateDescriptor (s : State) : State := { s with descriptor := ⟨s.textureSampler, s.textureImageView⟩ }

/-- One turn of the loop over the layers. -/
def addView (image : Nat) (made : List Nat × Device Object) (i : Nat) : List Nat × Device Object :=
  let (imageView, device) := made.2.create (.imageView image 1 (.ofNat i))
  (made.1 ++ [imageView], device)

def init (s : State) : State :=
  let (image, device) := s.device.create (.image s.width s.height s.count)
  let (imageView, device) := device.create (.imageView image s.count 0)
  let (views, device) := (List.range s.count.toNat).foldl (addView image) (s.individualImageViews, device)
  let (sampler, device) := device.create .sampler
  updateDescriptor { s with
    device := device
    textureImage := some image
    textureImageView := some imageView
    individualImageViews := views
    textureSampler := some sampler }

def construct (device : Device Object) (size : Size) : State :=
  init { device := device, width := size.width, height := size.height, count := size.count }

def resize (s : State) (size : Size) : State :=
  let device := s.device.destroy s.textureSampler
  let device := device.destroy s.textureImageView
  let device := device.destroy s.textureImage
  init { s with device := device, width := size.width, height := size.height, count := size.count }

/-- `GetImageView(int)`. It fails where there is no such entry. -/
def getImageView (s : State) (index : Int) : Option Nat :=
  if 0 ≤ index then s.individualImageViews[index.toNat]? else none

def getHandleArray (s : State) (index : UInt32) : Option State := do
  let imageView ← getImageView s index.toBitVec.toInt
  return { s with descriptor := { s.descriptor with imageView := some imageView } }

def destroyView (views : List Nat) (device : Device Object) (i : Nat) : Option (Device Object) := do
  return device.destroy (some (← views[i]?))

/-- `~VKTextureDepthArray` -/
def destruct (s : State) : Option (Device Object) :=
  let device := s.device.destroy s.textureImageView
  let device := device.destroy s.textureImage
  let device := device.destroy s.textureSampler
  (List.range s.count.toNat).foldlM (destroyView s.individualImageViews) device

/-- What construction and the calls of `Resize` lead to. -/
def run (first : Size) (resizes : List Size) : State := resizes.foldl resize (construct {} first)

/-! ## What is asked of it -/

/-- The handle for a layer is a live view of this layer of the image there is. -/
def Handy (s : State) : Prop := ∀ index, index < s.count → ∃ s' image imageView, getHandleArray s index = some s' ∧
  s'.textureImage = some image ∧ s'.descriptor.imageView = some imageView ∧
    s'.device.Live image (.image s.width s.height s.count) ∧ s'.device.Live imageView (.imageView image 1 index)

/-- Between calls the handles are good, and in the end everything has been destroyed once. -/
structure Managed (first : Size) (resizes : List Size) : Prop where
  handy : ∀ done, done <+: resizes → Handy (run first done)
  once : ∃ device, destruct (run first resizes) = some device ∧ device.EachOnce

/-! ## `Init` -/

variable {s : State} {first size : Size} {resizes : List Size}

/-- The view of a layer. -/
def layerView (image i : Nat) : Object := .imageView image 1 (.ofNat i)

theorem foldl_addView (image n : Nat) (views : List Nat) (device : Device Object) :
    (List.range n).foldl (addView image) (views, device) =
      (views ++ List.range' device.created.length n,
        { device with created := device.created ++ (List.range n).map (layerView image) }) := by
  induction n with
  | zero => simp
  | succ n ih =>
    rw [List.range_succ, List.foldl_append, ih, List.map_append, ← List.append_assoc, List.range'_1_concat,
      ← List.append_assoc, List.foldl_cons, List.foldl_nil, addView, Device.create, List.length_append, List.length_map,
      List.length_range]
    rfl

/-- What `Init` makes. -/
def made (s : State) : List Object :=
  [.image s.width s.height s.count, .imageView s.device.created.length s.count 0] ++
    (List.range s.count.toNat).map (layerView s.device.created.length) ++ [.sampler]

/-- What a texture has the handles of. -/
def held (s : State) : List Nat :=
  s.textureSampler.toList ++ s.textureImageView.toList ++ s.textureImage.toList ++ s.individualImageViews

/-- The views that `Init` appends. -/
def newViews (s : State) : List Nat := List.range' (s.device.created.length + 2) s.count.toNat

theorem init_eq (s : State) : init s = { s with
    device := { s.device with created := s.device.created ++ made s }
    textureImage := some s.device.created.length
    textureImageView := some (s.device.created.length + 1)
    textureSampler := some (s.device.created.length + 2 + s.count.toNat)
    descriptor := ⟨some (s.device.created.length + 2 + s.count.toNat), some (s.device.created.length + 1)⟩
    individualImageViews := s.individualImageViews ++ newViews s } := by
  simp [init, Device.create, foldl_addView, updateDescriptor, made, newViews, Nat.add_assoc, Nat.add_comm 2]

theorem accounts_init (h : s.device.Accounts s.individualImageViews) : (init s).device.Accounts (held (init s)) := by
  have hlength : (init s).device.created.length = s.device.created.length + (2 + s.count.toNat + 1) := by
    rw [init_eq]
    simp [made]
    omega
  have hmade : List.range' s.device.created.length (2 + s.count.toNat + 1) =
      [s.device.created.length, s.device.created.length + 1] ++ newViews s ++
        [s.device.created.length + 2 + s.count.toNat] := by
    rw [← List.range'_append_1, ← List.range'_append_1, ← Nat.add_assoc]
    rfl
  refine (h.create (by rw [init_eq]) hlength).perm ?_
  rw [hmade, init_eq]
  simp only [held, Option.toList_some]
  rw [List.perm_iff_count]
  intro handle
  simp only [List.count_append, List.count_cons, List.count_nil]
  omega

/-- What is there after `Init`, with the views from before. -/
structure Made (s : State) (stale : List Nat) (image : Nat) : Prop where
  textureImage : s.textureImage = some image
  views : s.individualImageViews = stale ++ List.range' (image + 2) s.count.toNat
  created : s.device.created[image]? = some (.image s.width s.height s.count)
  layer : ∀ i < s.count.toNat, s.device.created[image + 2 + i]? = some (layerView image i)

theorem made_init (s : State) : Made (init s) s.individualImageViews s.device.created.length := by
  rw [init_eq]
  refine ⟨rfl, rfl, ?_, fun i hi => ?_⟩
  · simp [made]
  · have hi' : i < s.count.toNat := hi
    simp [made, Nat.add_assoc, Nat.add_comm 2, List.getElem?_append_right, List.getElem?_append_left, hi', layerView]

/-! ## Runs -/

theorem accounts_resize (h : s.device.Accounts (held s)) : (resize s size).device.Accounts (held (resize s size)) := by
  simp only [held, List.append_assoc] at h
  exact accounts_init h.destroy.destroy.destroy

theorem accounts_run (first : Size) (resizes : List Size) :
    (run first resizes).device.Accounts (held (run first resizes)) := by
  induction resizes using List.reverseRecOn with
  | nil => exact accounts_init (List.Perm.refl [])
  | append_singleton resizes size ih =>
    rw [run, List.foldl_append]
    exact accounts_resize ih

theorem run_append_singleton (first : Size) (resizes : List Size) (size : Size) :
    run first (resizes ++ [size]) = resize (run first resizes) size := List.foldl_append

/-- There are no views only if none have ever been asked for. -/
theorem views_run_eq_nil_iff (first : Size) (resizes : List Size) :
    (run first resizes).individualImageViews = [] ↔ ∀ size ∈ first :: resizes, size.count = 0 := by
  have hzero : ∀ size : Size, size.count.toNat = 0 ↔ size.count = 0 := fun size => UInt32.toNat_inj (b := 0)
  induction resizes using List.reverseRecOn with
  | nil =>
    rw [List.forall_mem_singleton, run, List.foldl_nil, construct, (made_init _).views]
    exact List.range'_eq_nil_iff.trans (hzero first)
  | append_singleton resizes size ih =>
    rw [← List.cons_append, List.forall_mem_append, List.forall_mem_singleton, run_append_singleton, resize,
      (made_init _).views, List.append_eq_nil_iff]
    exact and_congr ih (List.range'_eq_nil_iff.trans (hzero size))

/-- What a run leads to: the views of the last size, behind those of all sizes before. -/
theorem made_run (first : Size) (resizes : List Size) : ∃ stale image, Made (run first resizes) stale image ∧
    (stale = [] ↔ ∀ size ∈ (first :: resizes).dropLast, size.count = 0) := by
  rcases List.eq_nil_or_concat resizes with rfl | ⟨resizes, size, rfl⟩
  · exact ⟨[], _, made_init _, iff_of_true rfl fun _ h => absurd h List.not_mem_nil⟩
  · rw [List.concat_eq_append, ← List.cons_append, List.dropLast_concat, run_append_singleton,
      ← views_run_eq_nil_iff]
    exact ⟨_, _, made_init _, Iff.rfl⟩

/-! ## Handles between calls -/

theorem toInt_toBitVec (i : UInt32) :
    i.toBitVec.toInt = if i.toNat < 2 ^ 31 then (i.toNat : Int) else (i.toNat : Int) - 2 ^ 32 := by
  rw [BitVec.toInt_eq_toNat_cond, UInt32.toNat_toBitVec]
  split <;> split <;> omega

/-- The handle of the image that there is, and of its layers, if there are no others. -/
theorem handy_of_made {image : Nat} (h : Made s [] image) (haccounts : s.device.Accounts (held s))
    (hcount : s.count.toNat ≤ 2 ^ 31) : Handy s := by
  intro index hindex
  have hlt : index.toNat < s.count.toNat := UInt32.lt_iff_toNat_lt.mp hindex
  have hviews := h.views
  rw [List.nil_append] at hviews
  have hget : s.individualImageViews[index.toNat]? = some (image + 2 + index.toNat) := by
    rw [hviews, List.getElem?_range' hlt, Nat.one_mul]
  have hview : getImageView s index.toBitVec.toInt = some (image + 2 + index.toNat) := by
    rw [getImageView, toInt_toBitVec, if_pos (hlt.trans_le hcount), if_pos (Int.natCast_nonneg _), Int.toNat_natCast]
    exact hget
  refine ⟨{ s with descriptor := { s.descriptor with imageView := some (image + 2 + index.toNat) } }, image,
    image + 2 + index.toNat, ?_, h.textureImage, rfl, ?_, ?_⟩
  · rw [getHandleArray, hview]
    rfl
  · exact haccounts.live (by simp [held, h.textureImage]) h.created
  · have hlayer := h.layer index.toNat hlt
    rw [layerView, UInt32.ofNat_toNat] at hlayer
    exact haccounts.live (List.mem_append_right _ (List.mem_of_getElem? hget)) hlayer

/-- An index from 2^31 on is negative as an `int`. -/
theorem count_le_of_handy (h : Handy s) : s.count.toNat ≤ 2 ^ 31 := by
  by_contra hcount
  have hlt : (UInt32.ofNat (2 ^ 31)) < s.count := UInt32.lt_iff_toNat_lt.mpr (by simpa using hcount)
  obtain ⟨s', image, imageView, hget, -⟩ := h _ hlt
  cases hget

/-! ## Destruction -/

theorem foldlM_destroyView (views : List Nat) (device : Device Object) (n : Nat) (h : n ≤ views.length) :
    (List.range n).foldlM (destroyView views) device =
      some { device with destroyed := device.destroyed ++ views.take n } := by
  induction n with
  | zero => simp
  | succ n ih =>
    rw [List.range_succ, List.foldlM_append, ih (Nat.le_of_succ_le h), List.take_add_one, ← List.append_assoc]
    change (destroyView views _ n).bind _ = _
    rw [destroyView, List.getElem?_eq_getElem h]
    rfl

/-- The destructor leaves the views behind the current number. -/
theorem destruct_spec (haccounts : s.device.Accounts (held s)) (hcount : s.count.toNat ≤ s.individualImageViews.length) :
    ∃ device, destruct s = some device ∧ device.Accounts (s.individualImageViews.drop s.count.toNat) := by
  have hheld : (held s).Perm (s.textureImageView.toList ++ (s.textureImage.toList ++
      (s.textureSampler.toList ++ s.individualImageViews))) := by
    rw [held, List.perm_iff_count]
    intro handle
    simp only [List.count_append]
    omega
  have hthree := (haccounts.perm hheld).destroy.destroy.destroy
  refine ⟨_, foldlM_destroyView _ _ _ hcount, ?_⟩
  rw [Device.Accounts, List.append_assoc, List.take_append_drop]
  exact hthree

/-- All is well exactly if only the last size has any layers, and none has more than an `int` can count. -/
theorem managed_iff (first : Size) (resizes : List Size) : Managed first resizes ↔
    (∀ size ∈ (first :: resizes).dropLast, size.count = 0) ∧
      ∀ size ∈ first :: resizes, size.count.toNat ≤ 2 ^ 31 := by
  have hbefore : ∀ done, done <+: resizes → (∀ size ∈ (first :: resizes).dropLast, size.count = 0) →
      ∀ size ∈ (first :: done).dropLast, size.count = 0 := by
    rintro done ⟨rest, rfl⟩ h size hmem
    rcases List.eq_nil_or_concat rest with rfl | ⟨rest, last, rfl⟩
    · rw [List.append_nil] at h
      exact h size hmem
    · rw [List.concat_eq_append, ← List.append_assoc, ← List.cons_append, List.dropLast_concat] at h
      exact h size (List.mem_append_left _ (List.dropLast_subset _ hmem))
  obtain ⟨stale, image, hmade, hstale⟩ := made_run first resizes
  have hlength : (run first resizes).individualImageViews.length = stale.length + (run first resizes).count.toNat := by
    rw [hmade.views, List.length_append, List.length_range']
  obtain ⟨device, hdestruct, haccounts⟩ := destruct_spec (accounts_run first resizes) (by omega)
  have hdrop : (run first resizes).individualImageViews.drop (run first resizes).count.toNat = [] ↔ stale = [] := by
    rw [List.drop_eq_nil_iff, hlength, ← List.length_eq_zero_iff]
    omega
  constructor
  · rintro ⟨hhandy, device', hdevice', honce⟩
    obtain rfl := Option.some.inj (hdestruct.symm.trans hdevice')
    refine ⟨hstale.mp (hdrop.mp (haccounts.eachOnce_iff.mp honce)), fun size hmem => ?_⟩
    rcases List.mem_cons.mp hmem with rfl | hmem
    · exact count_le_of_handy (hhandy [] List.nil_prefix)
    · obtain ⟨before, after, rfl⟩ := List.append_of_mem hmem
      have hlast := count_le_of_handy (hhandy (before ++ [size]) ⟨after, by simp⟩)
      rwa [run_append_singleton] at hlast
  · rintro ⟨hzero, hsmall⟩
    refine ⟨fun done hdone => ?_, device, hdestruct, haccounts.eachOnce_iff.mpr (hdrop.mpr (hstale.mpr hzero))⟩
    obtain ⟨stale', image', hmade', hstale'⟩ := made_run first done
    rw [hstale'.mpr (hbefore done hdone hzero)] at hmade'
    refine handy_of_made hmade' (accounts_run first done) ?_
    rcases List.eq_nil_or_concat done with rfl | ⟨before, last, rfl⟩
    · exact hsmall first List.mem_cons_self
    · rw [List.concat_eq_append, run_append_singleton]
      exact hsmall last (List.mem_cons_of_mem _ (hdone.subset (by simp)))

def oneLayer : Size := ⟨1024, 1024, 1⟩

/-- Resized to one layer again, the texture leaves the view of it (the handle 6) to nobody. -/
theorem oneLayer_not_managed : ¬ Managed oneLayer [oneLayer] := by
  rintro ⟨-, device, hdevice, honce⟩
  have hseven : destruct (run oneLayer [oneLayer]) =
      some ⟨(run oneLayer [oneLayer]).device.created, [3, 1, 0, 5, 4, 7, 2]⟩ := by decide
  obtain rfl := Option.some.inj (hdevice.symm.trans hseven)
  exact absurd (honce 6 (by decide)) (by decide)

end Lumos.Graphics.VKTextureDepthArray
