import Mathlib.Tactic.IntervalCases
import Mathlib.Tactic.Ring
import Lumos.Library.EndToEnd
import Lumos.Utilities.LoadImage

/-!
# `VKTextureCube::Load`

The faces of a cube texture are cut out of an image for each mip level, packed into a buffer face by
face, and copied from there by regions whose offsets are added up once more.
-/
namespace Lumos.Graphics.VKTextureCube

open EndToEnd LoadImage

/-! ## The code -/

def faceWidth (image : LoadedImage) : Nat := image.width / 3

def faceHeight (image : LoadedImage) : Nat := image.height / 4

/-- The bytes of a face. There is nothing where none is written. -/
def cubeFace (image : LoadedImage) (face : Nat) (cell : Nat × Nat) : List (Option UInt8) :=
  let stride := image.bits / 8
  (List.range (faceHeight image)).flatMap fun y =>
    let yp := cell.2 * faceHeight image + crossOffset face (faceHeight image) y
    (List.range (faceWidth image)).flatMap fun x =>
      let xp := cell.1 * faceWidth image + crossOffset face (faceWidth image) x
      (List.range stride).map fun k =>
        if k ∈ pixelBytes stride then image.data[((xp + yp * image.width) * stride + k) % 2 ^ 32]? else none

/-- The faces of one image, in the order of the loops. -/
def cubeTextureData (image : LoadedImage) : List (List (Option UInt8)) :=
  crossFaces.zipIdx.map fun (cell, face) => cubeFace image face cell

def addSize (size : Nat) (image : LoadedImage) : Nat :=
  crossFaces.foldl (fun size _ => (size + image.bits / 8 * image.height * image.width) % 2 ^ 32) size

/-- `size`, of the buffer that is copied from. -/
def stagingSize (images : List LoadedImage) : Nat := images.foldl addSize 0

/-- `bits`, as the last image leaves it. -/
def lastBits (images : List LoadedImage) : Nat := (images.getLast?.map LoadedImage.bits).getD 0

def faceOrder : List Nat := [3, 1, 0, 4, 2, 5]

def faceData (image : LoadedImage) (face : Nat) : List (Option UInt8) :=
  (cubeTextureData image).getD (faceOrder.getD face 0) []

def currentSize (bits : Nat) (image : LoadedImage) : Nat := faceWidth image * faceHeight image * bits % 2 ^ 32 / 8

/-- What is copied of a face. Behind the face there is nothing. -/
def copied (bits : Nat) (image : LoadedImage) (face : Nat) : List (Option UInt8) :=
  (List.range (currentSize bits image)).map fun i => (faceData image face)[i]?.join

/-- What the offset of the regions is increased by. -/
def regionStep (bits : Nat) (image : LoadedImage) : Nat := faceWidth image * faceWidth image * bits % 2 ^ 32 / 8

/-- A `memcpy` into the buffer. -/
structure Write where
  pointeroffset : Nat
  currentSize : Nat
  face : Nat
  mip : Nat
  deriving DecidableEq

structure BufferImageCopy where
  bufferOffset : Nat
  mipLevel : Nat
  baseArrayLayer : Nat
  width : Nat
  height : Nat
  deriving DecidableEq

/-- The buffer, what has been written to it and the regions, with the bytes that a texel takes in the format that
goes with the bits. -/
structure Loaded where
  staging : List (Option UInt8)
  written : List Write
  regions : List BufferImageCopy
  texel : Nat
  deriving DecidableEq

/-- `Load`, with as many images as levels. It fails if something is written beyond the buffer. -/
def load (images : List Image) : Option Loaded := do
  let images := images.map loadImageFromFile
  let bits := lastBits images
  let writes := placed (2 ^ 32) 6 (fun (image, _) => currentSize bits image) images.zipIdx
  let regions := placed (2 ^ 32) 6 (fun (image, _) => regionStep bits image) images.zipIdx
  let staging ← memcpyAll (List.replicate (stagingSize images) none)
    (writes.map fun (offset, face, image, _) => (offset, copied bits image face))
  return {
    staging := staging
    written := writes.map fun (offset, face, image, mip) => ⟨offset, currentSize bits image, face, mip⟩
    regions := regions.map fun (offset, face, image, level) =>
      ⟨offset, level, face, faceWidth image, faceHeight image⟩
    texel := bits / 8 }

/-- What `glTexImage2D` is given. -/
structure Upload where
  face : Nat
  level : Nat
  width : Nat
  height : Nat
  data : List (Option UInt8)

/-- The uploads of `GLTextureCube::LoadFromVCross`, whose faces are numbered as the layers are. -/
def loadFromVCross (images : List Image) : List Upload :=
  (images.map loadImageFromFile).zipIdx.flatMap fun (image, m) =>
    [(0, 3), (1, 1), (2, 0), (3, 4), (4, 2), (5, 5)].map fun (target, face) =>
      ⟨target, m, faceWidth image, faceHeight image, (cubeTextureData image).getD face []⟩

/-! ## What is asked of it -/

def BufferImageCopy.Covers (region : BufferImageCopy) (texel i : Nat) : Prop :=
  region.bufferOffset ≤ i ∧ i < region.bufferOffset + region.width * region.height * texel

def Write.Covers (write : Write) (i : Nat) : Prop :=
  write.pointeroffset ≤ i ∧ i < write.pointeroffset + write.currentSize

/-- The cells of the cross: right, left, top, bottom, front and back. -/
def cellOf (face : Nat) : Nat × Nat := [(2, 1), (0, 1), (1, 0), (1, 2), (1, 1), (1, 3)].getD face (0, 0)

/-- Along a side of a cell. The last face is turned round. -/
def along (face cell size i : Nat) : Nat := cell * size + if face = 5 then size - 1 - i else i

/-- The pixel of a face in the cross. -/
def crossPixel (image : Image) (face x y : Nat) : Nat :=
  along face (cellOf face).1 (image.width / 3) x + along face (cellOf face).2 (image.height / 4) y * image.width

/-- A texel shows a pixel of four bytes. The floats of an image fit into no texel. -/
structure Shows (loaded : Loaded) (offset : Nat) (image : Image) (pixel : Nat) : Prop where
  hdr : image.hdr = false
  texel : loaded.texel = 4
  bytes : ∀ k < 4, loaded.staging[offset + k]? = some image.pixels[pixel * 4 + k]?

/-- A region has the bytes written for it, and they are those of its face. -/
structure Right (images : List Image) (loaded : Loaded) (region : BufferImageCopy) (image : Image) : Prop where
  extent : region.width = image.width / 3 ∧ region.height = image.height / 4
  written : ∃ write ∈ loaded.written, write.face = region.baseArrayLayer ∧ write.mip = region.mipLevel ∧
    ∀ i, region.Covers loaded.texel i ↔ write.Covers i
  pixels : ∀ x < region.width, ∀ y < region.height,
    Shows loaded (region.bufferOffset + (x + y * region.width) * loaded.texel) image
      (crossPixel image region.baseArrayLayer x y)
  vCross : ∀ upload ∈ loadFromVCross images, upload.face = region.baseArrayLayer → upload.level = region.mipLevel →
    upload.width = region.width ∧ upload.height = region.height ∧
      ∀ i < region.width * region.height * loaded.texel, loaded.staging[region.bufferOffset + i]? = upload.data[i]?

/-- All regions are right, apart from each other and inside the buffer. -/
def LoadsCube (images : List Image) : Prop := ∃ loaded, load images = some loaded ∧
  (∀ region ∈ loaded.regions, ∃ image, images[region.mipLevel]? = some image ∧ Right images loaded region image) ∧
  (∀ region ∈ loaded.regions, ∀ other ∈ loaded.regions,
    region.baseArrayLayer ≠ other.baseArrayLayer ∨ region.mipLevel ≠ other.mipLevel →
      ∀ i, region.Covers loaded.texel i → ¬ other.Covers loaded.texel i) ∧
  ∀ region ∈ loaded.regions, ∀ i, region.Covers loaded.texel i → i < loaded.staging.length

/-- The faces have pixels. -/
def HasFaces (image : Image) : Prop := 0 < image.width / 3 ∧ 0 < image.height / 4

/-- The bytes of one face of each image. -/
def areas (images : List Image) : Nat := (images.map fun image => image.width / 3 * (image.height / 4) * 4).sum

/-- What they would be if the faces were square. -/
def squares (images : List Image) : Nat :=
  (images.map fun image => image.width / 3 * (image.width / 3) * 4 % 2 ^ 29).sum

/-- Faces as the offsets of the regions take them to be, bytes as channels, and not too much of it all. -/
structure Fits (images : List Image) : Prop where
  plain : ∀ image ∈ images, HasFaces image → image.hdr = false ∧ ∀ last ∈ images.getLast?, last.hdr = false
  square : ∀ level image, images[level]? = some image → HasFaces image →
    squares (images.take level) % 2 ^ 32 = areas (images.take level) % 2 ^ 32 ∧
      squares images % 2 ^ 32 = areas images % 2 ^ 32
  room : 6 * areas images ≤
    6 * (images.map fun image => (if image.hdr then 8 else 4) * image.height * image.width).sum % 2 ^ 32

/-! ## Sizes -/

variable {images : List Image} {image : Image} {face level x y k : Nat}

theorem bits_loadImageFromFile (image : Image) : (loadImageFromFile image).bits = if image.hdr then 64 else 32 := by
  rw [loadImageFromFile_eq]
  cases image.hdr <;> rfl

/-- The bits are those of the last image. -/
theorem lastBits_eq (images : List Image) : lastBits (images.map loadImageFromFile) =
    (images.getLast?.map fun image => if image.hdr then 64 else 32).getD 0 := by
  rw [lastBits, List.getLast?_map, Option.map_map]
  exact congrArg (fun bits => (Option.map bits images.getLast?).getD 0) (funext bits_loadImageFromFile)

/-- No face is large enough for its bits to wrap around. -/
theorem face_small (image : Image) : image.width / 3 * (image.height / 4) * 64 < 2 ^ 32 := by
  have hwidth : image.width / 3 * 3 ≤ image.width := Nat.div_mul_le_self _ _
  have hheight : image.height / 4 * 4 ≤ image.height := Nat.div_mul_le_self _ _
  have hcells := Nat.mul_le_mul hwidth hheight
  have hsmall := image.small
  have hall : image.width / 3 * 3 * (image.height / 4 * 4) = image.width / 3 * (image.height / 4) * 12 :=
    Nat.mul_mul_mul_comm _ _ _ _
  omega

theorem faceWidth_loadImageFromFile (image : Image) : faceWidth (loadImageFromFile image) = image.width / 3 := by
  rw [faceWidth, loadImageFromFile_eq]

theorem faceHeight_loadImageFromFile (image : Image) : faceHeight (loadImageFromFile image) = image.height / 4 := by
  rw [faceHeight, loadImageFromFile_eq]

/-- The bytes of a face are its pixels times the bytes of a texel. -/
theorem currentSize_eq (images : List Image) (image : Image) :
    currentSize (lastBits (images.map loadImageFromFile)) (loadImageFromFile image) =
      image.width / 3 * (image.height / 4) * (lastBits (images.map loadImageFromFile) / 8) := by
  have hsmall := face_small image
  rw [currentSize, faceWidth_loadImageFromFile, faceHeight_loadImageFromFile, lastBits_eq]
  generalize image.width / 3 * (image.height / 4) = area at hsmall ⊢
  cases images.getLast? with
  | none => simp
  | some last =>
    simp only [Option.map_some, Option.getD_some]
    split <;> omega

theorem lastBits_of_last (hlast : ∀ last ∈ images.getLast?, last.hdr = false) (hmem : image ∈ images) :
    lastBits (images.map loadImageFromFile) = 32 := by
  obtain ⟨last, hget⟩ := Option.isSome_iff_exists.mp (List.getLast?_isSome.mpr (List.ne_nil_of_mem hmem))
  rw [lastBits_eq, hget, Option.map_some, hlast last hget]
  rfl

theorem not_hasFaces (h : ¬ HasFaces image) : image.width / 3 * (image.height / 4) = 0 := by
  by_contra hne
  obtain ⟨hwidth, hheight⟩ := Nat.mul_ne_zero_iff.mp hne
  exact h ⟨Nat.pos_of_ne_zero hwidth, Nat.pos_of_ne_zero hheight⟩

/-- Of four bytes each, or without pixels. -/
theorem currentSize_of_plain (h : ∀ image ∈ images, HasFaces image → image.hdr = false ∧
    ∀ last ∈ images.getLast?, last.hdr = false) (hmem : image ∈ images) :
    currentSize (lastBits (images.map loadImageFromFile)) (loadImageFromFile image) =
      image.width / 3 * (image.height / 4) * 4 := by
  rw [currentSize_eq]
  by_cases hfaces : HasFaces image
  · rw [lastBits_of_last (h image hmem hfaces).2 hmem]
  · rw [not_hasFaces hfaces, Nat.zero_mul, Nat.zero_mul]

theorem addSize_eq (size : Nat) (image : LoadedImage) :
    addSize size image = (size + 6 * (image.bits / 8 * image.height * image.width)) % 2 ^ 32 := by
  have hfaces : crossFaces = [(1, 0), (0, 1), (1, 1), (2, 1), (1, 2), (1, 3)] := by decide
  rw [addSize, hfaces]
  generalize image.bits / 8 * image.height * image.width = bytes
  simp only [List.foldl_cons, List.foldl_nil]
  omega

theorem stagingSize_eq (images : List LoadedImage) : stagingSize images =
    6 * (images.map fun image => image.bits / 8 * image.height * image.width).sum % 2 ^ 32 := by
  have hfold : ∀ size, size % 2 ^ 32 = size → images.foldl addSize size =
      (size + 6 * (images.map fun image => image.bits / 8 * image.height * image.width).sum) % 2 ^ 32 := by
    induction images with
    | nil => exact fun size hsize => hsize.symm
    | cons image images ih =>
      intro size hsize
      rw [List.foldl_cons, addSize_eq, ih _ (Nat.mod_mod _ _), List.map_cons, List.sum_cons, Nat.mod_add_mod,
        Nat.mul_add, Nat.add_assoc]
  rw [stagingSize, hfold 0 rfl, Nat.zero_add]

/-! ## What is loaded -/

/-- What is copied, block by block. -/
def blocks (images : List Image) : List (List (Option UInt8)) :=
  (turns 6 (images.map loadImageFromFile).zipIdx).map fun (face, image, _) =>
    copied (lastBits (images.map loadImageFromFile)) image face

/-- The sum over images of a size that is computed of them as they are loaded. -/
theorem sum_take_zipIdx (size : LoadedImage → Nat) (images : List Image) (level : Nat) :
    ((((images.map loadImageFromFile).zipIdx).take level).map fun item => size item.1).sum =
      ((images.take level).map fun image => size (loadImageFromFile image)).sum := by
  have hmap : (((images.map loadImageFromFile).zipIdx).take level).map (fun item => size item.1) =
      ((((images.map loadImageFromFile).zipIdx).map Prod.fst).take level).map size := by
    rw [← List.map_take, List.map_map]
    rfl
  rw [hmap, List.zipIdx_map_fst, ← List.map_take, List.map_map]
  rfl

theorem map_length_blocks (images : List Image) : (blocks images).map List.length =
    (turns 6 (images.map loadImageFromFile).zipIdx).map fun turn =>
      currentSize (lastBits (images.map loadImageFromFile)) turn.2.1 := by
  rw [blocks, List.map_map]
  refine List.map_congr_left fun turn _ => ?_
  exact (List.length_map _).trans List.length_range

/-- The bytes of all blocks. -/
theorem length_flatten_blocks (images : List Image) : (blocks images).flatten.length =
    6 * (images.map fun image =>
      currentSize (lastBits (images.map loadImageFromFile)) (loadImageFromFile image)).sum := by
  have hsum := sum_take_zipIdx (currentSize (lastBits (images.map loadImageFromFile))) images images.length
  rw [List.take_length, List.take_of_length_le (by simp)] at hsum
  rw [List.length_flatten, map_length_blocks, ← hsum]
  exact sum_turns (fun item : LoadedImage × Nat => currentSize (lastBits (images.map loadImageFromFile)) item.1) 6 _

theorem stagingSize_lt (images : List LoadedImage) : stagingSize images < 2 ^ 32 := by
  rw [stagingSize_eq]
  exact Nat.mod_lt _ (Nat.two_pow_pos 32)

/-- If it all fits, the buffer has all blocks, one after another. -/
theorem load_eq (images : List Image) : load images =
    if (blocks images).flatten.length ≤ stagingSize (images.map loadImageFromFile) then
      some {
        staging := (blocks images).flatten ++ List.replicate
          (stagingSize (images.map loadImageFromFile) - (blocks images).flatten.length) none
        written := (placed (2 ^ 32) 6 (fun (image, _) => currentSize (lastBits (images.map loadImageFromFile)) image)
          (images.map loadImageFromFile).zipIdx).map fun (offset, face, image, mip) =>
            ⟨offset, currentSize (lastBits (images.map loadImageFromFile)) image, face, mip⟩
        regions := (placed (2 ^ 32) 6 (fun (image, _) => regionStep (lastBits (images.map loadImageFromFile)) image)
          (images.map loadImageFromFile).zipIdx).map fun (offset, face, image, level) =>
            ⟨offset, level, face, faceWidth image, faceHeight image⟩
        texel := lastBits (images.map loadImageFromFile) / 8 }
    else none := by
  have hcopies : (placed (2 ^ 32) 6 (fun (image, _) => currentSize (lastBits (images.map loadImageFromFile)) image)
      (images.map loadImageFromFile).zipIdx).map (fun (offset, face, image, _) =>
        (offset, copied (lastBits (images.map loadImageFromFile)) image face)) =
      (starts (2 ^ 32) ([] : List (Option UInt8)).length ((blocks images).map List.length)).zip (blocks images) := by
    rw [map_length_blocks, blocks, List.zip_map_right]
    rfl
  have hbuffer := memcpyAll_starts (blocks images) []
    (List.replicate (stagingSize (images.map loadImageFromFile)) none)
    (by rw [List.nil_append, List.length_replicate]; exact stagingSize_lt _)
  rw [← hcopies, List.nil_append, List.nil_append, List.length_replicate, List.drop_replicate] at hbuffer
  change (memcpyAll (List.replicate (stagingSize (images.map loadImageFromFile)) none) _).bind _ = _
  rw [hbuffer]
  split <;> rfl

/-! ## The bytes of a face -/

theorem faceData_eq (image : LoadedImage) (hface : face < 6) :
    faceData image face = cubeFace image (faceOrder.getD face 0) (cellOf face) := by
  have hfaces : crossFaces = [(1, 0), (0, 1), (1, 1), (2, 1), (1, 2), (1, 3)] := by decide
  rw [faceData, cubeTextureData, hfaces]
  interval_cases face <;> rfl

theorem along_eq (hface : face < 6) (cell size i : Nat) :
    along face cell size i = cell * size + crossOffset (faceOrder.getD face 0) size i := by
  have hlast : faceOrder.getD face 0 = 5 ↔ face = 5 := by interval_cases face <;> decide
  rw [along, crossOffset]
  simp only [hlast, Nat.sub_sub, Nat.add_comm 1]

theorem getElem?_cubeFace {image : LoadedImage} {cell : Nat × Nat} (hx : x < faceWidth image) (hy : y < faceHeight image)
    (hk : k < image.bits / 8) : (cubeFace image face cell)[(x + y * faceWidth image) * (image.bits / 8) + k]? =
      some (if k ∈ pixelBytes (image.bits / 8) then
        image.data[((cell.1 * faceWidth image + crossOffset face (faceWidth image) x +
          (cell.2 * faceHeight image + crossOffset face (faceHeight image) y) * image.width) * (image.bits / 8) + k) %
            2 ^ 32]? else none) := by
  have hindex : (x + y * faceWidth image) * (image.bits / 8) + k =
      y * (faceWidth image * (image.bits / 8)) + (x * (image.bits / 8) + k) := by ring
  have hrow : x * (image.bits / 8) + k < faceWidth image * (image.bits / 8) := by nlinarith
  rw [hindex, cubeFace, getElem?_flatMap_range (by simp [List.length_flatMap]) hy hrow,
    getElem?_flatMap_range (by simp) hx hk, List.getElem?_map, List.getElem?_range hk]
  rfl

theorem length_cubeFace (image : LoadedImage) (cell : Nat × Nat) :
    (cubeFace image face cell).length = faceHeight image * (faceWidth image * (image.bits / 8)) := by
  simp [cubeFace, List.length_flatMap]

/-- The pixel of the cross is one of the image. -/
theorem crossPixel_lt (hface : face < 6) (hx : x < image.width / 3) (hy : y < image.height / 4) (hk : k < 4) :
    crossPixel image face x y * 4 + k < image.width * image.height * 4 := by
  have hcell : (cellOf face).1 < 3 ∧ (cellOf face).2 < 4 := by interval_cases face <;> decide
  rw [crossPixel, along_eq hface, along_eq hface]
  exact pixel_lt (cell_lt hcell.1 (crossOffset_lt _ hx)) (cell_lt hcell.2 (crossOffset_lt _ hy)) hk

/-- The face of an image of bytes has the pixels of its cell. -/
theorem getElem?_faceData (hhdr : image.hdr = false) (hface : face < 6) (hx : x < image.width / 3)
    (hy : y < image.height / 4) (hk : k < 4) :
    (faceData (loadImageFromFile image) face)[(x + y * (image.width / 3)) * 4 + k]? =
      some image.pixels[crossPixel image face x y * 4 + k]? := by
  have hstride : (loadImageFromFile image).bits / 8 = 4 := by rw [bits_loadImageFromFile, hhdr]; rfl
  have hlength : image.pixels.length = image.width * image.height * 4 := by rw [image.length, hhdr]; rfl
  have hdata : (loadImageFromFile image).data = image.pixels := by
    rw [loadImageFromFile_eq, List.take_of_length_le hlength.le]
  have hwidth : (loadImageFromFile image).width = image.width := by rw [loadImageFromFile_eq]
  have hpixel : k ∈ pixelBytes 4 := by
    rw [pixelBytes, if_pos le_rfl]
    interval_cases k <;> decide
  have hlt : crossPixel image face x y * 4 + k < 2 ^ 32 :=
    (crossPixel_lt hface hx hy hk).trans (image.small.trans (by decide))
  have hget := @getElem?_cubeFace (faceOrder.getD face 0) x y k (loadImageFromFile image) (cellOf face)
    (by rwa [faceWidth_loadImageFromFile]) (by rwa [faceHeight_loadImageFromFile]) (by rwa [hstride])
  rw [faceWidth_loadImageFromFile, faceHeight_loadImageFromFile, hstride, if_pos hpixel, hdata, hwidth,
    ← along_eq hface, ← along_eq hface] at hget
  rw [faceData_eq _ hface, hget]
  exact congrArg (fun i => some image.pixels[i]?) (Nat.mod_eq_of_lt hlt)

theorem length_faceData (hhdr : image.hdr = false) (hface : face < 6) :
    (faceData (loadImageFromFile image) face).length = image.width / 3 * (image.height / 4) * 4 := by
  rw [faceData_eq _ hface, length_cubeFace, faceWidth_loadImageFromFile, faceHeight_loadImageFromFile,
    bits_loadImageFromFile, hhdr]
  simp
  ring

/-- All of it is copied. -/
theorem copied_eq_faceData (hhdr : image.hdr = false) (hface : face < 6) {bits : Nat}
    (hsize : currentSize bits (loadImageFromFile image) = image.width / 3 * (image.height / 4) * 4) :
    copied bits (loadImageFromFile image) face = faceData (loadImageFromFile image) face := by
  refine List.ext_getElem? fun i => ?_
  rw [copied, List.getElem?_map, hsize, ← length_faceData hhdr hface]
  rcases Nat.lt_or_ge i (faceData (loadImageFromFile image) face).length with hlt | hge
  · rw [List.getElem?_range hlt, Option.map_some, List.getElem?_eq_getElem hlt]
    rfl
  · rw [List.getElem?_eq_none hge, List.getElem?_eq_none (by rwa [List.length_range])]
    rfl

/-! ## Regions and writes -/

/-- The sum of a size of the images as they are loaded. -/
def total (size : LoadedImage → Nat) (images : List Image) : Nat :=
  (images.map fun image => size (loadImageFromFile image)).sum

/-- Where the block of a face and a level is, one behind the other. -/
def placeOf (size : LoadedImage → Nat) (images : List Image) (face level : Nat) : Nat :=
  face * total size images + total size (images.take level)

/-- An entry for each face and each level, with the sum of what is before it. -/
theorem mem_placed_images_iff (size : LoadedImage → Nat) {start : Nat} {item : LoadedImage × Nat} :
    (start, face, item) ∈ placed (2 ^ 32) 6 (fun item => size item.1) (images.map loadImageFromFile).zipIdx ↔
      face < 6 ∧ ∃ image, images[item.2]? = some image ∧ item.1 = loadImageFromFile image ∧
        start = placeOf size images face item.2 % 2 ^ 32 := by
  have hall := sum_take_zipIdx size images images.length
  rw [List.take_length, List.take_of_length_le (by simp)] at hall
  rw [mem_placed_iff, hall]
  refine and_congr_right fun _ => ⟨?_, ?_⟩
  · rintro ⟨level, hitem, rfl⟩
    rw [List.getElem?_zipIdx, List.getElem?_map, Option.map_map] at hitem
    obtain ⟨image, himage, rfl⟩ := Option.map_eq_some_iff.mp hitem
    rw [sum_take_zipIdx]
    refine ⟨image, ?_, rfl, ?_⟩
    · simpa using himage
    · simp [placeOf, total]
  · rintro ⟨image, himage, hloaded, rfl⟩
    refine ⟨item.2, ?_, by rw [sum_take_zipIdx]; rfl⟩
    rw [List.getElem?_zipIdx, List.getElem?_map, himage]
    exact congrArg some (Prod.ext hloaded.symm (Nat.zero_add _))

theorem mem_regions_iff {loaded : Loaded} (h : load images = some loaded) {region : BufferImageCopy} :
    region ∈ loaded.regions ↔ region.baseArrayLayer < 6 ∧ ∃ image, images[region.mipLevel]? = some image ∧
      region.width = image.width / 3 ∧ region.height = image.height / 4 ∧
      region.bufferOffset = placeOf (regionStep (lastBits (images.map loadImageFromFile))) images
        region.baseArrayLayer region.mipLevel % 2 ^ 32 := by
  rw [load_eq] at h
  split at h
  · obtain rfl := Option.some.inj h
    rw [List.mem_map]
    constructor
    · rintro ⟨⟨start, face, item⟩, hmem, rfl⟩
      obtain ⟨hface, image, himage, hloaded, hstart⟩ := (mem_placed_images_iff _).mp hmem
      refine ⟨hface, image, himage, ?_, ?_, hstart⟩
      · change faceWidth item.1 = _
        rw [hloaded, faceWidth_loadImageFromFile]
      · change faceHeight item.1 = _
        rw [hloaded, faceHeight_loadImageFromFile]
    · rintro ⟨hface, image, himage, hwidth, hheight, hstart⟩
      refine ⟨(region.bufferOffset, region.baseArrayLayer, loadImageFromFile image, region.mipLevel),
        (mem_placed_images_iff _).mpr ⟨hface, image, himage, rfl, hstart⟩, ?_⟩
      simp only [faceWidth_loadImageFromFile, faceHeight_loadImageFromFile, ← hwidth, ← hheight]
  · cases h

theorem mem_written_iff {loaded : Loaded} (h : load images = some loaded) {write : Write} :
    write ∈ loaded.written ↔ write.face < 6 ∧ ∃ image, images[write.mip]? = some image ∧
      write.currentSize = currentSize (lastBits (images.map loadImageFromFile)) (loadImageFromFile image) ∧
      write.pointeroffset = placeOf (currentSize (lastBits (images.map loadImageFromFile))) images
        write.face write.mip % 2 ^ 32 := by
  rw [load_eq] at h
  split at h
  · obtain rfl := Option.some.inj h
    rw [List.mem_map]
    constructor
    · rintro ⟨⟨start, face, item⟩, hmem, rfl⟩
      obtain ⟨hface, image, himage, hloaded, hstart⟩ := (mem_placed_images_iff _).mp hmem
      exact ⟨hface, image, himage, congrArg (currentSize _) hloaded, hstart⟩
    · rintro ⟨hface, image, himage, hsize, hstart⟩
      refine ⟨(write.pointeroffset, write.face, loadImageFromFile image, write.mip),
        (mem_placed_images_iff _).mpr ⟨hface, image, himage, rfl, hstart⟩, ?_⟩
      simp only [← hsize]
  · cases h

theorem texel_eq {loaded : Loaded} (h : load images = some loaded) :
    loaded.texel = lastBits (images.map loadImageFromFile) / 8 := by
  rw [load_eq] at h
  split at h
  · obtain rfl := Option.some.inj h
    rfl
  · cases h

/-- There is room for all blocks. -/
theorem isSome_load_iff (images : List Image) : (load images).isSome ↔
    6 * total (currentSize (lastBits (images.map loadImageFromFile))) images ≤
      6 * (images.map fun image => (if image.hdr then 8 else 4) * image.height * image.width).sum % 2 ^ 32 := by
  have hbytes : (fun image : LoadedImage => image.bits / 8 * image.height * image.width) ∘ loadImageFromFile =
      fun image : Image => (if image.hdr then 8 else 4) * image.height * image.width := by
    funext image
    rw [Function.comp, bits_loadImageFromFile, loadImageFromFile_eq]
    cases image.hdr <;> simp
  rw [load_eq, length_flatten_blocks, stagingSize_eq, List.map_map, hbytes, total]
  split
  · next h => exact iff_of_true rfl h
  · next h => exact iff_of_false Bool.false_ne_true h

theorem total_regionStep (images : List Image) : total (regionStep 32) images = squares images := by
  refine congrArg List.sum (List.map_congr_left fun image _ => ?_)
  rw [regionStep, faceWidth_loadImageFromFile]
  omega

theorem total_currentSize {part : List Image} (h : ∀ image ∈ images, HasFaces image → image.hdr = false ∧
    ∀ last ∈ images.getLast?, last.hdr = false) (hpart : ∀ image ∈ part, image ∈ images) :
    total (currentSize (lastBits (images.map loadImageFromFile))) part = areas part :=
  congrArg List.sum (List.map_congr_left fun image hmem => currentSize_of_plain h (hpart image hmem))

theorem placeOf_regionStep (images : List Image) (face level : Nat) :
    placeOf (regionStep 32) images face level = face * squares images + squares (images.take level) := by
  rw [placeOf, total_regionStep, total_regionStep]

/-- Where the last image has four bytes a pixel, the blocks are the faces. -/
theorem placeOf_currentSize (h : ∀ image ∈ images, HasFaces image → image.hdr = false ∧
    ∀ last ∈ images.getLast?, last.hdr = false) (face level : Nat) :
    placeOf (currentSize (lastBits (images.map loadImageFromFile))) images face level =
      face * areas images + areas (images.take level) := by
  rw [placeOf, total_currentSize h fun _ hmem => hmem, total_currentSize h fun _ hmem => List.mem_of_mem_take hmem]

theorem start_eq_of_covers {a b n m : Nat} (h : ∀ i, a ≤ i ∧ i < a + n ↔ b ≤ i ∧ i < b + m) (hn : 0 < n) : a = b := by
  have ha := (h a).mp ⟨le_rfl, by omega⟩
  have hb := (h b).mpr ⟨le_rfl, by omega⟩
  omega

/-- What a good region says of its image and its offset. -/
theorem of_right {loaded : Loaded} (hload : load images = some loaded)
    (hright : ∀ region ∈ loaded.regions, ∃ image, images[region.mipLevel]? = some image ∧ Right images loaded region image)
    (himage : images[level]? = some image) (hfaces : HasFaces image) (hface : face < 6) :
    image.hdr = false ∧ lastBits (images.map loadImageFromFile) / 8 = 4 ∧
      placeOf (regionStep (lastBits (images.map loadImageFromFile))) images face level % 2 ^ 32 =
      placeOf (currentSize (lastBits (images.map loadImageFromFile))) images face level % 2 ^ 32 := by
  obtain ⟨start, hstart'⟩ : ∃ start,
      start = placeOf (regionStep (lastBits (images.map loadImageFromFile))) images face level % 2 ^ 32 := ⟨_, rfl⟩
  have hmem := (@mem_regions_iff _ _ hload ⟨start, level, face, image.width / 3, image.height / 4⟩).mpr
    ⟨hface, image, himage, rfl, rfl, hstart'⟩
  obtain ⟨image', himage', hregion⟩ := hright _ hmem
  obtain rfl := Option.some.inj (himage.symm.trans himage')
  have hshows := hregion.pixels 0 hfaces.1 0 hfaces.2
  have htexel := hshows.texel
  obtain ⟨write, hwrite, hwface, hmip, hcovers⟩ := hregion.written
  obtain ⟨-, image', himage', hsize, hstart⟩ := (mem_written_iff hload).mp hwrite
  have hpos : 0 < image.width / 3 * (image.height / 4) * loaded.texel := by
    rw [htexel]
    exact Nat.mul_pos (Nat.mul_pos hfaces.1 hfaces.2) (by decide)
  have heq := start_eq_of_covers hcovers hpos
  rw [hstart, hwface, hmip] at heq
  rw [← hstart']
  exact ⟨hshows.hdr, texel_eq hload ▸ htexel, heq⟩

theorem fits_of_loadsCube (h : LoadsCube images) : Fits images := by
  obtain ⟨loaded, hload, hright, -, -⟩ := h
  have hplain : ∀ image ∈ images, HasFaces image → image.hdr = false ∧ ∀ last ∈ images.getLast?, last.hdr = false := by
    intro image hmem hfaces
    obtain ⟨level, himage⟩ := List.mem_iff_getElem?.mp hmem
    obtain ⟨hhdr, hbits, -⟩ := of_right hload hright himage hfaces (by decide : 0 < 6)
    refine ⟨hhdr, fun last hlast => ?_⟩
    rw [lastBits_eq, Option.mem_def.mp hlast, Option.map_some, Option.getD_some] at hbits
    cases hlasthdr : last.hdr with
    | false => rfl
    | true => rw [hlasthdr] at hbits; cases hbits
  refine ⟨hplain, fun level image himage hfaces => ?_, ?_⟩
  · have hmem := List.mem_of_getElem? himage
    have hbits := lastBits_of_last (hplain image hmem hfaces).2 hmem
    have hzero := (of_right hload hright himage hfaces (by decide : 0 < 6)).2.2
    have hone := (of_right hload hright himage hfaces (by decide : 1 < 6)).2.2
    rw [placeOf_currentSize hplain, hbits, placeOf_regionStep] at hzero hone
    omega
  · have hroom := (isSome_load_iff images).mp (by rw [hload]; rfl)
    rwa [total_currentSize hplain fun _ hmem => hmem] at hroom

/-! ## Regions that fit -/

theorem areas_append (images others : List Image) : areas (images ++ others) = areas images + areas others := by
  rw [areas, List.map_append, List.sum_append]
  rfl

/-- A face comes before those of the levels behind it. -/
theorem areas_take_add_le (himage : images[level]? = some image) {level' : Nat} (hlt : level < level') :
    areas (images.take level) + image.width / 3 * (image.height / 4) * 4 ≤ areas (images.take level') := by
  obtain ⟨rest, rfl⟩ := Nat.exists_eq_add_of_lt hlt
  have htake : images.take (level + rest + 1) = images.take level ++ [image] ++ (images.drop (level + 1)).take rest := by
    rw [Nat.add_right_comm, List.take_add, List.take_add_one, himage]
    rfl
  rw [htake, areas_append, areas_append]
  exact Nat.le_add_right _ _

theorem areas_take_le (images : List Image) (level : Nat) : areas (images.take level) ≤ areas images := by
  conv_rhs => rw [← List.take_append_drop level images]
  rw [areas_append]
  exact Nat.le_add_right _ _

/-- A region starts where its block does. -/
theorem offset_of_fits (h : Fits images) (himage : images[level]? = some image) (hfaces : HasFaces image)
    (hface : face < 6) :
    placeOf (regionStep (lastBits (images.map loadImageFromFile))) images face level % 2 ^ 32 =
        face * areas images + areas (images.take level) := by
  have hmem := List.mem_of_getElem? himage
  obtain ⟨hbefore, hall⟩ := h.square level image himage hfaces
  have hroom := h.room.trans_lt (Nat.mod_lt _ (Nat.two_pow_pos 32))
  have hle := areas_take_le images level
  rw [lastBits_of_last (h.plain image hmem hfaces).2 hmem, placeOf_regionStep]
  interval_cases face <;> omega

/-- The buffer has the bytes of a block where it starts. -/
theorem getElem?_staging {loaded : Loaded} (hload : load images = some loaded) (himage : images[level]? = some image)
    (hface : face < 6) {i : Nat}
    (hi : i < currentSize (lastBits (images.map loadImageFromFile)) (loadImageFromFile image)) :
    loaded.staging[placeOf (currentSize (lastBits (images.map loadImageFromFile))) images face level + i]? =
        (copied (lastBits (images.map loadImageFromFile)) (loadImageFromFile image) face)[i]? := by
  have hitem : (images.map loadImageFromFile).zipIdx[level]? = some (loadImageFromFile image, level) := by
    rw [List.getElem?_zipIdx, List.getElem?_map, himage]
    simp
  have hlevel : level ≤ (images.map loadImageFromFile).zipIdx.length := (List.getElem?_eq_some_iff.mp hitem).1.le
  have hblock : (blocks images)[face * (images.map loadImageFromFile).zipIdx.length + level]? =
      some (copied (lastBits (images.map loadImageFromFile)) (loadImageFromFile image) face) := by
    rw [blocks, List.getElem?_map, getElem?_turns hface hitem]
    rfl
  have hall := sum_take_zipIdx (currentSize (lastBits (images.map loadImageFromFile))) images images.length
  rw [List.take_length, List.take_of_length_le (by simp)] at hall
  have hsum : (((blocks images).map List.length).take (face * (images.map loadImageFromFile).zipIdx.length + level)).sum =
      placeOf (currentSize (lastBits (images.map loadImageFromFile))) images face level := by
    rw [map_length_blocks]
    refine (sum_take_turns (fun item : LoadedImage × Nat =>
      currentSize (lastBits (images.map loadImageFromFile)) item.1) hface hlevel).trans ?_
    rw [hall, sum_take_zipIdx]
    rfl
  have hlength : (copied (lastBits (images.map loadImageFromFile)) (loadImageFromFile image) face).length =
      currentSize (lastBits (images.map loadImageFromFile)) (loadImageFromFile image) := by simp [copied]
  have hget := getElem?_flatten hblock (hlength ▸ hi)
  rw [hsum] at hget
  rw [load_eq] at hload
  split at hload
  · obtain rfl := Option.some.inj hload
    rw [List.getElem?_append_left, hget]
    refine (List.getElem?_eq_some_iff.mp (hget.trans (List.getElem?_eq_getElem ?_))).1
    rwa [hlength]
  · cases hload

theorem hasFaces_of_pos {n : Nat} (h : 0 < image.width / 3 * (image.height / 4) * n) : HasFaces image := by
  by_contra hfaces
  rw [not_hasFaces hfaces, Nat.zero_mul] at h
  exact absurd h (lt_irrefl 0)

/-- The uploads are the faces that are copied. -/
theorem upload_eq {upload : Upload} (h : upload ∈ loadFromVCross images) (himage : images[upload.level]? = some image) :
    upload.width = image.width / 3 ∧ upload.height = image.height / 4 ∧
      upload.data = faceData (loadImageFromFile image) upload.face := by
  simp only [loadFromVCross, List.mem_flatMap] at h
  obtain ⟨⟨loaded, m⟩, hloaded, hface⟩ := h
  obtain ⟨⟨target, face⟩, hpair, rfl⟩ := List.mem_map.mp hface
  have hloaded' := List.mem_zipIdx_iff_getElem?.mp hloaded
  rw [List.getElem?_map, himage] at hloaded'
  obtain rfl := Option.some.inj hloaded'
  refine ⟨faceWidth_loadImageFromFile image, faceHeight_loadImageFromFile image, ?_⟩
  have horder : ∀ pair ∈ [(0, 3), (1, 1), (2, 0), (3, 4), (4, 2), (5, 5)], faceOrder.getD pair.1 0 = pair.2 := by decide
  rw [faceData, horder _ hpair]

theorem right_of_fits (h : Fits images) {loaded : Loaded} (hload : load images = some loaded) {region : BufferImageCopy}
    (hmem : region ∈ loaded.regions) :
    ∃ image, images[region.mipLevel]? = some image ∧ Right images loaded region image := by
  obtain ⟨hface, image, himage, hwidth, hheight, hstart⟩ := (mem_regions_iff hload).mp hmem
  have himages := List.mem_of_getElem? himage
  have hcurrent := currentSize_of_plain h.plain himages
  have hplace := placeOf_currentSize h.plain region.baseArrayLayer region.mipLevel
  -- a face with pixels is where its block is, and all of it
  have hfull : HasFaces image → loaded.texel = 4 ∧
      region.bufferOffset = region.baseArrayLayer * areas images + areas (images.take region.mipLevel) ∧
      ∀ i < image.width / 3 * (image.height / 4) * 4, loaded.staging[region.bufferOffset + i]? =
        (faceData (loadImageFromFile image) region.baseArrayLayer)[i]? := by
    intro hfaces
    obtain ⟨hhdr, hlast⟩ := h.plain image himages hfaces
    have hoffset := hstart.trans (offset_of_fits h himage hfaces hface)
    refine ⟨by rw [texel_eq hload, lastBits_of_last hlast himages], hoffset, fun i hi => ?_⟩
    have hget := getElem?_staging hload himage hface (hcurrent.symm ▸ hi)
    rw [hplace, ← hoffset, copied_eq_faceData hhdr hface hcurrent] at hget
    exact hget
  refine ⟨image, himage, ⟨hwidth, hheight⟩, ?_, ?_, ?_⟩
  · obtain ⟨start, hwstart⟩ : ∃ start, start = (region.baseArrayLayer * areas images +
        areas (images.take region.mipLevel)) % 2 ^ 32 := ⟨_, rfl⟩
    refine ⟨⟨start, image.width / 3 * (image.height / 4) * 4, region.baseArrayLayer, region.mipLevel⟩,
      (mem_written_iff hload).mpr ⟨hface, image, himage, hcurrent.symm, ?_⟩, rfl, rfl, fun i => ?_⟩
    · rw [hplace]
      exact hwstart
    · rw [BufferImageCopy.Covers, Write.Covers, hwidth, hheight]
      by_cases hfaces : HasFaces image
      · obtain ⟨htexel, hoffset, -⟩ := hfull hfaces
        have hsame : region.bufferOffset = start := by
          rw [hwstart, ← hoffset, hstart, Nat.mod_mod]
        rw [htexel, hsame]
      · simp only [not_hasFaces hfaces, Nat.zero_mul, Nat.add_zero]
        omega
  · rw [hwidth, hheight]
    intro x hx y hy
    have hfaces : HasFaces image := ⟨Nat.zero_lt_of_lt hx, Nat.zero_lt_of_lt hy⟩
    obtain ⟨htexel, -, hbytes⟩ := hfull hfaces
    have hhdr := (h.plain image himages hfaces).1
    refine ⟨hhdr, htexel, fun k hk => ?_⟩
    rw [htexel, Nat.add_assoc, hbytes _ (pixel_lt hx hy hk), getElem?_faceData hhdr hface hx hy hk]
  · intro upload hupload hlayer hlevel
    obtain ⟨huwidth, huheight, hdata⟩ := upload_eq hupload (hlevel ▸ himage)
    refine ⟨huwidth.trans hwidth.symm, huheight.trans hheight.symm, fun i hi => ?_⟩
    rw [hwidth, hheight] at hi
    obtain ⟨htexel, -, hbytes⟩ := hfull (hasFaces_of_pos (Nat.zero_lt_of_lt hi))
    rw [hdata, hlayer, hbytes i (htexel ▸ hi)]

/-- A region with pixels is between the starts of its level and the next one. -/
theorem covers_of_fits (h : Fits images) {loaded : Loaded} (hload : load images = some loaded) {region : BufferImageCopy}
    (hmem : region ∈ loaded.regions) {i : Nat} (hi : region.Covers loaded.texel i) :
    region.baseArrayLayer < 6 ∧ region.baseArrayLayer * areas images + areas (images.take region.mipLevel) ≤ i ∧
      ∀ level, region.mipLevel < level → i < region.baseArrayLayer * areas images + areas (images.take level) := by
  obtain ⟨hface, image, himage, hwidth, hheight, hstart⟩ := (mem_regions_iff hload).mp hmem
  obtain ⟨hlow, hhigh⟩ := hi
  rw [hwidth, hheight] at hhigh
  have hfaces : HasFaces image := hasFaces_of_pos (n := loaded.texel) (by omega)
  have htexel : loaded.texel = 4 := by
    have himages := List.mem_of_getElem? himage
    rw [texel_eq hload, lastBits_of_last (h.plain image himages hfaces).2 himages]
  rw [offset_of_fits h himage hfaces hface] at hstart
  rw [htexel] at hhigh
  refine ⟨hface, hstart ▸ hlow, fun level hlevel => ?_⟩
  have hnext := areas_take_add_le himage hlevel
  omega

theorem length_staging {loaded : Loaded} (hload : load images = some loaded) :
    6 * total (currentSize (lastBits (images.map loadImageFromFile))) images ≤ loaded.staging.length := by
  rw [load_eq] at hload
  split at hload
  · obtain rfl := Option.some.inj hload
    rw [List.length_append, length_flatten_blocks]
    exact Nat.le_add_right _ _
  · cases hload

theorem loadsCube_of_fits (h : Fits images) : LoadsCube images := by
  have hwhole := total_currentSize h.plain fun _ hmem => hmem
  obtain ⟨loaded, hload⟩ := Option.isSome_iff_exists.mp ((isSome_load_iff images).mpr (hwhole ▸ h.room))
  have hbelow : ∀ {face next level i : Nat}, i < face * areas images + areas (images.take level) → face < next →
      i < next * areas images := by
    intro face next level i hi hlt
    have hlayers := Nat.mul_le_mul_right (areas images) hlt
    have hlevel := areas_take_le images level
    rw [Nat.succ_mul] at hlayers
    omega
  refine ⟨loaded, hload, fun region hmem => right_of_fits h hload hmem, fun region hmem other hother hne i hi hi' => ?_,
    fun region hmem i hi => ?_⟩
  · obtain ⟨-, hlow, hhigh⟩ := covers_of_fits h hload hmem hi
    obtain ⟨-, hlow', hhigh'⟩ := covers_of_fits h hload hother hi'
    -- one of them is behind the other, by a layer or within it
    rcases lt_trichotomy region.baseArrayLayer other.baseArrayLayer with hlt | heq | hgt
    · have hend := hbelow (hhigh _ (Nat.lt_succ_self _)) hlt
      omega
    · rw [heq] at hlow hhigh
      rcases lt_trichotomy region.mipLevel other.mipLevel with hlt | hlevel | hgt
      · have hend := hhigh _ hlt
        omega
      · exact hne.elim (fun hne => hne heq) fun hne => hne hlevel
      · have hend := hhigh' _ hgt
        omega
    · have hend := hbelow (hhigh' _ (Nat.lt_succ_self _)) hgt
      omega
  · obtain ⟨hface, -, hhigh⟩ := covers_of_fits h hload hmem hi
    exact (hbelow (hhigh _ (Nat.lt_succ_self _)) hface).trans_le (hwhole ▸ length_staging hload)

/-- An image of three by eight pixels, whose faces are twice as high as wide. -/
def tallFaces : Image where
  width := 3
  height := 8
  channels := 4
  hdr := false
  pixels := List.replicate 96 0
  channels_pos := by decide
  length := by decide
  small := by decide

end Lumos.Graphics.VKTextureCube
