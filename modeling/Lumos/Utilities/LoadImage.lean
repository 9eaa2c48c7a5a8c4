import Mathlib.Tactic.Linarith

/-!
# Loading images

The bits of a pixel are computed in one place and the bytes that are copied in another, and
the loaders of textures compute what they read from the bits.
-/
namespace Lumos.LoadImage

/-- What is decoded of an image file: four bytes for each pixel, or the floats of its channels. -/
structure Image where
  width : Nat
  height : Nat
  channels : Nat
  hdr : Bool
  pixels : List UInt8
  channels_pos : 0 < channels
  length : pixels.length = width * height * if hdr then 4 * channels else 4
  /-- A larger image is refused. -/
  small : width * height * 4 < 2 ^ 31

/-- What `LoadImageFromFile` returns and reports. -/
structure LoadedImage where
  data : List UInt8
  width : Nat
  height : Nat
  bits : Nat
  isHDR : Bool

/-! ## The code -/

def loadImageFromFile (image : Image) : LoadedImage :=
  let sizeOfChannel := if image.hdr then 16 else 8
  let texChannels := if image.channels ≠ 4 then 4 else image.channels
  let size := image.width * image.height * texChannels
  { data := image.pixels.take size
    width := image.width
    height := image.height
    bits := texChannels * sizeOfChannel
    isHDR := image.hdr }

/-- The bytes that `VKTexture2D::Load` copies. -/
def vkTexture2DImageSize (image : LoadedImage) : Nat := image.width * image.height * image.bits % 2 ^ 32 / 8

/-- The cells of the cross that are faces, with their column and row, in the order of the loops. -/
def crossFaces : List (Nat × Nat) :=
  (List.range 4).flatMap fun cy => ((List.range 3).filter fun cx =>
    ¬((cy = 0 ∨ cy = 2 ∨ cy = 3) ∧ cx ≠ 1)).map fun cx => (cx, cy)

/-- The sixth face is turned round. -/
def crossOffset (face size i : Nat) : Nat := if face = 5 then size - (i + 1) else i

/-- The bytes of a pixel that are copied. -/
def pixelBytes (stride : Nat) : List Nat := if 4 ≤ stride then [0, 1, 2, 3] else [0, 1, 2]

/-- Where the faces of a cross are read from, with indices of 32 bits. -/
def crossReads (image : LoadedImage) : List Nat :=
  let stride := image.bits / 8
  let faceWidth := image.width / 3
  let faceHeight := image.height / 4
  crossFaces.zipIdx.flatMap fun ((cx, cy), face) =>
    (List.range faceHeight).flatMap fun y =>
      let yp := cy * faceHeight + crossOffset face faceHeight y
      (List.range faceWidth).flatMap fun x =>
        let xp := cx * faceWidth + crossOffset face faceWidth x
        (pixelBytes stride).map fun k => ((xp + yp * image.width) * stride + k) % 2 ^ 32

/-- The reads of `VKTextureCube::Load` from one of its files. -/
def vkTextureCubeReads (image : LoadedImage) : List Nat := crossReads image

/-- The reads of `GLTextureCube::LoadFromVCross` from one of its files. -/
def glTextureCubeReads (image : LoadedImage) : List Nat := crossReads image

/-! ## What is asked of them -/

/-- The buffer is what the bits say and has all pixels, and no loader reads beyond it. -/
structure Describes (image : Image) : Prop where
  size : (loadImageFromFile image).data.length =
    (loadImageFromFile image).width * (loadImageFromFile image).height * (loadImageFromFile image).bits / 8
  pixels : (loadImageFromFile image).data = image.pixels
  texture2D : vkTexture2DImageSize (loadImageFromFile image) ≤ (loadImageFromFile image).data.length
  textureCube : ∀ i ∈ vkTextureCubeReads (loadImageFromFile image), i < (loadImageFromFile image).data.length
  vCross : ∀ i ∈ glTextureCubeReads (loadImageFromFile image), i < (loadImageFromFile image).data.length

variable {image : Image} {loaded : LoadedImage} {face size i x y cx cy : Nat}

/-! ## The reads of a cross -/

variable (face) in
theorem crossOffset_lt (h : i < size) : crossOffset face size i < size := by
  unfold crossOffset
  split <;> omega

theorem cell_of_mem_crossFaces (h : (cx, cy) ∈ crossFaces) : cx < 3 ∧ cy < 4 := by
  have hall : ∀ cell ∈ crossFaces, cell.1 < 3 ∧ cell.2 < 4 := by decide
  exact hall (cx, cy) h

/-- A pixel of a cell is one of the image. -/
theorem cell_lt {cell cells length offset : Nat} (hcell : cell < cells) (hoffset : offset < length / cells) :
    cell * (length / cells) + offset < length := by
  have hnext : (cell + 1) * (length / cells) ≤ cells * (length / cells) := Nat.mul_le_mul_right _ hcell
  have hall : cells * (length / cells) ≤ length := Nat.mul_div_le length cells
  rw [Nat.succ_mul] at hnext
  omega

theorem pixel_lt {width height stride k : Nat} (hx : x < width) (hy : y < height) (hk : k < stride) :
    (x + y * width) * stride + k < width * height * stride := by
  have hpixel : x + y * width + 1 ≤ width * height := by
    have hrow : (y + 1) * width ≤ height * width := Nat.mul_le_mul_right _ hy
    rw [Nat.succ_mul, Nat.mul_comm height] at hrow
    omega
  have hbytes := Nat.mul_le_mul_right stride hpixel
  rw [Nat.succ_mul] at hbytes
  omega

/-- A buffer with all bytes of all pixels is not left. -/
theorem crossReads_lt (hstride : 4 ≤ loaded.bits / 8)
    (hlength : loaded.width * loaded.height * (loaded.bits / 8) ≤ loaded.data.length) :
    ∀ i ∈ crossReads loaded, i < loaded.data.length := by
  intro i hi
  simp only [crossReads, List.mem_flatMap, List.mem_map, List.mem_range, Prod.exists] at hi
  obtain ⟨cx, cy, face, hcell, y, hy, x, hx, k, hk, rfl⟩ := hi
  obtain ⟨hcx, hcy⟩ := cell_of_mem_crossFaces (List.fst_mem_of_mem_zipIdx hcell)
  have hk : k < loaded.bits / 8 := by
    rw [pixelBytes, if_pos hstride] at hk
    have hsmall : ∀ k ∈ [0, 1, 2, 3], k < 4 := by decide
    exact Nat.lt_of_lt_of_le (hsmall k hk) hstride
  have hpixel := pixel_lt (cell_lt hcx (crossOffset_lt face hx)) (cell_lt hcy (crossOffset_lt face hy)) hk
  exact Nat.lt_of_le_of_lt (Nat.mod_le _ _) (Nat.lt_of_lt_of_le hpixel hlength)

/-! ## Which images are described -/

theorem loadImageFromFile_eq (image : Image) : loadImageFromFile image =
    ⟨image.pixels.take (image.width * image.height * 4), image.width, image.height,
      4 * if image.hdr then 16 else 8, image.hdr⟩ := by
  have hchannels : (if image.channels ≠ 4 then 4 else image.channels) = 4 := by
    split
    · rfl
    · next h => exact not_not.mp h
  simp only [loadImageFromFile, hchannels]

theorem length_data (image : Image) : (loadImageFromFile image).data.length = image.width * image.height * 4 := by
  rw [loadImageFromFile_eq, List.length_take, image.length]
  apply Nat.min_eq_left
  apply Nat.mul_le_mul_left
  have hpos := image.channels_pos
  split <;> omega

/-- An image is described unless it is of floats, and not empty. -/
theorem describes_iff (image : Image) : Describes image ↔ image.hdr = false ∨ image.width * image.height = 0 := by
  constructor
  · intro h
    have hsize := h.size
    rw [length_data, loadImageFromFile_eq] at hsize
    cases hhdr : image.hdr with
    | false => exact .inl rfl
    | true =>
      simp only [hhdr, if_true] at hsize
      exact .inr (by omega)
  · intro h
    have hdata := length_data image
    have hsize : image.width * image.height * (loadImageFromFile image).bits = image.width * image.height * 32 := by
      rw [loadImageFromFile_eq]
      obtain hldr | hempty := h
      · rw [hldr]
        rfl
      · rw [hempty, Nat.zero_mul, Nat.zero_mul]
    have hpixels : image.pixels.length = image.width * image.height * 4 := by
      rw [image.length]
      obtain hldr | hempty := h
      · rw [hldr]
        rfl
      · rw [hempty, Nat.zero_mul, Nat.zero_mul]
    have hstride : 4 ≤ (loadImageFromFile image).bits / 8 := by
      rw [loadImageFromFile_eq]
      cases image.hdr
      · exact (by decide : 4 ≤ 32 / 8)
      · exact (by decide : 4 ≤ 64 / 8)
    have hbuffer : (loadImageFromFile image).width * (loadImageFromFile image).height *
        (loadImageFromFile image).bits = (loadImageFromFile image).data.length * 8 := by
      rw [hdata, Nat.mul_assoc _ 4 8]
      exact hsize
    have hstrides : (loadImageFromFile image).width * (loadImageFromFile image).height *
        ((loadImageFromFile image).bits / 8) ≤ (loadImageFromFile image).data.length := by
      have hdiv := Nat.mul_div_le_mul_div_assoc ((loadImageFromFile image).width * (loadImageFromFile image).height)
        (loadImageFromFile image).bits 8
      rwa [hbuffer, Nat.mul_div_cancel _ (by decide)] at hdiv
    constructor
    · rw [hbuffer, Nat.mul_div_cancel _ (by decide)]
    · rw [loadImageFromFile_eq]
      exact List.take_of_length_le hpixels.le
    · rw [vkTexture2DImageSize, hbuffer]
      have hle := Nat.div_le_div_right (c := 8) (Nat.mod_le ((loadImageFromFile image).data.length * 8) (2 ^ 32))
      rwa [Nat.mul_div_cancel _ (by decide)] at hle
    · exact crossReads_lt hstride hstrides
    · exact crossReads_lt hstride hstrides

/-- One pixel of three floats. -/
def floatPixel : Image where
  width := 1
  height := 1
  channels := 3
  hdr := true
  pixels := List.replicate 12 0
  channels_pos := by decide
  length := by decide
  small := by decide

theorem floatPixel_not_described : ¬Describes floatPixel := by
  intro h
  exact absurd h.texture2D (by decide)

end Lumos.LoadImage
