import Mathlib
import Lumos.Library.FreeLists

/-!
# `BinAllocator`

The memory behind the allocator is cut into chunks, and a chunk into blocks of one size. The
bin of that size is written at the start of the chunk, and the free blocks of a bin are linked
through their own first bytes.
-/
namespace Lumos.Core

open FreeLists

/-- `MEMORY_SIZE` -/
def memorySize : Nat := 10 * 1024 * 1024

/-- `BIN_SIZE` -/
def binSize : Nat := 1024

/-- `NUM_BINS` -/
def numBins : Nat := 128

/-- `BIN_SIZE_INC` -/
def binSizeInc : Nat := 16

/-- `sizeof(BinAllocator)`, with eight bytes for the table of functions and eight for `m_Max`. -/
def allocatorSize : Nat := 8 + 8 + 8 * numBins

/-- `sizeof(int)` -/
def headerSize : Nat := 4

/-- The memory that `operator new` gets for an allocator. -/
structure Arena where
  /-- `this` -/
  start : Nat
  fits : start + memorySize ≤ 2 ^ 64

structure BinAllocator where
  /-- `m_Max` -/
  max : Nat
  /-- `m_Bins`, where zero is the null pointer. -/
  bins : Fin numBins → Nat
  memory : Memory

/-- A value that is converted to `int`. -/
def toInt (n : Int) : Int := n.bmod (2 ^ 32)

/-- An index of `m_Bins`, if it is one. -/
def binIndex (bin : Int) : Option (Fin numBins) :=
  if h : 0 ≤ bin ∧ bin.toNat < numBins then some ⟨bin.toNat, h.2⟩ else none

/-- `BinForSize`. The subtraction wraps around at zero. -/
def binForSize (size : Nat) : Int := toInt (((size + 2 ^ 64 - 1) % 2 ^ 64 / binSizeInc : Nat) : Int)

/-- `SizeForBin` -/
def sizeForBin (bin : Int) : Nat := ((bin + 1) * binSizeInc).toNat

namespace Arena

variable (arena : Arena)

/-- `Chunk` -/
def chunk (num : Int) : Nat := (num * binSize + allocatorSize + arena.start).toNat

/-- `ChunkIndex` -/
def chunkIndex (loc : Nat) : Int := (toInt ((loc : Int) - allocatorSize - arena.start)).tdiv binSize

end Arena

namespace BinAllocator

variable (arena : Arena) (s : BinAllocator)

def create (memory : Memory) : BinAllocator := ⟨0, fun _ => 0, memory⟩

/-- `BinForLocation` -/
def binForLocation (location : Nat) : Int :=
  toInt (load s.memory (arena.chunk (arena.chunkIndex location)) headerSize)

/-- `Free`. It fails if the bin is out of range. -/
def free (location : Nat) : Option BinAllocator := do
  let bin ← binIndex (s.binForLocation arena location)
  return { s with
    bins := Function.update s.bins bin location
    memory := store s.memory location linkSize (s.bins bin) }

/-- The loop of `MakeChunk`. It is entered with blocks of a positive size only. -/
def carve (actualSize limit : Nat) (s : BinAllocator) (chunkPtr : Nat) : Option BinAllocator :=
  if 0 < actualSize ∧ chunkPtr + actualSize ≤ limit then do
    let s ← s.free arena chunkPtr
    carve actualSize limit s (chunkPtr + actualSize)
  else some s
termination_by limit - chunkPtr
decreasing_by omega

/-- There is room for two more chunks, which is what `MakeChunk` asks for. -/
def hasRoom : Prop := (s.max + 2) * binSize + allocatorSize ≤ memorySize

instance : Decidable s.hasRoom := inferInstanceAs (Decidable (_ ≤ _))

/-- `MakeChunk` -/
def makeChunk (size : Nat) : Option BinAllocator :=
  if s.hasRoom then
    let bin := binForSize size
    let actualSize := sizeForBin bin
    let chunkPtr := arena.chunk s.max
    let s := { s with
      max := s.max + 1
      memory := store s.memory chunkPtr headerSize (bin % 2 ^ 32).toNat }
    carve arena actualSize (arena.chunk s.max) s (chunkPtr + actualSize)
  else some s

/-- `Malloc`. It fails if the bin is out of range. -/
def malloc (size : Nat) : Option (Nat × BinAllocator) := do
  let bin ← binIndex (binForSize size)
  let s ← if s.bins bin = 0 then s.makeChunk arena size else some s
  if s.bins bin = 0 then return (0, s)
  let result := s.bins bin
  return (result, { s with bins := Function.update s.bins bin (load s.memory result linkSize) })

end BinAllocator

/-! ## Sizes and chunks -/

variable {arena : Arena} {bin : Fin numBins} {size i : Nat}

theorem toInt_natCast {n : Nat} (h : n < 2 ^ 31) : toInt n = n := by
  rw [toInt, Int.bmod_eq_of_le] <;> omega

@[simp] theorem binIndex_val (bin : Fin numBins) : binIndex bin.val = some bin := by
  simp [binIndex, bin.isLt]

theorem binIndex_eq_some {n : Int} : binIndex n = some bin ↔ n = bin.val := by
  constructor
  · intro h
    rw [binIndex] at h
    split at h
    · next hlt =>
      cases h
      exact (Int.toNat_of_nonneg hlt.1).symm
    · cases h
  · rintro rfl
    exact binIndex_val bin

/-- The size of the blocks of a bin. -/
def blockSize (bin : Fin numBins) : Nat := (bin.val + 1) * binSizeInc

@[simp] theorem sizeForBin_val (bin : Fin numBins) : sizeForBin bin.val = blockSize bin := by
  rw [sizeForBin, blockSize, ← Nat.cast_succ, ← Nat.cast_mul, Int.toNat_natCast]

theorem blockSize_pos (bin : Fin numBins) : binSizeInc ≤ blockSize bin := Nat.le_mul_of_pos_left _ (Nat.succ_pos _)

theorem binForSize_of_le (hpos : 1 ≤ size) (hle : size ≤ 2048) : binForSize size = ((size - 1) / 16 : Nat) := by
  have hwrap : (size + 2 ^ 64 - 1) % 2 ^ 64 = size - 1 := by omega
  rw [binForSize, hwrap]
  exact toInt_natCast (by simp only [binSizeInc]; omega)

theorem le_blockSize (hpos : 1 ≤ size) (hle : size ≤ 2048) (hbin : binForSize size = bin.val) :
    size ≤ blockSize bin := by
  rw [binForSize_of_le hpos hle] at hbin
  have hval : (size - 1) / 16 = bin.val := by exact_mod_cast hbin
  simp only [blockSize, binSizeInc]
  omega

@[simp] theorem chunk_natCast (arena : Arena) (i : Nat) :
    arena.chunk i = i * binSize + allocatorSize + arena.start := by
  rw [Arena.chunk]
  norm_cast

namespace BinAllocator

variable {s s' : BinAllocator} {p q : Nat}

/-- What is at the start of a chunk. -/
def header (arena : Arena) (s : BinAllocator) (i : Nat) : Nat := load s.memory (arena.chunk i) headerSize

/-- All chunks are in the arena, and there is room for one more. -/
def InRange (s : BinAllocator) : Prop := (s.max + 1) * binSize + allocatorSize ≤ memorySize

/-- A block of a chunk of some bin. The first one has no place, for the header is there. -/
structure BlockAt (arena : Arena) (s : BinAllocator) (bin : Fin numBins) (p i j : Nat) : Prop where
  chunk_lt : i < s.max
  header : s.header arena i = bin.val
  pos : 0 < j
  le : (j + 1) * blockSize bin ≤ binSize
  eq : p = arena.chunk i + j * blockSize bin

def IsBlock (arena : Arena) (s : BinAllocator) (bin : Fin numBins) (p : Nat) : Prop :=
  ∃ i j, s.BlockAt arena bin p i j

section Blocks

variable {bin' : Fin numBins} {i' j j' : Nat} (hp : s.BlockAt arena bin p i j)

include hp in
theorem BlockAt.bounds : arena.chunk i + binSizeInc ≤ p ∧ p + blockSize bin ≤ arena.chunk i + binSize := by
  have hle := hp.le
  have hj : blockSize bin ≤ j * blockSize bin := Nat.le_mul_of_pos_left _ hp.pos
  have hpos := blockSize_pos bin
  rw [Nat.succ_mul] at hle
  rw [hp.eq]
  omega

theorem chunk_add_le (arena : Arena) (h : i < i') : arena.chunk i + binSize ≤ arena.chunk i' := by
  have hle : (i + 1) * binSize ≤ i' * binSize := Nat.mul_le_mul_right _ h
  rw [Nat.succ_mul] at hle
  rw [chunk_natCast, chunk_natCast]
  omega

include hp in
/-- A block is apart from the start of every chunk, also of those that come later. -/
theorem BlockAt.apart_header (i' : Nat) : Apart p (blockSize bin) (arena.chunk i') headerSize := by
  have hbounds := hp.bounds
  simp only [binSizeInc, binSize] at hbounds
  rcases Nat.lt_trichotomy i i' with hlt | rfl | hlt
  · have hchunk := chunk_add_le arena hlt
    exact Or.inl (hbounds.2.trans hchunk)
  · refine Or.inr ?_
    simp only [headerSize]
    omega
  · have hchunk := chunk_add_le arena hlt
    refine Or.inr ?_
    simp only [binSize, headerSize] at hchunk ⊢
    omega

include hp in
/-- Two blocks are one and the same or have no byte in common. -/
theorem BlockAt.apart (hq : s.BlockAt arena bin' q i' j') (hne : p ≠ q) :
    Apart p (blockSize bin) q (blockSize bin') := by
  have hpbounds := hp.bounds
  have hqbounds := hq.bounds
  rcases Nat.lt_trichotomy i i' with hlt | rfl | hlt
  · have hchunk := chunk_add_le arena hlt
    exact Or.inl (by omega)
  · have hbin : bin = bin' := Fin.val_injective (hp.header.symm.trans hq.header)
    subst hbin
    have hpeq := hp.eq
    have hqeq := hq.eq
    rcases Nat.lt_trichotomy j j' with hj | rfl | hj
    · have hmul : (j + 1) * blockSize bin ≤ j' * blockSize bin := Nat.mul_le_mul_right _ hj
      rw [Nat.succ_mul] at hmul
      exact Or.inl (by omega)
    · exact absurd (hpeq.trans hqeq.symm) hne
    · have hmul : (j' + 1) * blockSize bin ≤ j * blockSize bin := Nat.mul_le_mul_right _ hj
      rw [Nat.succ_mul] at hmul
      exact Or.inr (by omega)
  · have hchunk := chunk_add_le arena hlt
    exact Or.inr (by omega)

variable (hs : s.InRange)
include hp hs

theorem BlockAt.inside : arena.start + allocatorSize ≤ p ∧ p + blockSize bin ≤ arena.start + memorySize := by
  have hbounds := hp.bounds
  have hchunk := chunk_add_le arena hp.chunk_lt
  rw [InRange, Nat.succ_mul] at hs
  simp only [chunk_natCast] at hbounds hchunk
  omega

/-- The number of its chunk is recovered. -/
theorem BlockAt.chunkIndex_eq : arena.chunkIndex p = i := by
  have hbounds := hp.bounds
  have hinside := hp.inside hs
  have hlt := hp.chunk_lt
  rw [chunk_natCast] at hbounds
  obtain ⟨offset, hoffset⟩ : ∃ offset, p = i * binSize + offset + allocatorSize + arena.start :=
    ⟨p - (i * binSize + allocatorSize + arena.start), by omega⟩
  have hsmall : offset < binSize := by
    have hpos := blockSize_pos bin
    simp only [binSizeInc] at hpos
    omega
  have hsub : (p : Int) - allocatorSize - arena.start = ((i * binSize + offset : Nat) : Int) := by
    rw [hoffset]
    push_cast
    ring
  have hrange : i * binSize + offset < 2 ^ 31 := by
    simp only [memorySize] at hinside
    omega
  have hdiv : (i * binSize + offset) / binSize = i := by
    rw [Nat.mul_comm, Nat.mul_add_div (by decide), Nat.div_eq_of_lt hsmall, Nat.add_zero]
  rw [Arena.chunkIndex, hsub, toInt_natCast hrange, Int.tdiv_eq_ediv_of_nonneg (Int.natCast_nonneg _),
    ← Int.natCast_ediv, hdiv]

theorem BlockAt.binForLocation_eq : s.binForLocation arena p = bin.val := by
  have hload : load s.memory (arena.chunk i) headerSize = bin.val := hp.header
  have hbin := bin.isLt
  simp only [numBins] at hbin
  have hsmall : bin.val < 2 ^ 31 := by omega
  rw [binForLocation, hp.chunkIndex_eq hs, hload]
  exact toInt_natCast hsmall

end Blocks

end BinAllocator

end Lumos.Core
