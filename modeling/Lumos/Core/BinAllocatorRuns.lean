import Lumos.Core.BinAllocatorBlocks
import Lumos.Library.Runs

/-!
# Programs over a `BinAllocator`

A program asks for blocks, gives them back and writes into those it has.
-/
namespace Lumos.Core

open FreeLists Runs

namespace BinAllocator

variable {arena : Arena} {s s' : BinAllocator} {bin : Fin numBins} {size p : Nat} {live live' : List Live}
  {free : Fin numBins → List Nat}

/-! ## `Malloc` -/

/-- There is a free block, or a chunk can be made and has blocks. -/
def Provides (s : BinAllocator) (bin : Fin numBins) : Prop :=
  s.bins bin ≠ 0 ∨ s.hasRoom ∧ 2 * blockSize bin ≤ binSize

theorem malloc_eq (hbin : binForSize size = bin.val) : s.malloc arena size =
    (if s.bins bin = 0 then s.makeChunk arena size else some s).bind fun s =>
      some (if s.bins bin = 0 then (0, s) else (s.bins bin, s.popped bin)) := by
  rw [malloc, hbin, binIndex_val]
  have hfinish : ∀ s : BinAllocator, (if s.bins bin = 0 then some (0, s) else some (s.bins bin, s.popped bin)) =
      some (if s.bins bin = 0 then (0, s) else (s.bins bin, s.popped bin)) := fun s => (apply_ite some _ _ _).symm
  by_cases hzero : s.bins bin = 0
  · rw [if_pos hzero]
    simp only [← hfinish]
    exact if_pos hzero
  · rw [if_neg hzero, Option.bind_some, ← hfinish]
    exact if_neg hzero

theorem Partitioned.malloc_of_provides (h : Partitioned arena s live free) (hbin : binForSize size = bin.val)
    (hprovides : s.Provides bin) :
    ∃ result s' free', s.malloc arena size = some (result, s') ∧ result ≠ 0 ∧
      Partitioned arena s' (live ++ [⟨result, size⟩]) free' := by
  obtain ⟨s₁, free₁, hchunk, hpartitioned, hne⟩ : ∃ s₁ free₁,
      (if s.bins bin = 0 then s.makeChunk arena size else some s) = some s₁ ∧
        Partitioned arena s₁ live free₁ ∧ s₁.bins bin ≠ 0 := by
    by_cases hzero : s.bins bin = 0
    · obtain ⟨hroom, htwo⟩ := hprovides.resolve_left (not_not.mpr hzero)
      obtain ⟨s₁, free₁, hmake, hpartitioned, -, hbins⟩ := h.makeChunk hbin hroom
      exact ⟨s₁, free₁, (if_pos hzero).trans hmake, hpartitioned, hbins htwo⟩
    · exact ⟨s, free, if_neg hzero, h, hzero⟩
  obtain ⟨free', hpopped⟩ := hpartitioned.popped hbin hne
  refine ⟨s₁.bins bin, s₁.popped bin, free', ?_, hne, hpopped⟩
  rw [malloc_eq hbin, hchunk, Option.bind_some, if_neg hne]

/-- Where there is no block to be had, a chunk is used up if there is room. -/
theorem malloc_of_not_provides (hbin : binForSize size = bin.val) (hnot : ¬ s.Provides bin) :
    s.malloc arena size = some (0, if s.hasRoom then s.opened arena bin else s) := by
  obtain ⟨hzero, hnone⟩ := not_or.mp hnot
  have hzero := not_not.mp hzero
  rw [malloc_eq hbin, if_pos hzero]
  by_cases hroom : s.hasRoom
  · have hlarge : binSize < 2 * blockSize bin := not_le.mp fun htwo => hnone ⟨hroom, htwo⟩
    have hopened : (s.opened arena bin).bins bin = 0 := hzero
    rw [makeChunk_of_large hbin hroom hlarge, if_pos hroom, Option.bind_some, if_pos hopened]
  · rw [makeChunk, if_neg hroom, if_neg hroom, Option.bind_some, if_pos hzero]

/-- What was live stays so, and a block that is returned is live. -/
theorem Partitioned.malloc (h : Partitioned arena s live free) (hbin : binForSize size = bin.val) :
    ∃ result s' free', s.malloc arena size = some (result, s') ∧
      Partitioned arena s' (if result = 0 then live else live ++ [⟨result, size⟩]) free' := by
  by_cases hprovides : s.Provides bin
  · obtain ⟨result, s', free', hmalloc, hne, hpartitioned⟩ := h.malloc_of_provides hbin hprovides
    refine ⟨result, s', free', hmalloc, ?_⟩
    rw [if_neg hne]
    exact hpartitioned
  · refine ⟨0, _, free, malloc_of_not_provides hbin hprovides, ?_⟩
    rw [if_pos rfl]
    split_ifs with hroom
    · exact (h.opened hroom bin).1
    · exact h

/-! ## `Free` and writes -/

theorem Partitioned.sublist (h : Partitioned arena s live free) (hsub : live'.Sublist live) :
    Partitioned arena s live' free :=
  { h with
    live_block := fun b hb => h.live_block b (hsub.subset hb)
    live_nodup := h.live_nodup.sublist (hsub.map _)
    not_live := fun bin p hp hmem => h.not_live bin p hp ((hsub.map _).subset hmem) }

/-- The live blocks but one. -/
def released (live : List Live) (location : Nat) : List Live := live.filter fun b => b.address ≠ location

theorem Partitioned.free_live (h : Partitioned arena s live free) (hp : p ∈ live.map Live.address) :
    ∃ s' free', s.free arena p = some s' ∧ Partitioned arena s' (released live p) free' := by
  obtain ⟨b, hb, rfl⟩ := List.mem_map.mp hp
  obtain ⟨bin, -, hblock⟩ := h.live_block b hb
  have hfree : b.address ∉ free bin := fun hmem => h.not_live bin _ hmem hp
  have hreleased : b.address ∉ (released live b.address).map Live.address := by
    intro hmem
    obtain ⟨b', hb', heq⟩ := List.mem_map.mp hmem
    exact of_decide_eq_true (List.mem_filter.mp hb').2 heq
  exact ⟨_, _, free_eq h.inRange hblock, (h.sublist List.filter_sublist).pushed hblock hfree hreleased⟩

/-- How many bytes belong to a block. -/
def extent (arena : Arena) (s : BinAllocator) (p : Nat) : Nat := sizeForBin (s.binForLocation arena p)

theorem IsBlock.extent_eq (hp : s.IsBlock arena bin p) (hs : s.InRange) : s.extent arena p = blockSize bin := by
  rw [extent, hp.binForLocation_eq hs, sizeForBin_val]

/-- Only bytes of live blocks are different. -/
def WritesLive (arena : Arena) (s : BinAllocator) (live : List Live) (memory : Memory) : Prop :=
  ∀ a, (∀ b ∈ live, Apart a 1 b.address (s.extent arena b.address)) → memory a = s.memory a

theorem WritesLive.load_eq {memory : Memory} (hwrites : WritesLive arena s live memory) {k : Nat}
    (hapart : ∀ b ∈ live, Apart b.address (s.extent arena b.address) p k) : load memory p k = load s.memory p k := by
  apply load_congr
  intro i hi
  apply hwrites
  intro b hb
  rcases hapart b hb with hle | hle
  · exact Or.inr (by omega)
  · exact Or.inl (by omega)

theorem Partitioned.write {memory : Memory} (h : Partitioned arena s live free)
    (hwrites : WritesLive arena s live memory) : Partitioned arena { s with memory } live free := by
  apply h.congr (show InRange { s with memory } from h.inRange) le_rfl rfl
  · intro i _
    apply hwrites.load_eq
    intro b hb
    obtain ⟨bin, -, hblock⟩ := h.live_block b hb
    rw [hblock.extent_eq h.inRange]
    exact hblock.apart_header i
  · intro bin' q hq
    apply hwrites.load_eq
    intro b hb
    obtain ⟨bin, -, hblock⟩ := h.live_block b hb
    rw [hblock.extent_eq h.inRange]
    have hne : b.address ≠ q := by
      rintro rfl
      exact h.not_live bin' _ hq (List.mem_map_of_mem hb)
    exact (hblock.apart (h.free_block bin' q hq) hne).mono le_rfl (linkSize_le bin')

end BinAllocator

/-! ## Programs -/

structure Program where
  allocator : BinAllocator
  live : List Live

inductive Request where
  | malloc (size : Nat)
  | free (location : Nat)
  /-- Writes of the program itself. -/
  | write (memory : Memory)

namespace Program

open BinAllocator

variable (arena : Arena)

def start (memory : Memory) : Program := ⟨create memory, []⟩

/-- Sizes are some that can be asked for, and only live blocks are freed and written to. -/
def inScope (sizes : Nat → Prop) (program : Program) : Request → Prop
  | .malloc size => sizes size
  | .free location => location ∈ program.live.map Live.address
  | .write memory => WritesLive arena program.allocator program.live memory

def perform (program : Program) : Request → Option Program
  | .malloc size => do
    let (result, allocator) ← program.allocator.malloc arena size
    return ⟨allocator, if result = 0 then program.live else program.live ++ [⟨result, size⟩]⟩
  | .free location => do
    let allocator ← program.allocator.free arena location
    return ⟨allocator, released program.live location⟩
  | .write memory => some { program with allocator := { program.allocator with memory } }

def system (sizes : Nat → Prop) : System Program Request := ⟨inScope arena sizes, perform arena⟩

/-- The allocator is partitioned, and all live blocks have sizes that can be asked for. -/
structure Kept (sizes : Nat → Prop) (program : Program) : Prop where
  partitioned : ∃ free, Partitioned arena program.allocator program.live free
  sizes : ∀ b ∈ program.live, sizes b.size

variable {arena} {sizes : Nat → Prop} {program : Program} {size : Nat}

theorem kept_start (memory : Memory) : Kept arena sizes (start memory) :=
  ⟨⟨_, partitioned_create arena memory⟩, fun _ h => absurd h List.not_mem_nil⟩

/-- Every request in scope is answered, unless the size has no bin. -/
theorem Kept.perform (h : Kept arena sizes program) (request : Request) (hscope : inScope arena sizes program request)
    (hbin : ∀ size, request = .malloc size → ∃ bin : Fin numBins, binForSize size = bin.val) :
    ∃ program', perform arena program request = some program' ∧ Kept arena sizes program' := by
  obtain ⟨⟨free, hpartitioned⟩, hsizes⟩ := h
  cases request with
  | malloc size =>
    obtain ⟨bin, hbin⟩ := hbin size rfl
    obtain ⟨result, s', free', hmalloc, hpartitioned'⟩ := hpartitioned.malloc hbin
    refine ⟨⟨s', if result = 0 then program.live else program.live ++ [⟨result, size⟩]⟩, ?_,
      ⟨free', hpartitioned'⟩, ?_⟩
    · rw [Program.perform, hmalloc]
      rfl
    · intro b hb
      change b ∈ (if result = 0 then program.live else program.live ++ [⟨result, size⟩]) at hb
      split_ifs at hb with hzero
      · exact hsizes b hb
      · rcases List.mem_append.mp hb with hb | hb
        · exact hsizes b hb
        · obtain rfl := List.mem_singleton.mp hb
          exact hscope
  | free location =>
    obtain ⟨s', free', hfree, hpartitioned'⟩ := hpartitioned.free_live hscope
    refine ⟨⟨s', released program.live location⟩, ?_, ⟨free', hpartitioned'⟩, ?_⟩
    · rw [Program.perform, hfree]
      rfl
    · exact fun b hb => hsizes b (List.mem_filter.mp hb).1
  | write memory => exact ⟨_, rfl, ⟨free, hpartitioned.write hscope⟩, hsizes⟩

/-! ## What holds in every state -/

/-- The live blocks are as large as they were asked for, and apart from each other, from the
headers of the chunks and from all free blocks. -/
structure Sound (arena : Arena) (program : Program) : Prop where
  large : ∀ b ∈ program.live, b.size ≤ program.allocator.extent arena b.address
  inside : ∀ b ∈ program.live, arena.start + allocatorSize ≤ b.address ∧
    b.address + program.allocator.extent arena b.address ≤ arena.start + memorySize
  apart : program.live.Pairwise fun b b' => Apart b.address (program.allocator.extent arena b.address)
    b'.address (program.allocator.extent arena b'.address)
  headers : ∀ b ∈ program.live, ∀ i < program.allocator.max,
    Apart b.address (program.allocator.extent arena b.address) (arena.chunk i) headerSize
  frees : ∀ b ∈ program.live, ∀ (bin : Fin numBins) (p : Nat),
    Linked program.allocator.memory (program.allocator.bins bin) p →
      Apart b.address (program.allocator.extent arena b.address) p (sizeForBin bin.val)

theorem Kept.sound (h : Kept arena (fun size => 1 ≤ size ∧ size ≤ 2048) program) : Sound arena program := by
  obtain ⟨⟨free, hpartitioned⟩, hsizes⟩ := h
  have hrange := hpartitioned.inRange
  constructor
  · intro b hb
    obtain ⟨bin, hbin, hblock⟩ := hpartitioned.live_block b hb
    rw [hblock.extent_eq hrange]
    exact le_blockSize (hsizes b hb).1 (hsizes b hb).2 hbin
  · intro b hb
    obtain ⟨bin, -, hblock⟩ := hpartitioned.live_block b hb
    rw [hblock.extent_eq hrange]
    exact hblock.inside hrange
  · apply (List.pairwise_map.mp hpartitioned.live_nodup).imp_of_mem
    intro b b' hb hb' hne
    obtain ⟨bin, -, hblock⟩ := hpartitioned.live_block b hb
    obtain ⟨bin', -, hblock'⟩ := hpartitioned.live_block b' hb'
    rw [hblock.extent_eq hrange, hblock'.extent_eq hrange]
    exact hblock.apart hblock' hne
  · intro b hb i _
    obtain ⟨bin, -, hblock⟩ := hpartitioned.live_block b hb
    rw [hblock.extent_eq hrange]
    exact hblock.apart_header i
  · intro b hb bin' p hlinked
    obtain ⟨bin, -, hblock⟩ := hpartitioned.live_block b hb
    have hp := (hpartitioned.chain bin').linked_iff.mp hlinked
    rw [hblock.extent_eq hrange, sizeForBin_val]
    apply hblock.apart (hpartitioned.free_block bin' p hp)
    rintro rfl
    exact hpartitioned.not_live bin' _ hp (List.mem_map_of_mem hb)

theorem exists_bin (hpos : 1 ≤ size) (hle : size ≤ 2048) : ∃ bin : Fin numBins, binForSize size = bin.val := by
  have hlt : (size - 1) / 16 < numBins := by
    simp only [numBins]
    omega
  exact ⟨⟨(size - 1) / 16, hlt⟩, binForSize_of_le hpos hle⟩

/-- In every program that asks for sizes up to 2048. -/
theorem always_sound (arena : Arena) (memory : Memory) (requests : List Request) :
    (system arena fun size => 1 ≤ size ∧ size ≤ 2048).Always (Sound arena) (start memory) requests := by
  apply (System.always_iff_throughout (I := Kept arena fun size => 1 ≤ size ∧ size ≤ 2048) (C := fun _ _ => True)
    (fun _ h => h.sound) ?_ ?_ requests (kept_start memory)).mpr (System.throughout_true requests)
  · intro program request h hscope _
    apply h.perform request hscope
    rintro size rfl
    exact exists_bin hscope.1 hscope.2
  · exact fun _ _ _ _ hnot => absurd trivial hnot

/-! ## When a block is returned -/

/-- `Malloc` returns a block if there is a free one in the bin or room for one more chunk, and
where it returns none nothing has changed. -/
def Answers (arena : Arena) (program : Program) : Request → Program → Prop
  | .malloc size, _ => ∀ (bin : Fin numBins) (result : Nat) (allocator : BinAllocator),
    binForSize size = bin.val → program.allocator.malloc arena size = some (result, allocator) →
      ((program.allocator.bins bin ≠ 0 ∨
        arena.chunk program.allocator.max + binSize ≤ arena.start + memorySize) → result ≠ 0) ∧
      (result = 0 → allocator = program.allocator)
  | _, _ => True

/-- The size has a bin, and that bin a free block, or else there is room for two chunks and a
block is at most half as large as one. -/
def Served (program : Program) : Request → Prop
  | .malloc size => ∃ bin : Fin numBins, binForSize size = bin.val ∧ program.allocator.Provides bin
  | _ => True

theorem exists_bin_of_perform {t : Program} (hperform : Program.perform arena program (.malloc size) = some t) :
    ∃ bin : Fin numBins, binForSize size = bin.val := by
  cases hindex : binIndex (binForSize size) with
  | none =>
    have hmalloc : program.allocator.malloc arena size = none := by
      rw [malloc, hindex]
      rfl
    rw [Program.perform, hmalloc] at hperform
    cases hperform
  | some bin => exact ⟨bin, binIndex_eq_some.mp hindex⟩

theorem Kept.answers (h : Kept arena sizes program) (request : Request) (hserved : Served program request)
    (t : Program) : Answers arena program request t := by
  obtain ⟨⟨free, hpartitioned⟩, -⟩ := h
  cases request with
  | malloc size =>
    obtain ⟨bin, hbin, hprovides⟩ := hserved
    obtain ⟨result, s', free', hmalloc, hne, -⟩ := hpartitioned.malloc_of_provides hbin hprovides
    intro bin' result' allocator _ hmalloc'
    cases hmalloc.symm.trans hmalloc'
    exact ⟨fun _ => hne, fun hzero => absurd hzero hne⟩
  | free location => trivial
  | write memory => trivial

/-- There is always room for one more chunk, so that a request that is not served is wrong to
return nothing. -/
theorem Kept.not_answers (h : Kept arena sizes program) (request : Request) (hnot : ¬ Served program request)
    {t : Program} (hperform : Program.perform arena program request = some t) : ¬ Answers arena program request t := by
  obtain ⟨⟨free, hpartitioned⟩, -⟩ := h
  cases request with
  | malloc size =>
    obtain ⟨bin, hbin⟩ := exists_bin_of_perform hperform
    have hprovides : ¬ program.allocator.Provides bin := fun hprovides => hnot ⟨bin, hbin, hprovides⟩
    intro hanswers
    obtain ⟨hblock, -⟩ := hanswers bin _ _ hbin (malloc_of_not_provides hbin hprovides)
    apply hblock (Or.inr _) rfl
    have hrange := hpartitioned.inRange
    rw [InRange, Nat.succ_mul] at hrange
    rw [chunk_natCast]
    omega
  | free location => exact absurd trivial hnot
  | write memory => exact absurd trivial hnot

/-- In every program that asks for any sizes, all requests do what they should exactly if all of
them are served. -/
theorem performs_answers_iff (arena : Arena) (memory : Memory) (requests : List Request) :
    (system arena fun size => size < 2 ^ 64).Performs (Answers arena) (start memory) requests ↔
      (system arena fun size => size < 2 ^ 64).Throughout Served (start memory) requests := by
  apply System.performs_iff_throughout (I := Kept arena fun size => size < 2 ^ 64) ?_ ?_ requests (kept_start memory)
  · intro program request h hscope hserved
    have hbin : ∀ size, request = .malloc size → ∃ bin : Fin numBins, binForSize size = bin.val := by
      rintro size rfl
      obtain ⟨bin, hbin, -⟩ := hserved
      exact ⟨bin, hbin⟩
    obtain ⟨t, hperform, hkept⟩ := h.perform request hscope hbin
    exact ⟨t, hperform, h.answers request hserved t, hkept⟩
  · intro program request h _ hnot t hperform
    exact h.not_answers request hnot hperform

/-- A block of 513 bytes is refused in the beginning, and a chunk is used up. -/
theorem not_performs_malloc_513 : ¬ (system ⟨4096, by decide⟩ fun size => size < 2 ^ 64).Performs
    (Answers ⟨4096, by decide⟩) (start fun _ => 0) [.malloc 513] := by
  have hbin : binForSize 513 = (⟨32, by decide⟩ : Fin numBins).val := binForSize_of_le (by decide) (by decide)
  have hnot : ¬ (create fun _ => 0).Provides ⟨32, by decide⟩ := by
    rintro (hne | ⟨-, htwo⟩)
    · exact hne rfl
    · exact absurd htwo (by decide)
  intro hperforms
  obtain ⟨t, -, hanswers, -⟩ := hperforms (by decide : 513 < 2 ^ 64)
  exact (hanswers _ _ _ hbin (malloc_of_not_provides hbin hnot)).1 (Or.inr (by decide)) rfl

end Program

end Lumos.Core
