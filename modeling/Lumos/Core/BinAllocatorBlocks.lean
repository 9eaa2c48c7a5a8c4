import Lumos.Core.BinAllocator

/-!
# Live and free blocks

Every block is live or on the list of its bin, or its chunk has not been cut up to it yet.
Allocating and freeing moves blocks from one to the other.
-/
namespace Lumos.Core

open FreeLists

/-- A block that was returned, with the size it was asked for. -/
structure Live where
  address : Nat
  size : Nat
  deriving DecidableEq

namespace BinAllocator

variable {arena : Arena} {s s' : BinAllocator} {bin bin' : Fin numBins} {p q size : Nat} {live : List Live}
  {free : Fin numBins → List Nat}

section Blocks

variable (hp : s.IsBlock arena bin p)
include hp

theorem IsBlock.apart_header (i : Nat) : Apart p (blockSize bin) (arena.chunk i) headerSize := by
  obtain ⟨i', j, hp⟩ := hp
  exact hp.apart_header i

theorem IsBlock.apart (hq : s.IsBlock arena bin' q) (hne : p ≠ q) : Apart p (blockSize bin) q (blockSize bin') := by
  obtain ⟨i, j, hp⟩ := hp
  obtain ⟨i', j', hq⟩ := hq
  exact hp.apart hq hne

theorem IsBlock.inside (hs : s.InRange) :
    arena.start + allocatorSize ≤ p ∧ p + blockSize bin ≤ arena.start + memorySize := by
  obtain ⟨i, j, hp⟩ := hp
  exact hp.inside hs

theorem IsBlock.binForLocation_eq (hs : s.InRange) : s.binForLocation arena p = bin.val := by
  obtain ⟨i, j, hp⟩ := hp
  exact hp.binForLocation_eq hs

theorem IsBlock.bin_unique (hs : s.InRange) (hq : s.IsBlock arena bin' p) : bin = bin' := by
  have hbin := (hp.binForLocation_eq hs).symm.trans (hq.binForLocation_eq hs)
  exact Fin.val_injective (Int.ofNat_inj.mp hbin)

/-- An address that is not the null pointer and can be stored in a link. -/
theorem IsBlock.link (hs : s.InRange) : p ≠ 0 ∧ p < 256 ^ linkSize := by
  have hinside := hp.inside hs
  have hfits := arena.fits
  have hpos := blockSize_pos bin
  have hlink : 256 ^ linkSize = 2 ^ 64 := rfl
  rw [hlink]
  simp only [allocatorSize, binSizeInc] at hinside hpos
  omega

/-- Chunks stay what they are. -/
theorem IsBlock.mono (hmax : s.max ≤ s'.max) (hheader : ∀ i < s.max, s'.header arena i = s.header arena i) :
    s'.IsBlock arena bin p := by
  obtain ⟨i, j, hp⟩ := hp
  exact ⟨i, j, hp.chunk_lt.trans_le hmax, (hheader i hp.chunk_lt).trans hp.header, hp.pos, hp.le, hp.eq⟩

end Blocks

theorem linkSize_le (bin : Fin numBins) : linkSize ≤ blockSize bin :=
  le_trans (by decide : linkSize ≤ binSizeInc) (blockSize_pos bin)

/-! ## The invariant -/

/-- The live blocks and those of the lists are blocks of their bins, each of them once. -/
structure Partitioned (arena : Arena) (s : BinAllocator) (live : List Live) (free : Fin numBins → List Nat) :
    Prop where
  inRange : s.InRange
  chain : ∀ bin, Chain s.memory (s.bins bin) (free bin)
  free_block : ∀ bin, ∀ p ∈ free bin, s.IsBlock arena bin p
  live_block : ∀ b ∈ live, ∃ bin : Fin numBins, binForSize b.size = bin.val ∧ s.IsBlock arena bin b.address
  free_nodup : ∀ bin, (free bin).Nodup
  live_nodup : (live.map Live.address).Nodup
  not_live : ∀ bin, ∀ p ∈ free bin, p ∉ live.map Live.address

theorem partitioned_create (arena : Arena) (memory : Memory) :
    Partitioned arena (create memory) [] fun _ => [] where
  inRange := (by decide : 1 * binSize + allocatorSize ≤ memorySize)
  chain := fun _ => rfl
  free_block := fun _ _ h => absurd h List.not_mem_nil
  live_block := fun _ h => absurd h List.not_mem_nil
  free_nodup := fun _ => List.nodup_nil
  live_nodup := List.nodup_nil
  not_live := fun _ _ h => absurd h List.not_mem_nil

/-- Headers and links are all that matters of the memory. -/
theorem Partitioned.congr (h : Partitioned arena s live free) (hrange : s'.InRange) (hmax : s.max ≤ s'.max)
    (hbins : s'.bins = s.bins) (hheader : ∀ i < s.max, s'.header arena i = s.header arena i)
    (hlinks : ∀ bin, ∀ p ∈ free bin, load s'.memory p linkSize = load s.memory p linkSize) :
    Partitioned arena s' live free where
  inRange := hrange
  chain := fun bin => by
    rw [hbins]
    exact (h.chain bin).frame (hlinks bin)
  free_block := fun bin p hp => (h.free_block bin p hp).mono hmax hheader
  live_block := fun b hb => by
    obtain ⟨bin, hbin, hblock⟩ := h.live_block b hb
    exact ⟨bin, hbin, hblock.mono hmax hheader⟩
  free_nodup := h.free_nodup
  live_nodup := h.live_nodup
  not_live := h.not_live

theorem Partitioned.head_lt (h : Partitioned arena s live free) (bin : Fin numBins) :
    s.bins bin < 256 ^ linkSize := by
  by_cases hzero : s.bins bin = 0
  · rw [hzero]
    decide
  · obtain ⟨ps, hfree, -⟩ := (h.chain bin).eq_cons hzero
    exact ((h.free_block bin _ (hfree ▸ List.mem_cons_self)).link h.inRange).2

/-! ## Blocks that are put on a list -/

/-- What `Free` does when the bin is known. -/
def pushed (s : BinAllocator) (bin : Fin numBins) (location : Nat) : BinAllocator :=
  { s with
    bins := Function.update s.bins bin location
    memory := store s.memory location linkSize (s.bins bin) }

@[simp] theorem pushed_max (s : BinAllocator) (bin : Fin numBins) (p : Nat) : (s.pushed bin p).max = s.max := rfl

@[simp] theorem pushed_bins_self (s : BinAllocator) (bin : Fin numBins) (p : Nat) : (s.pushed bin p).bins bin = p :=
  Function.update_self ..

theorem pushed_bins_of_ne (s : BinAllocator) (p : Nat) (h : bin' ≠ bin) : (s.pushed bin p).bins bin' = s.bins bin' :=
  Function.update_of_ne h ..

theorem free_eq (hs : s.InRange) (hp : s.IsBlock arena bin p) : s.free arena p = some (s.pushed bin p) := by
  rw [BinAllocator.free, hp.binForLocation_eq hs, binIndex_val]
  rfl

theorem header_pushed (hp : s.IsBlock arena bin p) (i : Nat) :
    (s.pushed bin p).header arena i = s.header arena i :=
  load_store_apart ((hp.apart_header i).mono (linkSize_le bin) le_rfl)

theorem Partitioned.pushed (h : Partitioned arena s live free) (hp : s.IsBlock arena bin p)
    (hfree : p ∉ free bin) (hlive : p ∉ live.map Live.address) :
    Partitioned arena (s.pushed bin p) live (Function.update free bin (p :: free bin)) := by
  have hmono : ∀ {bin' q}, s.IsBlock arena bin' q → (s.pushed bin p).IsBlock arena bin' q :=
    fun hq => hq.mono le_rfl fun i _ => header_pushed hp i
  have hlink := hp.link h.inRange
  have hapart : ∀ bin', ∀ q ∈ free bin', p ≠ q → Apart p linkSize q linkSize := fun bin' q hq hne =>
    (hp.apart (h.free_block bin' q hq) hne).mono (linkSize_le bin) (linkSize_le bin')
  constructor
  · exact h.inRange
  · intro bin'
    by_cases hbin : bin' = bin
    · subst hbin
      rw [pushed_bins_self, Function.update_self]
      apply (h.chain bin').push (h.head_lt bin') hlink.1
      intro q hq
      exact hapart bin' q hq fun heq => hfree (heq ▸ hq)
    · rw [pushed_bins_of_ne s p hbin, Function.update_of_ne hbin]
      apply (h.chain bin').frame
      intro q hq
      apply load_store_apart (hapart bin' q hq _)
      rintro rfl
      exact hbin ((h.free_block bin' p hq).bin_unique h.inRange hp)
  · apply (Function.forall_update_iff free fun bin' ps => ∀ q ∈ ps, (s.pushed bin p).IsBlock arena bin' q).mpr
    refine ⟨fun q hq => ?_, fun bin' _ q hq => hmono (h.free_block bin' q hq)⟩
    rcases List.mem_cons.mp hq with rfl | hq
    · exact hmono hp
    · exact hmono (h.free_block bin q hq)
  · intro b hb
    obtain ⟨bin', hbin, hblock⟩ := h.live_block b hb
    exact ⟨bin', hbin, hmono hblock⟩
  · apply (Function.forall_update_iff free fun _ ps => ps.Nodup).mpr
    exact ⟨List.nodup_cons.mpr ⟨hfree, h.free_nodup bin⟩, fun bin' _ => h.free_nodup bin'⟩
  · exact h.live_nodup
  · apply (Function.forall_update_iff free fun _ ps => ∀ q ∈ ps, q ∉ live.map Live.address).mpr
    refine ⟨fun q hq => ?_, fun bin' _ => h.not_live bin'⟩
    rcases List.mem_cons.mp hq with rfl | hq
    · exact hlive
    · exact h.not_live bin q hq

/-! ## Blocks that are taken from a list -/

/-- What `Malloc` does when there is a free block. -/
def popped (s : BinAllocator) (bin : Fin numBins) : BinAllocator :=
  { s with bins := Function.update s.bins bin (load s.memory (s.bins bin) linkSize) }

theorem Partitioned.popped (h : Partitioned arena s live free) (hbin : binForSize size = bin.val)
    (hne : s.bins bin ≠ 0) :
    ∃ free', Partitioned arena (s.popped bin) (live ++ [⟨s.bins bin, size⟩]) free' := by
  obtain ⟨ps, hfree, hchain⟩ := (h.chain bin).eq_cons hne
  have hblock : s.IsBlock arena bin (s.bins bin) := h.free_block bin _ (hfree ▸ List.mem_cons_self)
  have hnodup := h.free_nodup bin
  rw [hfree, List.nodup_cons] at hnodup
  have hmono : ∀ {bin' q}, s.IsBlock arena bin' q → (s.popped bin).IsBlock arena bin' q :=
    fun hq => hq.mono le_rfl fun i _ => rfl
  have hrest : ∀ q ∈ ps, q ∈ free bin := fun q hq => hfree ▸ List.mem_cons_of_mem _ hq
  refine ⟨Function.update free bin ps, h.inRange, ?_, ?_, ?_, ?_, ?_, ?_⟩
  · intro bin'
    by_cases heq : bin' = bin
    · subst heq
      have hhead : (s.popped bin').bins bin' = load s.memory (s.bins bin') linkSize := Function.update_self ..
      rw [hhead, Function.update_self]
      exact hchain
    · have hhead : (s.popped bin).bins bin' = s.bins bin' := Function.update_of_ne heq ..
      rw [hhead, Function.update_of_ne heq]
      exact h.chain bin'
  · apply (Function.forall_update_iff free fun bin' ps => ∀ q ∈ ps, (s.popped bin).IsBlock arena bin' q).mpr
    exact ⟨fun q hq => hmono (h.free_block bin q (hrest q hq)), fun bin' _ q hq => hmono (h.free_block bin' q hq)⟩
  · intro b hb
    rcases List.mem_append.mp hb with hb | hb
    · obtain ⟨bin', hbin', hblock'⟩ := h.live_block b hb
      exact ⟨bin', hbin', hmono hblock'⟩
    · obtain rfl := List.mem_singleton.mp hb
      exact ⟨bin, hbin, hmono hblock⟩
  · apply (Function.forall_update_iff free fun _ ps => ps.Nodup).mpr
    exact ⟨hnodup.2, fun bin' _ => h.free_nodup bin'⟩
  · rw [List.map_append, List.nodup_append]
    refine ⟨h.live_nodup, List.nodup_singleton _, fun q hq q' hq' heq => ?_⟩
    obtain rfl := List.mem_singleton.mp hq'
    subst heq
    exact h.not_live bin _ (hfree ▸ List.mem_cons_self) hq
  · have hnot : ∀ bin', ∀ q ∈ free bin', q ≠ s.bins bin →
        q ∉ (live ++ [(⟨s.bins bin, size⟩ : Live)]).map Live.address := by
      intro bin' q hq hne hmem
      rw [List.map_append, List.mem_append] at hmem
      rcases hmem with hmem | hmem
      · exact h.not_live bin' q hq hmem
      · exact hne (List.mem_singleton.mp hmem)
    apply (Function.forall_update_iff free fun _ ps =>
      ∀ q ∈ ps, q ∉ (live ++ [(⟨s.bins bin, size⟩ : Live)]).map Live.address).mpr
    constructor
    · intro q hq
      exact hnot bin q (hrest q hq) fun heq => hnodup.1 (heq ▸ hq)
    · intro bin' hbin' q hq
      apply hnot bin' q hq
      rintro rfl
      exact hbin' ((h.free_block bin' _ hq).bin_unique h.inRange hblock)

/-! ## Chunks -/

theorem chunk_succ (arena : Arena) (i : Nat) : arena.chunk (i + 1 : Nat) = arena.chunk i + binSize := by
  rw [chunk_natCast, chunk_natCast, Nat.succ_mul]
  omega

/-- All blocks so far lie below an address. -/
structure Below (live : List Live) (free : Fin numBins → List Nat) (p : Nat) : Prop where
  free : ∀ bin, ∀ q ∈ free bin, q < p
  live : ∀ q ∈ live.map Live.address, q < p

theorem Below.push (h : Below live free p) (hpq : p < q) (bin : Fin numBins) :
    Below live (Function.update free bin (p :: free bin)) q where
  free := by
    apply (Function.forall_update_iff free fun _ ps => ∀ r ∈ ps, r < q).mpr
    refine ⟨fun r hr => ?_, fun bin' _ r hr => (h.free bin' r hr).trans hpq⟩
    rcases List.mem_cons.mp hr with rfl | hr
    · exact hpq
    · exact (h.free bin r hr).trans hpq
  live := fun r hr => (h.live r hr).trans hpq

/-- The rest of a chunk is put on the list of its bin, block by block. -/
theorem Partitioned.carve {i j : Nat} (h : Partitioned arena s live free) (hi : i < s.max)
    (hheader : s.header arena i = bin.val) (hj : 0 < j) (hp : p = arena.chunk i + j * blockSize bin)
    (hbelow : Below live free p) :
    ∃ s' free', carve arena (blockSize bin) (arena.chunk i + binSize) s p = some s' ∧
      Partitioned arena s' live free' ∧ s'.max = s.max ∧
      (s.bins bin ≠ 0 ∨ p + blockSize bin ≤ arena.chunk i + binSize → s'.bins bin ≠ 0) := by
  induction hn : arena.chunk i + binSize - p using Nat.strong_induction_on generalizing s free j p with
  | _ n ih =>
    have hpos : 0 < blockSize bin := lt_of_lt_of_le (by decide) (blockSize_pos bin)
    rw [BinAllocator.carve]
    by_cases hroom : p + blockSize bin ≤ arena.chunk i + binSize
    · have hfit : (j + 1) * blockSize bin ≤ binSize := by
        rw [Nat.succ_mul]
        omega
      have hblock : s.IsBlock arena bin p := ⟨i, j, hi, hheader, hj, hfit, hp⟩
      have hpushed := h.pushed hblock (fun hmem => lt_irrefl p (hbelow.free bin p hmem))
        fun hmem => lt_irrefl p (hbelow.live p hmem)
      have hnext : p + blockSize bin = arena.chunk i + (j + 1) * blockSize bin := by
        rw [Nat.succ_mul]
        omega
      obtain ⟨s', free', hcarve, hpartitioned, hmax, hbins⟩ := ih _ (by omega) hpushed hi
        ((header_pushed hblock i).trans hheader) (Nat.succ_pos j) hnext
        (hbelow.push (Nat.lt_add_of_pos_right hpos) bin) rfl
      refine ⟨s', free', ?_, hpartitioned, hmax, fun _ => hbins (Or.inl ?_)⟩
      · rw [if_pos ⟨hpos, hroom⟩, free_eq h.inRange hblock]
        exact hcarve
      · rw [pushed_bins_self]
        exact (hblock.link h.inRange).1
    · refine ⟨s, free, ?_, h, rfl, fun hor => ?_⟩
      · rw [if_neg fun hand => hroom hand.2]
      · rcases hor with hne | hle
        · exact hne
        · exact absurd hle hroom

/-- The state when the header of a new chunk has been written. -/
def opened (arena : Arena) (s : BinAllocator) (bin : Fin numBins) : BinAllocator :=
  { s with
    max := s.max + 1
    memory := store s.memory (arena.chunk s.max) headerSize bin.val }

theorem IsBlock.below (hp : s.IsBlock arena bin p) : p + blockSize bin ≤ arena.chunk s.max := by
  obtain ⟨i, j, hp⟩ := hp
  exact hp.bounds.2.trans (chunk_add_le arena hp.chunk_lt)

theorem header_opened_self (arena : Arena) (s : BinAllocator) (bin : Fin numBins) :
    (s.opened arena bin).header arena s.max = bin.val := by
  have hbin := bin.isLt
  have hpow : 256 ^ headerSize = 2 ^ 32 := rfl
  simp only [numBins] at hbin
  rw [header, opened, load_store_same, hpow]
  omega

theorem Partitioned.opened (h : Partitioned arena s live free) (hroom : s.hasRoom) (bin : Fin numBins) :
    Partitioned arena (s.opened arena bin) live free ∧
      Below live free (arena.chunk s.max + 1 * blockSize bin) := by
  have hbelow : ∀ {bin' q}, s.IsBlock arena bin' q → q < arena.chunk s.max := fun {bin'} _ hq => by
    have hle := hq.below
    have hpos := blockSize_pos bin'
    simp only [binSizeInc] at hpos
    omega
  have hmax : (s.opened arena bin).max + 1 = s.max + 2 := rfl
  have hrange : (s.opened arena bin).InRange := by
    rw [InRange, hmax]
    exact hroom
  constructor
  · apply h.congr hrange (Nat.le_succ _) rfl
    · intro i hi
      apply load_store_apart
      have hle := chunk_add_le arena hi
      refine Or.inr (le_trans ?_ hle)
      exact Nat.add_le_add_left (by decide) _
    · intro bin' q hq
      apply load_store_apart
      exact Or.inr ((Nat.add_le_add_left (linkSize_le bin') q).trans (h.free_block bin' q hq).below)
  · constructor
    · intro bin' q hq
      exact (hbelow (h.free_block bin' q hq)).trans_le (Nat.le_add_right _ _)
    · intro q hq
      obtain ⟨b, hb, rfl⟩ := List.mem_map.mp hq
      obtain ⟨bin', -, hblock⟩ := h.live_block b hb
      exact (hbelow hblock).trans_le (Nat.le_add_right _ _)

theorem makeChunk_eq (hbin : binForSize size = bin.val) (hroom : s.hasRoom) :
    s.makeChunk arena size = BinAllocator.carve arena (blockSize bin) (arena.chunk s.max + binSize)
      (s.opened arena bin) (arena.chunk s.max + 1 * blockSize bin) := by
  have hheader : ((bin.val : Int) % 2 ^ 32).toNat = bin.val := by
    have hlt := bin.isLt
    simp only [numBins] at hlt
    omega
  simp only [makeChunk, if_pos hroom, hbin, sizeForBin_val, hheader, chunk_succ, Nat.one_mul]
  rfl

/-- A chunk of some bin, with all blocks there is room for on the list of that bin. -/
theorem Partitioned.makeChunk (h : Partitioned arena s live free) (hbin : binForSize size = bin.val)
    (hroom : s.hasRoom) :
    ∃ s' free', s.makeChunk arena size = some s' ∧ Partitioned arena s' live free' ∧ s'.max = s.max + 1 ∧
      (2 * blockSize bin ≤ binSize → s'.bins bin ≠ 0) := by
  obtain ⟨hopened, hbelow⟩ := h.opened hroom bin
  obtain ⟨s', free', hcarve, hpartitioned, hmax, hbins⟩ := hopened.carve (Nat.lt_succ_self s.max)
    (header_opened_self arena s bin) Nat.one_pos rfl hbelow
  refine ⟨s', free', (makeChunk_eq hbin hroom).trans hcarve, hpartitioned, hmax, fun htwo => hbins (Or.inr ?_)⟩
  omega

/-- Where no block fits after the header and the gap of a block, the chunk stays empty. -/
theorem makeChunk_of_large (hbin : binForSize size = bin.val) (hroom : s.hasRoom)
    (hlarge : binSize < 2 * blockSize bin) : s.makeChunk arena size = some (s.opened arena bin) := by
  rw [makeChunk_eq hbin hroom, BinAllocator.carve, if_neg]
  omega

end BinAllocator

end Lumos.Core
