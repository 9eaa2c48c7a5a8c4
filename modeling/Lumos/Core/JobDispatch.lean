import Mathlib.Algebra.Group.Nat.Defs
import Mathlib.Data.List.Nodup

/-!
# `JobSystem::Dispatch`

The jobs are divided into groups, and the division is computed in 32 bits.
-/
namespace Lumos.Core

structure JobDispatchArgs where
  jobIndex : UInt32
  groupIndex : UInt32
  deriving DecidableEq

/-- `for (uint32_t i = first; i < last; ++i)` -/
def loopIndices (first last : UInt32) : List UInt32 :=
  (List.range (last.toNat - first.toNat)).map fun k => first + UInt32.ofNat k

/-- "overestimate, or ceil" -/
def groupCount (jobCount groupSize : UInt32) : UInt32 := (jobCount + groupSize - 1) / groupSize

/-- The calls that the job of one group makes. -/
def jobGroup (jobCount groupSize groupIndex : UInt32) : List JobDispatchArgs :=
  let groupJobOffset := groupIndex * groupSize
  let groupJobEnd := min (groupJobOffset + groupSize) jobCount
  (loopIndices groupJobOffset groupJobEnd).map fun i => ⟨i, groupIndex⟩

/-- The groups for which a job is generated. -/
def jobGroups (jobCount groupSize : UInt32) : List UInt32 :=
  if jobCount = 0 ∨ groupSize = 0 then [] else loopIndices 0 (groupCount jobCount groupSize)

/-- All calls that `Dispatch` causes. -/
def dispatch (jobCount groupSize : UInt32) : List JobDispatchArgs :=
  (jobGroups jobCount groupSize).flatMap (jobGroup jobCount groupSize)

theorem mem_loopIndices {first last i : UInt32} :
    i ∈ loopIndices first last ↔ first.toNat ≤ i.toNat ∧ i.toNat < last.toNat := by
  have hlast := last.toNat_lt
  simp only [loopIndices, List.mem_map, List.mem_range]
  constructor
  · intro h
    obtain ⟨k, hk, rfl⟩ := h
    have hsum : (first + UInt32.ofNat k).toNat = first.toNat + k := by
      rw [UInt32.toNat_add, UInt32.toNat_ofNat']
      omega
    omega
  · intro h
    refine ⟨i.toNat - first.toNat, by omega, ?_⟩
    apply UInt32.toNat_inj.mp
    rw [UInt32.toNat_add, UInt32.toNat_ofNat']
    have hi := i.toNat_lt
    omega

theorem loopIndices_nodup (first last : UInt32) : (loopIndices first last).Nodup := by
  have hlast := last.toNat_lt
  apply List.Nodup.map_on _ List.nodup_range
  intro k hk l hl heq
  rw [List.mem_range] at hk hl
  have hsum := congrArg UInt32.toNat heq
  rw [UInt32.toNat_add, UInt32.toNat_add, UInt32.toNat_ofNat', UInt32.toNat_ofNat'] at hsum
  omega

variable {jobCount groupSize : UInt32}

theorem jobGroup_nodup (groupIndex : UInt32) : (jobGroup jobCount groupSize groupIndex).Nodup := by
  apply (loopIndices_nodup _ _).map
  intro i j h
  exact (JobDispatchArgs.mk.inj h).1

theorem mem_jobGroup {groupIndex : UInt32} {args : JobDispatchArgs} :
    args ∈ jobGroup jobCount groupSize groupIndex ↔ args.groupIndex = groupIndex ∧
      (groupIndex * groupSize).toNat ≤ args.jobIndex.toNat ∧
      args.jobIndex.toNat < (groupIndex * groupSize + groupSize).toNat ∧
      args.jobIndex.toNat < jobCount.toNat := by
  have hmin : ∀ a b : UInt32, (min a b).toNat = min a.toNat b.toNat := by
    intro a b
    by_cases hab : a ≤ b
    · have hab' : a.toNat ≤ b.toNat := UInt32.le_iff_toNat_le.mp hab
      rw [show min a b = a from if_pos hab, Nat.min_eq_left hab']
    · have hab' : b.toNat ≤ a.toNat := Nat.le_of_not_le fun h => hab (UInt32.le_iff_toNat_le.mpr h)
      rw [show min a b = b from if_neg hab, Nat.min_eq_right hab']
  simp only [jobGroup, List.mem_map, mem_loopIndices, hmin, Nat.lt_min]
  constructor
  · intro h
    obtain ⟨i, ⟨hfirst, hlast⟩, rfl⟩ := h
    exact ⟨rfl, hfirst, hlast⟩
  · intro h
    obtain ⟨hgroup, hfirst, hlast⟩ := h
    exact ⟨args.jobIndex, ⟨hfirst, hlast⟩, by rw [← hgroup]⟩

theorem dispatch_nodup : (dispatch jobCount groupSize).Nodup := by
  refine List.nodup_flatMap.mpr ⟨fun groupIndex _ => jobGroup_nodup groupIndex, ?_⟩
  have hgroups : (jobGroups jobCount groupSize).Nodup := by
    unfold jobGroups
    split
    · exact List.nodup_nil
    · exact loopIndices_nodup _ _
  apply hgroups.imp
  intro g g' hne args hg hg'
  exact hne ((mem_jobGroup.mp hg).1.symm.trans (mem_jobGroup.mp hg').1)

theorem mem_dispatch {args : JobDispatchArgs} (hjobs : 0 < jobCount.toNat) (hsize : 0 < groupSize.toNat) :
    args ∈ dispatch jobCount groupSize ↔
      args.groupIndex.toNat < (groupCount jobCount groupSize).toNat ∧
      (args.groupIndex * groupSize).toNat ≤ args.jobIndex.toNat ∧
      args.jobIndex.toNat < (args.groupIndex * groupSize + groupSize).toNat ∧
      args.jobIndex.toNat < jobCount.toNat := by
  have hsome : ¬ (jobCount = 0 ∨ groupSize = 0) := by
    intro h
    cases h with
    | inl h => simp [h] at hjobs
    | inr h => simp [h] at hsize
  simp only [dispatch, jobGroups, if_neg hsome, List.mem_flatMap, mem_jobGroup, mem_loopIndices]
  constructor
  · intro h
    obtain ⟨g, hg, hgroup, hrest⟩ := h
    subst hgroup
    exact ⟨hg.2, hrest⟩
  · intro h
    exact ⟨args.groupIndex, ⟨Nat.zero_le _, h.1⟩, rfl, h.2⟩

/-- The job is called exactly once for each index, with the group of the index. -/
def CallsEachOnce (jobCount groupSize : UInt32) (calls : List JobDispatchArgs) : Prop :=
  (∀ index, index < jobCount → calls.count ⟨index, index / groupSize⟩ = 1) ∧
  ∀ args ∈ calls, args.jobIndex < jobCount ∧ args.groupIndex = args.jobIndex / groupSize

theorem toNat_pos {n : UInt32} (h : 0 < n) : 0 < n.toNat := UInt32.lt_iff_toNat_lt.mp h

/-- Where the sum does not wrap, a group below the count ends within 32 bits. -/
theorem toNat_group {g : UInt32} (hsize : 0 < groupSize.toNat) (hjobs : 0 < jobCount.toNat)
    (hsum : jobCount.toNat + groupSize.toNat ≤ 2 ^ 32)
    (hg : g.toNat < (groupCount jobCount groupSize).toNat) :
    (g * groupSize).toNat = g.toNat * groupSize.toNat ∧
      (g * groupSize + groupSize).toNat = g.toNat * groupSize.toNat + groupSize.toNat := by
  have hcount : (jobCount + groupSize - 1).toNat = jobCount.toNat + groupSize.toNat - 1 := by
    rw [UInt32.toNat_sub, UInt32.toNat_add, UInt32.toNat_one]
    omega
  rw [groupCount, UInt32.toNat_div, hcount] at hg
  have hend : (g.toNat + 1) * groupSize.toNat ≤ jobCount.toNat + groupSize.toNat - 1 :=
    (Nat.le_div_iff_mul_le hsize).mp hg
  rw [Nat.add_mul, Nat.one_mul] at hend
  have hoffset : (g * groupSize).toNat = g.toNat * groupSize.toNat := by
    rw [UInt32.toNat_mul]
    omega
  refine ⟨hoffset, ?_⟩
  rw [UInt32.toNat_add, hoffset]
  omega

theorem callsEachOnce_of_le (hsize : 0 < groupSize) (hsum : jobCount.toNat + groupSize.toNat ≤ 2 ^ 32) :
    CallsEachOnce jobCount groupSize (dispatch jobCount groupSize) := by
  have hsize' := toNat_pos hsize
  constructor
  · intro index hindex
    have hindex' := UInt32.lt_iff_toNat_lt.mp hindex
    have hjobs : 0 < jobCount.toNat := by omega
    have hdiv : (index / groupSize).toNat = index.toNat / groupSize.toNat := UInt32.toNat_div _ _
    have hle := Nat.div_mul_le_self index.toNat groupSize.toNat
    have hlt := Nat.lt_div_mul_add (a := index.toNat) hsize'
    have hcount : (jobCount + groupSize - 1).toNat = jobCount.toNat + groupSize.toNat - 1 := by
      rw [UInt32.toNat_sub, UInt32.toNat_add, UInt32.toNat_one]
      omega
    have hgroup : (index / groupSize).toNat < (groupCount jobCount groupSize).toNat := by
      rw [groupCount, UInt32.toNat_div, UInt32.toNat_div, hcount]
      apply (Nat.le_div_iff_mul_le hsize').mpr
      rw [Nat.succ_mul]
      omega
    obtain ⟨hoffset, hend⟩ := toNat_group hsize' hjobs hsum hgroup
    apply List.count_eq_one_of_mem dispatch_nodup
    apply (mem_dispatch hjobs hsize').mpr
    refine ⟨hgroup, ?_, ?_, hindex'⟩
    · rw [hoffset, hdiv]
      exact hle
    · rw [hend, hdiv]
      exact hlt
  · intro args hargs
    have hjobs : 0 < jobCount.toNat := by
      by_contra hnone
      have hzero : jobCount = 0 := UInt32.toNat_inj.mp (Nat.eq_zero_of_not_pos hnone)
      simp [dispatch, jobGroups, hzero] at hargs
    obtain ⟨hgroup, hfirst, hlast, hindex⟩ := (mem_dispatch hjobs hsize').mp hargs
    obtain ⟨hoffset, hend⟩ := toNat_group hsize' hjobs hsum hgroup
    rw [hoffset] at hfirst
    rw [hend] at hlast
    refine ⟨UInt32.lt_iff_toNat_lt.mpr hindex, ?_⟩
    apply UInt32.toNat_inj.mp
    rw [UInt32.toNat_div]
    have hupper : args.jobIndex.toNat < (args.groupIndex.toNat + 1) * groupSize.toNat := by
      rw [Nat.add_mul, Nat.one_mul]
      exact hlast
    exact (Nat.div_eq_of_lt_le hfirst hupper).symm

/-- For every number of jobs and every positive size of the groups, the job is called
exactly once for each index and for no other exactly when the sum of the two, less one,
does not wrap. -/
theorem dispatch_callsEachOnce_iff (jobCount groupSize : UInt32) (hsize : 0 < groupSize) :
    CallsEachOnce jobCount groupSize (dispatch jobCount groupSize) ↔
      jobCount.toNat + groupSize.toNat ≤ 2 ^ 32 := by
  refine ⟨fun h => ?_, callsEachOnce_of_le hsize⟩
  by_contra hsum
  have hsize' := toNat_pos hsize
  have hlt := jobCount.toNat_lt
  have hlt' := groupSize.toNat_lt
  have hjobs : 0 < jobCount.toNat := by omega
  -- The last index is in a group behind all groups that are counted.
  have hlast : (jobCount - 1).toNat = jobCount.toNat - 1 := by
    rw [UInt32.toNat_sub, UInt32.toNat_one]
    omega
  have hindex : jobCount - 1 < jobCount := by
    apply UInt32.lt_iff_toNat_lt.mpr
    omega
  have hcalled := h.1 (jobCount - 1) hindex
  have hmem : (⟨jobCount - 1, (jobCount - 1) / groupSize⟩ : JobDispatchArgs) ∈
      dispatch jobCount groupSize := by
    apply List.count_pos_iff.mp
    omega
  have hgroup := ((mem_dispatch hjobs hsize').mp hmem).1
  have hcount : (jobCount + groupSize - 1).toNat = jobCount.toNat + groupSize.toNat - 1 - 2 ^ 32 := by
    rw [UInt32.toNat_sub, UInt32.toNat_add, UInt32.toNat_one]
    omega
  rw [groupCount, UInt32.toNat_div, UInt32.toNat_div, hcount, hlast] at hgroup
  have hcounted := (Nat.le_div_iff_mul_le hsize').mp hgroup
  have hbehind := Nat.lt_div_mul_add (a := jobCount.toNat - 1) hsize'
  rw [Nat.succ_mul] at hcounted
  omega

/-- Ten jobs in groups of four. -/
theorem dispatch_callsEachOnce_ten :
    CallsEachOnce 10 4 (dispatch 10 4) ↔ (10 : UInt32).toNat + (4 : UInt32).toNat ≤ 2 ^ 32 :=
  dispatch_callsEachOnce_iff 10 4 (by decide)

/-- With as many jobs as can be counted in groups of two, no job is called. -/
theorem dispatch_wraps :
    dispatch 0xFFFFFFFF 2 = [] ∧ ¬ CallsEachOnce 0xFFFFFFFF 2 (dispatch 0xFFFFFFFF 2) := by
  have hnone : dispatch 0xFFFFFFFF 2 = [] := by decide
  refine ⟨hnone, fun h => ?_⟩
  have hcount := h.1 0 (by decide)
  rw [hnone] at hcount
  cases hcount

end Lumos.Core
