import Mathlib.Algebra.BigOperators.Group.Finset.Basic
import Mathlib.Algebra.Order.BigOperators.Group.Finset
import Mathlib.Data.Multiset.AddSub
import Mathlib.Tactic.Abel
import Lumos.Core.JobSystem

/-!
# What happens to a job

Every job is in one place at any time: still to be pushed, in the pool, in the hands of a
worker or executed. The two labels are as far apart as there are jobs pushed, or about to
be, that are not finished.
-/
namespace Lumos.Core

variable {γ : Type} {n : Nat}

namespace JobSystem

def Phase.pending : Phase γ → List (Task γ)
  | .push task tasks | .poll task tasks => task :: tasks
  | .notify tasks => tasks
  | .next | .check | .waitPoll => []

/-- The jobs a worker has taken and not executed. -/
def hand : Worker γ → Multiset (Task γ)
  | .run job => {job}
  | .look | .count | .doze | .asleep => 0

@[simp] theorem hand_run (job : Task γ) : hand (.run job) = {job} := rfl

@[simp] theorem hand_look : hand (.look : Worker γ) = 0 := rfl

@[simp] theorem hand_count : hand (.count : Worker γ) = 0 := rfl

/-- The jobs a worker has taken and not reported. -/
def unreported : Worker γ → Nat
  | .run _ | .count => 1
  | .look | .doze | .asleep => 0

@[simp] theorem unreported_run (job : Task γ) : unreported (.run job) = 1 := rfl

@[simp] theorem unreported_look : unreported (.look : Worker γ) = 0 := rfl

@[simp] theorem unreported_count : unreported (.count : Worker γ) = 1 := rfl

/-- The jobs of the calls still to come. -/
def toCome (program : List (Call γ)) : List (Task γ) := program.flatMap Call.tasks

/-- All jobs, wherever they are. -/
def places (s : JobSystem γ n) : Multiset (Task γ) :=
  toCome s.program + Phase.pending s.phase + s.jobPool.contents + ∑ w, hand (s.workers w) + s.executed

/-- The number of jobs of the calls made so far that are not reported. -/
def outstanding (s : JobSystem γ n) : Nat :=
  (Phase.pending s.phase).length + s.jobPool.size + ∑ w, unreported (s.workers w)

/-- A worker with nothing in its hands. -/
def Free (worker : Worker γ) : Prop := worker = .look ∨ worker = .doze ∨ worker = .asleep

/-- What a step does to the jobs: nothing, or one of five things. -/
inductive Change (s t : JobSystem γ n) : Prop where
  | nothing (hprogram : t.program = s.program) (hpending : Phase.pending t.phase = Phase.pending s.phase)
      (hpool : t.jobPool.contents = s.jobPool.contents)
      (hworkers : ∀ w, t.workers w = s.workers w ∨ Free (s.workers w) ∧ Free (t.workers w))
      (hexecuted : t.executed = s.executed) (hcurrent : t.currentLabel = s.currentLabel)
      (hfinished : t.finishedLabel = s.finishedLabel)
  | call (c : Call γ) (hprogram : s.program = c :: t.program) (hnone : Phase.pending s.phase = [])
      (hpending : Phase.pending t.phase = c.tasks) (hpool : t.jobPool.contents = s.jobPool.contents)
      (hworkers : t.workers = s.workers) (hexecuted : t.executed = s.executed)
      (hcurrent : t.currentLabel = s.currentLabel + c.labels)
      (hfinished : t.finishedLabel = s.finishedLabel)
  | push (task : Task γ) (hprogram : t.program = s.program)
      (hpending : Phase.pending s.phase = task :: Phase.pending t.phase)
      (hpool : t.jobPool.contents = s.jobPool.contents ++ [task]) (hworkers : t.workers = s.workers)
      (hexecuted : t.executed = s.executed) (hcurrent : t.currentLabel = s.currentLabel)
      (hfinished : t.finishedLabel = s.finishedLabel)
  | pop (w : Fin n) (task : Task γ) (hw : s.workers w = .look) (hprogram : t.program = s.program)
      (hphase : t.phase = s.phase) (hpool : s.jobPool.contents = task :: t.jobPool.contents)
      (hworkers : t.workers = Function.update s.workers w (.run task)) (hexecuted : t.executed = s.executed)
      (hcurrent : t.currentLabel = s.currentLabel) (hfinished : t.finishedLabel = s.finishedLabel)
  | execute (w : Fin n) (task : Task γ) (hw : s.workers w = .run task) (hprogram : t.program = s.program)
      (hphase : t.phase = s.phase) (hpool : t.jobPool = s.jobPool)
      (hworkers : t.workers = Function.update s.workers w .count)
      (hexecuted : t.executed = s.executed ++ [task]) (hcurrent : t.currentLabel = s.currentLabel)
      (hfinished : t.finishedLabel = s.finishedLabel)
  | report (w : Fin n) (hw : s.workers w = .count) (hprogram : t.program = s.program)
      (hphase : t.phase = s.phase) (hpool : t.jobPool = s.jobPool)
      (hworkers : t.workers = Function.update s.workers w .look) (hexecuted : t.executed = s.executed)
      (hcurrent : t.currentLabel = s.currentLabel) (hfinished : t.finishedLabel = s.finishedLabel + 1)

@[simp] theorem pending_pushPhase (tasks : List (Task γ)) : Phase.pending (pushPhase tasks) = tasks := by
  cases tasks <;> rfl

theorem pending_afterNotify {phase phase' : Phase γ} (h : afterNotify phase = some phase') :
    Phase.pending phase' = Phase.pending phase := by
  cases phase with
  | notify tasks =>
    cases h
    exact pending_pushPhase tasks
  | poll task tasks =>
    cases h
    rfl
  | waitPoll =>
    cases h
    rfl
  | next | push task tasks | check => cases h

theorem setWorker_free {s : JobSystem γ n} {w : Fin n} {worker : Worker γ} (hw : Free (s.workers w))
    (hworker : Free worker) (v : Fin n) :
    (s.setWorker w worker).workers v = s.workers v ∨
      Free (s.workers v) ∧ Free ((s.setWorker w worker).workers v) := by
  by_cases hv : v = w
  · subst hv
    have hself : (s.setWorker v worker).workers v = worker := Function.update_self _ _ _
    rw [hself]
    exact .inr ⟨hw, hworker⟩
  · exact .inl (Function.update_of_ne hv _ _)

theorem work_change (s : JobSystem γ n) (w : Fin n) : Change s (s.work w) := by
  cases hw : s.workers w with
  | look =>
    cases hcontents : s.jobPool.contents with
    | nil =>
      have hwork : s.work w = s.setWorker w .doze := by
        simp [work, hw, RingBuffer.popFront_empty hcontents]
      rw [hwork]
      exact .nothing rfl rfl rfl (setWorker_free (hw ▸ .inl rfl) (.inr (.inl rfl))) rfl rfl rfl
    | cons task rest =>
      obtain ⟨pool, hpop, hrest⟩ := RingBuffer.popFront_cons hcontents
      have hwork : s.work w = { s with jobPool := pool }.setWorker w (.run task) := by
        simp [work, hw, hpop]
      rw [hwork]
      exact .pop w task hw rfl rfl (by rw [hcontents, ← hrest]; rfl) rfl rfl rfl rfl
  | run task =>
    have hwork : s.work w = { s with executed := s.executed ++ [task] }.setWorker w .count := by
      simp [work, hw]
    rw [hwork]
    exact .execute w task hw rfl rfl rfl rfl rfl rfl rfl
  | count =>
    have hwork : s.work w = { s with finishedLabel := s.finishedLabel + 1 }.setWorker w .look := by
      simp [work, hw]
    rw [hwork]
    exact .report w hw rfl rfl rfl rfl rfl rfl rfl
  | doze =>
    have hwork : s.work w = s.setWorker w .asleep := by simp [work, hw]
    rw [hwork]
    exact .nothing rfl rfl rfl (setWorker_free (hw ▸ .inr (.inl rfl)) (.inr (.inr rfl))) rfl rfl rfl
  | asleep =>
    have hwork : s.work w = s := by simp [work, hw]
    rw [hwork]
    exact .nothing rfl rfl rfl (fun _ => .inl rfl) rfl rfl rfl

theorem step_change {s t : JobSystem γ n} {a : Option (Agent n)} (h : Step s a t) : Change s t := by
  cases h with
  | idle => exact .nothing rfl rfl rfl (fun _ => .inl rfl) rfl rfl rfl
  | spurious w hw =>
    exact .nothing rfl rfl rfl (setWorker_free (hw ▸ .inr (.inr rfl)) (.inl rfl)) rfl rfl rfl
  | call c program hphase hprogram =>
    have hnone : Phase.pending s.phase = [] := by rw [hphase]; rfl
    cases c with
    | wait => exact .call .wait hprogram hnone rfl rfl rfl rfl (by simp [JobSystem.call, Call.labels]) rfl
    | execute job =>
      have hpending := pending_pushPhase (Call.execute job).tasks
      exact .call (.execute job) hprogram hnone hpending rfl rfl rfl rfl rfl
    | dispatch jobCount groupSize job =>
      have hpending := pending_pushPhase (Call.dispatch jobCount groupSize job).tasks
      exact .call (.dispatch jobCount groupSize job) hprogram hnone hpending rfl rfl rfl rfl rfl
  | push task tasks hphase =>
    have hpending : Phase.pending s.phase = task :: tasks := by rw [hphase]; rfl
    by_cases hroom : s.jobPool.size + 1 < 256
    · obtain ⟨pool, hpush, hcontents⟩ := RingBuffer.pushBack_room hroom task
      have hcall : s.pushTask task tasks = { s with jobPool := pool, phase := .notify tasks } := by
        simp [pushTask, hpush]
      rw [hcall]
      exact .push task rfl hpending hcontents rfl rfl rfl rfl
    · have hcall : s.pushTask task tasks = { s with phase := .poll task tasks } := by
        simp [pushTask, RingBuffer.pushBack_full hroom]
      rw [hcall]
      exact .nothing rfl hpending.symm rfl (fun _ => .inl rfl) rfl rfl rfl
  | notify t phase hphase hnotify =>
    have hpending := pending_afterNotify hphase
    cases hnotify with
    | nobody _ => exact .nothing rfl hpending rfl (fun _ => .inl rfl) rfl rfl rfl
    | wake w hw =>
      exact .nothing rfl hpending rfl (setWorker_free (hw ▸ .inr (.inr rfl)) (.inl rfl)) rfl rfl rfl
  | check hphase =>
    have hpending : ∀ busy : Bool, Phase.pending (if busy then .waitPoll else .next : Phase γ) =
        Phase.pending s.phase := by
      intro busy
      rw [hphase]
      cases busy <;> rfl
    exact .nothing rfl (hpending s.isBusy) rfl (fun _ => .inl rfl) rfl rfl rfl
  | work w _ => exact work_change s w

section Sums

variable {M : Type} [AddCommMonoid M]

/-- A worker that changes takes its part out of a sum over all workers and brings its own. -/
theorem sum_update (f : Worker γ → M) (workers : Fin n → Worker γ) (w : Fin n) (worker : Worker γ) :
    ∑ v, f (Function.update workers w worker v) + f (workers w) = ∑ v, f (workers v) + f worker := by
  have hnew := Finset.add_sum_erase Finset.univ (fun v => f (Function.update workers w worker v))
    (Finset.mem_univ w)
  have hold := Finset.add_sum_erase Finset.univ (fun v => f (workers v)) (Finset.mem_univ w)
  have hrest : ∑ v ∈ Finset.univ.erase w, f (Function.update workers w worker v) =
      ∑ v ∈ Finset.univ.erase w, f (workers v) := by
    apply Finset.sum_congr rfl
    intro v hv
    rw [Function.update_of_ne (Finset.ne_of_mem_erase hv)]
  simp only [Function.update_self] at hnew
  rw [← hnew, ← hold, hrest]
  abel

theorem sum_free {f : Worker γ → M} (hf : ∀ worker, Free worker → f worker = 0)
    {workers workers' : Fin n → Worker γ}
    (h : ∀ w, workers' w = workers w ∨ Free (workers w) ∧ Free (workers' w)) :
    ∑ w, f (workers' w) = ∑ w, f (workers w) := by
  apply Finset.sum_congr rfl
  intro w _
  cases h w with
  | inl hsame => rw [hsame]
  | inr hfree => rw [hf _ hfree.1, hf _ hfree.2]

end Sums

theorem hand_free {worker : Worker γ} (h : Free worker) : hand worker = 0 := by
  rcases h with rfl | rfl | rfl <;> rfl

theorem unreported_free {worker : Worker γ} (h : Free worker) : unreported worker = 0 := by
  rcases h with rfl | rfl | rfl <;> rfl

/-- No step loses or duplicates a job. -/
theorem places_step {s t : JobSystem γ n} {a : Option (Agent n)} (h : Step s a t) :
    t.places = s.places := by
  cases step_change h with
  | nothing hprogram hpending hpool hworkers hexecuted =>
    simp only [places, hprogram, hpending, hpool, hexecuted, sum_free (fun _ => hand_free) hworkers]
  | call c hprogram hnone hpending hpool hworkers hexecuted =>
    simp only [places, hprogram, hnone, hpending, hpool, hexecuted, hworkers, toCome, List.flatMap_cons,
      ← Multiset.coe_add, Multiset.coe_nil]
    abel
  | push task hprogram hpending hpool hworkers hexecuted =>
    simp only [places, hprogram, hpending, hpool, hexecuted, hworkers, ← Multiset.coe_add,
      ← Multiset.cons_coe, ← Multiset.singleton_add, Multiset.coe_nil]
    abel
  | pop w task hw hprogram hphase hpool hworkers hexecuted =>
    have hsum := sum_update hand s.workers w (.run task)
    rw [hw] at hsum
    simp only [hand_run, hand_look, add_zero] at hsum
    simp only [places, hprogram, hphase, hpool, hexecuted, hworkers, hsum, ← Multiset.cons_coe,
      ← Multiset.singleton_add]
    abel
  | execute w task hw hprogram hphase hpool hworkers hexecuted =>
    have hsum := sum_update hand s.workers w .count
    rw [hw] at hsum
    simp only [hand_run, hand_count, add_zero] at hsum
    simp only [places, hprogram, hphase, hpool, hexecuted, hworkers, ← hsum, ← Multiset.coe_add,
      ← Multiset.cons_coe, ← Multiset.singleton_add, Multiset.coe_nil]
    abel
  | report w hw hprogram hphase hpool hworkers hexecuted =>
    have hsum := sum_update hand s.workers w .look
    rw [hw] at hsum
    simp only [hand_look, hand_count, add_zero] at hsum
    simp only [places, hprogram, hphase, hpool, hexecuted, hworkers, hsum]

/-! ## The labels -/

theorem labels_eq (c : Call γ) : c.labels = UInt64.ofNat c.tasks.length := by
  cases c with
  | execute job => rfl
  | wait => rfl
  | dispatch jobCount groupSize job =>
    simp only [Call.labels, Call.tasks, List.length_map, jobGroups]
    split
    · rfl
    · simp [loopIndices]

/-- What a step does to the number of jobs that are not reported. -/
theorem outstanding_change {s t : JobSystem γ n} (h : Change s t) :
    (t.finishedLabel = s.finishedLabel ∧ t.currentLabel = s.currentLabel ∧
      t.outstanding = s.outstanding ∧ (toCome t.program).length = (toCome s.program).length) ∨
    (∃ c : Call γ, s.program = c :: t.program ∧ t.finishedLabel = s.finishedLabel ∧
      t.currentLabel = s.currentLabel + c.labels ∧ t.outstanding = s.outstanding + c.tasks.length) ∨
    (t.finishedLabel = s.finishedLabel + 1 ∧ t.currentLabel = s.currentLabel ∧
      t.outstanding + 1 = s.outstanding ∧ t.program = s.program) := by
  cases h with
  | nothing hprogram hpending hpool hworkers _ hcurrent hfinished =>
    have hsum := sum_free (fun _ => unreported_free) hworkers
    have hsize : t.jobPool.size = s.jobPool.size := RingBuffer.size_congr hpool
    exact .inl ⟨hfinished, hcurrent, by simp only [outstanding, hpending, hsize, hsum], by rw [hprogram]⟩
  | call c hprogram hnone hpending hpool hworkers _ hcurrent hfinished =>
    refine .inr (.inl ⟨c, hprogram, hfinished, hcurrent, ?_⟩)
    simp only [outstanding, hnone, hpending, RingBuffer.size_congr hpool, hworkers, List.length_nil]
    omega
  | push task hprogram hpending hpool hworkers _ hcurrent hfinished =>
    have hmore : t.jobPool.size = s.jobPool.size + 1 := RingBuffer.size_of_concat hpool
    refine .inl ⟨hfinished, hcurrent, ?_, by rw [hprogram]⟩
    simp only [outstanding, hpending, hmore, hworkers, List.length_cons]
    omega
  | pop w task hw hprogram hphase hpool hworkers _ hcurrent hfinished =>
    have hless : s.jobPool.size = t.jobPool.size + 1 := RingBuffer.size_of_cons hpool
    have hsum := sum_update unreported s.workers w (.run task)
    rw [hw] at hsum
    simp only [unreported_look, unreported_run] at hsum
    refine .inl ⟨hfinished, hcurrent, ?_, by rw [hprogram]⟩
    simp only [outstanding, hphase, hless, hworkers]
    omega
  | execute w task hw hprogram hphase hpool hworkers _ hcurrent hfinished =>
    have hsum := sum_update unreported s.workers w .count
    rw [hw] at hsum
    simp only [unreported_run, unreported_count] at hsum
    refine .inl ⟨hfinished, hcurrent, ?_, by rw [hprogram]⟩
    simp only [outstanding, hphase, hpool, hworkers]
    omega
  | report w hw hprogram hphase hpool hworkers _ hcurrent hfinished =>
    have hsum := sum_update unreported s.workers w .look
    rw [hw] at hsum
    simp only [unreported_look, unreported_count] at hsum
    refine .inr (.inr ⟨hfinished, hcurrent, ?_, hprogram⟩)
    simp only [outstanding, hphase, hpool, hworkers]
    omega

/-- The labels count the jobs of the calls made so far and those of them that are reported,
where `total` are all jobs of the program. -/
def Labelled (total : Nat) (s : JobSystem γ n) : Prop :=
  ∃ finished, s.finishedLabel = UInt64.ofNat finished ∧
    s.currentLabel = UInt64.ofNat (finished + s.outstanding) ∧
    finished + s.outstanding + (toCome s.program).length = total

theorem labelled_onInit (program : List (Call γ)) :
    Labelled (toCome program).length (onInit program : JobSystem γ n) := by
  have hnone : (onInit program : JobSystem γ n).outstanding = 0 := by
    simp [outstanding, onInit, Phase.pending, RingBuffer.size]
  exact ⟨0, rfl, by rw [hnone]; rfl, by rw [hnone]; simp [onInit]⟩

theorem labelled_step {total : Nat} {s t : JobSystem γ n} {a : Option (Agent n)} (h : Labelled total s)
    (hstep : Step s a t) : Labelled total t := by
  obtain ⟨finished, hfinished, hcurrent, htotal⟩ := h
  rcases outstanding_change (step_change hstep) with hsame | hcall | hreport
  · obtain ⟨hf, hc, ho, hp⟩ := hsame
    exact ⟨finished, hf.trans hfinished, by rw [hc, hcurrent, ho], by rw [ho, hp, htotal]⟩
  · obtain ⟨c, hp, hf, hc, ho⟩ := hcall
    refine ⟨finished, hf.trans hfinished, ?_, ?_⟩
    · rw [hc, hcurrent, ho, labels_eq, ← UInt64.ofNat_add, Nat.add_assoc]
    · rw [hp, toCome, List.flatMap_cons, List.length_append] at htotal
      rw [ho, ← htotal, toCome]
      omega
  · obtain ⟨hf, hc, ho, hp⟩ := hreport
    refine ⟨finished + 1, ?_, ?_, ?_⟩
    · rw [hf, hfinished, UInt64.ofNat_add]
      rfl
    · rw [hc, hcurrent, ← ho]
      congr 1
      omega
    · rw [hp]
      omega

/-- As long as fewer than 2⁶⁴ jobs are counted, the workers are busy exactly while there
is something left to do. -/
theorem isBusy_iff {total : Nat} {s : JobSystem γ n} (h : Labelled total s) (htotal : total < 2 ^ 64) :
    s.isBusy = true ↔ 0 < s.outstanding := by
  obtain ⟨finished, hfinished, hcurrent, hsum⟩ := h
  rw [isBusy, decide_eq_true_eq, UInt64.lt_iff_toNat_lt, hfinished, hcurrent, UInt64.toNat_ofNat',
    UInt64.toNat_ofNat', Nat.mod_eq_of_lt (by omega), Nat.mod_eq_of_lt (by omega)]
  omega

/-- With nothing left to do, the jobs of all calls made so far are executed. -/
theorem places_of_quiet {s : JobSystem γ n} (h : s.outstanding = 0) :
    s.places = toCome s.program + s.executed := by
  simp only [outstanding, Nat.add_eq_zero_iff] at h
  obtain ⟨⟨hpending, hpool⟩, hworkers⟩ := h
  have hpending' : Phase.pending s.phase = [] := List.eq_nil_of_length_eq_zero hpending
  have hpool' : s.jobPool.contents = [] := by
    apply List.eq_nil_of_length_eq_zero
    rw [RingBuffer.length_contents, hpool]
  have hhands : ∑ w, hand (s.workers w) = 0 := by
    apply Finset.sum_eq_zero
    intro w hw
    have hunreported : unreported (s.workers w) = 0 := (Finset.sum_eq_zero_iff.mp hworkers) w hw
    cases hworker : s.workers w with
    | run job =>
      rw [hworker] at hunreported
      cases hunreported
    | look | count | doze | asleep => rfl
  simp only [places, hpending', hpool', hhands, Multiset.coe_nil, add_zero]

end JobSystem

end Lumos.Core
