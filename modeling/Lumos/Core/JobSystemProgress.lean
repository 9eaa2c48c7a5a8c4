import Lumos.Core.JobSystemRuns

/-!
# What the workers get done

A job that is pushed between a worker's look into the pool and its wait for the condition
variable wakes nobody up. It is executed all the same if the thread calls `Wait` later on,
which goes on notifying as long as the labels differ.
-/
namespace Lumos.Core

variable {γ : Type} {n : Nat}

namespace JobSystem

/-! ## What is left to do -/

def callWork (c : Call γ) : Nat := 6 * c.tasks.length + 2

def phaseWork : Phase γ → Nat
  | .next => 0
  | .push _ tasks | .poll _ tasks => 6 * tasks.length + 6
  | .notify tasks => 6 * tasks.length + 1
  | .check | .waitPoll => 1

def workerWork : Worker γ → Nat
  | .run _ => 2
  | .count => 1
  | .look | .doze | .asleep => 0

/-- Grows with every step that is still to be taken, those on the way to sleep and those of
a loop that polls apart. -/
def workLeft (s : JobSystem γ n) : Nat :=
  (s.program.map callWork).sum + phaseWork s.phase + 4 * s.jobPool.size + ∑ w, workerWork (s.workers w)

/-- In one of the two loops that poll. -/
def Asks : Phase γ → Prop
  | .push _ _ | .check => True
  | .next | .poll _ _ | .notify _ | .waitPoll => False

def Polls : Phase γ → Prop
  | .poll _ _ | .waitPoll => True
  | .next | .push _ _ | .notify _ | .check => False

/-- The steps that get nothing done. -/
inductive Lazy (s : JobSystem γ n) : Option (Agent n) → JobSystem γ n → Prop where
  | idle : Lazy s none s
  | spurious (w : Fin n) (h : s.workers w = .asleep) : Lazy s none (s.setWorker w .look)
  | full (task : Task γ) (tasks : List (Task γ)) (h : s.phase = .push task tasks)
      (hfull : ¬ s.jobPool.size + 1 < 256) :
      Lazy s (some .dispatcher) { s with phase := .poll task tasks }
  | poll (t : JobSystem γ n) (phase : Phase γ) (hpolls : Polls s.phase)
      (h : afterNotify s.phase = some phase) (hnotify : NotifyOne s t) :
      Lazy s (some .dispatcher) { t with phase }
  | busy (h : s.phase = .check) (hbusy : s.isBusy = true) :
      Lazy s (some .dispatcher) { s with phase := .waitPoll }
  | doze (w : Fin n) (h : s.workers w = .look) (hempty : s.jobPool.contents = []) :
      Lazy s (some (.worker w)) (s.setWorker w .doze)
  | sleep (w : Fin n) (h : s.workers w = .doze) : Lazy s (some (.worker w)) (s.setWorker w .asleep)

@[simp] theorem phaseWork_next : phaseWork (.next : Phase γ) = 0 := rfl

@[simp] theorem phaseWork_notify (tasks : List (Task γ)) :
    phaseWork (.notify tasks) = 6 * tasks.length + 1 := rfl

@[simp] theorem phaseWork_check : phaseWork (.check : Phase γ) = 1 := rfl

@[simp] theorem phaseWork_pushPhase (tasks : List (Task γ)) :
    phaseWork (pushPhase tasks) = 6 * tasks.length := by
  cases tasks with
  | nil => rfl
  | cons task tasks =>
    simp only [pushPhase, phaseWork, List.length_cons]
    omega

theorem workLeft_setWorker (s : JobSystem γ n) (w : Fin n) (worker : Worker γ) :
    (s.setWorker w worker).workLeft + workerWork (s.workers w) = s.workLeft + workerWork worker := by
  have hsum := sum_update workerWork s.workers w worker
  simp only [workLeft, setWorker]
  omega

theorem workLeft_notifyOne {s t : JobSystem γ n} (h : NotifyOne s t) : t.workLeft = s.workLeft := by
  cases h with
  | nobody _ => rfl
  | wake w hw =>
    have hwork := workLeft_setWorker s w .look
    rw [hw] at hwork
    exact hwork

theorem notifyOne_phase {s t : JobSystem γ n} (h : NotifyOne s t) : t.phase = s.phase := by
  cases h <;> rfl

theorem workLeft_phase (s : JobSystem γ n) (phase : Phase γ) :
    { s with phase }.workLeft + phaseWork s.phase = s.workLeft + phaseWork phase := by
  simp only [workLeft]
  omega

theorem workLeft_call {s : JobSystem γ n} {c : Call γ} {program : List (Call γ)} (hphase : s.phase = .next)
    (hprogram : s.program = c :: program) : (s.call program c).workLeft < s.workLeft := by
  cases c with
  | wait =>
    simp only [workLeft, call, hphase, hprogram, phaseWork_next, phaseWork_check, List.map_cons,
      List.sum_cons, callWork]
    omega
  | execute job | dispatch jobCount groupSize job =>
    simp only [workLeft, call, hphase, hprogram, phaseWork_next, phaseWork_pushPhase, List.map_cons,
      List.sum_cons, callWork]
    omega

/-- A worker gets something done unless it finds no job or goes to sleep. -/
theorem work_workLeft (s : JobSystem γ n) (w : Fin n) (hw : s.workers w ≠ .asleep) :
    (s.work w).workLeft < s.workLeft ∨ Lazy s (some (.worker w)) (s.work w) := by
  cases hworker : s.workers w with
  | look =>
    cases hcontents : s.jobPool.contents with
    | nil =>
      right
      have hwork : s.work w = s.setWorker w .doze := by
        simp [work, hworker, RingBuffer.popFront_empty hcontents]
      rw [hwork]
      exact .doze w hworker hcontents
    | cons task rest =>
      left
      obtain ⟨pool, hpop, hrest⟩ := RingBuffer.popFront_cons hcontents
      have hwork : s.work w = { s with jobPool := pool }.setWorker w (.run task) := by
        simp [work, hworker, hpop]
      have hsize : s.jobPool.size = pool.size + 1 := RingBuffer.size_of_cons (hcontents.trans (by rw [hrest]))
      have hset := workLeft_setWorker { s with jobPool := pool } w (.run task)
      have hpool : { s with jobPool := pool }.workLeft + 4 = s.workLeft := by
        simp only [workLeft, hsize]
        omega
      rw [hwork]
      simp only [hworker, workerWork] at hset
      omega
  | run task =>
    left
    have hwork : s.work w = { s with executed := s.executed ++ [task] }.setWorker w .count := by
      simp [work, hworker]
    have hset := workLeft_setWorker { s with executed := s.executed ++ [task] } w .count
    have hsame : { s with executed := s.executed ++ [task] }.workLeft = s.workLeft := rfl
    rw [hwork]
    simp only [hworker, workerWork] at hset
    omega
  | count =>
    left
    have hwork : s.work w = { s with finishedLabel := s.finishedLabel + 1 }.setWorker w .look := by
      simp [work, hworker]
    have hset := workLeft_setWorker { s with finishedLabel := s.finishedLabel + 1 } w .look
    have hsame : { s with finishedLabel := s.finishedLabel + 1 }.workLeft = s.workLeft := rfl
    rw [hwork]
    simp only [hworker, workerWork] at hset
    omega
  | doze =>
    right
    have hwork : s.work w = s.setWorker w .asleep := by simp [work, hworker]
    rw [hwork]
    exact .sleep w hworker
  | asleep => exact absurd hworker hw

theorem step_workLeft {s t : JobSystem γ n} {a : Option (Agent n)} (h : Step s a t) :
    t.workLeft < s.workLeft ∨ Lazy s a t := by
  cases h with
  | idle => exact .inr .idle
  | spurious w hw => exact .inr (.spurious w hw)
  | call c program hphase hprogram => exact .inl (workLeft_call hphase hprogram)
  | push task tasks hphase =>
    by_cases hroom : s.jobPool.size + 1 < 256
    · left
      obtain ⟨pool, hpush, hcontents⟩ := RingBuffer.pushBack_room hroom task
      have hcall : s.pushTask task tasks = { s with jobPool := pool, phase := .notify tasks } := by
        simp [pushTask, hpush]
      have hsize : pool.size = s.jobPool.size + 1 := RingBuffer.size_of_concat hcontents
      rw [hcall]
      simp only [workLeft, hphase, phaseWork, hsize]
      omega
    · right
      have hcall : s.pushTask task tasks = { s with phase := .poll task tasks } := by
        simp [pushTask, RingBuffer.pushBack_full hroom]
      rw [hcall]
      exact .full task tasks hphase hroom
  | notify t phase hphase hnotify =>
    have hwork := workLeft_phase t phase
    have hsame := workLeft_notifyOne hnotify
    have hkept := notifyOne_phase hnotify
    cases hs : s.phase with
    | notify tasks =>
      left
      rw [hs] at hphase hkept
      cases hphase
      rw [hkept] at hwork
      simp only [phaseWork_notify, phaseWork_pushPhase] at hwork
      omega
    | poll task tasks | waitPoll => exact .inr (.poll t phase (by rw [hs]; trivial) hphase hnotify)
    | next | push task tasks | check =>
      rw [hs] at hphase
      cases hphase
  | check hphase =>
    cases hbusy : s.isBusy with
    | true => exact .inr (.busy hphase hbusy)
    | false =>
      left
      have hwork := workLeft_phase s .next
      rw [hphase] at hwork
      simp only [phaseWork] at hwork
      simp only [Bool.false_eq_true, if_false]
      omega
  | work w hw => exact work_workLeft s w hw

theorem lazy_workLeft {s t : JobSystem γ n} {a : Option (Agent n)} (h : Lazy s a t) :
    t.workLeft = s.workLeft := by
  cases h with
  | idle => rfl
  | spurious w hw => exact workLeft_notifyOne (.wake w hw)
  | full task tasks hphase _ =>
    have hwork := workLeft_phase s (.poll task tasks)
    rw [hphase] at hwork
    exact Nat.add_right_cancel hwork
  | poll t phase hpolls hphase hnotify =>
    have hwork := workLeft_phase t phase
    have hsame := workLeft_notifyOne hnotify
    have hkept := notifyOne_phase hnotify
    have hweight : phaseWork phase = phaseWork s.phase := by
      cases hs : s.phase with
      | poll task tasks | waitPoll =>
        rw [hs] at hphase
        cases hphase
        rfl
      | next | push task tasks | notify tasks | check =>
        rw [hs] at hpolls
        cases hpolls
    rw [hkept] at hwork
    omega
  | busy hphase _ =>
    have hwork := workLeft_phase s .waitPoll
    rw [hphase] at hwork
    exact Nat.add_right_cancel hwork
  | doze w hw _ =>
    have hwork := workLeft_setWorker s w .doze
    rw [hw] at hwork
    exact hwork
  | sleep w hw =>
    have hwork := workLeft_setWorker s w .asleep
    rw [hw] at hwork
    exact hwork

theorem step_workLeft_le {s t : JobSystem γ n} {a : Option (Agent n)} (h : Step s a t) :
    t.workLeft ≤ s.workLeft := by
  cases step_workLeft h with
  | inl hless => exact Nat.le_of_lt hless
  | inr hlazy => exact Nat.le_of_eq (lazy_workLeft hlazy)

/-! ## Steps that get nothing done -/

theorem lazy_pool {s t : JobSystem γ n} {a : Option (Agent n)} (h : Lazy s a t) :
    t.jobPool = s.jobPool := by
  cases h with
  | poll t phase hpolls hphase hnotify => cases hnotify <;> rfl
  | idle | spurious w hw | full task tasks hphase hfull | busy hphase hbusy | doze w hw hempty | sleep w hw =>
    rfl

theorem lazy_phase {s t : JobSystem γ n} {a : Option (Agent n)} (h : Lazy s a t)
    (ha : a ≠ some .dispatcher) : t.phase = s.phase := by
  cases h with
  | full task tasks hphase hfull => exact absurd rfl ha
  | poll t phase hpolls hphase hnotify => exact absurd rfl ha
  | busy hphase hbusy => exact absurd rfl ha
  | idle | spurious w hw | doze w hw hempty | sleep w hw => rfl

theorem notifyOne_workers {s t : JobSystem γ n} (h : NotifyOne s t) (w : Fin n) :
    t.workers w = s.workers w ∨ s.workers w = .asleep ∧ t.workers w = .look := by
  cases h with
  | nobody _ => exact .inl rfl
  | wake v hv =>
    by_cases hvw : w = v
    · subst hvw
      exact .inr ⟨hv, Function.update_self _ _ _⟩
    · exact .inl (Function.update_of_ne hvw _ _)

/-- A worker that does not act is at most woken up. -/
theorem lazy_workers {s t : JobSystem γ n} {a : Option (Agent n)} (h : Lazy s a t) {w : Fin n}
    (ha : a ≠ some (.worker w)) :
    t.workers w = s.workers w ∨ s.workers w = .asleep ∧ t.workers w = .look := by
  cases h with
  | idle | full task tasks hphase hfull | busy hphase hbusy => exact .inl rfl
  | spurious v hv => exact notifyOne_workers (.wake v hv) w
  | poll u phase hpolls hphase hnotify => exact notifyOne_workers hnotify w
  | doze v hv _ | sleep v hv =>
    have hvw : w ≠ v := fun hvw => ha (by rw [hvw])
    exact .inl (Function.update_of_ne hvw _ _)

theorem lazy_worker {s t : JobSystem γ n} {w : Fin n} (h : Lazy s (some (.worker w)) t) :
    s.workers w = .look ∧ s.jobPool.contents = [] ∨ s.workers w = .doze ∧ t.workers w = .asleep := by
  cases h with
  | doze _ hw hempty => exact .inl ⟨hw, hempty⟩
  | sleep _ hw => exact .inr ⟨hw, Function.update_self _ _ _⟩

/-- The thread is in a loop that polls. -/
theorem lazy_dispatcher {s t : JobSystem γ n} (h : Lazy s (some .dispatcher) t) :
    Asks s.phase ∧ Polls t.phase ∨ Polls s.phase ∧ Asks t.phase := by
  cases h with
  | full task tasks hphase hfull => exact .inl ⟨by rw [hphase]; trivial, trivial⟩
  | busy hphase hbusy => exact .inl ⟨by rw [hphase]; trivial, trivial⟩
  | poll u phase hpolls hphase hnotify =>
    right
    cases hs : s.phase with
    | poll task tasks | waitPoll =>
      rw [hs] at hphase
      cases hphase
      exact ⟨trivial, trivial⟩
    | next | push task tasks | notify tasks | check =>
      rw [hs] at hpolls
      cases hpolls

theorem lazy_asks {s t : JobSystem γ n} (h : Lazy s (some .dispatcher) t) (hasks : Asks s.phase) :
    ¬ s.jobPool.size + 1 < 256 ∨ s.phase = .check ∧ s.isBusy = true := by
  cases h with
  | full task tasks hphase hfull => exact .inl hfull
  | busy hphase hbusy => exact .inr ⟨hphase, hbusy⟩
  | poll u phase hpolls hphase hnotify =>
    cases hs : s.phase with
    | push task tasks | check =>
      rw [hs] at hpolls
      cases hpolls
    | next | notify tasks | poll task tasks | waitPoll =>
      rw [hs] at hasks
      cases hasks

/-- Polling wakes a worker up if one sleeps. -/
theorem lazy_polls {s t : JobSystem γ n} (h : Lazy s (some .dispatcher) t) (hpolls : Polls s.phase) {w : Fin n}
    (hw : s.workers w = .asleep) : ∃ v, t.workers v = .look := by
  cases h with
  | full task tasks hphase hfull =>
    rw [hphase] at hpolls
    cases hpolls
  | busy hphase hbusy =>
    rw [hphase] at hpolls
    cases hpolls
  | poll u phase _ hphase hnotify =>
    cases hnotify with
    | nobody hnobody => exact absurd hw (hnobody w)
    | wake v hv => exact ⟨v, Function.update_self _ _ _⟩

/-! ## Runs that get nothing more done -/

variable {program : List (Call γ)} {ρ : Run n program} {N : Nat}

/-- From some turn on nothing gets done any more. -/
theorem eventually_lazy (ρ : Run n program) :
    ∃ N, ∀ m, N ≤ m → Lazy (ρ.state m) (ρ.acts m) (ρ.state (m + 1)) := by
  obtain ⟨N, hN⟩ := ρ.settles workLeft fun _ _ _ => step_workLeft_le
  refine ⟨N, fun m hm => ?_⟩
  have hthis := hN m hm
  have hnext := hN (m + 1) (by omega)
  cases step_workLeft (ρ.next m) with
  | inl hless => omega
  | inr hlazy => exact hlazy

section Lazy

variable (hfair : ρ.Fair Enabled) (hlazy : ∀ m, N ≤ m → Lazy (ρ.state m) (ρ.acts m) (ρ.state (m + 1)))

include hlazy

theorem pool_kept {m : Nat} (hm : N ≤ m) : (ρ.state m).jobPool = (ρ.state N).jobPool := by
  induction m, hm using Nat.le_induction with
  | base => rfl
  | succ m hm ih => rw [lazy_pool (hlazy m hm), ih]

include hfair

/-- A worker that does not sleep acts, and nobody else does anything to it before. -/
theorem worker_acts {m : Nat} (hm : N ≤ m) {w : Fin n} {worker : Worker γ} (hworker : worker ≠ .asleep)
    (hw : (ρ.state m).workers w = worker) :
    ∃ k, m ≤ k ∧ (ρ.state k).workers w = worker ∧ ρ.acts k = some (.worker w) := by
  apply hfair.acts (P := fun s => s.workers w = worker)
  · intro k hk hP hacts
    cases lazy_workers (hlazy k (Nat.le_trans hm hk)) hacts with
    | inl hsame => exact hsame.trans hP
    | inr hwoken => exact absurd (hP.symm.trans hwoken.1) hworker
  · intro s hP hasleep
    exact hworker (hP.symm.trans hasleep)
  · exact hw

theorem workers_free {m : Nat} (hm : N ≤ m) (w : Fin n) : Free ((ρ.state m).workers w) := by
  cases hw : (ρ.state m).workers w with
  | look => exact .inl rfl
  | doze => exact .inr (.inl rfl)
  | asleep => exact .inr (.inr rfl)
  | run job | count =>
    obtain ⟨k, hk, hstill, hacts⟩ := worker_acts hfair hlazy hm (by simp) hw
    have hstep := hlazy k (Nat.le_trans hm hk)
    rw [hacts] at hstep
    rcases lazy_worker hstep with hlook | hdoze
    · exact absurd (hlook.1.symm.trans hstill) (by simp)
    · exact absurd (hdoze.1.symm.trans hstill) (by simp)

/-- With a job in the pool no worker is about to look for one. -/
theorem nobody_looks (hpool : (ρ.state N).jobPool.contents ≠ []) {m : Nat} (hm : N ≤ m) (w : Fin n) :
    (ρ.state m).workers w ≠ .look := by
  intro hw
  obtain ⟨k, hk, hstill, hacts⟩ := worker_acts hfair hlazy hm (by simp) hw
  have hN := Nat.le_trans hm hk
  have hstep := hlazy k hN
  rw [hacts] at hstep
  rcases lazy_worker hstep with hlook | hdoze
  · apply hpool
    rw [← pool_kept hlazy hN]
    exact hlook.2
  · exact absurd (hdoze.1.symm.trans hstill) (by simp)

/-- So every worker falls asleep for good. -/
theorem eventually_asleep (hpool : (ρ.state N).jobPool.contents ≠ []) (w : Fin n) :
    ∃ k, N ≤ k ∧ ∀ m, k ≤ m → (ρ.state m).workers w = .asleep := by
  have hfalls : ∃ k, N ≤ k ∧ (ρ.state k).workers w = .asleep := by
    rcases workers_free hfair hlazy (Nat.le_refl N) w with hlook | hdoze | hasleep
    · exact absurd hlook (nobody_looks hfair hlazy hpool (Nat.le_refl N) w)
    · obtain ⟨k, hk, hstill, hacts⟩ := worker_acts hfair hlazy (Nat.le_refl N) (by simp) hdoze
      have hstep := hlazy k hk
      rw [hacts] at hstep
      rcases lazy_worker hstep with hlook | hslept
      · exact absurd (hlook.1.symm.trans hstill) (by simp)
      · exact ⟨k + 1, by omega, hslept.2⟩
    · exact ⟨N, Nat.le_refl N, hasleep⟩
  obtain ⟨k, hk, hasleep⟩ := hfalls
  refine ⟨k, hk, fun m hm => ?_⟩
  induction m, hm using Nat.le_induction with
  | base => exact hasleep
  | succ m hm ih =>
    have hstep := hlazy m (Nat.le_trans hk hm)
    by_cases hacts : ρ.acts m = some (.worker w)
    · rw [hacts] at hstep
      rcases lazy_worker hstep with hlook | hdoze
      · exact absurd (hlook.1.symm.trans ih) (by simp)
      · exact hdoze.2
    · cases lazy_workers hstep hacts with
      | inl hsame => exact hsame.trans ih
      | inr hwoken => exact absurd hwoken.2 (nobody_looks hfair hlazy hpool (by omega) w)

/-- A thread that never comes to rest goes round a loop that polls. -/
theorem asks_and_polls (hbusy : ∀ m, N ≤ m → Enabled .dispatcher (ρ.state m)) {m : Nat} (hm : N ≤ m) :
    (∃ k, m ≤ k ∧ ρ.acts k = some .dispatcher ∧ Asks (ρ.state k).phase) ∧
      ∃ k, m ≤ k ∧ ρ.acts k = some .dispatcher ∧ Polls (ρ.state k).phase := by
  obtain ⟨k, hk, hacts⟩ := hfair .dispatcher m fun k hk => hbusy k (Nat.le_trans hm hk)
  have hstep := hlazy k (Nat.le_trans hm hk)
  rw [hacts] at hstep
  have hagain : ∀ {P : Phase γ → Prop}, ¬ P .next → P (ρ.state (k + 1)).phase →
      ∃ l, m ≤ l ∧ ρ.acts l = some .dispatcher ∧ P (ρ.state l).phase := by
    intro P hnext hP
    obtain ⟨l, hl, hPl, hactsl⟩ := hfair.acts (P := fun s => P s.phase) (a := .dispatcher) (k := k + 1)
      (fun l hl hPl hidle => by
        rw [lazy_phase (hlazy l (by omega)) hidle]
        exact hPl)
      (fun s hPs => .inl fun hs => hnext (hs ▸ hPs)) hP
    exact ⟨l, by omega, hactsl, hPl⟩
  rcases lazy_dispatcher hstep with hask | hpoll
  · exact ⟨⟨k, hk, hacts, hask.1⟩, hagain id hask.2⟩
  · exact ⟨hagain id hpoll.2, ⟨k, hk, hacts, hpoll.1⟩⟩

end Lazy

/-! ## The thread comes to rest -/

/-- In a fair run the thread makes all its calls and returns from them: neither a full pool
nor a worker that missed its notification keeps it in a loop. -/
theorem comes_to_rest (hn : 0 < n) (hbound : (toCome program).length < 2 ^ 64) (ρ : Run n program)
    (hfair : ρ.Fair Enabled) : ∃ k, (ρ.state k).phase = .next ∧ (ρ.state k).program = [] := by
  obtain ⟨N, hlazy⟩ := eventually_lazy ρ
  by_contra hnever
  have hbusy : ∀ m, N ≤ m → Enabled .dispatcher (ρ.state m) := by
    intro m _
    by_contra hrest
    simp only [Enabled, not_or, not_not] at hrest
    exact hnever ⟨m, hrest⟩
  by_cases hpool : (ρ.state N).jobPool.contents = []
  · obtain ⟨m, hm, hacts, hasks⟩ := (asks_and_polls hfair hlazy hbusy (Nat.le_refl N)).1
    have hstep := hlazy m hm
    rw [hacts] at hstep
    have hsize : (ρ.state m).jobPool.size = 0 := by
      rw [pool_kept hlazy hm, ← RingBuffer.length_contents, hpool]
      rfl
    rcases lazy_asks hstep hasks with hfull | ⟨hcheck, hisBusy⟩
    · omega
    · have hlabelled := ρ.invariant (Labelled _) (labelled_onInit program)
        (fun _ _ _ h hstep => labelled_step h hstep) m
      have hpositive := (isBusy_iff hlabelled hbound).mp hisBusy
      have hworkers : ∑ w, unreported ((ρ.state m).workers w) = 0 :=
        Finset.sum_eq_zero fun w _ => unreported_free (workers_free hfair hlazy hm w)
      simp only [outstanding, hcheck, Phase.pending, hsize, hworkers] at hpositive
      exact Nat.lt_irrefl 0 hpositive
  · obtain ⟨k, hk, hasleep⟩ := eventually_asleep hfair hlazy hpool ⟨0, hn⟩
    obtain ⟨m, hm, hacts, hpolls⟩ := (asks_and_polls hfair hlazy hbusy hk).2
    have hstep := hlazy m (Nat.le_trans hk hm)
    rw [hacts] at hstep
    obtain ⟨v, hv⟩ := lazy_polls hstep hpolls (hasleep m hm)
    exact nobody_looks hfair hlazy hpool (by omega) v hv

end JobSystem

end Lumos.Core
