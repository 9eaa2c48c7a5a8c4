import Mathlib.Tactic.FinCases
import Lumos.Core.JobSystemProgress

/-!
# Jobs are executed exactly once

No run loses or duplicates a job, but one that is pushed after the last `Wait` may stay in
the pool for ever: a worker that has just found the pool empty is not waiting yet when it
should be notified.
-/
namespace Lumos.Core

variable {γ : Type} {n : Nat} {program : List (Call γ)}

namespace JobSystem

/-- Every call that pushes jobs is followed by a `Wait`. -/
def WaitsFor : List (Call γ) → Prop
  | [] => True
  | c :: program => (c.tasks ≠ [] → .wait ∈ program) ∧ WaitsFor program

/-- As long as there is something left to do, the thread waits for it or is going to. -/
def Awaited (s : JobSystem γ n) : Prop :=
  WaitsFor s.program ∧
    (0 < s.outstanding → .wait ∈ s.program ∨ s.phase = .check ∨ s.phase = .waitPoll)

theorem outstanding_onInit : (onInit program : JobSystem γ n).outstanding = 0 := by
  simp [outstanding, onInit, Phase.pending, RingBuffer.size]

theorem awaited_onInit (h : WaitsFor program) : Awaited (onInit program : JobSystem γ n) := by
  refine ⟨h, fun hpositive => ?_⟩
  rw [outstanding_onInit] at hpositive
  exact absurd hpositive (Nat.lt_irrefl 0)

theorem awaited_call {s : JobSystem γ n} {c : Call γ} {rest : List (Call γ)} (h : Awaited s)
    (hphase : s.phase = .next) (hprogram : s.program = c :: rest) : Awaited (s.call rest c) := by
  obtain ⟨hwaits, hcovered⟩ := h
  rw [hprogram] at hwaits hcovered
  have hrest : (s.call rest c).program = rest := by cases c <;> rfl
  rw [Awaited, hrest]
  refine ⟨hwaits.2, fun hpositive => ?_⟩
  by_cases htasks : c.tasks = []
  · have hsame : (s.call rest c).outstanding = s.outstanding := by
      cases c with
      | wait => simp only [outstanding, call, hphase, Phase.pending]
      | execute job | dispatch jobCount groupSize job =>
        simp only [outstanding, call, hphase, htasks, pushPhase, Phase.pending]
    rw [hsame] at hpositive
    rcases hcovered hpositive with hwait | hcheck | hpoll
    · cases List.mem_cons.mp hwait with
      | inl hc =>
        subst hc
        exact .inr (.inl rfl)
      | inr hlater => exact .inl hlater
    · rw [hphase] at hcheck
      cases hcheck
    · rw [hphase] at hpoll
      cases hpoll
  · exact .inl (hwaits.1 htasks)

/-- What does not begin a call leaves the thread's loop only when the labels agree. -/
theorem awaited_step {total : Nat} (htotal : total < 2 ^ 64) {s t : JobSystem γ n} {a : Option (Agent n)}
    (hlabelled : Labelled total s) (h : Awaited s) (hstep : Step s a t) : Awaited t := by
  have hkept : t.program = s.program → t.outstanding ≤ s.outstanding →
      (s.phase = .check ∨ s.phase = .waitPoll → 0 < t.outstanding →
        t.phase = .check ∨ t.phase = .waitPoll) → Awaited t := by
    intro hprogram hless hphase
    refine ⟨hprogram ▸ h.1, fun hpositive => ?_⟩
    cases h.2 (Nat.lt_of_lt_of_le hpositive hless) with
    | inl hwait => exact .inl (hprogram ▸ hwait)
    | inr hloop => exact .inr (hphase hloop hpositive)
  have hless : (∀ c : Call γ, s.program ≠ c :: t.program) → t.outstanding ≤ s.outstanding := by
    intro hcall
    rcases outstanding_change (step_change hstep) with hsame | hmade | hreport
    · exact Nat.le_of_eq hsame.2.2.1
    · exact absurd hmade.choose_spec.1 (hcall _)
    · have hone := hreport.2.2.1
      omega
  have hcons : ∀ {program : List (Call γ)}, program = s.program → ∀ c, s.program ≠ c :: program := by
    intro program hprogram c hc
    have hlength := congrArg List.length hc
    rw [hprogram, List.length_cons] at hlength
    omega
  cases hstep with
  | call c rest hphase hprogram => exact awaited_call h hphase hprogram
  | idle => exact h
  | spurious w hw => exact hkept rfl (hless (hcons rfl)) fun hloop _ => hloop
  | push task tasks hphase =>
    have hprogram : (s.pushTask task tasks).program = s.program := by
      unfold pushTask
      split <;> rfl
    apply hkept hprogram (hless (hcons hprogram))
    intro hloop
    simp [hphase] at hloop
  | notify t phase hphase hnotify =>
    have hprogram : t.program = s.program := by cases hnotify <;> rfl
    apply hkept hprogram (hless (hcons hprogram))
    intro hloop _
    cases hloop with
    | inl hcheck =>
      rw [hcheck] at hphase
      cases hphase
    | inr hpoll =>
      rw [hpoll] at hphase
      cases hphase
      exact .inl rfl
  | check hphase =>
    apply hkept rfl (hless (hcons rfl))
    intro _ hpositive
    right
    have hsame : ({ s with phase := if s.isBusy then .waitPoll else .next } : JobSystem γ n).outstanding =
        s.outstanding := by
      cases hbusy : s.isBusy <;> simp only [outstanding, hphase, Phase.pending] <;> rfl
    rw [hsame] at hpositive
    simp [(isBusy_iff hlabelled htotal).mpr hpositive]
  | work w hw =>
    have hprogram : (s.work w).program = s.program := by
      unfold work
      split
      · split <;> rfl
      all_goals rfl
    have hphase : (s.work w).phase = s.phase := by
      unfold work
      split
      · split <;> rfl
      all_goals rfl
    apply hkept hprogram (hless (hcons hprogram))
    intro hloop _
    rw [hphase]
    exact hloop

/-! ## All runs -/

variable {ρ : Run n program}

theorem labelled_run (ρ : Run n program) (k : Nat) : Labelled (toCome program).length (ρ.state k) :=
  ρ.invariant (Labelled _) (labelled_onInit program) (fun _ _ _ h hstep => labelled_step h hstep) k

/-- No job gets lost and none appears from nowhere. -/
theorem places_run (ρ : Run n program) (k : Nat) : (ρ.state k).places = toCome program := by
  have hstart : (onInit program : JobSystem γ n).places = toCome program := by
    simp [places, onInit, Phase.pending, RingBuffer.contents, RingBuffer.size]
  exact ρ.invariant (fun s : JobSystem γ n => s.places = (toCome program : Multiset (Task γ))) hstart
    (fun _ _ _ h hstep => (places_step hstep).trans h) k

/-- When the workers are not busy, the jobs of all calls made so far are executed. -/
theorem executed_of_not_busy (hbound : (toCome program).length < 2 ^ 64) (ρ : Run n program) {k : Nat}
    (hbusy : (ρ.state k).isBusy = false) :
    (toCome (ρ.state k).program + (ρ.state k).executed : Multiset (Task γ)) = toCome program := by
  have hquiet : (ρ.state k).outstanding = 0 := by
    by_contra hpositive
    have htrue := (isBusy_iff (labelled_run ρ k) hbound).mpr (Nat.pos_of_ne_zero hpositive)
    rw [hbusy] at htrue
    cases htrue
  rw [← places_of_quiet hquiet, places_run]

theorem awaited_run (hbound : (toCome program).length < 2 ^ 64) (hwaits : WaitsFor program)
    (ρ : Run n program) (k : Nat) : Awaited (ρ.state k) := by
  have hboth := ρ.invariant (fun s => Labelled (toCome program).length s ∧ Awaited s)
    ⟨labelled_onInit program, awaited_onInit hwaits⟩
    (fun _ _ _ h hstep => ⟨labelled_step h.1 hstep, awaited_step hbound h.1 h.2 hstep⟩) k
  exact hboth.2

/-- A thread that has come to rest stays there. -/
theorem rest_step {s t : JobSystem γ n} {a : Option (Agent n)} (hstep : Step s a t)
    (h : s.phase = .next ∧ s.program = []) : t.phase = .next ∧ t.program = [] := by
  obtain ⟨hphase, hprogram⟩ := h
  cases hstep with
  | idle => exact ⟨hphase, hprogram⟩
  | spurious w hw => exact ⟨hphase, hprogram⟩
  | call c rest _ hcalls =>
    rw [hprogram] at hcalls
    cases hcalls
  | push task tasks hpush =>
    rw [hphase] at hpush
    cases hpush
  | notify t phase hnotify _ =>
    rw [hphase] at hnotify
    cases hnotify
  | check hcheck =>
    rw [hphase] at hcheck
    cases hcheck
  | work w hw =>
    unfold work
    split
    · split
      · exact ⟨hphase, hprogram⟩
      · exact ⟨hphase, hprogram⟩
    all_goals exact ⟨hphase, hprogram⟩

/-- A thread at rest and workers that sleep do nothing more. -/
theorem idle_of_asleep {s : JobSystem γ n} (hphase : s.phase = .next) (hprogram : s.program = [])
    (hasleep : ∀ w, s.workers w = .asleep) (a : Agent n) : ¬ Enabled a s := by
  cases a with
  | dispatcher => simp [Enabled, hphase, hprogram]
  | worker w => simp [Enabled, hasleep w]

/-- What is asked of the job system in a run: in every state each job is in exactly one
place, whenever the workers are not busy all jobs pushed so far are executed, and in the end
every job is. -/
structure ExecutesOnce (ρ : Run n program) : Prop where
  keeps : ∀ k, (ρ.state k).places = toCome program
  finished : ∀ k, (ρ.state k).isBusy = false →
    (toCome (ρ.state k).program + (ρ.state k).executed : Multiset (Task γ)) = toCome program
  executes : ∃ k, ∀ m, k ≤ m → ((ρ.state m).executed : Multiset (Task γ)) = toCome program

/-- In a fair run on at least one worker, with fewer than 2⁶⁴ jobs and a `Wait` after
every call that pushes some, every job is executed exactly once. -/
theorem executesOnce_of_waitsFor (hn : 0 < n) (hbound : (toCome program).length < 2 ^ 64)
    (hwaits : WaitsFor program) (ρ : Run n program) (hfair : ρ.Fair Enabled) : ExecutesOnce ρ := by
  refine ⟨places_run ρ, fun _ => executed_of_not_busy hbound ρ, ?_⟩
  obtain ⟨k, hrest⟩ := comes_to_rest hn hbound ρ hfair
  have hresting : ∀ m, k ≤ m → (ρ.state m).phase = .next ∧ (ρ.state m).program = [] := by
    intro m hm
    induction m, hm using Nat.le_induction with
    | base => exact hrest
    | succ m _ ih => exact rest_step (ρ.next m) ih
  refine ⟨k, fun m hm => ?_⟩
  obtain ⟨hphase, hprogram⟩ := hresting m hm
  have hquiet : (ρ.state m).outstanding = 0 := by
    by_contra hpositive
    have hawaited := (awaited_run hbound hwaits ρ m).2 (Nat.pos_of_ne_zero hpositive)
    simp [hphase, hprogram] at hawaited
  have hplaces := places_of_quiet hquiet
  rw [places_run, hprogram] at hplaces
  rw [hplaces]
  simp [toCome]

/-- One job and a `Wait` for it, on one worker. -/
theorem executesOnce_of_waitsFor_oneJob :
    ∃ ρ : Run 1 [Call.execute (), .wait], ρ.Fair Enabled ∧ ExecutesOnce ρ := by
  have hrun : FairRun.Run.RestsIn Step Enabled (fun _ => True)
      (onInit [Call.execute (), .wait] : JobSystem Unit 1) := by
    apply FairRun.Run.restsIn_after _ (.call _ (.execute ()) [.wait] rfl rfl)
    apply FairRun.Run.restsIn_after _ (.push _ (.single ()) [] rfl)
    apply FairRun.Run.restsIn_after _ (.notify _ _ .next rfl (.nobody (by intro w h; cases h)))
    apply FairRun.Run.restsIn_after _ (.call _ .wait [] rfl rfl)
    apply FairRun.Run.restsIn_after _ (.work _ 0 (by intro h; cases h))
    apply FairRun.Run.restsIn_after _ (.work _ 0 (by intro h; cases h))
    apply FairRun.Run.restsIn_after _ (.work _ 0 (by intro h; cases h))
    apply FairRun.Run.restsIn_after _ (.check _ rfl)
    apply FairRun.Run.restsIn_after _ (.work _ 0 (by intro h; cases h))
    apply FairRun.Run.restsIn_after _ (.work _ 0 (by intro h; cases h))
    apply FairRun.Run.restsIn_rest (.idle _) _ trivial
    exact idle_of_asleep rfl rfl (by intro w; fin_cases w; rfl)
  obtain ⟨ρ, hfair, _⟩ := hrun
  have hwaits : WaitsFor [Call.execute (), .wait] :=
    ⟨fun _ => List.mem_singleton.mpr rfl, fun h => absurd rfl h, trivial⟩
  exact ⟨ρ, hfair, executesOnce_of_waitsFor (by decide) (by decide) hwaits ρ hfair⟩

/-- The worker looks into the pool before the job is pushed and begins to wait after the
notification. -/
theorem executesOnce_missed :
    ∃ ρ : Run 1 [Call.execute ()], ρ.Fair Enabled ∧ ¬ ExecutesOnce ρ := by
  have hrun : FairRun.Run.RestsIn Step Enabled (fun s => s.executed = [])
      (onInit [Call.execute ()] : JobSystem Unit 1) := by
    apply FairRun.Run.restsIn_after _ (.work _ 0 (by intro h; cases h))
    apply FairRun.Run.restsIn_after _ (.call _ (.execute ()) [] rfl rfl)
    apply FairRun.Run.restsIn_after _ (.push _ (.single ()) [] rfl)
    apply FairRun.Run.restsIn_after _ (.notify _ _ .next rfl (.nobody (by intro w h; fin_cases w; cases h)))
    apply FairRun.Run.restsIn_after _ (.work _ 0 (by intro h; cases h))
    refine FairRun.Run.restsIn_rest (.idle _) ?_ rfl
    exact idle_of_asleep rfl rfl (by intro w; fin_cases w; rfl)
  obtain ⟨ρ, hfair, k, hnone⟩ := hrun
  refine ⟨ρ, hfair, fun hexecutes => ?_⟩
  obtain ⟨l, hall⟩ := hexecutes.executes
  have hempty := hnone (k + l) (by omega)
  have hjob := hall (k + l) (by omega)
  rw [hempty] at hjob
  exact absurd (congrArg Multiset.card hjob) (by decide)

end JobSystem

end Lumos.Core
