import Lumos.Core.JobDispatch
import Lumos.Library.FairRun
import Lumos.Library.RingBuffer

/-!
# `JobSystem`

One thread calls `Execute`, `Dispatch` and `Wait`, any number of workers take jobs from
the pool. Every push, every pop, every update of a label and every wait for the condition
variable is one step.
-/
namespace Lumos.Core

variable {γ : Type} {n : Nat}

/-- The functions in the job pool. -/
inductive Task (γ : Type) where
  | empty
  | single (job : γ)
  | group (jobCount groupSize groupIndex : UInt32) (job : γ)

inductive Call (γ : Type) where
  | execute (job : γ)
  | dispatch (jobCount groupSize : UInt32) (job : γ)
  | wait

/-- What the call pushes. -/
def Call.tasks : Call γ → List (Task γ)
  | execute job => [.single job]
  | dispatch jobCount groupSize job =>
    (jobGroups jobCount groupSize).map fun groupIndex => .group jobCount groupSize groupIndex job
  | wait => []

/-- What the call adds to `currentLabel`. -/
def Call.labels : Call γ → UInt64
  | execute _ => 1
  | dispatch jobCount groupSize _ =>
    if jobCount = 0 ∨ groupSize = 0 then 0 else (groupCount jobCount groupSize).toUInt64
  | wait => 0

/-- Where the dispatching thread is. -/
inductive Phase (γ : Type) where
  /-- Between two calls. -/
  | next
  /-- About to push a task, with more to follow. -/
  | push (task : Task γ) (tasks : List (Task γ))
  /-- In `poll`, as the pool is full. -/
  | poll (task : Task γ) (tasks : List (Task γ))
  /-- About to wake a worker for the task it has pushed. -/
  | notify (tasks : List (Task γ))
  /-- In `Wait`, about to ask whether the workers are busy. -/
  | check
  /-- In `poll`, as they are. -/
  | waitPoll

/-- Where a worker is. -/
inductive Worker (γ : Type) where
  /-- About to look into the pool. -/
  | look
  | run (job : Task γ)
  /-- About to update `finishedLabel`. -/
  | count
  /-- Has found no job and is about to wait. -/
  | doze
  | asleep

structure JobSystem (γ : Type) (n : Nat) where
  jobPool : RingBuffer (Task γ) 256
  currentLabel : UInt64
  finishedLabel : UInt64
  /-- The calls that are still to come. -/
  program : List (Call γ)
  phase : Phase γ
  workers : Fin n → Worker γ
  executed : List (Task γ)

namespace JobSystem

/-- `OnInit`, for a thread that is going to make these calls. -/
def onInit (program : List (Call γ)) : JobSystem γ n where
  jobPool := ⟨fun _ => .empty, 0, 0⟩
  currentLabel := 0
  finishedLabel := 0
  program := program
  phase := .next
  workers := fun _ => .look
  executed := []

def isBusy (s : JobSystem γ n) : Bool := decide (s.finishedLabel < s.currentLabel)

def setWorker (s : JobSystem γ n) (w : Fin n) (worker : Worker γ) : JobSystem γ n :=
  { s with workers := Function.update s.workers w worker }

/-- Where the thread goes with these tasks to push. -/
def pushPhase : List (Task γ) → Phase γ
  | [] => .next
  | task :: tasks => .push task tasks

/-- A call begins. -/
def call (s : JobSystem γ n) (program : List (Call γ)) : Call γ → JobSystem γ n
  | .wait => { s with program, phase := .check }
  | c => { s with
      program
      currentLabel := s.currentLabel + c.labels
      phase := pushPhase c.tasks }

/-- `push_back`, which fails if the pool is full. -/
def pushTask (s : JobSystem γ n) (task : Task γ) (tasks : List (Task γ)) : JobSystem γ n :=
  match s.jobPool.pushBack task with
  | some jobPool => { s with jobPool, phase := .notify tasks }
  | none => { s with phase := .poll task tasks }

/-- Where the thread goes on after `notify_one`. -/
def afterNotify : Phase γ → Option (Phase γ)
  | .notify tasks => some (pushPhase tasks)
  | .poll task tasks => some (.push task tasks)
  | .waitPoll => some .check
  | .next | .push _ _ | .check => none

/-- `notify_one`: one of those who wait goes on, if there are any. -/
inductive NotifyOne (s : JobSystem γ n) : JobSystem γ n → Prop where
  | nobody (h : ∀ w, s.workers w ≠ .asleep) : NotifyOne s s
  | wake (w : Fin n) (h : s.workers w = .asleep) : NotifyOne s (s.setWorker w .look)

/-- A step of a worker's loop. -/
def work (s : JobSystem γ n) (w : Fin n) : JobSystem γ n :=
  match s.workers w with
  | .look =>
    match s.jobPool.popFront with
    | some (job, jobPool) => { s with jobPool }.setWorker w (.run job)
    | none => s.setWorker w .doze
  | .run job => { s with executed := s.executed ++ [job] }.setWorker w .count
  | .count => { s with finishedLabel := s.finishedLabel + 1 }.setWorker w .look
  | .doze => s.setWorker w .asleep
  | .asleep => s

inductive Agent (n : Nat) where
  | dispatcher
  | worker (w : Fin n)

/-- One step, and whose it is. -/
inductive Step : JobSystem γ n → Option (Agent n) → JobSystem γ n → Prop where
  | idle (s : JobSystem γ n) : Step s none s
  /-- Those who wait may wake up for no reason. -/
  | spurious (s : JobSystem γ n) (w : Fin n) (h : s.workers w = .asleep) :
      Step s none (s.setWorker w .look)
  | call (s : JobSystem γ n) (c : Call γ) (program : List (Call γ)) (hphase : s.phase = .next)
      (hprogram : s.program = c :: program) : Step s (some .dispatcher) (s.call program c)
  | push (s : JobSystem γ n) (task : Task γ) (tasks : List (Task γ)) (h : s.phase = .push task tasks) :
      Step s (some .dispatcher) (s.pushTask task tasks)
  | notify (s t : JobSystem γ n) (phase : Phase γ) (h : afterNotify s.phase = some phase)
      (hnotify : NotifyOne s t) : Step s (some .dispatcher) { t with phase }
  | check (s : JobSystem γ n) (h : s.phase = .check) :
      Step s (some .dispatcher) { s with phase := if s.isBusy then .waitPoll else .next }
  | work (s : JobSystem γ n) (w : Fin n) (h : s.workers w ≠ .asleep) :
      Step s (some (.worker w)) (s.work w)

/-- An agent can act: the thread while there is something left to do, a worker while it
does not sleep. -/
def Enabled : Agent n → JobSystem γ n → Prop
  | .dispatcher, s => s.phase ≠ .next ∨ s.program ≠ []
  | .worker w, s => s.workers w ≠ .asleep

/-- The runs of a program on `n` workers. -/
abbrev Run (n : Nat) (program : List (Call γ)) := FairRun.Run (Step (n := n)) (onInit program)

end JobSystem

end Lumos.Core
