import Mathlib.Data.List.Basic
import Mathlib.Logic.Function.Basic

/-!
# Binary semaphores

A semaphore is signalled or not. Who waits for one that nothing has signalled waits for ever, and one that is
signalled has to be waited for before it is signalled again.
-/
namespace Lumos.BinarySemaphores

variable {ι : Type} [DecidableEq ι]

inductive Operation (ι : Type) where
  | signal (semaphore : ι)
  | wait (semaphore : ι)
  deriving DecidableEq

def perform (signalled : ι → Bool) : Operation ι → Option (ι → Bool)
  | .signal s => if signalled s then none else some (Function.update signalled s true)
  | .wait s => if signalled s then some (Function.update signalled s false) else none

/-- A signal is passed on from one semaphore to the next, and taken from the last of them. -/
def relay : ι → List ι → List (Operation ι)
  | s, [] => [.wait s]
  | s, t :: rest => .wait s :: .signal t :: relay t rest

/-- Nothing is signalled. -/
def idle : ι → Bool := fun _ => false

/-- Nothing but one semaphore is. -/
def only (s : ι) : ι → Bool := Function.update idle s true

theorem perform_signal (s : ι) : perform idle (.signal s) = some (only s) := rfl

theorem perform_wait (s : ι) : perform (only s) (.wait s) = some idle := by
  rw [perform, only, Function.update_self, if_pos rfl, Function.update_idem]
  congr 1
  exact Function.update_eq_self s idle

theorem perform_wait_idle (s : ι) : perform (idle : ι → Bool) (.wait s) = none := rfl

/-- A signal that has been given is taken in the end, and none is left. -/
theorem relay_only (s : ι) (rest : List ι) : (relay s rest).foldlM perform (only s) = some idle := by
  induction rest generalizing s with
  | nil => rw [relay, List.foldlM_cons, perform_wait]; rfl
  | cons t rest ih =>
    rw [relay, List.foldlM_cons, perform_wait, Option.bind_eq_bind, Option.bind_some, List.foldlM_cons, perform_signal,
      Option.bind_eq_bind, Option.bind_some, ih t]

/-- One that has not been given is waited for for ever. -/
theorem relay_idle (s : ι) (rest : List ι) : (relay s rest).foldlM perform (idle : ι → Bool) = none := by
  cases rest with
  | nil => rw [relay, List.foldlM_cons, perform_wait_idle]; rfl
  | cons t rest => rw [relay, List.foldlM_cons, perform_wait_idle]; rfl

/-! ## Queues -/

/-- All waits of a queue end, and no signal is left behind it. -/
def Settles (queue : List (Operation ι)) : Prop := queue.foldlM perform idle = some idle

theorem settles_nil : Settles ([] : List (Operation ι)) := rfl

theorem Settles.append_iff {queue : List (Operation ι)} (h : Settles queue) (operations : List (Operation ι)) :
    Settles (queue ++ operations) ↔ Settles operations := by
  rw [Settles, List.foldlM_append, h]
  rfl

theorem settles_relay (s : ι) (rest : List ι) : Settles (.signal s :: relay s rest) := by
  rw [Settles, List.foldlM_cons, perform_signal, Option.bind_eq_bind, Option.bind_some, relay_only]

/-- Behind a wait that does not end nothing settles. -/
theorem not_settles_relay (s : ι) (rest : List ι) (operations : List (Operation ι)) :
    ¬ Settles (relay s rest ++ operations) := by
  rw [Settles, List.foldlM_append, relay_idle]
  exact nofun

end Lumos.BinarySemaphores
