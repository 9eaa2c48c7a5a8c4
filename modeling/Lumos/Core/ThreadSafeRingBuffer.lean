import Lumos.Library.RingBuffer

/-!
# `ThreadSafeRingBuffer`

A call holds the lock from its beginning to its end, so that the calls of all threads come one
after the other.
-/
namespace Lumos.ThreadSafeRingBuffer

open RingBuffer

variable {α : Type} {capacity : Nat}

/-! ## The code -/

/-- `push_back`, with what it returns. -/
def pushBack (b : RingBuffer α capacity) (item : α) : Bool × RingBuffer α capacity :=
  let next := advance b.head 1
  if next ≠ b.tail then (true, { b with data := Function.update b.data b.head item, head := next })
  else (false, b)

/-- `pop_front`, with what it returns and what it leaves in the item it is given. -/
def popFront (b : RingBuffer α capacity) (item : α) : Bool × α × RingBuffer α capacity :=
  if b.tail ≠ b.head then (true, b.data b.tail, { b with tail := advance b.tail 1 }) else (false, item, b)

/-- A new buffer, with whatever there is in its entries. -/
def create (data : Fin capacity → α) (h : 0 < capacity) : RingBuffer α capacity := ⟨data, ⟨0, h⟩, ⟨0, h⟩⟩

/-! ## Histories -/

inductive Call (α : Type) where
  | pushBack (item : α)
  | popFront (item : α)

/-- The buffer with the items that have gone in and those that have come out. -/
structure History (α : Type) (capacity : Nat) where
  buffer : RingBuffer α capacity
  pushed : List α
  popped : List α

def History.call (t : History α capacity) : Call α → History α capacity
  | .pushBack item =>
    let (result, buffer) := ThreadSafeRingBuffer.pushBack t.buffer item
    { t with buffer, pushed := if result then t.pushed ++ [item] else t.pushed }
  | .popFront item =>
    let (result, item, buffer) := ThreadSafeRingBuffer.popFront t.buffer item
    { t with buffer, popped := if result then t.popped ++ [item] else t.popped }

def run (b : RingBuffer α capacity) (calls : List (Call α)) : History α capacity :=
  calls.foldl History.call ⟨b, [], []⟩

/-! ## The queue it stands for -/

/-- Behind all others, if there is room. -/
def enqueue (room : Nat) (queue : List α) (item : α) : Bool × List α :=
  if queue.length < room then (true, queue ++ [item]) else (false, queue)

/-- The first one, if there is any. -/
def dequeue (queue : List α) (item : α) : Bool × α × List α :=
  match queue with
  | [] => (false, item, [])
  | first :: rest => (true, first, rest)

/-- What is asked of the calls of a history. -/
structure Fifo (t : History α capacity) : Prop where
  order : t.popped <+: t.pushed
  push_fails : ∀ item, (pushBack t.buffer item).1 = false ↔ t.pushed.length = t.popped.length + (capacity - 1)
  pop_fails : ∀ item, (popFront t.buffer item).1 = false ↔ t.pushed.length = t.popped.length
  push_unchanged : ∀ item, (pushBack t.buffer item).1 = false → (pushBack t.buffer item).2 = t.buffer
  pop_unchanged : ∀ item, (popFront t.buffer item).1 = false → (popFront t.buffer item).2 = (item, t.buffer)

/-! ## Simulation -/

variable {b : RingBuffer α capacity} {t : History α capacity}

theorem pushBack_eq (b : RingBuffer α capacity) (item : α) :
    pushBack b item = ((b.pushBack item).isSome, (b.pushBack item).getD b) := by
  unfold pushBack RingBuffer.pushBack
  dsimp only
  split <;> rfl

theorem popFront_eq (b : RingBuffer α capacity) (item : α) :
    popFront b item = (b.popFront.isSome, b.popFront.getD (item, b)) := by
  unfold popFront RingBuffer.popFront
  split <;> rfl

/-- A push is one to the queue of what is stored. -/
theorem simulates_pushBack (b : RingBuffer α capacity) (item : α) :
    ((pushBack b item).1, (pushBack b item).2.contents) = enqueue (capacity - 1) b.contents item := by
  rw [pushBack_eq, enqueue, length_contents]
  by_cases hroom : b.size + 1 < capacity
  · obtain ⟨b', hpush, hcontents⟩ := pushBack_room hroom item
    rw [if_pos (by omega), hpush, Option.isSome_some, Option.getD_some, hcontents]
  · rw [if_neg (by omega), pushBack_full hroom]
    rfl

/-- And a pop is one from it. -/
theorem simulates_popFront (b : RingBuffer α capacity) (item : α) :
    ((popFront b item).1, (popFront b item).2.1, (popFront b item).2.2.contents) = dequeue b.contents item := by
  rw [popFront_eq]
  cases hcontents : b.contents with
  | nil =>
    rw [popFront_empty hcontents, Option.isSome_none, Option.getD_none, hcontents]
    rfl
  | cons first rest =>
    obtain ⟨b', hpop, hrest⟩ := popFront_cons hcontents
    rw [hpop, Option.isSome_some, Option.getD_some, hrest]
    rfl

/-- What is stored is what has gone in and not come out. -/
def Accounts (t : History α capacity) : Prop := t.pushed = t.popped ++ t.buffer.contents

theorem accounts_call (h : Accounts t) (c : Call α) : Accounts (t.call c) := by
  rw [Accounts] at h
  cases c with
  | pushBack item =>
    have hresult := congrArg Prod.fst (simulates_pushBack t.buffer item)
    have hcontents := congrArg Prod.snd (simulates_pushBack t.buffer item)
    simp only at hresult hcontents
    simp only [Accounts, History.call]
    rw [hresult, hcontents, enqueue]
    split
    · rw [if_pos rfl, h, List.append_assoc]
    · rw [if_neg Bool.false_ne_true, h]
  | popFront item =>
    have hresult := congrArg Prod.fst (simulates_popFront t.buffer item)
    have hitem := congrArg (fun r => r.2.1) (simulates_popFront t.buffer item)
    have hcontents := congrArg (fun r => r.2.2) (simulates_popFront t.buffer item)
    simp only at hresult hitem hcontents
    simp only [Accounts, History.call]
    rw [hresult, hitem, hcontents]
    cases hstored : t.buffer.contents with
    | nil => rwa [hstored] at h
    | cons first rest =>
      rw [hstored] at h
      simp only [dequeue, if_true, h, List.append_assoc, List.singleton_append]

theorem accounts_run (h : b.contents = []) (calls : List (Call α)) : Accounts (run b calls) := by
  have hcalls : ∀ (calls : List (Call α)) {t : History α capacity}, Accounts t →
      Accounts (calls.foldl History.call t) := by
    intro calls
    induction calls with
    | nil => exact id
    | cons c calls ih => exact fun ht => ih (accounts_call ht c)
  refine hcalls calls ?_
  rw [Accounts, h, List.append_nil]

theorem contents_create (data : Fin capacity → α) (h : 0 < capacity) : (create data h).contents = [] := by
  have hsize : (create data h).size = 0 := size_eq h (advance_zero _).symm
  rw [contents, hsize]
  rfl

theorem fifo_of_accounts (h : Accounts t) : Fifo t := by
  have hlength : t.pushed.length = t.popped.length + t.buffer.contents.length := by rw [h, List.length_append]
  have hlt : t.buffer.contents.length < capacity := length_contents.trans_lt size_lt
  refine ⟨⟨_, h.symm⟩, fun item => ?_, fun item => ?_, fun item => ?_, fun item => ?_⟩
  · have hresult := congrArg Prod.fst (simulates_pushBack t.buffer item)
    simp only at hresult
    rw [hresult, enqueue]
    split
    · exact iff_of_false Bool.false_ne_true.symm (by omega)
    · exact iff_of_true rfl (by omega)
  · have hresult := congrArg Prod.fst (simulates_popFront t.buffer item)
    simp only at hresult
    rw [hresult]
    cases hcontents : t.buffer.contents with
    | nil => exact iff_of_true rfl (by rw [hlength, hcontents]; rfl)
    | cons first rest =>
      rw [hcontents, List.length_cons] at hlength
      exact iff_of_false Bool.false_ne_true.symm (by omega)
  · rw [pushBack_eq]
    exact fun hnone => by rw [Option.not_isSome_iff_eq_none.mp (Bool.eq_false_iff.mp hnone)]; rfl
  · rw [popFront_eq]
    exact fun hnone => by rw [Option.not_isSome_iff_eq_none.mp (Bool.eq_false_iff.mp hnone)]; rfl

/-- Items come out in the order in which they went in, and a call only fails where it has to. -/
theorem fifo_run (data : Fin capacity → α) (h : 0 < capacity) (calls : List (Call α)) :
    Fifo (run (create data h) calls) :=
  fifo_of_accounts (accounts_run (contents_create data h) calls)

theorem fifo_run_two : Fifo (run (create (fun _ : Fin 2 => 0) Nat.zero_lt_two)
    [.pushBack 5, .pushBack 6, .popFront 0, .pushBack 7]) :=
  fifo_run (fun _ => 0) Nat.zero_lt_two [.pushBack 5, .pushBack 6, .popFront 0, .pushBack 7]

end Lumos.ThreadSafeRingBuffer
