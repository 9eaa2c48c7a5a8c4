import Mathlib.Init

/-!
# Reading an archive

An archive is a list of named values that is read from the front. What was stored is found
again; a name or a kind of value that does not stand at the front is an exception.
-/
namespace Lumos.Library.Archive

/-- Why a reader does not return. -/
inductive Failure where
  | exception
  /-- Undefined behaviour. -/
  | fault
  deriving DecidableEq

structure Entry (V : Type) where
  name : String
  value : V

abbrev Reader (V α : Type) := StateT (List (Entry V)) (Except Failure) α

/-- A type whose values can be told apart among all values an archive may hold. -/
class Archived (V α : Type) where
  toValue : α → V
  ofValue : V → Option α
  ofValue_toValue : ∀ a, ofValue (toValue a) = some a

variable {V α β : Type}

def entry [Archived V α] (name : String) (a : α) : Entry V := ⟨name, Archived.toValue a⟩

/-- The value at the front, which has to have this name. -/
def nvp [Archived V α] (name : String) : Reader V α := fun entries =>
  match entries with
  | [] => .error .exception
  | e :: rest =>
    match Archived.ofValue e.value with
    | some a => if e.name = name then .ok (a, rest) else .error .exception
    | none => .error .exception

/-- A reader that stops. -/
def fail (f : Failure) : Reader V α := fun _ => .error f

/-- No name stands at the front. -/
def Unnamed (entries : List (Entry V)) : Prop := ∀ e ∈ entries.head?, e.name = ""

section Lemmas

variable {name : String} {entries rest : List (Entry V)}

@[simp] theorem run_nvp [Archived V α] (name : String) (a : α) (rest : List (Entry V)) :
    StateT.run (nvp name : Reader V α) (entry name a :: rest) = .ok (a, rest) := by
  simp [StateT.run, nvp, entry, Archived.ofValue_toValue]

/-- A name is asked for where none stands. -/
theorem run_nvp_of_unnamed [Archived V α] (hname : name ≠ "") (h : Unnamed rest) :
    StateT.run (nvp name : Reader V α) rest = .error .exception := by
  cases rest with
  | nil => rfl
  | cons e rest =>
    have he : e.name = "" := h e rfl
    simp only [StateT.run, nvp, he, if_neg hname.symm]
    cases (Archived.ofValue e.value : Option α) <;> rfl

theorem bind_eq_ok {x : Except Failure α} {f : α → Except Failure β} {b : β} :
    x >>= f = .ok b ↔ ∃ a, x = .ok a ∧ f a = .ok b := by
  cases x with
  | error failure =>
    constructor
    · intro h
      cases h
    · rintro ⟨a, h, -⟩
      cases h
  | ok a => simp [bind, Except.bind]

theorem run_bind_ok {r : Reader V α} {f : α → Reader V β} {a : α}
    (h : StateT.run r entries = .ok (a, rest)) :
    StateT.run (r >>= f) entries = StateT.run (f a) rest := by
  rw [StateT.run_bind, h]
  rfl

/-- What is read first is what stands at the front. -/
theorem run_nvp_bind [Archived V α] (name : String) (a : α) (f : α → Reader V β) (rest : List (Entry V)) :
    StateT.run (nvp name >>= f) (entry name a :: rest) = StateT.run (f a) rest :=
  run_bind_ok (run_nvp name a rest)

theorem run_bind_error {r : Reader V α} {f : α → Reader V β} {failure : Failure}
    (h : StateT.run r entries = .error failure) :
    StateT.run (r >>= f) entries = .error failure := by
  rw [StateT.run_bind, h]
  rfl

theorem unnamed_nil : Unnamed ([] : List (Entry V)) := by simp [Unnamed]

theorem unnamed_cons [Archived V α] (a : α) (rest : List (Entry V)) : Unnamed (entry "" a :: rest) := by
  simp [Unnamed, entry]

end Lemmas

end Lumos.Library.Archive
