import Mathlib.Algebra.Ring.Defs
import Mathlib.Tactic.Abel

/-!
# Registers of four lanes

What the vector instructions do with the lanes of their operands, whatever a lane holds. The
lane numbered 0 is the lowest one.
-/
namespace Lumos.Lanes

@[ext]
structure M128 (α : Type) where
  e0 : α
  e1 : α
  e2 : α
  e3 : α
  deriving DecidableEq

section Moves

variable {α : Type}

/-- `_mm_set_ps` and `_mm_set_epi32`: the highest lane comes first. -/
def setPs (e3 e2 e1 e0 : α) : M128 α := ⟨e0, e1, e2, e3⟩

/-- The lane that two bits of an immediate select. -/
def M128.lane (a : M128 α) (i : Nat) : α :=
  match i % 4 with
  | 0 => a.e0
  | 1 => a.e1
  | 2 => a.e2
  | _ => a.e3

/-- `_mm_shuffle_ps` by `_MM_SHUFFLE(z, y, x, w)` -/
def shuffle (a b : M128 α) (z y x w : Nat) : M128 α := ⟨a.lane w, a.lane x, b.lane y, b.lane z⟩

def unpacklo (a b : M128 α) : M128 α := ⟨a.e0, b.e0, a.e1, b.e1⟩

def unpackhi (a b : M128 α) : M128 α := ⟨a.e2, b.e2, a.e3, b.e3⟩

def movelh (a b : M128 α) : M128 α := ⟨a.e0, a.e1, b.e0, b.e1⟩

def movehl (a b : M128 α) : M128 α := ⟨b.e2, b.e3, a.e2, a.e3⟩

/-- `_mm_move_ss` -/
def moveSs (a b : M128 α) : M128 α := { a with e0 := b.e0 }

@[simp] theorem lane_zero (a : M128 α) : a.lane 0 = a.e0 := rfl
@[simp] theorem lane_one (a : M128 α) : a.lane 1 = a.e1 := rfl
@[simp] theorem lane_two (a : M128 α) : a.lane 2 = a.e2 := rfl
@[simp] theorem lane_three (a : M128 α) : a.lane 3 = a.e3 := rfl

end Moves

section Arithmetic

variable {α : Type}

instance [Zero α] : Zero (M128 α) := ⟨⟨0, 0, 0, 0⟩⟩

instance [Add α] : Add (M128 α) := ⟨fun a b => ⟨a.e0 + b.e0, a.e1 + b.e1, a.e2 + b.e2, a.e3 + b.e3⟩⟩

instance [Sub α] : Sub (M128 α) := ⟨fun a b => ⟨a.e0 - b.e0, a.e1 - b.e1, a.e2 - b.e2, a.e3 - b.e3⟩⟩

instance [Mul α] : Mul (M128 α) := ⟨fun a b => ⟨a.e0 * b.e0, a.e1 * b.e1, a.e2 * b.e2, a.e3 * b.e3⟩⟩

instance [Div α] : Div (M128 α) := ⟨fun a b => ⟨a.e0 / b.e0, a.e1 / b.e1, a.e2 / b.e2, a.e3 / b.e3⟩⟩

/-- `_mm_add_ss`: the other lanes are those of the first operand. -/
def addSs [Add α] (a b : M128 α) : M128 α := { a with e0 := a.e0 + b.e0 }

def subSs [Sub α] (a b : M128 α) : M128 α := { a with e0 := a.e0 - b.e0 }

def mulSs [Mul α] (a b : M128 α) : M128 α := { a with e0 := a.e0 * b.e0 }

/-- `_mm_xor_ps` by a mask that has the sign bit set in some lanes and nothing else. -/
def xorSign [Neg α] (mask : M128 Bool) (a : M128 α) : M128 α :=
  ⟨if mask.e0 then -a.e0 else a.e0, if mask.e1 then -a.e1 else a.e1,
   if mask.e2 then -a.e2 else a.e2, if mask.e3 then -a.e3 else a.e3⟩

@[simp] theorem zero_def [Zero α] : (0 : M128 α) = ⟨0, 0, 0, 0⟩ := rfl

@[simp] theorem add_def [Add α] (a b : M128 α) : a + b = ⟨a.e0 + b.e0, a.e1 + b.e1, a.e2 + b.e2, a.e3 + b.e3⟩ := rfl

@[simp] theorem sub_def [Sub α] (a b : M128 α) : a - b = ⟨a.e0 - b.e0, a.e1 - b.e1, a.e2 - b.e2, a.e3 - b.e3⟩ := rfl

@[simp] theorem mul_def [Mul α] (a b : M128 α) : a * b = ⟨a.e0 * b.e0, a.e1 * b.e1, a.e2 * b.e2, a.e3 * b.e3⟩ := rfl

@[simp] theorem div_def [Div α] (a b : M128 α) : a / b = ⟨a.e0 / b.e0, a.e1 / b.e1, a.e2 / b.e2, a.e3 / b.e3⟩ := rfl

end Arithmetic

/-! ## Networks of instructions -/

section Networks

variable {α : Type}

/-- The lanes of four registers are interleaved and added up. -/
def rowSums [Add α] (r0 r1 r2 r3 : M128 α) : M128 α :=
  let t0 := unpacklo r0 r1
  let t1 := unpackhi r0 r1
  let t0 := t0 + t1
  let t2 := unpacklo r2 r3
  let t3 := unpackhi r2 r3
  let t2 := t2 + t3
  movelh t0 t2 + movehl t2 t0

/-- Three registers, each scaled by one lane of another, are added to a fourth one. -/
def rowCombination [Add α] [Mul α] (l r0 r1 r2 t3 : M128 α) : M128 α :=
  let t0 := shuffle l l 0 0 0 0 * r0
  let t1 := shuffle l l 1 1 1 1 * r1
  let t2 := shuffle l l 2 2 2 2 * r2
  (t0 + t1) + (t2 + t3)

def M128.sum [Add α] (r : M128 α) : α := r.e0 + r.e1 + r.e2 + r.e3

/-- Each lane of the network is the sum over one register. -/
theorem rowSums_eq [AddCommMonoid α] (r0 r1 r2 r3 : M128 α) :
    rowSums r0 r1 r2 r3 = ⟨r0.sum, r1.sum, r2.sum, r3.sum⟩ := by
  have hsum : ∀ r : M128 α, r.e0 + r.e2 + (r.e1 + r.e3) = r.sum := by
    intro r
    unfold M128.sum
    abel
  simp only [rowSums, unpacklo, unpackhi, movelh, movehl, add_def, hsum]

theorem rowCombination_eq [NonUnitalNonAssocSemiring α] (l r0 r1 r2 t3 : M128 α) :
    rowCombination l r0 r1 r2 t3 =
      ⟨l.e0 * r0.e0 + l.e1 * r1.e0 + l.e2 * r2.e0 + t3.e0,
       l.e0 * r0.e1 + l.e1 * r1.e1 + l.e2 * r2.e1 + t3.e1,
       l.e0 * r0.e2 + l.e1 * r1.e2 + l.e2 * r2.e2 + t3.e2,
       l.e0 * r0.e3 + l.e1 * r1.e3 + l.e2 * r2.e3 + t3.e3⟩ := by
  simp only [rowCombination, shuffle, mul_def, add_def, lane_zero, lane_one, lane_two, add_assoc]

end Networks

end Lumos.Lanes
