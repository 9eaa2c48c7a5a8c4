import Lumos.Library.Runs
import Lumos.Library.SwapRemove
import Lumos.Maths.ExactArithmetic
import Lumos.Physics.ConstraintSolver

/-!
# `AddContact`

A contact that is offered takes the place of the shallower ones next to it. Those are removed
by moving the last contact into their place, which the loop does not look at then.
-/
namespace Lumos.Physics.Dynamics

open Maths FloatArithmetic FloatLiterals SwapRemove Runs

variable {n : Nat}

section Model

variable {K : Type} [FloatInfinity K]

/-- `MAX_CONTACT_POINTS` -/
def maxContactPoints : Nat := 8

/-- `min_allowed_dist_sq` -/
def minAllowedDistSq : K := literal (1 / 5) * literal (1 / 5)

namespace ContactPoint

/-- Almost in the same location. -/
def near (c contact : ContactPoint K) : Bool :=
  let ab := c.relPosA - contact.relPosA
  lt (ab.dotProduct ab) minAllowedDistSq

def shallower (c contact : ContactPoint K) : Bool := lt contact.collisionPenetration c.collisionPenetration

end ContactPoint

/-- The arguments of a call, and where the bodies are. -/
structure Offer (n : Nat) (K : Type) where
  bodies : Fin n → RigidBody3D K
  globalOnA : Vector3 K
  globalOnB : Vector3 K
  normal : Vector3 K
  penetration : K

namespace Manifold

variable (m : Manifold n K) (offer : Offer n K)

def newContact : ContactPoint K where
  relPosA := offer.globalOnA - (offer.bodies m.nodeA).position
  relPosB := offer.globalOnB - (offer.bodies m.nodeB).position
  collisionNormal := offer.normal
  collisionPenetration := offer.penetration
  elatisityTerm := 1
  sumImpulseContact := 0
  sumImpulseFriction := 0

/-- A contact the loop removes. -/
def yields (contact c : ContactPoint K) : Bool := c.near contact && c.shallower contact

/-- The array overflows at `none`. -/
def addContact : Option (Manifold n K) :=
  let contact := m.newContact offer
  let (contacts, shouldAdd) :=
    SwapRemove.sweep (yields contact) (fun c => c.near contact) m.contacts.length 0 m.contacts true
  if shouldAdd then
    if contacts.length < maxContactPoints then some { m with contacts := contacts ++ [contact] } else none
  else some { m with contacts }

/-- The contacts are at least the tolerance apart. -/
def Spaced : Prop := m.contacts.Pairwise fun c c' => c.near c' = false

instance : Decidable m.Spaced := inferInstanceAs (Decidable (List.Pairwise _ _))

/-- Some contact next to the one that was offered is at least as deep. -/
def HasDeepest (m' : Manifold n K) : Prop :=
  ∃ c ∈ m'.contacts, c.near (m.newContact offer) = true ∧ c.shallower (m.newContact offer) = false

/-- A contact the loop has looked at is next to the new one and at least as deep, or no contact it
has not looked at is next to the new one. -/
def NothingOverlooked : Prop :=
  (∃ c ∈ kept (yields (m.newContact offer)) m.contacts, c.near (m.newContact offer) = true) ∨
    ∀ c ∈ overlooked (yields (m.newContact offer)) m.contacts, c.near (m.newContact offer) = false

end Manifold

/-- Calls that stay within the array. -/
def contactSystem : System (Manifold n K) (Offer n K) where
  inScope := fun m offer => (m.addContact offer).isSome = true
  perform := Manifold.addContact

end Model

/-! ## One call -/

namespace Manifold

theorem near_comm (c c' : ContactPoint ℝ) : c.near c' = c'.near c := by
  have hsame : (c.relPosA - c'.relPosA).dotProduct (c.relPosA - c'.relPosA) =
      (c'.relPosA - c.relPosA).dotProduct (c'.relPosA - c.relPosA) := by
    simp only [Vector3.dotProduct_real, Vector3.sub_x, Vector3.sub_y, Vector3.sub_z]
    ring
  exact congrArg (fun d => lt d minAllowedDistSq) hsame

theorem near_self (c : ContactPoint ℝ) : c.near c = true := by
  rw [ContactPoint.near, lt_real, Vector3.dotProduct_real, Vector3.sub_x, Vector3.sub_y, Vector3.sub_z]
  change _ < ((1 / 5 : ℚ) : ℝ) * ((1 / 5 : ℚ) : ℝ)
  norm_num

theorem shallower_self (c : ContactPoint ℝ) : c.shallower c = false := by
  rw [ContactPoint.shallower, lt_eq_false_real]

variable {m m' : Manifold n ℝ} {offer : Offer n ℝ}

/-- What a call leaves: the contacts but those that yield, and the new one if none of those it
has looked at is next to it. -/
theorem addContact_spec (h : m.addContact offer = some m') : ∃ contacts,
    contacts.Perm (kept (yields (m.newContact offer)) m.contacts ++
      overlooked (yields (m.newContact offer)) m.contacts) ∧
    (m'.contacts = contacts ++ [m.newContact offer] ∧
        (∀ c ∈ kept (yields (m.newContact offer)) m.contacts, c.near (m.newContact offer) = false) ∨
      m'.contacts = contacts ∧
        ∃ c ∈ kept (yields (m.newContact offer)) m.contacts, c.near (m.newContact offer) = true) := by
  obtain ⟨hperm, hfree⟩ := sweep_all (yields (m.newContact offer)) (fun c => c.near (m.newContact offer)) m.contacts
  refine ⟨_, hperm, ?_⟩
  rw [addContact] at h
  simp only at h
  split at h
  · next hadd =>
    split at h
    · cases h
      exact .inl ⟨rfl, hfree.mp hadd⟩
    · cases h
  · next hadd =>
    cases h
    right
    refine ⟨rfl, ?_⟩
    by_contra hnone
    push Not at hnone
    exact hadd (hfree.mpr fun c hc => Bool.eq_false_iff.mpr (hnone c hc))

theorem spaced_of_perm (hm : m.Spaced) {contacts : List (ContactPoint ℝ)}
    (h : contacts.Perm (kept (yields (m.newContact offer)) m.contacts ++
      overlooked (yields (m.newContact offer)) m.contacts)) :
    contacts.Pairwise fun c c' => c.near c' = false := by
  obtain ⟨stored, hstored, hsublist⟩ := (subperm_sweep (yields (m.newContact offer)) m.contacts)
  have hsymm : ∀ {c c' : ContactPoint ℝ}, c.near c' = false → c'.near c = false := fun {c c'} hnear =>
    (near_comm c' c).trans hnear
  exact ((hstored.trans h.symm).pairwise_iff hsymm).mp (hm.sublist hsublist)

theorem spaced_addContact_iff (hm : m.Spaced) (h : m.addContact offer = some m') :
    m'.Spaced ↔ m.NothingOverlooked offer := by
  obtain ⟨contacts, hperm, ⟨hcontacts, hkept⟩ | ⟨hcontacts, hblocked⟩⟩ := addContact_spec h
  · have hspaced := spaced_of_perm hm hperm
    have hnot : ¬ ∃ c ∈ kept (yields (m.newContact offer)) m.contacts, c.near (m.newContact offer) = true := by
      rintro ⟨c, hc, hnear⟩
      exact absurd ((hkept c hc).symm.trans hnear) Bool.false_ne_true
    have hlast : m'.Spaced ↔ ∀ c ∈ contacts, c.near (m.newContact offer) = false := by
      rw [Spaced, hcontacts, List.pairwise_append]
      simp [hspaced]
    rw [hlast, NothingOverlooked, or_iff_right hnot]
    constructor
    · exact fun hall c hc => hall c (hperm.mem_iff.mpr (List.mem_append_right _ hc))
    · intro hover c hc
      obtain hc | hc := List.mem_append.mp (hperm.mem_iff.mp hc)
      · exact hkept c hc
      · exact hover c hc
  · refine ⟨fun _ => .inl hblocked, fun _ => ?_⟩
    rw [Spaced, hcontacts]
    exact spaced_of_perm hm hperm

theorem hasDeepest_addContact (h : m.addContact offer = some m') : m.HasDeepest offer m' := by
  obtain ⟨contacts, hperm, ⟨hcontacts, -⟩ | ⟨hcontacts, c, hc, hnear⟩⟩ := addContact_spec h
  · refine ⟨m.newContact offer, ?_, near_self _, shallower_self _⟩
    rw [hcontacts]
    exact List.mem_append_right _ (List.mem_singleton_self _)
  · refine ⟨c, ?_, hnear, ?_⟩
    · rw [hcontacts]
      exact hperm.mem_iff.mpr (List.mem_append_left _ hc)
    · have hstays := not_drops_of_mem_kept hc
      rw [yields, hnear, Bool.true_and] at hstays
      exact hstays

/-! ## Calls one after the other -/

/-- After each call the contacts are spaced and the deepest is there, exactly when no call overlooks
a contact next to the new one. -/
theorem addContacts_iff (nodeA nodeB : Fin n) (offers : List (Offer n ℝ)) :
    contactSystem.Performs (fun m offer m' => m'.Spaced ∧ m.HasDeepest offer m')
        (⟨nodeA, nodeB, []⟩ : Manifold n ℝ) offers ↔
      contactSystem.Throughout NothingOverlooked (⟨nodeA, nodeB, []⟩ : Manifold n ℝ) offers := by
  have hempty : Spaced (⟨nodeA, nodeB, []⟩ : Manifold n ℝ) := List.Pairwise.nil
  apply System.performs_iff_throughout (I := Spaced) _ _ offers hempty
  · intro m offer hm hscope hnothing
    obtain ⟨m', hm'⟩ := Option.isSome_iff_exists.mp hscope
    have hspaced := (spaced_addContact_iff hm hm').mpr hnothing
    exact ⟨m', hm', ⟨hspaced, hasDeepest_addContact hm'⟩, hspaced⟩
  · intro m offer hm hscope hover m' hm' hdone
    exact hover ((spaced_addContact_iff hm hm').mp hdone.1)

/-- A contact on a line through bodies at the origin. -/
def offerAt (x penetration : ℚ) : Offer 2 ℚ where
  bodies := fun _ => .create ⟨0, 0, 0, 1, ⟨1, 0, 0, 0⟩, 0, 0, false, 1, 1, false, none⟩
  globalOnA := ⟨x, 0, 0⟩
  globalOnB := ⟨x, 0, 0⟩
  normal := ⟨0, 1, 0⟩
  penetration := penetration

/-- The last of three contacts is deeper than its two neighbours, and only the first of them goes. -/
theorem neighbour_stays :
    ([offerAt (-3 / 20) (-1), offerAt (3 / 20) (-1), offerAt 0 (-2)].foldlM addContact ⟨0, 1, []⟩).map
      (fun m => decide m.Spaced) = some false := by
  decide +kernel

end Manifold

end Lumos.Physics.Dynamics
