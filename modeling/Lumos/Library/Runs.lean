import Mathlib.Tactic.ByContra

/-!
# Sequences of operations

A system performs operations one after the other. An operation may fault, and in a given
state only some can be asked for. Properties of all states a sequence passes through, of all
operations it performs, and conditions on all operations of a sequence, are recursive in the
sequence.
-/
namespace Lumos.Runs

variable {σ ε : Type}

structure System (σ ε : Type) where
  inScope : σ → ε → Prop
  /-- Faults at `none`. -/
  perform : σ → ε → Option σ

namespace System

variable (sys : System σ ε)

/-- No operation in scope faults, and `P` holds in every state on the way. -/
def Always (P : σ → Prop) : σ → List ε → Prop
  | s, [] => P s
  | s, e :: es => P s ∧ (sys.inScope s e → ∃ t, sys.perform s e = some t ∧ Always P t es)

/-- No operation in scope faults, and each does what `Q` asks of it. -/
def Performs (Q : σ → ε → σ → Prop) : σ → List ε → Prop
  | _, [] => True
  | s, e :: es => sys.inScope s e → ∃ t, sys.perform s e = some t ∧ Q s e t ∧ Performs Q t es

/-- Every operation in scope meets the condition in the state it is performed in. -/
def Throughout (C : σ → ε → Prop) : σ → List ε → Prop
  | _, [] => True
  | s, e :: es => sys.inScope s e → C s e ∧ ∀ t, sys.perform s e = some t → Throughout C t es

variable {sys} {I P : σ → Prop} {C : σ → ε → Prop} {Q : σ → ε → σ → Prop}

theorem always_iff_performs {s : σ} (es : List ε) :
    sys.Always P s es ↔ P s ∧ sys.Performs (fun _ _ t => P t) s es := by
  induction es generalizing s with
  | nil => exact ⟨fun h => ⟨h, trivial⟩, fun h => h.1⟩
  | cons e es ih =>
    constructor
    · intro h
      refine ⟨h.1, fun hscope => ?_⟩
      obtain ⟨t, hperform, hrest⟩ := h.2 hscope
      obtain ⟨ht, hperforms⟩ := ih.mp hrest
      exact ⟨t, hperform, ht, hperforms⟩
    · intro h
      refine ⟨h.1, fun hscope => ?_⟩
      obtain ⟨t, hperform, ht, hperforms⟩ := h.2 hscope
      exact ⟨t, hperform, ih.mpr ⟨ht, hperforms⟩⟩

/-- On top of a condition `D` that is met throughout: where an operation that does not meet
`C` fails to do what is asked of it, all operations do exactly when `C` is met throughout. -/
theorem performs_iff_throughout_of {D : σ → ε → Prop}
    (hstep : ∀ s e, I s → sys.inScope s e → D s e → C s e → ∃ t, sys.perform s e = some t ∧ Q s e t ∧ I t)
    (hbreak : ∀ s e, I s → sys.inScope s e → D s e → ¬ C s e →
      ∀ t, sys.perform s e = some t → ¬ Q s e t)
    {s : σ} (es : List ε) (hs : I s) (hD : sys.Throughout D s es) :
    sys.Performs Q s es ↔ sys.Throughout C s es := by
  induction es generalizing s with
  | nil => exact ⟨fun _ => trivial, fun _ => trivial⟩
  | cons e es ih =>
    constructor
    · intro h hscope
      obtain ⟨t, hperform, hdone, hrest⟩ := h hscope
      obtain ⟨hd, hD'⟩ := hD hscope
      have hcondition : C s e := by
        by_contra hnot
        exact hbreak s e hs hscope hd hnot t hperform hdone
      obtain ⟨t', hperform', _, ht'⟩ := hstep s e hs hscope hd hcondition
      have htt' : t' = t := Option.some.inj (hperform'.symm.trans hperform)
      subst htt'
      refine ⟨hcondition, fun u hu => ?_⟩
      have htu : t' = u := Option.some.inj (hperform.symm.trans hu)
      subst htu
      exact (ih ht' (hD' t' hperform)).mp hrest
    · intro h hscope
      obtain ⟨hcondition, hrest⟩ := h hscope
      obtain ⟨hd, hD'⟩ := hD hscope
      obtain ⟨t, hperform, hdone, ht⟩ := hstep s e hs hscope hd hcondition
      exact ⟨t, hperform, hdone, (ih ht (hD' t hperform)).mpr (hrest t hperform)⟩

theorem throughout_and {D : σ → ε → Prop} {s : σ} (es : List ε) :
    sys.Throughout (fun s e => D s e ∧ C s e) s es ↔ sys.Throughout D s es ∧ sys.Throughout C s es := by
  induction es generalizing s with
  | nil => exact ⟨fun _ => ⟨trivial, trivial⟩, fun _ => trivial⟩
  | cons e es ih =>
    constructor
    · intro h
      exact ⟨fun hscope => ⟨(h hscope).1.1, fun t ht => (ih.mp ((h hscope).2 t ht)).1⟩,
        fun hscope => ⟨(h hscope).1.2, fun t ht => (ih.mp ((h hscope).2 t ht)).2⟩⟩
    · rintro ⟨hD, hC⟩ hscope
      exact ⟨⟨(hD hscope).1, (hC hscope).1⟩, fun t ht => ih.mpr ⟨(hD hscope).2 t ht, (hC hscope).2 t ht⟩⟩

/-- What the first of the operations does. -/
theorem performs_cons {s t : σ} {e : ε} {es : List ε} (h : sys.Performs Q s (e :: es)) (hscope : sys.inScope s e)
    (hperform : sys.perform s e = some t) : Q s e t ∧ sys.Performs Q t es := by
  obtain ⟨t', hperform', hdone, hrest⟩ := h hscope
  cases hperform.symm.trans hperform'
  exact ⟨hdone, hrest⟩

theorem throughout_true {s : σ} (es : List ε) : sys.Throughout (fun _ _ => True) s es := by
  induction es generalizing s with
  | nil => trivial
  | cons e es ih => exact fun _ => ⟨trivial, fun _ _ => ih⟩

/-- Where an operation that does not meet the condition fails to do what is asked of it, all
operations do exactly when the condition is met throughout. -/
theorem performs_iff_throughout
    (hstep : ∀ s e, I s → sys.inScope s e → C s e → ∃ t, sys.perform s e = some t ∧ Q s e t ∧ I t)
    (hbreak : ∀ s e, I s → sys.inScope s e → ¬ C s e → ∀ t, sys.perform s e = some t → ¬ Q s e t)
    {s : σ} (es : List ε) (hs : I s) : sys.Performs Q s es ↔ sys.Throughout C s es :=
  performs_iff_throughout_of (fun s e hs hscope _ => hstep s e hs hscope)
    (fun s e hs hscope _ => hbreak s e hs hscope) es hs (throughout_true es)

/-- The same for a property of states: it holds all the way exactly when `C` is met
throughout. -/
theorem always_iff_throughout_of {D : σ → ε → Prop} (hI : ∀ s, I s → P s)
    (hstep : ∀ s e, I s → sys.inScope s e → D s e → C s e → ∃ t, sys.perform s e = some t ∧ I t)
    (hbreak : ∀ s e, I s → sys.inScope s e → D s e → ¬ C s e →
      ∀ t, sys.perform s e = some t → ¬ P t)
    {s : σ} (es : List ε) (hs : I s) (hD : sys.Throughout D s es) :
    sys.Always P s es ↔ sys.Throughout C s es := by
  have hperforms : sys.Performs (fun _ _ t => P t) s es ↔ sys.Throughout C s es := by
    apply performs_iff_throughout_of (I := I) _ hbreak es hs hD
    intro s e hs hscope hd hcondition
    obtain ⟨t, hperform, ht⟩ := hstep s e hs hscope hd hcondition
    exact ⟨t, hperform, hI t ht, ht⟩
  rw [always_iff_performs, hperforms]
  exact ⟨fun h => h.2, fun h => ⟨hI s hs, h⟩⟩

theorem always_iff_throughout (hI : ∀ s, I s → P s)
    (hstep : ∀ s e, I s → sys.inScope s e → C s e → ∃ t, sys.perform s e = some t ∧ I t)
    (hbreak : ∀ s e, I s → sys.inScope s e → ¬ C s e → ∀ t, sys.perform s e = some t → ¬ P t)
    {s : σ} (es : List ε) (hs : I s) : sys.Always P s es ↔ sys.Throughout C s es :=
  always_iff_throughout_of hI (fun s e hs hscope _ => hstep s e hs hscope)
    (fun s e hs hscope _ => hbreak s e hs hscope) es hs (throughout_true es)

end System

end Lumos.Runs
