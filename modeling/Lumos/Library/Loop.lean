import Mathlib.Logic.Relation

/-!
# Loops counted in turns

A `while` loop is its body: a partial function that either goes on in a new
state, leaves with a result, or faults. Running it takes a number of turns, so
that a loop which never leaves has no result for any number.
-/
namespace Lumos.Loop

open Relation

variable {σ ρ : Type}

/-- One turn: go on in a new state, leave with a result, or fault at `none`. -/
abbrev Body (σ ρ : Type) := σ → Option (σ ⊕ ρ)

/-- At most `n` turns; `none` when they run out or one of them faults. -/
def run (body : Body σ ρ) : Nat → σ → Option ρ
  | 0, _ => none
  | n + 1, s =>
    match body s with
    | none => none
    | some (.inl t) => run body n t
    | some (.inr r) => some r

/-- The loop entered in `s` leaves with `r` after finitely many turns. -/
def Returns (body : Body σ ρ) (s : σ) (r : ρ) : Prop := ∃ n, run body n s = some r

/-- The loop goes on from `s` to `t`. -/
def Turn (body : Body σ ρ) (s t : σ) : Prop := body s = some (.inl t)

@[simp] theorem run_zero (body : Body σ ρ) (s : σ) : run body 0 s = none := rfl

theorem run_turn {body : Body σ ρ} {s t : σ} (h : Turn body s t) (n : Nat) :
    run body (n + 1) s = run body n t := by simp only [run, show body s = _ from h]

theorem run_leave {body : Body σ ρ} {s : σ} {r : ρ} (h : body s = some (.inr r)) (n : Nat) :
    run body (n + 1) s = some r := by simp only [run, h]

/-- A result found within `n` turns is found within any larger number of turns. -/
theorem run_mono {body : Body σ ρ} {m n : Nat} (hmn : m ≤ n) {s : σ} {r : ρ}
    (h : run body m s = some r) : run body n s = some r := by
  induction m generalizing n s with
  | zero => simp at h
  | succ m ih =>
    obtain ⟨k, rfl⟩ : ∃ k, n = k + 1 := ⟨n - 1, by omega⟩
    cases hb : body s with
    | none => simp [run, hb] at h
    | some out =>
      cases out with
      | inl t =>
        rw [run_turn hb] at h ⊢
        exact ih (by omega) h
      | inr q =>
        rw [run_leave hb] at h ⊢
        exact h

theorem Returns.unique {body : Body σ ρ} {s : σ} {r q : ρ}
    (h : Returns body s r) (h' : Returns body s q) : r = q := by
  obtain ⟨m, hm⟩ := h
  obtain ⟨n, hn⟩ := h'
  have hm' := run_mono (Nat.le_max_left m n) hm
  rw [run_mono (Nat.le_max_right m n) hn] at hm'
  exact (Option.some.inj hm').symm

theorem returns_of_leave {body : Body σ ρ} {s : σ} {r : ρ} (h : body s = some (.inr r)) :
    Returns body s r := ⟨1, run_leave h 0⟩

/-- A loop that leaves in its first turn has no other result. -/
theorem returns_leave_iff {body : Body σ ρ} {s : σ} {q : ρ} (h : body s = some (.inr q)) {r : ρ} :
    Returns body s r ↔ r = q :=
  ⟨fun hr => hr.unique (returns_of_leave h), fun hr => hr ▸ returns_of_leave h⟩

theorem returns_turn_iff {body : Body σ ρ} {s t : σ} (h : Turn body s t) {r : ρ} :
    Returns body s r ↔ Returns body t r := by
  constructor
  · rintro ⟨n, hn⟩
    cases n with
    | zero => simp at hn
    | succ n => exact ⟨n, by rwa [run_turn h] at hn⟩
  · rintro ⟨n, hn⟩
    exact ⟨n + 1, by rwa [run_turn h]⟩

theorem returns_turns_iff {body : Body σ ρ} {s t : σ} (h : ReflTransGen (Turn body) s t) {r : ρ} :
    Returns body s r ↔ Returns body t r := by
  induction h with
  | refl => rfl
  | tail _ hnext ih => exact ih.trans (returns_turn_iff hnext)

/-- A loop that leaves is nowhere undefined. -/
theorem Returns.ne_none {body : Body σ ρ} {s t : σ} {r : ρ} (h : Returns body s r)
    (hst : ReflTransGen (Turn body) s t) : body t ≠ none := by
  intro hnone
  obtain ⟨n, hn⟩ := (returns_turns_iff hst).mp h
  cases n with
  | zero => simp at hn
  | succ n => simp [run, hnone] at hn

/-- A loop that leaves has made finitely many turns to the state it leaves from. -/
theorem returns_iff_turns {body : Body σ ρ} {s : σ} {r : ρ} :
    Returns body s r ↔ ∃ t, ReflTransGen (Turn body) s t ∧ body t = some (.inr r) := by
  constructor
  · rintro ⟨n, hn⟩
    induction n generalizing s with
    | zero => simp at hn
    | succ n ih =>
      cases hb : body s with
      | none => simp [run, hb] at hn
      | some out =>
        cases out with
        | inl t =>
          obtain ⟨u, hu, hl⟩ := ih (by rwa [run_turn hb] at hn)
          exact ⟨u, hu.head hb, hl⟩
        | inr q =>
          rw [run_leave hb] at hn
          exact ⟨s, .refl, by rw [hb, Option.some.inj hn]⟩
  · rintro ⟨t, hst, hl⟩
    induction hst using ReflTransGen.head_induction_on with
    | refl => exact returns_of_leave hl
    | head hst _ ih => exact (returns_turn_iff hst).mpr ih

/-- What holds on entry and is kept by every turn holds where the loop leaves. -/
theorem Returns.invariant {body : Body σ ρ} (I : σ → Prop)
    (hturn : ∀ s t, I s → Turn body s t → I t) {s : σ} {r : ρ}
    (hs : I s) (h : Returns body s r) : ∃ t, I t ∧ body t = some (.inr r) := by
  obtain ⟨t, hst, hl⟩ := returns_iff_turns.mp h
  refine ⟨t, ?_, hl⟩
  clear hl
  induction hst with
  | refl => exact hs
  | tail _ hnext ih => exact hturn _ _ ih hnext

/-- A loop that goes on from every state of an invariant never leaves. -/
theorem not_returns {body : Body σ ρ} (I : σ → Prop)
    (hturn : ∀ s, I s → ∃ t, Turn body s t ∧ I t) {s : σ} (hs : I s) (r : ρ) :
    ¬ Returns body s r := by
  rintro ⟨n, hn⟩
  induction n generalizing s with
  | zero => simp at hn
  | succ n ih =>
    obtain ⟨t, ht, hit⟩ := hturn s hs
    exact ih hit (by rwa [run_turn ht] at hn)

/-- A measure that every turn lowers makes the loop leave, from any state of an
invariant in which no turn faults. -/
theorem returns_of_measure {body : Body σ ρ} (I : σ → Prop) (μ : σ → Nat)
    (hstep : ∀ s, I s → (∃ r, body s = some (.inr r)) ∨ ∃ t, Turn body s t ∧ I t ∧ μ t < μ s)
    {s : σ} (hs : I s) : ∃ r, Returns body s r := by
  induction h : μ s using Nat.strongRecOn generalizing s with
  | ind n ih =>
    subst h
    rcases hstep s hs with ⟨r, hr⟩ | ⟨t, ht, hit, hlt⟩
    · exact ⟨r, returns_of_leave hr⟩
    · obtain ⟨r, hr⟩ := ih _ hlt hit rfl
      exact ⟨r, (returns_turn_iff ht).mpr hr⟩

section Fold

variable {α β : Type}

/-- An invariant of a counted loop whose body may fault. -/
theorem foldlM_invariant {f : β → α → Option β} (I : β → Prop) (items : List α)
    (hstep : ∀ x ∈ items, ∀ b c, I b → f b x = some c → I c) {b c : β}
    (hb : I b) (h : items.foldlM f b = some c) : I c := by
  induction items generalizing b with
  | nil =>
    cases (by simpa using h : b = c)
    exact hb
  | cons x rest ih =>
    rw [List.foldlM_cons] at h
    obtain ⟨d, hd, hrest⟩ := Option.bind_eq_some_iff.mp h
    exact ih (fun y hy => hstep y (List.mem_cons_of_mem x hy))
      (hstep x List.mem_cons_self b d hb hd) hrest

/-- A counted loop none of whose turns faults in the invariant comes to its end. -/
theorem foldlM_isSome {f : β → α → Option β} (I : β → Prop) (items : List α)
    (hstep : ∀ x ∈ items, ∀ b, I b → ∃ c, f b x = some c ∧ I c) {b : β} (hb : I b) :
    ∃ c, items.foldlM f b = some c ∧ I c := by
  induction items generalizing b with
  | nil => exact ⟨b, rfl, hb⟩
  | cons x rest ih =>
    obtain ⟨d, hd, hid⟩ := hstep x List.mem_cons_self b hb
    obtain ⟨c, hc, hic⟩ := ih (fun y hy => hstep y (List.mem_cons_of_mem x hy)) hid
    exact ⟨c, by rw [List.foldlM_cons, hd]; exact hc, hic⟩

end Fold

/-! ## Counting up -/

section Counting

variable {step : σ → Nat → Option σ} {f : Nat → σ} {n : Nat}

/-- Turns of which it is known where they lead. -/
theorem foldlM_range (hstep : ∀ i < n, step (f i) i = some (f (i + 1))) :
    (List.range n).foldlM step (f 0) = some (f n) := by
  induction n with
  | zero => rfl
  | succ n ih =>
    rw [List.range_succ, List.foldlM_append, ih fun i hi => hstep i (by omega), Option.bind_eq_bind, Option.bind_some,
      List.foldlM_cons, hstep n (Nat.lt_succ_self n)]
    rfl

/-- Nothing comes after the first turn that faults. -/
theorem foldlM_range_eq_none (hstep : ∀ i < n, step (f i) i = some (f (i + 1))) (hfault : step (f n) n = none)
    {count : Nat} (hcount : n < count) : (List.range count).foldlM step (f 0) = none := by
  obtain ⟨more, rfl⟩ := Nat.exists_eq_add_of_lt hcount
  rw [Nat.add_assoc, List.range_add, List.foldlM_append, foldlM_range hstep, Option.bind_eq_bind, Option.bind_some,
    Nat.add_comm more, Nat.add_comm 1, List.range_succ_eq_map, List.map_cons, List.foldlM_cons, Nat.add_zero, hfault]
  rfl

end Counting

/-! ## Recursion counted in fuel -/

section Fuel

variable {α β : Type}

/-- With enough fuel the computation gives `r`, and more fuel changes nothing. -/
def Finishes (f : Nat → Option α) (r : α) : Prop := ∃ n, ∀ fuel, n ≤ fuel → f fuel = some r

theorem finishes_const {r : α} : Finishes (fun _ => some r) r := ⟨0, fun _ _ => rfl⟩

theorem Finishes.unique {f : Nat → Option α} {r q : α} (h : Finishes f r) (h' : Finishes f q) : r = q := by
  obtain ⟨m, hm⟩ := h
  obtain ⟨n, hn⟩ := h'
  have heq := hm (max m n) (Nat.le_max_left m n)
  rw [hn (max m n) (Nat.le_max_right m n)] at heq
  exact (Option.some.inj heq).symm

theorem Finishes.bind {f : Nat → Option α} {g : Nat → α → Option β} {r : α} {q : β}
    (h : Finishes f r) (h' : Finishes (fun fuel => g fuel r) q) :
    Finishes (fun fuel => (f fuel).bind (g fuel)) q := by
  obtain ⟨m, hm⟩ := h
  obtain ⟨n, hn⟩ := h'
  refine ⟨max m n, ?_⟩
  intro fuel hfuel
  have hfirst := hm fuel (Nat.le_trans (Nat.le_max_left m n) hfuel)
  have hrest := hn fuel (Nat.le_trans (Nat.le_max_right m n) hfuel)
  simpa [hfirst] using hrest

/-- A computation that goes on with what a loop leaves with. -/
theorem finishes_run_bind_iff {body : Body σ ρ} {s : σ} {g : Nat → ρ → Option β} {q : β} :
    Finishes (fun fuel => (run body fuel s).bind (g fuel)) q ↔
      ∃ r, Returns body s r ∧ Finishes (fun fuel => g fuel r) q := by
  constructor
  · rintro ⟨n, hn⟩
    obtain ⟨r, hr, -⟩ := Option.bind_eq_some_iff.mp (hn n (Nat.le_refl n))
    refine ⟨r, ⟨n, hr⟩, n, fun fuel hfuel => ?_⟩
    have hfinish : (run body fuel s).bind (g fuel) = some q := hn fuel hfuel
    rw [run_mono hfuel hr] at hfinish
    exact hfinish
  · rintro ⟨r, ⟨n, hn⟩, hg⟩
    exact Finishes.bind ⟨n, fun fuel hfuel => run_mono hfuel hn⟩ hg

/-- A call that passes on one unit of fuel less. -/
theorem Finishes.call {f g : Nat → Option α} {r : α} (hcall : ∀ fuel, f (fuel + 1) = g fuel)
    (h : Finishes g r) : Finishes f r := by
  obtain ⟨n, hn⟩ := h
  refine ⟨n + 1, ?_⟩
  intro fuel hfuel
  obtain ⟨k, rfl⟩ : ∃ k, fuel = k + 1 := ⟨fuel - 1, by omega⟩
  rw [hcall]
  exact hn k (by omega)

end Fuel

end Lumos.Loop

/-!
## Computations that fault

A computation yields a result with a property when a condition holds, and faults when it
does not.
-/
namespace Lumos.Outcome

variable {σ τ : Type}

structure Yields (o : Option σ) (ok : Prop) (post : σ → Prop) : Prop where
  result : ok → ∃ s, o = some s ∧ post s
  fault : ¬ ok → o = none

variable {o : Option σ} {ok ok' : Prop} {post : σ → Prop} {f : σ → Option τ} {post' : τ → Prop}

theorem yields_some {s : σ} (hok : ok) (hpost : post s) : Yields (some s) ok post where
  result := fun _ => ⟨s, rfl, hpost⟩
  fault := fun hnot => absurd hok hnot

theorem yields_none (hok : ¬ ok) : Yields (none : Option σ) ok post where
  result := fun h => absurd h hok
  fault := fun _ => rfl

/-- One computation after another: the second is run where the first has not faulted. -/
theorem Yields.bind (h : Yields o ok post) (hf : ∀ s, ok → post s → Yields (f s) ok' post') (himp : ok' → ok) :
    Yields (o.bind f) ok' post' where
  result := fun hok' => by
    obtain ⟨s, hs, hpost⟩ := h.result (himp hok')
    rw [hs]
    exact (hf s (himp hok') hpost).result hok'
  fault := fun hnot => by
    by_cases hok : ok
    · obtain ⟨s, hs, hpost⟩ := h.result hok
      rw [hs]
      exact (hf s hok hpost).fault hnot
    · rw [h.fault hok]
      rfl

/-- The condition may be put in other words, and less may be said of the result. -/
theorem Yields.mono (h : Yields o ok post) (hiff : ok ↔ ok') {weaker : σ → Prop} (himp : ∀ s, post s → weaker s) :
    Yields o ok' weaker where
  result := fun hok' => by
    obtain ⟨s, hs, hpost⟩ := h.result (hiff.mpr hok')
    exact ⟨s, hs, himp s hpost⟩
  fault := fun hnot => h.fault (fun hok => hnot (hiff.mp hok))

theorem Yields.isSome_iff (h : Yields o ok post) : o.isSome = true ↔ ok := by
  by_cases hok : ok
  · obtain ⟨s, hs, -⟩ := h.result hok
    simp [hs, hok]
  · simp [h.fault hok, hok]

theorem Yields.post_of_eq (h : Yields o ok post) {s : σ} (hs : o = some s) : ok ∧ post s := by
  have hok : ok := h.isSome_iff.mp (by rw [hs]; rfl)
  obtain ⟨s', hs', hpost⟩ := h.result hok
  rw [hs] at hs'
  cases hs'
  exact ⟨hok, hpost⟩

end Lumos.Outcome
