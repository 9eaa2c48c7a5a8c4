import Mathlib
import Lumos.Library.ClosedSurface

/-!
# Barrels

Rows of points run round a barrel, from a single point at its top to a single point at its
bottom. Each cell between two rows and two columns is cut into two triangles.
-/
namespace Lumos.Library.Barrel

open ClosedSurface

variable {n : Nat}

/-- A row and a column. The first and last row have one point. -/
abbrev Point (n : Nat) := Nat × ZMod n

def corner (N k : Nat) (c : ZMod n) : Point n := if k = 0 ∨ k = N then (k, 0) else (k, c)

theorem corner_top (N : Nat) (c : ZMod n) : corner N 0 c = (0, 0) := if_pos (Or.inl rfl)

theorem corner_bottom (N : Nat) (c : ZMod n) : corner N N c = (N, 0) := if_pos (Or.inr rfl)

theorem corner_middle {N k : Nat} (htop : k ≠ 0) (hbottom : k ≠ N) (c : ZMod n) : corner N k c = (k, c) :=
  if_neg fun h => h.elim htop hbottom

@[simp] theorem fst_corner (N k : Nat) (c : ZMod n) : (corner N k c).1 = k := by
  rw [corner]
  split <;> rfl

/-! ## Cells -/

/-- The triangle of a cell that has a side on the row above. -/
def first (N k : Nat) (c : ZMod n) : Triangle (Point n) :=
  ⟨corner N k c, corner N (k + 1) c, corner N k (c + 1)⟩

/-- The one that has a side on the row below. -/
def second (N k : Nat) (c : ZMod n) : Triangle (Point n) :=
  ⟨corner N k (c + 1), corner N (k + 1) c, corner N (k + 1) (c + 1)⟩

theorem corner_ne_of_row_ne {N k k' : Nat} (h : k ≠ k') (c c' : ZMod n) : corner N k c ≠ corner N k' c' := by
  intro he
  have hrow := congrArg Prod.fst he
  rw [fst_corner, fst_corner] at hrow
  exact h hrow

theorem add_one_ne (hn : 3 ≤ n) (c : ZMod n) : c + 1 ≠ c := by
  have : Fact (1 < n) := ⟨by omega⟩
  simp

/-- Where a step forward is not a step back. -/
theorem add_one_add_one_ne (hn : 3 ≤ n) (c : ZMod n) : c + 1 + 1 ≠ c := by
  intro h
  have htwo : ((2 : Nat) : ZMod n) = 0 := by
    have hzero : c + (1 + 1) = c + 0 := by rw [← add_assoc, h, add_zero]
    rw [Nat.cast_ofNat, ← one_add_one_eq_two]
    exact add_left_cancel hzero
  rw [ZMod.natCast_eq_zero_iff] at htwo
  have hle := Nat.le_of_dvd (by decide) htwo
  omega

theorem proper_first {N k : Nat} (hn : 3 ≤ n) (htop : k ≠ 0) (hbottom : k < N) (c : ZMod n) :
    (first N k c).Proper where
  ab := corner_ne_of_row_ne (by omega) _ _
  bc := corner_ne_of_row_ne (by omega) _ _
  ca := by
    rw [first, corner_middle htop (by omega), corner_middle htop (by omega)]
    exact fun h => add_one_ne hn c (congrArg Prod.snd h)

theorem proper_second {N k : Nat} (hn : 3 ≤ n) (hbottom : k + 1 ≠ N) (c : ZMod n) : (second N k c).Proper where
  ab := corner_ne_of_row_ne (by omega) _ _
  bc := by
    rw [second, corner_middle (by omega) hbottom, corner_middle (by omega) hbottom]
    exact fun h => add_one_ne hn c (congrArg Prod.snd h).symm
  ca := corner_ne_of_row_ne (by omega) _ _

theorem not_proper_first (N : Nat) (c : ZMod n) : ¬ (first N 0 c).Proper := by
  intro h
  have hca := h.ca
  rw [first, corner_top, corner_top] at hca
  exact hca rfl

theorem not_proper_second {N k : Nat} (h : k + 1 = N) (c : ZMod n) : ¬ (second N k c).Proper := by
  intro hproper
  have hbc := hproper.bc
  rw [second, h, corner_bottom, corner_bottom] at hbc
  exact hbc rfl

/-! ## Directed edges -/

/-- What becomes of a directed edge: the first three are sides of the first triangle. -/
inductive Kind where
  | down | rise | back | fall | along | up

/-- A directed edge by the cell it belongs to. -/
structure Slot (n : Nat) where
  band : Nat
  column : ZMod n
  kind : Kind

namespace Slot

def side (N : Nat) : Slot n → Point n × Point n
  | ⟨k, c, .down⟩ => (corner N k c, corner N (k + 1) c)
  | ⟨k, c, .rise⟩ => (corner N (k + 1) c, corner N k (c + 1))
  | ⟨k, c, .back⟩ => (corner N k (c + 1), corner N k c)
  | ⟨k, c, .fall⟩ => (corner N k (c + 1), corner N (k + 1) c)
  | ⟨k, c, .along⟩ => (corner N (k + 1) c, corner N (k + 1) (c + 1))
  | ⟨k, c, .up⟩ => (corner N (k + 1) (c + 1), corner N k (c + 1))

/-- The kinds of directed edges in a band. -/
def kinds (N k : Nat) : List Kind :=
  (if k = 0 then [] else [.down, .rise, .back]) ++ (if k + 1 = N then [] else [.fall, .along, .up])

structure Valid (N : Nat) (s : Slot n) : Prop where
  band_lt : s.band < N
  kind_mem : s.kind ∈ kinds N s.band

/-- The cell and kind of a directed edge, from its ends. -/
def decode (N : Nat) (side : Point n × Point n) : Slot n :=
  let ((r, c), (r', c')) := side
  if r = r' then
    if c' = c + 1 then ⟨r - 1, c, .along⟩ else ⟨r, c', .back⟩
  else if r < r' then
    if r = 0 then ⟨r, c', .fall⟩
    else if r' = N ∨ c = c' then ⟨r, c, .down⟩
    else ⟨r, c', .fall⟩
  else
    if r' = 0 then ⟨r', c - 1, .up⟩
    else if r ≠ N ∧ c = c' then ⟨r', c' - 1, .up⟩
    else ⟨r', c' - 1, .rise⟩

/-- The same edge in the cell on its other side. -/
def reverse (N : Nat) : Slot n → Slot n
  | ⟨k, c, .down⟩ => if k + 1 = N then ⟨k, c - 1, .rise⟩ else ⟨k, c - 1, .up⟩
  | ⟨k, c, .rise⟩ => if k + 1 = N then ⟨k, c + 1, .down⟩ else ⟨k, c, .fall⟩
  | ⟨k, c, .back⟩ => ⟨k - 1, c, .along⟩
  | ⟨k, c, .fall⟩ => if k = 0 then ⟨k, c - 1, .up⟩ else ⟨k, c, .rise⟩
  | ⟨k, c, .along⟩ => ⟨k + 1, c, .back⟩
  | ⟨k, c, .up⟩ => if k = 0 then ⟨k, c + 1, .fall⟩ else ⟨k, c + 1, .down⟩

theorem mem_kinds {N k : Nat} {kind : Kind} : kind ∈ kinds N k ↔
    match kind with
    | .down | .rise | .back => k ≠ 0
    | .fall | .along | .up => k + 1 ≠ N := by
  cases kind <;> by_cases htop : k = 0 <;> by_cases hbottom : k + 1 = N <;> simp [kinds, htop, hbottom]

theorem decode_side {N : Nat} (hn : 3 ≤ n) {s : Slot n} (h : s.Valid N) : decode N (s.side N) = s := by
  obtain ⟨k, c, kind⟩ := s
  obtain ⟨(hband : k < N), (hkind : kind ∈ kinds N k)⟩ := h
  rw [mem_kinds] at hkind
  have hone := add_one_ne hn c
  have htwo := add_one_add_one_ne hn c
  have hbottom : k ≠ N := Nat.ne_of_lt hband
  cases kind with
  | down =>
    rw [side, corner_middle hkind hbottom]
    by_cases hlast : k + 1 = N
    · rw [hlast, corner_bottom, decode, if_neg hbottom, if_pos hband, if_neg hkind, if_pos (Or.inl rfl)]
    · rw [corner_middle (by omega) hlast, decode, if_neg (by omega), if_pos (by omega), if_neg hkind,
        if_pos (Or.inr rfl)]
  | rise =>
    rw [side, corner_middle hkind hbottom]
    by_cases hlast : k + 1 = N
    · rw [hlast, corner_bottom, decode, if_neg hbottom.symm, if_neg (by omega), if_neg hkind, if_neg (by simp),
        add_sub_cancel_right]
    · rw [corner_middle (by omega) hlast, decode, if_neg (by omega), if_neg (by omega), if_neg hkind,
        if_neg fun h => hone h.2.symm, add_sub_cancel_right]
  | back =>
    rw [side, corner_middle hkind hbottom, corner_middle hkind hbottom, decode, if_pos rfl, if_neg htwo.symm]
  | fall =>
    rw [side, corner_middle (by omega) hkind]
    by_cases htop : k = 0
    · rw [htop, corner_top, decode, if_neg (by omega), if_pos (by omega), if_pos rfl]
    · rw [corner_middle htop hbottom, decode, if_neg (by omega), if_pos (by omega), if_neg htop,
        if_neg fun h => h.elim hkind hone]
  | along =>
    rw [side, corner_middle (by omega) hkind, corner_middle (by omega) hkind, decode, if_pos rfl, if_pos rfl,
      Nat.add_sub_cancel]
  | up =>
    rw [side, corner_middle (by omega) hkind]
    by_cases htop : k = 0
    · rw [htop, corner_top, decode, if_neg (by omega), if_neg (by omega), if_pos rfl, add_sub_cancel_right]
    · rw [corner_middle htop hbottom, decode, if_neg (by omega), if_neg (by omega), if_neg htop, if_pos ⟨hkind, rfl⟩,
        add_sub_cancel_right]

theorem valid_iff {N k : Nat} {c : ZMod n} {kind : Kind} :
    (⟨k, c, kind⟩ : Slot n).Valid N ↔ k < N ∧ kind ∈ kinds N k := ⟨fun h => ⟨h.1, h.2⟩, fun h => ⟨h.1, h.2⟩⟩

theorem valid_reverse {N : Nat} (hN : 2 ≤ N) {s : Slot n} (h : s.Valid N) : (s.reverse N).Valid N := by
  obtain ⟨k, c, kind⟩ := s
  obtain ⟨(hband : k < N), (hkind : kind ∈ kinds N k)⟩ := h
  rw [mem_kinds] at hkind
  cases kind with
  | down =>
    rw [reverse]
    split <;> rw [valid_iff, mem_kinds] <;> exact ⟨hband, by assumption⟩
  | rise =>
    rw [reverse]
    split <;> rw [valid_iff, mem_kinds] <;> exact ⟨hband, by assumption⟩
  | back =>
    rw [reverse, valid_iff, mem_kinds]
    exact ⟨by omega, by omega⟩
  | fall =>
    rw [reverse]
    split <;> rw [valid_iff, mem_kinds] <;> exact ⟨hband, by assumption⟩
  | along =>
    rw [reverse, valid_iff, mem_kinds]
    exact ⟨by omega, by omega⟩
  | up =>
    rw [reverse]
    split <;> rw [valid_iff, mem_kinds] <;> exact ⟨hband, by assumption⟩

theorem side_reverse {N : Nat} {s : Slot n} (h : s.Valid N) : (s.reverse N).side N = (s.side N).swap := by
  obtain ⟨k, c, kind⟩ := s
  obtain ⟨(hband : k < N), (hkind : kind ∈ kinds N k)⟩ := h
  rw [mem_kinds] at hkind
  cases kind with
  | down =>
    rw [reverse]
    split
    · next hlast => rw [side, side, Prod.swap_prod_mk, hlast, corner_bottom, corner_bottom, sub_add_cancel]
    · rw [side, side, Prod.swap_prod_mk, sub_add_cancel]
  | rise =>
    rw [reverse]
    split
    · next hlast => rw [side, side, Prod.swap_prod_mk, hlast, corner_bottom, corner_bottom]
    · rfl
  | back =>
    have hband' : k - 1 + 1 = k := by omega
    rw [reverse, side, side, Prod.swap_prod_mk, hband']
  | fall =>
    rw [reverse]
    split
    · next htop => rw [side, side, Prod.swap_prod_mk, htop, corner_top, corner_top, sub_add_cancel]
    · rfl
  | along => rfl
  | up =>
    rw [reverse]
    split
    · next htop => rw [side, side, Prod.swap_prod_mk, htop, corner_top, corner_top]
    · rfl

end Slot

/-! ## Barrels are closed -/

def columns (n : Nat) : List (ZMod n) := (List.range n).map Nat.cast

def cell (N k : Nat) (c : ZMod n) : List (Triangle (Point n)) := [first N k c, second N k c]

def barrel (N n : Nat) : List (Triangle (Point n)) :=
  (List.range N).flatMap fun k => (columns n).flatMap (cell N k)

/-- The directed edges of so many bands, with some kinds of them in each. -/
def slots (kinds : Nat → List Kind) (N n : Nat) : List (Slot n) :=
  (List.range N).flatMap fun k => (columns n).flatMap fun c => (kinds k).map (⟨k, c, ·⟩)

theorem nodup_columns (n : Nat) : (columns n).Nodup := by
  apply List.Nodup.map_on
  · intro i hi j hj he
    rw [ZMod.natCast_eq_natCast_iff', Nat.mod_eq_of_lt (List.mem_range.mp hi), Nat.mod_eq_of_lt (List.mem_range.mp hj)]
      at he
    exact he
  · exact List.nodup_range

theorem mem_columns (hn : 0 < n) (c : ZMod n) : c ∈ columns n := by
  have : NeZero n := ⟨by omega⟩
  exact List.mem_map.mpr ⟨c.val, List.mem_range.mpr c.val_lt, ZMod.natCast_zmod_val c⟩

theorem mem_slots {kinds : Nat → List Kind} {N : Nat} (hn : 0 < n) {s : Slot n} :
    s ∈ slots kinds N n ↔ s.band < N ∧ s.kind ∈ kinds s.band := by
  obtain ⟨k, c, kind⟩ := s
  rw [slots]
  constructor
  · intro h
    obtain ⟨k', hk', h⟩ := List.mem_flatMap.mp h
    obtain ⟨c', -, h⟩ := List.mem_flatMap.mp h
    obtain ⟨kind', hkind', he⟩ := List.mem_map.mp h
    cases he
    exact ⟨List.mem_range.mp hk', hkind'⟩
  · rintro ⟨hk, hkind⟩
    exact List.mem_flatMap.mpr ⟨k, List.mem_range.mpr hk, List.mem_flatMap.mpr ⟨c, mem_columns hn c,
      List.mem_map.mpr ⟨kind, hkind, rfl⟩⟩⟩

theorem nodup_slots {kinds : Nat → List Kind} (hkinds : ∀ k, (kinds k).Nodup) (N n : Nat) : (slots kinds N n).Nodup := by
  rw [slots, List.nodup_flatMap]
  constructor
  · intro k _
    rw [List.nodup_flatMap]
    constructor
    · intro c _
      exact (hkinds k).map fun kind kind' he => congrArg Slot.kind he
    · refine (nodup_columns n).imp fun hne s hs hs' => ?_
      obtain ⟨kind, -, rfl⟩ := List.mem_map.mp hs
      obtain ⟨kind', -, he⟩ := List.mem_map.mp hs'
      exact hne (congrArg Slot.column he).symm
  · refine List.nodup_range.imp fun hne s hs hs' => ?_
    obtain ⟨c, -, hs⟩ := List.mem_flatMap.mp hs
    obtain ⟨c', -, hs'⟩ := List.mem_flatMap.mp hs'
    obtain ⟨kind, -, rfl⟩ := List.mem_map.mp hs
    obtain ⟨kind', -, he⟩ := List.mem_map.mp hs'
    exact hne (congrArg Slot.band he).symm

theorem nodup_kinds (N k : Nat) : (Slot.kinds N k).Nodup := by
  rw [Slot.kinds]
  split <;> split <;> simp

/-- A surface with some of the directed edges of a barrel is closed if it has their reverses. -/
theorem closed_iff_reverse {N : Nat} (hn : 3 ≤ n) (hN : 2 ≤ N) {ts : List (Triangle (Point n))} {l : List (Slot n)}
    (hvalid : ∀ s ∈ l, s.Valid N) (hnodup : l.Nodup) (hsides : sides ts = l.map (Slot.side N)) :
    Closed ts ↔ ∀ s ∈ l, s.reverse N ∈ l := by
  have hinj : ∀ s t : Slot n, s.Valid N → t.Valid N → s.side N = t.side N → s = t := by
    intro s t hs ht he
    rw [← Slot.decode_side hn hs, he, Slot.decode_side hn ht]
  rw [closed_iff, hsides]
  constructor
  · rintro ⟨-, hswap⟩ s hs
    obtain ⟨t, ht, he⟩ := List.mem_map.mp (hswap _ (List.mem_map_of_mem hs))
    rw [← Slot.side_reverse (hvalid s hs)] at he
    rw [← hinj t _ (hvalid t ht) (Slot.valid_reverse hN (hvalid s hs)) he]
    exact ht
  · intro h
    refine ⟨hnodup.map_on fun s hs t ht he => hinj s t (hvalid s hs) (hvalid t ht) he, fun side hside => ?_⟩
    obtain ⟨s, hs, rfl⟩ := List.mem_map.mp hside
    exact List.mem_map.mpr ⟨s.reverse N, h s hs, Slot.side_reverse (hvalid s hs)⟩

theorem sides_first {N k : Nat} (hn : 3 ≤ n) (hk : k < N) (c : ZMod n) :
    sides [first N k c] = (if k = 0 then [] else [Kind.down, .rise, .back]).map fun kind => Slot.side N ⟨k, c, kind⟩ := by
  split
  · next htop =>
    rw [htop, sides_degenerate (not_proper_first N c)]
    rfl
  · next htop =>
    rw [sides_singleton (proper_first hn htop hk c)]
    rfl

theorem sides_second {N k : Nat} (hn : 3 ≤ n) (c : ZMod n) :
    sides [second N k c] =
      (if k + 1 = N then [] else [Kind.fall, .along, .up]).map fun kind => Slot.side N ⟨k, c, kind⟩ := by
  split
  · next hlast =>
    rw [sides_degenerate (not_proper_second hlast c)]
    rfl
  · next hlast =>
    rw [sides_singleton (proper_second hn hlast c)]
    rfl

theorem sides_barrel {N : Nat} (hn : 3 ≤ n) : sides (barrel N n) = (slots (Slot.kinds N) N n).map (Slot.side N) := by
  rw [barrel, slots, sides_flatMap, List.map_flatMap]
  apply List.flatMap_congr
  intro k hk
  rw [sides_flatMap, List.map_flatMap]
  apply List.flatMap_congr
  intro c _
  rw [cell, sides_cons, sides_first hn (List.mem_range.mp hk), sides_second hn, ← List.map_append, List.map_map]
  rfl

theorem reverse_mem_slots {N : Nat} (hn : 0 < n) (hN : 2 ≤ N) {s : Slot n} (h : s ∈ slots (Slot.kinds N) N n) :
    s.reverse N ∈ slots (Slot.kinds N) N n := by
  rw [mem_slots hn] at h ⊢
  have hvalid := Slot.valid_reverse hN ⟨h.1, h.2⟩
  exact ⟨hvalid.band_lt, hvalid.kind_mem⟩

theorem closed_barrel {N : Nat} (hn : 3 ≤ n) (hN : 2 ≤ N) : Closed (barrel N n) := by
  apply (closed_iff_reverse hn hN _ (nodup_slots (nodup_kinds N) N n) (sides_barrel hn)).mpr
  · exact fun s hs => reverse_mem_slots (by omega) hN hs
  · intro s hs
    obtain ⟨hband, hkind⟩ := (mem_slots (by omega)).mp hs
    exact ⟨hband, hkind⟩

end Lumos.Library.Barrel

/-!
# Surfaces of revolution

A barrel in space: its rows are circles about an axis, with the same number of points on each.
Points that are different in the barrel are so in space.
-/
namespace Lumos.Library.Revolution

open Barrel ClosedSurface

/-! ## Directions -/

/-- The angle of a column, in a turn of `n` columns. -/
noncomputable def angle (n j : Nat) : ℝ := (Real.pi + Real.pi) * (j / n)

theorem angle_eq (n j : Nat) : angle n j = 2 * Real.pi * (j / n) := by rw [angle, two_mul]

/-- `x / 2` -/
noncomputable def half (x : ℝ) : ℝ := x / (1 + 1)

theorem half_eq (x : ℝ) : half x = x / 2 := by rw [half, one_add_one_eq_two]

section Directions

variable {n : Nat}

/-- Columns a whole number of turns apart have the same direction. -/
theorem angle_eq_of_cast_eq {i j : Nat} (hn : 0 < n) (h : (i : ZMod n) = j) : (angle n i : Real.Angle) = angle n j := by
  have hn' : (n : ℝ) ≠ 0 := by
    rw [Nat.cast_ne_zero]
    omega
  have hdvd : (n : ℤ) ∣ (i : ℤ) - j := by
    rw [← ZMod.intCast_zmod_eq_zero_iff_dvd]
    push_cast
    rw [h, sub_self]
  obtain ⟨q, hq⟩ := hdvd
  have hq' : (i : ℝ) - j = n * q := by exact_mod_cast hq
  rw [Real.Angle.angle_eq_iff_two_pi_dvd_sub]
  refine ⟨q, ?_⟩
  rw [angle_eq, angle_eq, ← mul_sub, ← sub_div, hq', mul_div_cancel_left₀ _ hn']

/-- Other columns do not. -/
theorem cast_eq_of_angle_eq {i j : Nat} (hn : 0 < n) (h : (angle n i : Real.Angle) = angle n j) : (i : ZMod n) = j := by
  have hn' : (n : ℝ) ≠ 0 := by
    rw [Nat.cast_ne_zero]
    omega
  obtain ⟨q, hq⟩ := Real.Angle.angle_eq_iff_two_pi_dvd_sub.mp h
  rw [angle_eq, angle_eq, ← mul_sub, ← sub_div] at hq
  have hquot : ((i : ℝ) - j) / n = q := mul_left_cancel₀ Real.two_pi_pos.ne' hq
  rw [div_eq_iff hn'] at hquot
  have hdvd : (i : ℤ) - j = q * n := by exact_mod_cast hquot
  have hzero : ((i : ℤ) - j : ZMod n) = 0 := by
    have hcast := congrArg (Int.cast : ℤ → ZMod n) hdvd
    push_cast at hcast ⊢
    simpa using hcast
  push_cast at hzero
  exact sub_eq_zero.mp hzero

end Directions

/-! ## Points in space -/

/-- The radius and height of the rows of a barrel. -/
structure Profile (N : Nat) where
  radius : Nat → ℝ
  height : Nat → ℝ
  radius_top : radius 0 = 0
  radius_bottom : radius N = 0
  radius_pos : ∀ k, 0 < k → k < N → 0 < radius k
  distinct : ∀ k k', k ≤ N → k' ≤ N → radius k = radius k' → height k = height k' → k = k'

/-- Rows that lie lower and lower are different. -/
theorem eq_of_height_eq {N : Nat} {height : Nat → ℝ} (h : ∀ k < N, height (k + 1) < height k) {k k' : Nat}
    (hk : k ≤ N) (hk' : k' ≤ N) (he : height k = height k') : k = k' := by
  have hlt : ∀ d k, k + (d + 1) ≤ N → height (k + (d + 1)) < height k := by
    intro d
    induction d with
    | zero => exact fun k hk => h k (by omega)
    | succ d ih => exact fun k hk => (h (k + (d + 1)) (by omega)).trans (ih k (by omega))
  rcases Nat.lt_trichotomy k k' with hlt' | heq | hlt'
  · obtain ⟨d, rfl⟩ := Nat.exists_eq_add_of_lt hlt'
    exact absurd he (hlt d k hk').ne'
  · exact heq
  · obtain ⟨d, rfl⟩ := Nat.exists_eq_add_of_lt hlt'
    exact absurd he (hlt d k' hk).ne

namespace Profile

variable {N n : Nat} (p : Profile N)

theorem radius_nonneg {k : Nat} (hk : k ≤ N) : 0 ≤ p.radius k := by
  rcases Nat.eq_zero_or_pos k with rfl | hpos
  · exact p.radius_top.ge
  · rcases Nat.lt_or_eq_of_le hk with hlt | rfl
    · exact (p.radius_pos k hpos hlt).le
    · exact p.radius_bottom.ge

/-- Where a point of the barrel is: two coordinates across the axis and one along it. -/
noncomputable def place (x : Point n) : ℝ × ℝ × ℝ :=
  (p.radius x.1 * Real.cos (angle n x.2.val), p.radius x.1 * Real.sin (angle n x.2.val), p.height x.1)

/-- A column may be counted beyond the turn. -/
theorem place_corner (hn : 0 < n) (k j : Nat) :
    p.place (corner N k (j : ZMod n)) =
      (p.radius k * Real.cos (angle n j), p.radius k * Real.sin (angle n j), p.height k) := by
  have hne : NeZero n := ⟨by omega⟩
  rcases Nat.eq_zero_or_pos k with rfl | hpos
  · rw [corner_top, place]
    simp [p.radius_top]
  · by_cases hbottom : k = N
    · rw [hbottom, corner_bottom, place]
      simp [p.radius_bottom]
    · have hangle : (angle n (j : ZMod n).val : Real.Angle) = angle n j := by
        apply angle_eq_of_cast_eq hn
        rw [ZMod.natCast_val, ZMod.cast_id', id]
      rw [corner_middle (by omega) hbottom, place, ← Real.Angle.cos_coe, ← Real.Angle.sin_coe, hangle, Real.Angle.cos_coe,
        Real.Angle.sin_coe]

/-- The points a barrel is made of. -/
def points (N n : Nat) : Set (Point n) := {x | ∃ k ≤ N, ∃ c, x = corner N k c}

theorem injOn_place (hn : 0 < n) : (points N n).InjOn p.place := by
  have hne : NeZero n := ⟨by omega⟩
  rintro x ⟨k, hk, c, rfl⟩ y ⟨k', hk', c', rfl⟩ he
  obtain ⟨i, rfl⟩ : ∃ i : Nat, (i : ZMod n) = c := ⟨c.val, ZMod.natCast_zmod_val c⟩
  obtain ⟨j, rfl⟩ : ∃ j : Nat, (j : ZMod n) = c' := ⟨c'.val, ZMod.natCast_zmod_val c'⟩
  rw [p.place_corner hn, p.place_corner hn, Prod.mk.injEq, Prod.mk.injEq] at he
  obtain ⟨hcos, hsin, hheight⟩ := he
  have hradius : p.radius k = p.radius k' := by
    rw [← Real.sqrt_sq (p.radius_nonneg hk), ← Real.sqrt_sq (p.radius_nonneg hk')]
    congr 1
    calc p.radius k ^ 2
        = (p.radius k * Real.cos (angle n i)) ^ 2 + (p.radius k * Real.sin (angle n i)) ^ 2 := by
          rw [mul_pow, mul_pow, ← mul_add, Real.cos_sq_add_sin_sq, mul_one]
      _ = (p.radius k' * Real.cos (angle n j)) ^ 2 + (p.radius k' * Real.sin (angle n j)) ^ 2 := by rw [hcos, hsin]
      _ = p.radius k' ^ 2 := by rw [mul_pow, mul_pow, ← mul_add, Real.cos_sq_add_sin_sq, mul_one]
  obtain rfl := p.distinct k k' hk hk' hradius hheight
  rcases Nat.eq_zero_or_pos k with rfl | hpos
  · rw [corner_top, corner_top]
  · by_cases hbottom : k = N
    · rw [hbottom, corner_bottom, corner_bottom]
    · have hne := (p.radius_pos k hpos (by omega)).ne'
      have hangle := Real.Angle.cos_sin_inj (mul_left_cancel₀ hne hcos) (mul_left_cancel₀ hne hsin)
      rw [cast_eq_of_angle_eq hn hangle]

end Profile

end Lumos.Library.Revolution
