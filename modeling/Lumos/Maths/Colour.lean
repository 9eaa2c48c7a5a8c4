import Mathlib
import Lumos.Maths.ExactArithmetic

/-!
# `Colour`

A hue is a position on a wheel of six sectors. In each of them one channel is the largest, one
the smallest, and the third goes from one to the other.
-/
namespace Lumos.Maths

open FloatArithmetic FloatLiterals

class FloatRemainders (K : Type) extends FloatLiterals K where
  floorf : K → K
  fmodf : K → K → K

open FloatRemainders

/-- The quotient in `fmodf` is rounded towards zero. -/
instance : FloatRemainders ℚ where
  floorf := fun q => ⌊q⌋
  fmodf := fun x y => x - y * ((x / y).num.tdiv (x / y).den : ℤ)

structure Colour (K : Type) where
  r : K
  g : K
  b : K
  a : K
  deriving DecidableEq

namespace Colour

section Definitions

variable {K : Type}

structure Bounds (K : Type) where
  min : K
  max : K

section Encoding

variable [FloatLiterals K] (colour : Colour K)

def clipped (x : K) : K := if lt 1 x then 1 else if lt x 0 then 0 else x

/-- `Bounds`, which is always called with `clipped` here. -/
def bounds : Bounds K :=
  let bounds : Bounds K :=
    if lt colour.g colour.r then
      if lt colour.b colour.g then ⟨colour.b, colour.r⟩
      else ⟨colour.g, if lt colour.b colour.r then colour.r else colour.b⟩
    else if lt colour.g colour.b then ⟨colour.r, colour.b⟩
    else ⟨if lt colour.r colour.b then colour.r else colour.b, colour.g⟩
  ⟨clipped bounds.min, clipped bounds.max⟩

def chroma : K := colour.bounds.max - colour.bounds.min

def hue (min max : K) : K :=
  let chroma := max - min
  if le chroma mEpsilon then 0
  else if equals colour.g max then (colour.b + two * chroma - colour.r) / (literal 6 * chroma)
  else if equals colour.b max then (literal 4 * chroma - colour.g + colour.r) / (literal 6 * chroma)
  else
    let r := (colour.g - colour.b) / (literal 6 * chroma)
    if lt r 0 then 1 + r else if le 1 r then r - 1 else r

def saturationHSV (min max : K) : K := if le max mEpsilon then 0 else 1 - min / max

def saturationHSL (min max : K) : K :=
  if le max mEpsilon || le (1 - mEpsilon) min then 0
  else
    let hl := max + min
    if le hl 1 then (max - min) / hl else (min - max) / (hl - two)

/-- `ToHSL` -/
def toHSL : Vector3 K :=
  let ⟨min, max⟩ := colour.bounds
  ⟨colour.hue min max, saturationHSL min max, (max + min) * literal (1 / 2)⟩

/-- `ToHSV` -/
def toHSV : Vector3 K :=
  let ⟨min, max⟩ := colour.bounds
  ⟨colour.hue min max, saturationHSV min max, max⟩

end Encoding

section Decoding

variable [FloatRemainders K]

/-- `FromHCM` -/
def fromHCM (h c m a : K) : Colour K :=
  let h := if lt h 0 || le 1 h then h - floorf h else h
  let hs := h * literal 6
  let x := c * (1 - absFloat (fmodf hs two - 1))
  let ⟨r, g, b⟩ : Vector3 K :=
    if lt hs two then
      if lt hs 1 then ⟨c, x, 0⟩ else ⟨x, c, 0⟩
    else if lt hs (literal 4) then
      if lt hs (literal 3) then ⟨0, c, x⟩ else ⟨0, x, c⟩
    else
      if lt hs (literal 5) then ⟨x, 0, c⟩ else ⟨c, 0, x⟩
  ⟨r + m, g + m, b + m, a⟩

/-- `FromHSL` -/
def fromHSL (h s l a : K) : Colour K :=
  let c := if lt l (literal (1 / 2)) then (1 + (two * l - 1)) * s else (1 - (two * l - 1)) * s
  fromHCM h c (l - literal (1 / 2) * c) a

/-- `FromHSV` -/
def fromHSV (h s v a : K) : Colour K :=
  let c := v * s
  fromHCM h c (v - c) a

end Decoding

end Definitions

/-! ## The wheel -/

/-- The channels in some sector, the largest of which is `c` and the second one `x`. -/
def wheel (c x : ℚ) : Fin 6 → Vector3 ℚ
  | 0 => ⟨c, x, 0⟩
  | 1 => ⟨x, c, 0⟩
  | 2 => ⟨0, c, x⟩
  | 3 => ⟨0, x, c⟩
  | 4 => ⟨x, 0, c⟩
  | 5 => ⟨c, 0, x⟩

/-- The second channel rises in every other sector and falls in the others. -/
def ramp (k : Fin 6) (t : ℚ) : ℚ := if k.val % 2 = 0 then t else 1 - t

/-- A colour of the channels of the wheel and what is added to all of them. -/
def raised (v : Vector3 ℚ) (m a : ℚ) : Colour ℚ := ⟨v.x + m, v.y + m, v.z + m, a⟩

theorem fmodf_of_nonneg {x y : ℚ} (hx : 0 ≤ x) (hy : 0 < y) : fmodf x y = x - y * ⌊x / y⌋ := by
  have hquot : 0 ≤ (x / y).num := Rat.num_nonneg.mpr (div_nonneg hx hy.le)
  change x - y * (((x / y).num.tdiv (x / y).den : ℤ) : ℚ) = _
  rw [Int.tdiv_eq_ediv_of_nonneg hquot, Rat.floor_def']

theorem fmodf_sector (k : Fin 6) {t : ℚ} (ht : 0 ≤ t) (ht' : t < 1) :
    fmodf (k.val + t) 2 = (k.val % 2 : ℕ) + t := by
  have hdiv : (k.val : ℚ) = 2 * (k.val / 2 : ℕ) + (k.val % 2 : ℕ) := mod_cast (Nat.div_add_mod k.val 2).symm
  have hmod : ((k.val % 2 : ℕ) : ℚ) ≤ 1 := mod_cast Nat.le_of_lt_succ (Nat.mod_lt _ Nat.two_pos)
  have hmod' : (0 : ℚ) ≤ (k.val % 2 : ℕ) := Nat.cast_nonneg _
  have hfloor : ⌊(k.val + t) / 2⌋ = ((k.val / 2 : ℕ) : ℤ) := by
    rw [Int.floor_eq_iff, Int.cast_natCast]
    constructor <;> linarith
  rw [fmodf_of_nonneg (by positivity) two_pos, hfloor, Int.cast_natCast]
  linarith

/-- The hue at some distance from the start of a sector. -/
theorem fromHCM_sector (k : Fin 6) {t : ℚ} (ht : 0 ≤ t) (ht' : t < 1) (c m a : ℚ) :
    fromHCM ((k.val + t) / 6) c m a = raised (wheel c (c * ramp k t) k) m a := by
  have hk : (k.val : ℚ) ≤ 5 := mod_cast Nat.le_of_lt_succ k.isLt
  have hlow : ¬ (k.val + t) / 6 < 0 := not_lt.mpr (by positivity)
  have hhigh : ¬ 1 ≤ (k.val + t) / 6 := by
    rw [not_le, div_lt_one (by norm_num)]
    linarith
  have hhs : ((k.val : ℚ) + t) / 6 * 6 = k.val + t := div_mul_cancel₀ _ (by norm_num)
  have hx : 1 - absFloat ((k.val % 2 : ℕ) + t - 1) = ramp k t := by
    rcases Nat.mod_two_eq_zero_or_one k.val with hmod | hmod
    · simp only [absFloat, ramp, hmod, le_rat]
      grind
    · simp only [absFloat, ramp, hmod, le_rat]
      grind
  simp only [fromHCM, lt_rat, le_rat, hlow, hhigh, decide_false, Bool.or_false, Bool.false_eq_true, if_false,
    literal_rat, two_rat, hhs, fmodf_sector k ht ht', hx]
  fin_cases k <;> simp [wheel, raised] <;> grind

/-! ## The hue of a colour -/

def smallest (colour : Colour ℚ) : ℚ := min (min colour.r colour.g) colour.b

def middle (colour : Colour ℚ) : ℚ :=
  max (min colour.r colour.g) (min (max colour.r colour.g) colour.b)

def largest (colour : Colour ℚ) : ℚ := max (max colour.r colour.g) colour.b

structure InUnit (colour : Colour ℚ) : Prop where
  red : 0 ≤ colour.r ∧ colour.r ≤ 1
  green : 0 ≤ colour.g ∧ colour.g ≤ 1
  blue : 0 ≤ colour.b ∧ colour.b ≤ 1

/-- The chroma exceeds the tolerance, and so does the distance of the two largest channels if
there is any. -/
structure HasHue (colour : Colour ℚ) : Prop extends InUnit colour where
  chroma : mEpsilon < colour.chroma
  separated : colour.largest = colour.middle ∨ mEpsilon < colour.largest - colour.middle

variable {colour : Colour ℚ}

theorem clipped_of_unit {x : ℚ} (h : 0 ≤ x ∧ x ≤ 1) : clipped x = x := by
  rw [clipped, lt_rat, lt_rat, decide_eq_false (not_lt.mpr h.2), decide_eq_false (not_lt.mpr h.1)]
  rfl

theorem bounds_eq (h : colour.InUnit) : colour.bounds = ⟨colour.smallest, colour.largest⟩ := by
  obtain ⟨hr, hg, hb⟩ := h
  have hmin : clipped colour.smallest = colour.smallest := by
    apply clipped_of_unit
    grind [smallest]
  have hmax : clipped colour.largest = colour.largest := by
    apply clipped_of_unit
    grind [largest]
  have hbounds : (if lt colour.g colour.r then
      if lt colour.b colour.g then ⟨colour.b, colour.r⟩
      else ⟨colour.g, if lt colour.b colour.r then colour.r else colour.b⟩
    else if lt colour.g colour.b then ⟨colour.r, colour.b⟩
    else ⟨if lt colour.r colour.b then colour.r else colour.b, colour.g⟩ : Bounds ℚ) =
      ⟨colour.smallest, colour.largest⟩ := by
    simp only [smallest, largest, lt_rat, decide_eq_true_eq]
    grind
  simp only [bounds, hbounds, hmin, hmax]

theorem chroma_eq (h : colour.InUnit) : colour.chroma = colour.largest - colour.smallest := by
  rw [chroma, bounds_eq h]

/-- Where the hue is, and what the channels are there. -/
def OnWheel (colour : Colour ℚ) : Prop :=
  ∃ (k : Fin 6) (t : ℚ), 0 ≤ t ∧ t < 1 ∧ colour.hue colour.smallest colour.largest = (k.val + t) / 6 ∧
    raised (wheel (colour.largest - colour.smallest) ((colour.largest - colour.smallest) * ramp k t) k)
      colour.smallest colour.a = colour

/-- The second channel, from the hue times six times the chroma. -/
def second (k : Fin 6) (c n : ℚ) : ℚ := if k.val % 2 = 0 then n - k.val * c else (k.val + 1) * c - n

theorem onWheel_of {c n : ℚ} (hc : colour.largest - colour.smallest = c) (hpos : 0 < c) (k : Fin 6)
    (hhue : colour.hue colour.smallest colour.largest = n / (6 * c)) (hlow : k.val * c ≤ n)
    (hhigh : n < (k.val + 1) * c)
    (hwheel : wheel c (second k c n) k =
      ⟨colour.r - colour.smallest, colour.g - colour.smallest, colour.b - colour.smallest⟩) : colour.OnWheel := by
  refine ⟨k, n / c - k.val, ?_, ?_, ?_, ?_⟩
  · rwa [sub_nonneg, le_div_iff₀ hpos]
  · rw [sub_lt_iff_lt_add, div_lt_iff₀ hpos, add_comm]
    exact hhigh
  · rw [hhue]
    field_simp
    ring
  · have hsecond : c * ramp k (n / c - k.val) = second k c n := by
      rw [ramp, second]
      split_ifs <;> field_simp
      ring
    rw [hc, hsecond, hwheel]
    simp [raised]

theorem mEpsilon_pos : (0 : ℚ) < mEpsilon := by
  change (0 : ℚ) < 1 / 1000000
  norm_num

theorem equals_iff {x y : ℚ} (hle : x ≤ y) (hfar : x = y ∨ mEpsilon < y - x) : equals x y = true ↔ x = y := by
  have heps := mEpsilon_pos
  simp only [equals, le_rat, Bool.and_eq_true, decide_eq_true_eq]
  constructor
  · rintro ⟨hnear, -⟩
    rcases hfar with heq | hfar
    · exact heq
    · linarith
  · rintro rfl
    constructor <;> linarith

/-- Every channel is the largest or clearly smaller. -/
theorem HasHue.far (h : colour.HasHue) {x : ℚ} (hx : x ∈ [colour.r, colour.g, colour.b]) :
    x ≤ colour.largest ∧ (x = colour.largest ∨ mEpsilon < colour.largest - x) := by
  have hchroma := h.chroma
  rw [chroma_eq h.toInUnit] at hchroma
  have hsep := h.separated
  simp only [List.mem_cons, List.not_mem_nil, or_false] at hx
  grind [smallest, middle, largest]

/-- The hue of the last branch is brought to the range from zero to one. -/
theorem wrap_eq {d c : ℚ} (hpos : 0 < c) (hle : d ≤ c) :
    (if d / (6 * c) < 0 then 1 + d / (6 * c) else if 1 ≤ d / (6 * c) then d / (6 * c) - 1 else d / (6 * c)) =
      (if d < 0 then 6 * c + d else d) / (6 * c) := by
  have hsix : 0 < 6 * c := by linarith
  by_cases hneg : d < 0
  · rw [if_pos (div_neg_of_neg_of_pos hneg hsix), if_pos hneg, add_div, div_self hsix.ne']
  · have hlow : ¬ d / (6 * c) < 0 := not_lt.mpr (div_nonneg (not_lt.mp hneg) hsix.le)
    have hhigh : ¬ 1 ≤ d / (6 * c) := by
      rw [not_le, div_lt_one hsix]
      linarith
    rw [if_neg hlow, if_neg hhigh, if_neg hneg]

/-- The hue times six times the chroma, from the channel it is measured from. -/
def sixths (colour : Colour ℚ) (chroma : ℚ) : ℚ :=
  if colour.g = colour.largest then colour.b + 2 * chroma - colour.r
  else if colour.b = colour.largest then 4 * chroma - colour.g + colour.r
  else if colour.g - colour.b < 0 then 6 * chroma + (colour.g - colour.b)
  else colour.g - colour.b

theorem HasHue.hue_eq (h : colour.HasHue) : colour.hue colour.smallest colour.largest =
    colour.sixths (colour.largest - colour.smallest) / (6 * (colour.largest - colour.smallest)) := by
  have hchroma := h.chroma
  rw [chroma_eq h.toInUnit] at hchroma
  have hpos : 0 < colour.largest - colour.smallest := mEpsilon_pos.trans hchroma
  obtain ⟨hgle, hgfar⟩ := h.far (x := colour.g) (by simp)
  obtain ⟨hble, hbfar⟩ := h.far (x := colour.b) (by simp)
  have hsmall : colour.smallest ≤ colour.b := min_le_right _ _
  have hwrap := wrap_eq hpos (show colour.g - colour.b ≤ colour.largest - colour.smallest by linarith)
  simp only [hue, sixths, le_rat, lt_rat, decide_eq_true_eq, if_neg (not_le.mpr hchroma), equals_iff hgle hgfar,
    equals_iff hble hbfar, two_rat, literal_rat, hwrap]
  split_ifs <;> rfl

section Sectors

variable {c : ℚ} (hc : colour.largest - colour.smallest = c) (hpos : 0 < c)
include hc hpos

/-- From the sector before green to the start of the one after it. -/
theorem onWheel_green (hg : colour.g = colour.largest)
    (hhue : colour.hue colour.smallest colour.largest = colour.sixths c / (6 * c)) : colour.OnWheel := by
  have hsixths : colour.sixths c = colour.b + 2 * c - colour.r := if_pos hg
  rw [hsixths] at hhue
  have hr : colour.r ≤ colour.g := hg ▸ (le_max_left _ _).trans (le_max_left _ _)
  have hb : colour.b ≤ colour.g := hg ▸ le_max_right _ _
  rcases lt_or_ge colour.b colour.r with hbr | hrb
  · have hsmall : colour.smallest = colour.b := min_eq_right (le_min hbr.le hb)
    refine onWheel_of hc hpos 1 hhue ?_ ?_ ?_ <;> norm_num [wheel, second, hsmall]
    · linarith
    · linarith
    · constructor <;> linarith
  · have hsmall : colour.smallest = colour.r := by rw [smallest, min_eq_left hr, min_eq_left hrb]
    rcases hb.lt_or_eq with hbg | hbg
    · refine onWheel_of hc hpos 2 hhue ?_ ?_ ?_ <;> norm_num [wheel, second, hsmall]
      · linarith
      · linarith
      · constructor <;> linarith
    · refine onWheel_of hc hpos 3 hhue ?_ ?_ ?_ <;> norm_num [wheel, second, hsmall]
      · linarith
      · linarith
      · constructor <;> linarith

theorem onWheel_blue (hg : colour.g ≠ colour.largest) (hb : colour.b = colour.largest)
    (hhue : colour.hue colour.smallest colour.largest = colour.sixths c / (6 * c)) : colour.OnWheel := by
  have hsixths : colour.sixths c = 4 * c - colour.g + colour.r := by rw [sixths, if_neg hg, if_pos hb]
  rw [hsixths] at hhue
  have hr : colour.r ≤ colour.b := hb ▸ (le_max_left _ _).trans (le_max_left _ _)
  have hgb : colour.g < colour.b := hb ▸ lt_of_le_of_ne ((le_max_right _ _).trans (le_max_left _ _)) hg
  rcases lt_or_ge colour.r colour.g with hrg | hgr
  · have hsmall : colour.smallest = colour.r := by rw [smallest, min_eq_left hrg.le, min_eq_left hr]
    refine onWheel_of hc hpos 3 hhue ?_ ?_ ?_ <;> norm_num [wheel, second, hsmall]
    · linarith
    · linarith
    · constructor <;> linarith
  · have hsmall : colour.smallest = colour.g := by rw [smallest, min_eq_right hgr, min_eq_left hgb.le]
    rcases hr.lt_or_eq with hrb | hrb
    · refine onWheel_of hc hpos 4 hhue ?_ ?_ ?_ <;> norm_num [wheel, second, hsmall]
      · linarith
      · linarith
      · constructor <;> linarith
    · refine onWheel_of hc hpos 5 hhue ?_ ?_ ?_ <;> norm_num [wheel, second, hsmall]
      · linarith
      · linarith
      · constructor <;> linarith

/-- Red is the largest in the first sector and in the last one. -/
theorem onWheel_red (hg : colour.g ≠ colour.largest) (hb : colour.b ≠ colour.largest)
    (hhue : colour.hue colour.smallest colour.largest = colour.sixths c / (6 * c)) : colour.OnWheel := by
  have hgl : colour.g < colour.largest := lt_of_le_of_ne ((le_max_right _ _).trans (le_max_left _ _)) hg
  have hbl : colour.b < colour.largest := lt_of_le_of_ne (le_max_right _ _) hb
  have hr : colour.r = colour.largest := by
    rcases max_choice (max colour.r colour.g) colour.b with hmax | hmax
    · rcases max_choice colour.r colour.g with hmax' | hmax'
      · exact (hmax.trans hmax').symm
      · exact absurd (hmax.trans hmax').symm hg
    · exact absurd hmax.symm hb
  rcases lt_or_ge colour.g colour.b with hgb | hbg
  · have hsixths : colour.sixths c = 6 * c + (colour.g - colour.b) := by
      rw [sixths, if_neg hg, if_neg hb, if_pos (sub_neg.mpr hgb)]
    rw [hsixths] at hhue
    have hsmall : colour.smallest = colour.g := by
      rw [smallest, hr, min_eq_right hgl.le, min_eq_left hgb.le]
    refine onWheel_of hc hpos 5 hhue ?_ ?_ ?_ <;> norm_num [wheel, second, hsmall]
    · linarith
    · linarith
    · linarith
  · have hsixths : colour.sixths c = colour.g - colour.b := by
      rw [sixths, if_neg hg, if_neg hb, if_neg (not_lt.mpr (sub_nonneg.mpr hbg))]
    rw [hsixths] at hhue
    have hsmall : colour.smallest = colour.b := min_eq_right (le_min (hr ▸ hbl.le) hbg)
    refine onWheel_of hc hpos 0 hhue ?_ ?_ ?_ <;> norm_num [wheel, second, hsmall]
    · linarith
    · linarith
    · linarith

end Sectors

theorem HasHue.chroma_pos (h : colour.HasHue) : 0 < colour.largest - colour.smallest := by
  rw [← chroma_eq h.toInUnit]
  exact mEpsilon_pos.trans h.chroma

theorem HasHue.onWheel (h : colour.HasHue) : colour.OnWheel := by
  by_cases hg : colour.g = colour.largest
  · exact onWheel_green rfl h.chroma_pos hg h.hue_eq
  · by_cases hb : colour.b = colour.largest
    · exact onWheel_blue rfl h.chroma_pos hg hb h.hue_eq
    · exact onWheel_red rfl h.chroma_pos hg hb h.hue_eq

/-- The hue, the chroma and the smallest channel make up the colour. -/
theorem HasHue.fromHCM_hue (h : colour.HasHue) (a : ℚ) :
    fromHCM (colour.hue colour.smallest colour.largest) (colour.largest - colour.smallest) colour.smallest a =
      { colour with a } := by
  obtain ⟨k, t, ht, ht', hhue, hraised⟩ := h.onWheel
  rw [hhue, fromHCM_sector k ht ht']
  calc raised _ colour.smallest a
    _ = { raised (wheel (colour.largest - colour.smallest) ((colour.largest - colour.smallest) * ramp k t) k)
          colour.smallest colour.a with a } := rfl
    _ = { colour with a } := by rw [hraised]

/-! ## Saturation -/

theorem HasHue.smallest_nonneg (h : colour.HasHue) : 0 ≤ colour.smallest :=
  le_min (le_min h.red.1 h.green.1) h.blue.1

theorem HasHue.largest_le_one (h : colour.HasHue) : colour.largest ≤ 1 :=
  max_le (max_le h.red.2 h.green.2) h.blue.2

theorem HasHue.mEpsilon_lt (h : colour.HasHue) : mEpsilon < colour.largest - colour.smallest := by
  rw [← chroma_eq h.toInUnit]
  exact h.chroma

/-- The chroma is that of the saturation and the value. -/
theorem HasHue.value_mul_saturationHSV (h : colour.HasHue) :
    colour.largest * saturationHSV colour.smallest colour.largest = colour.largest - colour.smallest := by
  have hsmall := h.smallest_nonneg
  have hchroma := h.mEpsilon_lt
  have hpos := mEpsilon_pos
  have hlarge : ¬ colour.largest ≤ mEpsilon := by
    rw [not_le]
    linarith
  have hne : colour.largest ≠ 0 := by
    intro hzero
    linarith
  rw [saturationHSV, le_rat, decide_eq_false hlarge, if_neg Bool.false_ne_true]
  field_simp

/-- The chroma is that of the saturation and the lightness, on either side of one half. -/
theorem HasHue.lightness_mul_saturationHSL (h : colour.HasHue) :
    let l := (colour.largest + colour.smallest) * (1 / 2)
    (if l < 1 / 2 then (1 + (2 * l - 1)) * saturationHSL colour.smallest colour.largest
      else (1 - (2 * l - 1)) * saturationHSL colour.smallest colour.largest) = colour.largest - colour.smallest := by
  have hsmall := h.smallest_nonneg
  have hlarge := h.largest_le_one
  have hchroma := h.mEpsilon_lt
  have hpos := mEpsilon_pos
  have hdark : ¬ colour.largest ≤ mEpsilon := by
    rw [not_le]
    linarith
  have hbright : ¬ 1 - mEpsilon ≤ colour.smallest := by
    rw [not_le]
    linarith
  have hsaturation : saturationHSL colour.smallest colour.largest =
      if colour.largest + colour.smallest ≤ 1 then
        (colour.largest - colour.smallest) / (colour.largest + colour.smallest)
      else (colour.smallest - colour.largest) / (colour.largest + colour.smallest - 2) := by
    simp only [saturationHSL, le_rat, decide_eq_false hdark, decide_eq_false hbright, Bool.or_self,
      Bool.false_eq_true, if_false, two_rat, decide_eq_true_eq]
  intro l
  have htwice : 2 * l = colour.largest + colour.smallest := by
    change 2 * ((colour.largest + colour.smallest) * (1 / 2)) = _
    ring
  clear_value l
  have hsum : 0 < colour.largest + colour.smallest := by linarith
  have hsum' : 2 - (colour.largest + colour.smallest) ≠ 0 := by
    intro hzero
    linarith
  rw [hsaturation]
  by_cases hl : l < 1 / 2
  · have hle : colour.largest + colour.smallest ≤ 1 := by linarith
    rw [if_pos hl, if_pos hle]
    calc (1 + (2 * l - 1)) * ((colour.largest - colour.smallest) / (colour.largest + colour.smallest))
      _ = (colour.largest + colour.smallest) *
          ((colour.largest - colour.smallest) / (colour.largest + colour.smallest)) := by
        rw [htwice, add_sub_cancel]
      _ = colour.largest - colour.smallest := mul_div_cancel₀ _ hsum.ne'
  · rw [if_neg hl]
    by_cases hle : colour.largest + colour.smallest ≤ 1
    · have hone : colour.largest + colour.smallest = 1 := le_antisymm hle (by linarith)
      rw [if_pos hle, hone, htwice, hone]
      ring
    · rw [if_neg hle]
      calc (1 - (2 * l - 1)) * ((colour.smallest - colour.largest) / (colour.largest + colour.smallest - 2))
        _ = (2 - (colour.largest + colour.smallest)) *
            ((colour.largest - colour.smallest) / (2 - (colour.largest + colour.smallest))) := by
          rw [htwice, ← neg_sub colour.largest, ← neg_sub 2, neg_div_neg_eq]
          ring
        _ = colour.largest - colour.smallest := mul_div_cancel₀ _ hsum'

/-! ## Both ways -/

theorem HasHue.fromHSV_toHSV (h : colour.HasHue) (a : ℚ) :
    fromHSV colour.toHSV.x colour.toHSV.y colour.toHSV.z a = { colour with a } := by
  have hvalue := h.value_mul_saturationHSV
  rw [toHSV, bounds_eq h.toInUnit, fromHSV]
  simp only [hvalue, sub_sub_cancel]
  exact h.fromHCM_hue a

theorem HasHue.fromHSL_toHSL (h : colour.HasHue) (a : ℚ) :
    fromHSL colour.toHSL.x colour.toHSL.y colour.toHSL.z a = { colour with a } := by
  have hlightness := h.lightness_mul_saturationHSL
  rw [toHSL, bounds_eq h.toInUnit, fromHSL]
  simp only [literal_rat, two_rat, lt_rat, decide_eq_true_eq] at hlightness ⊢
  rw [hlightness]
  have hmin : (colour.largest + colour.smallest) * (1 / 2) - 1 / 2 * (colour.largest - colour.smallest) =
      colour.smallest := by ring
  rw [hmin]
  exact h.fromHCM_hue a

/-- A colour comes back from its hue, saturation and value, and from its hue, saturation and
lightness. -/
theorem fromHSV_toHSV_and_fromHSL_toHSL (h : colour.HasHue) (a : ℚ) :
    fromHSV colour.toHSV.x colour.toHSV.y colour.toHSV.z a = { colour with a } ∧
      fromHSL colour.toHSL.x colour.toHSL.y colour.toHSL.z a = { colour with a } :=
  ⟨h.fromHSV_toHSV a, h.fromHSL_toHSL a⟩

theorem fromHSV_toHSV_and_fromHSL_toHSL_orange :
    let orange : Colour ℚ := ⟨1, 1 / 2, 0, 1⟩
    fromHSV orange.toHSV.x orange.toHSV.y orange.toHSV.z 1 = orange ∧
      fromHSL orange.toHSL.x orange.toHSL.y orange.toHSL.z 1 = orange :=
  fromHSV_toHSV_and_fromHSL_toHSL
    { red := by decide +kernel
      green := by decide +kernel
      blue := by decide +kernel
      chroma := by decide +kernel
      separated := Or.inr (by decide +kernel) } 1

end Colour

end Lumos.Maths
