import Mathlib.Algebra.Order.Field.Power
import Mathlib.Data.Rat.Cast.Order
import Mathlib.Tactic.FieldSimp
import Mathlib.Tactic.Linarith
import Mathlib.Tactic.Ring
import SqlAssembly.Decimal.Binary

/-! # Nearest binary numbers

A pattern stands for a significand times a power of two, and the significands of one exponent form a
grid.  The pattern computed for a ratio takes the point of the ratio's own grid that is nearest to
it; the numbers of coarser grids lie on this one, and those of finer grids lie below it.  So no
number of the format is nearer, and a ratio that is a number of the format is hit. -/
namespace SqlAssembly.Decimal

/-! ## Nearest approximations -/

/-- Of two approximations of `x`, the first is nearer, or as near and then equal or even. -/
def Preferred (even : Prop) (x q r : ℚ) : Prop :=
  |q - x| ≤ |r - x| ∧ (|q - x| = |r - x| → r = q ∨ even)

namespace Preferred

variable {even : Prop} {x q r : ℚ}

theorem of_lt (h : |q - x| < |r - x|) : Preferred even x q r :=
  ⟨h.le, fun heq => absurd heq h.ne⟩

theorem scale (h : Preferred even x q r) {c : ℚ} (hc : 0 < c) :
    Preferred even (x * c) (q * c) (r * c) := by
  have hdistance (a : ℚ) : |a * c - x * c| = |a - x| * c := by
    rw [← sub_mul, abs_mul, abs_of_pos hc]
  rw [Preferred, hdistance, hdistance, mul_le_mul_iff_of_pos_right hc, mul_left_inj' hc.ne',
    mul_left_inj' hc.ne']
  exact h

/-- Signs change nothing: on the other side of zero, no number is nearer than zero itself. -/
theorem signed {s t : ℚ} (hs : |s| = 1) (ht : |t| = 1) (hr : 0 ≤ r) (hx : 0 ≤ x)
    (hzero : Preferred even x q 0) (h : Preferred even x q r) :
    Preferred even (s * x) (s * q) (t * r) := by
  have hsame (a : ℚ) : |s * a - s * x| = |a - x| := by rw [← mul_sub, abs_mul, hs, one_mul]
  rcases abs_eq_abs.1 (ht.trans hs.symm) with rfl | rfl
  · rw [Preferred, hsame, hsame]
    exact ⟨h.1, fun heq => (h.2 heq).imp_left fun hr => by rw [hr]⟩
  · have hopposite : |-s * r - s * x| = r + x := by
      rw [neg_mul, ← neg_add', abs_neg, ← mul_add, abs_mul, hs, one_mul,
        abs_of_nonneg (add_nonneg hr hx)]
    rw [Preferred, zero_sub, abs_neg, abs_of_nonneg hx] at hzero
    rw [Preferred, hsame, hopposite]
    refine ⟨hzero.1.trans (le_add_of_nonneg_left hr), fun heq => ?_⟩
    obtain rfl : r = 0 := by linarith
    refine (hzero.2 (by linarith)).imp_left fun hq => ?_
    rw [← hq, mul_zero, mul_zero]

end Preferred

/-! ## Rounded quotients -/

theorem roundDiv_cases (num : Nat) {den : Nat} (h : 0 < den) :
    ∃ q r, num = q * den + r ∧ r < den ∧
      (2 * r < den ∧ roundDiv num den = q ∨ den < 2 * r ∧ roundDiv num den = q + 1 ∨
        2 * r = den ∧ roundDiv num den = q + q % 2) := by
  refine ⟨num / den, num % den, (Nat.div_add_mod' num den).symm, Nat.mod_lt _ h, ?_⟩
  rw [roundDiv]
  split
  next hlow => exact .inl ⟨hlow, rfl⟩
  next hlow =>
    split
    next hhigh => exact .inr (.inl ⟨hhigh, rfl⟩)
    next hhigh => exact .inr (.inr ⟨by omega, rfl⟩)

theorem natAbs_roundDiv (num j : Nat) {den : Nat} (h : 0 < den) :
    (roundDiv num den * den - num : ℤ).natAbs ≤ (j * den - num : ℤ).natAbs ∧
      ((roundDiv num den * den - num : ℤ).natAbs = (j * den - num : ℤ).natAbs →
        j = roundDiv num den ∨ roundDiv num den % 2 = 0) := by
  obtain ⟨q, r, rfl, hr, hround⟩ := roundDiv_cases num h
  -- The products are linear once it is known on which side of the quotient `j` lies.
  have hside : j ≤ q ∧ j * den ≤ q * den ∨ q + 1 ≤ j ∧ (q + 1) * den ≤ j * den := by
    rcases Nat.lt_or_ge q j with hj | hj
    · exact .inr ⟨hj, Nat.mul_le_mul_right den hj⟩
    · exact .inl ⟨hj, Nat.mul_le_mul_right den hj⟩
  have hsame (m : Nat) (hm : j * den = m * den) : j = m := Nat.eq_of_mul_eq_mul_right h hm
  have hq := hsame q
  have hq' := hsame (q + 1)
  have hnext : (q + 1) * den = q * den + den := Nat.succ_mul q den
  simp only [← Int.natCast_mul]
  obtain ⟨hlow, hm⟩ | ⟨hhigh, hm⟩ | ⟨htie, hm⟩ := hround
  · rw [hm]
    omega
  · rw [hm]
    omega
  · rcases Nat.mod_two_eq_zero_or_one q with heven | hodd
    · rw [heven, Nat.add_zero] at hm
      rw [hm]
      omega
    · rw [hodd] at hm
      rw [hm]
      omega

theorem roundDiv_preferred (num j : Nat) {den : Nat} (h : 0 < den) :
    Preferred (roundDiv num den % 2 = 0) num (roundDiv num den * den) (j * den) := by
  have hcast (m : Nat) : |(m * den - num : ℚ)| = (m * den - num : ℤ).natAbs := by
    rw [Nat.cast_natAbs]
    push_cast
    rfl
  obtain ⟨hle, htie⟩ := natAbs_roundDiv num j h
  rw [Preferred, hcast, hcast, Nat.cast_le, Nat.cast_inj]
  exact ⟨hle, fun heq => (htie heq).imp_left fun hj => by rw [← hj]⟩

theorem roundDiv_le {num den j : Nat} (h : 0 < den) (hle : num ≤ j * den) :
    roundDiv num den ≤ j := by
  obtain ⟨q, r, rfl, hr, hround⟩ := roundDiv_cases num h
  have hq : q ≤ j := Nat.le_of_mul_le_mul_right (Nat.le_trans (Nat.le_add_right _ _) hle) h
  rcases Nat.eq_or_lt_of_le hq with rfl | hq <;> omega

theorem le_roundDiv {num den j : Nat} (h : 0 < den) (hle : j * den ≤ num) :
    j ≤ roundDiv num den := by
  obtain ⟨q, r, rfl, hr, hround⟩ := roundDiv_cases num h
  have hq : j < q + 1 := by
    refine Nat.lt_of_mul_lt_mul_right (a := den) ?_
    rw [Nat.succ_mul]
    omega
  omega

/-! ## Scaled ratios -/

theorem two_zpow (e : ℤ) : (2 : ℚ) ^ e = 2 ^ e.toNat / 2 ^ (-e).toNat := by
  rw [← zpow_natCast, ← zpow_natCast, ← zpow_sub₀ two_ne_zero, Int.toNat_sub_toNat_neg]

theorem scaled_ratio (num den : Nat) (e : ℤ) :
    ((num * 2 ^ (-e).toNat : Nat) : ℚ) / (den * 2 ^ e.toNat : Nat) = num / den / 2 ^ e := by
  rw [two_zpow]
  push_cast
  field_simp

theorem scaled_le_iff (num : Nat) {den : Nat} (h : 0 < den) (e : ℤ) (j : Nat) :
    j * (den * 2 ^ e.toNat) ≤ num * 2 ^ (-e).toNat ↔ j * (2 : ℚ) ^ e ≤ num / den := by
  have hden : (0 : ℚ) < (den * 2 ^ e.toNat : Nat) := by positivity
  rw [← le_div_iff₀ (zpow_pos two_pos e), ← scaled_ratio, le_div_iff₀ hden]
  exact_mod_cast Iff.rfl

theorem floorLog2_spec {num den : Nat} (hnum : 0 < num) (hden : 0 < den) :
    (2 : ℚ) ^ floorLog2 num den ≤ num / den ∧ (num / den : ℚ) < 2 ^ (floorLog2 num den + 1) := by
  have hpos : (0 : ℚ) < den := Nat.cast_pos.2 hden
  have hnumLow : (2 : ℚ) ^ (num.log2 : ℤ) ≤ num := by exact_mod_cast Nat.log2_self_le hnum.ne'
  have hnumHigh : (num : ℚ) < 2 ^ (num.log2 + 1 : ℤ) := by exact_mod_cast Nat.lt_log2_self
  have hdenLow : (2 : ℚ) ^ (den.log2 : ℤ) ≤ den := by exact_mod_cast Nat.log2_self_le hden.ne'
  have hdenHigh : (den : ℚ) < 2 ^ (den.log2 + 1 : ℤ) := by exact_mod_cast Nat.lt_log2_self
  have htest := scaled_le_iff num hden (num.log2 - den.log2) 1
  rw [Nat.one_mul, Nat.cast_one, one_mul] at htest
  simp only [floorLog2, htest]
  generalize hk : (num.log2 - den.log2 : ℤ) = k
  have hlow : (2 : ℚ) ^ (k - 1) ≤ num / den := by
    rw [le_div_iff₀ hpos]
    calc (2 : ℚ) ^ (k - 1) * den ≤ 2 ^ (k - 1) * 2 ^ (den.log2 + 1 : ℤ) := by gcongr
      _ = 2 ^ (num.log2 : ℤ) := by rw [← zpow_add₀ two_ne_zero]; congr 1; omega
      _ ≤ num := hnumLow
  have hhigh : (num / den : ℚ) < 2 ^ (k + 1) := by
    rw [div_lt_iff₀ hpos]
    calc (num : ℚ) < 2 ^ (num.log2 + 1 : ℤ) := hnumHigh
      _ = 2 ^ (k + 1) * 2 ^ (den.log2 : ℤ) := by rw [← zpow_add₀ two_ne_zero]; congr 1; omega
      _ ≤ 2 ^ (k + 1) * den := by gcongr
  split
  next h => exact ⟨h, hhigh⟩
  next h => exact ⟨hlow, by rw [sub_add_cancel]; exact not_le.1 h⟩

/-! ## Numbers of a format -/

namespace Format

variable (f : Format)

def value (pattern : Nat) : ℚ := (f.decode pattern).1 * 2 ^ (f.decode pattern).2

@[simp] theorem value_zero : f.value 0 = 0 := by simp [value, decode]

theorem decode_mul_add (field : Nat) {rest : Nat} (h : rest < 2 ^ (f.precision - 1)) :
    f.decode (field * 2 ^ (f.precision - 1) + rest) =
      if field = 0 then (rest, f.leastExponent)
      else (rest + 2 ^ (f.precision - 1), f.leastExponent + (field - 1 : Nat)) := by
  have hdiv : (field * 2 ^ (f.precision - 1) + rest) / 2 ^ (f.precision - 1) = field :=
    Nat.div_eq_of_lt_le (Nat.le_add_right _ _) (by rw [Nat.succ_mul]; omega)
  have hmod : (field * 2 ^ (f.precision - 1) + rest) % 2 ^ (f.precision - 1) = rest := by
    rw [Nat.add_comm, Nat.add_mul_mod_self_right, Nat.mod_eq_of_lt h]
  rw [decode, hdiv, hmod]
  by_cases hfield : field = 0 <;> simp [hfield]

variable {f}

/-- Exponents are placed above significands, and one that has grown to the next power of two carries
into them. -/
theorem value_mul_add (hp : 0 < f.precision) {k m : Nat} (hk : k = 0 ∨ 2 ^ (f.precision - 1) ≤ m)
    (hm : m ≤ 2 ^ f.precision) :
    f.value (k * 2 ^ (f.precision - 1) + m) = m * 2 ^ (f.leastExponent + k) := by
  have htwice : 2 ^ (f.precision - 1) * 2 = 2 ^ f.precision := Nat.two_pow_pred_mul_two hp
  have hunit : 0 < 2 ^ (f.precision - 1) := Nat.two_pow_pos _
  rcases Nat.lt_or_ge m (2 ^ (f.precision - 1)) with hlow | hlow
  · obtain rfl : k = 0 := by omega
    rw [value, f.decode_mul_add 0 hlow]
    simp
  rcases Nat.lt_or_eq_of_le hm with hm | rfl
  · obtain ⟨rest, rfl⟩ := Nat.exists_eq_add_of_le' hlow
    have hsplit : k * 2 ^ (f.precision - 1) + (rest + 2 ^ (f.precision - 1)) =
        (k + 1) * 2 ^ (f.precision - 1) + rest := by rw [Nat.succ_mul]; omega
    rw [value, hsplit, f.decode_mul_add (k + 1) (by omega)]
    simp
  · have hsplit : k * 2 ^ (f.precision - 1) + 2 ^ f.precision =
        (k + 2) * 2 ^ (f.precision - 1) + 0 := by rw [Nat.add_mul]; omega
    rw [value, hsplit, f.decode_mul_add (k + 2) hunit, ← htwice]
    simp only [Nat.add_eq_zero_iff, OfNat.ofNat_ne_zero, and_false, if_false, Nat.zero_add,
      Nat.add_succ_sub_one, Nat.cast_mul, Nat.cast_succ, ← add_assoc,
      zpow_add_one₀ (two_ne_zero' ℚ)]
    push_cast
    ring

theorem exists_mul_add (hp : 0 < f.precision) (pattern : Nat) :
    ∃ k m, pattern = k * 2 ^ (f.precision - 1) + m ∧ (k = 0 ∨ 2 ^ (f.precision - 1) ≤ m) ∧
      m < 2 ^ f.precision := by
  have htwice : 2 ^ (f.precision - 1) * 2 = 2 ^ f.precision := Nat.two_pow_pred_mul_two hp
  have hrest : pattern % 2 ^ (f.precision - 1) < 2 ^ (f.precision - 1) :=
    Nat.mod_lt _ (Nat.two_pow_pos _)
  have hsplit := Nat.div_add_mod' pattern (2 ^ (f.precision - 1))
  cases hfield : pattern / 2 ^ (f.precision - 1) with
  | zero =>
    rw [hfield] at hsplit
    exact ⟨0, pattern % 2 ^ (f.precision - 1), hsplit.symm, .inl rfl, by omega⟩
  | succ k =>
    rw [hfield, Nat.succ_mul] at hsplit
    exact ⟨k, 2 ^ (f.precision - 1) + pattern % 2 ^ (f.precision - 1), by omega, .inr (by omega),
      by omega⟩

/-! ## Nearest numbers -/

variable (f) in
/-- The exponent of the unit in the last place of the numbers around a ratio. -/
def unitExponent (num den : Nat) : ℤ :=
  max f.leastExponent (floorLog2 num den - (f.precision - 1))

variable (f) in
/-- The significand of a ratio over that unit. -/
def significand (num den : Nat) : Nat :=
  let e := f.unitExponent num den
  roundDiv (num * 2 ^ (-e).toNat) (den * 2 ^ e.toNat)

theorem ofRatio_eq {num : Nat} (hnum : num ≠ 0) (den : Nat) : f.ofRatio num den =
    min ((f.unitExponent num den - f.leastExponent).toNat * 2 ^ (f.precision - 1) +
      f.significand num den) f.infinity := by
  rw [ofRatio, if_neg hnum]
  rfl

theorem cast_two_pow_precision (hp : 0 < f.precision) (e : ℤ) :
    ((2 ^ f.precision : Nat) : ℚ) * 2 ^ e = 2 ^ (f.precision + e) ∧
      ((2 ^ (f.precision - 1) : Nat) : ℚ) * 2 ^ e = 2 ^ (f.precision - 1 + e) := by
  constructor
  · rw [zpow_add₀ two_ne_zero, zpow_natCast]
    norm_cast
  · rw [zpow_add₀ two_ne_zero, ← Nat.cast_pred hp, zpow_natCast]
    norm_cast

section
variable {num den : Nat} (hp : 0 < f.precision) (hnum : 0 < num) (hden : 0 < den)
include hp hnum hden

theorem significand_le : f.significand num den ≤ 2 ^ f.precision := by
  have hunit : 0 < den * 2 ^ (f.unitExponent num den).toNat := by positivity
  have hlt : (num / den : ℚ) < (2 ^ f.precision : Nat) * 2 ^ f.unitExponent num den := by
    rw [(cast_two_pow_precision hp _).1]
    refine (floorLog2_spec hnum hden).2.trans_le (zpow_le_zpow_right₀ one_le_two ?_)
    have := le_max_right f.leastExponent (floorLog2 num den - (f.precision - 1))
    rw [unitExponent]
    omega
  exact roundDiv_le hunit (not_le.1 fun h => hlt.not_ge ((scaled_le_iff num hden _ _).1 h)).le

/-- Above the least exponent, the significands of a grid begin at half the next power of two. -/
theorem hidden_le_ratio (h : f.leastExponent < f.unitExponent num den) :
    ((2 ^ (f.precision - 1) : Nat) : ℚ) * 2 ^ f.unitExponent num den ≤ num / den := by
  rw [(cast_two_pow_precision hp _).2]
  refine le_trans (zpow_le_zpow_right₀ one_le_two ?_) (floorLog2_spec hnum hden).1
  rw [unitExponent] at h ⊢
  omega

theorem le_significand (h : f.leastExponent < f.unitExponent num den) :
    2 ^ (f.precision - 1) ≤ f.significand num den :=
  le_roundDiv (by positivity) ((scaled_le_iff num hden _ _).2 (hidden_le_ratio hp hnum hden h))

theorem ofRatio_eq_of_lt (hfinite : f.ofRatio num den < f.infinity) :
    f.ofRatio num den = (f.unitExponent num den - f.leastExponent).toNat * 2 ^ (f.precision - 1) +
        f.significand num den ∧
      f.value (f.ofRatio num den) = f.significand num den * 2 ^ f.unitExponent num den := by
  rw [ofRatio_eq hnum.ne'] at hfinite ⊢
  have hleast : f.leastExponent ≤ f.unitExponent num den := le_max_left _ _
  have hexponent : f.leastExponent + (f.unitExponent num den - f.leastExponent).toNat =
      f.unitExponent num den := by omega
  rw [min_eq_left (by omega), value_mul_add hp ?_ (significand_le hp hnum hden), hexponent]
  · exact ⟨rfl, rfl⟩
  · rcases hleast.eq_or_lt with heq | hlt
    · exact .inl (by omega)
    · exact .inr (le_significand hp hnum hden hlt)

/-- The numbers of a format are points of the grid around a ratio or lie below it. -/
theorem value_onGrid_or_below (pattern : Nat) :
    (∃ j : Nat, f.value pattern = j * 2 ^ f.unitExponent num den) ∨
      f.value pattern < (2 ^ (f.precision - 1) : Nat) * 2 ^ f.unitExponent num den ∧
        ((2 ^ (f.precision - 1) : Nat) : ℚ) * 2 ^ f.unitExponent num den ≤ num / den := by
  obtain ⟨k, m, rfl, hk, hm⟩ := exists_mul_add hp pattern
  rw [value_mul_add hp hk hm.le]
  rcases le_or_gt (f.unitExponent num den) (f.leastExponent + k) with hle | hlt
  · refine .inl ⟨m * 2 ^ (f.leastExponent + k - f.unitExponent num den).toNat, ?_⟩
    have hexponent : f.leastExponent + k =
        (f.leastExponent + k - f.unitExponent num den).toNat + f.unitExponent num den := by omega
    conv_lhs => rw [hexponent, zpow_add₀ two_ne_zero, zpow_natCast]
    push_cast
    ring
  · refine .inr ⟨?_, hidden_le_ratio hp hnum hden (by omega)⟩
    calc (m : ℚ) * 2 ^ (f.leastExponent + k)
        < (2 ^ f.precision : Nat) * 2 ^ (f.leastExponent + k) := by
          gcongr
      _ = 2 ^ (f.precision + (f.leastExponent + k)) := (cast_two_pow_precision hp _).1
      _ ≤ 2 ^ (f.precision - 1 + f.unitExponent num den) :=
          zpow_le_zpow_right₀ one_le_two (by omega)
      _ = (2 ^ (f.precision - 1) : Nat) * 2 ^ f.unitExponent num den :=
          (cast_two_pow_precision hp _).2.symm

omit hp hnum in
variable (num) in
/-- No point of the grid is nearer to the ratio than the significand. -/
theorem significand_preferred (j : Nat) :
    Preferred (f.significand num den % 2 = 0) (num / den)
      (f.significand num den * 2 ^ f.unitExponent num den) (j * 2 ^ f.unitExponent num den) := by
  rw [significand]
  generalize f.unitExponent num den = e
  have hunit : 0 < den * 2 ^ e.toNat := by positivity
  have hcast : (0 : ℚ) < (den * 2 ^ e.toNat : Nat) := Nat.cast_pos.2 hunit
  have hpower : (0 : ℚ) < 2 ^ e := zpow_pos two_pos e
  have h := (roundDiv_preferred (num * 2 ^ (-e).toNat) j hunit).scale (div_pos hpower hcast)
  have hpoint (m : ℚ) : m * (den * 2 ^ e.toNat : Nat) * (2 ^ e / (den * 2 ^ e.toNat : Nat)) =
      m * 2 ^ e := by
    rw [mul_assoc, mul_div_cancel₀ _ hcast.ne']
  rwa [hpoint, hpoint, mul_div_left_comm, scaled_ratio, mul_div_cancel₀ _ hpower.ne'] at h

end

variable {num den : Nat}

/-- The number computed for a ratio is the nearest of the format, and the even one of two. -/
theorem ofRatio_preferred (hp : 1 < f.precision) (hden : 0 < den)
    (hfinite : f.ofRatio num den < f.infinity) (pattern : Nat) :
    Preferred (f.ofRatio num den % 2 = 0) (num / den) (f.value (f.ofRatio num den))
      (f.value pattern) := by
  rcases Nat.eq_zero_or_pos num with rfl | hnum
  · have hzero : f.ofRatio 0 den = 0 := by simp [ofRatio]
    simp [Preferred, hzero]
  have hpos : 0 < f.precision := by omega
  obtain ⟨hpattern, hvalue⟩ := ofRatio_eq_of_lt hpos hnum hden hfinite
  have hparity : f.ofRatio num den % 2 = f.significand num den % 2 := by
    have heven : 2 ∣ (f.unitExponent num den - f.leastExponent).toNat * 2 ^ (f.precision - 1) :=
      (dvd_pow_self 2 (by omega)).mul_left _
    omega
  rw [hvalue, hparity]
  rcases value_onGrid_or_below hpos hnum hden pattern with ⟨j, hj⟩ | ⟨hbelow, hhidden⟩
  · rw [hj]
    exact significand_preferred num hden j
  · -- The first point of the grid is at least as near as what lies below it.
    refine .of_lt ((significand_preferred num hden (2 ^ (f.precision - 1))).1.trans_lt ?_)
    rw [abs_of_nonpos (sub_nonpos.2 hhidden), abs_of_neg (sub_neg.2 (hbelow.trans_le hhidden))]
    linarith

/-! ## Room for exponents -/

/-- A format with a bit behind the hidden one, and exponents on either side of its precision. -/
structure Ample (f : Format) : Prop where
  precision : 1 < f.precision
  range : f.precision < 2 ^ (f.exponentBits - 1)

namespace Ample

variable (hf : f.Ample)
include hf

theorem precision_pos : 0 < f.precision := Nat.zero_lt_of_lt hf.precision

theorem exists_half : ∃ half : Nat, f.precision < half ∧ half = 2 ^ (f.exponentBits - 1) ∧
    f.leastExponent = 3 - half - f.precision ∧
    f.infinity = (half * 2 - 1) * 2 ^ (f.precision - 1) := by
  have hbits : 0 < f.exponentBits := by
    refine Nat.pos_of_ne_zero fun hzero => ?_
    have hrange := hf.range
    have hprecision := hf.precision
    rw [hzero] at hrange
    omega
  refine ⟨2 ^ (f.exponentBits - 1), hf.range, rfl, ?_, ?_⟩
  · rw [leastExponent]
    norm_cast
  · rw [infinity, Nat.two_pow_pred_mul_two hbits]

theorem mul_add_lt_infinity {half k m : Nat}
    (hinfinity : f.infinity = (half * 2 - 1) * 2 ^ (f.precision - 1))
    (hk : k + 3 < half * 2) (hm : m ≤ 2 ^ f.precision) :
    k * 2 ^ (f.precision - 1) + m < f.infinity := by
  have htwice : 2 ^ (f.precision - 1) * 2 = 2 ^ f.precision :=
    Nat.two_pow_pred_mul_two hf.precision_pos
  calc k * 2 ^ (f.precision - 1) + m ≤ (k + 2) * 2 ^ (f.precision - 1) := by rw [Nat.add_mul]; omega
    _ < (half * 2 - 1) * 2 ^ (f.precision - 1) :=
        Nat.mul_lt_mul_of_pos_right (by omega) (Nat.two_pow_pos _)
    _ = f.infinity := hinfinity.symm

theorem ofRatio_lt_infinity (hden : 0 < den) {bits : Nat} (hbits : bits < 2 ^ (f.exponentBits - 1))
    (h : (num / den : ℚ) < 2 ^ bits) : f.ofRatio num den < f.infinity := by
  have hprecision := hf.precision
  obtain ⟨half, hrange, hhalf, hleast, hinfinity⟩ := hf.exists_half
  rcases Nat.eq_zero_or_pos num with rfl | hnum
  · have hzero : f.ofRatio 0 den = 0 * 2 ^ (f.precision - 1) + 0 := by simp [ofRatio]
    rw [hzero]
    exact hf.mul_add_lt_infinity hinfinity (by omega) (Nat.zero_le _)
  · rw [← zpow_natCast] at h
    have hlog := (floorLog2_spec hnum hden).1.trans_lt h
    rw [zpow_lt_zpow_iff_right₀ one_lt_two] at hlog
    rw [ofRatio_eq hnum.ne']
    refine (min_le_left _ _).trans_lt
      (hf.mul_add_lt_infinity hinfinity ?_ (significand_le hf.precision_pos hnum hden))
    rw [unitExponent, hleast]
    omega

/-- The naturals that the significands count are numbers of the format. -/
theorem exists_value_eq {n : Nat} (h : n ≤ 2 ^ f.precision) :
    ∃ pattern, pattern < f.infinity ∧ f.value pattern = n := by
  have hprecision := hf.precision
  obtain ⟨half, hrange, -, hleast, hinfinity⟩ := hf.exists_half
  rcases Nat.eq_zero_or_pos n with rfl | hn
  · exact ⟨0 * 2 ^ (f.precision - 1) + 0,
      hf.mul_add_lt_infinity hinfinity (by omega) (Nat.zero_le _), by simp⟩
  -- The significand is `n`, shifted until it fills the precision.
  obtain ⟨shift, hshift⟩ : ∃ shift, shift = f.precision - 1 - n.log2 := ⟨_, rfl⟩
  have hfull : 2 ^ (f.precision - 1) ≤ n * 2 ^ shift ∧ n * 2 ^ shift ≤ 2 ^ f.precision := by
    have hlow := Nat.log2_self_le hn.ne'
    rcases Nat.lt_or_ge n.log2 f.precision with hlog | hlog
    · have hsum : 2 ^ (f.precision - 1) = 2 ^ n.log2 * 2 ^ shift := by
        rw [← Nat.pow_add]
        congr 1
        omega
      have hsum' : 2 ^ f.precision = 2 ^ (n.log2 + 1) * 2 ^ shift := by
        rw [← Nat.pow_add]
        congr 1
        omega
      rw [hsum, hsum']
      exact ⟨Nat.mul_le_mul_right _ hlow, Nat.mul_le_mul_right _ Nat.lt_log2_self.le⟩
    · obtain rfl : shift = 0 := by omega
      rw [Nat.pow_zero, Nat.mul_one]
      have hhalf := Nat.two_pow_pred_mul_two hf.precision_pos
      have hpower := Nat.pow_le_pow_right two_pos hlog
      exact ⟨by omega, h⟩
  have hexponent : f.leastExponent + (-f.leastExponent - shift).toNat = -shift := by omega
  refine ⟨(-f.leastExponent - shift).toNat * 2 ^ (f.precision - 1) + n * 2 ^ shift,
    hf.mul_add_lt_infinity hinfinity (by omega) hfull.2, ?_⟩
  rw [value_mul_add hf.precision_pos (.inr hfull.1) hfull.2, hexponent, zpow_neg, zpow_natCast]
  push_cast
  field_simp

end Ample

/-! ## Words -/

variable (f)

def signUnit : Nat := 2 ^ (f.precision + f.exponentBits - 1)

/-- The number that a sign and a pattern below it stand for; none for infinity and NaN. -/
def ofWord? (word : Nat) : Option ℚ :=
  if word % f.signUnit < f.infinity then
    some ((if f.signUnit ≤ word then -1 else 1) * f.value (word % f.signUnit))
  else none

/-- A word of the number nearest to `x`, and of the even one if two are equally near. -/
def Rounds (word : Nat) (x : ℚ) : Prop :=
  ∃ q, f.ofWord? word = some q ∧
    ∀ other r, f.ofWord? other = some r → Preferred (word % 2 = 0) x q r

variable {f}

theorem Rounds.ofWord?_eq {word other : Nat} {x : ℚ} (h : f.Rounds word x)
    (hother : f.ofWord? other = some x) : f.ofWord? word = some x := by
  obtain ⟨q, hword, hnearest⟩ := h
  have hle := (hnearest other x hother).1
  rw [sub_self, abs_zero, abs_nonpos_iff, sub_eq_zero] at hle
  rw [hword, hle]

theorem infinity_lt_signUnit (hp : 0 < f.precision) : f.infinity < f.signUnit := by
  have hsplit : f.signUnit = 2 ^ f.exponentBits * 2 ^ (f.precision - 1) := by
    rw [signUnit, ← Nat.pow_add]
    congr 1
    omega
  rw [infinity, hsplit]
  exact Nat.mul_lt_mul_of_pos_right (Nat.pred_lt (Nat.two_pow_pos _).ne') (Nat.two_pow_pos _)

theorem ofWord?_ofPattern (hp : 0 < f.precision) (negative : Bool) {pattern : Nat}
    (hfinite : pattern < f.infinity) :
    f.ofWord? ((if negative then f.signUnit else 0) + pattern) =
      some ((if negative then -1 else 1) * f.value pattern) := by
  have hlt : pattern < f.signUnit := hfinite.trans (infinity_lt_signUnit hp)
  have hmod : ((if negative then f.signUnit else 0) + pattern) % f.signUnit = pattern := by
    cases negative <;> simp [Nat.mod_eq_of_lt hlt]
  rw [ofWord?, hmod, if_pos hfinite]
  cases negative <;> simp [hlt.not_ge]

theorem value_nonneg (pattern : Nat) : 0 ≤ f.value pattern :=
  mul_nonneg (Nat.cast_nonneg _) (zpow_nonneg zero_le_two _)

theorem abs_sign (p : Prop) [Decidable p] : |(if p then -1 else 1 : ℚ)| = 1 := by
  split <;> simp

theorem rounds_ofRatio (negative : Bool) (hp : 1 < f.precision) (hden : 0 < den)
    (hfinite : f.ofRatio num den < f.infinity) :
    f.Rounds ((if negative then f.signUnit else 0) + f.ofRatio num den)
      ((if negative then -1 else 1) * (num / den)) := by
  refine ⟨_, ofWord?_ofPattern (by omega) negative hfinite, fun other r hother => ?_⟩
  have hparity : ((if negative then f.signUnit else 0) + f.ofRatio num den) % 2 =
      f.ofRatio num den % 2 := by
    have heven : 2 ∣ f.signUnit := dvd_pow_self 2 (by omega)
    split <;> omega
  rw [ofWord?, Option.ite_none_right_eq_some] at hother
  obtain ⟨-, hother⟩ := hother
  cases hother
  have hzero := ofRatio_preferred hp hden hfinite 0
  rw [value_zero] at hzero
  rw [hparity]
  exact .signed (abs_sign _) (abs_sign _) (value_nonneg _)
    (div_nonneg (Nat.cast_nonneg _) (Nat.cast_nonneg _)) hzero
    (ofRatio_preferred hp hden hfinite _)

theorem cast_eq_sign_mul (n : ℤ) : (n : ℚ) = (if decide (n < 0) then -1 else 1) * n.natAbs := by
  rcases lt_or_ge n 0 with h | h
  · simp [h, Nat.cast_natAbs, abs_of_neg]
  · simp [h.not_gt, Nat.cast_natAbs, abs_of_nonneg h]

/-- The integers that the significands count are numbers of the format. -/
theorem Ample.exists_ofWord?_eq (hf : f.Ample) {n : ℤ} (h : n.natAbs ≤ 2 ^ f.precision) :
    ∃ word, f.ofWord? word = some (n : ℚ) := by
  obtain ⟨pattern, hfinite, hvalue⟩ := hf.exists_value_eq h
  refine ⟨_, (ofWord?_ofPattern hf.precision_pos (decide (n < 0)) hfinite).trans ?_⟩
  rw [hvalue, cast_eq_sign_mul n]

theorem Ample.rounds_ofInt (hf : f.Ample) {bits : Nat} (hbits : bits < 2 ^ (f.exponentBits - 1))
    {n : ℤ} (h : n.natAbs < 2 ^ bits) :
    f.ofRatio n.natAbs 1 < f.infinity ∧
      f.Rounds ((if decide (n < 0) then f.signUnit else 0) + f.ofRatio n.natAbs 1) n := by
  have hfinite : f.ofRatio n.natAbs 1 < f.infinity := by
    refine hf.ofRatio_lt_infinity Nat.one_pos hbits ?_
    rw [Nat.cast_one, div_one]
    exact_mod_cast h
  have hrounds := rounds_ofRatio (decide (n < 0)) hf.precision Nat.one_pos hfinite
  rw [Nat.cast_one, div_one, ← cast_eq_sign_mul] at hrounds
  exact ⟨hfinite, hrounds⟩

end Format

theorem single_ample : single.Ample := by constructor <;> decide

theorem double_ample : double.Ample := by constructor <;> decide

theorem Double.rounds_ofInt {n : ℤ} (h : n.natAbs < 2 ^ 64) :
    double.Rounds (Double.ofInt n).bits.toNat n := by
  obtain ⟨hfinite, hrounds⟩ := double_ample.rounds_ofInt (by decide) h
  have hsign := Format.infinity_lt_signUnit double_ample.precision_pos
  have hbits : (Double.ofInt n).bits.toNat =
      (if decide (n < 0) then double.signUnit else 0) + double.ofRatio n.natAbs 1 := by
    have hunit : double.signUnit = 2 ^ 63 := rfl
    have hsize : UInt64.size = 2 ^ 64 := rfl
    rw [hunit] at hsign ⊢
    refine UInt64.toNat_ofNat_of_lt' ?_
    split <;> omega
  rwa [hbits]

end SqlAssembly.Decimal
