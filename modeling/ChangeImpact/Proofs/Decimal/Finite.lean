/-
This file shows that the numbers which numerals stand for are finite.
-/

import ChangeImpact.Decimal.Scaled
import Mathlib

namespace ChangeImpact.Decimal

open Float.Model (Format UnpackedFloat totalExponent)
open Float.Model.UnpackedFloat

/-- A finite number whose binary exponent is at most `limit`. -/
def ExponentAtMost (limit : Int) : UnpackedFloat → Prop
  | .zero _ => True
  | .finite _ _ exponent _ => exponent ≤ limit
  | .infinity _ => False
  | .notANumber => False

theorem ExponentAtMost.mono {low high : Int} {value : UnpackedFloat}
    (bounded : ExponentAtMost low value) (wider : low ≤ high) : ExponentAtMost high value := by
  cases value with
  | finite => exact Int.le_trans bounded wider
  | _ => exact bounded

theorem ExponentAtMost.isFinite {limit : Int} {value : UnpackedFloat}
    (bounded : ExponentAtMost limit value) : value.isFinite := by
  cases value <;> first | rfl | exact bounded.elim

section Round

variable {mantissa : Nat} {exponent limit : Int}

theorem mantissa_shiftRight (extended : ExtendedMantissa) (amount : Nat) :
    (extended >>> amount).mantissa = extended.mantissa / 2 ^ amount := by
  change (amount.repeat ExtendedMantissa.shiftRightOne extended).mantissa = _
  induction amount with
  | zero => simp [Nat.repeat]
  | succ amount ih =>
      rw [Nat.repeat, Nat.pow_succ, ← Nat.div_div_eq_div_mul, ← ih]
      rfl

theorem roundedMantissa_bounds (extended : ExtendedMantissa) :
    extended.mantissa ≤ extended.roundedMantissa ∧
      extended.roundedMantissa ≤ extended.mantissa + 1 := by
  obtain ⟨mantissa, roundBit, stickyBit⟩ := extended
  cases roundBit <;> cases stickyBit <;>
    simp [ExtendedMantissa.roundedMantissa, ExtendedMantissa.accuracy, Accuracy.roundToNearestEven]
  omega

theorem mantissa_ofMantissaAndAccuracy (accuracy : Accuracy) :
    (ExtendedMantissa.ofMantissaAndAccuracy mantissa accuracy).mantissa = mantissa := by
  unfold ExtendedMantissa.ofMantissaAndAccuracy
  split <;> rfl

/-- A carry out of the digits that are left after a shift adds at most one digit to them. -/
theorem log2_of_le_div_add_one {rounded amount : Nat} (size : rounded ≤ mantissa / 2 ^ amount + 1) :
    rounded.log2 + amount ≤ mantissa.log2 + 1 ∨ rounded.log2 = 0 := by
  rcases Nat.eq_zero_or_pos (mantissa / 2 ^ amount) with none | left
  · right
    have cases : rounded = 0 ∨ rounded = 1 := by omega
    rcases cases with rfl | rfl <;> rfl
  · left
    have least : 2 ^ amount ≤ mantissa := (Nat.one_le_div_iff (Nat.two_pow_pos amount)).mp left
    have nonzero : mantissa ≠ 0 := Nat.ne_of_gt (Nat.lt_of_lt_of_le (Nat.two_pow_pos amount) least)
    have fits : amount ≤ mantissa.log2 := (Nat.le_log2 nonzero).mpr least
    obtain ⟨kept, total⟩ : ∃ kept, mantissa.log2 + 1 = amount + kept :=
      ⟨mantissa.log2 + 1 - amount, by omega⟩
    have short : mantissa / 2 ^ amount < 2 ^ kept := by
      refine Nat.div_lt_of_lt_mul ?_
      rw [← Nat.pow_add, ← total]
      exact Nat.lt_log2_self
    have digits : rounded < 2 ^ (kept + 1) := by
      rw [Nat.pow_succ]
      omega
    by_cases zero : rounded = 0
    · rw [zero, Nat.log2_zero]
      omega
    · have := (Nat.log2_lt zero).mpr digits
      omega

theorem log2_shiftLeft_lt {width : Nat} (nonzero : mantissa ≠ 0) (small : mantissa < 2 ^ width)
    (amount : Nat) : (mantissa <<< amount).log2 < width + amount := by
  rw [Nat.shiftLeft_eq]
  refine (Nat.log2_lt (Nat.mul_ne_zero nonzero (Nat.ne_of_gt (Nat.two_pow_pos amount)))).mpr ?_
  rw [Nat.pow_add]
  exact Nat.mul_lt_mul_of_pos_right small (Nat.two_pow_pos amount)

/-- Rounding shifts the digits that do not fit out, rounds the others and shifts once more. -/
theorem roundWithAccuracy_eq (sign : Sign) (accuracy : Accuracy) (amount : Nat)
    (shifted : amount =
      (Format.binary64.targetExponent (totalExponent mantissa exponent) - exponent).toNat) :
    ∃ rounded, mantissa / 2 ^ amount ≤ rounded ∧ rounded ≤ mantissa / 2 ^ amount + 1 ∧
      roundWithAccuracy Format.binary64 sign mantissa exponent accuracy =
        let last := (Format.binary64.targetExponent (totalExponent rounded (exponent + amount)) -
          (exponent + amount)).toNat
        if h : rounded / 2 ^ last = 0 then .zero sign
        else .finite sign (rounded / 2 ^ last) (exponent + amount + last)
          (Nat.pos_of_ne_zero h) := by
  obtain ⟨extended, moved⟩ : ∃ extended : ExtendedMantissa,
      extended = ExtendedMantissa.ofMantissaAndAccuracy mantissa accuracy >>> amount := ⟨_, rfl⟩
  have bounds := roundedMantissa_bounds extended
  rw [moved, mantissa_shiftRight, mantissa_ofMantissaAndAccuracy, ← moved] at bounds
  refine ⟨extended.roundedMantissa, bounds.1, bounds.2, ?_⟩
  simp only [roundWithAccuracy, shiftToTargetExponent, shiftToExponent, ← shifted, ← moved]
  simp only [mantissa_shiftRight, mantissa_ofMantissaAndAccuracy]

theorem targetExponent_eq (total : Int) :
    Format.binary64.targetExponent total = max (total - 53) (-1074) :=
  rfl

/-- Rounding moves the leading digit by at most one place. -/
theorem exponentAtMost_roundWithAccuracy (sign : Sign) (accuracy : Accuracy)
    (given : exponent ≤ limit) (leading : totalExponent mantissa exponent - 52 ≤ limit)
    (least : -1074 ≤ limit) :
    ExponentAtMost limit
      (roundWithAccuracy Format.binary64 sign mantissa exponent accuracy) := by
  obtain ⟨amount, shifted⟩ : ∃ amount : Nat, amount =
      (Format.binary64.targetExponent (totalExponent mantissa exponent) - exponent).toNat :=
    ⟨_, rfl⟩
  obtain ⟨rounded, -, size, final⟩ := roundWithAccuracy_eq sign accuracy amount shifted
  have digits := log2_of_le_div_add_one size
  rw [final]
  simp only
  split
  · trivial
  · simp only [ExponentAtMost]
    rw [targetExponent_eq] at shifted ⊢
    unfold totalExponent at *
    omega

/-- A count of the size of a machine word. -/
theorem exponentAtMost_ofNat {count : Nat} (small : count < wordLimit) :
    ExponentAtMost 12 (ofNat Format.binary64 count) := by
  simp only [ofNat, ofInt, UnpackedFloat.normalize]
  split
  next negative =>
    rw [Int.compare_eq_lt] at negative
    omega
  next => trivial
  next positive =>
    have nonzero : count ≠ 0 := by
      rintro rfl
      simp at positive
    simp only [UnpackedFloat.round, decreaseExponent]
    generalize (0 - Format.binary64.targetExponent (totalExponent (count : Int).toNat 0)).toNat =
      amount
    have digits : (count <<< amount).log2 < 64 + amount := log2_shiftLeft_lt nonzero small amount
    refine exponentAtMost_roundWithAccuracy _ _ (by omega) ?_ (by omega)
    rw [totalExponent, Int.toNat_natCast]
    omega

end Round

section Pack

theorem exponentBias_eq : (Format.binary64.exponentBias : Int) = 1023 :=
  rfl

/-- The parts of a double are bounded by the widths of its fields. -/
theorem bounds_of_unpack {bits : BitVec 64} {sign : Sign} {mantissa : Nat} {exponent : Int}
    {positive : 0 < mantissa}
    (parts : unpack Format.binary64 bits = .finite sign mantissa exponent positive) :
    mantissa < 2 ^ 53 ∧ exponent ≤ 971 := by
  unfold unpack at parts
  simp only [exponentBias_eq] at parts
  split at parts
  · split at parts <;> cases parts
  next finite =>
    have field : (@unpackExponent Format.binary64 bits).toNat < 2047 := by
      have width := (@unpackExponent Format.binary64 bits).isLt
      have notAll : (@unpackExponent Format.binary64 bits).toNat ≠ 2047 :=
        fun same => finite (BitVec.eq_of_toNat_eq same)
      change _ < 2048 at width
      omega
    split at parts
    next zero =>
      split at parts
      · cases parts
      · cases parts
        have fraction := (@unpackMantissa Format.binary64 bits).isLt
        change _ < 2 ^ 52 at fraction
        refine ⟨by omega, ?_⟩
        rw [zero]
        decide
    next =>
      cases parts
      have fraction := (1#1 ++ @unpackMantissa Format.binary64 bits).isLt
      change _ < 2 ^ 53 at fraction
      omega

theorem unpack_packedInfinity (sign : Sign) :
    (unpack Format.binary64 (packedInfinity Format.binary64 sign)).isInf := by
  simp [packedInfinity, unpack, isInf]

theorem exponentAtMost_unpack_packComponents {limit : Int} (least : -1074 ≤ limit) (sign : Sign)
    (mantissa : BitVec 52) {field : BitVec 11} (finite : field.toNat < 2047)
    (bounded : (field.toNat : Int) - 1075 ≤ limit) :
    ExponentAtMost limit
      (unpack Format.binary64 (packComponents Format.binary64 sign field mantissa)) := by
  have notAll : field ≠ -1#11 := by
    rintro rfl
    exact absurd finite (by decide)
  simp only [unpack, unpackMantissa_packComponents, unpackExponent_packComponents, exponentBias_eq]
  rw [if_neg notAll]
  split
  next zero =>
    split
    · trivial
    · rw [zero]
      simp [ExponentAtMost]
      omega
  next =>
    simp only [ExponentAtMost]
    omega

/-- What does not overflow is packed as a finite number. -/
theorem exponentAtMost_unpack_pack {limit : Int} {value : UnpackedFloat}
    (least : -1074 ≤ limit) (greatest : limit ≤ 971) (bounded : ExponentAtMost limit value) :
    ExponentAtMost limit (unpack Format.binary64 (pack Format.binary64 value)) := by
  cases value with
  | zero sign =>
      exact exponentAtMost_unpack_packComponents least sign 0 (by decide) (by simp; omega)
  | finite sign mantissa exponent positive =>
      have exponentBound : exponent ≤ limit := bounded
      unfold pack
      simp only
      split
      next overflow =>
        rw [exponentBias_eq] at overflow
        omega
      next fits =>
        rw [exponentBias_eq] at fits ⊢
        split
        · refine exponentAtMost_unpack_packComponents least sign _ ?_ ?_ <;>
            rw [BitVec.toNat_ofNat, Nat.mod_eq_of_lt (by omega)] <;> omega
        · exact exponentAtMost_unpack_packComponents least sign _ (by decide) (by simp; omega)
  | infinity => exact bounded.elim
  | notANumber => exact bounded.elim

/-- Packing a number gives a number or overflows. -/
theorem isFinite_or_isInf_unpack_pack {limit : Int} {value : UnpackedFloat}
    (bounded : ExponentAtMost limit value) :
    (unpack Format.binary64 (pack Format.binary64 value)).isFinite ∨
      (unpack Format.binary64 (pack Format.binary64 value)).isInf := by
  by_cases fits : ExponentAtMost 971 value
  · exact .inl (exponentAtMost_unpack_pack (by decide) (by decide) fits).isFinite
  · cases value with
    | zero => exact absurd trivial fits
    | finite sign mantissa exponent positive =>
        have large : 971 < exponent := Int.not_le.mp fits
        right
        unfold pack
        simp only
        split
        · exact unpack_packedInfinity sign
        next small =>
          rw [exponentBias_eq] at small
          omega
    | infinity => exact bounded.elim
    | notANumber => exact bounded.elim

end Pack

/-- A number that is infinite or whose binary exponent is at least `limit`. -/
def ExponentAtLeast (limit : Int) : UnpackedFloat → Prop
  | .infinity _ => True
  | .finite _ _ exponent _ => limit ≤ exponent
  | .zero _ => False
  | .notANumber => False

theorem exponentAtLeast_unpack_packComponents {limit : Int} (sign : Sign) (mantissa : BitVec 52)
    {field : BitVec 11} (nonzero : 0 < field.toNat) (finite : field.toNat < 2047)
    (bounded : limit ≤ (field.toNat : Int) - 1075) :
    ExponentAtLeast limit
      (unpack Format.binary64 (packComponents Format.binary64 sign field mantissa)) := by
  have notAll : field ≠ -1#11 := by
    rintro rfl
    exact absurd finite (by decide)
  have notNone : field ≠ 0#11 := by
    rintro rfl
    exact absurd nonzero (by decide)
  simp only [unpack, unpackMantissa_packComponents, unpackExponent_packComponents, exponentBias_eq]
  rw [if_neg notAll, if_neg notNone]
  simp only [ExponentAtLeast]
  omega

theorem exponentAtLeast_unpack_pack {limit exponent : Int} {mantissa : Nat} (sign : Sign)
    (positive : 0 < mantissa) (digits : mantissa.log2 = 52) (least : -1074 ≤ exponent)
    (bounded : limit ≤ exponent) :
    ExponentAtLeast limit (unpack Format.binary64 (pack Format.binary64
      (.finite sign mantissa exponent positive))) := by
  unfold pack
  simp only
  split
  · simp [packedInfinity, unpack, ExponentAtLeast]
  next fits =>
    rw [exponentBias_eq] at fits ⊢
    rw [if_pos (show mantissa.log2 + 1 = Format.binary64.mantissaBits by rw [digits]; rfl)]
    refine exponentAtLeast_unpack_packComponents sign _ ?_ ?_ ?_ <;>
      rw [BitVec.toNat_ofNat, Nat.mod_eq_of_lt (by omega)] <;> omega

/-- Shifting out the surplus digits leaves 53 of them. -/
theorem leading_bounds {mantissa amount : Nat} (nonzero : mantissa ≠ 0)
    (digits : mantissa.log2 = 52 + amount) :
    2 ^ 52 ≤ mantissa / 2 ^ amount ∧ mantissa / 2 ^ amount < 2 ^ 53 := by
  constructor
  · refine (Nat.le_div_iff_mul_le (Nat.two_pow_pos amount)).mpr ?_
    rw [← Nat.pow_add, ← digits]
    exact Nat.log2_self_le nonzero
  · refine Nat.div_lt_of_lt_mul ?_
    rw [← Nat.pow_add, show amount + 53 = mantissa.log2 + 1 by omega]
    exact Nat.lt_log2_self

/-- Rounding leaves 53 digits or carries into a power of two, which is shifted once more. -/
theorem log2_rounded {rounded last : Nat} {exponent : Int} (low : 2 ^ 52 ≤ rounded)
    (high : rounded ≤ 2 ^ 53) (least : -1074 ≤ exponent)
    (shifted : last =
      (Format.binary64.targetExponent (totalExponent rounded exponent) - exponent).toNat) :
    (rounded / 2 ^ last).log2 = 52 := by
  rw [targetExponent_eq, totalExponent] at shifted
  rcases Nat.lt_or_ge rounded (2 ^ 53) with fits | carried
  · have above : 52 ≤ rounded.log2 := (Nat.le_log2 (by omega)).mpr low
    have below : rounded.log2 < 53 := (Nat.log2_lt (by omega)).mpr fits
    obtain rfl : last = 0 := by omega
    rw [Nat.pow_zero, Nat.div_one]
    omega
  · obtain rfl : rounded = 2 ^ 53 := by omega
    rw [Nat.log2_two_pow] at shifted
    obtain rfl : last = 1 := by omega
    decide

/-- Rounding more digits than fit leaves just as many as fit, and a higher exponent. -/
theorem exponentAtLeast_pack_roundWithAccuracy {mantissa : Nat} {exponent : Int} (sign : Sign)
    (long : 2 ^ 53 ≤ mantissa) (least : -1074 ≤ exponent) :
    ExponentAtLeast exponent (unpack Format.binary64 (pack Format.binary64
      (roundWithAccuracy Format.binary64 sign mantissa exponent .exact))) := by
  have nonzero : mantissa ≠ 0 := Nat.ne_of_gt (Nat.lt_of_lt_of_le (by decide) long)
  obtain ⟨amount, digits⟩ : ∃ amount, mantissa.log2 = 52 + amount :=
    ⟨mantissa.log2 - 52, by have := (Nat.le_log2 nonzero).mpr long; omega⟩
  obtain ⟨low, high⟩ := leading_bounds nonzero digits
  have shifted : amount =
      (Format.binary64.targetExponent (totalExponent mantissa exponent) - exponent).toNat := by
    rw [targetExponent_eq, totalExponent]
    omega
  obtain ⟨rounded, least', most, final⟩ := roundWithAccuracy_eq sign .exact amount shifted
  obtain ⟨last, lastShift⟩ : ∃ last : Nat, last =
      (Format.binary64.targetExponent (totalExponent rounded (exponent + amount)) -
        (exponent + amount)).toNat := ⟨_, rfl⟩
  have kept : (rounded / 2 ^ last).log2 = 52 :=
    log2_rounded (Nat.le_trans low least') (by omega) (by omega) lastShift
  have nonzero : rounded / 2 ^ last ≠ 0 := by
    intro zero
    rw [zero] at kept
    cases kept
  rw [final]
  simp only [← lastShift]
  rw [dif_neg nonzero]
  exact exponentAtLeast_unpack_pack sign _ kept (by omega) (by omega)

theorem log2_div_add_log2_le {dividend divisor : Nat} (quotient : dividend / divisor ≠ 0) :
    (dividend / divisor).log2 + divisor.log2 ≤ dividend.log2 := by
  have divisorNonzero : divisor ≠ 0 := by
    rintro rfl
    simp at quotient
  have product : 2 ^ ((dividend / divisor).log2 + divisor.log2) ≤ dividend := calc
    _ = 2 ^ (dividend / divisor).log2 * 2 ^ divisor.log2 := Nat.pow_add ..
    _ ≤ dividend / divisor * divisor :=
        Nat.mul_le_mul (Nat.log2_self_le quotient) (Nat.log2_self_le divisorNonzero)
    _ ≤ dividend := Nat.div_mul_le_self ..
  exact (Nat.le_log2 (Nat.ne_of_gt (Nat.lt_of_lt_of_le (Nat.two_pow_pos _) product))).mpr product

/-- The quotient of a number and one that is not too small. -/
theorem exponentAtMost_div {high low : Int} {value divisor : UnpackedFloat}
    (bounded : ExponentAtMost high value)
    (narrow : ∀ sign mantissa exponent positive,
      value = .finite sign mantissa exponent positive → mantissa < 2 ^ 53)
    (large : ExponentAtLeast low divisor) {limit : Int} (least : -1074 ≤ limit)
    (room : high + 1 ≤ limit + low) :
    ExponentAtMost limit (div Format.binary64 value divisor) := by
  cases divisor with
  | zero => exact large.elim
  | notANumber => exact large.elim
  | infinity => cases value <;> trivial
  | finite sign₂ mantissa₂ exponent₂ positive₂ =>
      cases value with
      | zero => trivial
      | infinity => exact bounded.elim
      | notANumber => exact bounded.elim
      | finite sign₁ mantissa₁ exponent₁ positive₁ =>
          have digits : mantissa₁.log2 < 53 :=
            (Nat.log2_lt (Nat.ne_of_gt positive₁)).mpr (narrow _ _ _ _ rfl)
          have low₂ : low ≤ exponent₂ := large
          have high₁ : exponent₁ ≤ high := bounded
          simp only [div, divCore]
          obtain ⟨target, chosen⟩ : ∃ target, target = min (exponent₁ - exponent₂)
              (Format.binary64.targetExponent (totalExponent mantissa₁ exponent₁ -
                totalExponent mantissa₂ exponent₂)) := ⟨_, rfl⟩
          rw [← chosen]
          obtain ⟨amount, shifted⟩ :
              ∃ amount, amount = (exponent₁ - exponent₂ - target).toNat := ⟨_, rfl⟩
          rw [← shifted]
          have dividend :=
            log2_shiftLeft_lt (Nat.ne_of_gt positive₁) (narrow _ _ _ _ rfl) amount
          have quotient : (mantissa₁ <<< amount / mantissa₂).log2 + mantissa₂.log2 ≤
              (mantissa₁ <<< amount).log2 ∨ (mantissa₁ <<< amount / mantissa₂).log2 = 0 := by
            by_cases zero : mantissa₁ <<< amount / mantissa₂ = 0
            · exact .inr (by rw [zero, Nat.log2_zero])
            · exact .inl (log2_div_add_log2_le zero)
          rw [targetExponent_eq] at chosen
          unfold totalExponent at chosen
          refine exponentAtMost_roundWithAccuracy _ _ ?_ ?_ least
          · omega
          · unfold totalExponent
            omega

/-- The product of two numbers has at most twice as many digits. -/
theorem exponentAtMost_mul {first second limit : Int} {left right : UnpackedFloat}
    (leftBounded : ExponentAtMost first left) (rightBounded : ExponentAtMost second right)
    (leftNarrow : ∀ sign mantissa exponent positive,
      left = .finite sign mantissa exponent positive → mantissa < 2 ^ 53)
    (rightNarrow : ∀ sign mantissa exponent positive,
      right = .finite sign mantissa exponent positive → mantissa < 2 ^ 53)
    (least : -1074 ≤ limit) (room : first + second + 54 ≤ limit) :
    ExponentAtMost limit (mul Format.binary64 left right) := by
  cases left with
  | infinity => exact leftBounded.elim
  | notANumber => exact leftBounded.elim
  | zero => cases right <;> trivial
  | finite sign₁ mantissa₁ exponent₁ positive₁ =>
      cases right with
      | infinity => exact rightBounded.elim
      | notANumber => exact rightBounded.elim
      | zero => trivial
      | finite sign₂ mantissa₂ exponent₂ positive₂ =>
          have left₁ : exponent₁ ≤ first := leftBounded
          have right₂ : exponent₂ ≤ second := rightBounded
          have product : mantissa₁ * mantissa₂ < 2 ^ 53 * 2 ^ 53 :=
            Nat.mul_lt_mul'' (leftNarrow _ _ _ _ rfl) (rightNarrow _ _ _ _ rfl)
          rw [← Nat.pow_add] at product
          have digits : (mantissa₁ * mantissa₂).log2 < 53 + 53 :=
            (Nat.log2_lt (Nat.ne_of_gt (Nat.mul_pos positive₁ positive₂))).mpr product
          refine exponentAtMost_roundWithAccuracy _ _ (by omega) ?_ least
          unfold totalExponent
          omega

section Float

instance (limit : Int) : (value : UnpackedFloat) → Decidable (ExponentAtMost limit value)
  | .zero _ => inferInstanceAs (Decidable True)
  | .finite _ _ exponent _ => inferInstanceAs (Decidable (exponent ≤ limit))
  | .infinity _ => inferInstanceAs (Decidable False)
  | .notANumber => inferInstanceAs (Decidable False)

instance (limit : Int) : (value : UnpackedFloat) → Decidable (ExponentAtLeast limit value)
  | .infinity _ => inferInstanceAs (Decidable True)
  | .finite _ _ exponent _ => inferInstanceAs (Decidable (limit ≤ exponent))
  | .zero _ => inferInstanceAs (Decidable False)
  | .notANumber => inferInstanceAs (Decidable False)

variable {value divisor : Float} {high low limit : Int}

theorem exponentAtMost_quotient (bounded : ExponentAtMost high value.toModel.unpack)
    (large : ExponentAtLeast low divisor.toModel.unpack) (least : -1074 ≤ limit)
    (greatest : limit ≤ 971) (room : high + 1 ≤ limit + low) :
    ExponentAtMost limit (value / divisor).toModel.unpack := by
  refine exponentAtMost_unpack_pack least greatest
    (exponentAtMost_div bounded (fun _ _ _ _ parts => (bounds_of_unpack parts).1) large least room)

/-- A whole multiple of a power of ten is rounded from an exact product. -/
theorem ofScientific_natural {coefficient exponent : Nat} (nonzero : coefficient ≠ 0)
    (safe : exponent ≤ 2048) :
    ofScientific Format.binary64 coefficient exponent =
      roundWithAccuracy Format.binary64 .positive (coefficient <<< 53 * 10 ^ exponent) (-53)
        .exact := by
  unfold ofScientific
  rw [dif_neg nonzero, if_neg (show ¬ (exponent : Int) > 2 ^ 11 by omega),
    if_neg (show ¬ (exponent : Int) < -(2 ^ 11 + coefficient.log2) by omega), if_pos (by omega)]
  rfl

/-- Powers of ten are not small. -/
theorem exponentAtLeast_powerOfTen (exponent : Nat) :
    ExponentAtLeast (-53) (powerOfTen exponent).toModel.unpack := by
  rcases Nat.lt_or_ge 22 exponent with large | small
  · have slow : powerOfTen exponent = .ofModel (Float.Model.ofScientific 1 exponent) := by
      simp [powerOfTen, Float.ofScientific, Nat.not_le.mpr large]
    rw [slow]
    change ExponentAtLeast (-53) (unpack Format.binary64 (pack Format.binary64
      (ofScientific Format.binary64 1 exponent)))
    rcases Nat.lt_or_ge 2048 exponent with huge | safe
    · have infinite : ofScientific Format.binary64 1 exponent = .infinity .positive := by
        unfold ofScientific
        rw [dif_neg (by decide), if_pos (show (exponent : Int) > 2 ^ 11 by omega)]
      rw [infinite]
      decide
    · rw [ofScientific_natural (by decide) safe]
      refine exponentAtLeast_pack_roundWithAccuracy _ ?_ (by decide)
      exact Nat.le_mul_of_pos_right _ (Nat.pow_pos (by decide))
  · have all : ∀ exponent ≤ 22, ExponentAtLeast (-53) (powerOfTen exponent).toModel.unpack := by
      decide +kernel
    exact all exponent small

theorem exponentAtMost_powerOfTen_last {exponent : Nat} (last : exponent = 308) :
    ExponentAtMost 971 (powerOfTen exponent).toModel.unpack := by
  subst last
  decide +kernel

theorem exponentAtLeast_powerOfTen_last {exponent : Nat} (last : exponent = 308) :
    ExponentAtLeast 1 (powerOfTen exponent).toModel.unpack := by
  subst last
  decide +kernel

theorem exponentAtMost_ofScientific {coefficient exponent width : Nat} {limit : Int}
    (nonzero : coefficient ≠ 0) (safe : exponent ≤ 2048)
    (digits : coefficient * 10 ^ exponent < 2 ^ width) (least : -53 ≤ limit)
    (room : (width : Int) - 52 ≤ limit) :
    ExponentAtMost limit (ofScientific Format.binary64 coefficient exponent) := by
  have product : coefficient <<< 53 * 10 ^ exponent < 2 ^ (53 + width) := by
    rw [Nat.shiftLeft_eq, Nat.mul_right_comm, Nat.mul_comm, Nat.pow_add]
    exact Nat.mul_lt_mul_of_pos_left digits (Nat.two_pow_pos 53)
  have positive : coefficient <<< 53 * 10 ^ exponent ≠ 0 := by
    rw [Nat.shiftLeft_eq]
    exact Nat.mul_ne_zero (Nat.mul_ne_zero nonzero (by decide))
      (Nat.ne_of_gt (Nat.pow_pos (by decide)))
  have leading := (Nat.log2_lt positive).mpr product
  rw [ofScientific_natural nonzero safe]
  refine exponentAtMost_roundWithAccuracy _ _ (by omega) ?_ (by omega)
  unfold totalExponent
  omega

/-- Powers of ten up to `10 ^ 308` are finite. -/
theorem exponentAtMost_powerOfTen {exponent : Nat} (small : exponent ≤ 308) :
    ExponentAtMost 971 (powerOfTen exponent).toModel.unpack := by
  rcases Nat.eq_or_lt_of_le small with last | smaller
  · exact exponentAtMost_powerOfTen_last last
  rcases Nat.lt_or_ge 22 exponent with large | few
  · have slow : powerOfTen exponent = .ofModel (Float.Model.ofScientific 1 exponent) := by
      simp [powerOfTen, Float.ofScientific, Nat.not_le.mpr large]
    have greatest : 10 ^ 307 < 2 ^ 1020 := by decide +kernel
    have power : 1 * 10 ^ exponent < 2 ^ 1020 := by
      rw [Nat.one_mul]
      exact Nat.lt_of_le_of_lt
        (Nat.pow_le_pow_right (by decide) (Nat.le_of_lt_succ smaller)) greatest
    rw [slow]
    exact exponentAtMost_unpack_pack (by decide) (by decide)
      (exponentAtMost_ofScientific (by decide) (by omega) power (by decide) (by decide))
  · have all : ∀ exponent ≤ 22, ExponentAtMost 971 (powerOfTen exponent).toModel.unpack := by
      decide +kernel
    exact all exponent few

/-- Counts of the size of a machine word are read as numbers that are not large. -/
theorem exponentAtMost_floatOfNat {count : Nat} (small : count < wordLimit) :
    ExponentAtMost 14 (Float.ofNat count).toModel.unpack := by
  by_cases short : count < 2 ^ 53
  · have fast : Float.ofNat count = count.toUInt64.toFloat * Float.ofBits 0x3FF0000000000000 :=
      dif_pos ⟨short, Nat.zero_le 22⟩
    have same : count.toUInt64.toNat = count := Nat.mod_eq_of_lt small
    have converted : ExponentAtMost 12 count.toUInt64.toFloat.toModel.unpack := by
      refine exponentAtMost_unpack_pack (by decide) (by decide) ?_
      rw [ofUInt64, same]
      exact exponentAtMost_ofNat small
    have one : ExponentAtMost (-52) (Float.ofBits 0x3FF0000000000000).toModel.unpack := by
      decide +kernel
    rw [fast]
    exact exponentAtMost_unpack_pack (by decide) (by decide)
      (exponentAtMost_mul converted one (fun _ _ _ _ parts => (bounds_of_unpack parts).1)
        (fun _ _ _ _ parts => (bounds_of_unpack parts).1) (by decide) (by decide))
  · have slow : Float.ofNat count = .ofModel (Float.Model.ofScientific count 0) :=
      dif_neg fun fits => short fits.1
    have nonzero : count ≠ 0 := by
      rintro rfl
      exact short (by decide)
    have digits : count * 10 ^ 0 < 2 ^ 64 := by
      rw [Nat.pow_zero, Nat.mul_one]
      exact small
    rw [slow]
    exact exponentAtMost_unpack_pack (by decide) (by decide)
      (exponentAtMost_ofScientific nonzero (by decide) digits (by decide) (by decide))

theorem exponentAtMost_quotient_last {exponent : Nat}
    (bounded : ExponentAtMost 14 value.toModel.unpack) (last : exponent = 308) :
    ExponentAtMost 14 (value / powerOfTen exponent).toModel.unpack :=
  exponentAtMost_quotient bounded (exponentAtLeast_powerOfTen_last last) (by decide) (by decide)
    (by decide)

theorem exponentAtMost_divideByPower {exponent : Nat}
    (bounded : ExponentAtMost 14 value.toModel.unpack) :
    ExponentAtMost 68 (divideByPower value exponent).toModel.unpack := by
  induction value, exponent using divideByPower.induct with
  | case1 value exponent small =>
      rw [divideByPower, if_pos small]
      exact exponentAtMost_quotient bounded (exponentAtLeast_powerOfTen exponent) (by decide)
        (by decide) (by decide)
  | case2 value exponent large zero =>
      rw [divideByPower, if_neg large, if_pos zero]
      exact bounded.mono (by decide)
  | case3 value exponent large nonzero ih =>
      rw [divideByPower, if_neg large, if_neg nonzero]
      exact ih (exponentAtMost_quotient_last bounded rfl)

theorem isFinite_of_scaleByPower? {exponent : Int} {scaled : Float}
    (bounded : ExponentAtMost 14 value.toModel.unpack)
    (read : scaleByPower? value exponent = some scaled) : scaled.isFinite := by
  unfold scaleByPower? at read
  split at read
  · cases read
    exact (exponentAtMost_divideByPower bounded).isFinite
  split at read
  next small =>
    simp only at read
    split at read
    · cases read
    next finite =>
      cases read
      have power : ExponentAtMost 971 (powerOfTen exponent.toNat).toModel.unpack :=
        exponentAtMost_powerOfTen (by omega)
      have product : ExponentAtMost 1039 (mul Format.binary64 value.toModel.unpack
          (powerOfTen exponent.toNat).toModel.unpack) :=
        exponentAtMost_mul bounded power (fun _ _ _ _ parts => (bounds_of_unpack parts).1)
          (fun _ _ _ _ parts => (bounds_of_unpack parts).1) (by decide) (by decide)
      exact (isFinite_or_isInf_unpack_pack product).resolve_right finite
  split at read
  · cases read
    exact bounded.isFinite
  · cases read

theorem isFinite_neg (finite : value.isFinite) : (-value).isFinite := by
  have parts : ExponentAtMost 971 value.toModel.unpack.neg := by
    cases unpacked : value.toModel.unpack with
    | zero => trivial
    | finite => exact (bounds_of_unpack unpacked).2
    | infinity => simp [Float.isFinite, Float.Model.isFinite, unpacked, isFinite] at finite
    | notANumber => simp [Float.isFinite, Float.Model.isFinite, unpacked, isFinite] at finite
  exact (exponentAtMost_unpack_pack (by decide) (by decide) parts).isFinite

/-- A number is packed from its own parts. -/
theorem eq_ofModel_pack_unpack (value : Float) :
    value = .ofModel (Float.Model.pack value.toModel.unpack) :=
  (Float.ofBits_toBits value).symm

/-- There are three numbers that are not finite. -/
theorem eq_of_isFinite_eq_false (infinite : value.isFinite = false) :
    value = 0.0 / 0.0 ∨ value = 1.0 / 0.0 ∨ value = -1.0 / 0.0 := by
  have packed := eq_ofModel_pack_unpack value
  have finite : value.toModel.unpack.isFinite = false := infinite
  cases parts : value.toModel.unpack with
  | zero => simp [parts, isFinite] at finite
  | finite => simp [parts, isFinite] at finite
  | notANumber =>
      rw [parts] at packed
      exact .inl (packed.trans (by decide +kernel))
  | infinity sign =>
      rw [parts] at packed
      right
      cases sign with
      | positive => exact .inl (packed.trans (by decide +kernel))
      | negative => exact .inr (packed.trans (by decide +kernel))

end Float

theorem appendDigits_lt (value : Nat) (digits : List Char) (small : value < wordLimit) :
    (appendDigits value digits).1 < wordLimit := by
  induction digits generalizing value with
  | nil => exact small
  | cons digit rest ih =>
      simp only [appendDigits]
      split
      next longer => exact ih _ longer
      next => exact small

/-- A numeral never stands for an infinite number. -/
theorem Numeral.isFinite_of_toFloat? {numeral : Numeral} {number : Float}
    (read : numeral.toFloat? = some number) : number.isFinite := by
  have whole := appendDigits_lt 0 numeral.whole (by decide)
  have significand := appendDigits_lt _ numeral.fraction whole
  unfold toFloat? at read
  simp only [Option.bind_eq_bind, Option.bind_eq_some_iff, Option.pure_def,
    Option.some.injEq] at read
  obtain ⟨size, scaled, rfl⟩ := read
  have finite := isFinite_of_scaleByPower? (exponentAtMost_floatOfNat significand) scaled
  split
  · exact isFinite_neg finite
  · exact finite

end ChangeImpact.Decimal
