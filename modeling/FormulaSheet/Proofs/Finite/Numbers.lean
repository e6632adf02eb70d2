import FormulaSheet.Function.Builtin
import Mathlib.Algebra.Group.Int.Defs
import Mathlib.Algebra.Group.Nat.Defs

set_option autoImplicit false

namespace FormulaSheet.Binary64

open Float.Model UnpackedFloat

-- Zero, or a number whose exponent is at most `top`.
def AtMost (top : Int) : UnpackedFloat → Prop
  | .zero _ => True
  | .finite _ _ exponent _ => exponent ≤ top
  | .infinity _ | .notANumber => False

def Short (top : Int) : UnpackedFloat → Prop
  | .zero _ => True
  | .finite _ mantissa exponent _ => mantissa < 2 ^ 53 ∧ exponent ≤ top
  | .infinity _ | .notANumber => False

theorem Short.atMost {top : Int} {u : UnpackedFloat} (h : Short top u) : AtMost top u := by
  cases u with
  | finite => exact h.2
  | zero => trivial
  | infinity | notANumber => contradiction

theorem AtMost.isFinite {top : Int} {u : UnpackedFloat} (h : AtMost top u) : u.isFinite := by
  cases u with
  | finite | zero => rfl
  | infinity | notANumber => contradiction

theorem Short.isFinite {top : Int} {u : UnpackedFloat} (h : Short top u) : u.isFinite :=
  h.atMost.isFinite

theorem AtMost.mono {low top : Int} {u : UnpackedFloat} (h : AtMost low u) (le : low ≤ top) :
    AtMost top u := by
  cases u with
  | finite => exact Int.le_trans h le
  | zero => trivial
  | infinity | notANumber => contradiction

theorem AtMost.neg {top : Int} {u : UnpackedFloat} (h : AtMost top u) : AtMost top u.neg := by
  cases u <;> exact h

section Packing

variable {bits : BitVec Format.binary64.numBits} {top : Int} {u : UnpackedFloat}

theorem exponent_of_isFinite (h : (UnpackedFloat.unpack .binary64 bits).isFinite) :
    (unpackExponent bits).toNat ≤ 2046 := by
  have width := (unpackExponent bits).isLt
  refine Nat.le_of_not_lt fun large => ?_
  have ones : unpackExponent bits = -1#_ := by
    apply BitVec.eq_of_toNat_eq
    change _ = 2047
    simp only [Format.binary64] at width
    omega
  unfold UnpackedFloat.unpack at h
  dsimp only at h
  rw [if_pos ones] at h
  split at h <;> contradiction

theorem unpack_short (low : -1074 ≤ top) (high : top ≤ 971)
    (h : ((unpackExponent bits).toNat : Int) ≤ top + 1075) :
    Short top (UnpackedFloat.unpack .binary64 bits) := by
  have mantissa := (unpackMantissa bits).isLt
  have bias : ((Format.binary64.exponentBias : Nat) : Int) = 1023 := rfl
  unfold UnpackedFloat.unpack
  dsimp only
  by_cases ones : unpackExponent bits = -1#_
  · have : (unpackExponent bits).toNat = 2047 := congrArg BitVec.toNat ones
    omega
  rw [if_neg ones]
  by_cases none : unpackExponent bits = 0#_
  · have : (unpackExponent bits).toNat = 0 := congrArg BitVec.toNat none
    rw [if_pos none]
    by_cases zero : unpackMantissa bits = 0#_
    · rw [dif_pos zero]
      trivial
    · rw [dif_neg zero]
      constructor
      · simp only [Format.binary64] at mantissa
        omega
      · rw [bias]
        simp only [Format.binary64]
        omega
  · rw [if_neg none]
    constructor
    · rw [BitVec.toNat_append, ← Nat.shiftLeft_add_eq_or_of_lt mantissa, Nat.shiftLeft_eq]
      simp only [Format.binary64] at mantissa ⊢
      simp
      omega
    · rw [bias]
      simp only [Format.binary64]
      omega

theorem exponent_pack (low : -1074 ≤ top) (high : top ≤ 971) (h : AtMost top u) :
    ((unpackExponent (UnpackedFloat.pack .binary64 u)).toNat : Int) ≤ top + 1075 := by
  have bias : ((Format.binary64.exponentBias : Nat) : Int) = 1023 := rfl
  cases u with
  | infinity | notANumber => contradiction
  | zero sign =>
    unfold UnpackedFloat.pack packedZero
    rw [unpackExponent_packComponents]
    change (0 : Int) ≤ _
    omega
  | finite sign mantissa exponent positive =>
    have within : exponent ≤ top := h
    unfold UnpackedFloat.pack
    dsimp only
    rw [bias]
    split
    · omega
    · split
      · rw [unpackExponent_packComponents, BitVec.toNat_ofNat]
        omega
      · rw [unpackExponent_packComponents]
        change (0 : Int) ≤ _
        omega

theorem pack_short (low : -1074 ≤ top) (high : top ≤ 971) (h : AtMost top u) :
    Short top (Float.Model.pack u).unpack :=
  unpack_short low high (exponent_pack low high h)

end Packing

section Rounding

theorem shiftRight_le (em : ExtendedMantissa) (n : Nat) :
    (em >>> n).mantissa ≤ em.mantissa := by
  change (n.repeat ExtendedMantissa.shiftRightOne em).mantissa ≤ _
  induction n with
  | zero => exact Nat.le_refl _
  | succ n ih => exact Nat.le_trans (Nat.div_le_self _ _) ih

theorem roundedMantissa_le (em : ExtendedMantissa) : em.roundedMantissa ≤ em.mantissa + 1 := by
  obtain ⟨mantissa, _ | _, _ | _⟩ := em <;>
    simp [ExtendedMantissa.roundedMantissa, ExtendedMantissa.accuracy,
      Accuracy.roundToNearestEven]
  omega

theorem targetExponent_le {bits mantissa : Nat} (exponent : Int) (h : mantissa ≤ 2 ^ bits) :
    Format.targetExponent .binary64 (totalExponent mantissa exponent) ≤
      max (bits + exponent) (-1074) := by
  have log : mantissa.log2 ≤ bits := by
    by_cases zero : mantissa = 0
    · simp [zero]
    · have above := Nat.log2_self_le zero
      exact (Nat.pow_le_pow_iff_right (by decide)).mp (Nat.le_trans above h)
  have least : Format.binary64.minExponent = -1074 := by decide
  have width : ((Format.binary64.mantissaBits : Nat) : Int) = 53 := rfl
  unfold Format.targetExponent totalExponent
  rw [least, width]
  omega

theorem atMost_finite (sign : Sign) {mantissa : Nat} {exponent top : Int} (le : exponent ≤ top) :
    AtMost top (if h : mantissa = 0 then .zero sign
      else .finite sign mantissa exponent (Nat.pos_of_ne_zero h)) := by
  by_cases zero : mantissa = 0
  · rw [dif_pos zero]
    trivial
  · rw [dif_neg zero]
    exact le

theorem roundWithAccuracy_atMost (sign : Sign) {bits mantissa : Nat} (exponent : Int)
    (h : mantissa < 2 ^ bits) :
    AtMost (max exponent (-1074) + 2 * bits)
      (roundWithAccuracy .binary64 sign mantissa exponent .exact) := by
  unfold roundWithAccuracy shiftToTargetExponent shiftToExponent
  dsimp only
  have first := targetExponent_le exponent (Nat.le_of_lt h)
  generalize Format.targetExponent .binary64 (totalExponent mantissa exponent) = target at *
  have shifted := shiftRight_le (.ofMantissaAndAccuracy mantissa .exact)
    (target - exponent).toNat
  have rounded := roundedMantissa_le
    (ExtendedMantissa.ofMantissaAndAccuracy mantissa .exact >>> (target - exponent).toNat)
  generalize ExtendedMantissa.roundedMantissa _ = nearest at *
  have kept : nearest ≤ 2 ^ bits := by
    have same : (ExtendedMantissa.ofMantissaAndAccuracy mantissa .exact).mantissa = mantissa := rfl
    omega
  have second := targetExponent_le (exponent + (target - exponent).toNat) kept
  refine atMost_finite sign ?_
  omega

theorem round_atMost (sign : Sign) {bits mantissa : Nat} (h : mantissa < 2 ^ bits) :
    AtMost (2 * bits + 106) (UnpackedFloat.round .binary64 sign mantissa 0) := by
  have least : Format.binary64.minExponent = -1074 := by decide
  have width : ((Format.binary64.mantissaBits : Nat) : Int) = 53 := rfl
  have near : -53 ≤ Format.targetExponent .binary64 (totalExponent mantissa 0) := by
    unfold Format.targetExponent totalExponent
    rw [least, width]
    omega
  unfold UnpackedFloat.round decreaseExponent
  dsimp only
  generalize Format.targetExponent .binary64 (totalExponent mantissa 0) = target at *
  have shifted : mantissa <<< (0 - target).toNat < 2 ^ (bits + 53) := by
    rw [Nat.shiftLeft_eq, Nat.pow_add]
    have few : 2 ^ (0 - target).toNat ≤ 2 ^ 53 := Nat.pow_le_pow_right (by decide) (by omega)
    exact Nat.mul_lt_mul_of_lt_of_le h few (Nat.two_pow_pos _)
  refine (roundWithAccuracy_atMost sign _ shifted).mono ?_
  omega

theorem ofNat_atMost {bits n : Nat} (h : n < 2 ^ bits) :
    AtMost (2 * bits + 106) (UnpackedFloat.ofNat .binary64 n) := by
  unfold UnpackedFloat.ofNat UnpackedFloat.ofInt UnpackedFloat.normalize
  split
  next negative =>
    have := Int.compare_eq_lt.mp negative
    omega
  · trivial
  · exact round_atMost .positive h

theorem mul_finite (spec : Format) (sign sign' : Sign) (mantissa mantissa' : Nat)
    (exponent exponent' : Int) (positive : 0 < mantissa) (positive' : 0 < mantissa') :
    UnpackedFloat.mul spec (.finite sign mantissa exponent positive)
        (.finite sign' mantissa' exponent' positive') =
      roundWithAccuracy spec (sign * sign') (mantissa * mantissa') (exponent + exponent') .exact :=
  rfl

theorem mul_atMost {low high : Int} {left right : UnpackedFloat} (hleft : Short low left)
    (hright : Short high right) :
    AtMost (max (low + high) (-1074) + 2 * 106) (UnpackedFloat.mul .binary64 left right) := by
  cases left with
  | infinity | notANumber => contradiction
  | zero =>
    cases right with
    | infinity | notANumber => contradiction
    | zero | finite => trivial
  | finite sign mantissa exponent =>
    cases right with
    | infinity | notANumber => contradiction
    | zero => trivial
    | finite sign' mantissa' exponent' =>
      have product : mantissa * mantissa' < 2 ^ (53 + 53) := by
        rw [Nat.pow_add]
        exact Nat.mul_lt_mul'' hleft.1 hright.1
      rw [mul_finite]
      refine (roundWithAccuracy_atMost _ (exponent + exponent') product).mono ?_
      have := hleft.2
      have := hright.2
      omega

theorem ofScientific_atMost {n : Nat} (h : n < 2 ^ 64) :
    AtMost 181 (UnpackedFloat.ofScientific .binary64 n 0) := by
  have least : ¬(0 : Int) < -((2 ^ Format.binary64.exponentBits : Int) + n.log2) := by
    have : (0 : Int) ≤ 2 ^ Format.binary64.exponentBits := Int.pow_nonneg (by decide)
    omega
  unfold UnpackedFloat.ofScientific
  by_cases zero : n = 0
  · rw [dif_pos zero]
    trivial
  rw [dif_neg zero, if_neg (by decide), if_neg least, if_pos (by decide), mul_finite]
  have extended : n <<< Format.binary64.mantissaBits * 10 ^ (0 : Int).toNat < 2 ^ (64 + 53) := by
    rw [Nat.shiftLeft_eq, Nat.pow_add, Int.toNat_zero, Nat.pow_zero, Nat.mul_one]
    exact Nat.mul_lt_mul_of_pos_right h (Nat.two_pow_pos _)
  refine (roundWithAccuracy_atMost _ _ extended).mono ?_
  have width : ((Format.binary64.mantissaBits : Nat) : Int) = 53 := rfl
  rw [width]
  decide

end Rounding

theorem isFinite_ofModel {top : Int} {u : UnpackedFloat} (low : -1074 ≤ top) (high : top ≤ 971)
    (h : AtMost top u) : (Float.ofModel (Float.Model.pack u)).isFinite :=
  (pack_short low high h).isFinite

theorem isFinite_neg {x : Float} (h : x.isFinite) : (-x).isFinite := by
  have exponent := exponent_of_isFinite h
  have short : Short 971 x.toModel.unpack :=
    unpack_short (by decide) (by decide) (by omega)
  exact isFinite_ofModel (by decide) (by decide) short.atMost.neg

theorem isFinite_ofNat {n : Nat} (h : n < 2 ^ 64) : (Float.ofNat n).isFinite := by
  change (Float.ofScientific n false 0).isFinite
  unfold Float.ofScientific
  split
  next small =>
    have word : n.toUInt64.toNat < 2 ^ 64 := n.toUInt64.toNat_lt
    have whole : Short 234 n.toUInt64.toFloat.toModel.unpack :=
      pack_short (by decide) (by decide) (ofNat_atMost word)
    have one : Short 0 (Float.ofBits 0x3FF0000000000000).toModel.unpack := by
      change 2 ^ 52 < 2 ^ 53 ∧ (-52 : Int) ≤ 0
      decide
    exact isFinite_ofModel (by decide) (by decide) (mul_atMost whole one)
  next large => exact isFinite_ofModel (by decide) (by decide) (ofScientific_atMost h)

theorem isFinite_ofInt {n : Int} (low : -2 ^ 63 ≤ n) (high : n < 2 ^ 63) :
    (Float.ofInt n).isFinite := by
  cases n with
  | ofNat n =>
    have below : (n : Int) < 2 ^ 63 := high
    exact isFinite_ofNat (by omega)
  | negSucc n => exact isFinite_neg (isFinite_ofNat (by omega))

theorem isFinite_constants : ∀ constant ∈ Builtin.constants, constant.2.isFinite := by
  decide +kernel

section Quotients

theorem isFinite_or_isInf_pack {u : UnpackedFloat} (h : u.isFinite) :
    (Float.Model.pack u).unpack.isFinite ∨ (Float.Model.pack u).unpack.isInf := by
  have kept {bits : BitVec Format.binary64.numBits}
      (exponent : (unpackExponent bits).toNat ≤ 2046) :
      (UnpackedFloat.unpack .binary64 bits).isFinite := by
    have short : Short 971 (UnpackedFloat.unpack .binary64 bits) :=
      unpack_short (by decide) (by decide) (by omega)
    exact short.isFinite
  change (UnpackedFloat.unpack .binary64 (UnpackedFloat.pack .binary64 u)).isFinite ∨
    (UnpackedFloat.unpack .binary64 (UnpackedFloat.pack .binary64 u)).isInf
  cases u with
  | infinity | notANumber => cases h
  | zero sign =>
    refine .inl (kept ?_)
    unfold UnpackedFloat.pack packedZero
    rw [unpackExponent_packComponents]
    exact Nat.zero_le _
  | finite sign mantissa exponent positive =>
    unfold UnpackedFloat.pack
    dsimp only
    split
    · cases sign
      · exact .inr rfl
      · exact .inr rfl
    next small =>
      have width : (2 : Nat) ^ Format.binary64.exponentBits = 2048 := rfl
      refine .inl (kept ?_)
      split
      · rw [width] at small
        rw [unpackExponent_packComponents, BitVec.toNat_ofNat, width]
        omega
      · rw [unpackExponent_packComponents]
        exact Nat.zero_le _

theorem isFinite_or_isInf_div {y x : Float} (numerator : y.isFinite) (denominator : x.isFinite)
    (nonzero : ¬x == 0) : (y / x).isFinite ∨ (y / x).isInf := by
  have divided : (UnpackedFloat.div .binary64 y.toModel.unpack x.toModel.unpack).isFinite := by
    have apart (sign : Sign) : x.toModel.unpack ≠ .zero sign := by
      intro zero
      refine nonzero ?_
      change (x.toModel.unpack.compare (0 : Float).toModel.unpack == some .eq) = true
      rw [zero]
      rfl
    change y.toModel.unpack.isFinite at numerator
    change x.toModel.unpack.isFinite at denominator
    generalize x.toModel.unpack = v at *
    generalize y.toModel.unpack = u at *
    cases v with
    | infinity | notANumber => contradiction
    | zero sign => exact absurd rfl (apart sign)
    | finite =>
      cases u with
      | infinity | notANumber => contradiction
      | zero => rfl
      | finite =>
        unfold UnpackedFloat.div roundWithAccuracy
        exact (atMost_finite _ (Int.le_refl _)).isFinite
  exact isFinite_or_isInf_pack divided

end Quotients

end FormulaSheet.Binary64
