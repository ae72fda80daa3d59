import Mathlib.Algebra.Field.Rat
import Mathlib.Data.Rat.Cast.Defs
import Mathlib.Tactic.Ring
import QueryLease.Number.Binary64

namespace QueryLease

/-- A number as a binary word can have it: with a sign of its own, also at zero. One NaN is as good
as another. -/
inductive Number where
  | nan
  | infinite (negative : Bool)
  | finite (negative : Bool) (magnitude : ℚ)

def Number.ofFields (last unit : Nat) (bias : Int) (negative : Bool) (exponent fraction : Nat) :
    Number :=
  if exponent = last then if fraction = 0 then infinite negative else nan
  else if exponent = 0 then finite negative (fraction * 2 ^ (1 - bias))
  else finite negative ((unit + fraction : Nat) * 2 ^ (exponent - bias))

namespace Binary64

def value (x : Binary64) : Number :=
  .ofFields 2047 exponentUnit 1075 x.negative x.exponent x.fraction

variable {negative : Bool} {exponent fraction : Nat}

theorem bits_ofFields (negative : Bool) (he : exponent < 2048) (hf : fraction < 0x10000000000000) :
    (ofFields negative exponent fraction).bits.toNat =
      negative.toNat * 0x8000000000000000 + exponent * 0x10000000000000 + fraction := by
  have sign : (if negative then signUnit else 0) = negative.toNat * 0x8000000000000000 := by
    cases negative <;> rfl
  have := negative.toNat_lt
  rw [ofFields, UInt64.toNat_ofNat', sign]
  exact Nat.mod_eq_of_lt (by simp only [exponentUnit]; omega)

theorem value_ofFields (he : exponent < 2048) (hf : fraction < 0x10000000000000) :
    (ofFields negative exponent fraction).value =
      .ofFields 2047 exponentUnit 1075 negative exponent fraction := by
  have bits := bits_ofFields negative he hf
  have := negative.toNat_lt
  have negative_eq : (ofFields negative exponent fraction).negative = negative := by
    have top : (ofFields negative exponent fraction).bits.toNat / signUnit = negative.toNat := by
      simp only [bits, signUnit]
      omega
    rw [Binary64.negative, top]
    cases negative <;> rfl
  have exponent_eq : (ofFields negative exponent fraction).exponent = exponent := by
    simp only [Binary64.exponent, bits, exponentUnit]
    omega
  have fraction_eq : (ofFields negative exponent fraction).fraction = fraction := by
    simp only [Binary64.fraction, bits, exponentUnit]
    omega
  rw [value, negative_eq, exponent_eq, fraction_eq]

end Binary64

namespace Binary32

def value (x : Binary32) : Number :=
  .ofFields 255 exponentUnit 150 x.negative x.exponent x.fraction

variable {x : Binary32}

theorem fraction_lt (x : Binary32) : x.fraction < 0x800000 := Nat.mod_lt _ (by decide)

theorem exponent_lt (x : Binary32) : x.exponent < 256 := Nat.mod_lt _ (by decide)

theorem shifted (n places : Nat) (scale : Int) :
    ((n * 2 ^ places : Nat) : ℚ) * 2 ^ scale = n * 2 ^ (places + scale) := by
  rw [zpow_add₀ two_ne_zero, zpow_natCast]
  push_cast
  ring

theorem widen_value_last (last : x.exponent = 255) : x.widen.value = x.value := by
  have := x.fraction_lt
  rw [widen, if_pos last, Binary64.value_ofFields (by omega) (by omega), value, last]
  simp [Number.ofFields]

theorem widen_value_normal (last : x.exponent ≠ 255) (first : x.exponent ≠ 0) :
    x.widen.value = x.value := by
  have := x.fraction_lt
  have := x.exponent_lt
  rw [widen, if_neg last, if_pos first, Binary64.value_ofFields (by omega) (by omega), value,
    Number.ofFields, Number.ofFields, if_neg (by omega), if_neg (by omega), if_neg last,
    if_neg first]
  refine congrArg (Number.finite _) ?_
  have wider : Binary64.exponentUnit + x.fraction * 0x20000000 =
      (exponentUnit + x.fraction) * 2 ^ 29 := by
    rw [Nat.add_mul]
    rfl
  rw [wider, shifted,
    show (29 : Nat) + ((x.exponent + 896 : Nat) - 1075 : Int) = x.exponent - 150 by omega]

theorem widen_value_zero (first : x.exponent = 0) (zero : x.fraction = 0) :
    x.widen.value = x.value := by
  rw [widen, if_neg (by omega), if_neg (by omega), if_pos zero,
    Binary64.value_ofFields (by decide) (by decide), value, first, zero]
  simp [Number.ofFields]

theorem widen_value_subnormal (first : x.exponent = 0) (nonzero : x.fraction ≠ 0) :
    x.widen.value = x.value := by
  have top : x.fraction.log2 < 23 := (Nat.log2_lt nonzero).2 x.fraction_lt
  obtain ⟨shift, hs⟩ : ∃ shift, 52 - x.fraction.log2 = shift := ⟨_, rfl⟩
  -- Shifted up, the significand fills its 53 places and no more.
  have whole : 0x10000000000000 ≤ x.fraction * 2 ^ shift := calc
    0x10000000000000 = 2 ^ x.fraction.log2 * 2 ^ shift := by
      rw [← pow_add, show x.fraction.log2 + shift = 52 by omega]
      rfl
    _ ≤ _ := Nat.mul_le_mul_right _ (Nat.log2_self_le nonzero)
  have short : x.fraction * 2 ^ shift < 0x20000000000000 := calc
    x.fraction * 2 ^ shift < 2 ^ (x.fraction.log2 + 1) * 2 ^ shift :=
      Nat.mul_lt_mul_of_pos_right Nat.lt_log2_self (Nat.two_pow_pos shift)
    _ = _ := by
      rw [← pow_add, show x.fraction.log2 + 1 + shift = 53 by omega]
      rfl
  rw [widen, if_neg (by omega), if_neg (by omega), if_neg nonzero]
  simp only [Nat.pow_eq, hs, Binary64.exponentUnit]
  rw [Binary64.value_ofFields (by omega) (by omega), value, first,
    Number.ofFields, Number.ofFields, if_neg (by omega), if_neg (by omega), if_neg (by omega),
    if_pos rfl]
  refine congrArg (Number.finite _) ?_
  rw [Nat.add_sub_cancel' whole, shifted,
    show shift + ((x.fraction.log2 + 874 : Nat) - 1075 : Int) = 1 - 150 by omega]

theorem widen_value (x : Binary32) : x.widen.value = x.value := by
  by_cases last : x.exponent = 255
  · exact widen_value_last last
  by_cases first : x.exponent = 0
  · by_cases zero : x.fraction = 0
    · exact widen_value_zero first zero
    · exact widen_value_subnormal first zero
  · exact widen_value_normal last first

end Binary32

end QueryLease
