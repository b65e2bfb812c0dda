import Mathlib.Data.Rat.Floor
import Mathlib.Tactic.Linarith
import Linewise.Proofs.ExactIntegers

/-! Where words stop short of exact arithmetic. The floored remainder always fits into a word, but
it is refused together with the quotient, so for the least integer and the divisor `-1`. A power
overflows if it does not fit, and also, whatever the base, if the exponent does not fit into 32
bits; only the powers of `0`, `1` and `-1` are lost by that. -/
namespace Linewise

namespace Integer

/-! ## Sizes -/

theorem InRange.size_le {n : Int} (inside : InRange n) : |n| ≤ 2 ^ 63 := by
  obtain ⟨low, high⟩ := inside
  exact abs_le.mpr ⟨low, by omega⟩

theorem inRange_of_abs_lt {n : Int} (small : |n| < 2 ^ 63) : InRange n := by
  obtain ⟨low, high⟩ := abs_lt.mp small
  exact ⟨low.le, by omega⟩

/-! ## Remainders -/

/-- A floored remainder has the sign of the divisor and is smaller in size. -/
theorem abs_fmod_lt (a : Int) {b : Int} (nonzero : b ≠ 0) : |a.fmod b| < |b| := by
  rcases lt_or_gt_of_ne nonzero with negative | positive
  · have low := Int.fmod_nonneg_of_pos (-a) (show 0 < -b by omega)
    have high := Int.fmod_lt_of_pos (-a) (show 0 < -b by omega)
    rw [Int.neg_fmod_neg] at low high
    rw [abs_of_nonpos (by omega), abs_of_neg negative]
    omega
  · have low := Int.fmod_nonneg_of_pos a positive
    have high := Int.fmod_lt_of_pos a positive
    rw [abs_of_nonneg low, abs_of_pos positive]
    exact high

theorem fdiv_eq_floor (a b : Int) : a.fdiv b = ⌊(a : ℚ) / b⌋ := by
  have floored (a : Int) {b : Int} (positive : 0 < b) : a.fdiv b = ⌊(a : ℚ) / b⌋ := by
    lift b to ℕ using positive.le
    rw [Int.fdiv_eq_ediv_of_nonneg a positive.le]
    exact (Rat.floor_intCast_div_natCast a b).symm
  rcases lt_trichotomy b 0 with negative | rfl | positive
  · have opposite := floored (-a) (show 0 < -b by omega)
    rw [Int.neg_fdiv_neg] at opposite
    rw [opposite, Int.cast_neg, Int.cast_neg, neg_div_neg_eq]
  · simp
  · exact floored a positive

/-- The remainder that belongs to the quotient rounded toward negative infinity. -/
def flooredRemainder (a b : Int) : Int :=
  a - b * ⌊(a : ℚ) / b⌋

theorem fmod_eq_flooredRemainder (a b : Int) : a.fmod b = flooredRemainder a b := by
  rw [Int.fmod_def, fdiv_eq_floor, flooredRemainder]

theorem abs_flooredRemainder_lt (a : Int) {b : Int} (nonzero : b ≠ 0) :
    |flooredRemainder a b| < |b| := by
  rw [← fmod_eq_flooredRemainder]
  exact abs_fmod_lt a nonzero

/-- A remainder is made exactly where the truncated quotient is defined. -/
theorem floorMod?_eq (x y : Int64) :
    floorMod? x y = if Divides x y then fit (flooredRemainder x.toInt y.toInt) else none := by
  cases made : floorMod? x y with
  | some n =>
    have exact := toInt_floorMod? made
    rw [fmod_eq_flooredRemainder] at exact
    unfold floorMod? at made
    split at made
    · rename_i divides
      rw [if_pos divides, fit_eq_some_iff.mpr exact]
    · cases made
  | none =>
    unfold floorMod? at made
    split at made
    · split at made <;> cases made
    · rename_i undivided
      rw [if_neg undivided]

end Integer

/-- **Remainders are the floored ones, with one exception.** The floored remainder by a divisor
other than zero is smaller in size than the divisor, so it fits into a word. It is the result for
every two words but the least one and `-1`, where the remainder `0` is refused as an overflow. -/
theorem remainders_floored (x y : Int64) (nonzero : y ≠ 0) :
    |Integer.flooredRemainder x.toInt y.toInt| < |y.toInt| ∧
      Integer.InRange (Integer.flooredRemainder x.toInt y.toInt) ∧
      (¬ (x = Int64.minValue ∧ y = -1) →
        ∃ n : Int64, n.toInt = Integer.flooredRemainder x.toInt y.toInt ∧
          Eval.binary (.arith .mod) (.int x) (.int y) = .ok (.int n)) ∧
      (x = Int64.minValue ∧ y = -1 →
        Integer.flooredRemainder x.toInt y.toInt = 0 ∧
          Eval.binary (.arith .mod) (.int x) (.int y) = .error .overflow) := by
  have small := Integer.abs_flooredRemainder_lt x.toInt (mt (Integer.eq_zero_iff y).mpr nonzero)
  have inside := Integer.inRange_of_abs_lt (small.trans_le (Integer.inRange_toInt y).size_le)
  have computed : Eval.onIntegers .mod x y = Eval.checked (Integer.floorMod? x y) := if_neg nonzero
  refine ⟨small, inside, fun regular => ?_, ?_⟩
  · rw [Integer.floorMod?_eq, if_pos ⟨nonzero, regular⟩] at computed
    exact (Eval.decides_checked not_false computed).value not_false inside
  · rintro ⟨rfl, rfl⟩
    rw [← Integer.fmod_eq_flooredRemainder]
    decide

/-- The least word, whose truncated remainder by a positive divisor is negative. -/
theorem remainders_floored_least_word :
    (3 : Int64) ≠ 0 ∧ ∃ n : Int64, n.toInt = Integer.flooredRemainder (-2 ^ 63) 3 ∧
      Eval.binary (.arith .mod) (.int Int64.minValue) (.int 3) = .ok (.int n) :=
  ⟨by decide, (remainders_floored Int64.minValue 3 (by decide)).2.2.1 (by decide)⟩

/-- The least word leaves no remainder by `-1`, which is reported as an overflow. -/
theorem least_word_remainder_refused :
    Integer.flooredRemainder Int64.minValue.toInt (-1 : Int64).toInt = 0 ∧
      Eval.binary (.arith .mod) (.int Int64.minValue) (.int (-1)) = .error .overflow := by
  constructor
  · rw [← Integer.fmod_eq_flooredRemainder]
    decide
  · decide

/-! ## Powers -/

namespace Integer

/-- With an exponent of 64 or more only the powers of `0`, `1` and `-1` fit. -/
theorem not_inRange_pow {a : Int} (large : 1 < |a|) {n : Nat} (many : 64 ≤ n) :
    ¬ InRange (a ^ n) := by
  have doubled : (2 : Int) ^ 64 ≤ |a ^ n| := by
    rw [abs_pow]
    calc (2 : Int) ^ 64 ≤ 2 ^ n := pow_le_pow_right₀ (by norm_num) many
      _ ≤ |a| ^ n := pow_le_pow_left₀ (by norm_num) large n
  intro inside
  have size := inside.size_le
  omega

theorem one_lt_abs {x : Int64} (zero : x ≠ 0) (one : x ≠ 1) (minusOne : x ≠ -1) :
    1 < |x.toInt| := by
  have other {k : Int64} (ne : x ≠ k) : x.toInt ≠ k.toInt := mt Int64.toInt_inj.mp ne
  have first : x.toInt ≠ 0 := other zero
  have second : x.toInt ≠ 1 := other one
  have third : x.toInt ≠ -1 := other minusOne
  rw [lt_abs]
  omega

/-- A power is made exactly if it fits. -/
theorem powNat?_eq (x : Int64) (n : Nat) : powNat? x n = fit (x.toInt ^ n) := by
  cases made : powNat? x n with
  | some p => exact (fit_eq_some_iff.mpr (toInt_powNat? made)).symm
  | none =>
    unfold powNat? at made
    split at made
    · exact made.symm
    · split at made
      · cases made
      · split at made
        · cases made
        · rename_i many small minusOne
          obtain ⟨zero, one⟩ := not_or.mp small
          exact (fit_eq_none_iff.mpr
            (not_inRange_pow (one_lt_abs zero one minusOne) (by omega))).symm

/-- The powers of `0`, `1` and `-1` fit. -/
theorem inRange_pow {a : Int} (small : |a| ≤ 1) (n : Nat) : InRange (a ^ n) := by
  have size : |a ^ n| ≤ 1 := by
    rw [abs_pow]
    exact pow_le_one₀ (abs_nonneg a) small
  exact inRange_of_abs_lt (by omega)

end Integer

namespace Machine

/-- The number `product * base ^ exponent` for a positive exponent, by repeated squaring. It is
given up at the first product or square that does not fit. -/
def powerFrom (product base : Int64) (exponent : Nat) : Option Int64 :=
  if exponent ≤ 1 then Integer.mul? product base
  else
    (if exponent % 2 = 1 then Integer.mul? product base else some product).bind fun product =>
      (Integer.mul? base base).bind fun square => powerFrom product square (exponent / 2)
termination_by exponent

/-- A power of a word by repeated squaring. -/
def power (x : Int64) (exponent : Nat) : Option Int64 :=
  if exponent = 0 then some 1 else powerFrom 1 x exponent

/-- A square that does not fit is above the largest size of a word: that size is no square. -/
theorem lt_square {b : Int} (outside : ¬ Integer.InRange (b * b)) : 2 ^ 63 < b * b := by
  have root : 3037000500 ≤ |b| := by
    by_contra small
    have size : |b| ≤ 3037000499 := by omega
    have square : b * b ≤ 3037000499 * 3037000499 := by
      rw [← abs_mul_abs_self b]
      exact mul_self_le_mul_self (abs_nonneg b) size
    have natural := mul_self_nonneg b
    exact outside ⟨by omega, by omega⟩
  rw [← abs_mul_abs_self b]
  have square := mul_self_le_mul_self (by norm_num) root
  omega

/-- Squares that follow do not bring a number back that has left the words. -/
theorem not_inRange_mul_square {a b : Int} (outside : ¬ Integer.InRange a) (nonzero : b ≠ 0)
    (n : Nat) : ¬ Integer.InRange (a * (b * b) ^ n) := by
  have factor : 1 ≤ (b * b) ^ n := one_le_pow₀ (mul_self_pos.mpr nonzero)
  rintro ⟨low, high⟩
  apply outside
  constructor
  · nlinarith
  · nlinarith

/-- If a square does not fit, then no number does that it divides, zero apart. -/
theorem not_inRange_of_square {a b : Int} (outside : ¬ Integer.InRange (b * b)) (nonzero : a ≠ 0)
    {n : Nat} (positive : 0 < n) : ¬ Integer.InRange (a * (b * b) ^ n) := by
  have large := lt_square outside
  have factor : b * b ≤ (b * b) ^ n := le_self_pow₀ (by omega) (by omega)
  have size : b * b ≤ |a * (b * b) ^ n| := by
    rw [abs_mul, abs_of_pos (by omega : 0 < (b * b) ^ n)]
    have one : 1 ≤ |a| := Int.one_le_abs nonzero
    nlinarith
  intro inside
  have bound := inside.size_le
  omega

/-- Repeated squaring gives up only where the result does not fit. The invariant is that the product
is zero only if the base is: a zero would make good for a square that does not fit. -/
theorem powerFrom_eq {product base : Int64} {exponent : Nat} (positive : 0 < exponent)
    (proper : product.toInt = 0 → base.toInt = 0) :
    powerFrom product base exponent = Integer.fit (product.toInt * base.toInt ^ exponent) := by
  fun_induction powerFrom product base exponent with
  | case1 product base exponent last =>
    obtain rfl : exponent = 1 := by omega
    rw [pow_one, Integer.mul?]
  | case2 product base exponent more ih =>
    have squared {product : Int64} (proper : product.toInt = 0 → base.toInt = 0) :
        ((Integer.mul? base base).bind fun square => powerFrom product square (exponent / 2)) =
          Integer.fit (product.toInt * (base.toInt * base.toInt) ^ (exponent / 2)) := by
      cases made : Integer.mul? base base with
      | none =>
        have outside := Integer.fit_eq_none_iff.mp made
        have nonzero : product.toInt ≠ 0 := by
          intro zero
          rw [proper zero] at outside
          exact outside (by decide)
        exact (Integer.fit_eq_none_iff.mpr
          (not_inRange_of_square outside nonzero (by omega))).symm
      | some square =>
        have exact := Integer.fit_eq_some_iff.mp made
        rw [← exact]
        refine ih product square (by omega) fun zero => ?_
        rw [exact, proper zero, mul_zero]
    split
    · rename_i odd
      have halves : product.toInt * base.toInt ^ exponent =
          product.toInt * base.toInt * (base.toInt * base.toInt) ^ (exponent / 2) := by
        rw [← pow_two, ← pow_mul, mul_assoc, ← pow_succ']
        congr 2
        omega
      rw [halves]
      cases made : Integer.mul? product base with
      | none =>
        -- What is still to come is a power of a square, so it neither shrinks nor changes the sign.
        have outside := Integer.fit_eq_none_iff.mp made
        have nonzero : base.toInt ≠ 0 := by
          intro zero
          rw [zero, mul_zero] at outside
          exact outside (by decide)
        exact (Integer.fit_eq_none_iff.mpr (not_inRange_mul_square outside nonzero _)).symm
      | some next =>
        have exact := Integer.fit_eq_some_iff.mp made
        rw [← exact]
        refine squared fun zero => ?_
        rw [exact] at zero
        exact (mul_eq_zero.mp zero).elim proper id
    · rename_i even
      have halves : base.toInt ^ exponent = (base.toInt * base.toInt) ^ (exponent / 2) := by
        rw [← pow_two, ← pow_mul]
        congr 1
        omega
      rw [halves]
      exact squared proper

/-- Repeated squaring on words gives the power, if it fits. -/
theorem power_eq (x : Int64) (exponent : Nat) : power x exponent = Integer.powNat? x exponent := by
  rw [Integer.powNat?_eq]
  unfold power
  split
  · rename_i zero
    rw [zero, pow_zero]
    rfl
  · rename_i some
    have one : (1 : Int64).toInt = 1 := rfl
    rw [powerFrom_eq (Nat.pos_of_ne_zero some) (by simp [one]), one, one_mul]

end Machine

/-- The exact power, if the exponent can be used, which does not depend on the base. -/
theorem Integer.pow?_eq (x y : Int64) :
    pow? x y = if y.toInt < 2 ^ 32 then fit (x.toInt ^ y.toInt.toNat) else none := by
  have limit : y.toInt ≤ maxExponent ↔ y.toInt < 2 ^ 32 := by
    unfold maxExponent UInt32.size
    omega
  simp only [pow?, limit, powNat?_eq]

namespace Eval

theorem decides_pow {x y : Int64} (natural : 0 ≤ y) (usable : y.toInt < 2 ^ 32) :
    Decides (binary (.arith .pow) (.int x) (.int y)) False (x.toInt ^ y.toInt.toNat) := by
  apply decides_checked not_false
  rw [onIntegers, if_pos natural, Integer.pow?_eq, if_pos usable]

theorem binary_pow_of_le {x y : Int64} (natural : 0 ≤ y) (unusable : 2 ^ 32 ≤ y.toInt) :
    binary (.arith .pow) (.int x) (.int y) = .error .overflow := by
  rw [binary, arith_of_numbers rfl rfl, arithmetic, onIntegers, if_pos natural, Integer.pow?_eq,
    if_neg (Int.not_lt.mpr unusable), checked]

end Eval

/-- **Powers overflow if they do not fit, with one exception.** A power with an exponent that is not
negative overflows if it does not fit into a word and is exact otherwise, as long as the exponent is
below `2 ^ 32` or the base is not `0`, `1` or `-1`. From that exponent on the powers of these three,
which all fit, are refused too. Repeated squaring on words, given up at the first step that does
not fit, is no further exception: it has a result exactly if the power fits. -/
theorem powers_exact (x y : Int64) (natural : 0 ≤ y) :
    (¬ Integer.InRange (x.toInt ^ y.toInt.toNat) →
        Eval.binary (.arith .pow) (.int x) (.int y) = .error .overflow) ∧
      (Integer.InRange (x.toInt ^ y.toInt.toNat) → y.toInt < 2 ^ 32 ∨ 1 < |x.toInt| →
        ∃ n : Int64, n.toInt = x.toInt ^ y.toInt.toNat ∧
          Eval.binary (.arith .pow) (.int x) (.int y) = .ok (.int n)) ∧
      (2 ^ 32 ≤ y.toInt → |x.toInt| ≤ 1 → Integer.InRange (x.toInt ^ y.toInt.toNat) ∧
        Eval.binary (.arith .pow) (.int x) (.int y) = .error .overflow) ∧
      Machine.power x y.toInt.toNat = Integer.fit (x.toInt ^ y.toInt.toNat) := by
  have squared : Machine.power x y.toInt.toNat = Integer.fit (x.toInt ^ y.toInt.toNat) := by
    rw [Machine.power_eq, Integer.powNat?_eq]
  by_cases usable : y.toInt < 2 ^ 32
  · have decides := Eval.decides_pow (x := x) natural usable
    refine ⟨fun outside => ?_, fun inside _ => ?_, fun unusable => by omega, squared⟩
    · exact decides.overflow.mpr ⟨not_false, outside⟩
    · exact decides.value not_false inside
  · have refused := Eval.binary_pow_of_le (x := x) natural (Int.not_lt.mp usable)
    refine ⟨fun _ => refused, fun inside other => ?_, fun _ small => ?_, squared⟩
    · have large := other.resolve_left usable
      exact absurd inside (Integer.not_inRange_pow large (by omega))
    · exact ⟨Integer.inRange_pow small _, refused⟩

/-- The least word is a power of `-2`, and zero has one with the exponent zero; the power of `2` of
the same size as the least word overflows. -/
theorem powers_exact_least_word :
    (∃ n : Int64, n.toInt = (-2) ^ 63 ∧
      Eval.binary (.arith .pow) (.int (-2)) (.int 63) = .ok (.int n)) ∧
    (∃ n : Int64, n.toInt = 0 ^ 0 ∧
      Eval.binary (.arith .pow) (.int 0) (.int 0) = .ok (.int n)) ∧
    Eval.binary (.arith .pow) (.int 2) (.int 63) = .error .overflow := by
  refine ⟨?_, ?_, ?_⟩
  · exact (powers_exact (-2) 63 (by decide)).2.1 (by decide) (.inl (by decide))
  · exact (powers_exact 0 0 (by decide)).2.1 (by decide) (.inl (by decide))
  · exact (powers_exact 2 63 (by decide)).1 (by decide)

/-- A power of `1` is refused for its exponent. -/
theorem power_of_one_refused :
    Integer.InRange ((1 : Int64).toInt ^ (4294967296 : Int64).toInt.toNat) ∧
      Eval.binary (.arith .pow) (.int 1) (.int 4294967296) = .error .overflow := by
  constructor
  · rw [show (1 : Int64).toInt = 1 from rfl, one_pow]
    decide
  · decide

end Linewise
