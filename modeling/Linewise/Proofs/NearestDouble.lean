import Linewise.Proofs.DoubleEncoding

/-! Rounding is correct. The bits that a shift leaves behind tell where the exact number lies
between two mantissas, so the rounded mantissa is the nearest one, ties to even. From this follow,
for results that are not subnormal, products, quotients and conversions of integers: whatever lies
in the rounding interval of a double is rounded to that double, and nothing is moved by more than
half a unit in the last place. -/
namespace Linewise.Double
open Float.Model Float.Model.UnpackedFloat

/-! ## Mantissas -/

/-- A number lies in the unit above a mantissa, in the half and at the point the two residual bits
tell. -/
def Describes (em : ExtendedMantissa) (t : ℚ) : Prop :=
  match em.roundBit, em.stickyBit with
  | false, false => t = em.mantissa
  | false, true => em.mantissa < t ∧ t < em.mantissa + 1 / 2
  | true, false => t = em.mantissa + 1 / 2
  | true, true => em.mantissa + 1 / 2 < t ∧ t < em.mantissa + 1

/-- A natural number nearest to a number. Half-way it is even. -/
def Nearest (t : ℚ) (n : Nat) : Prop :=
  (n : ℚ) - 1 / 2 ≤ t ∧ t ≤ n + 1 / 2 ∧
    (n % 2 = 1 → (n : ℚ) - 1 / 2 < t ∧ t < n + 1 / 2)

theorem Nearest.unique {t : ℚ} {n k : Nat} (first : Nearest t n) (second : Nearest t k) :
    n = k := by
  obtain ⟨low, high, strict⟩ := first
  obtain ⟨low', high', strict'⟩ := second
  have upper : (n : ℚ) ≤ k + 1 := by linarith
  have lower : (k : ℚ) ≤ n + 1 := by linarith
  norm_cast at upper lower
  rcases Nat.lt_trichotomy n k with below | same | above
  · obtain rfl : k = n + 1 := by omega
    push_cast at low' strict'
    rcases Nat.mod_two_eq_zero_or_one n with even | odd
    · linarith [(strict' (by omega)).1]
    · linarith [(strict odd).2]
  · exact same
  · obtain rfl : n = k + 1 := by omega
    push_cast at low strict
    rcases Nat.mod_two_eq_zero_or_one k with even | odd
    · linarith [(strict (by omega)).1]
    · linarith [(strict' odd).2]

section Describes

variable {em : ExtendedMantissa} {t : ℚ}

theorem Describes.le (described : Describes em t) : (em.mantissa : ℚ) ≤ t := by
  obtain ⟨m, round, sticky⟩ := em
  cases round <;> cases sticky <;> simp only [Describes] at described <;> linarith

theorem Describes.lt (described : Describes em t) : t < em.mantissa + 1 := by
  obtain ⟨m, round, sticky⟩ := em
  cases round <;> cases sticky <;> simp only [Describes] at described <;> linarith

/-- One step to the right halves the number. -/
theorem Describes.shiftRightOne (described : Describes em t) :
    Describes em.shiftRightOne (t / 2) := by
  obtain ⟨m, round, sticky⟩ := em
  have halves : (m : ℚ) = 2 * ((m / 2 : Nat) : ℚ) + ((m % 2 : Nat) : ℚ) := by
    exact_mod_cast (Nat.div_add_mod m 2).symm
  rcases Nat.mod_two_eq_zero_or_one m with even | odd
  · rw [even] at halves
    cases round <;> cases sticky <;>
      simp [Describes, ExtendedMantissa.shiftRightOne, even] at described halves ⊢ <;>
      grind
  · rw [odd] at halves
    cases round <;> cases sticky <;>
      simp [Describes, ExtendedMantissa.shiftRightOne, odd] at described halves ⊢ <;>
      grind

theorem Describes.shiftRight (described : Describes em t) (steps : Nat) :
    Describes (em >>> steps) (t / 2 ^ steps) := by
  change Describes (steps.repeat ExtendedMantissa.shiftRightOne em) _
  induction steps with
  | zero => simpa [Nat.repeat] using described
  | succ steps ih =>
    have next := ih.shiftRightOne
    rw [Nat.repeat, pow_succ, ← div_div]
    exact next

/-- The rounded mantissa is the nearest one. -/
theorem Describes.nearest (described : Describes em t) : Nearest t em.roundedMantissa := by
  obtain ⟨m, round, sticky⟩ := em
  cases round <;> cases sticky <;>
    simp only [Describes] at described <;>
    simp only [Nearest, ExtendedMantissa.roundedMantissa, ExtendedMantissa.accuracy,
      Accuracy.roundToNearestEven]
  · grind
  · grind
  · rcases Nat.mod_two_eq_zero_or_one m with even | odd
    · simp only [even]
      grind
    · simp only [odd]
      push_cast
      refine ⟨by linarith, by linarith, fun impossible => ?_⟩
      omega
  · push_cast
    grind

theorem describes_exact (m : Nat) :
    Describes (.ofMantissaAndAccuracy m .exact) m := by
  simp [Describes, ExtendedMantissa.ofMantissaAndAccuracy]

/-- The remainder of a division tells where the quotient lies. -/
theorem describes_quotient (n : Nat) {d : Nat} (positive : 0 < d) :
    Describes (.ofMantissaAndAccuracy (n / d) (accuracyOfFraction (n % d) d)) (n / d) := by
  have divisor : (0 : ℚ) < d := by exact_mod_cast positive
  have parts : (n : ℚ) = d * ((n / d : Nat) : ℚ) + ((n % d : Nat) : ℚ) := by
    exact_mod_cast (Nat.div_add_mod n d).symm
  have proper : ((n % d : Nat) : ℚ) < d := by exact_mod_cast Nat.mod_lt n positive
  have quotient : (n : ℚ) / d = ((n / d : Nat) : ℚ) + ((n % d : Nat) : ℚ) / d := by
    rw [parts]
    field_simp
  rw [quotient]
  unfold accuracyOfFraction
  split
  · rename_i zero
    simp [Describes, ExtendedMantissa.ofMantissaAndAccuracy, zero]
  · rename_i nonzero
    have above : 0 < ((n % d : Nat) : ℚ) / d :=
      div_pos (by exact_mod_cast Nat.pos_of_ne_zero nonzero) divisor
    rcases lt_trichotomy (2 * (n % d)) d with less | half | more
    · have first : ((n % d : Nat) : ℚ) / d < 1 / 2 := by
        have : 2 * ((n % d : Nat) : ℚ) < d := by exact_mod_cast less
        rw [div_lt_iff₀ divisor]
        linarith
      rw [compare_lt_iff_lt.mpr less]
      exact ⟨lt_add_of_pos_right _ above, add_lt_add_right first _⟩
    · have middle : ((n % d : Nat) : ℚ) / d = 1 / 2 := by
        have : 2 * ((n % d : Nat) : ℚ) = d := by exact_mod_cast half
        rw [div_eq_iff divisor.ne']
        linarith
      rw [compare_eq_iff_eq.mpr half, middle]
      rfl
    · have second : 1 / 2 < ((n % d : Nat) : ℚ) / d := by
        have : (d : ℚ) < 2 * ((n % d : Nat) : ℚ) := by exact_mod_cast more
        rw [lt_div_iff₀ divisor]
        linarith
      have last : ((n % d : Nat) : ℚ) / d < 1 := (div_lt_one divisor).mpr proper
      rw [compare_gt_iff_gt.mpr more]
      exact ⟨add_lt_add_right second _, add_lt_add_right last _⟩

end Describes

-- From here on the lemmas above are all that is used of it: unfolded, it asks for the value of the
-- comparison with a remainder.
attribute [irreducible] Describes

/-! ## Rounding -/

theorem describes_shiftToTargetExponent {m : Nat} {e : Int} {accuracy : Accuracy} {t : ℚ}
    (described : Describes (.ofMantissaAndAccuracy m accuracy) t) (wide : 52 ≤ m.log2)
    (least : -1074 ≤ m.log2 + e - 52) :
    Describes (shiftToTargetExponent Format.binary64 m e accuracy).1 (t / 2 ^ (m.log2 - 52)) := by
  have target : Format.binary64.targetExponent (totalExponent m e) =
      max (m.log2 + 1 + e - 53) (-1074) := rfl
  have steps : (max ((m.log2 : Int) + 1 + e - 53) (-1074) - e).toNat = m.log2 - 52 := by omega
  simp only [shiftToTargetExponent, shiftToExponent, target, steps]
  exact described.shiftRight _

/-- A number with 53 digits before the point is rounded to 53 digits, or up to the next power of
two. -/
theorem roundWithAccuracy_cases (s : Sign) {m : Nat} {e : Int} {accuracy : Accuracy} {t : ℚ}
    (described : Describes (.ofMantissaAndAccuracy m accuracy) t) (wide : 52 ≤ m.log2)
    (least : -1074 ≤ m.log2 + e - 52) :
    ∃ r, Nearest (t / 2 ^ (m.log2 - 52)) r ∧
      ((r.log2 = 52 ∧ ∃ positive, roundWithAccuracy Format.binary64 s m e accuracy =
          .finite s r (m.log2 + e - 52) positive) ∨
        (r = 2 ^ 53 ∧ ∃ positive, roundWithAccuracy Format.binary64 s m e accuracy =
          .finite s (2 ^ 52) (m.log2 + e - 51) positive)) := by
  obtain ⟨full, exponent⟩ := shift_normal wide least accuracy
  have shifted := describes_shiftToTargetExponent described wide least
  generalize first : shiftToTargetExponent Format.binary64 m e accuracy = pair at *
  obtain ⟨em, raised⟩ := pair
  simp only at full exponent shifted
  subst exponent
  have nonzero : em.mantissa ≠ 0 := by
    intro zero
    rw [zero] at full
    simp at full
  have range := (Nat.log2_eq_iff nonzero).mp full
  have low := le_roundedMantissa em
  have high := roundedMantissa_le em
  refine ⟨em.roundedMantissa, shifted.nearest, ?_⟩
  by_cases carried : em.roundedMantissa = 2 ^ 53
  · right
    obtain ⟨digits, last⟩ := shiftToTargetExponent_eq (2 ^ 53) (m.log2 + e - 52) .exact
    have steps : (max (((2 ^ 53 : Nat).log2 : Int) + 1 + (m.log2 + e - 52) - 53) (-1074) -
        (m.log2 + e - 52)).toNat = 1 := by
      rw [Nat.log2_two_pow]
      omega
    rw [steps] at digits last
    refine ⟨carried, by decide, ?_⟩
    simp only [roundWithAccuracy, first, carried, digits, last]
    rw [dif_neg (by decide)]
    congr 1
    omega
  · left
    have normal : em.roundedMantissa.log2 = 52 :=
      (Nat.log2_eq_iff (by omega)).mpr ⟨by omega, by omega⟩
    obtain ⟨digits, last⟩ :=
      shiftToTargetExponent_eq em.roundedMantissa (m.log2 + e - 52) .exact
    have steps : (max ((em.roundedMantissa.log2 : Int) + 1 + (m.log2 + e - 52) - 53) (-1074) -
        (m.log2 + e - 52)).toNat = 0 := by
      rw [normal]
      omega
    rw [steps, pow_zero, Nat.div_one] at digits
    rw [steps] at last
    refine ⟨normal, by omega, ?_⟩
    simp only [roundWithAccuracy, first, digits, last]
    rw [dif_neg (by omega)]
    congr 1
    omega

/-- How far the lower end of the rounding interval lies below `m`, in units of the last place. Below
a power of two the neighbour is only half as far away, unless it is subnormal. -/
def lowerGap (m : Nat) (e : Int) : ℚ :=
  if m = 2 ^ 52 ∧ -1074 < e then 1 / 4 else 1 / 2

/-- A number in the rounding interval of `m * 2 ^ e`, which holds its ends if `m` is even. -/
def Rounds (m : Nat) (e : Int) (v : ℚ) : Prop :=
  (m - lowerGap m e) * 2 ^ e ≤ v ∧ v ≤ (m + 1 / 2) * 2 ^ e ∧
    (m % 2 = 1 → (m - lowerGap m e) * 2 ^ e < v ∧ v < (m + 1 / 2) * 2 ^ e)

theorem lowerGap_le (m : Nat) (e : Int) : lowerGap m e ≤ 1 / 2 := by
  unfold lowerGap
  split <;> norm_num

theorem lowerGap_pos (m : Nat) (e : Int) : 0 < lowerGap m e := by
  unfold lowerGap
  split <;> norm_num

theorem two_zpow_pos (e : Int) : (0 : ℚ) < 2 ^ e :=
  zpow_pos (by norm_num) e

theorem rounds_self (m : Nat) (e : Int) : Rounds m e (m * 2 ^ e) := by
  have unit := two_zpow_pos e
  have gap := lowerGap_pos m e
  have below : (m - lowerGap m e) * 2 ^ e < (m : ℚ) * 2 ^ e :=
    mul_lt_mul_of_pos_right (by linarith) unit
  have above : (m : ℚ) * 2 ^ e < (m + 1 / 2) * 2 ^ e :=
    mul_lt_mul_of_pos_right (by linarith) unit
  exact ⟨below.le, above.le, fun _ => ⟨below, above⟩⟩

/-- What a mantissa describes has its first digit at the same place. -/
theorem Describes.binade {m : Nat} {accuracy : Accuracy} {t : ℚ} (nonzero : m ≠ 0)
    (described : Describes (.ofMantissaAndAccuracy m accuracy) t) :
    2 ^ m.log2 ≤ t ∧ t < 2 ^ (m.log2 + 1) := by
  have start : (ExtendedMantissa.ofMantissaAndAccuracy m accuracy).mantissa = m := by
    cases accuracy with
    | exact => rfl
    | inexact order => cases order <;> rfl
  have low := described.le
  have high := described.lt
  rw [start] at low high
  have first : (2 : ℚ) ^ m.log2 ≤ m := by exact_mod_cast Nat.log2_self_le nonzero
  have last : (m : ℚ) + 1 ≤ 2 ^ (m.log2 + 1) := by
    exact_mod_cast Nat.succ_le_of_lt (@Nat.lt_log2_self m)
  exact ⟨first.trans low, high.trans_le last⟩

/-- In units of the last of 53 digits. -/
theorem Describes.normalized {m : Nat} {accuracy : Accuracy} {t : ℚ} (wide : 52 ≤ m.log2)
    (described : Describes (.ofMantissaAndAccuracy m accuracy) t) :
    2 ^ 52 ≤ t / 2 ^ (m.log2 - 52) ∧ t / 2 ^ (m.log2 - 52) < 2 ^ 53 ∧
      ∀ e : Int, t * 2 ^ e = t / 2 ^ (m.log2 - 52) * 2 ^ (m.log2 + e - 52) := by
  have nonzero : m ≠ 0 := by
    rintro rfl
    simp at wide
  obtain ⟨low, high⟩ := described.binade nonzero
  have unit : (0 : ℚ) < 2 ^ (m.log2 - 52) := by positivity
  refine ⟨?_, ?_, ?_⟩
  · rw [le_div_iff₀ unit, ← pow_add, Nat.add_sub_cancel' wide]
    exact low
  · rw [div_lt_iff₀ unit, ← pow_add, show 53 + (m.log2 - 52) = m.log2 + 1 by omega]
    exact high
  · intro e
    have exponent : (m.log2 : Int) + e - 52 = ((m.log2 - 52 : Nat) : Int) + e := by omega
    rw [exponent, zpow_add₀ (by norm_num), zpow_natCast]
    field_simp

/-- The rounding interval of a normal double, seen from a number with its first digit at a given
place: the two have the same exponent, or the number lies just below a power of two. -/
theorem Rounds.nearest {n : Nat} {f g : Int} {w : ℚ} (normal : n.log2 = 52) (least : -1074 < f)
    (low : 2 ^ 52 ≤ w) (high : w < 2 ^ 53) (rounds : Rounds n f (w * 2 ^ g)) :
    (g = f ∧ Nearest w n) ∨ (g = f - 1 ∧ n = 2 ^ 52 ∧ Nearest w (2 ^ 53)) := by
  have nonzero : n ≠ 0 := by
    rintro rfl
    simp at normal
  have range := (Nat.log2_eq_iff nonzero).mp normal
  have first : (2 : ℚ) ^ 52 ≤ n := by exact_mod_cast range.1
  have last : (n : ℚ) + 1 ≤ 2 ^ 53 := by exact_mod_cast Nat.succ_le_of_lt range.2
  have unit := two_zpow_pos f
  have gap := lowerGap_le n f
  obtain ⟨lower, upper, strict⟩ := rounds
  rcases lt_trichotomy g f with below | same | above
  · right
    have place : g = f - 1 := by
      by_contra other
      have small : (2 : ℚ) ^ g ≤ 2 ^ (f - 2) := zpow_le_zpow_right₀ (by norm_num) (by omega)
      have quarter : (2 : ℚ) ^ (f - 2) = 2 ^ f / 4 := by
        rw [zpow_sub₀ (by norm_num)]
        norm_num
      nlinarith
    have half : (2 : ℚ) ^ g = 2 ^ f / 2 := by
      rw [place, zpow_sub_one₀ (by norm_num)]
      ring
    rw [half, mul_div_assoc', mul_comm w, mul_div_assoc, mul_comm (2 ^ f)] at lower
    have near := le_of_mul_le_mul_right lower unit
    have power : n = 2 ^ 52 := by
      by_contra other
      have larger : (2 : ℚ) ^ 52 + 1 ≤ n := by exact_mod_cast (show 2 ^ 52 + 1 ≤ n by omega)
      linarith
    subst power
    rw [lowerGap, if_pos ⟨rfl, least⟩] at near
    refine ⟨place, rfl, ?_, ?_, fun odd => absurd odd (by decide)⟩
    · push_cast at near ⊢
      linarith
    · push_cast
      linarith
  · left
    subst same
    refine ⟨rfl, ?_, ?_, ?_⟩
    · have := le_of_mul_le_mul_right lower unit
      linarith
    · exact le_of_mul_le_mul_right upper unit
    · intro odd
      obtain ⟨lower, upper⟩ := strict odd
      have := lt_of_mul_lt_mul_right lower unit.le
      exact ⟨by linarith, lt_of_mul_lt_mul_right upper unit.le⟩
  · have large : (2 : ℚ) ^ (f + 1) ≤ 2 ^ g := zpow_le_zpow_right₀ (by norm_num) (by omega)
    rw [zpow_add_one₀ (by norm_num)] at large
    nlinarith

/-- A number in the rounding interval of a normal double is rounded to that double. -/
theorem roundWithAccuracy_of_rounds (s : Sign) {m : Nat} {e : Int} {accuracy : Accuracy} {t : ℚ}
    (described : Describes (.ofMantissaAndAccuracy m accuracy) t) (wide : 52 ≤ m.log2)
    {n : Nat} {f : Int} (normal : n.log2 = 52) (least : -1074 < f)
    (rounds : Rounds n f (t * 2 ^ e)) :
    ∃ positive, roundWithAccuracy Format.binary64 s m e accuracy = .finite s n f positive := by
  obtain ⟨low, high, scaled⟩ := described.normalized wide
  rw [scaled] at rounds
  have places := rounds.nearest normal least low high
  obtain ⟨r, nearest, rounded⟩ := roundWithAccuracy_cases s described wide (e := e) (by omega)
  rcases places with ⟨same, other⟩ | ⟨below, rfl, other⟩
  · obtain rfl := nearest.unique other
    rcases rounded with ⟨-, finite⟩ | ⟨rfl, -⟩
    · rwa [same] at finite
    · rw [Nat.log2_two_pow] at normal
      cases normal
  · obtain rfl := nearest.unique other
    rcases rounded with ⟨fewer, -⟩ | ⟨-, finite⟩
    · rw [Nat.log2_two_pow] at fewer
      cases fewer
    · rwa [show (m.log2 : Int) + e - 51 = f by omega] at finite

/-- The first number that is too large to be rounded to a finite double. -/
def overflowBound : Nat := (2 ^ 54 - 1) * 2 ^ 970

theorem cast_overflowBound : (overflowBound : ℚ) = (2 ^ 54 - 1) * 2 ^ (970 : Int) := by
  unfold overflowBound
  rw [Nat.cast_mul, Nat.cast_pow, Nat.cast_ofNat, zpow_ofNat]
  congr 1
  norm_num

/-- What is rounded to a finite double is small enough. -/
theorem Rounds.lt_overflowBound {m : Nat} {e : Int} {v : ℚ} (canonical : Canonical m e)
    (rounds : Rounds m e v) : v < overflowBound := by
  obtain ⟨-, upper, strict⟩ := rounds
  have narrow := canonical.lt_two_pow
  have middle : (0 : ℚ) ≤ m + 1 / 2 := by positivity
  have top : (2 : ℚ) ^ e ≤ 2 ^ (971 : Int) := zpow_le_zpow_right₀ (by norm_num) canonical.most
  have half : (2 : ℚ) ^ (971 : Int) = 2 * 2 ^ (970 : Int) := by
    rw [show (971 : Int) = 970 + 1 by rfl, zpow_add_one₀ (by norm_num), mul_comm]
  have most := mul_le_mul_of_nonneg_left (top.trans_eq half) middle
  have unit := two_zpow_pos 970
  rw [cast_overflowBound]
  generalize (2 : ℚ) ^ (970 : Int) = p at *
  by_cases largest : m = 2 ^ 53 - 1
  · subst largest
    refine (strict (by decide)).2.trans_le (most.trans (le_of_eq ?_))
    push_cast
    ring
  · have below : (m : ℚ) + 2 ≤ 2 ^ 53 := by exact_mod_cast (show m + 2 ≤ 2 ^ 53 by omega)
    refine upper.trans_lt (most.trans_lt ?_)
    rw [← mul_assoc]
    exact mul_lt_mul_of_pos_right (by linarith) unit

/-- What is rounded to a double other than zero is not too small. -/
theorem Rounds.least {m : Nat} {e : Int} {v : ℚ} (canonical : Canonical m e)
    (rounds : Rounds m e v) : 2 ^ (-1075 : Int) ≤ v := by
  obtain ⟨lower, -⟩ := rounds
  have unit := two_zpow_pos e
  have gap := lowerGap_le m e
  have first : (1 : ℚ) ≤ m := by exact_mod_cast canonical.positive
  have last : (2 : ℚ) ^ (-1074 : Int) ≤ 2 ^ e := zpow_le_zpow_right₀ (by norm_num) canonical.least
  have half : (2 : ℚ) ^ (-1075 : Int) = 1 / 2 * 2 ^ (-1074 : Int) := by
    rw [show (-1075 : Int) = -1074 - 1 by rfl, zpow_sub_one₀ (by norm_num), mul_comm]
    norm_num
  have scaled : 1 / 2 * (2 : ℚ) ^ e ≤ (m - lowerGap m e) * 2 ^ e :=
    mul_le_mul_of_nonneg_right (by linarith) unit.le
  rw [half]
  linarith

/-- Rounding moves a number by at most half a unit of the last of its 53 digits, and to a finite
double if the number is small enough. -/
theorem roundWithAccuracy_le (s : Sign) {m : Nat} {e : Int} {accuracy : Accuracy} {t : ℚ}
    (described : Describes (.ofMantissaAndAccuracy m accuracy) t) (wide : 52 ≤ m.log2)
    (least : -1074 ≤ m.log2 + e - 52) :
    ∃ n f positive, roundWithAccuracy Format.binary64 s m e accuracy = .finite s n f positive ∧
      n.log2 = 52 ∧ m.log2 + e - 52 ≤ f ∧
      (n : ℚ) * 2 ^ f ≤ t * 2 ^ e + 2 ^ ((m.log2 : Int) + e - 53) ∧
      (t * 2 ^ e < overflowBound → f ≤ maxExponent) := by
  obtain ⟨low, high, scaled⟩ := described.normalized wide
  obtain ⟨r, ⟨near, -⟩, rounded⟩ := roundWithAccuracy_cases s described wide least
  have unit := two_zpow_pos (m.log2 + e - 52)
  have half : (2 : ℚ) ^ ((m.log2 : Int) + e - 53) = 1 / 2 * 2 ^ ((m.log2 : Int) + e - 52) := by
    rw [show (m.log2 : Int) + e - 53 = m.log2 + e - 52 - 1 by omega, zpow_sub_one₀ (by norm_num)]
    ring
  have moved : (r : ℚ) * 2 ^ ((m.log2 : Int) + e - 52) ≤
      t * 2 ^ e + 2 ^ ((m.log2 : Int) + e - 53) := by
    rw [scaled, half, ← add_mul]
    exact mul_le_mul_of_nonneg_right (by linarith) unit.le
  have power : (2 : ℚ) ^ (1024 : Int) = 2 ^ 54 * 2 ^ (970 : Int) := by
    rw [show (1024 : Int) = (54 : Nat) + 970 by rfl, zpow_add₀ (by norm_num), zpow_natCast]
  have top := two_zpow_pos 970
  rw [cast_overflowBound]
  have place (small : t * 2 ^ e < (2 ^ 54 - 1) * 2 ^ (970 : Int)) : (m.log2 : Int) + e ≤ 1023 := by
    by_contra large
    have above : (2 : ℚ) ^ (1024 : Int) ≤ 2 ^ ((52 : Nat) + ((m.log2 : Int) + e - 52)) :=
      zpow_le_zpow_right₀ (by norm_num) (by omega)
    rw [power, zpow_add₀ (by norm_num), zpow_natCast] at above
    have start := mul_le_mul_of_nonneg_right low unit.le
    rw [← scaled] at start
    generalize (2 : ℚ) ^ (970 : Int) = p at *
    linarith
  rcases rounded with ⟨normal, positive, finite⟩ | ⟨rfl, positive, finite⟩
  · refine ⟨r, _, positive, finite, normal, le_rfl, moved, fun small => ?_⟩
    have := place small
    unfold maxExponent
    omega
  · have doubled : ((2 ^ 52 : Nat) : ℚ) * 2 ^ ((m.log2 : Int) + e - 51) =
        ((2 ^ 53 : Nat) : ℚ) * 2 ^ ((m.log2 : Int) + e - 52) := by
      rw [show (m.log2 : Int) + e - 51 = m.log2 + e - 52 + 1 by omega, zpow_add_one₀ (by norm_num)]
      push_cast
      ring
    refine ⟨_, _, positive, finite, Nat.log2_two_pow, by omega, doubled.trans_le moved,
      fun small => ?_⟩
    have below := place small
    by_contra large
    unfold maxExponent at large
    have carried := doubled.trans_le moved
    rw [show (m.log2 : Int) + e - 51 = (2 : Nat) + 970 by omega,
      show (m.log2 : Int) + e - 53 = 970 by omega, zpow_add₀ (by norm_num), zpow_natCast] at carried
    generalize (2 : ℚ) ^ (970 : Int) = p at *
    push_cast at carried
    linarith

/-! ## Operations -/

/-- A double that is the positive normal number `m * 2 ^ e`. -/
structure IsNormal (x : Float) (m : Nat) (e : Int) : Prop where
  normal : m.log2 = 52
  least : -1074 ≤ e
  unpacked : ∃ positive, x.toModel.unpack = .finite .positive m e positive

theorem isNormal_pack {m : Nat} {e : Int} (positive : 0 < m) (normal : m.log2 = 52)
    (least : -1074 ≤ e) (most : e ≤ maxExponent) :
    IsNormal (Float.ofModel (Float.Model.pack (.finite .positive m e positive))) m e where
  normal := normal
  least := least
  unpacked := ⟨positive, unpack_pack ⟨positive, most, .inl ⟨normal, least⟩⟩⟩

namespace IsNormal

variable {x y : Float} {m n k : Nat} {e f g : Int}

theorem isInf (number : IsNormal x m e) : x.isInf = false := by
  obtain ⟨positive, unpacked⟩ := number.unpacked
  change x.toModel.unpack.isInf = false
  rw [unpacked]
  rfl

theorem log2_mul (left : m.log2 = 52) (right : n.log2 = 52) : 104 ≤ (m * n).log2 := by
  have first : m ≠ 0 := by rintro rfl; simp at left
  have second : n ≠ 0 := by rintro rfl; simp at right
  rw [Nat.le_log2 (Nat.mul_ne_zero first second)]
  calc 2 ^ 104 = 2 ^ 52 * 2 ^ 52 := by norm_num
    _ ≤ m * n := Nat.mul_le_mul ((Nat.le_log2 first).mp left.ge) ((Nat.le_log2 second).mp right.ge)

theorem cast_mul (m n : Nat) (e f : Int) :
    ((m * n : Nat) : ℚ) * 2 ^ (e + f) = m * 2 ^ e * (n * 2 ^ f) := by
  rw [zpow_add₀ (by norm_num)]
  push_cast
  ring

/-- A product in the rounding interval of a normal double is that double. -/
theorem mul_of_rounds (left : IsNormal x m e) (right : IsNormal y n f) (normal : k.log2 = 52)
    (least : -1074 < g) (most : g ≤ maxExponent)
    (rounds : Rounds k g (m * 2 ^ e * (n * 2 ^ f))) : IsNormal (x * y) k g := by
  obtain ⟨first, unpacked⟩ := left.unpacked
  obtain ⟨second, unpacked'⟩ := right.unpacked
  have wide := log2_mul left.normal right.normal
  rw [← cast_mul] at rounds
  obtain ⟨positive, rounded⟩ :=
    roundWithAccuracy_of_rounds (.positive * .positive) (describes_exact (m * n)) (by omega) normal
      least rounds
  have product : x * y = Float.ofModel (Float.Model.pack (.finite .positive k g positive)) := by
    change Float.ofModel (Float.Model.pack (UnpackedFloat.mul _ _ _)) = _
    rw [unpacked, unpacked', UnpackedFloat.mul, rounded]
    rfl
  rw [product]
  exact isNormal_pack positive normal least.le most

/-- A product that is not too large is a normal double. -/
theorem mul_of_lt (left : IsNormal x m e) (right : IsNormal y n f) (least : -1126 ≤ e + f)
    (small : (m : ℚ) * 2 ^ e * (n * 2 ^ f) < overflowBound) : ∃ k g, IsNormal (x * y) k g := by
  obtain ⟨first, unpacked⟩ := left.unpacked
  obtain ⟨second, unpacked'⟩ := right.unpacked
  have wide := log2_mul left.normal right.normal
  rw [← cast_mul] at small
  obtain ⟨k, g, positive, rounded, normal, low, -, most⟩ :=
    roundWithAccuracy_le (.positive * .positive) (describes_exact (m * n)) (by omega)
      (show -1074 ≤ ((m * n).log2 : Int) + (e + f) - 52 by omega)
  have product : x * y = Float.ofModel (Float.Model.pack (.finite .positive k g positive)) := by
    change Float.ofModel (Float.Model.pack (UnpackedFloat.mul _ _ _)) = _
    rw [unpacked, unpacked', UnpackedFloat.mul, rounded]
    rfl
  rw [product]
  exact ⟨k, g, isNormal_pack positive normal (by omega) (most small)⟩

/-- The quotient of normal numbers is computed to 53 or 54 digits. -/
theorem divCore_eq (left : m.log2 = 52) (right : n.log2 = 52) (place : -1021 ≤ e - f) :
    divCore Format.binary64 m e n f =
      (m <<< 53 / n, e - f - 53, accuracyOfFraction (m <<< 53 % n) n) := by
  have target : Format.binary64.targetExponent (totalExponent m e - totalExponent n f) =
      max (m.log2 + 1 + e - (n.log2 + 1 + f) - 53) (-1074) := rfl
  have exponent : min (e - f) (max (m.log2 + 1 + e - (n.log2 + 1 + f) - 53) (-1074)) =
      e - f - 53 := by
    rw [left, right]
    omega
  have shift : (e - f - (e - f - 53)).toNat = 53 := by omega
  unfold divCore
  rw [target, exponent]
  simp only [shift]

theorem log2_quotient (left : m.log2 = 52) (right : n.log2 = 52) : 52 ≤ (m <<< 53 / n).log2 := by
  have first : m ≠ 0 := by rintro rfl; simp at left
  have second : n ≠ 0 := by rintro rfl; simp at right
  have low := (Nat.le_log2 first).mp left.ge
  have high := ((Nat.log2_eq_iff second).mp right).2
  have large : 2 ^ 52 ≤ m <<< 53 / n := by
    rw [Nat.le_div_iff_mul_le (Nat.pos_of_ne_zero second), Nat.shiftLeft_eq]
    exact Nat.mul_le_mul low high.le
  exact (Nat.le_log2 (by omega)).mpr large

theorem cast_div (m n : Nat) (e f : Int) :
    ((m <<< 53 : Nat) : ℚ) / n * 2 ^ (e - f - 53) = m * 2 ^ e / (n * 2 ^ f) := by
  rw [Nat.shiftLeft_eq, show e - f - 53 = e - f - (53 : Nat) by rfl, zpow_sub₀ (by norm_num),
    zpow_sub₀ (by norm_num), zpow_natCast]
  push_cast
  field_simp
  norm_num

/-- A quotient in the rounding interval of a normal double is that double. -/
theorem div_of_rounds (left : IsNormal x m e) (right : IsNormal y n f) (normal : k.log2 = 52)
    (least : -1074 < g) (most : g ≤ maxExponent) (place : -1021 ≤ e - f)
    (rounds : Rounds k g (m * 2 ^ e / (n * 2 ^ f))) : IsNormal (x / y) k g := by
  obtain ⟨first, unpacked⟩ := left.unpacked
  obtain ⟨second, unpacked'⟩ := right.unpacked
  rw [← cast_div] at rounds
  obtain ⟨positive, rounded⟩ :=
    roundWithAccuracy_of_rounds (.positive / .positive) (describes_quotient (m <<< 53) second)
      (log2_quotient left.normal right.normal) normal least rounds
  have quotient : x / y = Float.ofModel (Float.Model.pack (.finite .positive k g positive)) := by
    change Float.ofModel (Float.Model.pack (UnpackedFloat.div _ _ _)) = _
    rw [unpacked, unpacked', UnpackedFloat.div, divCore_eq left.normal right.normal place]
    simp only [rounded]
    rfl
  rw [quotient]
  exact isNormal_pack positive normal least.le most

end IsNormal

theorem log2_shiftLeft {n : Nat} (nonzero : n ≠ 0) (steps : Nat) :
    (n <<< steps).log2 = n.log2 + steps := by
  obtain ⟨low, high⟩ := (Nat.log2_eq_iff nonzero).mp rfl
  have unit := Nat.two_pow_pos steps
  have shifted : n <<< steps = n * 2 ^ steps := Nat.shiftLeft_eq n steps
  refine (Nat.log2_eq_iff ?_).mpr ⟨?_, ?_⟩
  · rw [shifted]
    exact Nat.mul_ne_zero nonzero unit.ne'
  · rw [shifted, pow_add]
    exact Nat.mul_le_mul_right _ low
  · rw [shifted, show n.log2 + steps + 1 = n.log2 + 1 + steps by omega, pow_add]
    exact Nat.mul_lt_mul_of_pos_right high unit

/-- An integer is shifted to at least 53 digits before it is rounded. -/
theorem ofInt_eq {n : Nat} (positive : 0 < n) :
    ∃ (m : Nat) (e : Int), (∀ s : Sign, ofInt (s.apply n) = Float.ofModel (Float.Model.pack
        (roundWithAccuracy Format.binary64 s m e .exact))) ∧
      52 ≤ m.log2 ∧ m.log2 + e = n.log2 ∧ (m : ℚ) * 2 ^ e = n := by
  have target : Format.binary64.targetExponent (totalExponent n 0) =
      max ((n.log2 : Int) + 1 + 0 - 53) (-1074) := rfl
  have steps : (0 - max ((n.log2 : Int) + 1 + 0 - 53) (-1074)).toNat = 52 - n.log2 := by omega
  refine ⟨n <<< (52 - n.log2), 0 - (52 - n.log2 : Nat), fun s => ?_, ?_⟩
  · change Float.ofModel (Float.Model.pack
      (UnpackedFloat.normalize Format.binary64 (s.apply n) 0 .positive)) = _
    cases s with
    | positive =>
      have above : compare (Sign.positive.apply n) 0 = .gt :=
        Int.compare_eq_gt.mpr (Int.natCast_pos.mpr positive)
      rw [UnpackedFloat.normalize, above]
      simp only [Sign.apply, UnpackedFloat.round, decreaseExponent, Int.toNat_natCast, target,
        steps]
    | negative =>
      have below : compare (Sign.negative.apply n) 0 = .lt :=
        Int.compare_eq_lt.mpr (Int.neg_neg_of_pos (Int.natCast_pos.mpr positive))
      rw [UnpackedFloat.normalize, below]
      simp only [Sign.apply, UnpackedFloat.round, decreaseExponent, Int.neg_neg,
        Int.toNat_natCast, target, steps]
  · have places := log2_shiftLeft (Nat.ne_of_gt positive) (52 - n.log2)
    refine ⟨by omega, by omega, ?_⟩
    rw [Nat.shiftLeft_eq, zpow_sub₀ (by norm_num), zpow_natCast, zpow_zero]
    push_cast
    field_simp

theorem toFloat_toUInt64 {n : Nat} (narrow : n < 2 ^ 64) : n.toUInt64.toFloat = ofInt n := by
  have word : n.toUInt64.toNat = n := Nat.mod_eq_of_lt narrow
  change ofInt n.toUInt64.toNat = _
  rw [word]

theorem toFloat_eq {n : Nat} (positive : 0 < n) (narrow : n < 2 ^ 64) :
    ∃ (m : Nat) (e : Int), n.toUInt64.toFloat = Float.ofModel (Float.Model.pack
        (roundWithAccuracy Format.binary64 .positive m e .exact)) ∧
      52 ≤ m.log2 ∧ m.log2 + e = n.log2 ∧ (m : ℚ) * 2 ^ e = n := by
  obtain ⟨m, e, double, wide, place, value⟩ := ofInt_eq positive
  exact ⟨m, e, (toFloat_toUInt64 narrow).trans (double .positive), wide, place, value⟩

/-- The double of an integer is off by at most half a unit of its last digit. -/
theorem isNormal_toFloat {n : Nat} (positive : 0 < n) (narrow : n < 2 ^ 64) :
    ∃ k g, IsNormal n.toUInt64.toFloat k g ∧ -52 ≤ g ∧
      (k : ℚ) * 2 ^ g ≤ n + 2 ^ ((n.log2 : Int) - 53) := by
  obtain ⟨m, e, double, wide, place, value⟩ := toFloat_eq positive narrow
  obtain ⟨k, g, above, rounded, normal, low, near, most⟩ :=
    roundWithAccuracy_le .positive (describes_exact m) wide (show -1074 ≤ m.log2 + e - 52 by omega)
  have small : (n : ℚ) < overflowBound := by
    have bound : 2 ^ 64 ≤ overflowBound := by decide +kernel
    exact_mod_cast narrow.trans_le bound
  rw [value, place] at near
  rw [value] at most
  rw [double, rounded]
  exact ⟨k, g, isNormal_pack above normal (by omega) (most small), by omega, near⟩

/-- An integer that is a normal double becomes that double. -/
theorem isNormal_toFloat_of_eq {n k : Nat} {g : Int} (positive : 0 < n) (narrow : n < 2 ^ 64)
    (normal : k.log2 = 52) (least : -52 ≤ g) (most : g ≤ maxExponent)
    (same : (k : ℚ) * 2 ^ g = n) : IsNormal n.toUInt64.toFloat k g := by
  obtain ⟨m, e, double, wide, place, value⟩ := toFloat_eq positive narrow
  obtain ⟨above, rounded⟩ := roundWithAccuracy_of_rounds .positive (describes_exact m) wide normal
    (show -1074 < g by omega) (by rw [value, ← same]; exact rounds_self k g)
  rw [double, rounded]
  exact isNormal_pack above normal (by omega) most

/-- An integer of at most 53 digits is a double. -/
theorem isNormal_toFloat_exact {n : Nat} (positive : 0 < n) (narrow : n ≤ 2 ^ 53) :
    ∃ k g, IsNormal n.toUInt64.toFloat k g ∧ -52 ≤ g ∧ (k : ℚ) * 2 ^ g = n := by
  rcases Nat.lt_or_eq_of_le narrow with below | rfl
  · have nonzero := Nat.ne_of_gt positive
    have digits := (Nat.log2_lt nonzero).mpr below
    have normal : (n <<< (52 - n.log2)).log2 = 52 := by
      rw [log2_shiftLeft nonzero]
      omega
    have same : ((n <<< (52 - n.log2) : Nat) : ℚ) * 2 ^ (-(52 - n.log2 : Nat) : Int) = n := by
      rw [Nat.shiftLeft_eq, zpow_neg, zpow_natCast]
      push_cast
      field_simp
    exact ⟨_, _, isNormal_toFloat_of_eq positive (by omega) normal (by omega)
      (by unfold maxExponent; omega) same, by omega, same⟩
  · have same : ((2 ^ 52 : Nat) : ℚ) * 2 ^ (1 : Int) = (2 ^ 53 : Nat) := by norm_num
    exact ⟨_, _, isNormal_toFloat_of_eq positive (by decide) Nat.log2_two_pow (by decide)
      (by decide) same, by decide, same⟩

end Linewise.Double
