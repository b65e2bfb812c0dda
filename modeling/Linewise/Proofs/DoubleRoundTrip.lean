import Linewise.Proofs.DoubleLiterals

/-! Doubles in documents. The digits of a double are read as an integer, made a double, and scaled
by a power of ten that is a double itself, so up to three roundings stand between a double and what
is read for it. Every finite double is read as a finite double; it is the same one if its digits and
the power of ten are exact, and may be another one otherwise. -/
namespace Linewise.Document
open Float.Model Float.Model.UnpackedFloat

/-! ## Powers of ten -/

/-- The value of a positive normal double that is not below one, in units of `2 ^ -52`. -/
def units? (x : Float) : Option Nat :=
  match x.toModel.unpack with
  | .finite .positive m e _ =>
    if m.log2 = 52 ∧ -52 ≤ e then some (m * 2 ^ (e + 52).toNat) else none
  | _ => none

theorem isNormal_of_units? {x : Float} {n : Nat} (found : units? x = some n) :
    ∃ m e, Double.IsNormal x m e ∧ -52 ≤ e ∧ (m : ℚ) * 2 ^ e = n / 2 ^ 52 := by
  unfold units? at found
  split at found
  · rename_i m e positive unpacked
    split at found
    · rename_i normal
      obtain rfl := Option.some.inj found
      refine ⟨m, e, ⟨normal.1, by omega, positive, unpacked⟩, normal.2, ?_⟩
      obtain ⟨k, rfl⟩ : ∃ k : Nat, e = k - (52 : Nat) := ⟨(e + 52).toNat, by omega⟩
      rw [zpow_sub₀ (by norm_num), zpow_natCast, zpow_natCast, mul_div_assoc']
      simp
    · cases found
  · cases found

/-- The first powers of ten are doubles. -/
theorem isNormal_powerOfTen_exact {n : Nat} (few : n ≤ 22) :
    ∃ m e, Double.IsNormal (powerOfTen n) m e ∧ -52 ≤ e ∧ (m : ℚ) * 2 ^ e = 10 ^ n := by
  have table : ∀ n ≤ 22, units? (powerOfTen n) = some (10 ^ n * 2 ^ 52) := by decide +kernel
  obtain ⟨m, e, normal, least, value⟩ := isNormal_of_units? (table n few)
  refine ⟨m, e, normal, least, value.trans ?_⟩
  push_cast
  exact mul_div_cancel_right₀ _ (by norm_num)

/-- Every other power of ten is rounded once. -/
theorem isNormal_powerOfTen {n : Nat} (small : n ≤ maxPower) :
    ∃ m e, Double.IsNormal (powerOfTen n) m e ∧ -52 ≤ e ∧
      (m : ℚ) * 2 ^ e ≤ 10 ^ n * (1 + 1 / 2 ^ 53) := by
  by_cases few : n ≤ 22
  · obtain ⟨m, e, normal, least, value⟩ := isNormal_powerOfTen_exact few
    refine ⟨m, e, normal, least, value.trans_le ?_⟩
    exact le_mul_of_one_le_right (by positivity) (by norm_num)
  · have places : n ≤ 3 * 103 := by
      unfold maxPower at small
      omega
    obtain ⟨low, high⟩ := scaled_power_bounds (by omega) places
    have nonzero : 1 <<< 53 * 10 ^ n ≠ 0 := by
      intro zero
      rw [zero] at low
      simp at low
    have value : ((1 <<< 53 * 10 ^ n : Nat) : ℚ) * 2 ^ (-53 : Int) = 10 ^ n := by
      rw [Nat.shiftLeft_eq, show (-53 : Int) = -(53 : Nat) by rfl, zpow_neg, zpow_natCast]
      push_cast
      field_simp
      norm_num
    obtain ⟨k, g, positive, rounded, normal, least, near, most⟩ :=
      Double.roundWithAccuracy_le .positive (Double.describes_exact (1 <<< 53 * 10 ^ n))
        (e := -53) (by omega) (by omega)
    have first : (2 : ℚ) ^ (1 <<< 53 * 10 ^ n).log2 ≤ (1 <<< 53 * 10 ^ n : Nat) := by
      exact_mod_cast Nat.log2_self_le nonzero
    rw [powerOfTen_eq (Nat.lt_of_not_le few) small, rounded]
    generalize 1 <<< 53 * 10 ^ n = scaled at *
    have half : (2 : ℚ) ^ ((scaled.log2 : Int) + -53 - 53) ≤ 10 ^ n * (1 / 2 ^ 53) := by
      rw [show (scaled.log2 : Int) + -53 - 53 = scaled.log2 + -53 + -53 by omega,
        zpow_add₀ (by norm_num), zpow_add₀ (by norm_num), zpow_natCast, ← value,
        show (1 / 2 ^ 53 : ℚ) = 2 ^ (-53 : Int) by norm_num]
      have unit := Double.two_zpow_pos (-53)
      exact mul_le_mul_of_nonneg_right (mul_le_mul_of_nonneg_right first unit.le) unit.le
    rw [value] at near most
    refine ⟨k, g, Double.isNormal_pack positive normal (by omega) (most ?_), by omega, ?_⟩
    · have top : 10 ^ maxPower < Double.overflowBound := by decide +kernel
      have below : 10 ^ n < Double.overflowBound :=
        (Nat.pow_le_pow_right (by decide) small).trans_lt top
      exact_mod_cast below
    · rw [mul_add, mul_one]
      exact near.trans (add_le_add_right half _)

/-! ## Sizes -/

/-- The largest significand of a number near the end of the range. With the scale 292 it is one
less: the last number there is so close to the end that its product with the power is too large. -/
def mostAt (scale : Nat) : Nat :=
  if scale = 292 then 17976931348623157 else (Double.overflowBound - 1) / 10 ^ scale

/-- Near the end of the range no product with a power of ten is too large. -/
theorem mostAt_mul_powerOfTen {n : Nat} (large : 292 ≤ n) (small : n ≤ maxPower) :
    ∃ m e, Double.IsNormal (powerOfTen n) m e ∧ -52 ≤ e ∧
      (mostAt n : ℚ) * (m * 2 ^ e) < Double.overflowBound := by
  have table : ∀ k ≤ 16, (units? (powerOfTen (292 + k))).any
      (fun u => mostAt (292 + k) * u < Double.overflowBound * 2 ^ 52) = true := by decide +kernel
  have entry := table (n - 292) (by unfold maxPower at small; omega)
  rw [Nat.add_sub_cancel' large, Option.any_eq_true] at entry
  obtain ⟨u, found, room⟩ := entry
  obtain ⟨m, e, normal, least, value⟩ := isNormal_of_units? found
  refine ⟨m, e, normal, least, ?_⟩
  rw [value, mul_div_assoc', div_lt_iff₀ (by norm_num)]
  exact_mod_cast of_decide_eq_true room

/-- Far from the end of the range no product with a power of ten is too large. -/
theorem mul_powerOfTen_lt {n : Nat} (small : n ≤ 291) :
    ∃ m e, Double.IsNormal (powerOfTen n) m e ∧ -52 ≤ e ∧
      ((10 ^ 17 + 8 : Nat) : ℚ) * (m * 2 ^ e) < Double.overflowBound := by
  have top : (10 ^ 17 + 8) * (10 ^ 291 * (2 ^ 53 + 1)) < Double.overflowBound * 2 ^ 53 := by
    decide +kernel
  have power : 10 ^ n ≤ 10 ^ 291 := pow_le_pow_right₀ (by decide) small
  have room : (10 ^ 17 + 8) * (10 ^ n * (2 ^ 53 + 1)) < Double.overflowBound * 2 ^ 53 :=
    (Nat.mul_le_mul_left _ (Nat.mul_le_mul_right _ power)).trans_lt top
  obtain ⟨m, e, normal, least, value⟩ :=
    isNormal_powerOfTen (n := n) (small.trans (by decide))
  refine ⟨m, e, normal, least, (mul_le_mul_of_nonneg_left value (Nat.cast_nonneg _)).trans_lt ?_⟩
  rw [show (1 + 1 / 2 ^ 53 : ℚ) = (2 ^ 53 + 1) / 2 ^ 53 by norm_num, mul_div_assoc', mul_div_assoc',
    div_lt_iff₀ (by norm_num)]
  exact_mod_cast room

/-- A double up to a bound times another that leaves room for the bound. -/
theorem isNormal_mul_of_le {x y : Float} {k m a : Nat} {g e : Int} (left : Double.IsNormal x k g)
    (leastLeft : -52 ≤ g) (bound : (k : ℚ) * 2 ^ g ≤ a) (right : Double.IsNormal y m e)
    (leastRight : -52 ≤ e) (room : (a : ℚ) * (m * 2 ^ e) < Double.overflowBound) :
    ∃ k g, Double.IsNormal (x * y) k g := by
  have unit := Double.two_zpow_pos e
  refine left.mul_of_lt right (by omega) (lt_of_le_of_lt ?_ room)
  exact mul_le_mul_of_nonneg_right bound (mul_nonneg (Nat.cast_nonneg m) unit.le)

/-- A significand becomes a double that is off by at most one unit for each further digit. -/
theorem isNormal_significand {s d : Nat} (some : 0 < s) (narrow : s < 2 ^ (54 + d)) (few : d ≤ 10) :
    ∃ k g, Double.IsNormal s.toUInt64.toFloat k g ∧ -52 ≤ g ∧
      (k : ℚ) * 2 ^ g ≤ (s + 2 ^ d : Nat) := by
  have width : s < 2 ^ 64 := narrow.trans_le (Nat.pow_le_pow_right (by decide) (by omega))
  obtain ⟨k, g, normal, least, near⟩ := Double.isNormal_toFloat some width
  refine ⟨k, g, normal, least, near.trans ?_⟩
  have digits := (Nat.log2_lt (Nat.ne_of_gt some)).mpr narrow
  push_cast
  rw [← zpow_natCast]
  exact add_le_add_right (zpow_le_zpow_right₀ (by norm_num) (by omega)) _

/-- The product of a significand of at most 17 digits with a power of ten does not overflow if the
number does not. -/
theorem isNormal_mul_powerOfTen {s n : Nat} (some : 0 < s) (few : s < 10 ^ 17)
    (scale : n ≤ maxPower) (small : s * 10 ^ n < Double.overflowBound)
    (last : n = 292 → s < mostAt 292) :
    ∃ k g, Double.IsNormal (s.toUInt64.toFloat * powerOfTen n) k g := by
  -- Below this scale there is room for both roundings; above it the significand is not rounded.
  rcases Nat.lt_trichotomy n 292 with below | rfl | above
  · obtain ⟨k, g, left, leastLeft, near⟩ :=
      isNormal_significand (d := 3) some (few.trans_le (by decide)) (by decide)
    obtain ⟨m, e, right, leastRight, room⟩ := mul_powerOfTen_lt (show n ≤ 291 by omega)
    refine isNormal_mul_of_le left leastLeft (near.trans ?_) right leastRight room
    exact_mod_cast (show s + 2 ^ 3 ≤ 10 ^ 17 + 8 by omega)
  · have fits := last rfl
    obtain ⟨k, g, left, leastLeft, near⟩ :=
      isNormal_significand (d := 0) some (fits.trans_le (by decide)) (by decide)
    obtain ⟨m, e, right, leastRight, room⟩ := mostAt_mul_powerOfTen (Nat.le_refl 292) scale
    refine isNormal_mul_of_le left leastLeft (near.trans ?_) right leastRight room
    exact_mod_cast (show s + 2 ^ 0 ≤ mostAt 292 by omega)
  · have power : 0 < 10 ^ n := Nat.pow_pos (by decide)
    have fits : s ≤ mostAt n := by
      rw [mostAt, if_neg (by omega), Nat.le_div_iff_mul_le power]
      omega
    have narrow : s ≤ 2 ^ 53 := by
      have top : mostAt 293 ≤ 2 ^ 53 := by decide +kernel
      refine (fits.trans ?_).trans top
      rw [mostAt, if_neg (by omega), mostAt, if_neg (by omega)]
      exact Nat.div_le_div_left (pow_le_pow_right₀ (by decide) above) (pow_pos (by decide) _)
    obtain ⟨k, g, left, leastLeft, value⟩ := Double.isNormal_toFloat_exact some narrow
    obtain ⟨m, e, right, leastRight, room⟩ := mostAt_mul_powerOfTen above.le scale
    refine isNormal_mul_of_le left leastLeft (value.trans_le ?_) right leastRight room
    exact_mod_cast fits

/-- A number that is not too large has a size, if its significand has at most 17 digits. -/
theorem exists_magnitude? {s n : Nat} (some : 0 < s) (few : s < 10 ^ 17)
    (small : s * 10 ^ n < Double.overflowBound) (last : n = 292 → s < mostAt 292) :
    ∃ size, magnitude? s n = .some size := by
  have scale : n ≤ maxPower := by
    by_contra large
    have top : Double.overflowBound ≤ 10 ^ (maxPower + 1) := by decide +kernel
    have power : 10 ^ (maxPower + 1) ≤ 10 ^ n := Nat.pow_le_pow_right (by decide) (by omega)
    have : 1 * 10 ^ n ≤ s * 10 ^ n := Nat.mul_le_mul_right _ some
    omega
  obtain ⟨k, g, normal⟩ := isNormal_mul_powerOfTen some few scale small last
  refine ⟨s.toUInt64.toFloat * powerOfTen n, ?_⟩
  unfold magnitude?
  simp only [Int.natAbs_natCast]
  rw [if_neg (by omega), if_pos scale, if_neg (by simp [normal.isInf])]

/-- Every finite double but the largest one is at most the neighbour of that one. -/
theorem le_second {m : Nat} {e : Int} (canonical : Double.Canonical m e)
    (other : ¬ (m = 2 ^ 53 - 1 ∧ e = Double.maxExponent)) :
    (m : ℚ) * 2 ^ e ≤ 9007199254740990 * 2 ^ (971 : Int) := by
  have narrow := canonical.lt_two_pow
  have most := canonical.most
  unfold Double.maxExponent at most other
  have unit := Double.two_zpow_pos 971
  by_cases last : e = 971
  · subst last
    have : (m : ℚ) + 2 ≤ 2 ^ 53 := by exact_mod_cast (show m + 2 ≤ 2 ^ 53 by omega)
    exact mul_le_mul_of_nonneg_right (by linarith) unit.le
  · have : (m : ℚ) ≤ 2 ^ 53 := by exact_mod_cast narrow.le
    have below : (2 : ℚ) ^ e ≤ 2 ^ ((971 : Int) - 1) :=
      zpow_le_zpow_right₀ (by norm_num) (by omega)
    rw [zpow_sub_one₀ (by norm_num)] at below
    have start := Double.two_zpow_pos e
    generalize (2 : ℚ) ^ (971 : Int) = p at *
    nlinarith

/-- The text of a double has a size. -/
theorem exists_magnitude?_shortest {m : Nat} {e : Int} (canonical : Double.Canonical m e) :
    ∃ size, magnitude? (spelled (Decimal.shortest .even m e)).coefficient
      (spelled (Decimal.shortest .even m e)).exponent = some size := by
  by_cases largest : m = 2 ^ 53 - 1 ∧ e = Double.maxExponent
  · -- The digits of the largest double are rounded down, so that the product just fits.
    obtain ⟨rfl, rfl⟩ := largest
    exact Option.isSome_iff_exists.mp (by decide +kernel)
  by_cases negative : (spelled (Decimal.shortest .even m e)).exponent < 0
  · exact ⟨_, if_pos negative⟩
  obtain ⟨some, few, rounds, near⟩ :=
    Decimal.shortest_spec (e := e) canonical.positive canonical.lt_two_pow .even
  have second := le_second canonical largest
  have small := rounds.lt_overflowBound canonical
  have same : spelled (Decimal.shortest .even m e) = Decimal.shortest .even m e := by
    refine if_neg fun integral => negative ?_
    rw [spelled, if_pos integral]
    exact Int.negSucc_lt_zero 0
  rw [same] at negative ⊢
  generalize Decimal.shortest .even m e = d at *
  obtain ⟨s, k⟩ := d
  obtain ⟨n, rfl⟩ := Int.eq_ofNat_of_zero_le (Int.not_lt.mp negative)
  simp only [Decimal.value, zpow_natCast] at small near
  refine exists_magnitude? some few (by exact_mod_cast small) ?_
  rintro rfl
  -- A decimal lies at most one unit above its double, which is not the largest one here.
  by_contra large
  have top : 9007199254740990 * 2 ^ 971 + 10 ^ 292 < mostAt 292 * 10 ^ 292 := by decide +kernel
  have reached : mostAt 292 * 10 ^ 292 ≤ s * 10 ^ 292 :=
    Nat.mul_le_mul_right _ (Nat.le_of_not_lt large)
  have above := Nat.cast_lt (α := ℚ).mpr (top.trans_le reached)
  have close := near.trans (add_le_add_left second _)
  simp only [Nat.cast_add, Nat.cast_mul, Nat.cast_pow, Nat.cast_ofNat] at above
  rw [zpow_ofNat] at close
  exact absurd close (not_le.mpr above)

/-! ## Exact doubles -/

/-- A significand and a scale that are exact as doubles. -/
def Exact (d : Decimal) : Prop :=
  d.coefficient ≤ 2 ^ 53 ∧ d.exponent.natAbs ≤ 22

instance (d : Decimal) : Decidable (Exact d) :=
  inferInstanceAs (Decidable (_ ∧ _))

/-- Exact numbers are far above the subnormal doubles. -/
theorem normal_of_exact {d : Decimal} {m : Nat} {e : Int} (exact : Exact d)
    (some : 0 < d.coefficient) (canonical : Double.Canonical m e)
    (rounds : Double.Rounds m e d.value) : m.log2 = 52 ∧ -1074 < e := by
  have few := exact.2
  have above : -1074 < e := by
    by_contra least
    have digits : (1 : ℚ) ≤ d.coefficient := by exact_mod_cast some
    have start : (10 : ℚ) ^ (-22 : Int) ≤ 10 ^ d.exponent :=
      zpow_le_zpow_right₀ (by norm_num) (by omega)
    have low : (10 : ℚ) ^ (-22 : Int) ≤ d.value := by
      have unit := Decimal.ten_zpow_pos d.exponent
      exact start.trans (le_mul_of_one_le_left unit.le digits)
    have narrow : (m : ℚ) + 1 ≤ 2 ^ 53 := by exact_mod_cast canonical.lt_two_pow
    have tiny : (2 : ℚ) ^ e ≤ 2 ^ (-200 : Int) := zpow_le_zpow_right₀ (by norm_num) (by omega)
    have high : d.value ≤ 2 ^ 53 * 2 ^ (-200 : Int) :=
      rounds.2.1.trans (mul_le_mul (by linarith) tiny (Double.two_zpow_pos e).le (by norm_num))
    have apart : (2 : ℚ) ^ 53 * 2 ^ (-200 : Int) < 10 ^ (-22 : Int) := by norm_num
    exact absurd (low.trans high) (not_le.mpr apart)
  rcases canonical.form with ⟨normal, -⟩ | ⟨-, least⟩
  · exact ⟨normal, above⟩
  · exact absurd least above.ne'

/-- The exponent of a normal double is bounded by its value. -/
theorem exponent_le_of_value {x : Float} {p n : Nat} {f : Int} (number : Double.IsNormal x p f)
    (few : n ≤ 22) (value : (p : ℚ) * 2 ^ f = 10 ^ n) : f ≤ 22 := by
  by_contra large
  have nonzero : p ≠ 0 := by
    rintro rfl
    have := number.normal
    simp at this
  have digits : (2 : ℚ) ^ 52 ≤ p := by exact_mod_cast (Nat.le_log2 nonzero).mp number.normal.ge
  have scale : (2 : ℚ) ^ (22 : Int) ≤ 2 ^ f := zpow_le_zpow_right₀ (by norm_num) (by omega)
  have power : (10 : ℚ) ^ n ≤ 10 ^ 22 := pow_le_pow_right₀ (by norm_num) few
  have product : (2 : ℚ) ^ 52 * 2 ^ (22 : Int) ≤ p * 2 ^ f :=
    mul_le_mul digits scale (by norm_num) (Nat.cast_nonneg p)
  have apart : (10 : ℚ) ^ 22 < 2 ^ 52 * 2 ^ (22 : Int) := by norm_num
  linarith

/-- The size of an exact number is rounded once. -/
theorem magnitude?_of_exact {d : Decimal} {m : Nat} {e : Int} (exact : Exact d)
    (some : 0 < d.coefficient) (canonical : Double.Canonical m e)
    (rounds : Double.Rounds m e d.value) :
    ∃ size, magnitude? d.coefficient d.exponent = .some size ∧ Double.IsNormal size m e := by
  obtain ⟨normal, above⟩ := normal_of_exact exact some canonical rounds
  obtain ⟨narrow, few⟩ := exact
  obtain ⟨k, g, left, leastLeft, digits⟩ := Double.isNormal_toFloat_exact some narrow
  obtain ⟨p, f, right, leastRight, power⟩ := isNormal_powerOfTen_exact few
  unfold magnitude?
  simp only
  by_cases negative : d.exponent < 0
  · have value : d.value = d.coefficient / 10 ^ d.exponent.natAbs := by
      rw [Decimal.value, show d.exponent = -(d.exponent.natAbs : Int) by omega, zpow_neg,
        zpow_natCast, Int.natAbs_neg, Int.natAbs_natCast, div_eq_mul_inv]
    rw [value, ← digits, ← power] at rounds
    have place := exponent_le_of_value right few power
    rw [if_pos negative]
    refine ⟨_, rfl, ?_⟩
    rw [scaleDown, if_pos (few.trans (by decide))]
    exact left.div_of_rounds right normal above canonical.most (by omega) rounds
  · have value : d.value = d.coefficient * 10 ^ d.exponent.natAbs := by
      rw [Decimal.value, ← zpow_natCast, Int.natAbs_of_nonneg (Int.not_lt.mp negative)]
    rw [value, ← digits, ← power] at rounds
    have product := left.mul_of_rounds right normal above canonical.most rounds
    rw [if_neg negative, if_pos (few.trans (by decide)), if_neg (by simp [product.isInf])]
    exact ⟨_, rfl, product⟩

/-! ## Variables -/

/-- The double that the text of a finite double is read as. -/
def restored? (x : Float) : Option Float :=
  (magnitude? (written x).coefficient (written x).exponent).map fun size =>
    if isNegative x then -size else size

theorem unpack_neg {x : Float} {m : Nat} {e : Int} (number : Double.IsNormal x m e)
    (canonical : Double.Canonical m e) :
    ∃ positive, (-x).toModel.unpack = .finite .negative m e positive := by
  obtain ⟨positive, unpacked⟩ := number.unpacked
  refine ⟨positive, ?_⟩
  change (Float.Model.pack (UnpackedFloat.neg x.toModel.unpack)).unpack = _
  rw [unpacked]
  exact Double.unpack_pack canonical

theorem restored?_zero (negative : Bool) :
    restored? (Double.zero negative) = some (Double.zero negative) := by
  cases negative <;> decide +kernel

theorem eq_zero_of_unpack {x : Float} {s : Sign} (finite : x.isFinite = true)
    (unpacked : x.toModel.unpack = .zero s) : x = Double.zero (s == .negative) := by
  refine Double.eq_of_unpack finite (unpacked.trans ?_)
  cases s <;> rfl

/-- A double is the number with its sign and the size that its mantissa and exponent make. -/
theorem eq_of_isNormal {x size : Float} {s : Sign} {m : Nat} {e : Int} {positive : 0 < m}
    (unpacked : x.toModel.unpack = .finite s m e positive) (number : Double.IsNormal size m e) :
    (if isNegative x then -size else size) = x := by
  have canonical := Double.canonical_of_unpack unpacked
  have negative : isNegative x = (s == .negative) := by simp [isNegative, unpacked]
  symm
  refine Double.eq_of_unpack ?_ ?_
  · change x.toModel.unpack.isFinite = true
    rw [unpacked]
    rfl
  · rw [negative, unpacked]
    cases s with
    | positive =>
      obtain ⟨_, same⟩ := number.unpacked
      exact same.symm
    | negative =>
      obtain ⟨_, same⟩ := unpack_neg number canonical
      exact same.symm

/-- Every finite double is read as some double, and as itself if its digits and scale are exact. -/
theorem exists_restored? {x : Float} (finite : x.isFinite = true) :
    ∃ y, restored? x = some y ∧ (Exact (written x) → y = x) := by
  rcases (Double.below_of_isFinite finite).cases with ⟨s, unpacked⟩ | ⟨s, m, e, _, unpacked, -⟩
  · obtain rfl := eq_zero_of_unpack finite unpacked
    exact ⟨_, restored?_zero _, fun _ => rfl⟩
  · have canonical := Double.canonical_of_unpack unpacked
    have decimal : written x = spelled (Decimal.shortest .even m e) := by
      simp only [written, unpacked]
      rfl
    by_cases exact : Exact (written x)
    · obtain ⟨some, -, rounds, -⟩ :=
        Decimal.shortest_spec (e := e) canonical.positive canonical.lt_two_pow .even
      have positive : 0 < (written x).coefficient := by
        rw [decimal, spelled]
        split
        · exact Nat.mul_pos some (Nat.pow_pos (by decide))
        · exact some
      rw [← value_spelled, ← decimal] at rounds
      obtain ⟨size, sized, number⟩ := magnitude?_of_exact exact positive canonical rounds
      exact ⟨_, by rw [restored?, sized]; rfl, fun _ => eq_of_isNormal unpacked number⟩
    · obtain ⟨size, sized⟩ := exists_magnitude?_shortest canonical
      rw [← decimal] at sized
      exact ⟨_, by rw [restored?, sized]; rfl, fun given => absurd given exact⟩

/-- A store whose only entry is a variable with a double is read as the store of the double that is
restored. -/
theorem read_write_double (name : String) {x y : Float} (finite : x.isFinite = true)
    (restored : restored? x = some y) :
    read (write (({} : Store).bind name (.float x))) = .ok (({} : Store).bind name (.float y)) := by
  obtain ⟨size, sized, same⟩ := Option.map_eq_some_iff.mp restored
  have reads : scalar.Reads (floatText x) (.float y) := same ▸ scalar_reads_double finite sized
  have text : writeTable 1 writeValue (({} : Store).bind name (.float x)).variables =
      writeTable 1 (fun _ => floatText x) (({} : Store).bind name (.float y)).variables := rfl
  have values : scalar.map.Reads
      (writeTable 1 writeValue (({} : Store).bind name (.float x)).variables)
      (({} : Store).bind name (.float y)).variables := by
    rw [text]
    refine Reader.map_reads ?_ 1
    intro e member
    obtain rfl := List.mem_singleton.mp member
    exact reads
  exact read_write_of_reads values

theorem restored?_isFinite {x y : Float} (restored : restored? x = some y) :
    y.isFinite = true := by
  obtain ⟨size, sized, rfl⟩ := Option.map_eq_some_iff.mp restored
  have finite := magnitude?_isFinite sized
  split
  · exact Double.isFinite_neg finite
  · exact finite

/-- A store whose only entry is a variable with a finite double is read back as a store whose only
entry is that variable with a finite double again, never with an integer. It is the double that its
digits and its scale make in double arithmetic, and the same double if these are exact. -/
theorem double_read_back (name : String) {x : Float} (finite : x.isFinite = true) :
    ∃ y, read (write (({} : Store).bind name (.float x))) =
        .ok (({} : Store).bind name (.float y)) ∧
      y.isFinite = true ∧ restored? x = some y ∧ (Exact (written x) → y = x) := by
  obtain ⟨y, restored, same⟩ := exists_restored? finite
  exact ⟨y, read_write_double name finite restored, restored?_isFinite restored, restored, same⟩

theorem double_read_back_sixteen_digits :
    (-0.1234567890123456 : Float).isFinite = true ∧ Exact (written (-0.1234567890123456)) ∧
      read (write (({} : Store).bind "x" (.float (-0.1234567890123456)))) =
        .ok (({} : Store).bind "x" (.float (-0.1234567890123456))) := by
  have finite : (-0.1234567890123456 : Float).isFinite = true := by decide +kernel
  have exact : Exact (written (-0.1234567890123456)) := by decide +kernel
  obtain ⟨y, read, -, -, same⟩ := double_read_back "x" finite
  rw [same exact] at read
  exact ⟨finite, exact, read⟩

/-- The largest odd integer that is a double is read as its lower neighbour: with the zero behind
its point it has 17 digits, and they are no double. -/
theorem largest_odd_double_moves :
    (9007199254740991.0 : Float).isFinite = true ∧
      read (write (({} : Store).bind "x" (.float 9007199254740991.0))) =
        .ok (({} : Store).bind "x" (.float 9007199254740990.0)) ∧
      (9007199254740991.0 : Float) ≠ 9007199254740990.0 := by
  have finite : (9007199254740991.0 : Float).isFinite = true := by decide +kernel
  have restored : restored? 9007199254740991.0 = some 9007199254740990.0 := by decide +kernel
  exact ⟨finite, read_write_double "x" finite restored, by decide +kernel⟩

end Linewise.Document
