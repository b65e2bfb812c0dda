import Mathlib
import Linewise.Double.Rounding

/-! Operations that keep doubles finite. Rounding can raise the exponent of a number by one step
only, so a result is finite as long as the exact one is clearly inside the range. From this follow
negation, conversion of integers, what is left of a number above its next integer, and division by
a number of at least eight. A product is a number or an infinity, never neither of them. -/
namespace Linewise.Double
open Float.Model Float.Model.UnpackedFloat

/-- A number whose exponent is at most `top`. -/
def Below (top : Int) : UnpackedFloat → Prop
  | .zero _ => True
  | .finite _ _ e _ => e ≤ top
  | _ => False

/-- The largest exponent of a finite double. -/
def maxExponent : Int := 971

theorem isFinite_of_below {top : Int} {u : UnpackedFloat} (below : Below top u) :
    u.isFinite = true := by
  cases u with
  | zero => rfl
  | finite => rfl
  | infinity => exact below.elim
  | notANumber => exact below.elim

theorem Below.cases {top : Int} {u : UnpackedFloat} (below : Below top u) :
    (∃ s, u = .zero s) ∨ ∃ s m e positive, u = .finite s m e positive ∧ e ≤ top := by
  cases u with
  | zero s => exact .inl ⟨s, rfl⟩
  | finite s m e positive => exact .inr ⟨s, m, e, positive, rfl, below⟩
  | infinity => exact below.elim
  | notANumber => exact below.elim

/-! ## Packing -/

/-- What an exponent field other than the largest one stands for. -/
theorem below_unpack {top : Int} (least : -1074 ≤ top) {b : BitVec Format.binary64.numBits}
    (small : (unpackExponent b).toNat ≤ top + 1075) (inside : unpackExponent b ≠ -1#_) :
    Below top (UnpackedFloat.unpack Format.binary64 b) := by
  unfold UnpackedFloat.unpack
  simp only [if_neg inside]
  split
  · split
    · trivial
    · rename_i zero _
      simp [Below, zero, Format.exponentBias]
      omega
  · simp [Below, Format.exponentBias]
    omega

theorem unpackExponent_le {b : BitVec Format.binary64.numBits} (inside : unpackExponent b ≠ -1#_) :
    (unpackExponent b).toNat ≤ 2046 := by
  have bound : (unpackExponent b).toNat < 2048 := (unpackExponent b).isLt
  have other : (unpackExponent b).toNat ≠ 2047 := fun same => inside (BitVec.eq_of_toNat_eq same)
  omega

/-- A finite double is a number within the range of exponents. -/
theorem below_of_isFinite {x : Float} (finite : x.isFinite = true) :
    Below maxExponent x.toModel.unpack := by
  by_cases inside : @unpackExponent Format.binary64 x.toModel.toBits.toBitVec ≠ -1#_
  · exact below_unpack (by decide) (Int.ofNat_le.mpr (unpackExponent_le inside)) inside
  · have special : x.toModel.unpack.isFinite = false := by
      simp only [ne_eq, Decidable.not_not] at inside
      unfold Float.Model.unpack UnpackedFloat.unpack
      simp only [if_pos inside]
      split <;> rfl
    rw [show x.isFinite = x.toModel.unpack.isFinite from rfl, special] at finite
    cases finite

theorem unpack_pack_bits (u : UnpackedFloat) :
    (Float.Model.pack u).unpack =
      UnpackedFloat.unpack Format.binary64 (UnpackedFloat.pack Format.binary64 u) :=
  rfl

/-- How a number is packed: above the range it becomes an infinity, and an exponent field other than
zero goes with 53 digits. -/
theorem pack_finite (s : Sign) (m : Nat) (e : Int) (positive : 0 < m) :
    UnpackedFloat.pack Format.binary64 (.finite s m e positive) =
      if maxExponent < e then packedInfinity Format.binary64 s
      else if m.log2 = 52 then
        packComponents Format.binary64 s (BitVec.ofNat 11 (e + 1075).toNat) (BitVec.ofNat 52 m)
      else packComponents Format.binary64 s 0#11 (BitVec.ofNat 52 m) := by
  have field : e + Format.binary64.exponentBias + (52 : Nat) = e + 1075 := by
    simp only [Format.exponentBias]
    omega
  have above : 2 ^ 11 ≤ (e + 1075).toNat + 1 ↔ maxExponent < e := by
    unfold maxExponent
    omega
  have full : m.log2 + 1 = Format.binary64.mantissaBits ↔ m.log2 = 52 := by
    simp only [Format.mantissaBits]
    omega
  simp only [UnpackedFloat.pack, field, above, full]

/-- The exponent field of a number within the range. -/
theorem unpackExponent_pack {s : Sign} {m : Nat} {e : Int} {positive : 0 < m}
    (low : e ≤ maxExponent) :
    (unpackExponent (UnpackedFloat.pack Format.binary64 (.finite s m e positive))).toNat ≤
      (e + 1075).toNat := by
  rw [pack_finite, if_neg (Int.not_lt.mpr low)]
  split
  · rw [unpackExponent_packComponents, BitVec.toNat_ofNat]
    exact Nat.mod_le _ _
  · simp

/-- Packing a number within the range keeps the bound of its exponent. -/
theorem below_pack {top : Int} (least : -1074 ≤ top) (most : top ≤ maxExponent)
    {u : UnpackedFloat} (below : Below top u) : Below top (Float.Model.pack u).unpack := by
  rw [unpack_pack_bits]
  cases u with
  | infinity => exact below.elim
  | notANumber => exact below.elim
  | zero s => cases s <;> exact trivial
  | finite s m e positive =>
    change e ≤ top at below
    have field := @unpackExponent_pack s m e positive (Int.le_trans below most)
    refine below_unpack least (by omega) ?_
    intro largest
    rw [largest] at field
    change 2047 ≤ _ at field
    unfold maxExponent at most
    omega

theorem isFinite_ofModel_pack {u : UnpackedFloat} (below : Below maxExponent u) :
    (Float.ofModel (Float.Model.pack u)).isFinite = true :=
  isFinite_of_below (below_pack (by decide) (Int.le_refl _) below)

/-! ## Rounding -/

theorem mantissa_shiftRight (em : ExtendedMantissa) (steps : Nat) :
    (em >>> steps).mantissa = em.mantissa / 2 ^ steps := by
  change (steps.repeat ExtendedMantissa.shiftRightOne em).mantissa = _
  induction steps with
  | zero => simp [Nat.repeat]
  | succ steps ih =>
    rw [Nat.repeat, ExtendedMantissa.shiftRightOne]
    simp only [ih, Nat.div_div_eq_div_mul, Nat.pow_succ]

theorem roundedMantissa_le (em : ExtendedMantissa) : em.roundedMantissa ≤ em.mantissa + 1 := by
  obtain ⟨m, round, sticky⟩ := em
  cases round <;> cases sticky <;>
    simp [ExtendedMantissa.roundedMantissa, ExtendedMantissa.accuracy, Accuracy.roundToNearestEven]
  omega

/-- Shifting drops digits and raises the exponent to the target, if it is not above it. -/
theorem shiftToTargetExponent_eq (m : Nat) (e : Int) (accuracy : Accuracy) :
    let steps := (max (m.log2 + 1 + e - 53) (-1074) - e).toNat
    (shiftToTargetExponent Format.binary64 m e accuracy).1.mantissa = m / 2 ^ steps ∧
      (shiftToTargetExponent Format.binary64 m e accuracy).2 = e + steps := by
  have start : (ExtendedMantissa.ofMantissaAndAccuracy m accuracy).mantissa = m := by
    cases accuracy with
    | exact => rfl
    | inexact order => cases order <;> rfl
  have target : Format.binary64.targetExponent (totalExponent m e) =
      max (m.log2 + 1 + e - 53) (-1074) := rfl
  simp [shiftToTargetExponent, shiftToExponent, mantissa_shiftRight, start, target]

theorem log2_le_of_le_div {r m steps : Nat} (small : r ≤ m / 2 ^ steps + 1) :
    r.log2 ≤ m.log2 - steps + 1 := by
  by_cases zero : r = 0
  · simp [zero]
  · have bound : m < 2 ^ steps * 2 ^ (m.log2 - steps + 1) := by
      refine Nat.lt_of_lt_of_le Nat.lt_log2_self ?_
      rw [← Nat.pow_add]
      exact Nat.pow_le_pow_right (by decide) (by omega)
    have quotient := Nat.div_lt_of_lt_mul bound
    have next : r < 2 ^ (m.log2 - steps + 1 + 1) := by
      rw [Nat.pow_succ]
      omega
    exact Nat.le_of_lt_succ ((Nat.log2_lt zero).mpr next)

/-- Rounding gives a number whose exponent is hardly larger than the place of its first digit asks
for. The carry of the first rounding can raise that place by one. -/
theorem below_roundWithAccuracy {top : Int} (least : -1074 ≤ top) (s : Sign) {m : Nat} {e : Int}
    (low : e ≤ top) (first : m.log2 + e ≤ top + 51) (accuracy : Accuracy) :
    Below top (roundWithAccuracy Format.binary64 s m e accuracy) := by
  obtain ⟨digits, exponent⟩ := shiftToTargetExponent_eq m e accuracy
  have rounded := roundedMantissa_le (shiftToTargetExponent Format.binary64 m e accuracy).1
  rw [digits] at rounded
  have carried := log2_le_of_le_div rounded
  have last := (shiftToTargetExponent_eq
    (shiftToTargetExponent Format.binary64 m e accuracy).1.roundedMantissa
    (shiftToTargetExponent Format.binary64 m e accuracy).2 .exact).2
  unfold roundWithAccuracy
  simp only
  split
  · trivial
  · simp only [Below]
    rw [exponent] at last ⊢
    omega

theorem isFinite_roundWithAccuracy (s : Sign) (m : Nat) (e : Int) (accuracy : Accuracy) :
    (roundWithAccuracy Format.binary64 s m e accuracy).isFinite = true := by
  unfold roundWithAccuracy
  simp only
  split <;> rfl

theorem log2_shiftLeft_le (m steps : Nat) : (m <<< steps).log2 ≤ m.log2 + steps := by
  by_cases zero : m <<< steps = 0
  · simp [zero]
  · refine Nat.le_of_lt_succ ((Nat.log2_lt zero).mpr ?_)
    calc m <<< steps = m * 2 ^ steps := Nat.shiftLeft_eq m steps
      _ < 2 ^ (m.log2 + 1) * 2 ^ steps :=
        Nat.mul_lt_mul_of_pos_right Nat.lt_log2_self (Nat.two_pow_pos steps)
      _ = 2 ^ (m.log2 + steps + 1) := by
        rw [← Nat.pow_add]
        congr 1
        omega

theorem below_round {top : Int} (least : -1074 ≤ top) (s : Sign) {m : Nat} {e : Int}
    (first : m.log2 + e ≤ top + 51) : Below top (UnpackedFloat.round Format.binary64 s m e) := by
  have target : Format.binary64.targetExponent (totalExponent m e) =
      max (m.log2 + 1 + e - 53) (-1074) := rfl
  have widened := log2_shiftLeft_le m (e - max (m.log2 + 1 + e - 53) (-1074)).toNat
  simp only [UnpackedFloat.round, decreaseExponent, target]
  exact below_roundWithAccuracy least s (by omega) (by omega) _

/-- Rounding an integer times a power of two. -/
theorem below_normalize {top : Int} (least : -1074 ≤ top) {n e : Int} {k : Nat}
    (narrow : n.natAbs < 2 ^ k) (first : k + e ≤ top + 52) (zeroSign : Sign) :
    Below top (UnpackedFloat.normalize Format.binary64 n e zeroSign) := by
  have places (nonzero : n ≠ 0) : (n.natAbs.log2 : Int) + e ≤ top + 51 := by
    have := (Nat.log2_lt (Int.natAbs_ne_zero.mpr nonzero)).mpr narrow
    omega
  unfold UnpackedFloat.normalize
  split
  · rename_i negative
    have below : n < 0 := Int.compare_eq_lt.mp negative
    rw [show (-n).toNat = n.natAbs by omega]
    exact below_round least _ (places (by omega))
  · trivial
  · rename_i positive
    have above : 0 < n := Int.compare_eq_gt.mp positive
    rw [show n.toNat = n.natAbs by omega]
    exact below_round least _ (places (by omega))

/-! ## Operations -/

theorem isFinite_neg {x : Float} (finite : x.isFinite = true) : (-x).isFinite = true := by
  have below := below_of_isFinite finite
  refine isFinite_ofModel_pack ?_
  cases unpacked : x.toModel.unpack <;> rw [unpacked] at below <;> exact below

/-- The double of an integer of up to 64 bits. -/
theorem below_ofInt {n : Int} (narrow : n.natAbs < 2 ^ 64) :
    Below 12 (ofInt n).toModel.unpack := by
  refine below_pack (by decide) (by decide) ?_
  exact below_normalize (by decide) narrow (by decide) _

theorem isFinite_ofInt {n : Int} (narrow : n.natAbs < 2 ^ 64) : (ofInt n).isFinite = true :=
  isFinite_of_below (below_ofInt narrow)

theorem isFinite_toFloat (n : UInt64) : n.toFloat.isFinite = true :=
  isFinite_ofInt (n := n.toNat) n.toNat_lt

theorem mantissa_lt {x : Float} {s : Sign} {m : Nat} {e : Int} {positive : 0 < m}
    (unpacked : x.toModel.unpack = .finite s m e positive) : m < 2 ^ 53 := by
  unfold Float.Model.unpack UnpackedFloat.unpack at unpacked
  simp only at unpacked
  split at unpacked
  · split at unpacked <;> cases unpacked
  · split at unpacked
    · split at unpacked
      · cases unpacked
      · cases unpacked
        exact Nat.lt_of_lt_of_le (BitVec.isLt _) (by decide)
    · cases unpacked
      exact BitVec.isLt _

theorem apply_sub_natAbs_le (s t : Sign) (a b : Nat) :
    (s.apply a - t.apply b).natAbs ≤ a + b := by
  cases s <;> cases t <;> simp only [Sign.apply] <;> omega

theorem shiftLeft_lt {m steps most : Nat} (narrow : m < 2 ^ 53) (few : steps ≤ most) :
    m <<< steps < 2 ^ (53 + most) := by
  rw [Nat.shiftLeft_eq]
  calc m * 2 ^ steps < 2 ^ 53 * 2 ^ steps :=
        Nat.mul_lt_mul_of_pos_right narrow (Nat.two_pow_pos steps)
    _ = 2 ^ (53 + steps) := (Nat.pow_add 2 53 steps).symm
    _ ≤ 2 ^ (53 + most) := Nat.pow_le_pow_right (by decide) (by omega)

/-- A difference of numbers far below the end of the range is finite. -/
theorem isFinite_sub {x y : Float} (left : Below 12 x.toModel.unpack)
    (right : Below 12 y.toModel.unpack) : (x - y).isFinite = true := by
  refine isFinite_ofModel_pack ?_
  rcases left.cases with ⟨s, first⟩ | ⟨s, m, e, positive, first, low⟩ <;>
    rcases right.cases with ⟨t, second⟩ | ⟨t, n, f, above, second, otherLow⟩ <;>
    simp only [first, second, UnpackedFloat.sub, decreaseExponent]
  · split <;> trivial
  · exact Int.le_trans otherLow (by decide)
  · exact Int.le_trans low (by decide)
  · -- the two mantissas, moved to the smaller exponent, are added up at worst
    have most := apply_sub_natAbs_le s t (m <<< (e - min e f).toNat) (n <<< (f - min e f).toNat)
    have wide := shiftLeft_lt (mantissa_lt first)
      (show (e - min e f).toNat ≤ (max e f - min e f).toNat by omega)
    have otherWide := shiftLeft_lt (mantissa_lt second)
      (show (f - min e f).toNat ≤ (max e f - min e f).toNat by omega)
    refine below_normalize (by decide) (k := 53 + (max e f - min e f).toNat + 1) ?_ ?_ _
    · rw [Nat.pow_succ]
      omega
    · simp only [maxExponent]
      omega

/-- The next integer is not farther from zero than the numerator. -/
theorem natAbs_ceil_le (n : Int) {d : Int} (positive : 0 < d) :
    (-(-n).fdiv d).natAbs ≤ n.natAbs := by
  rw [Int.natAbs_neg, Int.fdiv_eq_ediv_of_nonneg _ (Int.le_of_lt positive)]
  exact Nat.le_trans (Int.natAbs_ediv_le_natAbs _ _) (Nat.le_of_eq (Int.natAbs_neg n))

theorem below_zero (negative : Bool) : Below 12 (zero negative).toModel.unpack := by
  cases negative with
  | false => exact trivial
  | true => exact trivial

/-- What is left of a finite double above the next integer is finite. -/
theorem isFinite_sub_ceil {x : Float} (finite : x.isFinite = true) :
    (x - ceil x).isFinite = true := by
  rcases (below_of_isFinite finite).cases with ⟨s, unpacked⟩ | ⟨s, m, e, positive, unpacked, -⟩
  · have same : ceil x = x := by simp [ceil, roundBy, unpacked]
    have below : Below 12 x.toModel.unpack := by simp [unpacked, Below]
    rw [same]
    exact isFinite_sub below below
  · by_cases integral : 0 ≤ e
    · have same : ceil x = x := by simp [ceil, roundBy, unpacked, integral]
      rw [same]
      refine isFinite_ofModel_pack ?_
      simp only [unpacked, UnpackedFloat.sub, Int.sub_self]
      trivial
    · have low : Below 12 x.toModel.unpack := by
        simp only [unpacked, Below]
        omega
      refine isFinite_sub low ?_
      simp only [ceil, roundBy, unpacked, if_neg integral]
      split
      · exact below_zero _
      · have size : (s.apply m).natAbs = m := by cases s <;> simp [Sign.apply]
        have scale : 0 < Int.pow 2 (-e).toNat := Int.pow_pos (by decide)
        have near := natAbs_ceil_le (s.apply m) scale
        have narrow := mantissa_lt unpacked
        exact below_ofInt (by omega)

theorem isFinite_mul_unpacked {u v : UnpackedFloat} (left : u.isFinite = true)
    (right : v.isFinite = true) : (UnpackedFloat.mul Format.binary64 u v).isFinite = true := by
  cases u with
  | infinity => cases left
  | notANumber => cases left
  | zero s => cases v <;> first | rfl | cases right
  | finite s m e positive =>
    cases v with
    | infinity => cases right
    | notANumber => cases right
    | zero t => rfl
    | finite t n f above => exact isFinite_roundWithAccuracy _ _ _ _

/-- A number is packed as a finite double or as an infinity. -/
theorem isFinite_pack {u : UnpackedFloat} (number : u.isFinite = true)
    (bounded : (Float.Model.pack u).unpack.isInf = false) :
    (Float.Model.pack u).unpack.isFinite = true := by
  cases u with
  | infinity => cases number
  | notANumber => cases number
  | zero s => exact isFinite_of_below (below_pack (by decide) (Int.le_refl _) trivial)
  | finite s m e positive =>
    by_cases low : e ≤ maxExponent
    · exact isFinite_of_below (below_pack (by decide) (Int.le_refl _) low)
    · rw [unpack_pack_bits, pack_finite, if_pos (Int.not_le.mp low)] at bounded
      cases s <;> cases bounded

/-- A product of finite doubles that is not an infinity is finite. -/
theorem isFinite_mul {x y : Float} (left : x.isFinite = true) (right : y.isFinite = true)
    (bounded : (x * y).isInf = false) : (x * y).isFinite = true :=
  isFinite_pack (isFinite_mul_unpacked left right) bounded

theorem log2_div_add_le {m n : Nat} (nonzero : m / n ≠ 0) : (m / n).log2 + n.log2 ≤ m.log2 := by
  have divisor : n ≠ 0 := by
    rintro rfl
    simp at nonzero
  have dividend : m ≠ 0 := by
    rintro rfl
    simp at nonzero
  refine (Nat.le_log2 dividend).mpr ?_
  calc 2 ^ ((m / n).log2 + n.log2) = 2 ^ (m / n).log2 * 2 ^ n.log2 := Nat.pow_add ..
    _ ≤ m / n * n := Nat.mul_le_mul (Nat.log2_self_le nonzero) (Nat.log2_self_le divisor)
    _ ≤ m := Nat.div_mul_le_self m n

/-- Whether the size of a double is at least eight and no infinity. -/
def atLeastEight (x : Float) : Bool :=
  match x.toModel.unpack with
  | .finite _ m e _ => decide (3 ≤ m.log2 + e)
  | _ => false

theorem atLeastEight_iff {x : Float} : atLeastEight x = true ↔
    ∃ s m e positive, x.toModel.unpack = .finite s m e positive ∧ 3 ≤ m.log2 + e := by
  unfold atLeastEight
  split
  · rename_i s m e positive unpacked
    simp only [decide_eq_true_eq]
    constructor
    · intro large
      exact ⟨s, m, e, positive, unpacked, large⟩
    · rintro ⟨_, _, _, _, same, large⟩
      cases unpacked.symm.trans same
      exact large
  · rename_i other
    simp only [Bool.false_eq_true, false_iff]
    rintro ⟨s, m, e, positive, unpacked, -⟩
    exact other s m e positive unpacked

theorem isFinite_of_atLeastEight {x : Float} (large : atLeastEight x = true) :
    x.isFinite = true := by
  obtain ⟨s, m, e, positive, unpacked, -⟩ := atLeastEight_iff.mp large
  change x.toModel.unpack.isFinite = true
  rw [unpacked]
  rfl

/-- A quotient by a double of at least eight is finite. -/
theorem isFinite_div {x y : Float} (finite : x.isFinite = true)
    (large : atLeastEight y = true) : (x / y).isFinite = true := by
  obtain ⟨s, n, f, positive, unpacked, large⟩ := atLeastEight_iff.mp large
  refine isFinite_ofModel_pack ?_
  rw [unpacked]
  rcases (below_of_isFinite finite).cases with ⟨t, zero⟩ | ⟨t, m, e, above, other, low⟩
  · rw [zero]
    trivial
  · have narrow : m.log2 < 53 := (Nat.log2_lt (Nat.ne_of_gt above)).mpr (mantissa_lt other)
    have target : Format.binary64.targetExponent (totalExponent m e - totalExponent n f) =
        max (m.log2 + 1 + e - (n.log2 + 1 + f) - 53) (-1074) := rfl
    simp only [other, UnpackedFloat.div, divCore, target]
    unfold maxExponent at low ⊢
    refine below_roundWithAccuracy (by decide) _ (by omega) ?_ _
    have shifted := log2_shiftLeft_le m
      (e - f - min (e - f) (max (m.log2 + 1 + e - (n.log2 + 1 + f) - 53) (-1074))).toNat
    by_cases vanishes : m <<< (e - f - min (e - f)
        (max (m.log2 + 1 + e - (n.log2 + 1 + f) - 53) (-1074))).toNat / n = 0
    · rw [vanishes, Nat.log2_zero]
      omega
    · have quotient := log2_div_add_le vanishes
      omega

/-! ## Places of first digits -/

theorem log2_div_two_pow {m steps : Nat} (nonzero : m ≠ 0) (few : steps ≤ m.log2) :
    (m / 2 ^ steps).log2 = m.log2 - steps := by
  have low : 2 ^ (m.log2 - steps) ≤ m / 2 ^ steps := by
    rw [Nat.le_div_iff_mul_le (Nat.two_pow_pos steps), ← Nat.pow_add, Nat.sub_add_cancel few]
    exact Nat.log2_self_le nonzero
  have high : m / 2 ^ steps < 2 ^ (m.log2 - steps + 1) := by
    refine Nat.div_lt_of_lt_mul ?_
    rw [← Nat.pow_add, show steps + (m.log2 - steps + 1) = m.log2 + 1 by omega]
    exact Nat.lt_log2_self
  have quotient : m / 2 ^ steps ≠ 0 := Nat.ne_of_gt (Nat.lt_of_lt_of_le (Nat.two_pow_pos _) low)
  exact (Nat.log2_eq_iff quotient).mpr ⟨low, high⟩

theorem le_roundedMantissa (em : ExtendedMantissa) : em.mantissa ≤ em.roundedMantissa := by
  obtain ⟨m, round, sticky⟩ := em
  cases round <;> cases sticky <;>
    simp [ExtendedMantissa.roundedMantissa, ExtendedMantissa.accuracy, Accuracy.roundToNearestEven]

/-- The mantissa of a number with enough digits is shifted to 53 of them. -/
theorem shift_normal {m : Nat} {e : Int} (wide : 52 ≤ m.log2) (least : -1074 ≤ m.log2 + e - 52)
    (accuracy : Accuracy) :
    (shiftToTargetExponent Format.binary64 m e accuracy).1.mantissa.log2 = 52 ∧
      (shiftToTargetExponent Format.binary64 m e accuracy).2 = m.log2 + e - 52 := by
  obtain ⟨digits, exponent⟩ := shiftToTargetExponent_eq m e accuracy
  have nonzero : m ≠ 0 := by
    rintro rfl
    simp at wide
  have steps : (max ((m.log2 : Int) + 1 + e - 53) (-1074) - e).toNat = m.log2 - 52 := by omega
  rw [digits, exponent, steps, log2_div_two_pow nonzero (by omega)]
  omega

/-- Rounding a number with enough digits does not move its first digit down. -/
theorem roundWithAccuracy_normal (s : Sign) {m : Nat} {e : Int} (wide : 52 ≤ m.log2)
    (least : -1074 ≤ m.log2 + e - 52) (accuracy : Accuracy) :
    ∃ n f positive, roundWithAccuracy Format.binary64 s m e accuracy = .finite s n f positive ∧
      n.log2 = 52 ∧ m.log2 + e - 52 ≤ f := by
  have nonzero {k : Nat} (large : 52 ≤ k.log2) : k ≠ 0 := by
    rintro rfl
    simp at large
  obtain ⟨full, exponent⟩ := shift_normal wide least accuracy
  generalize shifted : shiftToTargetExponent Format.binary64 m e accuracy = first at full exponent
  obtain ⟨em, raised⟩ := first
  simp only at full exponent
  have carried : 52 ≤ em.roundedMantissa.log2 := by
    have start := Nat.log2_self_le (nonzero (Nat.le_of_eq full.symm))
    rw [full] at start
    have large := Nat.le_trans start (le_roundedMantissa em)
    exact (Nat.le_log2 (by omega)).mpr large
  have enough : -1074 ≤ em.roundedMantissa.log2 + raised - 52 := by omega
  obtain ⟨final, last⟩ := shift_normal carried enough .exact
  have digits := nonzero (Nat.le_of_eq final.symm)
  simp only [roundWithAccuracy, shifted]
  rw [dif_neg digits]
  exact ⟨_, _, Nat.pos_of_ne_zero digits, rfl, final, by omega⟩

theorem toNat_implicit_append (fraction : BitVec 52) :
    (1#1 ++ fraction).toNat = 2 ^ 52 + fraction.toNat := by
  rw [BitVec.toNat_append, ← Nat.shiftLeft_add_eq_or_of_lt fraction.isLt]
  simp [Nat.shiftLeft_eq]

theorem log2_implicit_append (fraction : BitVec 52) : (1#1 ++ fraction).toNat.log2 = 52 := by
  have bound := fraction.isLt
  rw [toNat_implicit_append]
  exact (Nat.log2_eq_iff (by omega)).mpr ⟨by omega, by omega⟩

/-- A normal number within the range keeps its exponent and the place of its first digit. -/
theorem unpack_pack_normal {s : Sign} {m : Nat} {e : Int} {positive : 0 < m}
    (normal : m.log2 = 52) (least : -1074 ≤ e) (most : e ≤ maxExponent) :
    ∃ t n above, (Float.Model.pack (.finite s m e positive)).unpack = .finite t n e above ∧
      n.log2 = 52 := by
  have field : (BitVec.ofNat 11 (e + 1075).toNat).toNat = (e + 1075).toNat := by
    unfold maxExponent at most
    rw [BitVec.toNat_ofNat]
    omega
  have inside : BitVec.ofNat 11 (e + 1075).toNat ≠ -1#11 := by
    intro largest
    rw [largest] at field
    change 2047 = _ at field
    unfold maxExponent at most
    omega
  have nonzero : BitVec.ofNat 11 (e + 1075).toNat ≠ 0#11 := by
    intro zero
    rw [zero] at field
    change 0 = _ at field
    omega
  have exponent : ((e + 1075).toNat : Int) - (Format.binary64.exponentBias + (52 : Nat)) = e := by
    simp only [Format.exponentBias]
    omega
  rw [unpack_pack_bits, pack_finite, if_neg (Int.not_lt.mpr most), if_pos normal]
  simp only [UnpackedFloat.unpack, unpackExponent_packComponents, unpackMantissa_packComponents,
    if_neg inside, if_neg nonzero, field, exponent]
  have above : 0 < (1#1 ++ BitVec.ofNat 52 m).toNat := by
    rw [toNat_implicit_append]
    omega
  exact ⟨_, _, above, rfl, log2_implicit_append _⟩

/-- Rounding keeps a number inside the range at least eight. -/
theorem atLeastEight_round (s : Sign) {m : Nat} {e : Int} (wide : 52 ≤ m.log2)
    (least : 3 ≤ m.log2 + e) (most : m.log2 + e ≤ maxExponent + 51) (accuracy : Accuracy) :
    atLeastEight (Float.ofModel
      (Float.Model.pack (roundWithAccuracy Format.binary64 s m e accuracy))) = true := by
  have enough : -1074 ≤ m.log2 + e - 52 := by omega
  obtain ⟨n, f, positive, rounded, normal, up⟩ := roundWithAccuracy_normal s wide enough accuracy
  have below : Below maxExponent (roundWithAccuracy Format.binary64 s m e accuracy) :=
    below_roundWithAccuracy (by decide) s (by omega) most accuracy
  rw [rounded] at below ⊢
  obtain ⟨t, k, above, unpacked, same⟩ := @unpack_pack_normal s n f positive normal (by omega) below
  exact atLeastEight_iff.mpr ⟨t, k, f, above, unpacked, by omega⟩

end Linewise.Double
