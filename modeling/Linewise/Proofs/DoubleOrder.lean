import Linewise.Proofs.NearestDouble

/-! The order of finite doubles is the order of the numbers that they stand for, so on finite
doubles `<` and `==` form one total order, in which the two zeros are equal. Conversion of integers
of up to 64 bits to doubles keeps this order, though not strictly, and up to `2 ^ 53` in size it is
exact. -/
namespace Linewise.Double
open Float.Model Float.Model.UnpackedFloat

/-! ## Values -/

/-- The number that a finite double stands for; both zeros stand for zero. -/
def value (x : Float) : ℚ :=
  match x.toModel.unpack with
  | .finite s m e _ => s.apply m * 2 ^ e
  | _ => 0

theorem value_of_finite {x : Float} {s : Sign} {m : Nat} {e : Int} {positive : 0 < m}
    (unpacked : x.toModel.unpack = .finite s m e positive) : value x = s.apply m * 2 ^ e := by
  simp only [value, unpacked]

theorem value_of_zero {x : Float} {s : Sign} (unpacked : x.toModel.unpack = .zero s) :
    value x = 0 := by
  simp only [value, unpacked]

/-- Of two mantissas and exponents that doubles can have the larger exponent goes with the larger
number. -/
theorem Canonical.lt_of_exponent_lt {m n : Nat} {e f : Int} (left : Canonical m e)
    (right : Canonical n f) (less : e < f) : (m : ℚ) * 2 ^ e < n * 2 ^ f := by
  have least := left.least
  have normal : n.log2 = 52 := by
    rcases right.form with ⟨normal, -⟩ | ⟨-, lowest⟩
    · exact normal
    · omega
  have narrow : (m : ℚ) < 2 ^ 53 := by exact_mod_cast left.lt_two_pow
  have wide : (2 : ℚ) ^ 52 ≤ n := by
    exact_mod_cast (Nat.le_log2 (Nat.ne_of_gt right.positive)).mp normal.ge
  calc (m : ℚ) * 2 ^ e < 2 ^ 53 * 2 ^ e := mul_lt_mul_of_pos_right narrow (two_zpow_pos e)
    _ = 2 ^ 52 * 2 ^ (e + 1) := by
      rw [zpow_add_one₀ (by norm_num)]
      ring
    _ ≤ 2 ^ 52 * 2 ^ f :=
      mul_le_mul_of_nonneg_left (zpow_le_zpow_right₀ (by norm_num) less) (by norm_num)
    _ ≤ n * 2 ^ f := mul_le_mul_of_nonneg_right wide (two_zpow_pos f).le

/-- Doubles of one sign are compared by exponents first and by mantissas then. -/
theorem compare_canonical {m n : Nat} {e f : Int} (left : Canonical m e) (right : Canonical n f) :
    (compare e f).then (compare m n) = compare ((m : ℚ) * 2 ^ e) (n * 2 ^ f) := by
  rcases lt_trichotomy e f with less | rfl | more
  · rw [compare_lt_iff_lt.mpr less, compare_lt_iff_lt.mpr (left.lt_of_exponent_lt right less)]
    rfl
  · have scaled : StrictMono fun k : Nat => (k : ℚ) * 2 ^ e := by
      intro j k less
      exact mul_lt_mul_of_pos_right (Nat.cast_lt.mpr less) (two_zpow_pos e)
    have same := scaled.cmp_map_eq m n
    rw [cmp_eq_compare, cmp_eq_compare] at same
    rw [compare_eq_iff_eq.mpr rfl, same]
    rfl
  · rw [compare_gt_iff_gt.mpr more, compare_gt_iff_gt.mpr (right.lt_of_exponent_lt left more)]
    rfl

theorem compare_neg (p q : ℚ) : compare (-p) (-q) = (compare p q).swap := by
  have negated : StrictAnti fun r : ℚ => -r := fun _ _ less => neg_lt_neg less
  have reversed := negated.cmp_map_eq p q
  rw [← cmp_swap p q, cmp_eq_compare, cmp_eq_compare] at reversed
  exact reversed

theorem apply_positive_pos {m : Nat} (positive : 0 < m) (e : Int) :
    0 < (Sign.positive.apply m : ℚ) * 2 ^ e :=
  mul_pos (Int.cast_pos.mpr (Int.natCast_pos.mpr positive)) (two_zpow_pos e)

theorem apply_negative_neg {m : Nat} (positive : 0 < m) (e : Int) :
    (Sign.negative.apply m : ℚ) * 2 ^ e < 0 := by
  have size := apply_positive_pos positive e
  simp only [Sign.apply] at size ⊢
  push_cast at size ⊢
  linarith

/-- Finite doubles are compared by their values. -/
theorem compare_unpack {x y : Float} (left : x.isFinite = true) (right : y.isFinite = true) :
    UnpackedFloat.compare x.toModel.unpack y.toModel.unpack =
      some (compare (value x) (value y)) := by
  rcases (below_of_isFinite left).cases with ⟨s, first⟩ | ⟨s, m, e, positive, first, -⟩ <;>
    rcases (below_of_isFinite right).cases with ⟨t, second⟩ | ⟨t, n, f, above, second, -⟩
  · rw [first, second, value_of_zero first, value_of_zero second, compare_eq_iff_eq.mpr rfl]
    rfl
  · rw [first, second, value_of_zero first, value_of_finite second]
    cases t with
    | positive =>
      rw [compare_lt_iff_lt.mpr (apply_positive_pos above f)]
      rfl
    | negative =>
      rw [compare_gt_iff_gt.mpr (apply_negative_neg above f)]
      rfl
  · rw [first, second, value_of_finite first, value_of_zero second]
    cases s with
    | positive =>
      rw [compare_gt_iff_gt.mpr (apply_positive_pos positive e)]
      rfl
    | negative =>
      rw [compare_lt_iff_lt.mpr (apply_negative_neg positive e)]
      rfl
  · have ordered := compare_canonical (canonical_of_unpack first) (canonical_of_unpack second)
    rw [first, second, value_of_finite first, value_of_finite second]
    match s, t with
    | .positive, .positive =>
      simp only [Sign.apply, Int.cast_natCast]
      rw [← ordered]
      rfl
    | .negative, .negative =>
      simp only [Sign.apply, Int.cast_neg, Int.cast_natCast, neg_mul]
      rw [compare_neg, ← ordered]
      rfl
    | .positive, .negative =>
      have apart := (apply_negative_neg above f).trans (apply_positive_pos positive e)
      rw [compare_gt_iff_gt.mpr apart]
      rfl
    | .negative, .positive =>
      have apart := (apply_negative_neg positive e).trans (apply_positive_pos above f)
      rw [compare_lt_iff_lt.mpr apart]
      rfl

/-! ## Comparisons -/

section Comparisons

variable {x y : Float} (left : x.isFinite = true) (right : y.isFinite = true)
include left right

theorem lt_iff_value : x < y ↔ value x < value y := by
  change decide (UnpackedFloat.lt x.toModel.unpack y.toModel.unpack = true) = true ↔ _
  rw [decide_eq_true_iff, UnpackedFloat.lt, compare_unpack left right, beq_iff_eq,
    Option.some_inj, compare_lt_iff_lt]

theorem beq_iff_value : x.beq y = true ↔ value x = value y := by
  change UnpackedFloat.beq x.toModel.unpack y.toModel.unpack = true ↔ _
  rw [UnpackedFloat.beq, compare_unpack left right, beq_iff_eq, Option.some_inj,
    compare_eq_iff_eq]

end Comparisons

/-! ## Integers -/

theorem value_ofInt_zero : value (ofInt 0) = 0 :=
  value_of_zero (s := .positive) rfl

theorem value_ofModel_pack {s : Sign} {m : Nat} {e : Int} {positive : 0 < m}
    (canonical : Canonical m e) :
    value (Float.ofModel (Float.Model.pack (.finite s m e positive))) = s.apply m * 2 ^ e :=
  value_of_finite (unpack_pack canonical)

/-- An integer is rounded to the nearest number of 53 digits, whatever its sign. -/
theorem exists_value_ofInt {n : Nat} (positive : 0 < n) (narrow : n < 2 ^ 64) :
    ∃ r : Nat, 2 ^ 52 ≤ r ∧ r ≤ 2 ^ 53 ∧ Nearest (n / 2 ^ ((n.log2 : Int) - 52)) r ∧
      ∀ s : Sign, value (ofInt (s.apply n)) = s.apply r * 2 ^ ((n.log2 : Int) - 52) := by
  obtain ⟨m, e, double, wide, place, exact⟩ := ofInt_eq positive
  have few : n.log2 < 64 := (Nat.log2_lt (Nat.ne_of_gt positive)).mpr narrow
  have scaled : (m : ℚ) / 2 ^ (m.log2 - 52) = n / 2 ^ ((n.log2 : Int) - 52) := by
    have exponent : (n.log2 : Int) - 52 = ((m.log2 - 52 : Nat) : Int) + e := by omega
    rw [← exact, exponent, zpow_add₀ (by norm_num), zpow_natCast]
    field_simp
  have signed (s : Sign) : ∃ r : Nat, 2 ^ 52 ≤ r ∧ r ≤ 2 ^ 53 ∧
      Nearest (n / 2 ^ ((n.log2 : Int) - 52)) r ∧
      value (ofInt (s.apply n)) = s.apply r * 2 ^ ((n.log2 : Int) - 52) := by
    obtain ⟨r, nearest, rounded⟩ :=
      roundWithAccuracy_cases s (describes_exact m) wide (show -1074 ≤ m.log2 + e - 52 by omega)
    rw [scaled] at nearest
    rcases rounded with ⟨normal, above, finite⟩ | ⟨rfl, above, finite⟩
    · have range := (Nat.log2_eq_iff (Nat.ne_of_gt above)).mp normal
      refine ⟨r, range.1, range.2.le, nearest, ?_⟩
      rw [double, finite, value_ofModel_pack ⟨above, by unfold maxExponent; omega,
        .inl ⟨normal, by omega⟩⟩, place]
    · refine ⟨2 ^ 53, by norm_num, le_rfl, nearest, ?_⟩
      rw [double, finite, value_ofModel_pack ⟨above, by unfold maxExponent; omega,
        .inl ⟨Nat.log2_two_pow, by omega⟩⟩, place]
      rw [show (n.log2 : Int) - 51 = n.log2 - 52 + 1 by omega, zpow_add_one₀ (by norm_num)]
      cases s <;> simp only [Sign.apply] <;> push_cast <;> ring
  -- The nearest mantissa is the only one, so the two signs have the same.
  obtain ⟨r, low, high, nearest, -⟩ := signed .positive
  refine ⟨r, low, high, nearest, fun s => ?_⟩
  obtain ⟨k, -, -, other, same⟩ := signed s
  rw [same, nearest.unique other]

theorem value_ofInt_neg {n : Nat} (narrow : n < 2 ^ 64) :
    value (ofInt (-n)) = -value (ofInt n) := by
  rcases Nat.eq_zero_or_pos n with rfl | positive
  · rw [Int.natCast_zero, Int.neg_zero, value_ofInt_zero, neg_zero]
  · obtain ⟨r, -, -, -, rounded⟩ := exists_value_ofInt positive narrow
    have below := rounded .negative
    have above := rounded .positive
    simp only [Sign.apply] at below above
    rw [below, above, Int.cast_neg, neg_mul]

theorem value_ofInt_nonneg {n : Nat} (narrow : n < 2 ^ 64) : 0 ≤ value (ofInt n) := by
  rcases Nat.eq_zero_or_pos n with rfl | positive
  · exact value_ofInt_zero.ge
  · obtain ⟨r, -, -, -, rounded⟩ := exists_value_ofInt positive narrow
    have above := rounded .positive
    simp only [Sign.apply] at above
    rw [above]
    exact mul_nonneg (by exact_mod_cast Nat.zero_le r) (two_zpow_pos _).le

theorem Nearest.mono {t u : ℚ} {n k : Nat} (first : Nearest t n) (second : Nearest u k)
    (le : t ≤ u) : n ≤ k := by
  by_contra more
  have next : (k : ℚ) + 1 ≤ n := by exact_mod_cast Nat.not_le.mp more
  have low := first.1
  have high := second.2.1
  have same : t = u := by linarith
  subst same
  exact more (first.unique second).le

/-- A natural number that is not smaller is not rounded to a smaller double: with the same number of
digits the mantissas keep the order, and otherwise a power of two lies between the two. -/
theorem value_ofInt_natCast_mono {n k : Nat} (le : n ≤ k) (narrow : k < 2 ^ 64) :
    value (ofInt n) ≤ value (ofInt k) := by
  rcases Nat.eq_zero_or_pos n with rfl | positive
  · exact value_ofInt_zero.trans_le (value_ofInt_nonneg narrow)
  · obtain ⟨r, low, high, nearest, rounded⟩ := exists_value_ofInt positive (le.trans_lt narrow)
    obtain ⟨q, low', high', nearest', rounded'⟩ := exists_value_ofInt (positive.trans_le le) narrow
    have left := rounded .positive
    have right := rounded' .positive
    simp only [Sign.apply, Int.cast_natCast] at left right
    rw [left, right]
    have places : n.log2 ≤ k.log2 := by
      rw [Nat.le_log2 (by omega)]
      exact (Nat.log2_self_le (by omega)).trans le
    rcases Nat.lt_or_eq_of_le places with fewer | same
    · calc (r : ℚ) * 2 ^ ((n.log2 : Int) - 52) ≤ 2 ^ 53 * 2 ^ ((n.log2 : Int) - 52) := by
            gcongr
            exact_mod_cast high
        _ = 2 ^ 52 * 2 ^ ((n.log2 : Int) - 51) := by
          rw [show (n.log2 : Int) - 51 = n.log2 - 52 + 1 by omega, zpow_add_one₀ (by norm_num)]
          ring
        _ ≤ 2 ^ 52 * 2 ^ ((k.log2 : Int) - 52) :=
          mul_le_mul_of_nonneg_left (zpow_le_zpow_right₀ (by norm_num) (by omega)) (by norm_num)
        _ ≤ q * 2 ^ ((k.log2 : Int) - 52) := by
          gcongr
          exact_mod_cast low'
    · have unit := two_zpow_pos ((k.log2 : Int) - 52)
      rw [same] at nearest ⊢
      have ordered : r ≤ q := by
        refine nearest.mono nearest' ?_
        gcongr
      gcongr

/-- Conversion to doubles keeps the order of integers, though not strictly. -/
theorem value_ofInt_mono {a b : Int} (le : a ≤ b) (left : a.natAbs < 2 ^ 64)
    (right : b.natAbs < 2 ^ 64) : value (ofInt a) ≤ value (ofInt b) := by
  obtain ⟨n, rfl | rfl⟩ := a.eq_nat_or_neg <;> obtain ⟨k, rfl | rfl⟩ := b.eq_nat_or_neg <;>
    simp only [Int.natAbs_neg, Int.natAbs_natCast] at left right
  · exact value_ofInt_natCast_mono (by omega) right
  · obtain ⟨rfl, rfl⟩ : n = 0 ∧ k = 0 := by omega
    exact le_rfl
  · rw [value_ofInt_neg left]
    have low := value_ofInt_nonneg left
    have high := value_ofInt_nonneg right
    linarith
  · rw [value_ofInt_neg left, value_ofInt_neg right]
    exact neg_le_neg (value_ofInt_natCast_mono (by omega) left)

/-- Integers up to `2 ^ 53` in size are doubles. -/
theorem value_ofInt_exact {a : Int} (narrow : a.natAbs ≤ 2 ^ 53) : value (ofInt a) = a := by
  have natural {n : Nat} (narrow : n ≤ 2 ^ 53) : value (ofInt n) = n := by
    rcases Nat.eq_zero_or_pos n with rfl | positive
    · exact value_ofInt_zero
    · obtain ⟨k, g, number, -, same⟩ := isNormal_toFloat_exact positive narrow
      obtain ⟨above, unpacked⟩ := number.unpacked
      rw [← toFloat_toUInt64 (by omega), value_of_finite unpacked, ← same]
      rfl
  obtain ⟨n, rfl | rfl⟩ := a.eq_nat_or_neg
  · exact natural (by simpa using narrow)
  · rw [Int.natAbs_neg, Int.natAbs_natCast] at narrow
    rw [value_ofInt_neg (by omega), natural narrow]
    simp

end Linewise.Double
