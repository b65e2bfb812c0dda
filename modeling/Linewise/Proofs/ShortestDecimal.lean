import Linewise.Decimal.Shortest
import Linewise.Proofs.NearestDouble

/-! The shortest decimal of a double lies in its rounding interval. On a grid that is finer than the
interval is wide one of the two neighbours of the value is a hit, and the last of the grids that
are searched is finer; so the search ends with a hit of at most 17 digits, and dropping the zeros
at its end does not change it. -/
namespace Linewise.Decimal

/-- The value of a decimal. -/
def value (d : Decimal) : ℚ :=
  d.coefficient * 10 ^ d.exponent

theorem ten_zpow_pos (k : Int) : (0 : ℚ) < 10 ^ k :=
  zpow_pos (by norm_num) k

/-! ## Digits -/

theorem lt_pow_digitCount (n : Nat) : n < 10 ^ digitCount n :=
  (Nat.length_toDigits_le_iff (by decide) Nat.length_toDigits_pos).mp (Nat.le_refl _)

theorem pow_digitCount_le {n : Nat} (positive : 0 < n) : 10 ^ (digitCount n - 1) ≤ n := by
  by_contra larger
  by_cases single : digitCount n - 1 = 0
  · rw [single] at larger
    omega
  · have fewer := (Nat.length_toDigits_le_iff (by decide) (Nat.pos_of_ne_zero single)).mpr
      (Nat.lt_of_not_le larger)
    change digitCount n ≤ _ at fewer
    omega

/-- The first digit of a quotient stands at its leading exponent. -/
theorem leadingExponent_spec {n d : Nat} (positive : 0 < n) (divisor : 0 < d) :
    (10 : ℚ) ^ leadingExponent n d ≤ n / d ∧ (n / d : ℚ) < 10 ^ (leadingExponent n d + 1) := by
  have divisor' : (0 : ℚ) < d := by exact_mod_cast divisor
  unfold leadingExponent
  split
  · rename_i whole
    have low := pow_digitCount_le (Nat.div_pos whole divisor)
    have high := lt_pow_digitCount (n / d)
    have counted : 0 < digitCount (n / d) := Nat.length_toDigits_pos
    have exponent : (digitCount (n / d) : Int) - 1 = (digitCount (n / d) - 1 : Nat) := by omega
    constructor
    · rw [exponent, zpow_natCast, le_div_iff₀ divisor']
      exact_mod_cast (Nat.mul_le_mul_right d low).trans (Nat.div_mul_le_self n d)
    · rw [sub_add_cancel, zpow_natCast, div_lt_iff₀ divisor']
      exact_mod_cast (Nat.div_lt_iff_lt_mul divisor).mp high
  · rename_i proper
    have low := pow_digitCount_le (Nat.div_pos (Nat.le_of_not_le proper) positive)
    have high := lt_pow_digitCount (d / n)
    rw [Nat.le_div_iff_mul_le positive] at low
    rw [Nat.div_lt_iff_lt_mul positive] at high
    obtain ⟨j, counted⟩ : ∃ j, digitCount (d / n) = j + 1 :=
      Nat.exists_eq_succ_of_ne_zero (Nat.ne_of_gt Nat.length_toDigits_pos)
    rw [counted] at low high
    rw [Nat.add_sub_cancel] at low
    have low' : (10 : ℚ) ^ j * n ≤ d := by exact_mod_cast low
    have high' : (d : ℚ) < 10 ^ (j + 1) * n := by exact_mod_cast high
    have unit : (0 : ℚ) < 10 ^ j := by positivity
    simp only [counted, Nat.add_sub_cancel, Nat.pow_eq]
    split
    · rename_i power
      have power' : (d : ℚ) ≤ n * 10 ^ j := by exact_mod_cast power
      rw [show (1 : Int) - (j + 1 : Nat) = -(j : Nat) by omega, zpow_add_one₀ (by norm_num),
        zpow_neg, zpow_natCast]
      constructor
      · rw [le_div_iff₀ divisor', inv_mul_le_iff₀ unit]
        linarith
      · rw [div_lt_iff₀ divisor', mul_assoc, lt_inv_mul_iff₀ unit]
        linarith
    · rename_i above
      have above' : (n : ℚ) * 10 ^ j < d := by exact_mod_cast Nat.lt_of_not_le above
      rw [show -((j + 1 : Nat) : Int) + 1 = -(j : Nat) by omega, zpow_neg, zpow_neg, zpow_natCast,
        zpow_natCast]
      constructor
      · rw [le_div_iff₀ divisor', inv_mul_le_iff₀ (by positivity)]
        exact high'.le
      · rw [div_lt_iff₀ divisor', lt_inv_mul_iff₀ unit]
        linarith

/-! ## Grids -/

theorem ten_zpow_eq (k : Int) : (10 : ℚ) ^ k = 10 ^ k.toNat / 10 ^ (-k).toNat := by
  rw [← zpow_natCast, ← zpow_natCast, ← zpow_sub₀ (by norm_num)]
  congr 1
  omega

/-- Comparing a point of the grid of multiples of `10 ^ k` with a fraction is comparing natural
numbers. -/
theorem grid_le_iff {d : Nat} (positive : 0 < d) (a c : Nat) (k : Int) :
    (c : ℚ) * 10 ^ k ≤ a / d ↔ c * (d * 10 ^ k.toNat) ≤ a * 10 ^ (-k).toNat := by
  have positive' : (0 : ℚ) < d := by exact_mod_cast positive
  rw [ten_zpow_eq, ← mul_div_assoc, div_le_div_iff₀ (by positivity) positive', mul_assoc,
    mul_comm (10 ^ k.toNat : ℚ)]
  norm_cast

theorem le_grid_iff {d : Nat} (positive : 0 < d) (a c : Nat) (k : Int) :
    (a / d : ℚ) ≤ c * 10 ^ k ↔ a * 10 ^ (-k).toNat ≤ c * (d * 10 ^ k.toNat) := by
  have positive' : (0 : ℚ) < d := by exact_mod_cast positive
  rw [ten_zpow_eq, ← mul_div_assoc, div_le_div_iff₀ positive' (by positivity), mul_assoc,
    mul_comm (10 ^ k.toNat : ℚ)]
  norm_cast

theorem grid_lt_iff {d : Nat} (positive : 0 < d) (a c : Nat) (k : Int) :
    (c : ℚ) * 10 ^ k < a / d ↔ c * (d * 10 ^ k.toNat) < a * 10 ^ (-k).toNat := by
  rw [← not_le, le_grid_iff positive, Nat.not_le]

theorem lt_grid_iff {d : Nat} (positive : 0 < d) (a c : Nat) (k : Int) :
    (a / d : ℚ) < c * 10 ^ k ↔ a * 10 ^ (-k).toNat < c * (d * 10 ^ k.toNat) := by
  rw [← not_le, grid_le_iff positive, Nat.not_le]

namespace Interval

/-- A number between the ends of an interval. -/
def Contains (i : Interval) (q : ℚ) : Prop :=
  (i.low / i.denominator : ℚ) ≤ q ∧ q ≤ i.high / i.denominator ∧
    (i.closed = false → (i.low / i.denominator : ℚ) < q ∧ q < i.high / i.denominator)

/-- An interval around its value. -/
structure Proper (i : Interval) : Prop where
  denominator : 0 < i.denominator
  low : i.low < i.value
  high : i.value < i.high

variable {i : Interval} {tie : Tie} {k : Int} {c : Nat}

/-- The multiple of `10 ^ k` next below the value. -/
def below (i : Interval) (k : Int) : Nat :=
  i.value * 10 ^ (-k).toNat / (i.denominator * 10 ^ k.toNat)

theorem below_le (proper : i.Proper) (k : Int) :
    (i.below k : ℚ) * 10 ^ k ≤ i.value / i.denominator :=
  (grid_le_iff proper.denominator _ _ _).mpr (Nat.div_mul_le_self _ _)

theorem lt_below_succ (proper : i.Proper) (k : Int) :
    (i.value / i.denominator : ℚ) < (i.below k + 1 : Nat) * 10 ^ k := by
  refine (lt_grid_iff proper.denominator _ _ _).mpr ?_
  exact Nat.lt_mul_of_div_lt (Nat.lt_succ_self _)
    (Nat.mul_pos proper.denominator (Nat.pow_pos (by decide)))

theorem Proper.low_lt (proper : i.Proper) :
    (i.low / i.denominator : ℚ) < i.value / i.denominator := by
  have positive : (0 : ℚ) < i.denominator := by exact_mod_cast proper.denominator
  have order : (i.low : ℚ) < i.value := by exact_mod_cast proper.low
  gcongr

theorem Proper.lt_high (proper : i.Proper) :
    (i.value / i.denominator : ℚ) < i.high / i.denominator := by
  have positive : (0 : ℚ) < i.denominator := by exact_mod_cast proper.denominator
  have order : (i.value : ℚ) < i.high := by exact_mod_cast proper.high
  gcongr

/-- Of a number up to the value only the lower end matters. -/
theorem contains_below_iff (proper : i.Proper) (k : Int) :
    i.Contains (i.below k * 10 ^ k) ↔
      if i.closed then i.low * 10 ^ (-k).toNat ≤ i.below k * (i.denominator * 10 ^ k.toNat)
      else i.low * 10 ^ (-k).toNat < i.below k * (i.denominator * 10 ^ k.toNat) := by
  have high := (i.below_le proper k).trans_lt proper.lt_high
  rw [← le_grid_iff proper.denominator, ← lt_grid_iff proper.denominator]
  cases closed : i.closed with
  | true =>
    rw [if_pos rfl]
    refine ⟨fun contained => contained.1, fun low => ⟨low, high.le, fun apart => ?_⟩⟩
    cases closed.symm.trans apart
  | false =>
    rw [if_neg (by decide)]
    refine ⟨fun contained => (contained.2.2 closed).1, fun low => ?_⟩
    exact ⟨low.le, high.le, fun _ => ⟨low, high⟩⟩

/-- Of a number above the value only the upper end matters. -/
theorem contains_succ_iff (proper : i.Proper) (k : Int) :
    i.Contains ((i.below k + 1 : Nat) * 10 ^ k) ↔
      if i.closed then (i.below k + 1) * (i.denominator * 10 ^ k.toNat) ≤ i.high * 10 ^ (-k).toNat
      else (i.below k + 1) * (i.denominator * 10 ^ k.toNat) < i.high * 10 ^ (-k).toNat := by
  have low := proper.low_lt.trans (i.lt_below_succ proper k)
  rw [← grid_le_iff proper.denominator, ← grid_lt_iff proper.denominator]
  cases closed : i.closed with
  | true =>
    rw [if_pos rfl]
    refine ⟨fun contained => contained.2.1, fun high => ⟨low.le, high, fun apart => ?_⟩⟩
    cases closed.symm.trans apart
  | false =>
    rw [if_neg (by decide)]
    refine ⟨fun contained => (contained.2.2 closed).2, fun high => ?_⟩
    exact ⟨low.le, high.le, fun _ => ⟨low, high⟩⟩

/-- A grid is searched for the two neighbours of the value. -/
theorem gridPoint?_eq (proper : i.Proper) (tie : Tie) (k : Int) :
    (i.gridPoint? tie k = none ∧ ¬ i.Contains (i.below k * 10 ^ k) ∧
        ¬ i.Contains ((i.below k + 1 : Nat) * 10 ^ k)) ∨
      (i.gridPoint? tie k = some (i.below k) ∧ i.Contains (i.below k * 10 ^ k)) ∨
      (i.gridPoint? tie k = some (i.below k + 1) ∧
        i.Contains ((i.below k + 1 : Nat) * 10 ^ k)) := by
  unfold gridPoint?
  simp only [Nat.pow_eq]
  rw [show i.value * 10 ^ (-k).toNat / (i.denominator * 10 ^ k.toNat) = i.below k from rfl]
  by_cases low : i.Contains (i.below k * 10 ^ k)
  · have lowHit := (contains_below_iff proper k).mp low
    by_cases high : i.Contains ((i.below k + 1 : Nat) * 10 ^ k)
    · rw [if_pos ⟨lowHit, (contains_succ_iff proper k).mp high⟩]
      split
      · exact .inr (.inl ⟨rfl, low⟩)
      · split
        · exact .inr (.inr ⟨rfl, high⟩)
        · cases tie with
          | up => exact .inr (.inr ⟨rfl, high⟩)
          | even =>
            rcases Nat.mod_two_eq_zero_or_one (i.below k) with even | odd
            · exact .inr (.inl ⟨by simp [even], low⟩)
            · exact .inr (.inr ⟨by simp [odd], high⟩)
    · have highMiss := mt (contains_succ_iff proper k).mpr high
      rw [if_neg (fun both => highMiss both.2), if_pos lowHit]
      exact .inr (.inl ⟨rfl, low⟩)
  · have lowMiss := mt (contains_below_iff proper k).mpr low
    rw [if_neg (fun both => lowMiss both.1), if_neg lowMiss]
    by_cases high : i.Contains ((i.below k + 1 : Nat) * 10 ^ k)
    · rw [if_pos ((contains_succ_iff proper k).mp high)]
      exact .inr (.inr ⟨rfl, high⟩)
    · rw [if_neg (mt (contains_succ_iff proper k).mpr high)]
      exact .inl ⟨rfl, low, high⟩

/-- A hit lies in the interval, and not more than one grid unit above the value. -/
theorem contains_of_gridPoint? (proper : i.Proper) (found : i.gridPoint? tie k = some c) :
    i.Contains (c * 10 ^ k) ∧ (c = i.below k ∨ c = i.below k + 1) := by
  rcases i.gridPoint?_eq proper tie k with ⟨missed, -⟩ | ⟨hit, contained⟩ | ⟨hit, contained⟩
  · cases missed.symm.trans found
  · obtain rfl := Option.some.inj (hit.symm.trans found)
    exact ⟨contained, .inl rfl⟩
  · obtain rfl := Option.some.inj (hit.symm.trans found)
    exact ⟨contained, .inr rfl⟩

/-- A grid that is finer than the interval is wide has a hit. -/
theorem exists_gridPoint? (proper : i.Proper) (tie : Tie)
    (fine : (10 : ℚ) ^ k < i.high / i.denominator - i.low / i.denominator) :
    ∃ c, i.gridPoint? tie k = some c := by
  rcases i.gridPoint?_eq proper tie k with ⟨-, lower, upper⟩ | ⟨hit, -⟩ | ⟨hit, -⟩
  · exfalso
    -- Both neighbours are outside, so the interval lies between them.
    have down := (i.below_le proper k).trans_lt proper.lt_high
    have up := proper.low_lt.trans (i.lt_below_succ proper k)
    have least : (i.below k : ℚ) * 10 ^ k ≤ i.low / i.denominator := by
      by_contra above
      rw [not_le] at above
      exact lower ⟨above.le, down.le, fun _ => ⟨above, down⟩⟩
    have most : (i.high / i.denominator : ℚ) ≤ (i.below k + 1 : Nat) * 10 ^ k := by
      by_contra beneath
      rw [not_le] at beneath
      exact upper ⟨up.le, beneath.le, fun _ => ⟨up, beneath⟩⟩
    push_cast at most
    linarith
  · exact ⟨_, hit⟩
  · exact ⟨_, hit⟩

/-- The search ends with the first hit, if there is one on the last grid at the latest. -/
theorem search_eq {last : Nat} (hit : ∃ c, i.gridPoint? tie (k - last) = some c) :
    ∃ (j c : Nat), j ≤ last ∧ i.search tie k (last + 1) = ⟨c, k - j⟩ ∧
      i.gridPoint? tie (k - j) = some c := by
  induction last generalizing k with
  | zero =>
    obtain ⟨c, found⟩ := hit
    refine ⟨0, c, Nat.le_refl 0, ?_, found⟩
    simp only [Nat.cast_zero, sub_zero] at found ⊢
    rw [search, found]
  | succ last ih =>
    rw [search]
    cases found : i.gridPoint? tie k with
    | some c => exact ⟨0, c, Nat.zero_le _, by simp, by simpa using found⟩
    | none =>
      have later : k - 1 - (last : Int) = k - (last + 1 : Nat) := by omega
      obtain ⟨j, c, few, searched, found⟩ := ih (later ▸ hit)
      have same : k - 1 - (j : Int) = k - (j + 1 : Nat) := by omega
      rw [same] at searched found
      exact ⟨j + 1, c, by omega, searched, found⟩

/-! ## Doubles -/

theorem two_zpow_eq (e : Int) :
    ((2 ^ (e - 2).toNat : Nat) : ℚ) / (2 ^ (2 - e).toNat : Nat) = 2 ^ e / 4 := by
  push_cast
  rw [← zpow_natCast, ← zpow_natCast, ← zpow_sub₀ (by norm_num),
    show ((e - 2).toNat : Int) - (2 - e).toNat = e - (2 : Nat) by omega, zpow_sub₀ (by norm_num),
    zpow_natCast]
  norm_num

variable {m : Nat} {e : Int}

theorem value_ofBinary (m : Nat) (e : Int) :
    ((ofBinary m e).value / (ofBinary m e).denominator : ℚ) = m * 2 ^ e := by
  simp only [ofBinary, Nat.pow_eq]
  rw [Nat.cast_mul, mul_div_assoc, two_zpow_eq]
  push_cast
  ring

theorem high_ofBinary (m : Nat) (e : Int) :
    ((ofBinary m e).high / (ofBinary m e).denominator : ℚ) = (m + 1 / 2) * 2 ^ e := by
  simp only [ofBinary, Nat.pow_eq]
  rw [Nat.cast_mul, mul_div_assoc, two_zpow_eq]
  push_cast
  ring

theorem low_ofBinary (positive : 0 < m) (e : Int) :
    ((ofBinary m e).low / (ofBinary m e).denominator : ℚ) =
      (m - Double.lowerGap m e) * 2 ^ e := by
  have gap : (((if m = 2 ^ 52 ∧ -1074 < e then 1 else 2 : Nat)) : ℚ) = 4 * Double.lowerGap m e := by
    unfold Double.lowerGap
    split <;> norm_num
  simp only [ofBinary, Nat.pow_eq]
  rw [Nat.cast_mul, mul_div_assoc, two_zpow_eq, Nat.cast_sub (by split <;> omega), gap]
  push_cast
  ring

theorem proper_ofBinary (positive : 0 < m) (e : Int) : (ofBinary m e).Proper := by
  have scale : 0 < 2 ^ (e - 2).toNat := Nat.two_pow_pos _
  refine ⟨Nat.two_pow_pos _, ?_, ?_⟩
  · exact Nat.mul_lt_mul_of_pos_right (by split <;> omega) scale
  · exact Nat.mul_lt_mul_of_pos_right (by omega) scale

/-- What an interval contains is rounded to its double. -/
theorem Contains.rounds {q : ℚ} (positive : 0 < m) (contained : (ofBinary m e).Contains q) :
    Double.Rounds m e q := by
  obtain ⟨low, high, strict⟩ := contained
  rw [low_ofBinary positive, high_ofBinary] at strict
  rw [low_ofBinary positive] at low
  rw [high_ofBinary] at high
  refine ⟨low, high, fun odd => strict ?_⟩
  simp [ofBinary, odd]

/-- The last of 17 grids is finer than the interval is wide. -/
theorem fine_ofBinary (positive : 0 < m) (narrow : m < 2 ^ 53) {lead : Int}
    (first : (10 : ℚ) ^ lead ≤ m * 2 ^ e) :
    (10 : ℚ) ^ (lead - (16 : Nat)) < (ofBinary m e).high / (ofBinary m e).denominator -
      (ofBinary m e).low / (ofBinary m e).denominator := by
  have unit := Double.two_zpow_pos e
  rw [high_ofBinary, low_ofBinary positive, ← sub_mul, zpow_sub₀ (by norm_num), zpow_natCast,
    div_lt_iff₀ (by norm_num)]
  refine first.trans_lt ?_
  rw [mul_right_comm]
  refine mul_lt_mul_of_pos_right ?_ unit
  unfold Double.lowerGap
  split
  · rename_i power
    rw [power.1]
    norm_num
  · have : (m : ℚ) < 2 ^ 53 := by exact_mod_cast narrow
    linarith

end Interval

theorem strip_spec {d : Decimal} (nonzero : d.coefficient ≠ 0) :
    d.strip.value = d.value ∧ d.strip.coefficient % 10 ≠ 0 ∧
      d.strip.coefficient ≤ d.coefficient ∧ d.exponent ≤ d.strip.exponent := by
  fun_induction strip d with
  | case1 d zero => exact absurd zero nonzero
  | case2 d _ tens ih =>
    obtain ⟨same, last, fewer, raised⟩ := ih (by simp only; omega)
    refine ⟨same.trans ?_, last, fewer.trans (Nat.div_le_self _ _), by simp only at raised; omega⟩
    have parts : (d.coefficient : ℚ) = 10 * (d.coefficient / 10 : Nat) := by
      exact_mod_cast (by omega : d.coefficient = 10 * (d.coefficient / 10))
    simp only [value]
    rw [parts, zpow_add_one₀ (by norm_num)]
    ring
  | case3 d _ last => exact ⟨rfl, last, Nat.le_refl _, Int.le_refl _⟩

/-- The shortest decimal of a double has at most 17 digits, lies in the rounding interval of the
double and is at most one unit of its last digit above it. -/
theorem shortest_spec {m : Nat} {e : Int} (positive : 0 < m) (narrow : m < 2 ^ 53) (tie : Tie) :
    0 < (shortest tie m e).coefficient ∧ (shortest tie m e).coefficient < 10 ^ 17 ∧
      Double.Rounds m e (shortest tie m e).value ∧
      (shortest tie m e).value ≤ m * 2 ^ e + 10 ^ (shortest tie m e).exponent := by
  have proper := Interval.proper_ofBinary positive e
  obtain ⟨first, next⟩ :=
    leadingExponent_spec (Nat.zero_lt_of_lt proper.low) proper.denominator
  rw [shortest]
  generalize
    leadingExponent (Interval.ofBinary m e).value (Interval.ofBinary m e).denominator = lead at *
  rw [Interval.value_ofBinary] at first next
  obtain ⟨j, c, few, searched, found⟩ := Interval.search_eq
    (Interval.exists_gridPoint? proper tie (Interval.fine_ofBinary positive narrow first))
  obtain ⟨contained, neighbour⟩ := Interval.contains_of_gridPoint? proper found
  have unit := ten_zpow_pos (lead - j)
  have power : (10 : ℚ) ^ lead = 10 ^ j * 10 ^ (lead - j) := by
    rw [← zpow_natCast, ← zpow_add₀ (by norm_num), add_sub_cancel]
  have down := (Interval.ofBinary m e).below_le proper (lead - j)
  have up := (Interval.ofBinary m e).lt_below_succ proper (lead - j)
  rw [Interval.value_ofBinary] at down up
  generalize (Interval.ofBinary m e).below (lead - j) = below at *
  have some : 0 < below := by
    have many : (1 : ℚ) ≤ 10 ^ j := one_le_pow₀ (by norm_num)
    have : (1 : ℚ) < (below + 1 : Nat) := by
      refine lt_of_mul_lt_mul_right (lt_of_le_of_lt ?_ up) unit.le
      exact (mul_le_mul_of_nonneg_right many unit.le).trans (power ▸ first)
    norm_cast at this
    omega
  have short : below < 10 ^ 17 := by
    have : (below : ℚ) < 10 ^ (j + 1) := by
      refine lt_of_mul_lt_mul_right (down.trans_lt (next.trans_le ?_)) unit.le
      rw [zpow_add_one₀ (by norm_num), power, pow_succ]
      linarith
    norm_cast at this
    exact this.trans_le (Nat.pow_le_pow_right (by decide) (by omega))
  have nonzero : c ≠ 0 := by omega
  obtain ⟨same, last, fewer, raised⟩ := @strip_spec ⟨c, lead - j⟩ nonzero
  have close : (c : ℚ) * 10 ^ (lead - j) ≤ m * 2 ^ e + 10 ^ (lead - j) := by
    have : (c : ℚ) ≤ below + 1 := by exact_mod_cast (by omega : c ≤ below + 1)
    linarith [mul_le_mul_of_nonneg_right this unit.le]
  simp only [searched]
  refine ⟨by omega, by simp only at fewer; omega, ?_, ?_⟩
  · rw [same]
    exact contained.rounds positive
  · rw [same]
    refine close.trans (add_le_add_right ?_ _)
    exact zpow_le_zpow_right₀ (by norm_num) raised

end Linewise.Decimal
