import Linewise.Document.State
import Linewise.Proofs.FiniteValues

/-! Documents hold finite doubles only. A number that is scaled down is divided by powers of ten,
one that is scaled up is refused if it becomes an infinity, so every variable that is read holds a
finite value, whatever the document is. -/
namespace Linewise.Document
open Float.Model Float.Model.UnpackedFloat

/-! ## Powers of ten -/

/-- Beyond the powers of ten that are exact, the double is a product that is rounded once. -/
theorem powerOfTen_eq {n : Nat} (large : 22 < n) (small : n ≤ maxPower) :
    powerOfTen n = Float.ofModel (Float.Model.pack
      (roundWithAccuracy Format.binary64 .positive (1 <<< 53 * 10 ^ n) (-53) .exact)) := by
  unfold maxPower at small
  have scientific : UnpackedFloat.ofScientific Format.binary64 1 (Int.ofNat n) =
      roundWithAccuracy Format.binary64 .positive (1 <<< 53 * 10 ^ n) (-53) .exact := by
    have bounded : ¬ Int.ofNat n > 2 ^ Format.binary64.exponentBits := by
      simp
      omega
    have notTiny : ¬ Int.ofNat n < -((2 ^ Format.binary64.exponentBits : Int) + Nat.log2 1) := by
      simp
      omega
    unfold UnpackedFloat.ofScientific
    rw [dif_neg (by decide), if_neg bounded, if_neg notTiny,
      if_pos (show 0 ≤ Int.ofNat n from Int.natCast_nonneg n)]
    rfl
  unfold powerOfTen Float.ofScientific
  rw [dif_neg (by omega)]
  simp only [Float.Model.ofScientific, ← scientific, Bool.false_eq_true, if_false]

theorem scaled_power_lt {n k : Nat} (small : n ≤ 3 * k) :
    1 <<< 53 * 10 ^ n < 2 ^ (53 + 10 * k + 1) :=
  calc 1 <<< 53 * 10 ^ n ≤ 2 ^ 53 * 10 ^ (3 * k) :=
        Nat.mul_le_mul (by decide) (Nat.pow_le_pow_right (by decide) small)
    _ = 2 ^ 53 * (10 ^ 3) ^ k := by rw [Nat.pow_mul]
    _ ≤ 2 ^ 53 * (2 ^ 10) ^ k := Nat.mul_le_mul_left _ (Nat.pow_le_pow_left (by decide) k)
    _ = 2 ^ (53 + 10 * k) := by rw [← Nat.pow_mul, ← Nat.pow_add]
    _ < 2 ^ (53 + 10 * k + 1) := Nat.pow_lt_pow_right (by decide) (Nat.lt_succ_self _)

theorem scaled_power_bounds {n k : Nat} (positive : 0 < n) (small : n ≤ 3 * k) :
    56 ≤ (1 <<< 53 * 10 ^ n).log2 ∧ (1 <<< 53 * 10 ^ n).log2 < 53 + 10 * k + 1 := by
  have low : 2 ^ 56 ≤ 1 <<< 53 * 10 ^ n := by
    have power : 10 ^ 1 ≤ 10 ^ n := Nat.pow_le_pow_right (by decide) positive
    omega
  have nonzero : 1 <<< 53 * 10 ^ n ≠ 0 := by omega
  exact ⟨(Nat.le_log2 nonzero).mpr low, (Nat.log2_lt nonzero).mpr (scaled_power_lt small)⟩

/-- Every power of ten from the first on that is a double is at least eight. The exact ones and
those near the end of the range are computed. -/
theorem atLeastEight_powerOfTen {n : Nat} (positive : 0 < n) (small : n ≤ maxPower) :
    Double.atLeastEight (powerOfTen n) = true := by
  have exact : ∀ k ≤ 22, 0 < k → Double.atLeastEight (powerOfTen k) = true := by decide +kernel
  have large : ∀ k ≤ 8, Double.atLeastEight (powerOfTen (300 + k)) = true := by decide +kernel
  by_cases few : n ≤ 22
  · exact exact n few positive
  · by_cases many : 300 ≤ n
    · have last := large (n - 300) (by unfold maxPower at small; omega)
      rwa [Nat.add_sub_cancel' many] at last
    · obtain ⟨low, high⟩ := scaled_power_bounds positive (show n ≤ 3 * 100 by omega)
      rw [powerOfTen_eq (Nat.lt_of_not_le few) small]
      exact Double.atLeastEight_round _ (by omega) (by omega)
        (by unfold Double.maxExponent; omega) _

theorem powerOfTen_isFinite {n : Nat} (small : n ≤ maxPower) :
    (powerOfTen n).isFinite = true := by
  rcases Nat.eq_zero_or_pos n with rfl | positive
  · decide +kernel
  · exact Double.isFinite_of_atLeastEight (atLeastEight_powerOfTen positive small)

/-! ## Numbers -/

/-- A number that is an integer or a finite double. -/
def Numeric.IsFinite (n : Numeric) : Prop :=
  ∀ x, n = .double x → x.isFinite = true

theorem Numeric.isFinite_double {x : Float} : (Numeric.double x).IsFinite ↔ x.isFinite = true := by
  simp [Numeric.IsFinite]

theorem scaleDown_isFinite {x : Float} {n : Nat} (finite : x.isFinite = true) (positive : 0 < n) :
    (scaleDown x n).isFinite = true := by
  fun_induction scaleDown x n with
  | case1 x n small => exact Double.isFinite_div finite (atLeastEight_powerOfTen positive small)
  | case2 x n _ _ => exact finite
  | case3 x n large _ ih =>
    have largest : Double.atLeastEight (powerOfTen maxPower) = true :=
      atLeastEight_powerOfTen (by decide) (Nat.le_refl _)
    exact ih (Double.isFinite_div finite largest) (by omega)

theorem magnitude?_isFinite {significand : Nat} {scale : Int} {x : Float}
    (found : magnitude? significand scale = some x) : x.isFinite = true := by
  have start := Double.isFinite_toFloat significand.toUInt64
  unfold magnitude? at found
  simp only at found
  split at found
  · obtain rfl := Option.some.inj found
    exact scaleDown_isFinite start (by omega)
  · split at found
    · rename_i nonnegative small
      split at found
      · cases found
      · rename_i bounded
        obtain rfl := Option.some.inj found
        exact Double.isFinite_mul start (powerOfTen_isFinite small) (by simpa using bounded)
    · split at found
      · obtain rfl := Option.some.inj found
        exact start
      · cases found

theorem double_isFinite {positive : Bool} {significand : Nat} {scale : Int}
    {text rest : List Char} {n : Numeric}
    (read : double positive significand scale text = .ok (n, rest)) : n.IsFinite := by
  unfold double at read
  split at read
  · rename_i x found
    obtain ⟨rfl, -⟩ := Prod.mk.inj (Except.ok.inj read)
    have finite := magnitude?_isFinite found
    refine Numeric.isFinite_double.mpr ?_
    split
    · exact finite
    · exact Double.isFinite_neg finite
  · cases read

theorem exponentDigits_isFinite {positive raises : Bool} {significand : Nat} {scale : Int}
    {text rest : List Char} {n : Numeric}
    (read : exponentDigits positive significand scale raises text = .ok (n, rest)) :
    n.IsFinite := by
  unfold exponentDigits at read
  split at read
  · cases read
  · split at read
    · simp only at read
      split at read
      · split at read
        · cases read
        · obtain ⟨rfl, -⟩ := Prod.mk.inj (Except.ok.inj read)
          refine Numeric.isFinite_double.mpr ?_
          cases positive <;> decide +kernel
      · exact double_isFinite read
    · cases read

theorem exponent_isFinite {positive : Bool} {significand : Nat} {scale : Int}
    {text rest : List Char} {n : Numeric}
    (read : exponent positive significand scale text = .ok (n, rest)) : n.IsFinite := by
  unfold exponent at read
  split at read <;> exact exponentDigits_isFinite read

theorem scaled_isFinite {positive : Bool} {significand : Nat} {scale : Int}
    {text rest : List Char} {n : Numeric}
    (read : scaled positive significand scale text = .ok (n, rest)) : n.IsFinite := by
  unfold scaled at read
  split at read
  · exact exponent_isFinite read
  · exact exponent_isFinite read
  · exact double_isFinite read

theorem fraction_isFinite {positive : Bool} {significand : Nat} {scale : Int}
    {text rest : List Char} {n : Numeric}
    (read : fraction positive significand scale text = .ok (n, rest)) : n.IsFinite := by
  unfold fraction at read
  simp only at read
  split at read
  · exact scaled_isFinite read
  · split at read
    · split at read <;> cases read
    · exact scaled_isFinite read

theorem whole_isFinite (positive : Bool) (significand : Nat) :
    (whole positive significand).IsFinite := by
  unfold whole
  split
  · simp [Numeric.IsFinite]
  · split
    · exact Numeric.isFinite_double.mpr (Double.isFinite_neg (Double.isFinite_toFloat _))
    · simp [Numeric.IsFinite]

theorem afterInteger_isFinite {positive : Bool} {significand : Nat} {text rest : List Char}
    {n : Numeric} (read : afterInteger positive significand text = .ok (n, rest)) :
    n.IsFinite := by
  unfold afterInteger at read
  split at read
  · exact fraction_isFinite read
  · exact exponent_isFinite read
  · exact exponent_isFinite read
  · obtain ⟨rfl, -⟩ := Prod.mk.inj (Except.ok.inj read)
    exact whole_isFinite positive significand

theorem afterLongInteger_isFinite {positive : Bool} {significand : Nat} {text rest : List Char}
    {n : Numeric} (read : afterLongInteger positive significand text = .ok (n, rest)) :
    n.IsFinite := by
  unfold afterLongInteger at read
  simp only at read
  split at read
  · exact fraction_isFinite read
  · exact scaled_isFinite read

/-- Every number that is read is an integer or a finite double. -/
theorem number_isFinite {positive : Bool} {text rest : List Char} {n : Numeric}
    (read : number positive text = .ok (n, rest)) : n.IsFinite := by
  unfold number at read
  split at read
  · cases read
  · split at read
    · cases read
    · exact afterInteger_isFinite read
  · split at read
    · simp only at read
      split at read
      · exact afterLongInteger_isFinite read
      · exact afterInteger_isFinite read
    · cases read

theorem Numeric.isFinite_value {n : Numeric} (finite : n.IsFinite) : n.value.IsFinite := by
  cases n with
  | natural n =>
    unfold Numeric.value
    simp only
    split
    · simp
    · exact Value.isFinite_float.mpr (Double.isFinite_toFloat _)
  | negative n => simp [Numeric.value]
  | double x => exact Value.isFinite_float.mpr (Numeric.isFinite_double.mp finite)

/-! ## Documents -/

theorem numberValue_isFinite {positive : Bool} {text rest : List Char} {v : Value}
    (read : numberValue positive text = .ok (v, rest)) : v.IsFinite := by
  unfold numberValue at read
  split at read
  · rename_i number
    obtain ⟨rfl, -⟩ := Prod.mk.inj (Except.ok.inj read)
    exact Numeric.isFinite_value (number_isFinite number)
  · cases read

theorem wordValue_eq {expected text rest : List Char} {v w : Value}
    (read : wordValue expected v text = .ok (w, rest)) : w = v := by
  unfold wordValue at read
  split at read
  · exact (Prod.mk.inj (Except.ok.inj read)).1.symm
  · cases read

/-- Every scalar that is read is finite. -/
theorem scalar_isFinite {text rest : List Char} {v : Value}
    (read : scalar.run text = .ok (v, rest)) : v.IsFinite := by
  change runScalar text = _ at read
  unfold runScalar at read
  split at read
  · cases read
  · rw [wordValue_eq read]
    simp
  · rw [wordValue_eq read]
    simp
  · split at read
    · obtain ⟨rfl, -⟩ := Prod.mk.inj (Except.ok.inj read)
      simp
    · cases read
  · exact numberValue_isFinite read
  · split at read
    · exact numberValue_isFinite read
    · split at read
      · exact (noScalar_ne_ok read).elim
      · cases read

theorem Reader.members_forall {α : Type} {item : Reader α} {P : α → Prop}
    (each : ∀ {text rest : List Char} {a : α}, item.run text = .ok (a, rest) → P a)
    {first : Bool} {sofar result : List (String × α)} {text rest : List Char}
    (before : ∀ e ∈ sofar, P e.2) (read : item.members first sofar text = .ok (result, rest)) :
    ∀ e ∈ result, P e.2 := by
  fun_induction Reader.members item first sofar text with
  | case1 => cases read
  | case2 =>
    obtain ⟨rfl, -⟩ := Prod.mk.inj (Except.ok.inj read)
    simpa using before
  | case3 => cases read
  | case4 => cases read
  | case5 _ _ _ _ _ _ _ _ a _ ran _ _ _ ih =>
    refine ih ?_ read
    intro e member
    rcases List.mem_cons.mp member with rfl | earlier
    · exact each ran
    · exact before e earlier

theorem Reader.map_forall {α : Type} {item : Reader α} {P : α → Prop}
    (each : ∀ {text rest : List Char} {a : α}, item.run text = .ok (a, rest) → P a)
    {text rest : List Char} {t : Table α} (read : item.map.run text = .ok (t, rest)) :
    ∀ e ∈ t.entries, P e.2 := by
  change item.runMap text = _ at read
  unfold Reader.runMap at read
  split at read
  · cases read
  · split at read
    · split at read
      · rename_i members
        obtain ⟨rfl, -⟩ := Prod.mk.inj (Except.ok.inj read)
        intro e member
        exact Reader.members_forall each (by simp) members e (Table.mem_of_mem_ofList member)
      · cases read
    · cases read

/-- The sections read so far hold finite values only. -/
def Draft.IsFinite (d : Draft) : Prop :=
  ∀ t, d.variables = some t → ∀ e ∈ t.entries, e.2.IsFinite

namespace Draft

theorem fill_isFinite {d e : Draft} {s : Section} {text rest : List Char} (before : d.IsFinite)
    (read : d.fill s text = .ok (e, rest)) : e.IsFinite := by
  cases s <;> simp only [fill, put] at read <;> split at read
  · rename_i values
    obtain ⟨rfl, -⟩ := Prod.mk.inj (Except.ok.inj read)
    intro t same
    obtain rfl := Option.some.inj same
    exact Reader.map_forall scalar_isFinite values
  · cases read
  · obtain ⟨rfl, -⟩ := Prod.mk.inj (Except.ok.inj read)
    exact before
  · cases read
  · obtain ⟨rfl, -⟩ := Prod.mk.inj (Except.ok.inj read)
    exact before
  · cases read
  · obtain ⟨rfl, -⟩ := Prod.mk.inj (Except.ok.inj read)
    exact before
  · cases read

theorem member_isFinite {d e : Draft} {key : String} {text rest : List Char}
    (before : d.IsFinite) (read : d.member key text = .ok (e, rest)) : e.IsFinite := by
  unfold Draft.member at read
  split at read
  · unfold known at read
    split at read
    · cases read
    · split at read
      · exact fill_isFinite before read
      · cases read
  · split at read
    · obtain ⟨rfl, -⟩ := Prod.mk.inj (Except.ok.inj read)
      exact before
    · cases read

theorem members_isFinite {d e : Draft} {first : Bool} {text rest : List Char}
    (before : d.IsFinite) (read : d.members first text = .ok (e, rest)) : e.IsFinite := by
  fun_induction Draft.members d first text with
  | case1 => cases read
  | case2 =>
    obtain ⟨rfl, -⟩ := Prod.mk.inj (Except.ok.inj read)
    exact before
  | case3 => cases read
  | case4 _ _ _ _ _ _ _ _ ran _ _ ih => exact ih (member_isFinite before ran) read

theorem sections_isFinite {d e : Draft} {first : Bool} {order : List Section}
    {text rest : List Char} (before : d.IsFinite)
    (read : d.sections first order text = .ok (e, rest)) : e.IsFinite := by
  induction order generalizing d first text with
  | nil =>
    rw [sections] at read
    split at read
    · obtain ⟨rfl, -⟩ := Prod.mk.inj (Except.ok.inj read)
      exact before
    · cases read
  | cons s more ih =>
    rw [sections] at read
    split at read
    · cases read
    · obtain ⟨rfl, -⟩ := Prod.mk.inj (Except.ok.inj read)
      exact before
    · split at read
      · cases read
      · rename_i filled
        exact ih (fill_isFinite before filled) read

end Draft

/-- Every variable of a document holds a finite value. -/
theorem read_isFinite {text : String} {s : Store} (done : read text = .ok s) :
    ∀ e ∈ s.variables.entries, e.2.IsFinite := by
  have empty : Draft.IsFinite {} := by simp [Draft.IsFinite]
  unfold read at done
  split at done
  · cases done
  · rename_i d rest drafted
    split at done
    · obtain rfl := Except.ok.inj done
      have finite : d.IsFinite := by
        unfold draft at drafted
        split at drafted
        · cases drafted
        · exact Draft.members_isFinite empty drafted
        · exact Draft.sections_isFinite empty drafted
        · cases drafted
      intro e member
      unfold Draft.store at member
      cases found : d.variables with
      | none => simp [found, Table.empty] at member
      | some t => exact finite t found e (by simpa [found] using member)
    · cases done

end Linewise.Document
