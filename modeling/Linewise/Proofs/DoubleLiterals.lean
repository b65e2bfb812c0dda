import Linewise.Proofs.FiniteStates
import Linewise.Proofs.ShortestDecimal

/-! The text of a double as it is read: its digits make the significand, and the point and the
exponent make the scale. Both forms of the layout give back the decimal they were made of, except
that an integral number is written with a zero behind the point, which counts as a digit. -/
namespace Linewise.Document

/-! ## Digits -/

variable {c : Char} {before after rest : List Char} {significand : Nat} {scale : Int}

/-- The digits before a point or an exponent. Only a single one of them may begin with zero. -/
theorem number_digits (positive : Bool) (digital : ∀ d ∈ c :: before, d.isDigit = true)
    (lead : c ≠ '0' ∨ before = []) (ended : startsWithDigit rest = false)
    (fits : Nat.ofDigitChars 10 (c :: before) 0 ≤ maxSignificand) :
    number positive (c :: before ++ rest) =
      afterInteger positive (Nat.ofDigitChars 10 (c :: before) 0) rest := by
  have gathered := gather_digits digital ended fits
  have first := digital c List.mem_cons_self
  rw [List.cons_append] at gathered ⊢
  unfold number
  split
  · rename_i empty
    cases empty
  · rename_i start
    obtain ⟨rfl, rfl⟩ := List.cons.inj start
    rcases lead with nonzero | rfl
    · exact absurd rfl nonzero
    · simp [ended, Nat.ofDigitChars_cons]
  · rename_i start
    obtain ⟨rfl, rfl⟩ := List.cons.inj start
    simp [first, gathered, ended]

/-- The digits behind a point lower the scale. -/
theorem fraction_digits (positive : Bool) (some : after ≠ [])
    (digital : ∀ d ∈ after, d.isDigit = true) (ended : startsWithDigit rest = false)
    (fits : Nat.ofDigitChars 10 after significand ≤ maxSignificand) :
    fraction positive significand scale (after ++ rest) =
      scaled positive (Nat.ofDigitChars 10 after significand) (scale - after.length) rest := by
  have longer : rest.length ≠ (after ++ rest).length := by
    have := List.length_pos_iff.mpr some
    rw [List.length_append]
    omega
  have count : (after ++ rest).length - rest.length = after.length := by simp
  unfold fraction
  rw [gather_digits digital ended fits]
  simp only
  rw [if_neg (by simp [ended]), if_neg longer, count]

/-- Digits on both sides of a point make one significand. -/
theorem number_point (positive : Bool) (digital : ∀ d ∈ c :: before ++ after, d.isDigit = true)
    (lead : c ≠ '0' ∨ before = []) (some : after ≠ []) (ended : startsWithDigit rest = false)
    (fits : Nat.ofDigitChars 10 (c :: before ++ after) 0 ≤ maxSignificand) :
    number positive (c :: before ++ '.' :: (after ++ rest)) =
      scaled positive (Nat.ofDigitChars 10 (c :: before ++ after) 0) (-after.length) rest := by
  rw [Nat.ofDigitChars_append] at fits ⊢
  rw [number_digits positive (fun d member => digital d (List.mem_append_left _ member)) lead rfl
    ((le_ofDigitChars after _).trans fits)]
  rw [← zero_sub]
  exact fraction_digits positive some
    (fun d member => digital d (List.mem_append_right _ member)) ended fits

/-- The text of an exponent is added to the scale. -/
theorem exponent_text (positive : Bool) {n : Int} (small : n.natAbs ≤ maxScale)
    (ended : startsWithDigit rest = false) :
    exponent positive significand scale (Decimal.exponentText true n ++ rest) =
      double positive significand (scale + n) rest := by
  have digital : ∀ d ∈ Nat.toDigits 10 n.natAbs, d.isDigit = true := fun d =>
    Nat.isDigit_of_mem_toDigits (by decide) (by decide)
  have gathered : gather maxScale 0 (Nat.toDigits 10 n.natAbs ++ rest) = (n.natAbs, rest) := by
    rw [gather_digits digital ended (by simpa using small), Nat.ofDigitChars_ten_toDigits]
  have read (raises : Bool) : exponentDigits positive significand scale raises
      (Nat.toDigits 10 n.natAbs ++ rest) = double positive significand
        (if raises then scale + n.natAbs else scale - n.natAbs) rest := by
    obtain ⟨c, more, digits⟩ := List.exists_cons_of_ne_nil (@Nat.toDigits_ne_nil n.natAbs 10)
    have first := digital c (by simp [digits])
    rw [digits, List.cons_append] at gathered ⊢
    simp [exponentDigits, first, gathered, ended]
  unfold Decimal.exponentText
  simp only
  split
  · rename_i negative
    rw [show scale + n = scale - n.natAbs by omega]
    exact read false
  · rename_i natural
    rw [if_pos trivial, show scale + n = scale + n.natAbs by omega]
    exact read true

/-! ## Decimals -/

/-- The decimal that the text of a decimal is read as. An integral number in positional form gets a
zero behind its point; every other text has the digits of the decimal only. -/
def spelled (d : Decimal) : Decimal :=
  if floatLayout.positional d.leading ∧ 0 ≤ d.exponent then
    ⟨d.coefficient * 10 ^ (d.exponent.toNat + 1), -1⟩
  else d

theorem value_spelled (d : Decimal) : (spelled d).value = d.value := by
  unfold spelled
  split
  · rename_i integral
    obtain ⟨n, whole⟩ := Int.eq_ofNat_of_zero_le integral.2
    simp only [Decimal.value, whole, Int.toNat_natCast]
    push_cast
    rw [pow_succ, zpow_natCast, zpow_neg_one]
    field_simp
  · rfl

variable {d : Decimal}

theorem isDigit_digits (d : Decimal) : ∀ c ∈ d.digits, c.isDigit = true := fun _ =>
  Nat.isDigit_of_mem_toDigits (by decide) (by decide)

theorem ofDigitChars_digits (d : Decimal) : Nat.ofDigitChars 10 d.digits 0 = d.coefficient :=
  Nat.ofDigitChars_ten_toDigits

theorem isDigit_zeros (n : Nat) : ∀ c ∈ List.replicate n '0', c.isDigit = true := by
  intro c member
  rw [List.eq_of_mem_replicate member]
  rfl

/-- An integral number in positional form. -/
theorem number_plain_integral (positive : Bool) (some : 0 < d.coefficient)
    (integral : 0 ≤ d.exponent)
    (fits : d.coefficient * 10 ^ (d.exponent.toNat + 1) ≤ maxSignificand) (ended : Ends rest) :
    number positive (d.plain ++ rest) =
      double positive (d.coefficient * 10 ^ (d.exponent.toNat + 1)) (-1) rest := by
  obtain ⟨c, more, digits, -, nonzero⟩ := toDigits_eq_cons some
  change d.digits = c :: more at digits
  have all : c :: (more ++ List.replicate d.exponent.toNat '0') ++ ['0'] =
      d.digits ++ List.replicate (d.exponent.toNat + 1) '0' := by
    simp [digits, List.replicate_succ']
  have value : Nat.ofDigitChars 10 (d.digits ++ List.replicate (d.exponent.toNat + 1) '0') 0 =
      d.coefficient * 10 ^ (d.exponent.toNat + 1) := by
    rw [Nat.ofDigitChars_append, ofDigitChars_digits, Nat.ofDigitChars_replicate_zero, Nat.mul_comm]
  have digital : ∀ x ∈ d.digits ++ List.replicate (d.exponent.toNat + 1) '0', x.isDigit = true := by
    intro x member
    exact (List.mem_append.mp member).elim (isDigit_digits d x) (isDigit_zeros _ x)
  have text : d.plain ++ rest =
      c :: (more ++ List.replicate d.exponent.toNat '0') ++ '.' :: (['0'] ++ rest) := by
    simp [Decimal.plain, integral, digits]
  rw [← all] at value digital
  rw [text, number_point positive digital (.inl nonzero) (by simp) ended.startsWithDigit
    (value ▸ fits), value, ended.scaled]
  rfl

/-- The digits of a decimal with a point among them. -/
theorem number_split (positive : Bool) (some : 0 < d.coefficient)
    (fits : d.coefficient ≤ maxSignificand) (split : d.digits = before ++ after)
    (first : before ≠ []) (second : after ≠ []) (ended : startsWithDigit rest = false) :
    number positive (before ++ '.' :: (after ++ rest)) =
      scaled positive d.coefficient (-after.length) rest := by
  have value := ofDigitChars_digits d
  have digital := isDigit_digits d
  obtain ⟨c, more, digits, -, nonzero⟩ := toDigits_eq_cons some
  change d.digits = c :: more at digits
  cases before with
  | nil => exact absurd rfl first
  | cons head tail =>
    obtain rfl : head = c := by
      rw [digits, List.cons_append] at split
      exact (List.cons.inj split).1.symm
    rw [split] at value digital
    rw [number_point positive digital (.inl nonzero) second ended (value ▸ fits), value]

/-- A number with a point before its last digits, or with zeros between the point and them. -/
theorem number_plain_fraction (positive : Bool) (some : 0 < d.coefficient)
    (fraction : d.exponent < 0) (fits : d.coefficient ≤ maxSignificand) (ended : Ends rest) :
    number positive (d.plain ++ rest) = double positive d.coefficient d.exponent rest := by
  obtain ⟨places, exponent⟩ : ∃ places : Nat, d.exponent = -places := ⟨d.exponent.natAbs, by omega⟩
  have point : (-d.exponent).toNat = places := by omega
  unfold Decimal.plain
  rw [if_neg (by omega)]
  simp only [point]
  split
  · have behind : (d.digits.drop (d.digits.length - places)).length = places := by
      rw [List.length_drop]
      omega
    have ahead : (d.digits.take (d.digits.length - places)).length = d.digits.length - places := by
      rw [List.length_take]
      omega
    rw [List.append_assoc, List.cons_append, number_split positive some fits
      (List.take_append_drop _ _).symm (List.length_pos_iff.mp (by omega))
      (List.length_pos_iff.mp (by omega)) ended.startsWithDigit, behind, ended.scaled, exponent]
  · have value : Nat.ofDigitChars 10 (['0'] ++ (List.replicate (places - d.digits.length) '0' ++
        d.digits)) 0 = d.coefficient := by
      rw [Nat.ofDigitChars_append, Nat.ofDigitChars_append, Nat.ofDigitChars_replicate_zero]
      simpa [Nat.ofDigitChars_cons] using ofDigitChars_digits d
    have digital : ∀ c ∈ ['0'] ++ (List.replicate (places - d.digits.length) '0' ++ d.digits),
        c.isDigit = true := by
      intro c member
      rcases List.mem_append.mp member with zero | later
      · exact isDigit_zeros 1 c zero
      · exact (List.mem_append.mp later).elim (isDigit_zeros _ c) (isDigit_digits d c)
    have behind : ((List.replicate (places - d.digits.length) '0' ++ d.digits).length : Int) =
        places := by
      rw [List.length_append, List.length_replicate]
      omega
    have last : List.replicate (places - d.digits.length) '0' ++ d.digits ≠ [] := by
      simp [Decimal.digits]
    rw [List.cons_append, List.cons_append]
    refine (number_point positive digital (.inr rfl) last ended.startsWithDigit
      (value ▸ fits)).trans ?_
    rw [value, behind, ended.scaled, exponent]

/-- A number in exponent form. -/
theorem number_scientific (positive : Bool) (some : 0 < d.coefficient)
    (fits : d.coefficient ≤ maxSignificand) (near : d.leading.natAbs ≤ maxScale)
    (ended : Ends rest) : number positive (d.scientific true ++ rest) =
      double positive d.coefficient d.exponent rest := by
  have leading : d.leading = d.exponent + d.digits.length - 1 := rfl
  unfold Decimal.scientific
  simp only
  split
  · rename_i first second more digits
    rw [List.append_assoc, List.cons_append, List.cons_append, List.cons_append]
    have split : d.digits = [first] ++ second :: more := digits
    refine (number_split positive some fits split (by simp) (by simp) rfl).trans ?_
    refine (exponent_text positive near ended.startsWithDigit).trans ?_
    congr 1
    rw [leading, digits]
    simp only [List.length_cons]
    omega
  · rename_i single
    obtain ⟨c, more, digits, -, nonzero⟩ := toDigits_eq_cons some
    change d.digits = c :: more at digits
    cases more with
    | cons next more => exact absurd digits (single _ _ _)
    | nil =>
      have value := ofDigitChars_digits d
      have digital := isDigit_digits d
      rw [digits] at value digital
      rw [digits, List.append_assoc]
      refine (number_digits positive digital (.inr rfl) rfl (value ▸ fits)).trans ?_
      rw [value]
      refine (exponent_text positive near ended.startsWithDigit).trans ?_
      rw [leading, digits]
      simp

/-- The text of a decimal of at most 17 digits. -/
theorem number_write (positive : Bool) (some : 0 < d.coefficient) (few : d.coefficient < 10 ^ 17)
    (near : d.leading.natAbs ≤ maxScale) (ended : Ends rest) :
    number positive (floatLayout.write d ++ rest) =
      double positive (spelled d).coefficient (spelled d).exponent rest := by
  have fits : d.coefficient ≤ maxSignificand := few.le.trans (by decide)
  unfold Decimal.Layout.write spelled
  by_cases positional : floatLayout.positional d.leading = true
  · rw [if_pos positional]
    by_cases integral : 0 ≤ d.exponent
    · rw [if_pos ⟨positional, integral⟩]
      refine number_plain_integral positive some integral ?_ ended
      have places : d.exponent.toNat + d.digits.length ≤ 16 := by
        simp only [floatLayout, Decimal.leading, Bool.and_eq_true, decide_eq_true_eq] at positional
        omega
      calc d.coefficient * 10 ^ (d.exponent.toNat + 1)
          ≤ 10 ^ d.digits.length * 10 ^ (d.exponent.toNat + 1) :=
            Nat.mul_le_mul_right _ (Decimal.lt_pow_digitCount d.coefficient).le
        _ = 10 ^ (d.digits.length + (d.exponent.toNat + 1)) := (pow_add _ _ _).symm
        _ ≤ 10 ^ 17 := Nat.pow_le_pow_right (by decide) (by omega)
        _ ≤ maxSignificand := by decide
    · rw [if_neg (fun both => integral both.2)]
      exact number_plain_fraction positive some (by omega) fits ended
  · rw [if_neg positional, if_neg (fun both => positional both.1)]
    exact number_scientific positive some fits near ended

/-! ## Doubles -/

/-- The value of a decimal has its first digit at the leading exponent. -/
theorem leading_value (some : 0 < d.coefficient) :
    (10 : ℚ) ^ d.leading ≤ d.value ∧ d.value < 10 ^ (d.leading + 1) := by
  have low := Decimal.pow_digitCount_le some
  have high := Decimal.lt_pow_digitCount d.coefficient
  have counted : 0 < Decimal.digitCount d.coefficient := Nat.length_toDigits_pos
  have unit := Decimal.ten_zpow_pos d.exponent
  have leading : d.leading = (Decimal.digitCount d.coefficient - 1 : Nat) + d.exponent := by
    change d.exponent + (Decimal.digitCount d.coefficient : Int) - 1 = _
    omega
  have next : d.leading + 1 = Decimal.digitCount d.coefficient + d.exponent := by omega
  rw [next, leading, zpow_add₀ (by norm_num), zpow_add₀ (by norm_num), zpow_natCast, zpow_natCast]
  constructor
  · exact mul_le_mul_of_nonneg_right (by exact_mod_cast low) unit.le
  · exact mul_lt_mul_of_pos_right (by exact_mod_cast high) unit

/-- What is rounded to a finite double other than zero lies between powers of ten. -/
theorem rounds_between {m : Nat} {e : Int} {v : ℚ} (canonical : Double.Canonical m e)
    (rounds : Double.Rounds m e v) : (10 : ℚ) ^ (-324 : Int) ≤ v ∧ v < 10 ^ (309 : Int) := by
  have bottom : (2 ^ 1075 : Nat) ≤ 10 ^ 324 := by decide +kernel
  have top : Double.overflowBound < 10 ^ 309 := by decide +kernel
  constructor
  · refine le_trans ?_ (rounds.least canonical)
    have bottom' : ((2 ^ 1075 : Nat) : ℚ) ≤ (10 ^ 324 : Nat) := Nat.cast_le.mpr bottom
    rw [Nat.cast_pow, Nat.cast_pow, Nat.cast_ofNat, Nat.cast_ofNat] at bottom'
    rw [zpow_neg, zpow_neg, zpow_ofNat, zpow_ofNat]
    exact inv_anti₀ (pow_pos (by norm_num) _) bottom'
  · refine (rounds.lt_overflowBound canonical).trans ?_
    have top' : (Double.overflowBound : ℚ) < (10 ^ 309 : Nat) := Nat.cast_lt.mpr top
    rwa [Nat.cast_pow, Nat.cast_ofNat, ← zpow_ofNat] at top'

/-- The exponents of shortest decimals are far from the largest one that is read. -/
theorem leading_shortest {m : Nat} {e : Int} (canonical : Double.Canonical m e)
    (tie : Decimal.Tie) : (Decimal.shortest tie m e).leading.natAbs ≤ maxScale := by
  obtain ⟨some, -, rounds, -⟩ :=
    Decimal.shortest_spec (e := e) canonical.positive canonical.lt_two_pow tie
  obtain ⟨low, high⟩ := leading_value some
  obtain ⟨bottom, top⟩ := rounds_between canonical rounds
  have upper := (zpow_lt_zpow_iff_right₀ (by norm_num)).mp (low.trans_lt top)
  have lower := (zpow_lt_zpow_iff_right₀ (by norm_num)).mp (bottom.trans_lt high)
  have scale : 325 ≤ maxScale := by decide
  omega

/-- The significand and the scale that the text of a finite double is read as. -/
def written (x : Float) : Decimal :=
  match x.toModel.unpack with
  | .finite _ m e _ => spelled (Decimal.shortest floatLayout.tie m e)
  | _ => ⟨0, -1⟩

/-- Whether the text of a finite double begins with a minus sign. -/
def isNegative (x : Float) : Bool :=
  match x.toModel.unpack with
  | .zero sign => sign == .negative
  | .finite sign _ _ _ => sign == .negative
  | _ => false

/-- The text of a finite double is its sign and digits that are read as its decimal. -/
theorem floatText_eq {x : Float} (finite : x.isFinite = true) :
    ∃ text, floatText x = Decimal.signed (isNegative x) text ∧ Text.StartsWithDigit text ∧
      ∀ positive rest, Ends rest → number positive (text ++ rest) =
        double positive (written x).coefficient (written x).exponent rest := by
  unfold floatText Decimal.Layout.text isNegative written
  rcases (Double.below_of_isFinite finite).cases with ⟨s, unpacked⟩ | ⟨s, m, e, some, unpacked, -⟩
  · rw [unpacked]
    refine ⟨['0', '.', '0'], rfl, ⟨'0', _, rfl, rfl⟩, fun positive rest ended => ?_⟩
    have digital : ∀ d ∈ '0' :: [] ++ ['0'], d.isDigit = true := isDigit_zeros 2
    refine (number_point positive digital (.inr rfl) (by simp) ended.startsWithDigit
      (by decide)).trans ?_
    exact ended.scaled positive _ _
  · rw [unpacked]
    have canonical := Double.canonical_of_unpack unpacked
    obtain ⟨some, few, -⟩ :=
      Decimal.shortest_spec (e := e) canonical.positive canonical.lt_two_pow floatLayout.tie
    refine ⟨_, rfl, ?_, fun positive rest ended => ?_⟩
    · unfold Decimal.Layout.write
      split
      · exact Decimal.plain_startsWithDigit _
      · exact Decimal.scientific_startsWithDigit _ _
    · exact number_write positive some few (leading_shortest canonical _) ended

/-- A finite double is read as its size with its sign, if the size is one. -/
theorem scalar_reads_double {x size : Float} (finite : x.isFinite = true)
    (sized : magnitude? (written x).coefficient (written x).exponent = some size) :
    scalar.Reads (floatText x) (.float (if isNegative x then -size else size)) := by
  obtain ⟨text, same, ⟨c, more, rfl, digit⟩, read⟩ := floatText_eq finite
  have solid := isSpace_of_isDigit digit
  have differs {d : Char} (other : d.isDigit = false) : c ≠ d := ne_of_isDigit digit other
  have whole (positive : Bool) {rest : List Char} (ended : Ends rest) :
      numberValue positive (c :: (more ++ rest)) =
        .ok (.float (if positive then size else -size), rest) := by
    have number := read positive rest ended
    rw [List.cons_append] at number
    simp [numberValue, number, double, sized, Numeric.value]
  rw [same]
  cases isNegative x with
  | true =>
    refine ⟨⟨'-', _, rfl, rfl, by decide⟩, ?_⟩
    intro gap rest space ended
    show runScalar (gap ++ '-' :: (c :: more ++ rest)) = _
    rw [runScalar, skipSpace_gap space (show isSpace '-' = false by rfl)]
    exact whole false ended
  | false =>
    refine ⟨⟨c, _, rfl, solid, differs rfl⟩, ?_⟩
    intro gap rest space ended
    show runScalar (gap ++ c :: (more ++ rest)) = _
    rw [runScalar, skipSpace_gap space solid]
    simpa [differs, digit] using whole true ended

end Linewise.Document
