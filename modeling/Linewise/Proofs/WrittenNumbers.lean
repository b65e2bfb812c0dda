import Linewise.Decimal.Numeral
import Linewise.Proofs.ExactIntegers

/-! Texts of numbers, stated as grammars: which texts are integers and which are decimals, and what
they denote. The readers accept exactly these texts. An integer is read back from its decimal text,
so different integers have different texts. -/
namespace Linewise

/-- All characters are decimal digits. -/
def Text.Digital (text : List Char) : Prop :=
  ∀ c ∈ text, c.isDigit = true

namespace Integer

/-- The text is a non-empty run of decimal digits behind an optional sign. -/
inductive Spells : List Char → Int → Prop where
  | bare {digits : List Char} (some : digits ≠ []) (digital : Text.Digital digits) :
      Spells digits (ofDigits digits)
  | plus {digits : List Char} (some : digits ≠ []) (digital : Text.Digital digits) :
      Spells ('+' :: digits) (ofDigits digits)
  | minus {digits : List Char} (some : digits ≠ []) (digital : Text.Digital digits) :
      Spells ('-' :: digits) (-ofDigits digits)

theorem magnitude?_eq_some_iff {digits : List Char} {n : Nat} :
    magnitude? digits = some n ↔ digits ≠ [] ∧ Text.Digital digits ∧ ofDigits digits = n := by
  unfold magnitude?
  split
  · rename_i run
    have digital : Text.Digital digits := List.all_eq_true.mp run.2
    simp [run.1, digital]
  · rename_i other
    simp only [reduceCtorEq, false_iff]
    rintro ⟨some, digital, -⟩
    exact other ⟨some, List.all_eq_true.mpr digital⟩

/-- A run of digits does not begin with a sign. -/
theorem head_ne_sign {digits : List Char} (digital : Text.Digital digits) :
    (∀ rest, digits ≠ '-' :: rest) ∧ ∀ rest, digits ≠ '+' :: rest := by
  constructor
  · rintro rest rfl
    exact absurd (digital '-' List.mem_cons_self) (by decide)
  · rintro rest rfl
    exact absurd (digital '+' List.mem_cons_self) (by decide)

/-- The integers in range are read, and only they. -/
theorem ofText?_eq_some_iff {text : List Char} {n : Int64} :
    ofText? text = some n ↔ Spells text n.toInt := by
  constructor
  · intro read
    unfold ofText? at read
    split at read
    all_goals
      obtain ⟨m, found, fits⟩ := Option.bind_eq_some_iff.mp read
      obtain ⟨some, digital, rfl⟩ := magnitude?_eq_some_iff.mp found
      rw [fit_eq_some_iff.mp fits]
    · exact .minus some digital
    · exact .plus some digital
    · exact .bare some digital
  · intro spells
    generalize value : n.toInt = m at spells
    cases spells with
    | bare some digital =>
      rw [ofText?]
      · rw [magnitude?_eq_some_iff.mpr ⟨some, digital, rfl⟩]
        exact fit_eq_some_iff.mpr value
      · exact (head_ne_sign digital).1
      · exact (head_ne_sign digital).2
    | plus some digital | minus some digital =>
      rw [ofText?, magnitude?_eq_some_iff.mpr ⟨some, digital, rfl⟩]
      exact fit_eq_some_iff.mpr value

theorem ofText?_eq_none_iff {text : List Char} :
    ofText? text = none ↔ ∀ n : Int64, ¬ Spells text n.toInt := by
  simp only [Option.eq_none_iff_forall_ne_some, ne_eq, ofText?_eq_some_iff]

theorem spells_text (n : Int64) : Spells (text n).toList n.toInt := by
  have digital : Text.Digital (Nat.toDigits 10 n.toInt.natAbs) :=
    fun c => Nat.isDigit_of_mem_toDigits (by decide) (by decide)
  have value : ofDigits (Nat.toDigits 10 n.toInt.natAbs) = n.toInt.natAbs :=
    Nat.ofDigitChars_ten_toDigits
  unfold text
  by_cases negative : n < 0
  · have below := (neg_iff n).mp negative
    have read := Spells.minus Nat.toDigits_ne_nil digital
    rw [value, Int.ofNat_natAbs_of_nonpos (Int.le_of_lt below), Int.neg_neg] at read
    rw [if_pos negative, String.toList_append, String.toList_ofList, String.toList_ofList]
    exact read
  · have above := Int.not_lt.mp fun below => negative ((neg_iff n).mpr below)
    have read := Spells.bare Nat.toDigits_ne_nil digital
    rw [value, Int.natAbs_of_nonneg above] at read
    rw [if_neg negative, String.toList_ofList]
    exact read

/-- The decimal text of an integer is read as this integer. -/
theorem ofText?_text (n : Int64) : ofText? (text n).toList = some n :=
  ofText?_eq_some_iff.mpr (spells_text n)

theorem text_injective {n m : Int64} (same : text n = text m) : n = m := by
  have read := ofText?_text n
  rw [same, ofText?_text] at read
  exact (Option.some.inj read).symm

end Integer

namespace Decimal

/-- The part behind the digits of a decimal: nothing, or an exponent letter and an integer. -/
inductive SpellsExponent : List Char → Int → Prop where
  | none : SpellsExponent [] 0
  | written {mark : Char} {text : List Char} {n : Int} (letter : mark = 'e' ∨ mark = 'E')
      (spells : Integer.Spells text n) : SpellsExponent (mark :: text) n

/-- The text is a decimal without a sign: digits with or without a point before, behind or among
them, but at least one digit, and an optional exponent. -/
inductive Numeral.Spells : List Char → Numeral → Prop where
  | whole {digits tail : List Char} {e : Int} (some : digits ≠ []) (digital : Text.Digital digits)
      (exponent : SpellsExponent tail e) : Spells (digits ++ tail) ⟨digits, [], e⟩
  | point {before behind tail : List Char} {e : Int} (some : before ++ behind ≠ [])
      (digital : Text.Digital (before ++ behind)) (exponent : SpellsExponent tail e) :
      Spells (before ++ '.' :: (behind ++ tail)) ⟨before, behind, e⟩

theorem exponent?_eq_some_iff {text : List Char} {n : Int} :
    exponent? text = some n ↔ Integer.Spells text n := by
  constructor
  · intro read
    unfold exponent? at read
    split at read
    all_goals
      simp only [Option.map_eq_some_iff, Option.bind_eq_bind, Option.bind_eq_some_iff,
        Option.pure_def, Option.some.injEq] at read
      obtain ⟨_, ⟨m, found, rfl⟩, rfl⟩ := read
      obtain ⟨some, digital, rfl⟩ := Integer.magnitude?_eq_some_iff.mp found
    · exact .minus some digital
    · exact .plus some digital
    · exact .bare some digital
  · intro spells
    cases spells with
    | bare some digital =>
      rw [exponent?]
      · rw [Integer.magnitude?_eq_some_iff.mpr ⟨some, digital, rfl⟩]
        rfl
      · exact (Integer.head_ne_sign digital).1
      · exact (Integer.head_ne_sign digital).2
    | plus some digital | minus some digital =>
      rw [exponent?, Integer.magnitude?_eq_some_iff.mpr ⟨some, digital, rfl⟩]
      rfl

theorem exponentPart?_eq_some_iff {text : List Char} {n : Int} :
    exponentPart? text = some n ↔ SpellsExponent text n := by
  constructor
  · intro read
    unfold exponentPart? at read
    split at read
    · cases read
      exact .none
    · split at read
      · rename_i letter
        exact .written letter (exponent?_eq_some_iff.mp read)
      · cases read
  · intro spells
    cases spells with
    | none => rfl
    | written letter spells => exact (if_pos letter).trans (exponent?_eq_some_iff.mpr spells)

/-- What follows does not begin with a digit. -/
def Undigital (rest : List Char) : Prop :=
  ∀ c ∈ rest.head?, c.isDigit = false

theorem SpellsExponent.undigital {text : List Char} {n : Int} (spells : SpellsExponent text n) :
    Undigital text := by
  cases spells with
  | none => simp [Undigital]
  | written letter spells => rcases letter with rfl | rfl <;> simp [Undigital]

theorem takeWhile_digits {digits rest : List Char} (digital : Text.Digital digits)
    (ended : Undigital rest) : (digits ++ rest).takeWhile Char.isDigit = digits := by
  rw [List.takeWhile_append_of_pos digital]
  cases rest with
  | nil => simp
  | cons c more => simp [ended c rfl]

theorem dropWhile_digits {digits rest : List Char} (digital : Text.Digital digits)
    (ended : Undigital rest) : (digits ++ rest).dropWhile Char.isDigit = rest := by
  rw [List.dropWhile_append_of_pos digital]
  cases rest with
  | nil => rfl
  | cons c more => simp [ended c rfl]

theorem digital_takeWhile (text : List Char) : Text.Digital (text.takeWhile Char.isDigit) :=
  List.all_eq_true.mp List.all_takeWhile

/-- Exactly the decimals are read as numerals. -/
theorem Numeral.ofText?_eq_some_iff {text : List Char} {n : Numeral} :
    Numeral.ofText? text = some n ↔ Spells text n := by
  constructor
  · intro read
    have cut : text.takeWhile Char.isDigit ++ text.dropWhile Char.isDigit = text :=
      List.takeWhile_append_dropWhile
    unfold Numeral.ofText? at read
    dsimp only at read
    split at read
    · rename_i rest same
      have cutRest : rest.takeWhile Char.isDigit ++ rest.dropWhile Char.isDigit = rest :=
        List.takeWhile_append_dropWhile
      split at read
      · cases read
      · rename_i some
        obtain ⟨e, exponent, rfl⟩ := Option.map_eq_some_iff.mp read
        have digital : Text.Digital (text.takeWhile Char.isDigit ++ rest.takeWhile Char.isDigit) :=
          List.forall_mem_append.mpr ⟨digital_takeWhile text, digital_takeWhile rest⟩
        have spells := Spells.point (by simpa using some) digital
          (exponentPart?_eq_some_iff.mp exponent)
        rwa [cutRest, ← same, cut] at spells
    · split at read
      · cases read
      · rename_i some
        obtain ⟨e, exponent, rfl⟩ := Option.map_eq_some_iff.mp read
        have spells := Spells.whole (by simpa using some) (digital_takeWhile text)
          (exponentPart?_eq_some_iff.mp exponent)
        rwa [cut] at spells
  · intro spells
    cases spells with
    | whole some digital exponent =>
      have ended := exponent.undigital
      have read := exponentPart?_eq_some_iff.mpr exponent
      simp only [Numeral.ofText?, takeWhile_digits digital ended, dropWhile_digits digital ended]
      split
      · cases exponent with
        | written letter _ => rcases letter with letter | letter <;> cases letter
      · simp [some, read]
    | point some digital exponent =>
      obtain ⟨before, behind⟩ := List.forall_mem_append.mp digital
      have ended := exponent.undigital
      have point (rest : List Char) : Undigital ('.' :: rest) := by simp [Undigital]
      have read := exponentPart?_eq_some_iff.mpr exponent
      simp only [Numeral.ofText?, takeWhile_digits before (point _),
        dropWhile_digits before (point _), takeWhile_digits behind ended,
        dropWhile_digits behind ended, read]
      simpa using some

theorem unsigned?_eq_some_iff {text : List Char} {x : Float} :
    unsigned? text = some x ↔ ∃ n, Numeral.Spells text n ∧ n.toDouble = x := by
  simp only [unsigned?, Option.map_eq_some_iff, Numeral.ofText?_eq_some_iff]

/-- The text is a decimal behind an optional sign, and `x` is the double it denotes. -/
inductive Written : List Char → Float → Prop where
  | bare {text : List Char} {n : Numeral} (spells : Numeral.Spells text n) :
      Written text n.toDouble
  | plus {text : List Char} {n : Numeral} (spells : Numeral.Spells text n) :
      Written ('+' :: text) n.toDouble
  | minus {text : List Char} {n : Numeral} (spells : Numeral.Spells text n) :
      Written ('-' :: text) (-n.toDouble)

/-- A numeral has no sign. -/
theorem Numeral.Spells.head_ne_sign {text : List Char} {n : Numeral} (spells : Spells text n) :
    (∀ rest, text ≠ '-' :: rest) ∧ ∀ rest, text ≠ '+' :: rest := by
  have read := Numeral.ofText?_eq_some_iff.mpr spells
  constructor
  all_goals
    rintro rest rfl
    simp [Numeral.ofText?] at read

/-- Exactly the decimals with an optional sign are read as doubles. -/
theorem signed?_eq_some_iff {text : List Char} {x : Float} :
    signed? text = some x ↔ Written text x := by
  constructor
  · intro read
    unfold signed? at read
    split at read
    · obtain ⟨y, found, rfl⟩ := Option.map_eq_some_iff.mp read
      obtain ⟨n, spells, rfl⟩ := unsigned?_eq_some_iff.mp found
      exact .minus spells
    · obtain ⟨n, spells, rfl⟩ := unsigned?_eq_some_iff.mp read
      exact .plus spells
    · obtain ⟨n, spells, rfl⟩ := unsigned?_eq_some_iff.mp read
      exact .bare spells
  · intro written
    cases written with
    | bare spells =>
      rw [signed?]
      · exact unsigned?_eq_some_iff.mpr ⟨_, spells, rfl⟩
      · exact spells.head_ne_sign.1
      · exact spells.head_ne_sign.2
    | plus spells => exact unsigned?_eq_some_iff.mpr ⟨_, spells, rfl⟩
    | minus spells => rw [signed?, unsigned?_eq_some_iff.mpr ⟨_, spells, rfl⟩, Option.map_some]

end Decimal

end Linewise
