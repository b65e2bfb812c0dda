import Linewise.Document.State
import Linewise.Document.Writer

/-! Literals of documents: what the writer writes for a string or an integer, the reader reads back,
with anything behind it that ends the literal. A string is read as the characters that its grammar
says it stands for, and the writer keeps to that grammar; an integer is recovered from its digits,
and its sign and size decide that it is an integer again. -/
namespace Linewise.Document

/-- The characters that may stand behind a part of a document. -/
def enders : List Char :=
  [' ', '\n', '\t', '\r', ',', ']', '\x7d']

/-- What follows a part of a document does not go on with it. -/
def Ends (rest : List Char) : Prop :=
  ∀ c ∈ rest.head?, c ∈ enders

theorem ends_cons {c : Char} {rest : List Char} : Ends (c :: rest) ↔ c ∈ enders := by
  simp [Ends]

/-! ## Strings -/

/-- What follows the opening quote of a string, up to its closing quote, and the characters that it
stands for. Here surrogates come in pairs. -/
inductive Contents : List Char → List Char → Prop where
  | close : Contents ['"'] []
  | plain {c : Char} {rest contents : List Char} (quote : c ≠ '"') (backslash : c ≠ '\\')
      (printed : ¬ c.toNat < 32) (more : Contents rest contents) :
      Contents (c :: rest) (c :: contents)
  | letter {c d : Char} {rest contents : List Char} (stands : letterEscape? c = some d)
      (more : Contents rest contents) : Contents ('\\' :: c :: rest) (d :: contents)
  | unit {a b c d : Char} {n : Nat} {rest contents : List Char}
      (digits : hexValue? a b c d = some n) (low : isLowSurrogate n = false)
      (high : isHighSurrogate n = false) (more : Contents rest contents) :
      Contents ('\\' :: 'u' :: a :: b :: c :: d :: rest) (Char.ofNat n :: contents)
  | pair {a b c d e f g h : Char} {high low : Nat} {rest contents : List Char}
      (first : hexValue? a b c d = some high) (isHigh : isHighSurrogate high = true)
      (second : hexValue? e f g h = some low) (isLow : isLowSurrogate low = true)
      (more : Contents rest contents) :
      Contents ('\\' :: 'u' :: a :: b :: c :: d :: '\\' :: 'u' :: e :: f :: g :: h :: rest)
        (surrogatePair high low :: contents)

/-- A text with a closing quote behind it stands for a key. -/
def Spelled (body : List Char) (key : String) : Prop :=
  Contents body key.toList

theorem stringRest_escape {c : Char} {read code rest : List Char}
    (decoded : escape (code ++ rest) = .ok (c, rest)) :
    stringRest read ('\\' :: code ++ rest) = stringRest (c :: read) rest := by
  rw [List.cons_append, stringRest]
  simp only [if_neg (show '\\' ≠ '"' by decide), if_true]
  split
  · rename_i done
    rw [decoded] at done
    obtain ⟨rfl, rfl⟩ := Prod.mk.inj (Except.ok.inj done)
    rfl
  · rename_i done
    rw [decoded] at done
    cases done

theorem stringRest_plain {c : Char} {read rest : List Char} (quote : c ≠ '"')
    (backslash : c ≠ '\\') (printed : ¬ c.toNat < 32) :
    stringRest read (c :: rest) = stringRest (c :: read) rest := by
  rw [stringRest]
  simp only [if_neg quote, if_neg backslash, if_neg printed]

theorem letterEscape?_ne_u {c d : Char} (stands : letterEscape? c = some d) : c ≠ 'u' := by
  rintro rfl
  cases stands

theorem isLowSurrogate_of_isHighSurrogate {n : Nat} (high : isHighSurrogate n = true) :
    isLowSurrogate n = false := by
  simp only [isHighSurrogate, isLowSurrogate, Bool.and_eq_true, decide_eq_true_eq,
    Bool.and_eq_false_iff, decide_eq_false_iff_not] at *
  omega

theorem codeUnit_digits {a b c d : Char} {n : Nat} (digits : hexValue? a b c d = some n)
    (rest : List Char) : codeUnit (a :: b :: c :: d :: rest) = .ok (n, rest) := by
  simp [codeUnit, digits]

/-- A string is read as its contents. -/
theorem Contents.stringRest {body contents : List Char} (literal : Contents body contents)
    (read rest : List Char) :
    Document.stringRest read (body ++ rest) = .ok (read.reverse ++ contents, rest) := by
  induction literal generalizing read with
  | close =>
    rw [List.singleton_append, Document.stringRest]
    simp
  | plain quote backslash printed _ ih =>
    rw [List.cons_append, stringRest_plain quote backslash printed, ih]
    simp
  | @letter c d body _ stands _ ih =>
    have decoded : escape ([c] ++ (body ++ rest)) = .ok (d, body ++ rest) := by
      simp [escape, letterEscape?_ne_u stands, stands]
    refine (stringRest_escape decoded).trans ?_
    rw [ih]
    simp
  | @unit a b c d n body _ digits low high _ ih =>
    have decoded : escape (['u', a, b, c, d] ++ (body ++ rest)) =
        .ok (Char.ofNat n, body ++ rest) := by
      simp [escape, codeEscape, codeUnit_digits digits, low, high]
    refine (stringRest_escape decoded).trans ?_
    rw [ih]
    simp
  | @pair a b c d e f g h high low body _ first isHigh second isLow _ ih =>
    have decoded : escape (['u', a, b, c, d, '\\', 'u', e, f, g, h] ++ (body ++ rest)) =
        .ok (surrogatePair high low, body ++ rest) := by
      simp [escape, codeEscape, codeUnit_digits first, codeUnit_digits second, lowSurrogate,
        isLowSurrogate_of_isHighSurrogate isHigh, isHigh, isLow]
    refine (stringRest_escape decoded).trans ?_
    rw [ih]
    simp

theorem hexDigit?_digitChar {n : Nat} (small : n < 16) : hexDigit? n.digitChar = some n := by
  revert n
  decide

/-- A control character is written with two digits behind two zeros. -/
theorem controlEscape_eq {c : Char} (control : c.toNat < 32) :
    controlEscape c =
      ['\\', 'u', '0', '0', (c.toNat / 16).digitChar, (c.toNat % 16).digitChar] := by
  have few : c.toNat / 16 < 16 := by omega
  unfold controlEscape
  rw [Nat.toDigits_eq_if (by decide)]
  split
  · rename_i single
    simp [Nat.div_eq_of_lt single, Nat.mod_eq_of_lt single]
  · simp [Nat.toDigits_of_lt_base few]

/-- The two digits of a control character denote it, and it is no half of a surrogate pair. -/
theorem hexValue?_control {c : Char} (control : c.toNat < 32) :
    hexValue? '0' '0' (c.toNat / 16).digitChar (c.toNat % 16).digitChar = some c.toNat ∧
      isLowSurrogate c.toNat = false ∧ isHighSurrogate c.toNat = false := by
  have high := hexDigit?_digitChar (n := c.toNat / 16) (by omega)
  have low := hexDigit?_digitChar (n := c.toNat % 16) (by omega)
  have zero : hexDigit? '0' = some 0 := by decide
  have whole : c.toNat / 16 * 16 + c.toNat % 16 = c.toNat := by omega
  refine ⟨by simp [hexValue?, high, low, zero, whole], ?_, ?_⟩
  · simp [isLowSurrogate]
    omega
  · simp [isHighSurrogate]
    omega

/-- The escape of a character stands for that character. -/
theorem Contents.writeChar {rest contents : List Char} (c : Char) (more : Contents rest contents) :
    Contents (Document.writeChar c ++ rest) (c :: contents) := by
  unfold Document.writeChar
  split
  iterate 7 exact .letter rfl more
  rename_i quote backslash _ _ _ _ _
  split
  · rename_i control
    obtain ⟨digits, notLow, notHigh⟩ := hexValue?_control control
    rw [controlEscape_eq control]
    simpa [Char.ofNat_toNat] using Contents.unit digits notLow notHigh more
  · rename_i printed
    exact .plain quote backslash printed more

theorem Contents.written {rest contents : List Char} (more : Contents rest contents)
    (cs : List Char) : Contents (cs.flatMap Document.writeChar ++ rest) (cs ++ contents) := by
  induction cs with
  | nil => exact more
  | cons c cs ih =>
    rw [List.flatMap_cons, List.append_assoc]
    exact ih.writeChar c

/-- A written string stands for its contents. -/
theorem spelled_written (s : String) : Spelled (s.toList.flatMap writeChar ++ ['"']) s := by
  simpa [Spelled] using Contents.close.written s.toList

/-! ## Integers -/

theorem le_ofDigitChars (digits : List Char) (init : Nat) :
    init ≤ Nat.ofDigitChars 10 digits init := by
  have scaled : init ≤ 10 ^ digits.length * init :=
    Nat.le_mul_of_pos_left _ (Nat.pow_pos (by decide))
  rw [Nat.ofDigitChars_eq_ofDigitChars_zero]
  omega

/-- Digits whose number fits are all gathered. -/
theorem gather_digits {limit sofar : Nat} {digits rest : List Char}
    (digital : ∀ c ∈ digits, c.isDigit = true) (ended : startsWithDigit rest = false)
    (fits : Nat.ofDigitChars 10 digits sofar ≤ limit) :
    gather limit sofar (digits ++ rest) = (Nat.ofDigitChars 10 digits sofar, rest) := by
  induction digits generalizing sofar with
  | nil =>
    cases rest with
    | nil => rfl
    | cons c more =>
      have other : ¬ c.isDigit = true := by simpa [startsWithDigit] using ended
      simp [gather, other]
  | cons c digits ih =>
    have next : 10 * sofar + (c.toNat - '0'.toNat) = sofar * 10 + digitValue c := by
      rw [Nat.mul_comm]
      rfl
    rw [Nat.ofDigitChars_cons, next] at fits ⊢
    have room := Nat.le_trans (le_ofDigitChars digits _) fits
    rw [List.cons_append, gather, if_pos ⟨digital c List.mem_cons_self, room⟩]
    exact ih (fun d member => digital d (List.mem_cons_of_mem _ member)) fits

/-- A number above zero is written without a zero in front. -/
theorem toDigits_eq_cons {n : Nat} (positive : 0 < n) :
    ∃ c more, Nat.toDigits 10 n = c :: more ∧ c.isDigit = true ∧ c ≠ '0' := by
  induction n using Nat.strongRecOn with
  | _ n ih =>
    rw [Nat.toDigits_eq_if (by decide)]
    split
    · rename_i single
      have digit : ∀ m < 10, 0 < m → m.digitChar.isDigit = true ∧ m.digitChar ≠ '0' := by decide
      obtain ⟨digital, nonzero⟩ := digit n single positive
      exact ⟨n.digitChar, [], rfl, digital, nonzero⟩
    · rename_i several
      obtain ⟨c, more, digits, digital, nonzero⟩ := ih (n / 10) (by omega) (by omega)
      exact ⟨c, more ++ [(n % 10).digitChar], by simp [digits], digital, nonzero⟩

theorem Ends.startsWithDigit {rest : List Char} (ended : Ends rest) :
    startsWithDigit rest = false := by
  have others : ∀ c ∈ enders, c.isDigit = false := by simp [enders]
  cases rest with
  | nil => rfl
  | cons c more => simpa [Document.startsWithDigit] using others c (ends_cons.mp ended)

theorem Ends.afterInteger {rest : List Char} (ended : Ends rest) (positive : Bool) (n : Nat) :
    afterInteger positive n rest = .ok (whole positive n, rest) := by
  have others : ∀ c ∈ enders, c ≠ '.' ∧ c ≠ 'e' ∧ c ≠ 'E' := by simp [enders]
  cases rest with
  | nil => rfl
  | cons c more =>
    obtain ⟨point, small, large⟩ := others c (ends_cons.mp ended)
    simp [Document.afterInteger, point, small, large]

theorem Ends.scaled {rest : List Char} (ended : Ends rest) (positive : Bool) (significand : Nat)
    (scale : Int) : scaled positive significand scale rest =
      double positive significand scale rest := by
  have others : ∀ c ∈ enders, c ≠ 'e' ∧ c ≠ 'E' := by simp [enders]
  cases rest with
  | nil => rfl
  | cons c more =>
    obtain ⟨small, large⟩ := others c (ends_cons.mp ended)
    simp [Document.scaled, small, large]

/-- The digits of a number that fits are read as that number. -/
theorem number_toDigits {n : Nat} (fits : n ≤ maxSignificand) (positive : Bool)
    {rest : List Char} (ended : Ends rest) :
    number positive (Nat.toDigits 10 n ++ rest) = .ok (whole positive n, rest) := by
  rcases Nat.eq_zero_or_pos n with rfl | above
  · simp [number, ended.startsWithDigit, ended.afterInteger]
  · obtain ⟨c, more, digits, digital, nonzero⟩ := toDigits_eq_cons above
    have gathered : gather maxSignificand 0 (Nat.toDigits 10 n ++ rest) = (n, rest) := by
      rw [gather_digits (fun d => Nat.isDigit_of_mem_toDigits (by decide) (by decide))
        ended.startsWithDigit (by simpa using fits), Nat.ofDigitChars_ten_toDigits]
    rw [digits, List.cons_append] at gathered ⊢
    unfold number
    split
    · simp_all
    · simp_all
    · rename_i start
      obtain ⟨rfl, rfl⟩ := List.cons.inj start
      simp [digital, gathered, ended.startsWithDigit, ended.afterInteger]

/-- The number that an integer is written as. -/
def Numeric.ofInteger (n : Int64) : Numeric :=
  if n < 0 then .negative n.toInt else .natural n.toInt.natAbs

theorem fit_toInt (n : Int64) : Integer.fit n.toInt = some n := by
  unfold Integer.fit
  rw [if_pos ⟨n.minValue_le_toInt, n.toInt_le⟩, Int64.ofInt_toInt]

theorem fit_natAbs {n : Int64} (natural : ¬ n < 0) :
    Integer.fit (n.toInt.natAbs : Nat) = some n := by
  have positive : 0 ≤ n.toInt := by simpa [Int64.lt_iff_toInt_lt] using natural
  rw [Int.natAbs_of_nonneg positive, fit_toInt]

theorem Numeric.value_ofInteger (n : Int64) : (ofInteger n).value = .int n := by
  unfold ofInteger
  split
  · simp [value]
  · rename_i natural
    simp only [value, fit_natAbs natural]

theorem Numeric.integer_ofInteger (n : Int64) (rest : List Char) :
    (ofInteger n).integer rest = .ok (n, rest) := by
  unfold ofInteger
  split
  · simp [integer]
  · rename_i natural
    simp only [integer, fit_natAbs natural]

theorem natAbs_toInt_le (n : Int64) : n.toInt.natAbs ≤ Nat.pow 2 63 := by
  have low := n.le_toInt
  have high := n.toInt_lt
  rw [Nat.pow_eq]
  omega

/-- An integer is written as a minus sign if it is negative, and the digits of its size. -/
theorem writeInteger_eq (n : Int64) :
    writeInteger n =
      if n < 0 then '-' :: Nat.toDigits 10 n.toInt.natAbs else Nat.toDigits 10 n.toInt.natAbs := by
  unfold writeInteger Integer.text
  split <;> simp

/-- The digits of an integer are read as that integer, its sign given. -/
theorem number_integer (n : Int64) {rest : List Char} (ended : Ends rest) :
    number (decide (¬ n < 0)) (Nat.toDigits 10 n.toInt.natAbs ++ rest) =
      .ok (Numeric.ofInteger n, rest) := by
  have size := natAbs_toInt_le n
  rw [number_toDigits (Nat.le_trans size (by decide)) _ ended]
  unfold Numeric.ofInteger
  by_cases negative : n < 0
  · have below : n.toInt < 0 := by simpa [Int64.lt_iff_toInt_lt] using negative
    have nonzero : ¬ (n.toInt.natAbs = 0 ∨ Nat.pow 2 63 < n.toInt.natAbs) := by omega
    have sized : -(n.toInt.natAbs : Int) = n.toInt := by omega
    rw [whole, if_neg (by simpa using negative), if_neg nonzero, sized, if_pos negative]
  · simp [whole, negative]

end Linewise.Document
