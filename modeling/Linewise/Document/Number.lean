import Linewise.Document.Fault
import Linewise.Integer

/-! Numbers of documents. The digits are gathered into a significand of 64 bits as long as it fits;
integer digits that do not fit only raise the exponent, and fraction digits that do not fit are
dropped. A double is the significand scaled by powers of ten in double arithmetic, so it may differ
from the nearest one. -/
namespace Linewise.Document

/-- A number of a document: an integer as written, or a double. -/
inductive Numeric where
  | natural (n : Nat)
  | negative (n : Int)
  | double (x : Float)
deriving DecidableEq

/-- The number as a message names it. -/
def Numeric.found : Numeric → Found
  | .natural n => .integer n
  | .negative n => .integer n
  | .double x => .floating x

/-- The largest significand. -/
def maxSignificand : Nat := UInt64.size - 1

/-- The largest exponent that is told apart from larger ones. -/
def maxScale : Nat := Nat.pow 2 31 - 1

/-- The value of a digit. -/
def digitValue (c : Char) : Nat :=
  c.toNat - 48

/-- Gathers digits into `sofar` while the significand fits. -/
def gather (limit sofar : Nat) : List Char → Nat × List Char
  | [] => (sofar, [])
  | c :: rest =>
    if c.isDigit ∧ sofar * 10 + digitValue c ≤ limit then
      gather limit (sofar * 10 + digitValue c) rest
    else (sofar, c :: rest)

/-- The text without the digits at its front. -/
def skipDigits (text : List Char) : List Char :=
  text.dropWhile Char.isDigit

/-- Whether a text begins with a digit. -/
def startsWithDigit (text : List Char) : Bool :=
  text.head?.any Char.isDigit

/-- The largest power of ten that is a double. -/
def maxPower : Nat := 308

/-- The double nearest to a power of ten. -/
def powerOfTen (n : Nat) : Float :=
  Float.ofScientific 1 false n

/-- Divides by `10 ^ n`, in steps when the power is not a double, and stops at zero. -/
def scaleDown (x : Float) (n : Nat) : Float :=
  if n ≤ maxPower then x / powerOfTen n
  else if x.beq 0 then x
  else scaleDown (x / powerOfTen maxPower) (n - maxPower)
termination_by n
decreasing_by
  unfold maxPower at *
  omega

/-- `f64_from_parts`: the size `significand * 10 ^ scale` as a double, if that is finite. -/
def magnitude? (significand : Nat) (scale : Int) : Option Float :=
  let x := significand.toUInt64.toFloat
  if scale < 0 then some (scaleDown x scale.natAbs)
  else if scale.natAbs ≤ maxPower then
    let y := x * powerOfTen scale.natAbs
    if y.isInf then none else some y
  else if x.beq 0 then some x
  else none

/-- The double with a sign and a size; `rest` is left. -/
def double (positive : Bool) (significand : Nat) (scale : Int) (rest : List Char) :
    Read Numeric :=
  match magnitude? significand scale with
  | some x => .ok (.double (if positive then x else -x), rest)
  | none => .error (.before .outOfRange rest)

/-- Reads the digits of an exponent whose sign is read. An exponent that is too large makes zero of
a zero significand and of a negative exponent. -/
def exponentDigits (positive : Bool) (significand : Nat) (scale : Int) (raises : Bool)
    (text : List Char) : Read Numeric :=
  match text with
  | [] => .error (.before .endInValue [])
  | c :: _ =>
    if c.isDigit then
      match gather maxScale 0 text with
      | (exponent, rest) =>
        if startsWithDigit rest then
          if significand ≠ 0 ∧ raises then .error (.atByte .outOfRange rest)
          else .ok (.double (if positive then 0.0 else -0.0), skipDigits rest)
        else
          double positive significand (if raises then scale + exponent else scale - exponent) rest
    else .error (.atByte .badNumber text)

/-- `parse_exponent`: reads an exponent after its letter. -/
def exponent (positive : Bool) (significand : Nat) (scale : Int) (text : List Char) :
    Read Numeric :=
  match text with
  | '+' :: rest => exponentDigits positive significand scale true rest
  | '-' :: rest => exponentDigits positive significand scale false rest
  | _ => exponentDigits positive significand scale true text

/-- Reads an exponent if one follows. -/
def scaled (positive : Bool) (significand : Nat) (scale : Int) (text : List Char) : Read Numeric :=
  match text with
  | 'e' :: rest => exponent positive significand scale rest
  | 'E' :: rest => exponent positive significand scale rest
  | _ => double positive significand scale text

/-- `parse_decimal`: reads the fraction after its point, and what follows. -/
def fraction (positive : Bool) (significand : Nat) (scale : Int) (text : List Char) :
    Read Numeric :=
  match gather maxSignificand significand text with
  | (gathered, rest) =>
    if startsWithDigit rest then
      scaled positive gathered (scale - (text.length - rest.length : Nat)) (skipDigits rest)
    else if rest.length = text.length then
      match rest with
      | [] => .error (.before .endInValue [])
      | _ => .error (.atByte .badNumber rest)
    else scaled positive gathered (scale - (text.length - rest.length : Nat)) rest

/-- The number of a significand without fraction and exponent. A minus sign before zero or before a
size above `2 ^ 63` makes a double. -/
def whole (positive : Bool) (significand : Nat) : Numeric :=
  if positive then .natural significand
  else if significand = 0 ∨ Nat.pow 2 63 < significand then .double (-significand.toUInt64.toFloat)
  else .negative (-significand)

/-- `parse_number`: reads what follows the integer digits. -/
def afterInteger (positive : Bool) (significand : Nat) (text : List Char) : Read Numeric :=
  match text with
  | '.' :: rest => fraction positive significand 0 rest
  | 'e' :: rest => exponent positive significand 0 rest
  | 'E' :: rest => exponent positive significand 0 rest
  | _ => .ok (whole positive significand, text)

/-- `parse_long_integer`: reads what follows integer digits that do not all fit. -/
def afterLongInteger (positive : Bool) (significand : Nat) (text : List Char) : Read Numeric :=
  let rest := skipDigits text
  let scale : Int := (text.length - rest.length : Nat)
  match rest with
  | '.' :: after => fraction positive significand scale after
  | _ => scaled positive significand scale rest

/-- `parse_integer`: reads a number after its sign, if it has one. -/
def number (positive : Bool) (text : List Char) : Read Numeric :=
  match text with
  | [] => .error (.before .endInValue [])
  | '0' :: rest =>
    if startsWithDigit rest then .error (.atByte .badNumber rest) else afterInteger positive 0 rest
  | c :: _ =>
    if c.isDigit then
      match gather maxSignificand 0 text with
      | (significand, rest) =>
        if startsWithDigit rest then afterLongInteger positive significand rest
        else afterInteger positive significand rest
    else .error (.atByte .badNumber text)

/-- The text without one sign at its front. -/
def skipSign : List Char → List Char
  | '+' :: rest => rest
  | '-' :: rest => rest
  | text => text

/-- Skims an exponent after its letter. -/
def skimExponent (text : List Char) : Except Fault (List Char) :=
  if startsWithDigit (skipSign text) then .ok (skipDigits (skipSign text))
  else .error (.atByte .badNumber (skipSign text))

/-- Skims an exponent if one follows. -/
def skimScaled (text : List Char) : Except Fault (List Char) :=
  match text with
  | 'e' :: rest => skimExponent rest
  | 'E' :: rest => skimExponent rest
  | _ => .ok text

/-- Skims what follows integer digits. -/
def skimAfterInteger (text : List Char) : Except Fault (List Char) :=
  match text with
  | '.' :: rest =>
    if startsWithDigit rest then skimScaled (skipDigits rest)
    else .error (.atByte .badNumber rest)
  | _ => skimScaled text

/-- `ignore_integer`: skims a number after its sign, if it has one; only its form counts. -/
def skimNumber (text : List Char) : Except Fault (List Char) :=
  match text with
  | '0' :: rest =>
    if startsWithDigit rest then .error (.atByte .badNumber rest) else skimAfterInteger rest
  | _ =>
    if startsWithDigit text then skimAfterInteger (skipDigits text)
    else .error (.atByte .badNumber text)

theorem skipDigits_length (text : List Char) : (skipDigits text).length ≤ text.length :=
  (List.dropWhile_sublist _).length_le

theorem skipDigits_length_of_digit {text : List Char} (digit : startsWithDigit text = true) :
    (skipDigits text).length < text.length := by
  cases text with
  | nil => simp [startsWithDigit] at digit
  | cons c rest =>
    have first : c.isDigit = true := by simpa [startsWithDigit] using digit
    have := skipDigits_length rest
    simp only [skipDigits, List.dropWhile_cons, first, if_true, List.length_cons]
    unfold skipDigits at this
    omega

theorem gather_length (limit sofar : Nat) (text : List Char) :
    (gather limit sofar text).2.length ≤ text.length := by
  fun_induction gather limit sofar text with
  | case1 => simp
  | case2 _ _ _ _ ih =>
    simp only [List.length_cons]
    omega
  | case3 => simp

theorem double_length {positive : Bool} {significand : Nat} {scale : Int} {text rest : List Char}
    {n : Numeric} (read : double positive significand scale text = .ok (n, rest)) :
    rest = text := by
  unfold double at read
  split at read
  · exact (Prod.mk.inj (Except.ok.inj read)).2.symm
  · cases read

theorem exponentDigits_length {positive raises : Bool} {significand : Nat} {scale : Int}
    {text rest : List Char} {n : Numeric}
    (read : exponentDigits positive significand scale raises text = .ok (n, rest)) :
    rest.length ≤ text.length := by
  unfold exponentDigits at read
  split at read
  · cases read
  · rename_i c more
    split at read
    · have gathered := gather_length maxScale 0 (c :: more)
      dsimp only at read
      split at read
      · split at read
        · cases read
        · obtain ⟨_, rfl⟩ := Prod.mk.inj (Except.ok.inj read)
          exact Nat.le_trans (skipDigits_length _) gathered
      · rw [double_length read]
        exact gathered
    · cases read

theorem exponent_length {positive : Bool} {significand : Nat} {scale : Int} {text rest : List Char}
    {n : Numeric} (read : exponent positive significand scale text = .ok (n, rest)) :
    rest.length ≤ text.length := by
  unfold exponent at read
  split at read
  · exact Nat.le_succ_of_le (exponentDigits_length read)
  · exact Nat.le_succ_of_le (exponentDigits_length read)
  · exact exponentDigits_length read

theorem scaled_length {positive : Bool} {significand : Nat} {scale : Int} {text rest : List Char}
    {n : Numeric} (read : scaled positive significand scale text = .ok (n, rest)) :
    rest.length ≤ text.length := by
  unfold scaled at read
  split at read
  · exact Nat.le_succ_of_le (exponent_length read)
  · exact Nat.le_succ_of_le (exponent_length read)
  · exact Nat.le_of_eq (congrArg List.length (double_length read))

theorem fraction_length {positive : Bool} {significand : Nat} {scale : Int} {text rest : List Char}
    {n : Numeric} (read : fraction positive significand scale text = .ok (n, rest)) :
    rest.length ≤ text.length := by
  have gathered := gather_length maxSignificand significand text
  unfold fraction at read
  dsimp only at read
  split at read
  · exact Nat.le_trans (scaled_length read) (Nat.le_trans (skipDigits_length _) gathered)
  · split at read
    · split at read <;> cases read
    · exact Nat.le_trans (scaled_length read) gathered

theorem afterInteger_length {positive : Bool} {significand : Nat} {text rest : List Char}
    {n : Numeric} (read : afterInteger positive significand text = .ok (n, rest)) :
    rest.length ≤ text.length := by
  unfold afterInteger at read
  split at read
  · exact Nat.le_succ_of_le (fraction_length read)
  · exact Nat.le_succ_of_le (exponent_length read)
  · exact Nat.le_succ_of_le (exponent_length read)
  · exact Nat.le_of_eq (congrArg List.length (Prod.mk.inj (Except.ok.inj read)).2.symm)

theorem afterLongInteger_length {positive : Bool} {significand : Nat} {text rest : List Char}
    {n : Numeric} (read : afterLongInteger positive significand text = .ok (n, rest)) :
    rest.length ≤ text.length := by
  have skipped := skipDigits_length text
  unfold afterLongInteger at read
  dsimp only at read
  split at read
  · rename_i after point
    have := fraction_length read
    rw [point, List.length_cons] at skipped
    omega
  · exact Nat.le_trans (scaled_length read) skipped

/-- A number takes at least one character. -/
theorem number_length {positive : Bool} {text rest : List Char} {n : Numeric}
    (read : number positive text = .ok (n, rest)) : rest.length < text.length := by
  unfold number at read
  split at read
  · cases read
  · split at read
    · cases read
    · exact Nat.lt_succ_of_le (afterInteger_length read)
  · rename_i c more _
    split at read
    · rename_i digit
      have fits : digitValue c ≤ maxSignificand := by
        simp only [Char.isDigit, Bool.and_eq_true, decide_eq_true_eq] at digit
        have upper : c.toNat ≤ 57 := digit.2
        unfold digitValue maxSignificand UInt64.size
        omega
      have step : gather maxSignificand 0 (c :: more) =
          gather maxSignificand (0 * 10 + digitValue c) more := by
        rw [gather, if_pos ⟨digit, by omega⟩]
      have gathered := gather_length maxSignificand (0 * 10 + digitValue c) more
      rw [step] at read
      dsimp only at read
      split at read
      · have := afterLongInteger_length read
        simp only [List.length_cons]
        omega
      · have := afterInteger_length read
        simp only [List.length_cons]
        omega
    · cases read

theorem skipSign_length (text : List Char) : (skipSign text).length ≤ text.length := by
  unfold skipSign
  split <;> simp

theorem skimExponent_length {text rest : List Char} (read : skimExponent text = .ok rest) :
    rest.length ≤ text.length := by
  unfold skimExponent at read
  split at read
  · cases read
    exact Nat.le_trans (skipDigits_length _) (skipSign_length _)
  · cases read

theorem skimScaled_length {text rest : List Char} (read : skimScaled text = .ok rest) :
    rest.length ≤ text.length := by
  unfold skimScaled at read
  split at read
  · exact Nat.le_succ_of_le (skimExponent_length read)
  · exact Nat.le_succ_of_le (skimExponent_length read)
  · cases read
    exact Nat.le_refl _

theorem skimAfterInteger_length {text rest : List Char} (read : skimAfterInteger text = .ok rest) :
    rest.length ≤ text.length := by
  unfold skimAfterInteger at read
  split at read
  · split at read
    · have := skimScaled_length read
      have := skipDigits_length ‹_›
      simp only [List.length_cons]
      omega
    · cases read
  · exact skimScaled_length read

theorem skimNumber_length {text rest : List Char} (read : skimNumber text = .ok rest) :
    rest.length < text.length := by
  unfold skimNumber at read
  split at read
  · split at read
    · cases read
    · exact Nat.lt_succ_of_le (skimAfterInteger_length read)
  · split at read
    · rename_i digit
      exact Nat.lt_of_le_of_lt (skimAfterInteger_length read) (skipDigits_length_of_digit digit)
    · cases read

end Linewise.Document
