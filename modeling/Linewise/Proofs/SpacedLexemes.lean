import Mathlib.Data.List.Forall2
import Linewise.Proofs.DocumentLiterals
import Linewise.Token.Lexer

/-! Lexemes with a space between two of them. A space ends every lexeme, so each is read on its own:
a symbol, a name, an integer or a quoted text is read as its token whatever stands behind the space,
and the tokens of a spaced text are those of its words. -/
namespace Linewise.Lexer

/-- Nothing follows, or a space does. -/
def Separated (rest : List Char) : Prop :=
  ∀ c ∈ rest.head?, c = ' '

theorem separated_nil : Separated [] := by
  simp [Separated]

theorem separated_space (rest : List Char) : Separated (' ' :: rest) := by
  simp [Separated]

theorem Separated.cases {rest : List Char} (separated : Separated rest) :
    rest = [] ∨ ∃ more, rest = ' ' :: more := by
  cases rest with
  | nil => exact .inl rfl
  | cons c more => exact .inr ⟨more, by rw [separated c rfl]⟩

/-- A word is read as one token wherever a space or nothing follows it. -/
def Reads (word : List Char) (token : Token) : Prop :=
  ∃ c tail, word = c :: tail ∧ Text.isBlank c = false ∧
    ∀ rest, Separated rest → lexeme c (tail ++ rest) = .ok (token, rest)

/-! ## Texts of several words -/

theorem scan_space (rest : List Char) : scan (' ' :: rest) = scan rest := by
  rw [scan]
  simp [show Text.isBlank ' ' = true by decide]

/-- A word is scanned as its token, before the tokens of what follows. -/
theorem scan_word {word : List Char} {token : Token} (reads : Reads word token)
    {rest : List Char} (separated : Separated rest) {read : List Token}
    (scanned : scan rest = .ok read) : scan (word ++ rest) = .ok (token :: read) := by
  obtain ⟨c, tail, rfl, visible, lexed⟩ := reads
  rw [List.cons_append, scan]
  simp only [visible, Bool.false_eq_true, if_false]
  split
  · rename_i failed
    rw [lexed rest separated] at failed
    cases failed
  · rename_i done
    rw [lexed rest separated] at done
    cases done
    simp only [scanned]

/-- The words of a spaced text are scanned one by one. -/
theorem scan_intercalate {words : List (List Char)} {read : List Token}
    (reads : List.Forall₂ Reads words read) : scan ([' '].intercalate words) = .ok read := by
  induction reads with
  | nil =>
    rw [List.intercalate_nil, scan]
  | @cons word token words read first more ih =>
    cases words with
    | nil =>
      cases more
      rw [List.intercalate_singleton, ← List.append_nil word]
      exact scan_word first separated_nil ih
    | cons next words =>
      rw [List.intercalate_cons_cons, List.append_assoc]
      exact scan_word first (separated_space _) ((scan_space _).trans ih)

/-! ## Symbols -/

theorem lexeme_of_symbol {c : Char} {rest after : List Char} {s : Symbol}
    (other : startsNumber c rest = false) (nameless : Text.isNameStart c = false)
    (bare : ¬ (c = '"' ∨ c = '\'')) (found : symbol? c rest = some (s, after)) :
    lexeme c rest = .ok (.symbol s, after) := by
  rw [lexeme, if_neg (by simp [other]), if_neg (by simp [nameless]), if_neg bare]
  simp only [found]

theorem reads_symbol (s : Symbol) : Reads s.spelling (.symbol s) := by
  cases s
  all_goals
    refine ⟨_, _, rfl, by decide, ?_⟩
    intro rest separated
    apply lexeme_of_symbol (by rfl) (by decide) (by decide)
    rcases separated.cases with rfl | ⟨more, rfl⟩ <;> rfl

/-! ## Names -/

/-- A text that can be a name: a letter or an underscore, and letters, digits and underscores. -/
def NameShaped : List Char → Prop
  | [] => False
  | c :: tail => Text.isNameStart c = true ∧ ∀ d ∈ tail, Text.isNamePart d = true

-- The characters of the tail are tried one by one; all characters together are far too many.
instance : DecidablePred NameShaped
  | [] => .isFalse id
  | c :: tail =>
    decidable_of_iff ((Text.isNameStart c && tail.all Text.isNamePart) = true)
      (by simp [NameShaped])

theorem toNat_of_isAlpha {c : Char} (letter : c.isAlpha = true) : 65 ≤ c.toNat := by
  rcases (Bool.or_eq_true c.isUpper c.isLower).mp letter with upper | lower
  · exact (of_decide_eq_true upper).1
  · have low : 'a'.val ≤ c.val := of_decide_eq_true (Bool.and_eq_true_iff.mp lower).1
    exact Nat.le_trans (by decide) low

theorem toNat_of_isDigit {c : Char} (digit : c.isDigit = true) :
    48 ≤ c.toNat ∧ c.toNat ≤ 57 := by
  simp only [Char.isDigit, Bool.and_eq_true, decide_eq_true_eq, ge_iff_le,
    UInt32.le_iff_toNat_le] at digit
  exact digit

/-- The visible characters of ASCII are not blank. -/
theorem isBlank_of_ascii {c : Char} (low : 32 < c.toNat) (high : c.toNat < 128) :
    Text.isBlank c = false := by
  have apart : ∀ blanks ∈ Text.blankRanges, blanks.2 ≤ 32 ∨ 128 ≤ blanks.1 := by decide
  refine Bool.eq_false_iff.mpr fun blank => ?_
  obtain ⟨blanks, listed, first, last⟩ := Text.inRanges_iff.mp blank
  rcases apart blanks listed with before | behind
  · omega
  · omega

/-- Outside ASCII the ranges of letters and the ranges of blanks are apart. -/
theorem letterRanges_apart : ∀ letters ∈ Text.letterRanges, ∀ blanks ∈ Text.blankRanges,
    letters.2 < blanks.1 ∨ blanks.2 < letters.1 := by
  decide +kernel

theorem isBlank_of_isNameStart {c : Char} (start : Text.isNameStart c = true) :
    Text.isBlank c = false := by
  unfold Text.isNameStart Text.isLetter at start
  rcases Bool.or_eq_true _ _ ▸ start with letter | underscore
  · split at letter
    · have low := toNat_of_isAlpha letter
      exact isBlank_of_ascii (by omega) (by omega)
    · refine Bool.eq_false_iff.mpr fun blank => ?_
      obtain ⟨letters, member, low, high⟩ := Text.inRanges_iff.mp letter
      obtain ⟨blanks, listed, first, last⟩ := Text.inRanges_iff.mp blank
      rcases letterRanges_apart letters member blanks listed with before | behind
      · omega
      · omega
  · rw [eq_of_beq underscore]
    decide

/-- No number begins with a character that begins a name. -/
theorem startsNumber_of_isNameStart {c : Char} (start : Text.isNameStart c = true)
    (rest : List Char) : startsNumber c rest = false := by
  have code : 65 ≤ c.toNat := by
    unfold Text.isNameStart Text.isLetter at start
    rcases Bool.or_eq_true _ _ ▸ start with letter | underscore
    · split at letter
      · exact toNat_of_isAlpha letter
      · omega
    · rw [eq_of_beq underscore]
      decide
  have notDigit : c.isDigit = false := by
    refine Bool.eq_false_iff.mpr fun digit => ?_
    have high := (toNat_of_isDigit digit).2
    omega
  have notPoint : c ≠ '.' := by
    rintro rfl
    exact absurd code (by decide)
  simp [startsNumber, notDigit, notPoint]

theorem reads_name {name : String} (shaped : NameShaped name.toList) :
    Reads name.toList (.name name) := by
  obtain ⟨c, tail, spelled⟩ : ∃ c tail, name.toList = c :: tail := by
    cases spelled : name.toList with
    | nil => exact absurd shaped (by simp [spelled, NameShaped])
    | cons c tail => exact ⟨c, tail, rfl⟩
  rw [spelled] at shaped
  obtain ⟨start, parts⟩ := shaped
  refine ⟨c, tail, spelled, isBlank_of_isNameStart start, ?_⟩
  intro rest separated
  have ended : rest.takeWhile Text.isNamePart = [] ∧ rest.dropWhile Text.isNamePart = rest := by
    rcases separated.cases with rfl | ⟨more, rfl⟩
    · exact ⟨rfl, rfl⟩
    · have space : Text.isNamePart ' ' = false := by decide
      simp [space]
  rw [lexeme, if_neg (by simp [startsNumber_of_isNameStart start]), if_pos start,
    List.takeWhile_append_of_pos parts, List.dropWhile_append_of_pos parts, ended.1, ended.2,
    List.append_nil, ← spelled, String.ofList_toList]

/-! ## Quoted texts -/

/-- A character inside double quotes: a quote or a backslash behind a backslash, any other as it
is. -/
def quotedChar (c : Char) : List Char :=
  if c = '"' ∨ c = '\\' then ['\\', c] else [c]

theorem stringTail_quotedChar (c : Char) (read rest : List Char) :
    stringTail '"' read (quotedChar c ++ rest) = stringTail '"' (c :: read) rest := by
  unfold quotedChar
  split
  · rename_i special
    rcases special with rfl | rfl
    · rfl
    · rfl
  · rename_i plain
    obtain ⟨notQuote, notBackslash⟩ := not_or.mp plain
    rw [List.singleton_append, stringTail]
    · rw [if_neg notQuote]
    · simp [notBackslash]
    · simp [notBackslash]

theorem stringTail_flatMap (contents read rest : List Char) :
    stringTail '"' read (contents.flatMap quotedChar ++ '"' :: rest) =
      some (read.reverse ++ contents, rest) := by
  induction contents generalizing read with
  | nil =>
    simp [stringTail]
  | cons c contents ih =>
    rw [List.flatMap_cons, List.append_assoc, stringTail_quotedChar, ih]
    simp

/-- A text in double quotes. -/
def quotedText (contents : String) : String :=
  String.ofList ('"' :: (contents.toList.flatMap quotedChar ++ ['"']))

theorem reads_quotedText (contents : String) :
    Reads (quotedText contents).toList (.str contents) := by
  refine ⟨'"', _, String.toList_ofList, by decide, ?_⟩
  intro rest separated
  have closed := stringTail_flatMap contents.toList [] rest
  rw [lexeme, if_neg (by simp [startsNumber]), if_neg (by decide), if_pos (.inl rfl),
    List.append_assoc]
  simp only [List.cons_append, List.nil_append, closed]
  simp

/-! ## Integers -/

theorem numberTail_digits {digits rest : List Char} (digital : ∀ c ∈ digits, c.isDigit = true)
    (separated : Separated rest) (last : Char) :
    numberTail last (digits ++ rest) = (digits, rest) := by
  induction digits generalizing last with
  | nil =>
    rcases separated.cases with rfl | ⟨more, rfl⟩
    · rfl
    · have ended : continuesNumber last ' ' = false := by simp [continuesNumber]
      simp [numberTail, ended]
  | cons c digits ih =>
    have digit := digital c List.mem_cons_self
    have continued : continuesNumber last c = true := by
      simp [continuesNumber, Char.isAlphanum, digit]
    have later := ih (fun d member => digital d (List.mem_cons_of_mem _ member)) c
    simp [numberTail, continued, later]

/-- The digits of an integer that is not negative are read as that integer. -/
theorem numberToken_toDigits {n : Int64} (natural : ¬ n < 0) :
    numberToken (Nat.toDigits 10 n.toInt.natAbs) = .ok (.int n) := by
  have digital : ∀ c ∈ Nat.toDigits 10 n.toInt.natAbs, c.isDigit = true :=
    fun c => Nat.isDigit_of_mem_toDigits (by decide) (by decide)
  have kept : (Nat.toDigits 10 n.toInt.natAbs).filter (· != '_') =
      Nat.toDigits 10 n.toInt.natAbs := by
    refine List.filter_eq_self.mpr fun c member => ?_
    rw [bne_iff_ne]
    rintro rfl
    exact absurd (digital '_' member) (by decide)
  have read : Integer.ofText? (Nat.toDigits 10 n.toInt.natAbs) = some n := by
    unfold Integer.ofText?
    split
    · rename_i digits same
      exact absurd (digital '-' (by simp [same])) (by decide)
    · rename_i digits same
      exact absurd (digital '+' (by simp [same])) (by decide)
    · rw [Integer.magnitude?, if_pos ⟨Nat.toDigits_ne_nil, List.all_eq_true.mpr digital⟩,
        Integer.ofDigits, Nat.ofDigitChars_ten_toDigits]
      exact Document.fit_natAbs natural
  simp only [numberToken, kept, read]

theorem reads_integer {n : Int64} (natural : ¬ n < 0) :
    Reads (Integer.text n).toList (.int n) := by
  obtain ⟨c, tail, digits⟩ := List.exists_cons_of_ne_nil (@Nat.toDigits_ne_nil n.toInt.natAbs 10)
  have digital : ∀ d ∈ c :: tail, d.isDigit = true :=
    fun d member => Nat.isDigit_of_mem_toDigits (by decide) (by decide) (digits ▸ member)
  have digit := digital c List.mem_cons_self
  have written : (Integer.text n).toList = c :: tail := by
    rw [Integer.text, if_neg natural, String.toList_ofList, digits]
  refine ⟨c, tail, written, ?_, ?_⟩
  · obtain ⟨low, high⟩ := toNat_of_isDigit digit
    exact isBlank_of_ascii (by omega) (by omega)
  · intro rest separated
    have run := numberTail_digits (fun d member => digital d (List.mem_cons_of_mem _ member))
      separated c
    have token := numberToken_toDigits natural
    rw [digits] at token
    rw [lexeme, if_pos (by simp [startsNumber, digit])]
    simp only [run, token]

end Linewise.Lexer
