import Linewise.Proofs.BlankBoundaries
import Linewise.Proofs.WrittenNumbers

/-! Scanning as a state machine that reads one character at a time. What is read of a lexeme waits
in one buffer, and a phase says of which kind the lexeme is. A symbol of two characters is found by
looking one character ahead, and the character that ends a number or a name is read once more, as
the first of what follows.

The machine gives the tokens of the text. Behind a number, a name or a string literal the buffer is
empty again, so what a state has still to give is settled by the lexeme it is in and by the text
that is left. -/
namespace Linewise

/-! ## Lexemes by their first characters -/

namespace Lexer

variable {c : Char} {rest : List Char}

theorem lexeme_number (starts : startsNumber c rest = true) :
    lexeme c rest = (numberToken (c :: (numberTail c rest).1)).map fun token =>
      (token, (numberTail c rest).2) := by
  rw [lexeme, if_pos starts]
  dsimp only
  cases numberToken (c :: (numberTail c rest).1) <;> rfl

theorem lexeme_name (start : Text.isNameStart c = true) :
    lexeme c rest = .ok (.name (String.ofList (c :: rest.takeWhile Text.isNamePart)),
      rest.dropWhile Text.isNamePart) := by
  rw [lexeme, if_neg (by simp [startsNumber_of_isNameStart start]), if_pos start]

theorem lexeme_quote (enclosing : IsQuote c) :
    lexeme c rest =
      match stringTail c [] rest with
      | some (contents, after) => .ok (.str (String.ofList contents), after)
      | none => .error .unterminated := by
  have numberless : startsNumber c rest = false := by
    rcases enclosing with rfl | rfl <;> simp [startsNumber]
  have nameless : Text.isNameStart c = false := by
    rcases enclosing with rfl | rfl <;> decide
  rw [lexeme, if_neg (by simp [numberless]), if_neg (by simp [nameless])]
  exact if_pos enclosing

theorem lexeme_other (numberless : startsNumber c rest = false)
    (nameless : Text.isNameStart c = false) (bare : ¬ IsQuote c) :
    lexeme c rest =
      match symbol? c rest with
      | some (s, after) => .ok (.symbol s, after)
      | none => .error (.unexpected c) := by
  rw [lexeme, if_neg (by simp [numberless]), if_neg (by simp [nameless])]
  exact if_neg bare

end Lexer

open Lexer

/-! ## The machine -/

namespace Scanner

/-- The kind of the lexeme that is being read. -/
inductive Phase where
  /-- None: the next character is the first of a lexeme, or blank. -/
  | start
  | number
  | name
  /-- A string literal, up to the next `quote`. -/
  | text (quote : Char)
deriving DecidableEq

end Scanner

/-- A state of the machine. -/
structure Scanner where
  /-- The characters that are not read yet. -/
  input : List Char
  phase : Scanner.Phase
  /-- What is read of the lexeme; of a string literal its contents so far. -/
  buffer : List Char
  output : List Token

namespace Scanner

/-- Takes the next character if it is the expected one. -/
def eat? (s : Scanner) (expected : Char) : Option Scanner :=
  match s.input with
  | [] => none
  | c :: rest => if c = expected then some { s with input := rest } else none

/-- Whether a digit is next. -/
def digitNext (s : Scanner) : Bool :=
  s.input.head?.any Char.isDigit

/-- Goes on with a lexeme of some kind. -/
def keep (s : Scanner) (phase : Phase) (c : Char) : Scanner :=
  { s with phase, buffer := s.buffer ++ [c] }

def emit (s : Scanner) (token : Token) : Scanner :=
  { s with output := s.output ++ [token] }

/-- Ends a lexeme and empties the buffer. -/
def close (s : Scanner) (token : Token) : Scanner :=
  { s.emit token with phase := .start, buffer := [] }

/-- The symbol `double` if the next character is `second`, which is then taken, else `single`. -/
def symbolPair (s : Scanner) (second : Char) (double : Symbol) (single : Option Symbol) :
    Option (Symbol × Scanner) :=
  match s.eat? second with
  | some next => some (double, next)
  | none => single.map fun symbol => (symbol, s)

/-- The symbol that begins with `c`. -/
def symbol? (s : Scanner) (c : Char) : Option (Symbol × Scanner) :=
  match c with
  | '+' => some (.plus, s)
  | '-' => some (.minus, s)
  | '*' => s.symbolPair '*' .power (some .star)
  | '/' => s.symbolPair '/' .floorDiv (some .slash)
  | '%' => some (.percent, s)
  | '(' => some (.lparen, s)
  | ')' => some (.rparen, s)
  | '=' => s.symbolPair '=' .eq none
  | '!' => s.symbolPair '=' .notEq (some .bang)
  | '<' => s.symbolPair '=' .lessEq (some .less)
  | '>' => s.symbolPair '=' .greaterEq (some .greater)
  | '&' => s.symbolPair '&' .andAnd none
  | '|' => s.symbolPair '|' .orOr none
  | _ => none

/-- Reads a character between two lexemes. -/
def readStart (s : Scanner) (c : Char) : Except LexError Scanner :=
  if Text.isBlank c then .ok s
  else if c.isDigit || (c == '.' && s.digitNext) then .ok (s.keep .number c)
  else if Text.isNameStart c then .ok (s.keep .name c)
  else if c = '"' ∨ c = '\'' then .ok { s with phase := .text c }
  else
    match s.symbol? c with
    | some (symbol, next) => .ok (next.emit (.symbol symbol))
    | none => .error (.unexpected c)

/-- The token of a number: an integer in range, or a finite double whose text has a point, an
exponent letter or nothing but digits. -/
def finishNumber (run : List Char) : Except LexError Token :=
  let digits := run.filter (· != '_')
  let looksFloat := digits.any fun c => c == '.' || c == 'e' || c == 'E'
  match Integer.ofText? digits with
  | some n => .ok (.int n)
  | none =>
    match Decimal.signed? digits with
    | some x =>
      if x.isFinite && (looksFloat || digits.all Char.isDigit) then .ok (.float x)
      else .error (.badNumber (String.ofList run))
    | none => .error (.badNumber (String.ofList run))

/-- Reads a character in a number. -/
def readNumber (s : Scanner) (c : Char) : Except LexError Scanner :=
  let exponentSign := (c == '+' || c == '-') && s.buffer.getLast?.any fun d => d == 'e' || d == 'E'
  if c.isAlphanum || c == '.' || c == '_' || exponentSign then .ok (s.keep .number c)
  else
    match finishNumber s.buffer with
    | .ok token => (s.close token).readStart c
    | .error e => .error e

/-- Reads a character in a name. -/
def readName (s : Scanner) (c : Char) : Except LexError Scanner :=
  if Text.isNamePart c then .ok (s.keep .name c)
  else (s.close (.name (String.ofList s.buffer))).readStart c

/-- Reads a character in a string literal, and with a backslash the character behind it. -/
def readText (s : Scanner) (quote c : Char) : Except LexError Scanner :=
  if c = quote then .ok (s.close (.str (String.ofList s.buffer)))
  else if c = '\\' then
    match s.input with
    | [] => .error .unterminated
    | d :: rest => .ok ({ s with input := rest }.keep (.text quote) (unescape d))
  else .ok (s.keep (.text quote) c)

/-- Reads a character that has been taken from the input. -/
def read (s : Scanner) (c : Char) : Except LexError Scanner :=
  match s.phase with
  | .start => s.readStart c
  | .number => s.readNumber c
  | .name => s.readName c
  | .text quote => s.readText quote c

/-- The tokens once the input is used up. -/
def finish (s : Scanner) : Except LexError (List Token) :=
  match s.phase with
  | .start => .ok s.output
  | .number => (finishNumber s.buffer).map fun token => s.output ++ [token]
  | .name => .ok (s.output ++ [.name (String.ofList s.buffer)])
  | .text _ => .error .unterminated

/-! ## One character -/

theorem symbolPair_of_eq {s : Scanner} {second : Char} {rest : List Char}
    (next : s.input = second :: rest) (double : Symbol) (single : Option Symbol) :
    s.symbolPair second double single = some (double, { s with input := rest }) := by
  simp [symbolPair, eat?, next]

theorem symbolPair_of_ne {s : Scanner} {second : Char}
    (other : ∀ rest, s.input = second :: rest → False) (double : Symbol) (single : Option Symbol) :
    s.symbolPair second double single = single.map fun symbol => (symbol, s) := by
  have left : s.eat? second = none := by
    unfold eat?
    split
    · rfl
    · rename_i rest next
      refine if_neg ?_
      rintro rfl
      exact other rest next
  simp [symbolPair, left]

/-- Looking one character ahead finds the symbol that the text begins with. -/
theorem symbol?_eq (s : Scanner) (c : Char) :
    s.symbol? c = (Lexer.symbol? c s.input).map fun found =>
      (found.1, { s with input := found.2 }) := by
  unfold Lexer.symbol?
  split
  -- No symbol begins with the character, or only one whose second character is missing.
  case h_19 =>
    unfold symbol?
    split <;> simp_all [symbolPair_of_ne]
  all_goals simp [symbol?, symbolPair_of_eq, symbolPair_of_ne, *]

theorem symbol?_advances {s next : Scanner} {c : Char} {symbol : Symbol}
    (found : s.symbol? c = some (symbol, next)) :
    ∃ rest, rest.length ≤ s.input.length ∧ next = { s with input := rest } := by
  rw [symbol?_eq] at found
  obtain ⟨⟨_, rest⟩, begins, same⟩ := Option.map_eq_some_iff.mp found
  cases same
  exact ⟨rest, Lexer.symbol?_length begins, rfl⟩

/-- A run of a number begins with a digit or a point. -/
def Numeric (run : List Char) : Prop :=
  ∃ c tail, run = c :: tail ∧ (c.isDigit = true ∨ c = '.')

/-- A decimal has a point, an exponent letter or nothing but digits. -/
theorem looksFloat_of_spells {digits : List Char} {n : Decimal.Numeral}
    (spells : Decimal.Numeral.Spells digits n) :
    (digits.any (fun c => c == '.' || c == 'e' || c == 'E') || digits.all Char.isDigit) = true := by
  cases spells with
  | @whole digits _ _ _ digital exponent =>
    cases exponent with
    | none =>
      rw [List.append_nil, List.all_eq_true.mpr digital, Bool.or_true]
    | written letter _ =>
      rcases letter with rfl | rfl <;> simp
  | point => simp

/-- A run of a number has no sign in front. -/
theorem Numeric.signed?_eq {run : List Char} (numeric : Numeric run) :
    Decimal.signed? (run.filter (· != '_')) = Decimal.unsigned? (run.filter (· != '_')) := by
  obtain ⟨c, tail, rfl, first⟩ := numeric
  have kept : (c :: tail).filter (· != '_') = c :: tail.filter (· != '_') := by
    refine List.filter_cons_of_pos ?_
    rw [bne_iff_ne]
    rintro rfl
    exact absurd first (by decide)
  rw [kept, Decimal.signed?]
  all_goals
    rintro more ⟨rfl, rfl⟩
    exact absurd first (by decide)

/-- That the text looks like a decimal is no further condition. -/
theorem finishNumber_eq {run : List Char} (numeric : Numeric run) :
    finishNumber run = numberToken run := by
  unfold finishNumber numberToken
  dsimp only
  rw [numeric.signed?_eq]
  cases Integer.ofText? (run.filter (· != '_')) with
  | some n => rfl
  | none =>
    cases read : Decimal.unsigned? (run.filter (· != '_')) with
    | none => rfl
    | some x =>
      obtain ⟨n, spells, -⟩ := Decimal.unsigned?_eq_some_iff.mp read
      simp only [looksFloat_of_spells spells, Bool.and_true]

/-- The buffer is empty between two lexemes and begins like a number in a number, and a string
literal is enclosed by quotes. -/
def Clean (s : Scanner) : Prop :=
  match s.phase with
  | .start => s.buffer = []
  | .number => Numeric s.buffer
  | .name => True
  | .text quote => IsQuote quote

/-- A character leaves no more of the input than there was, and a clean state clean. -/
structure Advances (s next : Scanner) : Prop where
  shorter : next.input.length ≤ s.input.length
  clean : s.Clean → next.Clean

theorem Clean.keep_number {s : Scanner} (clean : s.Clean) (number : s.phase = .number) (c : Char) :
    (s.keep .number c).Clean := by
  obtain ⟨input, phase, buffer, output⟩ := s
  obtain rfl : phase = .number := number
  obtain ⟨d, tail, rfl, first⟩ := clean
  exact ⟨d, tail ++ [c], rfl, first⟩

theorem close_clean (s : Scanner) (token : Token) : (s.close token).Clean :=
  rfl

theorem readStart_advances {s next : Scanner} {c : Char} (start : s.phase = .start)
    (reads : s.readStart c = .ok next) : s.Advances next := by
  obtain ⟨input, phase, buffer, output⟩ := s
  obtain rfl : phase = .start := start
  unfold readStart at reads
  split at reads
  · cases reads
    exact ⟨Nat.le_refl _, id⟩
  · split at reads
    · rename_i number
      cases reads
      refine ⟨Nat.le_refl _, ?_⟩
      rintro (rfl : buffer = [])
      have first : c.isDigit = true ∨ c = '.' := by
        simp only [Bool.or_eq_true, Bool.and_eq_true, beq_iff_eq] at number
        exact number.imp_right And.left
      exact ⟨c, [], rfl, first⟩
    · split at reads
      · cases reads
        exact ⟨Nat.le_refl _, fun _ => trivial⟩
      · split at reads
        · rename_i quote
          cases reads
          exact ⟨Nat.le_refl _, fun _ => quote⟩
        · split at reads
          · rename_i found
            obtain ⟨rest, shorter, rfl⟩ := symbol?_advances found
            cases reads
            exact ⟨shorter, id⟩
          · cases reads

theorem readNumber_advances {s next : Scanner} {c : Char} (number : s.phase = .number)
    (reads : s.readNumber c = .ok next) : s.Advances next := by
  unfold readNumber at reads
  dsimp only at reads
  split at reads
  · cases reads
    exact ⟨Nat.le_refl _, fun clean => clean.keep_number number c⟩
  · split at reads
    · rename_i token _
      have advances := readStart_advances rfl reads
      exact ⟨advances.shorter, fun _ => advances.clean (s.close_clean token)⟩
    · cases reads

theorem readName_advances {s next : Scanner} {c : Char} (reads : s.readName c = .ok next) :
    s.Advances next := by
  unfold readName at reads
  split at reads
  · cases reads
    exact ⟨Nat.le_refl _, fun _ => trivial⟩
  · have advances := readStart_advances rfl reads
    exact ⟨advances.shorter, fun _ => advances.clean (s.close_clean _)⟩

theorem readText_advances {s next : Scanner} {quote c : Char} (text : s.phase = .text quote)
    (reads : s.readText quote c = .ok next) : s.Advances next := by
  obtain ⟨input, phase, buffer, output⟩ := s
  obtain rfl : phase = .text quote := text
  unfold readText at reads
  split at reads
  · cases reads
    exact ⟨Nat.le_refl _, fun _ => close_clean _ _⟩
  · split at reads
    · dsimp only at reads
      split at reads
      · cases reads
      · cases reads
        exact ⟨Nat.le_succ _, id⟩
    · cases reads
      exact ⟨Nat.le_refl _, id⟩

theorem read_advances {s next : Scanner} {c : Char} (reads : s.read c = .ok next) :
    s.Advances next := by
  unfold read at reads
  split at reads
  · exact readStart_advances ‹_› reads
  · exact readNumber_advances ‹_› reads
  · exact readName_advances reads
  · exact readText_advances ‹_› reads

/-- Reads the input character by character. -/
def run (s : Scanner) : Except LexError (List Token) :=
  match taken : s.input with
  | [] => s.finish
  | c :: rest =>
    match reads : { s with input := rest }.read c with
    | .error e => .error e
    | .ok next =>
      have : next.input.length < s.input.length := by
        rw [taken]
        exact Nat.lt_succ_of_le (read_advances reads).shorter
      run next
termination_by s.input.length

/-- The tokens of an expression text, read character by character. -/
def tokens (source : String) : Except LexError (List Token) :=
  run { input := source.toList, phase := .start, buffer := [], output := [] }

/-! ## What a state has still to give -/

/-- A token before the tokens of what follows. -/
def lead (first : Except LexError Token) (rest : List Char) : Except LexError (List Token) :=
  first.bind fun token => (scan rest).map (token :: ·)

/-- The tokens of the lexeme that is being read and of those behind it. -/
def remaining (s : Scanner) : Except LexError (List Token) :=
  match s.phase with
  | .start => scan s.input
  | .number =>
    -- Without a last character no sign goes on with the number, as behind a space.
    let (tail, after) := numberTail (s.buffer.getLast?.getD ' ') s.input
    lead (numberToken (s.buffer ++ tail)) after
  | .name =>
    lead (.ok (.name (String.ofList (s.buffer ++ s.input.takeWhile Text.isNamePart))))
      (s.input.dropWhile Text.isNamePart)
  | .text quote =>
    match stringTail quote s.buffer.reverse s.input with
    | some (contents, after) => lead (.ok (.str (String.ofList contents))) after
    | none => .error .unterminated

/-- The answer of a run from the state. -/
def answer (s : Scanner) : Except LexError (List Token) :=
  s.remaining.map (s.output ++ ·)

theorem lead_eq (first : Except LexError Token) (rest : List Char) :
    lead first rest = (first.map fun token => (token, rest)).bind fun found =>
      (scan found.2).map (found.1 :: ·) := by
  cases first <;> rfl

theorem map_lead (output : List Token) (token : Token) (rest : List Char) :
    (lead (.ok token) rest).map (output ++ ·) = (scan rest).map (output ++ [token] ++ ·) := by
  unfold lead
  cases scan rest <;> simp [Except.bind, Except.map]

theorem scan_visible {c : Char} (visible : Text.isBlank c = false) (rest : List Char) :
    scan (c :: rest) =
      (lexeme c rest).bind fun found => (scan found.2).map (found.1 :: ·) := by
  cases read : lexeme c rest with
  | error e => exact scan_of_error visible read
  | ok found => exact scan_of_ok visible read

/-- Between two lexemes a character is read as the first of the text that is left. -/
theorem readStart_answer (input : List Char) (output : List Token) (c : Char) :
    (readStart ⟨input, .start, [], output⟩ c).bind answer =
      (scan (c :: input)).map (output ++ ·) := by
  unfold readStart
  split
  · rename_i blank
    rw [scan_blank blank]
    rfl
  rename_i visible
  rw [scan_visible (Bool.eq_false_iff.mpr visible)]
  split
  · rename_i number
    rw [lexeme_number number, ← lead_eq]
    rfl
  rename_i numberless
  split
  · rename_i start
    rw [lexeme_name start]
    rfl
  rename_i nameless
  split
  · rename_i quote
    rw [lexeme_quote quote]
    simp only [Except.bind, answer, remaining, List.reverse_nil]
    cases stringTail c [] input <;> rfl
  rename_i bare
  rw [lexeme_other (Bool.eq_false_iff.mpr numberless) (Bool.eq_false_iff.mpr nameless) bare,
    symbol?_eq]
  dsimp only
  cases Lexer.symbol? c input with
  | none => rfl
  | some found => exact (map_lead output (.symbol found.1) found.2).symm

/-- The last character of the buffer decides whether a sign goes on with the number. -/
theorem continuesNumber_getLast? (buffer : List Char) (c : Char) :
    continuesNumber (buffer.getLast?.getD ' ') c =
      (c.isAlphanum || c == '.' || c == '_' || ((c == '+' || c == '-') &&
        buffer.getLast?.any fun d => d == 'e' || d == 'E')) := by
  cases buffer.getLast? <;> rfl

theorem readNumber_answer {buffer : List Char} (numeric : Numeric buffer) (input : List Char)
    (output : List Token) (c : Char) :
    (readNumber ⟨input, .number, buffer, output⟩ c).bind answer =
      answer ⟨c :: input, .number, buffer, output⟩ := by
  unfold readNumber
  dsimp only
  rw [← continuesNumber_getLast?]
  split
  · rename_i continued
    simp [Except.bind, keep, answer, remaining, numberTail, continued]
  · rename_i ended
    simp only [answer, remaining, numberTail, if_neg ended, List.append_nil,
      finishNumber_eq numeric]
    cases numberToken buffer with
    | error e => rfl
    | ok token =>
      rw [map_lead]
      exact readStart_answer input (output ++ [token]) c

theorem readName_answer (input buffer : List Char) (output : List Token) (c : Char) :
    (readName ⟨input, .name, buffer, output⟩ c).bind answer =
      answer ⟨c :: input, .name, buffer, output⟩ := by
  unfold readName
  split
  · rename_i part
    simp [Except.bind, keep, answer, remaining, part]
  · rename_i ended
    simp only [answer, remaining, List.takeWhile_cons_of_neg ended,
      List.dropWhile_cons_of_neg ended, List.append_nil, map_lead]
    exact readStart_answer input _ c

theorem readText_answer {quote : Char} (enclosing : IsQuote quote) (input buffer : List Char)
    (output : List Token) (c : Char) :
    (readText ⟨input, .text quote, buffer, output⟩ quote c).bind answer =
      answer ⟨c :: input, .text quote, buffer, output⟩ := by
  have visible := ne_backslash_of_isQuote enclosing
  unfold readText
  split
  · rename_i closed
    subst closed
    simp only [answer, remaining, stringTail_cons visible, if_pos, List.reverse_reverse, map_lead]
    rfl
  · rename_i inside
    split
    · rename_i backslash
      subst backslash
      cases input with
      | nil => rfl
      | cons d rest => simp [Except.bind, keep, answer, remaining, stringTail]
    · rename_i plain
      simp [Except.bind, keep, answer, remaining, stringTail_cons plain, inside]

/-- Reading a character changes nothing in the answer. -/
theorem read_answer {s : Scanner} {c : Char} {rest : List Char} (clean : s.Clean)
    (taken : s.input = c :: rest) : ({ s with input := rest }.read c).bind answer = s.answer := by
  obtain ⟨input, phase, buffer, output⟩ := s
  obtain rfl : input = c :: rest := taken
  cases phase with
  | start =>
    obtain rfl : buffer = [] := clean
    exact readStart_answer rest output c
  | number => exact readNumber_answer clean rest output c
  | name => exact readName_answer rest buffer output c
  | text quote => exact readText_answer clean rest buffer output c

theorem finish_answer {s : Scanner} (clean : s.Clean) (ended : s.input = []) :
    s.finish = s.answer := by
  obtain ⟨input, phase, buffer, output⟩ := s
  obtain rfl : input = [] := ended
  cases phase with
  | start => simp [finish, answer, remaining, scan_nil, Except.map]
  | number =>
    simp only [finish, answer, remaining, numberTail, List.append_nil, finishNumber_eq clean]
    cases numberToken buffer <;> simp [lead, scan_nil, Except.map, Except.bind]
  | name => simp [finish, answer, remaining, lead, scan_nil, Except.map, Except.bind]
  | text quote => rfl

/-- A run from a clean state gives its answer. The induction is on the input that is left, and the
states stay clean. -/
theorem run_eq_answer (s : Scanner) (clean : s.Clean) : s.run = s.answer := by
  fun_induction run s with
  | case1 s ended => exact finish_answer clean ended
  | case2 s c rest taken e failed =>
    have same := read_answer clean taken
    rwa [failed] at same
  | case3 s c rest taken next reads _ ih =>
    have same := read_answer clean taken
    rw [reads] at same
    rw [ih ((read_advances reads).clean clean)]
    exact same

/-- Reading character by character gives the tokens that reading lexeme by lexeme gives. -/
theorem tokens_eq (source : String) : tokens source = Linewise.tokens source := by
  have clean : Clean ⟨source.toList, .start, [], []⟩ := rfl
  have same : answer ⟨source.toList, .start, [], []⟩ = Linewise.tokens source := by
    unfold answer remaining Linewise.tokens
    cases scan source.toList <;> rfl
  exact (run_eq_answer _ clean).trans same

end Scanner

end Linewise
