import Linewise.Decimal.Numeral
import Linewise.Text.Blank
import Linewise.Text.Numeric
import Linewise.Token

/-! From text to tokens. Each token is the longest run of its kind from the left; blanks only
separate. The scanner reads one lexeme at a time, and what a lexeme leaves is never longer than what
followed its first character, so the scan ends. -/
namespace Linewise

/-- `LexingError`: why a text has no tokens. -/
inductive LexError where
  /-- A string literal is not closed. -/
  | unterminated
  /-- A run that begins like a number denotes none. -/
  | badNumber (text : String)
  /-- No token begins with this character. -/
  | unexpected (c : Char)
deriving DecidableEq

/-- The wording of a scanning error. -/
def LexError.message : LexError → String
  | .unterminated => "unterminated string literal"
  | .badNumber text => "invalid number literal '" ++ text ++ "'"
  | .unexpected c => "unexpected character '" ++ String.singleton c ++ "'"

namespace Lexer

/-- Whether `c` goes on with a number whose last character so far is `last`: letters, digits, points
and underscores do, and a sign does directly after an exponent letter. -/
def continuesNumber (last c : Char) : Bool :=
  c.isAlphanum || c == '.' || c == '_' ||
    ((c == '+' || c == '-') && (last == 'e' || last == 'E'))

/-- `handle_number`, over all its characters: splits off the rest of a number whose last character
so far is `last`. -/
def numberTail (last : Char) : List Char → List Char × List Char
  | [] => ([], [])
  | c :: rest =>
    if continuesNumber last c then
      let (tail, after) := numberTail c rest
      (c :: tail, after)
    else ([], c :: rest)

/-- `finish_number`: the token of a run that begins like a number. Underscores do not count; without
them the run is an integer in range, or a decimal with a finite double. -/
def numberToken (run : List Char) : Except LexError Token :=
  let digits := run.filter (· != '_')
  match Integer.ofText? digits with
  | some n => .ok (.int n)
  | none =>
    match Decimal.unsigned? digits with
    | some x => if x.isFinite then .ok (.float x) else .error (.badNumber (String.ofList run))
    | none => .error (.badNumber (String.ofList run))

/-- The character an escape stands for. -/
def unescape (c : Char) : Char :=
  if c = 'n' then '\n' else if c = 't' then '\t' else c

/-- `handle_string`, over all its characters: reads a string literal up to its closing quote. `read`
holds the contents so far, last character first. -/
def stringTail (quote : Char) (read : List Char) : List Char → Option (List Char × List Char)
  | [] => none
  | ['\\'] => none
  | '\\' :: c :: rest => stringTail quote (unescape c :: read) rest
  | c :: rest => if c = quote then some (read.reverse, rest) else stringTail quote (c :: read) rest

/-- The symbol that begins with `c`, two characters long where possible. -/
def symbol? (c : Char) (rest : List Char) : Option (Symbol × List Char) :=
  match c, rest with
  | '+', _ => some (.plus, rest)
  | '-', _ => some (.minus, rest)
  | '*', '*' :: after => some (.power, after)
  | '*', _ => some (.star, rest)
  | '/', '/' :: after => some (.floorDiv, after)
  | '/', _ => some (.slash, rest)
  | '%', _ => some (.percent, rest)
  | '(', _ => some (.lparen, rest)
  | ')', _ => some (.rparen, rest)
  | '=', '=' :: after => some (.eq, after)
  | '!', '=' :: after => some (.notEq, after)
  | '!', _ => some (.bang, rest)
  | '<', '=' :: after => some (.lessEq, after)
  | '<', _ => some (.less, rest)
  | '>', '=' :: after => some (.greaterEq, after)
  | '>', _ => some (.greater, rest)
  | '&', '&' :: after => some (.andAnd, after)
  | '|', '|' :: after => some (.orOr, after)
  | _, _ => none

/-- Whether a number begins with `c`: a digit, or a point directly before a digit. -/
def startsNumber (c : Char) (rest : List Char) : Bool :=
  c.isDigit || (c == '.' && (rest.head?.any Char.isDigit))

/-- `handle_start`, and the states it leads to: reads the token that begins with `c`, which is not
blank. -/
def lexeme (c : Char) (rest : List Char) : Except LexError (Token × List Char) :=
  if startsNumber c rest then
    let (tail, after) := numberTail c rest
    match numberToken (c :: tail) with
    | .ok token => .ok (token, after)
    | .error e => .error e
  else if Text.isNameStart c then
    .ok (.name (String.ofList (c :: rest.takeWhile Text.isNamePart)),
      rest.dropWhile Text.isNamePart)
  else if c = '"' ∨ c = '\'' then
    match stringTail c [] rest with
    | some (contents, after) => .ok (.str (String.ofList contents), after)
    | none => .error .unterminated
  else
    match symbol? c rest with
    | some (s, after) => .ok (.symbol s, after)
    | none => .error (.unexpected c)

theorem numberTail_append (last : Char) (rest : List Char) :
    (numberTail last rest).1 ++ (numberTail last rest).2 = rest := by
  induction rest generalizing last with
  | nil => rfl
  | cons c rest ih =>
    rw [numberTail]
    split
    · simp [ih]
    · rfl

theorem stringTail_length {quote : Char} {read rest contents after : List Char}
    (closed : stringTail quote read rest = some (contents, after)) :
    after.length ≤ rest.length := by
  fun_induction stringTail quote read rest with
  | case1 => cases closed
  | case2 => cases closed
  | case3 read c rest ih =>
    have := ih closed
    simp only [List.length_cons]
    omega
  | case4 =>
    obtain ⟨_, rfl⟩ := Prod.mk.inj (Option.some.inj closed)
    simp
  | case5 read c rest _ _ _ ih =>
    have := ih closed
    simp only [List.length_cons]
    omega

theorem symbol?_length {c : Char} {rest after : List Char} {s : Symbol}
    (found : symbol? c rest = some (s, after)) : after.length ≤ rest.length := by
  unfold symbol? at found
  split at found <;> simp at found <;> obtain ⟨_, rfl⟩ := found <;> simp

/-- What a lexeme leaves is no longer than what followed its first character. -/
theorem lexeme_length {c : Char} {rest after : List Char} {token : Token}
    (read : lexeme c rest = .ok (token, after)) : after.length ≤ rest.length := by
  unfold lexeme at read
  split at read
  · have split := congrArg List.length (numberTail_append c rest)
    rw [List.length_append] at split
    dsimp only at read
    split at read
    · obtain ⟨_, rfl⟩ := Prod.mk.inj (Except.ok.inj read)
      omega
    · cases read
  · split at read
    · obtain ⟨_, rfl⟩ := Prod.mk.inj (Except.ok.inj read)
      exact (List.dropWhile_sublist _).length_le
    · split at read
      · split at read
        · rename_i closed
          obtain ⟨_, rfl⟩ := Prod.mk.inj (Except.ok.inj read)
          exact stringTail_length closed
        · cases read
      · split at read
        · rename_i found
          obtain ⟨_, rfl⟩ := Prod.mk.inj (Except.ok.inj read)
          exact symbol?_length found
        · cases read

/-- `make_tokens`: the tokens of a text, or the error at the first place where there is none. -/
def scan : List Char → Except LexError (List Token)
  | [] => .ok []
  | c :: rest =>
    if Text.isBlank c then scan rest
    else
      match read : lexeme c rest with
      | .error e => .error e
      | .ok (token, after) =>
        have := lexeme_length read
        match scan after with
        | .error e => .error e
        | .ok tokens => .ok (token :: tokens)
termination_by text => text.length

end Lexer

/-- `split_into_tokens`: the tokens of an expression text. -/
def tokens (source : String) : Except LexError (List Token) :=
  Lexer.scan source.toList

end Linewise
