import Mathlib.Data.List.Chain
import Linewise.Proofs.ScannerStates

/-! What the tokens of a text are, said without a scanner. From the left blanks are skipped, and
each token is the longest run of its kind: a kind is a set of texts, and no longer beginning of what
is left belongs to it. The first place where no lexeme begins, where a number denotes nothing or
where a string literal is not closed decides the error. Every text has exactly one such answer, and
reading lexeme by lexeme and reading character by character both give it. -/
namespace Linewise.Lexer

/-- The text begins with a run of the kind, and with no longer one. -/
structure Longest (kind : List Char → Prop) (text run rest : List Char) : Prop where
  cut : text = run ++ rest
  member : kind run
  greatest : ∀ other, other <+: text → kind other → other.length ≤ run.length

theorem Longest.unique {kind : List Char → Prop} {text run rest run' rest' : List Char}
    (longest : Longest kind text run rest) (longest' : Longest kind text run' rest') :
    run = run' ∧ rest = rest' := by
  have front : run <+: text := ⟨rest, longest.cut.symm⟩
  have front' : run' <+: text := ⟨rest', longest'.cut.symm⟩
  have le := longest'.greatest run front longest.member
  have ge := longest.greatest run' front' longest'.member
  obtain rfl : run = run' :=
    (List.prefix_of_prefix_length_le front front' le).eq_of_length (Nat.le_antisymm le ge)
  exact ⟨rfl, List.append_cancel_left (longest.cut.symm.trans longest'.cut)⟩

/-! ## Numbers -/

/-- How a number goes on behind the character `last`: with a letter, a digit, a point or an
underscore, or directly behind an exponent letter with a sign. -/
def NumberLink (last c : Char) : Prop :=
  c.isAlphanum = true ∨ c = '.' ∨ c = '_' ∨ (c = '+' ∨ c = '-') ∧ (last = 'e' ∨ last = 'E')

/-- Runs that begin with a digit, or with a point before a digit, and go on as numbers do. -/
inductive NumberRun : List Char → Prop where
  | digit {c : Char} {tail : List Char} (digit : c.isDigit = true)
      (linked : List.IsChain NumberLink (c :: tail)) : NumberRun (c :: tail)
  | point {c : Char} {tail : List Char} (digit : c.isDigit = true)
      (linked : List.IsChain NumberLink ('.' :: c :: tail)) : NumberRun ('.' :: c :: tail)

theorem continuesNumber_iff {last c : Char} :
    continuesNumber last c = true ↔ NumberLink last c := by
  simp [continuesNumber, NumberLink, or_assoc]

theorem isChain_numberTail (last : Char) (rest : List Char) :
    List.IsChain NumberLink (last :: (numberTail last rest).1) := by
  induction rest generalizing last with
  | nil => exact .singleton last
  | cons c rest ih =>
    rw [numberTail]
    split
    · rename_i continued
      exact .cons_cons (continuesNumber_iff.mp continued) (ih c)
    · exact .singleton last

theorem length_le_numberTail {last : Char} {run rest : List Char} (front : run <+: rest)
    (linked : List.IsChain NumberLink (last :: run)) :
    run.length ≤ (numberTail last rest).1.length := by
  induction run generalizing last rest with
  | nil => exact Nat.zero_le _
  | cons c run ih =>
    obtain ⟨after, rfl⟩ := front
    obtain ⟨link, more⟩ := List.isChain_cons_cons.mp linked
    rw [List.cons_append, numberTail, if_pos (continuesNumber_iff.mpr link)]
    exact Nat.succ_le_succ (ih (List.prefix_append run after) more)

theorem isBlank_of_startsNumber {c : Char} {rest : List Char}
    (starts : startsNumber c rest = true) : Text.isBlank c = false := by
  by_cases digit : c.isDigit = true
  · exact isBlank_of_isAlphanum (by simp [Char.isAlphanum, digit])
  · obtain ⟨rfl, -⟩ : c = '.' ∧ rest.head?.any Char.isDigit = true := by
      simpa [startsNumber, digit] using starts
    decide

theorem startsNumber_of_run {c : Char} {run rest : List Char} (front : run <+: c :: rest)
    (number : NumberRun run) : startsNumber c rest = true := by
  cases number with
  | digit digit linked =>
    obtain ⟨rfl, -⟩ := List.cons_prefix_cons.mp front
    simp [startsNumber, digit]
  | point digit linked =>
    obtain ⟨rfl, behind⟩ := List.cons_prefix_cons.mp front
    obtain ⟨after, rfl⟩ := behind
    simp [startsNumber, digit]

theorem NumberRun.isChain {run : List Char} (number : NumberRun run) :
    List.IsChain NumberLink run := by
  cases number with
  | digit digit linked | point digit linked => exact linked

/-- Where a number begins, its longest run is read. -/
theorem longest_number {c : Char} {rest : List Char} (starts : startsNumber c rest = true) :
    Longest NumberRun (c :: rest) (c :: (numberTail c rest).1) (numberTail c rest).2 where
  cut := by rw [List.cons_append, numberTail_append]
  member := by
    have linked := isChain_numberTail c rest
    by_cases digit : c.isDigit = true
    · exact .digit digit linked
    · obtain ⟨rfl, next⟩ : c = '.' ∧ rest.head?.any Char.isDigit = true := by
        simpa [startsNumber, digit] using starts
      cases rest with
      | nil => cases next
      | cons d rest =>
        have continued : continuesNumber '.' d = true := by
          simp [continuesNumber, Char.isAlphanum, show d.isDigit = true from next]
        rw [numberTail, if_pos continued] at linked ⊢
        exact .point next linked
  greatest := by
    intro other front number
    cases other with
    | nil => exact Nat.zero_le _
    | cons d other =>
      obtain ⟨rfl, behind⟩ := List.cons_prefix_cons.mp front
      exact Nat.succ_le_succ (length_le_numberTail behind number.isChain)

/-- What a run of a number denotes. Underscores do not count: without them it is an integer in
range, else a decimal with a finite double, else nothing. -/
inductive Denotes (run : List Char) : Except LexError Token → Prop where
  | int {n : Int64} (spells : Integer.Spells (run.filter (· != '_')) n.toInt) :
      Denotes run (.ok (.int n))
  | float {x : Float}
      (noInteger : ∀ n : Int64, ¬ Integer.Spells (run.filter (· != '_')) n.toInt)
      (written : Decimal.Written (run.filter (· != '_')) x) (finite : x.isFinite = true) :
      Denotes run (.ok (.float x))
  | nothing (noInteger : ∀ n : Int64, ¬ Integer.Spells (run.filter (· != '_')) n.toInt)
      (noDouble : ∀ x, Decimal.Written (run.filter (· != '_')) x → ¬ x.isFinite = true) :
      Denotes run (.error (.badNumber (String.ofList run)))

theorem NumberRun.numeric {run : List Char} (number : NumberRun run) : Scanner.Numeric run := by
  cases number with
  | digit digit linked => exact ⟨_, _, rfl, .inl digit⟩
  | point digit linked => exact ⟨_, _, rfl, .inr rfl⟩

/-- A number is read as what it denotes. -/
theorem denotes_iff {run : List Char} (number : NumberRun run) {reading : Except LexError Token} :
    Denotes run reading ↔ numberToken run = reading := by
  have double {x : Float} : Decimal.unsigned? (run.filter (· != '_')) = some x ↔
      Decimal.Written (run.filter (· != '_')) x := by
    rw [← number.numeric.signed?_eq, Decimal.signed?_eq_some_iff]
  constructor
  · intro denotes
    unfold numberToken
    cases denotes with
    | int spells => simp only [Integer.ofText?_eq_some_iff.mpr spells]
    | float noInteger written finite =>
      simp only [Integer.ofText?_eq_none_iff.mpr noInteger, double.mpr written, finite, if_true]
    | nothing noInteger noDouble =>
      simp only [Integer.ofText?_eq_none_iff.mpr noInteger]
      split
      · rename_i x found
        exact if_neg (noDouble x (double.mp found))
      · rfl
  · rintro rfl
    unfold numberToken
    dsimp only
    split
    · rename_i found
      exact .int (Integer.ofText?_eq_some_iff.mp found)
    · rename_i noInteger
      replace noInteger := Integer.ofText?_eq_none_iff.mp noInteger
      split
      · rename_i x found
        split
        · exact .float noInteger (double.mp found) ‹_›
        · refine .nothing noInteger fun y written => ?_
          obtain rfl := Option.some.inj (found.symm.trans (double.mpr written))
          assumption
      · rename_i unread
        refine .nothing noInteger fun y written => ?_
        rw [double.mpr written] at unread
        cases unread

/-! ## Names -/

/-- Where a name begins, its longest run is read. -/
theorem longest_name {c : Char} (start : Text.isNameStart c = true) (rest : List Char) :
    Longest NameShaped (c :: rest) (c :: rest.takeWhile Text.isNamePart)
      (rest.dropWhile Text.isNamePart) where
  cut := by rw [List.cons_append, List.takeWhile_append_dropWhile]
  member := ⟨start, List.all_eq_true.mp List.all_takeWhile⟩
  greatest := by
    intro other front shaped
    cases other with
    | nil => exact Nat.zero_le _
    | cons d other =>
      obtain ⟨rfl, after, rfl⟩ := List.cons_prefix_cons.mp front
      rw [List.takeWhile_append_of_pos shaped.2]
      exact Nat.succ_le_succ (List.prefix_append other _).length_le

theorem isNameStart_of_run {c : Char} {run rest : List Char} (front : run <+: c :: rest)
    (shaped : NameShaped run) : Text.isNameStart c = true := by
  cases run with
  | nil => cases shaped
  | cons d run =>
    obtain ⟨rfl, -⟩ := List.cons_prefix_cons.mp front
    exact shaped.1

/-! ## String literals -/

/-- The text between two quotes, without a quote of their kind that is not escaped, and what it
stands for: behind a backslash `n` is a line feed, `t` a tab and any other character itself. -/
inductive Quoted (quote : Char) : List Char → List Char → Prop where
  | nil : Quoted quote [] []
  | plain {c : Char} {body contents : List Char} (inside : c ≠ quote) (unescaped : c ≠ '\\')
      (later : Quoted quote body contents) : Quoted quote (c :: body) (c :: contents)
  | newline {body contents : List Char} (later : Quoted quote body contents) :
      Quoted quote ('\\' :: 'n' :: body) ('\n' :: contents)
  | tab {body contents : List Char} (later : Quoted quote body contents) :
      Quoted quote ('\\' :: 't' :: body) ('\t' :: contents)
  | escape {c : Char} {body contents : List Char} (notNewline : c ≠ 'n') (notTab : c ≠ 't')
      (later : Quoted quote body contents) : Quoted quote ('\\' :: c :: body) (c :: contents)

theorem Quoted.escaped {quote : Char} {body contents : List Char}
    (later : Quoted quote body contents) (c : Char) :
    Quoted quote ('\\' :: c :: body) (unescape c :: contents) := by
  unfold unescape
  split
  · subst c
    exact .newline later
  · split
    · subst c
      exact .tab later
    · exact .escape ‹_› ‹_› later

theorem quoted_of_stringTail {quote : Char} {read text contents after : List Char}
    (closed : stringTail quote read text = some (contents, after)) :
    ∃ body written, text = body ++ quote :: after ∧ Quoted quote body written ∧
      contents = read.reverse ++ written := by
  fun_induction stringTail quote read text with
  | case1 => cases closed
  | case2 => cases closed
  | case3 read c text ih =>
    obtain ⟨body, written, rfl, quoted, rfl⟩ := ih closed
    exact ⟨'\\' :: c :: body, unescape c :: written, rfl, quoted.escaped c, by simp⟩
  | case4 read text =>
    obtain ⟨rfl, rfl⟩ := Prod.mk.inj (Option.some.inj closed)
    exact ⟨[], [], rfl, .nil, by simp⟩
  | case5 read c text notLast notEscape inside ih =>
    obtain ⟨body, written, rfl, quoted, rfl⟩ := ih closed
    exact ⟨c :: body, c :: written, rfl,
      .plain inside (ne_backslash notLast notEscape) quoted, by simp⟩

theorem stringTail_of_quoted {quote : Char} (enclosing : IsQuote quote)
    {body written : List Char} (quoted : Quoted quote body written) (read after : List Char) :
    stringTail quote read (body ++ quote :: after) = some (read.reverse ++ written, after) := by
  induction quoted generalizing read with
  | nil =>
    simp [stringTail_cons (ne_backslash_of_isQuote enclosing)]
  | @plain c _ _ inside unescaped _ ih =>
    simp [stringTail_cons unescaped, inside, ih]
  | newline _ ih => simp [stringTail, unescape, ih]
  | tab _ ih => simp [stringTail, unescape, ih]
  | escape notNewline notTab _ ih => simp [stringTail, unescape, notNewline, notTab, ih]

/-! ## Symbols -/

/-- Texts of symbols. -/
def IsSpelling (run : List Char) : Prop :=
  ∃ s : Symbol, s.spelling = run

theorem spelling_of_symbol? {c : Char} {rest after : List Char} {s : Symbol}
    (found : symbol? c rest = some (s, after)) : c :: rest = s.spelling ++ after := by
  unfold symbol? at found
  split at found <;> simp at found <;> obtain ⟨rfl, rfl⟩ := found <;> rfl

/-- Where a symbol stands, one that is not shorter is found. -/
theorem symbol?_of_spelling {c : Char} {rest : List Char} {s : Symbol}
    (front : s.spelling <+: c :: rest) :
    ∃ found after, symbol? c rest = some (found, after) ∧
      s.spelling.length ≤ found.spelling.length := by
  obtain ⟨after, cut⟩ := front
  cases s
  all_goals
    simp only [Symbol.spelling, List.cons_append, List.nil_append, List.cons.injEq] at cut
    obtain ⟨rfl, rfl⟩ := cut
    unfold symbol?
    split <;> simp_all [Symbol.spelling]

theorem longest_symbol {c : Char} {rest after : List Char} {s : Symbol}
    (found : symbol? c rest = some (s, after)) :
    Longest IsSpelling (c :: rest) s.spelling after where
  cut := spelling_of_symbol? found
  member := ⟨s, rfl⟩
  greatest := by
    rintro _ front ⟨other, rfl⟩
    obtain ⟨s', after', found', le⟩ := symbol?_of_spelling front
    obtain ⟨rfl, -⟩ := Prod.mk.inj (Option.some.inj (found.symm.trans found'))
    exact le

theorem spelling_injective : Function.Injective Symbol.spelling := by
  intro s t same
  obtain ⟨c, tail, spelled, -, reads⟩ := reads_symbol s
  obtain ⟨c', tail', spelled', -, reads'⟩ := reads_symbol t
  obtain ⟨rfl, rfl⟩ := List.cons.inj (spelled.symm.trans (same.trans spelled'))
  have once := (reads [] separated_nil).symm.trans (reads' [] separated_nil)
  exact Token.symbol.inj (Prod.mk.inj (Except.ok.inj once)).1

/-- No other lexeme begins like a symbol. -/
theorem lexeme_symbol {c : Char} {rest after : List Char} {s : Symbol}
    (found : symbol? c rest = some (s, after)) :
    Text.isBlank c = false ∧ lexeme c rest = .ok (.symbol s, after) := by
  have first : Text.isBlank c = false ∧ startsNumber c rest = false ∧
      Text.isNameStart c = false ∧ ¬ (c = '"' ∨ c = '\'') := by
    have cut := spelling_of_symbol? found
    cases s
    all_goals
      simp only [Symbol.spelling, List.cons_append, List.cons.injEq] at cut
      obtain ⟨rfl, -⟩ := cut
      exact ⟨by decide, by simp [startsNumber], by decide, by decide⟩
  exact ⟨first.1, lexeme_of_symbol first.2.1 first.2.2.1 first.2.2.2 found⟩

/-! ## Lexemes -/

/-- The text begins with a lexeme: its token and what follows it, or what is wrong with it. -/
inductive Begins : List Char → Except LexError (Token × List Char) → Prop where
  | number {text run rest : List Char} {reading : Except LexError Token}
      (longest : Longest NumberRun text run rest) (denotes : Denotes run reading) :
      Begins text (reading.map fun token => (token, rest))
  | name {text run rest : List Char} (longest : Longest NameShaped text run rest) :
      Begins text (.ok (.name (String.ofList run), rest))
  | string {quote : Char} {body contents rest : List Char} (enclosing : IsQuote quote)
      (quoted : Quoted quote body contents) :
      Begins (quote :: (body ++ quote :: rest)) (.ok (.str (String.ofList contents), rest))
  /-- No quote of its kind closes the string literal. -/
  | unterminated {quote : Char} {rest : List Char} (enclosing : IsQuote quote)
      (unclosed : ∀ body contents after, Quoted quote body contents →
        rest ≠ body ++ quote :: after) :
      Begins (quote :: rest) (.error .unterminated)
  | symbol {text rest : List Char} {s : Symbol}
      (longest : Longest IsSpelling text s.spelling rest) :
      Begins text (.ok (.symbol s, rest))
  /-- Neither a blank nor any lexeme begins with the character. -/
  | unexpected {c : Char} {rest : List Char} (visible : Text.isBlank c = false)
      (bare : ¬ IsQuote c)
      (nothing : ∀ run, run <+: c :: rest →
        ¬ NumberRun run ∧ ¬ NameShaped run ∧ ¬ IsSpelling run) :
      Begins (c :: rest) (.error (.unexpected c))

/-- Where a lexeme begins, it is the one that is read. -/
theorem lexeme_of_begins {c : Char} {rest : List Char}
    {answer : Except LexError (Token × List Char)} (begins : Begins (c :: rest) answer) :
    Text.isBlank c = false ∧ lexeme c rest = answer := by
  cases begins with
  | @number _ run after reading longest denotes =>
    have starts := startsNumber_of_run ⟨after, longest.cut.symm⟩ longest.member
    obtain ⟨rfl, rfl⟩ := longest.unique (longest_number starts)
    rw [lexeme_number starts, (denotes_iff longest.member).mp denotes]
    exact ⟨isBlank_of_startsNumber starts, rfl⟩
  | @name _ run after longest =>
    have start := isNameStart_of_run ⟨after, longest.cut.symm⟩ longest.member
    obtain ⟨rfl, rfl⟩ := longest.unique (longest_name start rest)
    exact ⟨isBlank_of_isNameStart start, lexeme_name start⟩
  | string enclosing quoted =>
    refine ⟨isBlank_of_isQuote enclosing, ?_⟩
    rw [lexeme_quote enclosing, stringTail_of_quoted enclosing quoted]
    rfl
  | unterminated enclosing unclosed =>
    refine ⟨isBlank_of_isQuote enclosing, ?_⟩
    have stillOpen : stringTail c [] rest = none := by
      refine Option.eq_none_iff_forall_ne_some.mpr fun ⟨contents, after⟩ closed => ?_
      obtain ⟨body, written, cut, quoted, -⟩ := quoted_of_stringTail closed
      exact unclosed body written after quoted cut
    rw [lexeme_quote enclosing, stillOpen]
  | @symbol _ after s longest =>
    obtain ⟨s', after', found, -⟩ := symbol?_of_spelling ⟨after, longest.cut.symm⟩
    obtain ⟨same, rfl⟩ := longest.unique (longest_symbol found)
    obtain rfl := spelling_injective same
    exact lexeme_symbol found
  | unexpected visible bare nothing =>
    have numberless : startsNumber c rest = false := by
      refine Bool.eq_false_iff.mpr fun starts => ?_
      have longest := longest_number starts
      exact (nothing _ ⟨_, longest.cut.symm⟩).1 longest.member
    have nameless : Text.isNameStart c = false := by
      refine Bool.eq_false_iff.mpr fun start => ?_
      have longest := longest_name start rest
      exact (nothing _ ⟨_, longest.cut.symm⟩).2.1 longest.member
    have none : symbol? c rest = none := by
      refine Option.eq_none_iff_forall_ne_some.mpr fun ⟨s, after⟩ found => ?_
      have longest := longest_symbol found
      exact (nothing _ ⟨_, longest.cut.symm⟩).2.2 longest.member
    rw [lexeme_other numberless nameless bare, none]
    exact ⟨visible, rfl⟩

/-- Behind the blanks a lexeme begins, or an error. -/
theorem begins_lexeme {c : Char} (visible : Text.isBlank c = false) (rest : List Char) :
    Begins (c :: rest) (lexeme c rest) := by
  by_cases starts : startsNumber c rest = true
  · rw [lexeme_number starts]
    have longest := longest_number starts
    exact .number longest ((denotes_iff longest.member).mpr rfl)
  by_cases start : Text.isNameStart c = true
  · rw [lexeme_name start]
    exact .name (longest_name start rest)
  by_cases enclosing : IsQuote c
  · rw [lexeme_quote enclosing]
    split
    · rename_i closed
      obtain ⟨body, written, rfl, quoted, rfl⟩ := quoted_of_stringTail closed
      exact .string enclosing quoted
    · rename_i stillOpen
      refine .unterminated enclosing ?_
      rintro body contents after quoted rfl
      rw [stringTail_of_quoted enclosing quoted] at stillOpen
      cases stillOpen
  · rw [lexeme_other (Bool.eq_false_iff.mpr starts) (Bool.eq_false_iff.mpr start) enclosing]
    split
    · exact .symbol (longest_symbol ‹_›)
    · rename_i none
      refine .unexpected visible enclosing fun run front => ⟨?_, ?_, ?_⟩
      · exact fun number => starts (startsNumber_of_run front number)
      · exact fun shaped => start (isNameStart_of_run front shaped)
      · rintro ⟨s, rfl⟩
        obtain ⟨s', after, found, -⟩ := symbol?_of_spelling front
        rw [found] at none
        cases none

/-! ## Texts -/

/-- The answer for a text: its tokens from the left, or the first error. -/
inductive Munches : List Char → Except LexError (List Token) → Prop where
  | done : Munches [] (.ok [])
  | blank {c : Char} {rest : List Char} {answer : Except LexError (List Token)}
      (blank : Text.isBlank c = true) (later : Munches rest answer) : Munches (c :: rest) answer
  | lexeme {c : Char} {text rest : List Char} {token : Token}
      {answer : Except LexError (List Token)} (first : Begins (c :: text) (.ok (token, rest)))
      (later : Munches rest answer) : Munches (c :: text) (answer.map (token :: ·))
  | error {c : Char} {text : List Char} {e : LexError} (first : Begins (c :: text) (.error e)) :
      Munches (c :: text) (.error e)

theorem munches_scan (text : List Char) : Munches text (scan text) := by
  induction text using scan.induct with
  | case1 =>
    rw [scan_nil]
    exact .done
  | case2 c text blank ih =>
    rw [scan_blank blank]
    exact .blank blank ih
  | case3 c text visible e failed =>
    rw [Bool.not_eq_true] at visible
    rw [scan_of_error visible failed]
    exact .error (failed ▸ begins_lexeme visible text)
  | case4 c text visible token after read _ _ _ ih
  | case5 c text visible token after read _ _ _ ih =>
    rw [Bool.not_eq_true] at visible
    rw [scan_of_ok visible read]
    exact .lexeme (read ▸ begins_lexeme visible text) ih

theorem scan_of_munches {text : List Char} {answer : Except LexError (List Token)}
    (munches : Munches text answer) : scan text = answer := by
  induction munches with
  | done => exact scan_nil
  | blank blank later ih => rw [scan_blank blank, ih]
  | lexeme first later ih =>
    obtain ⟨visible, read⟩ := lexeme_of_begins first
    rw [scan_of_ok visible read, ih]
  | error first =>
    obtain ⟨visible, failed⟩ := lexeme_of_begins first
    exact scan_of_error visible failed

/-- Scanning is maximal munch: the machine that reads character by character gives the tokens of the
text, and they are the only answer that taking the longest lexeme from the left allows. -/
theorem tokens_maximal_munch (source : String) :
    Scanner.tokens source = tokens source ∧
      ∀ answer, tokens source = answer ↔ Munches source.toList answer := by
  refine ⟨Scanner.tokens_eq source, fun answer => ⟨?_, scan_of_munches⟩⟩
  rintro rfl
  exact munches_scan source.toList

/-- A sign goes on with a number behind an exponent letter only. -/
example : tokens "a**-1_0<=b" =
    .ok [.name "a", .symbol .power, .symbol .minus, .int 10, .symbol .lessEq, .name "b"] := by
  cbv

example : tokens "1_000e+x;" = .error (.badNumber "1_000e+x") := by
  cbv

end Linewise.Lexer
