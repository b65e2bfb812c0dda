import Linewise.Proofs.SpacedLexemes

/-! Blanks end lexemes. No lexeme but a string literal goes on over a blank, so a text is scanned up
to a blank as if it ended there, and behind the blank as if it began there. The one text that a
blank does not close is a string literal that is still open. -/
namespace Linewise

/-- None of the characters is blank. -/
def Text.BlankFree (text : List Char) : Prop :=
  ∀ c ∈ text, isBlank c = false

-- The characters of the text are tried one by one; all characters together are far too many.
instance : DecidablePred Text.BlankFree :=
  fun text => decidable_of_iff ((text.all fun c => !Text.isBlank c) = true)
    (by simp [Text.BlankFree])

namespace Lexer

/-- Nothing follows, or a blank does. -/
def Parted (rest : List Char) : Prop :=
  ∀ c ∈ rest.head?, Text.isBlank c = true

theorem parted_nil : Parted [] := by
  simp [Parted]

theorem parted_cons {b : Char} (blank : Text.isBlank b = true) (rest : List Char) :
    Parted (b :: rest) := by
  simpa [Parted] using blank

/-! ## Characters -/

theorem isAscii_of_isAlpha {c : Char} (letter : c.isAlpha = true) : c.toNat < 128 := by
  rcases (Bool.or_eq_true c.isUpper c.isLower).mp letter with upper | lower
  · have high : c.val ≤ 'Z'.val := (of_decide_eq_true upper).2
    exact Nat.lt_of_le_of_lt high (by decide)
  · have high : c.val ≤ 'z'.val := of_decide_eq_true (Bool.and_eq_true_iff.mp lower).2
    exact Nat.lt_of_le_of_lt high (by decide)

theorem isBlank_of_isAlphanum {c : Char} (plain : c.isAlphanum = true) :
    Text.isBlank c = false := by
  rcases (Bool.or_eq_true c.isAlpha c.isDigit).mp plain with letter | digit
  · have low := toNat_of_isAlpha letter
    exact isBlank_of_ascii (by omega) (isAscii_of_isAlpha letter)
  · obtain ⟨low, high⟩ := toNat_of_isDigit digit
    exact isBlank_of_ascii (by omega) (by omega)

/-- Outside ASCII the ranges of numeric characters and the ranges of blanks are apart. -/
theorem numericRanges_apart : ∀ numerics ∈ Text.numericRanges, ∀ blanks ∈ Text.blankRanges,
    numerics.2 < blanks.1 ∨ blanks.2 < numerics.1 := by
  decide +kernel

theorem isBlank_of_isNumeric {c : Char} (numeric : Text.isNumeric c = true) :
    Text.isBlank c = false := by
  unfold Text.isNumeric at numeric
  split at numeric
  · have low := (toNat_of_isDigit numeric).1
    exact isBlank_of_ascii (by omega) (by omega)
  · refine Bool.eq_false_iff.mpr fun blank => ?_
    obtain ⟨numerics, member, low, high⟩ := Text.inRanges_iff.mp numeric
    obtain ⟨blanks, listed, first, last⟩ := Text.inRanges_iff.mp blank
    rcases numericRanges_apart numerics member blanks listed with before | behind
    · omega
    · omega

theorem isNamePart_of_isBlank {c : Char} (blank : Text.isBlank c = true) :
    Text.isNamePart c = false := by
  refine Bool.eq_false_iff.mpr fun part => ?_
  rcases Bool.or_eq_true _ _ ▸ part with other | underscore
  · rcases Bool.or_eq_true _ _ ▸ other with letter | numeric
    · have start : Text.isNameStart c = true := by simp [Text.isNameStart, letter]
      simp [isBlank_of_isNameStart start] at blank
    · simp [isBlank_of_isNumeric numeric] at blank
  · have start : Text.isNameStart c = true := by simp [Text.isNameStart, underscore]
    simp [isBlank_of_isNameStart start] at blank

theorem isAlphanum_of_isBlank {c : Char} (blank : Text.isBlank c = true) :
    c.isAlphanum = false := by
  refine Bool.eq_false_iff.mpr fun plain => ?_
  simp [isBlank_of_isAlphanum plain] at blank

theorem isDigit_of_isBlank {c : Char} (blank : Text.isBlank c = true) : c.isDigit = false :=
  (Bool.or_eq_false_iff.mp (isAlphanum_of_isBlank blank)).2

/-- The characters, besides letters and digits, that tell a lexeme to go on. -/
def signs : List Char :=
  ['.', '_', '+', '-', '*', '/', '=', '&', '|', '\\']

theorem ne_of_isBlank {b : Char} (blank : Text.isBlank b = true) : ∀ c ∈ signs, b ≠ c := by
  have visible : Text.BlankFree signs := by decide
  rintro c listed rfl
  simp [visible b listed] at blank

theorem continuesNumber_of_isBlank {c : Char} (blank : Text.isBlank c = true) (last : Char) :
    continuesNumber last c = false := by
  have others := ne_of_isBlank blank
  simp only [signs, List.forall_mem_cons] at others
  simp [continuesNumber, isAlphanum_of_isBlank blank, others]

/-! ## Lexemes before a blank -/

section

variable {rest : List Char} (parted : Parted rest)
include parted

theorem numberTail_parted (last : Char) (w : List Char) :
    numberTail last (w ++ rest) = ((numberTail last w).1, (numberTail last w).2 ++ rest) := by
  induction w generalizing last with
  | nil =>
    cases rest with
    | nil => rfl
    | cons b more => simp [numberTail, continuesNumber_of_isBlank (parted b rfl)]
  | cons c w ih =>
    by_cases continued : continuesNumber last c = true
    · simp [numberTail, continued, ih]
    · simp [numberTail, continued]

theorem takeWhile_parted (w : List Char) :
    (w ++ rest).takeWhile Text.isNamePart = w.takeWhile Text.isNamePart := by
  induction w with
  | nil =>
    cases rest with
    | nil => rfl
    | cons b more => simp [isNamePart_of_isBlank (parted b rfl)]
  | cons c w ih =>
    by_cases part : Text.isNamePart c = true
    · simp [part, ih]
    · simp [part]

theorem dropWhile_parted (w : List Char) :
    (w ++ rest).dropWhile Text.isNamePart = w.dropWhile Text.isNamePart ++ rest := by
  have whole : (w ++ rest).takeWhile Text.isNamePart ++ (w ++ rest).dropWhile Text.isNamePart =
      w.takeWhile Text.isNamePart ++ (w.dropWhile Text.isNamePart ++ rest) := by
    rw [List.takeWhile_append_dropWhile, ← List.append_assoc, List.takeWhile_append_dropWhile]
  rw [takeWhile_parted parted w] at whole
  exact List.append_cancel_left whole

theorem startsNumber_parted (c : Char) (w : List Char) :
    startsNumber c (w ++ rest) = startsNumber c w := by
  cases w with
  | nil =>
    cases rest with
    | nil => rfl
    | cons b more => simp [startsNumber, isDigit_of_isBlank (parted b rfl)]
  | cons d w => rfl

/-- The second character of a symbol is not blank. -/
theorem symbol?_parted (c : Char) (w : List Char) :
    symbol? c (w ++ rest) = (symbol? c w).map fun found => (found.1, found.2 ++ rest) := by
  cases w with
  | cons d w =>
    unfold symbol?
    split <;> simp_all
  | nil =>
    cases rest with
    | nil => simp
    | cons b more =>
      have others := ne_of_isBlank (parted b rfl)
      simp only [signs, List.forall_mem_cons] at others
      unfold symbol?
      split <;> simp_all

end

/-- A character with something or nothing behind it that is not an escape is no backslash. -/
theorem ne_backslash {c : Char} {rest : List Char} (notLast : c = '\\' → rest = [] → False)
    (notEscape : ∀ d more, c = '\\' → rest = d :: more → False) : c ≠ '\\' := by
  intro backslash
  cases rest with
  | nil => exact notLast backslash rfl
  | cons d more => exact notEscape d more backslash rfl

theorem stringTail_cons {c : Char} (plain : c ≠ '\\') (quote : Char) (read rest : List Char) :
    stringTail quote read (c :: rest) =
      if c = quote then some (read.reverse, rest) else stringTail quote (c :: read) rest := by
  rw [stringTail]
  · simp [plain]
  · simp [plain]

/-- What stands behind a closed string literal does not matter for it. -/
theorem stringTail_append {quote : Char} {read w contents after : List Char}
    (closed : stringTail quote read w = some (contents, after)) (rest : List Char) :
    stringTail quote read (w ++ rest) = some (contents, after ++ rest) := by
  fun_induction stringTail quote read w with
  | case1 => cases closed
  | case2 => cases closed
  | case3 read c w ih => simpa only [List.cons_append, stringTail] using ih closed
  | case4 read w notLast notEscape =>
    obtain ⟨rfl, rfl⟩ := Prod.mk.inj (Option.some.inj closed)
    rw [List.cons_append, stringTail_cons (ne_backslash notLast notEscape), if_pos rfl]
  | case5 read c w notLast notEscape other ih =>
    rw [List.cons_append, stringTail_cons (ne_backslash notLast notEscape), if_neg other]
    exact ih closed

/-- What a string literal leaves is the end of its text. -/
theorem stringTail_suffix {quote : Char} {read w contents after : List Char}
    (closed : stringTail quote read w = some (contents, after)) : after <:+ w := by
  fun_induction stringTail quote read w with
  | case1 => cases closed
  | case2 => cases closed
  | case3 read c w ih => exact (ih closed).trans ⟨['\\', c], rfl⟩
  | case4 read w =>
    obtain ⟨rfl, rfl⟩ := Prod.mk.inj (Option.some.inj closed)
    exact List.suffix_cons _ _
  | case5 read c w _ _ _ ih => exact (ih closed).trans (List.suffix_cons _ _)

/-- A string literal that is still open before a blank goes on behind it. -/
theorem stringTail_open {quote b : Char} {read w rest contents after : List Char}
    (blank : Text.isBlank b = true) (unclosed : stringTail quote read w = none)
    (closed : stringTail quote read (w ++ b :: rest) = some (contents, after)) :
    after <:+ rest := by
  fun_induction stringTail quote read w with
  | case1 read =>
    have plain : b ≠ '\\' := ne_of_isBlank blank _ (by decide)
    rw [List.nil_append, stringTail_cons plain] at closed
    split at closed
    · obtain ⟨-, rfl⟩ := Prod.mk.inj (Option.some.inj closed)
      exact List.suffix_rfl
    · exact stringTail_suffix closed
  | case2 read =>
    rw [List.singleton_append, stringTail] at closed
    exact stringTail_suffix closed
  | case3 read c w ih =>
    rw [List.cons_append, List.cons_append, stringTail] at closed
    exact ih unclosed closed
  | case4 => cases unclosed
  | case5 read c w notLast notEscape other ih =>
    rw [List.cons_append, stringTail_cons (ne_backslash notLast notEscape), if_neg other] at closed
    exact ih unclosed closed

/-- A lexeme before a blank is read as if the text ended there, unless that would leave a string
literal open. -/
theorem lexeme_parted {rest : List Char} (parted : Parted rest) {c : Char} {w : List Char}
    (closed : lexeme c w ≠ .error .unterminated) :
    lexeme c (w ++ rest) = (lexeme c w).map fun read => (read.1, read.2 ++ rest) := by
  unfold lexeme at closed ⊢
  rw [startsNumber_parted parted]
  by_cases number : startsNumber c w = true
  · simp only [number, if_true, numberTail_parted parted]
    cases numberToken (c :: (numberTail c w).1) <;> rfl
  · by_cases start : Text.isNameStart c = true
    · simp only [number, start, takeWhile_parted parted, dropWhile_parted parted]
      rfl
    · by_cases quote : c = '"' ∨ c = '\''
      · simp only [number, start, quote] at closed ⊢
        cases ended : stringTail c [] w with
        | none => simp [ended] at closed
        | some found =>
          obtain ⟨contents, after⟩ := found
          rw [stringTail_append ended rest]
          rfl
      · simp only [number, start, quote, symbol?_parted parted]
        cases symbol? c w <;> rfl

/-! ## Texts before a blank -/

theorem scan_nil : scan [] = .ok [] := by
  rw [scan]

theorem scan_blank {c : Char} (blank : Text.isBlank c = true) (rest : List Char) :
    scan (c :: rest) = scan rest := by
  rw [scan, if_pos blank]

theorem scan_of_error {c : Char} {rest : List Char} {e : LexError}
    (visible : Text.isBlank c = false) (failed : lexeme c rest = .error e) :
    scan (c :: rest) = .error e := by
  rw [scan, if_neg (by simp [visible])]
  split
  · rename_i other
    rw [failed] at other
    exact congrArg _ (Except.error.inj other).symm
  · rename_i read
    rw [failed] at read
    cases read

theorem scan_of_ok {c : Char} {rest after : List Char} {token : Token}
    (visible : Text.isBlank c = false) (read : lexeme c rest = .ok (token, after)) :
    scan (c :: rest) = (scan after).map (token :: ·) := by
  rw [scan, if_neg (by simp [visible])]
  split
  · rename_i failed
    rw [read] at failed
    cases failed
  · rename_i other
    rw [read] at other
    cases other
    cases scan after <;> rfl

/-- The tokens of two texts one after the other. The first error counts. -/
def followedBy (first second : Except LexError (List Token)) : Except LexError (List Token) :=
  match first, second with
  | .error e, _ => .error e
  | .ok _, .error e => .error e
  | .ok before, .ok behind => .ok (before ++ behind)

theorem followedBy_nil (second : Except LexError (List Token)) :
    followedBy (.ok []) second = second := by
  cases second <;> rfl

theorem followedBy_map (token : Token) (first second : Except LexError (List Token)) :
    followedBy (first.map (token :: ·)) second = (followedBy first second).map (token :: ·) := by
  cases first <;> cases second <;> rfl

/-- Behind an error nothing matters. -/
theorem followedBy_congr {first second third : Except LexError (List Token)}
    (same : ∀ read, first = .ok read → second = third) :
    followedBy first second = followedBy first third := by
  cases first with
  | error e => rfl
  | ok read => rw [same read rfl]

/-- A text is scanned up to a blank as if it ended there, and behind it as if it began there. -/
theorem scan_parted {rest : List Char} (parted : Parted rest) {text : List Char}
    (closed : scan text ≠ .error .unterminated) :
    scan (text ++ rest) = followedBy (scan text) (scan rest) := by
  induction text using scan.induct with
  | case1 => rw [List.nil_append, scan_nil, followedBy_nil]
  | case2 c text blank ih =>
    rw [scan_blank blank] at closed ⊢
    rw [List.cons_append, scan_blank blank]
    exact ih closed
  | case3 c text visible e failed =>
    rw [Bool.not_eq_true] at visible
    rw [scan_of_error visible failed] at closed ⊢
    have same := lexeme_parted parted (c := c) (w := text) (by simpa [failed] using closed)
    rw [failed] at same
    rw [List.cons_append, scan_of_error visible same]
    rfl
  | case4 c text visible token after read _ _ _ ih
  | case5 c text visible token after read _ _ _ ih =>
    rw [Bool.not_eq_true] at visible
    have same := lexeme_parted parted (c := c) (w := text) (by simp [read])
    rw [read] at same
    rw [List.cons_append, scan_of_ok visible same, scan_of_ok visible read, followedBy_map, ih]
    intro stillOpen
    rw [scan_of_ok visible read, stillOpen] at closed
    exact closed rfl

/-! ## Texts whose string literals hold no blank -/

/-- The characters that enclose a string literal. -/
def IsQuote (c : Char) : Prop :=
  c = '"' ∨ c = '\''

instance : DecidablePred IsQuote :=
  fun c => inferInstanceAs (Decidable (c = '"' ∨ c = '\''))

theorem isBlank_of_isQuote {c : Char} (enclosing : IsQuote c) : Text.isBlank c = false := by
  rcases enclosing with rfl | rfl <;> decide

theorem ne_backslash_of_isQuote {c : Char} (enclosing : IsQuote c) : c ≠ '\\' := by
  rcases enclosing with rfl | rfl <;> decide

/-- None of the characters is a quote. -/
def QuoteFree (text : List Char) : Prop :=
  ∀ c ∈ text, ¬ IsQuote c

instance : DecidablePred QuoteFree :=
  fun text => decidable_of_iff ((text.all fun c => decide (¬ IsQuote c)) = true)
    (by simp [QuoteFree])

/-- Scanning the text reads no blank inside a string literal. Behind the first error nothing is
read. -/
inductive Tight : List Char → Prop
  | nil : Tight []
  | blank {c : Char} {rest : List Char} (blank : Text.isBlank c = true) (later : Tight rest) :
    Tight (c :: rest)
  /-- A lexeme is read from its first character `c` and the characters `taken` behind it. -/
  | lexeme {c : Char} {taken after : List Char} {token : Token}
    (visible : Text.isBlank c = false) (read : lexeme c (taken ++ after) = .ok (token, after))
    (tight : IsQuote c → Text.BlankFree taken) (later : Tight after) :
    Tight (c :: (taken ++ after))
  /-- No lexeme begins with `c`. A string literal that is not closed is read up to the end. -/
  | stuck {c : Char} {rest : List Char} {e : LexError} (visible : Text.isBlank c = false)
    (failed : Lexer.lexeme c rest = .error e)
    (tight : IsQuote c → Text.BlankFree rest) : Tight (c :: rest)

theorem numberToken_ne_unterminated (run : List Char) :
    numberToken run ≠ .error .unterminated := by
  unfold numberToken
  dsimp only
  split
  · simp
  · split
    · split <;> simp
    · simp

/-- Only a string literal can be left open. -/
theorem lexeme_unterminated {c : Char} {rest : List Char}
    (unclosed : lexeme c rest = .error .unterminated) :
    IsQuote c ∧ stringTail c [] rest = none := by
  unfold lexeme at unclosed
  dsimp only at unclosed
  split at unclosed
  · split at unclosed
    · cases unclosed
    · rename_i failed
      rw [Except.error.inj unclosed] at failed
      exact absurd failed (numberToken_ne_unterminated _)
  · split at unclosed
    · cases unclosed
    · split at unclosed
      · rename_i quote
        split at unclosed
        · cases unclosed
        · exact ⟨quote, ‹_›⟩
      · split at unclosed <;> cases unclosed

theorem stringTail_of_lexeme {c : Char} {rest after : List Char} {token : Token}
    (quote : IsQuote c) (read : lexeme c rest = .ok (token, after)) :
    ∃ contents, stringTail c [] rest = some (contents, after) := by
  have number : startsNumber c rest = false := by
    rcases quote with rfl | rfl <;> simp [startsNumber]
  have nameless : Text.isNameStart c = false := by
    rcases quote with rfl | rfl <;> decide
  rw [lexeme, if_neg (by simp [number]), if_neg (by simp [nameless])] at read
  rw [if_pos (show c = '"' ∨ c = '\'' from quote)] at read
  split at read
  · rename_i contents _ closed
    obtain ⟨-, rfl⟩ := Prod.mk.inj (Except.ok.inj read)
    exact ⟨contents, closed⟩
  · cases read

/-- A lexeme that takes no blank into a string literal is complete before the first blank. -/
theorem lexeme_closed {b c : Char} (blank : Text.isBlank b = true)
    {front rest taken after : List Char} {token : Token}
    (read : lexeme c (front ++ b :: rest) = .ok (token, after))
    (whole : taken ++ after = front ++ b :: rest)
    (tight : IsQuote c → Text.BlankFree taken) :
    lexeme c front ≠ .error .unterminated := by
  intro unclosed
  obtain ⟨quote, stillOpen⟩ := lexeme_unterminated unclosed
  obtain ⟨contents, ended⟩ := stringTail_of_lexeme quote read
  obtain ⟨more, rfl⟩ := stringTail_open blank stillOpen ended
  have held : taken = front ++ b :: more := by
    rw [← List.cons_append, ← List.append_assoc] at whole
    exact List.append_cancel_right whole
  have visible := tight quote b (by simp [held])
  simp [blank] at visible

/-- A text that begins with a visible character is cut behind it. -/
theorem cut_of_visible {b c : Char} {text front rest : List Char}
    (visible : Text.isBlank c = false) (blank : Text.isBlank b = true)
    (cut : c :: text = front ++ b :: rest) :
    ∃ more, front = c :: more ∧ text = more ++ b :: rest := by
  cases front with
  | nil =>
    obtain ⟨rfl, -⟩ := List.cons.inj cut
    simp [blank] at visible
  | cons d more =>
    rw [List.cons_append, List.cons.injEq] at cut
    obtain ⟨rfl, behind⟩ := cut
    exact ⟨more, rfl, behind⟩

/-- Up to a blank no string literal of a tight text is left open, and what stands behind the blank
is tight if it is read at all. -/
theorem Tight.split {b : Char} (blank : Text.isBlank b = true) {text front rest : List Char}
    (tight : Tight text) (cut : text = front ++ b :: rest) :
    scan front ≠ .error .unterminated ∧ ∀ read, scan front = .ok read → Tight rest := by
  induction tight generalizing front with
  | nil => simp at cut
  | @blank c text first later ih =>
    cases front with
    | nil =>
      obtain ⟨rfl, rfl⟩ := List.cons.inj cut
      rw [scan_nil]
      exact ⟨by simp, fun _ _ => later⟩
    | cons d front =>
      rw [List.cons_append, List.cons.injEq] at cut
      obtain ⟨rfl, behind⟩ := cut
      rw [scan_blank first]
      exact ih behind
  | @lexeme c taken after token visible read tight later ih =>
    obtain ⟨more, rfl, behind⟩ := cut_of_visible visible blank cut
    rw [behind] at read
    have closed := lexeme_closed blank read behind tight
    rw [lexeme_parted (parted_cons blank rest) closed] at read
    -- The lexeme ends before the blank, so the blank stands in what the lexeme leaves.
    cases early : Lexer.lexeme c more with
    | error e => simp [early, Except.map] at read
    | ok found =>
      simp only [early, Except.map, Except.ok.injEq, Prod.mk.injEq] at read
      obtain ⟨ended, further⟩ := ih read.2.symm
      rw [scan_of_ok visible early]
      cases scanned : scan found.2 with
      | error e => simpa [Except.map, scanned] using ended
      | ok tokens => exact ⟨by simp [Except.map], fun _ _ => further tokens scanned⟩
  | @stuck c text e visible failed tight =>
    obtain ⟨more, rfl, rfl⟩ := cut_of_visible visible blank cut
    have closed : Lexer.lexeme c more ≠ .error .unterminated := by
      intro unclosed
      have shown := tight (lexeme_unterminated unclosed).1 b (by simp)
      simp [blank] at shown
    rw [lexeme_parted (parted_cons blank rest) closed] at failed
    cases early : Lexer.lexeme c more with
    | ok found => simp [early, Except.map] at failed
    | error e =>
      rw [scan_of_error visible early]
      exact ⟨by simpa [early] using closed, by simp⟩

theorem symbol?_suffix {c : Char} {rest after : List Char} {s : Symbol}
    (found : symbol? c rest = some (s, after)) : after <:+ rest := by
  unfold symbol? at found
  split at found <;> simp at found <;> obtain ⟨_, rfl⟩ := found <;> simp

/-- What a lexeme leaves is the end of what followed its first character. -/
theorem lexeme_suffix {c : Char} {rest after : List Char} {token : Token}
    (read : lexeme c rest = .ok (token, after)) : after <:+ rest := by
  unfold lexeme at read
  dsimp only at read
  split at read
  · split at read
    · obtain ⟨-, rfl⟩ := Prod.mk.inj (Except.ok.inj read)
      exact ⟨_, numberTail_append c rest⟩
    · cases read
  · split at read
    · obtain ⟨-, rfl⟩ := Prod.mk.inj (Except.ok.inj read)
      exact List.dropWhile_suffix _
    · split at read
      · split at read
        · rename_i closed
          obtain ⟨-, rfl⟩ := Prod.mk.inj (Except.ok.inj read)
          exact stringTail_suffix closed
        · cases read
      · split at read
        · rename_i found
          obtain ⟨-, rfl⟩ := Prod.mk.inj (Except.ok.inj read)
          exact symbol?_suffix found
        · cases read

/-- Where no quote stands there is no string literal. -/
theorem tight_of_quoteFree {text : List Char} (bare : QuoteFree text) : Tight text := by
  induction text using scan.induct with
  | case1 => exact .nil
  | case2 c text blank ih =>
    exact .blank blank (ih fun d member => bare d (List.mem_cons_of_mem _ member))
  | case3 c text visible e failed =>
    refine .stuck (Bool.eq_false_iff.mpr visible) failed fun quote => ?_
    exact absurd quote (bare c List.mem_cons_self)
  | case4 c text visible token after read _ _ _ ih
  | case5 c text visible token after read _ _ _ ih =>
    obtain ⟨taken, rfl⟩ := lexeme_suffix read
    refine .lexeme (Bool.eq_false_iff.mpr visible) read (fun quote => ?_) (ih ?_)
    · exact absurd quote (bare c List.mem_cons_self)
    · intro d member
      exact bare d (List.mem_cons_of_mem _ (List.mem_append_right _ member))

end Lexer

end Linewise
