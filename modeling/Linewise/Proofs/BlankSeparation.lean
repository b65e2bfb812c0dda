import Linewise.Proofs.ScannerStates

/-! Blanks separate texts. A text, a blank and another text have the tokens of the two texts one
after the other, or the first error of the two. The machine that reads character by character is
between two lexemes when it has read the blank: its buffer is empty, its output is the tokens of the
text in front, and nothing behind the blank is read yet.

The one exception is a string literal that the text in front leaves open. The blank is then part of
the literal, and what stands behind it can close it. -/
namespace Linewise

open Lexer

/-! ## The machine up to a blank -/

namespace Scanner

/-- The state between two lexemes, with the tokens that are read and the text that is left. -/
def between (output : List Token) (input : List Char) : Scanner :=
  { input, phase := .start, buffer := [], output }

/-- The state with more input behind its own. -/
def extend (s : Scanner) (more : List Char) : Scanner :=
  { s with input := s.input ++ more }

/-- Reads the input until at most `left` characters of it are left. -/
def readTo (left : Nat) (s : Scanner) : Except LexError Scanner :=
  match taken : s.input with
  | [] => .ok s
  | c :: rest =>
    if (c :: rest).length ≤ left then .ok s
    else
      match reads : { s with input := rest }.read c with
      | .error e => .error e
      | .ok next =>
        have : next.input.length < s.input.length := by
          rw [taken]
          exact Nat.lt_succ_of_le (read_advances reads).shorter
        readTo left next
termination_by s.input.length

theorem readTo_of_le {s : Scanner} {left : Nat} (near : s.input.length ≤ left) :
    s.readTo left = .ok s := by
  unfold readTo
  split
  · rfl
  · rename_i taken
    rw [taken] at near
    exact if_pos near

/-- While more than enough is left, the next character is read. -/
theorem readTo_of_lt {s : Scanner} {left : Nat} {c : Char} {rest : List Char}
    (taken : s.input = c :: rest) (far : left ≤ rest.length) :
    s.readTo left = ({ s with input := rest }.read c).bind (readTo left) := by
  rw [readTo]
  split
  · rename_i ended
    cases taken.symm.trans ended
  · rename_i other
    obtain ⟨rfl, rfl⟩ := List.cons.inj (taken.symm.trans other)
    rw [if_neg (by rw [List.length_cons]; omega)]
    split
    · rename_i failed
      rw [failed]
      rfl
    · rename_i reads
      dsimp only
      rw [reads]
      rfl

/-- Only behind a backslash a string literal needs the next character. -/
theorem readText_extend {s : Scanner} {quote c : Char}
    (closed : s.readText quote c ≠ .error .unterminated) (more : List Char) :
    (s.extend more).readText quote c = (s.readText quote c).map (·.extend more) := by
  obtain ⟨input, phase, buffer, output⟩ := s
  unfold readText at closed ⊢
  split
  · rfl
  · rename_i inside
    rw [if_neg inside] at closed
    split
    · rename_i backslash
      rw [if_pos backslash] at closed
      cases input with
      | nil => exact absurd rfl closed
      | cons d rest => rfl
    · rfl

section

variable {more : List Char} (parted : Parted more)
include parted

/-- Neither the digit behind a point nor the second character of a symbol is looked for behind a
blank. -/
theorem readStart_extend (s : Scanner) (c : Char) :
    (s.extend more).readStart c = (s.readStart c).map (·.extend more) := by
  have digit : (c.isDigit || (c == '.' && (s.extend more).digitNext)) =
      (c.isDigit || (c == '.' && s.digitNext)) :=
    startsNumber_parted parted c s.input
  unfold readStart
  rw [digit]
  -- Only a symbol looks further than the character itself.
  split
  · rfl
  split
  · rfl
  split
  · rfl
  split
  · rfl
  · rw [symbol?_eq, symbol?_eq, extend, symbol?_parted parted]
    cases Lexer.symbol? c s.input <;> rfl

theorem readNumber_extend (s : Scanner) (c : Char) :
    (s.extend more).readNumber c = (s.readNumber c).map (·.extend more) := by
  unfold readNumber
  dsimp only [extend]
  split
  · rfl
  · cases finishNumber s.buffer with
    | error e => rfl
    | ok token => exact readStart_extend parted (s.close token) c

theorem readName_extend (s : Scanner) (c : Char) :
    (s.extend more).readName c = (s.readName c).map (·.extend more) := by
  unfold readName
  split
  · rfl
  · exact readStart_extend parted (s.close (.name (String.ofList s.buffer))) c

/-- What stands behind a blank does not matter for a character that is read in front of it. -/
theorem read_extend {s : Scanner} {c : Char} (closed : s.read c ≠ .error .unterminated) :
    (s.extend more).read c = (s.read c).map (·.extend more) := by
  obtain ⟨input, phase, buffer, output⟩ := s
  cases phase with
  | start => exact readStart_extend parted _ c
  | number => exact readNumber_extend parted _ c
  | name => exact readName_extend parted _ c
  | text quote => exact readText_extend closed more

/-- A character in front of a blank is read as if the text ended at the blank. -/
theorem readTo_extend {s : Scanner} {left : Nat} {c : Char} {front : List Char}
    (taken : s.input = c :: front)
    (closed : { s with input := front }.read c ≠ .error .unterminated)
    (far : left ≤ (front ++ more).length) :
    (s.extend more).readTo left =
      (({ s with input := front }.read c).map (extend · more)).bind (readTo left) := by
  have next : (s.extend more).input = c :: (front ++ more) := by
    rw [extend, taken, List.cons_append]
  rw [readTo_of_lt next far, ← read_extend parted closed]
  rfl

end

section

variable {w : Char} (blank : Text.isBlank w = true)
include blank

theorem readStart_blank (s : Scanner) : s.readStart w = .ok s :=
  if_pos blank

/-- A blank ends a lexeme as the end of the text does. -/
theorem read_blank {s : Scanner} (clean : s.Clean) (closed : s.finish ≠ .error .unterminated)
    (rest : List Char) :
    { s with input := rest }.read w = s.finish.map (between · rest) := by
  obtain ⟨input, phase, buffer, output⟩ := s
  cases phase with
  | start =>
    obtain rfl : buffer = [] := clean
    exact readStart_blank blank _
  | number =>
    have ended := continuesNumber_of_isBlank blank (buffer.getLast?.getD ' ')
    rw [continuesNumber_getLast?] at ended
    simp only [read, readNumber, ended, finish]
    cases finishNumber buffer with
    | error e => rfl
    | ok token => exact readStart_blank blank _
  | name =>
    simp only [read, readName, isNamePart_of_isBlank blank, finish]
    exact readStart_blank blank _
  | text quote => exact absurd rfl closed

/-- Behind a blank the machine is between two lexemes, with the output of a run that ends before the
blank. The induction is on the input in front of it. -/
theorem readTo_blank (s : Scanner) (clean : s.Clean) (closed : s.run ≠ .error .unterminated)
    (rest : List Char) :
    (s.extend (w :: rest)).readTo rest.length = s.run.map (between · rest) := by
  have parted := parted_cons blank rest
  have far (front : List Char) : rest.length ≤ (front ++ w :: rest).length := by
    rw [List.length_append, List.length_cons]
    omega
  fun_induction run s with
  | case1 s ended =>
    have taken : (s.extend (w :: rest)).input = w :: rest := by
      rw [extend, ended, List.nil_append]
    have reads : { s.extend (w :: rest) with input := rest }.read w =
        s.finish.map (between · rest) :=
      read_blank blank clean closed rest
    rw [readTo_of_lt taken (Nat.le_refl _), reads]
    cases s.finish with
    | error e => rfl
    | ok output => exact readTo_of_le (Nat.le_refl _)
  | case2 s c front taken e failed =>
    rw [readTo_extend parted taken (by simpa [failed] using closed) (far front), failed]
    rfl
  | case3 s c front taken next reads _ ih =>
    rw [readTo_extend parted taken (by simp [reads]) (far front), reads]
    exact ih ((read_advances reads).clean clean) closed

end

end Scanner

/-! ## String literals that are left open -/

namespace Lexer

variable {w : Char} (blank : Text.isBlank w = true)
include blank

/-- A string literal that is open before a blank holds the blank, and its quote closes it. -/
theorem stringTail_blank {quote : Char} (enclosing : IsQuote quote) {read text : List Char}
    (unclosed : stringTail quote read text = none) :
    ∃ contents, stringTail quote read (text ++ [w, quote]) = some (contents, []) := by
  have ends (read : List Char) : stringTail quote read [quote] = some (read.reverse, []) := by
    rw [stringTail_cons (ne_backslash_of_isQuote enclosing), if_pos rfl]
  fun_induction stringTail quote read text with
  | case1 read =>
    have plain : w ≠ '\\' := ne_of_isBlank blank _ (by decide)
    have inside : w ≠ quote := by
      rintro rfl
      simp [isBlank_of_isQuote enclosing] at blank
    exact ⟨_, by rw [List.nil_append, stringTail_cons plain, if_neg inside, ends]⟩
  | case2 read => exact ⟨_, by rw [List.singleton_append, stringTail, ends]⟩
  | case3 read c text ih =>
    rw [List.cons_append, List.cons_append, stringTail]
    exact ih unclosed
  | case4 => cases unclosed
  | case5 read c text notLast notEscape inside ih =>
    rw [List.cons_append, stringTail_cons (ne_backslash notLast notEscape), if_neg inside]
    exact ih unclosed

/-- A text with an open string literal and a blank behind it can be completed by a quote. -/
theorem exists_scan_closed {text : List Char} (stillOpen : scan text = .error .unterminated) :
    ∃ quote tokens, scan (text ++ [w, quote]) = .ok tokens := by
  induction text using scan.induct with
  | case1 =>
    rw [scan_nil] at stillOpen
    cases stillOpen
  | case2 c text first ih =>
    rw [scan_blank first] at stillOpen
    obtain ⟨quote, tokens, closed⟩ := ih stillOpen
    exact ⟨quote, tokens, by rw [List.cons_append, scan_blank first, closed]⟩
  | case3 c text visible e failed =>
    rw [Bool.not_eq_true] at visible
    rw [scan_of_error visible failed] at stillOpen
    obtain ⟨enclosing, unclosed⟩ := lexeme_unterminated (failed.trans (by simpa using stillOpen))
    obtain ⟨contents, closed⟩ := stringTail_blank blank enclosing unclosed
    have read : lexeme c (text ++ [w, c]) = .ok (.str (String.ofList contents), []) := by
      rw [lexeme_quote enclosing, closed]
    refine ⟨c, [.str (String.ofList contents)], ?_⟩
    rw [List.cons_append, scan_of_ok visible read, scan_nil]
    rfl
  | case4 c text visible token after read _ _ _ ih
  | case5 c text visible token after read _ _ _ ih =>
    rw [Bool.not_eq_true] at visible
    have later : scan after = .error .unterminated := by
      rw [scan_of_ok visible read] at stillOpen
      cases scanned : scan after with
      | ok tokens => simp [scanned, Except.map] at stillOpen
      | error e => simpa [scanned, Except.map] using stillOpen
    obtain ⟨quote, tokens, closed⟩ := ih later
    have same := lexeme_parted (parted_cons blank [quote]) (c := c) (w := text) (by simp [read])
    rw [read] at same
    refine ⟨quote, token :: tokens, ?_⟩
    rw [List.cons_append, scan_of_ok visible same, closed]
    rfl

end Lexer

/-! ## Texts around a blank -/

theorem toList_around (a b : String) (w : Char) :
    (a ++ String.singleton w ++ b).toList = a.toList ++ w :: b.toList := by
  simp

/-- Scanning is compositional at blanks. Unless `a` leaves a string literal open, the tokens of `a`
and `b` stand one after the other, an error of `a` counts before one of `b`, and once all but `b` is
read the machine is between two lexemes with the tokens of `a` as its output. If `a` leaves a string
literal open, its error does not stay: some `b` completes the text. -/
theorem tokens_across_blank {w : Char} (blank : Text.isBlank w = true) (a : String) :
    (tokens a ≠ .error .unterminated → ∀ b : String,
      tokens (a ++ String.singleton w ++ b) = followedBy (tokens a) (tokens b) ∧
        (Scanner.between [] (a ++ String.singleton w ++ b).toList).readTo b.length =
          (tokens a).map (Scanner.between · b.toList)) ∧
      (tokens a = .error .unterminated → ∃ b read,
        tokens (a ++ String.singleton w ++ b) = .ok read) := by
  refine ⟨fun closed b => ⟨?_, ?_⟩, fun stillOpen => ?_⟩
  · unfold tokens at closed ⊢
    rw [toList_around, scan_parted (parted_cons blank b.toList) closed, scan_blank blank]
  · have run : (Scanner.between [] a.toList).run = tokens a := Scanner.tokens_eq a
    rw [toList_around, ← String.length_toList, ← run]
    exact Scanner.readTo_blank blank (Scanner.between [] a.toList) rfl (run ▸ closed) b.toList
  · obtain ⟨quote, read, closed⟩ := exists_scan_closed blank stillOpen
    refine ⟨String.singleton quote, read, ?_⟩
    rw [tokens, toList_around, String.toList_singleton, closed]

/-- A blank cuts an operator and an exponent in two, but not a string literal. -/
theorem tokens_across_blank_cut_lexemes :
    tokens ("x*" ++ String.singleton '\u3000' ++ "*'it'") =
        .ok [.name "x", .symbol .star, .symbol .star, .str "it"] ∧
      tokens ("1e" ++ String.singleton '\u3000' ++ "+5") = .error (.badNumber "1e") ∧
      ∃ b read, tokens ("x*'it" ++ String.singleton '\u3000' ++ b) = .ok read := by
  have blank : Text.isBlank '\u3000' = true := by decide
  refine ⟨?_, ?_, (tokens_across_blank blank "x*'it").2 (by decide +kernel)⟩
  · have front : tokens "x*" = .ok [.name "x", .symbol .star] := by decide +kernel
    have behind : tokens "*'it'" = .ok [.symbol .star, .str "it"] := by decide +kernel
    rw [((tokens_across_blank blank "x*").1 (by simp [front]) _).1, front, behind]
    rfl
  · have front : tokens "1e" = .error (.badNumber "1e") := by decide +kernel
    rw [((tokens_across_blank blank "1e").1 (by simp [front]) _).1, front]
    rfl

end Linewise
