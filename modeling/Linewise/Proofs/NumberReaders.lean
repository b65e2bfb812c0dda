import Linewise.Proofs.ExpressionLines
import Linewise.Proofs.ExpressionRoundTrip
import Linewise.Proofs.MaximalMunch

/-! The two readers of numbers. A reply to a question is read as a whole and may have a sign; in an
expression a number is the longest run of its kind, and a sign before it is an operator. On texts
that begin with a digit or a point the two agree: a text that denotes a number is one run, since
every character of a numeral goes on with the number before it.

The text of an integer is read back by both, with one exception. The digits of the least integer
denote a number that is too large for a word, so in an expression they are a double, and the sign
before them does not bring the integer back. -/
namespace Linewise

/-- The token of a number. -/
def Number.token : Number → Token
  | .int n => .int n
  | .float x => .float x

/-! ## Numerals as runs -/

namespace Lexer

/-- The text goes on with a number, whatever the last character of the number is. -/
def GoesOn (text : List Char) : Prop :=
  ∀ last, List.IsChain NumberLink (last :: text)

theorem goesOn_nil : GoesOn [] :=
  List.IsChain.singleton

theorem GoesOn.cons {c : Char} {text : List Char} (plain : c.isAlphanum = true ∨ c = '.')
    (later : GoesOn text) : GoesOn (c :: text) := by
  intro last
  have link : NumberLink last c := plain.elim .inl fun point => .inr (.inl point)
  exact .cons_cons link (later c)

theorem GoesOn.digits {digits text : List Char} (digital : Text.Digital digits)
    (later : GoesOn text) : GoesOn (digits ++ text) := by
  induction digits with
  | nil => exact later
  | cons c digits ih =>
    obtain ⟨digit, more⟩ := List.forall_mem_cons.mp digital
    exact .cons (.inl (by simp [Char.isAlphanum, digit])) (ih more)

/-- The sign of an exponent stands behind the exponent letter. -/
theorem goesOn_exponent {tail : List Char} {e : Int} (exponent : Decimal.SpellsExponent tail e) :
    GoesOn tail := by
  cases exponent with
  | none => exact goesOn_nil
  | @written mark text _ letter spells =>
    have plain : mark.isAlphanum = true := by rcases letter with rfl | rfl <;> decide
    have digits {run : List Char} (digital : Text.Digital run) : GoesOn run := by
      simpa using GoesOn.digits digital goesOn_nil
    intro last
    refine .cons_cons (.inl plain) ?_
    cases spells with
    | bare _ digital => exact digits digital mark
    | plus _ digital => exact .cons_cons (.inr (.inr (.inr ⟨.inl rfl, letter⟩))) (digits digital _)
    | minus _ digital => exact .cons_cons (.inr (.inr (.inr ⟨.inr rfl, letter⟩))) (digits digital _)

/-- A numeral is a run. -/
theorem numberRun_of_spells {text : List Char} {n : Decimal.Numeral}
    (spells : Decimal.Numeral.Spells text n) : NumberRun text := by
  cases spells with
  | @whole digits tail e nonempty digital exponent =>
    obtain ⟨c, digits, rfl⟩ := List.exists_cons_of_ne_nil nonempty
    obtain ⟨digit, more⟩ := List.forall_mem_cons.mp digital
    exact .digit digit (GoesOn.digits more (goesOn_exponent exponent) c)
  | @point before behind tail e nonempty digital exponent =>
    obtain ⟨front, back⟩ := List.forall_mem_append.mp digital
    have rest : GoesOn (behind ++ tail) := GoesOn.digits back (goesOn_exponent exponent)
    cases before with
    | nil =>
      obtain ⟨c, behind, rfl⟩ := List.exists_cons_of_ne_nil (by simpa using nonempty)
      exact .point (back c List.mem_cons_self) (rest '.')
    | cons c before =>
      obtain ⟨digit, more⟩ := List.forall_mem_cons.mp front
      exact .digit digit (GoesOn.digits more (.cons (.inr rfl) rest) c)

variable {run : List Char}

theorem filter_underscore (plain : '_' ∉ run) : run.filter (· != '_') = run := by
  refine List.filter_eq_self.mpr fun c member => ?_
  rw [bne_iff_ne]
  rintro rfl
  exact plain member

/-- What denotes a number is a run. -/
theorem numberRun_of_numberToken (numeric : Scanner.Numeric run) (plain : '_' ∉ run)
    {token : Token} (read : numberToken run = .ok token) : NumberRun run := by
  rw [numberToken, filter_underscore plain] at read
  split at read
  · rename_i n integer
    have spells := Integer.ofText?_eq_some_iff.mp integer
    generalize n.toInt = m at spells
    cases spells with
    | bare nonempty digital =>
      rw [← List.append_nil run]
      exact numberRun_of_spells (.whole nonempty digital .none)
    | plus | minus =>
      obtain ⟨c, tail, same, first⟩ := numeric
      obtain ⟨rfl, rfl⟩ := List.cons.inj same
      exact absurd first (by decide)
  · split at read
    · rename_i double
      obtain ⟨n, spells, -⟩ := Decimal.unsigned?_eq_some_iff.mp double
      exact numberRun_of_spells spells
    · cases read

/-! ## Texts of one token -/

/-- The first token of a text and the tokens behind it. -/
theorem scan_cons_eq_ok {c : Char} {rest : List Char} {read : List Token}
    (visible : Text.isBlank c = false) (scanned : scan (c :: rest) = .ok read) :
    ∃ token after more, lexeme c rest = .ok (token, after) ∧ scan after = .ok more ∧
      read = token :: more := by
  cases lexed : lexeme c rest with
  | error e =>
    rw [scan_of_error visible lexed] at scanned
    cases scanned
  | ok found =>
    obtain ⟨token, after⟩ := found
    rw [scan_of_ok visible lexed] at scanned
    cases later : scan after with
    | error e =>
      rw [later] at scanned
      cases scanned
    | ok more =>
      rw [later] at scanned
      exact ⟨token, after, more, rfl, later, (Except.ok.inj scanned).symm⟩

/-- Without blanks only the empty text has no token. -/
theorem eq_nil_of_scan {text : List Char} (visible : Text.BlankFree text)
    (scanned : scan text = .ok []) : text = [] := by
  cases text with
  | nil => rfl
  | cons c text =>
    obtain ⟨token, after, more, -, -, same⟩ :=
      scan_cons_eq_ok (visible c List.mem_cons_self) scanned
    cases same

/-- A lexeme that begins with a digit or a point and is read is a number. -/
theorem lexeme_numeric {c : Char} {rest after : List Char} {token : Token}
    (first : c.isDigit = true ∨ c = '.') (read : lexeme c rest = .ok (token, after)) :
    numberToken (c :: (numberTail c rest).1) = .ok token ∧ after = (numberTail c rest).2 := by
  have starts : startsNumber c rest = true := by
    rcases first with digit | rfl
    · simp [startsNumber, digit]
    · by_contra other
      rw [lexeme_other (Bool.eq_false_iff.mpr other) (by decide) (by decide)] at read
      cases read
  rw [lexeme_number starts] at read
  cases made : numberToken (c :: (numberTail c rest).1) with
  | error e =>
    rw [made] at read
    cases read
  | ok token =>
    rw [made] at read
    obtain ⟨rfl, rfl⟩ := Prod.mk.inj (Except.ok.inj read)
    exact ⟨rfl, rfl⟩

/-- A whole text without blanks that is one run is one token. -/
theorem scan_of_numberToken (numeric : Scanner.Numeric run) (plain : '_' ∉ run) {token : Token}
    (read : numberToken run = .ok token) : scan run = .ok [token] := by
  have number := numberRun_of_numberToken numeric plain read
  obtain ⟨c, rest, rfl, -⟩ := numeric
  -- No run is longer than the whole text, so the run that is cut off is all of it.
  have whole : Longest NumberRun (c :: rest) (c :: rest) [] :=
    ⟨(List.append_nil _).symm, number, fun other front _ => front.length_le⟩
  have starts := startsNumber_of_run (List.prefix_refl _) number
  obtain ⟨same, nothing⟩ := whole.unique (longest_number starts)
  have lexed : lexeme c rest = .ok (token, []) := by
    rw [lexeme_number starts, ← same, ← nothing, read]
    rfl
  rw [scan_of_ok (isBlank_of_startsNumber starts) lexed, scan_nil]
  rfl

/-- A text without blanks that is one token is one run. -/
theorem numberToken_of_scan (numeric : Scanner.Numeric run) (visible : Text.BlankFree run)
    {token : Token} (scanned : scan run = .ok [token]) : numberToken run = .ok token := by
  obtain ⟨c, rest, rfl, first⟩ := numeric
  obtain ⟨token, after, more, read, later, same⟩ :=
    scan_cons_eq_ok (visible c List.mem_cons_self) scanned
  obtain ⟨rfl, rfl⟩ := List.cons.inj same
  have nothing : after = [] := by
    refine eq_nil_of_scan (fun d member => visible d ?_) later
    exact List.mem_cons_of_mem c ((lexeme_suffix read).mem member)
  obtain ⟨made, behind⟩ := lexeme_numeric first read
  have whole := numberTail_append c rest
  rw [← behind, nothing, List.append_nil] at whole
  rwa [whole] at made

end Lexer

/-! ## Replies -/

theorem Text.trim_of_visible {text : List Char} (visible : BlankFree text) : trim text = text := by
  have kept {word : List Char} (shown : BlankFree word) : word.dropWhile isBlank = word := by
    cases word with
    | nil => rfl
    | cons c word => simp [shown c List.mem_cons_self]
  have backwards : BlankFree text.reverse := fun c member => visible c (List.mem_reverse.mp member)
  rw [trim, kept visible, kept backwards, List.reverse_reverse]

open Lexer (numberToken)

/-- A reply that begins with a digit or a point is read as the run of a number is, and is a text
where the run denotes nothing. -/
theorem Value.ofInput_eq {t : String} (numeric : Scanner.Numeric t.toList)
    (visible : Text.BlankFree t.toList) (plain : '_' ∉ t.toList) :
    Value.ofInput t =
      match numberToken t.toList with
      | .ok (.int n) => .int n
      | .ok (.float x) => .float x
      | _ => .str t := by
  have unsigned := numeric.signed?_eq
  rw [Lexer.filter_underscore plain] at unsigned
  rw [ofInput, Text.trim_of_visible visible, numberToken, Lexer.filter_underscore plain, unsigned]
  cases Integer.ofText? t.toList with
  | some n => rfl
  | none =>
    cases Decimal.unsigned? t.toList with
    | none => rfl
    | some x => by_cases finite : x.isFinite = true <;> simp [finite]

/-- **The two readers of unsigned numbers agree.** Let a text have no blank and no underscore and
begin with a digit or a point. As a reply it is a number exactly if it is the one token of that
number in an expression, and where it is not, the reply is the text as it is. -/
theorem readers_agree {t : String} (numeric : Scanner.Numeric t.toList)
    (visible : Text.BlankFree t.toList) (plain : '_' ∉ t.toList) :
    (∀ v : Number, Value.ofInput t = v.toValue ↔ tokens t = .ok [v.token]) ∧
      ((∀ v : Number, Value.ofInput t ≠ v.toValue) → Value.ofInput t = .str t) := by
  rw [Value.ofInput_eq numeric visible plain]
  constructor
  · intro v
    have single : tokens t = .ok [v.token] ↔ numberToken t.toList = .ok v.token :=
      ⟨Lexer.numberToken_of_scan numeric visible, Lexer.scan_of_numberToken numeric plain⟩
    rw [single]
    cases numberToken t.toList with
    | error e => cases v <;> simp [Number.toValue]
    | ok token => cases token <;> cases v <;> simp [Number.toValue, Number.token]
  · intro other
    split at other
    · rename_i n _
      exact absurd rfl (other (.int n))
    · rename_i x _
      exact absurd rfl (other (.float x))
    · rfl

/-- A point without a digit behind it and a signed exponent; two points denote nothing. -/
theorem readers_agree_signed_exponent :
    (Value.ofInput "1.e+5" = .float 100000.0 ↔ tokens "1.e+5" = .ok [.float 100000.0]) ∧
      tokens "1.e+5" = .ok [.float 100000.0] ∧ Value.ofInput "1..2" = .str "1..2" := by
  have scanned : tokens "1.e+5" = .ok [.float 100000.0] := by decide +kernel
  have agree := (readers_agree (t := "1.e+5") ⟨'1', ".e+5".toList, rfl, .inl rfl⟩ (by decide)
    (by decide)).1 (.float 100000.0)
  have apart := readers_agree (t := "1..2") ⟨'1', "..2".toList, rfl, .inl rfl⟩ (by decide)
    (by decide)
  refine ⟨agree, scanned, apart.2 fun v number => ?_⟩
  have failed : tokens "1..2" = .error (.badNumber "1..2") := by decide +kernel
  rw [apart.1, failed] at number
  cases number

/-! ## Texts of integers -/

namespace Grammar

theorem Derives.ofTokens {budget : Nat} {ts : List Token} {e : Expr}
    (derives : Derives budget .disj ts e []) (enough : budget ≤ Parser.maxDepth) :
    Expr.ofTokens ts = .ok e := by
  obtain ⟨d, rfl, rfl, need⟩ := derives.exists_derivation
  rw [ofTokens_tokens, if_pos (Nat.le_trans need enough)]

theorem Denotes.derives {token : Token} {e : Expr} (denotes : Denotes token e) :
    Derives 0 .atom [token] e [] :=
  ⟨.leaf token e denotes, rfl, rfl, Nat.le_refl 0⟩

end Grammar

theorem evaluate_single {source : String} {token : Token} {e : Expr} (scope : Scope)
    (scanned : tokens source = .ok [token]) (denotes : Grammar.Denotes token e) :
    evaluate scope source = e.eval scope := by
  have read := (denotes.derives.looser .disj (by decide)).ofTokens (by decide)
  simp only [evaluate, scanned, read]

/-- A minus sign before a single token is an operator. -/
theorem evaluate_negated {source : String} {token : Token} {e : Expr} (scope : Scope)
    (scanned : tokens source = .ok [.symbol .minus, token]) (denotes : Grammar.Denotes token e) :
    evaluate scope source = (Expr.unary .neg e).eval scope := by
  have read := ((Grammar.Before.sign .minus).derives denotes.derives).ofTokens (by decide)
  simp only [evaluate, scanned, read]

theorem tokens_natural {n : Int64} (natural : ¬ n < 0) :
    tokens (Integer.text n) = .ok [.int n] := by
  have scanned := Lexer.scan_intercalate (.cons (Lexer.reads_integer natural) .nil)
  rwa [List.intercalate_singleton] at scanned

theorem tokens_minus (rest : String) :
    tokens ("-" ++ rest) = (tokens rest).map (.symbol .minus :: ·) := by
  rw [tokens, String.toList_append]
  have symbol : Lexer.symbol? '-' rest.toList = some (.minus, rest.toList) := rfl
  obtain ⟨visible, read⟩ := Lexer.lexeme_symbol symbol
  exact Lexer.scan_of_ok visible read

theorem Integer.text_negative {n m : Int64} (negative : n < 0) (opposite : m.toInt = -n.toInt) :
    text n = "-" ++ text m := by
  have below := (neg_iff n).mp negative
  have natural : ¬ m < 0 := fun less => by
    have := (neg_iff m).mp less
    omega
  have size : m.toInt.natAbs = n.toInt.natAbs := by omega
  simp only [text, if_pos negative, if_neg natural, size]

theorem Integer.exists_opposite {n : Int64} (larger : n ≠ Int64.minValue) :
    ∃ m : Int64, m.toInt = -n.toInt := by
  cases fits : fit (-n.toInt) with
  | some m => exact ⟨m, fit_eq_some_iff.mp fits⟩
  | none =>
    have outside := fit_eq_none_iff.mp fits
    have inside := inRange_toInt n
    have least : n.toInt = Int64.minValue.toInt := by
      rw [Int64.toInt_minValue]
      unfold InRange at outside inside
      omega
    exact absurd (Int64.toInt_inj.mp least) larger

/-- Every integer but the least one has an opposite, whose digits are read as an integer. -/
theorem evaluate_text {n : Int64} (larger : n ≠ Int64.minValue) (scope : Scope) :
    evaluate scope (Integer.text n) = .ok (.int n) := by
  by_cases negative : n < 0
  · have below := (Integer.neg_iff n).mp negative
    obtain ⟨m, opposite⟩ := Integer.exists_opposite larger
    have scanned : tokens (Integer.text n) = .ok [.symbol .minus, .int m] := by
      rw [Integer.text_negative negative opposite, tokens_minus, tokens_natural]
      · rfl
      · intro less
        have := (Integer.neg_iff m).mp less
        omega
    have back : Integer.neg? m = some n := Integer.fit_eq_some_iff.mpr (by omega)
    rw [evaluate_negated scope scanned (.int m), Expr.eval, Expr.eval]
    simp only [Eval.unary, Eval.signed, Value.number?, back, if_true]
  · exact evaluate_single scope (tokens_natural negative) (.int n)

theorem evaluate_least (scope : Scope) :
    evaluate scope (Integer.text Int64.minValue) = .ok (.float (-Double.ofInt (2 ^ 63))) := by
  have scanned : tokens (Integer.text Int64.minValue) =
      .ok [.symbol .minus, .float (Double.ofInt (2 ^ 63))] := by decide +kernel
  exact evaluate_negated scope scanned (.float _)

/-- Printing a name shows the variable: the name is no numeral and belongs to no array and to no
dictionary. -/
structure Store.Prints (s : Store) (name : String) (v : Value) : Prop where
  notNumeral : name.toList.all Text.isNumeric = false
  noArray : s.arrays.get? name = none
  noDictionary : s.dictionaries.get? name = none
  value : s.variables.get? name = some v

theorem Store.Prints.describe_eq {s : Store} {name : String} {v : Value}
    (prints : s.Prints name v) : s.describe name = v.text := by
  simp [Store.describe, prints.notNumeral, prints.noArray, prints.noDictionary, prints.value]

namespace Surroundings

variable {π φ : Type} (w : Surroundings π φ) (s : Scene π φ)

theorem execute_print {name : String} (word : IsWord name) :
    w.execute s ("print " ++ name) = (s, some (s.store.describe name)) := by
  have keyword : IsWord "print" := ⟨by decide, by decide⟩
  have said : Text.wordsOf ("print " ++ name) = Keyword.print.name :: [name] := by
    rw [show "print " ++ name = "print" ++ " " ++ name from rfl, Text.wordsOf_append_space,
      keyword.wordsOf_eq, word.wordsOf_eq]
    rfl
  rw [execute_of_words said rfl]
  rfl

end Surroundings

namespace Integer

theorem Spells.ne_nil {text : List Char} {n : Int} (spells : Spells text n) : text ≠ [] := by
  cases spells with
  | bare nonempty => exact nonempty
  | plus => simp
  | minus => simp

theorem Spells.digit_or_sign {text : List Char} {n : Int} (spells : Spells text n) :
    ∀ c ∈ text, c.isDigit = true ∨ c = '+' ∨ c = '-' := by
  cases spells with
  | bare _ digital => exact fun c member => .inl (digital c member)
  | plus _ digital =>
    exact List.forall_mem_cons.mpr ⟨.inr (.inl rfl), fun c member => .inl (digital c member)⟩
  | minus _ digital =>
    exact List.forall_mem_cons.mpr ⟨.inr (.inr rfl), fun c member => .inl (digital c member)⟩

/-- The text of an integer is a word. -/
theorem isWord_text (n : Int64) : IsWord (text n) := by
  constructor
  · intro empty
    exact (spells_text n).ne_nil (by rw [empty]; rfl)
  · intro c member
    rcases (spells_text n).digit_or_sign c member with digit | rfl | rfl
    · exact Lexer.isBlank_of_isAlphanum (by simp [Char.isAlphanum, digit])
    · decide
    · decide

theorem quoteFree_text (n : Int64) : Lexer.QuoteFree (text n).toList := by
  intro c member quote
  rcases quote with rfl | rfl
  · exact absurd ((spells_text n).digit_or_sign _ member) (by decide)
  · exact absurd ((spells_text n).digit_or_sign _ member) (by decide)

end Integer

theorem Value.ofInput_text (n : Int64) : Value.ofInput (Integer.text n) = .int n := by
  simp only [ofInput, Text.trim_of_visible (Integer.isWord_text n).2, Integer.ofText?_text]

/-- What the text of an integer evaluates to: the least one comes back as a double. -/
def pasted (n : Int64) : Value :=
  if n = Int64.minValue then .float (-Double.ofInt (2 ^ 63)) else .int n

theorem pasted_eq_int_iff {n : Int64} : pasted n = .int n ↔ n ≠ Int64.minValue := by
  unfold pasted
  split <;> simp_all

/-- The double in the place of the least integer is equal to it. -/
theorem equal_pasted (n : Int64) : Eval.equal (.int n) (pasted n) = true := by
  unfold pasted
  split
  · rename_i least
    rw [least]
    decide +kernel
  · exact beq_self_eq_true n

theorem evaluate_pasted (n : Int64) (scope : Scope) :
    evaluate scope (Integer.text n) = .ok (pasted n) := by
  unfold pasted
  split
  · rename_i least
    rw [least, evaluate_least]
  · rename_i larger
    exact evaluate_text larger scope

/-- **An integer is read back from its text, the least one excepted.** As a reply the text of an
integer is that integer. As an expression it is equal to that integer, and it is the integer itself
exactly if that is not the least one, whose text is the double `-2 ^ 63`. So what `print` shows of
an integer variable, put into an assignment, binds the name to an equal value, and to one of the
same kind except in this one case. -/
theorem integers_read_back (n : Int64) :
    Value.ofInput (Value.int n).text = .int n ∧
      (∀ scope, evaluate scope (Value.int n).text = .ok (pasted n)) ∧
      (pasted n = .int n ↔ n ≠ Int64.minValue) ∧ Eval.equal (.int n) (pasted n) = true ∧
      ∀ {π φ : Type} (w : Surroundings π φ) (s : Scene π φ) {x y : String},
        IsWord x → IsWord y → s.store.Prints x (.int n) →
        ∃ shown after, w.execute s ("print " ++ x) = (s, some shown) ∧
          w.execute s ("let " ++ y ++ " = " ++ shown) = (after, none) ∧
          s.Binds after y (pasted n) := by
  refine ⟨Value.ofInput_text n, evaluate_pasted n, pasted_eq_int_iff, equal_pasted n, ?_⟩
  intro π φ w s x y source target prints
  obtain ⟨c, rest, begins⟩ := List.exists_cons_of_ne_nil (Integer.spells_text n).ne_nil
  have member : c ∈ (Integer.text n).toList := begins ▸ List.mem_cons_self
  have visible := (Integer.isWord_text n).2 c member
  have tight := Lexer.tight_of_quoteFree (Integer.quoteFree_text n)
  have assigned := w.execute_assignment s target ⟨c, member, visible⟩ tight
  rw [evaluate_pasted] at assigned
  have printed := w.execute_print s source
  rw [prints.describe_eq] at printed
  exact ⟨_, _, printed, assigned, s.binds_bind y (pasted n)⟩

/-- A scene with the integer above the least one, under a name that is also a class. -/
def nearlyLeast : Scene Prompt Files where
  store :=
    { «variables» := .ofList [("x", .int (Int64.minValue + 1))]
      classes := .ofList [("x", .empty)] }
  prompt := .script {}
  files := {}

theorem integers_read_back_nearly_least :
    evaluate (fun _ => none) "-9223372036854775807" = .ok (.int (Int64.minValue + 1)) ∧
      ∃ shown after,
        Surroundings.ofSession.execute nearlyLeast ("print " ++ "x") = (nearlyLeast, some shown) ∧
        Surroundings.ofSession.execute nearlyLeast ("let " ++ "y" ++ " = " ++ shown) =
          (after, none) ∧
        nearlyLeast.Binds after "y" (.int (Int64.minValue + 1)) := by
  have word (name : String) (short : name = "x" ∨ name = "y") : IsWord name := by
    rcases short with rfl | rfl <;> exact ⟨by decide, by decide⟩
  have prints : nearlyLeast.store.Prints "x" (.int (Int64.minValue + 1)) :=
    ⟨by decide, rfl, rfl, by decide +kernel⟩
  have back := integers_read_back (Int64.minValue + 1)
  exact ⟨back.2.1 fun _ => none, back.2.2.2.2 Surroundings.ofSession nearlyLeast
    (word "x" (.inl rfl)) (word "y" (.inr rfl)) prints⟩

/-- The digits of the least integer are too large for a word. -/
theorem least_integer_becomes_double :
    (Value.int Int64.minValue).text = "-9223372036854775808" ∧
      Value.ofInput "-9223372036854775808" = .int Int64.minValue ∧
      evaluate (fun _ => none) "-9223372036854775808" = .ok (.float (-9223372036854775808.0)) ∧
      ¬ ∀ (n : Int64) (scope : Scope), evaluate scope (Value.int n).text = .ok (.int n) := by
  refine ⟨by decide +kernel, by decide +kernel, by decide +kernel, fun claimed => ?_⟩
  have least := claimed Int64.minValue fun _ => none
  revert least
  decide +kernel

end Linewise
