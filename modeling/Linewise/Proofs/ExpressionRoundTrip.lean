import Linewise.Proofs.SpacedLexemes
import Linewise.Proofs.TreeHeight

/-! Expressions written in full: brackets around every operator and a space between two lexemes.
Each operator then costs at most two levels of the budget, one for its brackets and one for its
operand, so every such text of a tree with at most 100 operators on a path is read as that tree. -/
namespace Linewise
open Linewise.Parser (Level)

/-! ## Expressions in full -/

/-- The spellings of an operator that stands before its operand. -/
def UnaryOp.spellings : UnaryOp → List String
  | .neg => ["-"]
  | .plus => ["+"]
  | .not => ["not", "!"]

namespace Expr

/-- The words that denote something else than a variable. -/
def reserved : List String :=
  ["and", "or", "not", "true", "True", "false", "False"]

/-- The spellings of a truth value. -/
def truthSpellings : Bool → List String
  | true => ["true", "True"]
  | false => ["false", "False"]

/-- Trees with literals for all their leaves: no double, no negative integer, and variables that
have the shape of a name and are not reserved. -/
def Plain : Expr → Prop
  | .int n => 0 ≤ n
  | .float _ => False
  | .bool _ => True
  | .str _ => True
  | .var name => Lexer.NameShaped name.toList ∧ name ∉ reserved
  | .unary _ operand => operand.Plain
  | .binary _ lhs rhs => lhs.Plain ∧ rhs.Plain
  | .conj lhs rhs => lhs.Plain ∧ rhs.Plain
  | .disj lhs rhs => lhs.Plain ∧ rhs.Plain

instance decidablePlain : (e : Expr) → Decidable e.Plain
  | .int n => inferInstanceAs (Decidable (0 ≤ n))
  | .float _ => inferInstanceAs (Decidable False)
  | .bool _ => inferInstanceAs (Decidable True)
  | .str _ => inferInstanceAs (Decidable True)
  | .var name =>
    inferInstanceAs (Decidable (Lexer.NameShaped name.toList ∧ name ∉ reserved))
  | .unary _ operand => decidablePlain operand
  | .binary _ lhs rhs | .conj lhs rhs | .disj lhs rhs =>
    have := decidablePlain lhs
    have := decidablePlain rhs
    inferInstanceAs (Decidable (_ ∧ _))

/-- The lexemes of a tree in full, in every spelling of its operators and truth values. -/
inductive Written : Expr → List String → Prop where
  | int (n : Int64) : Written (.int n) [Integer.text n]
  | bool (b : Bool) {word : String} (spelled : word ∈ truthSpellings b) : Written (.bool b) [word]
  | str (s : String) : Written (.str s) [Lexer.quotedText s]
  | var (name : String) : Written (.var name) [name]
  | unary {op : UnaryOp} {operand : Expr} {word : String} {inner : List String}
      (spelled : word ∈ op.spellings) (written : Written operand inner) :
      Written (.unary op operand) ("(" :: word :: (inner ++ [")"]))
  | binary {lhs rhs : Expr} {left right : List String} (op : BinaryOp)
      (leftWritten : Written lhs left) (rightWritten : Written rhs right) :
      Written (.binary op lhs rhs) ("(" :: (left ++ op.symbol :: (right ++ [")"])))
  | conj {lhs rhs : Expr} {word : String} {left right : List String}
      (spelled : word ∈ ["and", "&&"]) (leftWritten : Written lhs left)
      (rightWritten : Written rhs right) :
      Written (.conj lhs rhs) ("(" :: (left ++ word :: (right ++ [")"])))
  | disj {lhs rhs : Expr} {word : String} {left right : List String}
      (spelled : word ∈ ["or", "||"]) (leftWritten : Written lhs left)
      (rightWritten : Written rhs right) :
      Written (.disj lhs rhs) ("(" :: (left ++ word :: (right ++ [")"])))

/-- Every tree with literals for its leaves can be written in full. -/
theorem exists_written {e : Expr} (plain : e.Plain) : ∃ words, e.Written words := by
  induction e with
  | int n => exact ⟨_, .int n⟩
  | float x => exact plain.elim
  | bool b => cases b <;> exact ⟨_, .bool _ List.mem_cons_self⟩
  | str s => exact ⟨_, .str s⟩
  | var name => exact ⟨_, .var name⟩
  | unary op operand ih =>
    obtain ⟨inner, written⟩ := ih plain
    cases op <;> exact ⟨_, .unary List.mem_cons_self written⟩
  | binary op lhs rhs left right =>
    obtain ⟨leftWords, leftWritten⟩ := left plain.1
    obtain ⟨rightWords, rightWritten⟩ := right plain.2
    exact ⟨_, .binary op leftWritten rightWritten⟩
  | conj lhs rhs left right =>
    obtain ⟨leftWords, leftWritten⟩ := left plain.1
    obtain ⟨rightWords, rightWritten⟩ := right plain.2
    exact ⟨_, .conj List.mem_cons_self leftWritten rightWritten⟩
  | disj lhs rhs left right =>
    obtain ⟨leftWords, leftWritten⟩ := left plain.1
    obtain ⟨rightWords, rightWritten⟩ := right plain.2
    exact ⟨_, .disj List.mem_cons_self leftWritten rightWritten⟩

end Expr

/-! ## Derivations of bracketed operators -/

namespace Grammar

theorem Derives.mono {budget : Nat} {level : Level} {tokens rest : List Token} {e : Expr}
    (derives : Derives budget level tokens e rest) (more : Nat) (enough : budget ≤ more) :
    Derives more level tokens e rest := by
  obtain ⟨d, same, tree, need⟩ := derives
  exact ⟨d, same, tree, Nat.le_trans need enough⟩

theorem Derives.exists_derivation {budget : Nat} {level : Level} {tokens : List Token} {e : Expr}
    (derives : Derives budget level tokens e []) :
    ∃ d : Derivation level, d.tokens = tokens ∧ d.tree = e ∧ d.need ≤ budget := by
  obtain ⟨d, same, derived⟩ := derives
  exact ⟨d, by rw [same, List.append_nil], derived⟩

theorem Chains.derives {level inner : Level} (chains : Chains level inner) {budget : Nat}
    {tokens rest : List Token} {e : Expr} (derives : Derives budget inner tokens e rest) :
    Derives budget level tokens e rest := by
  obtain ⟨d, same, tree, need⟩ := derives
  exact ⟨.chain chains d .done, by simp [Derivation.tokens, Links.tokens, same],
    by simp [Derivation.tree, Links.tree, tree], by simp [Derivation.need, Links.need, need]⟩

/-- What is derivable one level tighter is derivable at a level. -/
theorem exists_tighter (level : Level) (loose : 0 < level.rank) :
    ∃ inner : Level, inner.rank + 1 = level.rank ∧
      ∀ budget tokens e rest, Derives budget inner tokens e rest →
        Derives budget level tokens e rest := by
  cases level with
  | disj => exact ⟨.conj, rfl, fun _ _ _ _ => Chains.disj.derives⟩
  | conj => exact ⟨.neg, rfl, fun _ _ _ _ => Chains.conj.derives⟩
  | neg => exact ⟨.cmp, rfl, fun _ _ _ _ ⟨d, derived⟩ => ⟨.affirmed d, derived⟩⟩
  | cmp => exact ⟨.sum, rfl, fun _ _ _ _ ⟨d, derived⟩ => ⟨.single d, derived⟩⟩
  | sum => exact ⟨.prod, rfl, fun _ _ _ _ => Chains.sum.derives⟩
  | prod => exact ⟨.sign, rfl, fun _ _ _ _ => Chains.prod.derives⟩
  | sign => exact ⟨.power, rfl, fun _ _ _ _ ⟨d, derived⟩ => ⟨.unsigned d, derived⟩⟩
  | power => exact ⟨.atom, rfl, fun _ _ _ _ ⟨d, derived⟩ => ⟨.bare d, derived⟩⟩
  | atom => exact absurd loose (by decide)

/-- What is derivable at a level is derivable at every looser one. -/
theorem Derives.looser {budget : Nat} {inner : Level} {tokens rest : List Token} {e : Expr}
    (derives : Derives budget inner tokens e rest) (level : Level)
    (looser : inner.rank ≤ level.rank) :
    Derives budget level tokens e rest := by
  obtain ⟨steps, apart⟩ := Nat.exists_eq_add_of_le looser
  induction steps generalizing level with
  | zero =>
    have same : inner = level := by
      cases inner <;> cases level <;> first | rfl | exact absurd apart (by decide)
    exact same ▸ derives
  | succ steps ih =>
    obtain ⟨middle, next, wrap⟩ := exists_tighter level (by omega)
    exact wrap _ _ _ _ (ih middle (by omega) (by omega))

theorem Derives.brackets {budget : Nat} {tokens : List Token} {e : Expr}
    (derives : Derives budget .disj tokens e []) :
    Derives (budget + 1) .atom (.symbol .lparen :: (tokens ++ [.symbol .rparen])) e [] := by
  obtain ⟨d, rfl, tree, need⟩ := derives.exists_derivation
  exact ⟨.parens d, by simp [Derivation.tokens], tree, by simp only [Derivation.need]; omega⟩

/-- A token that stands before its operand. -/
inductive Before : Token → UnaryOp → Prop where
  | sign {token : Token} {op : UnaryOp} (signs : Signs token op) : Before token op
  | negation {token : Token} (negates : Negates token) : Before token .not

/-- A token that stands between its operands. -/
inductive Between : Token → (Expr → Expr → Expr) → Prop where
  | joins {level : Level} {token : Token} {join : Expr → Expr → Expr}
      (joins : Joins level token join) : Between token join
  | compares {token : Token} {op : BinaryOp} (compares : Compares token op) :
      Between token (.binary op)
  | power : Between (.symbol .power) (.binary (.arith .pow))

theorem Joins.exists_chains {level : Level} {token : Token} {join : Expr → Expr → Expr}
    (joins : Joins level token join) : ∃ inner, Chains level inner := by
  cases joins with
  | orSymbol | orWord => exact ⟨_, .disj⟩
  | andSymbol | andWord => exact ⟨_, .conj⟩
  | add | sub => exact ⟨_, .sum⟩
  | mul | div | floorDiv | mod => exact ⟨_, .prod⟩

/-- An operator before an atom takes one level more than the atom. -/
theorem Before.derives {token : Token} {op : UnaryOp} (before : Before token op) {budget : Nat}
    {tokens : List Token} {e : Expr} (operand : Derives budget .atom tokens e []) :
    Derives (budget + 1) .disj (token :: tokens) (.unary op e) [] := by
  cases before with
  | sign signs =>
    obtain ⟨d, rfl, rfl, need⟩ := (operand.looser .sign (by decide)).exists_derivation
    have here : Derives (budget + 1) .sign (token :: d.tokens) (.unary op d.tree) [] :=
      ⟨.signed token op signs d, by simp [Derivation.tokens], rfl,
        by simp only [Derivation.need]; omega⟩
    exact here.looser .disj (by decide)
  | negation negates =>
    obtain ⟨d, rfl, rfl, need⟩ := (operand.looser .neg (by decide)).exists_derivation
    have here : Derives (budget + 1) .neg (token :: d.tokens) (.unary .not d.tree) [] :=
      ⟨.negated token negates d, by simp [Derivation.tokens], rfl,
        by simp only [Derivation.need]; omega⟩
    exact here.looser .disj (by decide)

/-- An operator between two atoms takes one level more than they do. -/
theorem Between.derives {token : Token} {join : Expr → Expr → Expr} (between : Between token join)
    {budget : Nat} {left right : List Token} {lhs rhs : Expr}
    (first : Derives budget .atom left lhs []) (second : Derives budget .atom right rhs []) :
    Derives (budget + 1) .disj (left ++ token :: right) (join lhs rhs) [] := by
  cases between with
  | @joins level _ _ joins =>
    obtain ⟨inner, chains⟩ := joins.exists_chains
    obtain ⟨l, rfl, rfl, leftNeed⟩ := (first.looser inner (Nat.zero_le _)).exists_derivation
    obtain ⟨r, rfl, rfl, rightNeed⟩ := (second.looser inner (Nat.zero_le _)).exists_derivation
    have here : Derives (budget + 1) level (l.tokens ++ token :: r.tokens)
        (join l.tree r.tree) [] :=
      ⟨.chain chains l (.link token join joins r .done),
        by simp [Derivation.tokens, Links.tokens], by simp [Derivation.tree, Links.tree],
        by simp only [Derivation.need, Links.need]; omega⟩
    exact here.looser .disj level.rank_le
  | @compares _ op compares =>
    obtain ⟨l, rfl, rfl, leftNeed⟩ := (first.looser .sum (by decide)).exists_derivation
    obtain ⟨r, rfl, rfl, rightNeed⟩ := (second.looser .sum (by decide)).exists_derivation
    have here : Derives (budget + 1) .cmp (l.tokens ++ token :: r.tokens)
        (.binary op l.tree r.tree) [] :=
      ⟨.compared l token op compares r, by simp [Derivation.tokens], rfl,
        by simp only [Derivation.need]; omega⟩
    exact here.looser .disj (by decide)
  | power =>
    obtain ⟨l, rfl, rfl, leftNeed⟩ := first.exists_derivation
    obtain ⟨r, rfl, rfl, rightNeed⟩ := (second.looser .sign (by decide)).exists_derivation
    have here : Derives (budget + 1) .power (l.tokens ++ .symbol .power :: r.tokens)
        (.binary (.arith .pow) l.tree r.tree) [] :=
      ⟨.raised l r, by simp [Derivation.tokens], rfl, by simp only [Derivation.need]; omega⟩
    exact here.looser .disj (by decide)

end Grammar

/-! ## Lexemes of expressions in full -/

namespace Expr
open Grammar

/-- The words are read as the tokens, one by one. -/
def Spelled (words : List String) (read : List Token) : Prop :=
  List.Forall₂ Lexer.Reads (words.map String.toList) read

theorem spelled_single {word : String} {token : Token} (reads : Lexer.Reads word.toList token) :
    Spelled [word] [token] :=
  .cons reads .nil

theorem Spelled.append {words more : List String} {read further : List Token}
    (spelled : Spelled words read) (later : Spelled more further) :
    Spelled (words ++ more) (read ++ further) := by
  unfold Spelled
  rw [List.map_append]
  exact List.rel_append spelled later

theorem Spelled.brackets {words : List String} {read : List Token} (spelled : Spelled words read) :
    Spelled ("(" :: (words ++ [")"])) (.symbol .lparen :: (read ++ [.symbol .rparen])) := by
  have closing : Spelled [")"] [.symbol .rparen] := spelled_single (Lexer.reads_symbol .rparen)
  exact .cons (Lexer.reads_symbol .lparen) (spelled.append closing)

theorem reads_unary {op : UnaryOp} {word : String} (spelled : word ∈ op.spellings) :
    ∃ token, Lexer.Reads word.toList token ∧ Before token op := by
  cases op with
  | neg =>
    obtain rfl := List.mem_singleton.mp spelled
    exact ⟨_, Lexer.reads_symbol .minus, .sign .minus⟩
  | plus =>
    obtain rfl := List.mem_singleton.mp spelled
    exact ⟨_, Lexer.reads_symbol .plus, .sign .plus⟩
  | not =>
    rcases List.mem_pair.mp spelled with rfl | rfl
    · exact ⟨_, Lexer.reads_name (by decide), .negation .word⟩
    · exact ⟨_, Lexer.reads_symbol .bang, .negation .symbol⟩

theorem reads_conj {word : String} (spelled : word ∈ ["and", "&&"]) :
    ∃ token, Lexer.Reads word.toList token ∧ Between token .conj := by
  rcases List.mem_pair.mp spelled with rfl | rfl
  · exact ⟨_, Lexer.reads_name (by decide), .joins .andWord⟩
  · exact ⟨_, Lexer.reads_symbol .andAnd, .joins .andSymbol⟩

theorem reads_disj {word : String} (spelled : word ∈ ["or", "||"]) :
    ∃ token, Lexer.Reads word.toList token ∧ Between token .disj := by
  rcases List.mem_pair.mp spelled with rfl | rfl
  · exact ⟨_, Lexer.reads_name (by decide), .joins .orWord⟩
  · exact ⟨_, Lexer.reads_symbol .orOr, .joins .orSymbol⟩

theorem reads_binary (op : BinaryOp) :
    ∃ token, Lexer.Reads op.symbol.toList token ∧ Between token (.binary op) := by
  cases op with
  | arith op =>
    cases op with
    | add => exact ⟨_, Lexer.reads_symbol .plus, .joins .add⟩
    | sub => exact ⟨_, Lexer.reads_symbol .minus, .joins .sub⟩
    | mul => exact ⟨_, Lexer.reads_symbol .star, .joins .mul⟩
    | div => exact ⟨_, Lexer.reads_symbol .slash, .joins .div⟩
    | floorDiv => exact ⟨_, Lexer.reads_symbol .floorDiv, .joins .floorDiv⟩
    | mod => exact ⟨_, Lexer.reads_symbol .percent, .joins .mod⟩
    | pow => exact ⟨_, Lexer.reads_symbol .power, .power⟩
  | equal => exact ⟨_, Lexer.reads_symbol .eq, .compares .equal⟩
  | notEqual => exact ⟨_, Lexer.reads_symbol .notEq, .compares .notEqual⟩
  | order op =>
    cases op with
    | less => exact ⟨_, Lexer.reads_symbol .less, .compares .less⟩
    | lessEq => exact ⟨_, Lexer.reads_symbol .lessEq, .compares .lessEq⟩
    | greater => exact ⟨_, Lexer.reads_symbol .greater, .compares .greater⟩
    | greaterEq => exact ⟨_, Lexer.reads_symbol .greaterEq, .compares .greaterEq⟩

/-- A tree in full is read as tokens that derive it with two levels for each of its operators. -/
def Recovered (e : Expr) (words : List String) : Prop :=
  ∃ read, Spelled words read ∧ Derives (2 * e.height) .atom read e []

theorem recovered_leaf {e : Expr} {word : String} {token : Token}
    (reads : Lexer.Reads word.toList token) (denotes : Denotes token e) : Recovered e [word] :=
  ⟨[token], spelled_single reads, .leaf token e denotes, rfl, rfl, Nat.zero_le _⟩

/-- Two operands and an operator between them, in brackets. -/
theorem recovered_between {join : Expr → Expr → Expr} {lhs rhs : Expr} {word : String}
    {left right : List String}
    (height : (join lhs rhs).height = 1 + max lhs.height rhs.height)
    (operator : ∃ token, Lexer.Reads word.toList token ∧ Between token join)
    (first : Recovered lhs left) (second : Recovered rhs right) :
    Recovered (join lhs rhs) ("(" :: (left ++ word :: (right ++ [")"]))) := by
  obtain ⟨token, reads, between⟩ := operator
  obtain ⟨leftRead, leftSpelled, leftDerives⟩ := first
  obtain ⟨rightRead, rightSpelled, rightDerives⟩ := second
  have derives := (between.derives
    (leftDerives.mono (2 * max lhs.height rhs.height) (by omega))
    (rightDerives.mono _ (by omega))).brackets
  refine ⟨_, ?_, derives.mono _ (by omega)⟩
  have spelled : Spelled (left ++ word :: right) (leftRead ++ token :: rightRead) :=
    leftSpelled.append (.cons reads rightSpelled)
  simpa only [List.append_assoc, List.cons_append] using spelled.brackets

/-- The induction follows the way the tree is written, since that fixes the spelling of every
node. -/
theorem Written.recovered {e : Expr} {words : List String} (written : e.Written words)
    (plain : e.Plain) : Recovered e words := by
  induction written with
  | int n => exact recovered_leaf (Lexer.reads_integer (Int64.not_lt.mpr plain)) (.int n)
  | str s => exact recovered_leaf (Lexer.reads_quotedText s) (.str s)
  | var name =>
    refine recovered_leaf (Lexer.reads_name plain.1) (.var name ?_)
    have free := plain.2
    simp_all [reserved]
  | bool b spelled =>
    cases b with
    | true =>
      rcases List.mem_pair.mp spelled with rfl | rfl
      · exact recovered_leaf (Lexer.reads_name (by decide)) (.true _ (.inl rfl))
      · exact recovered_leaf (Lexer.reads_name (by decide)) (.true _ (.inr rfl))
    | false =>
      rcases List.mem_pair.mp spelled with rfl | rfl
      · exact recovered_leaf (Lexer.reads_name (by decide)) (.false _ (.inl rfl))
      · exact recovered_leaf (Lexer.reads_name (by decide)) (.false _ (.inr rfl))
  | @unary op operand word inner spelled written ih =>
    obtain ⟨token, reads, before⟩ := reads_unary spelled
    obtain ⟨read, innerSpelled, derives⟩ := ih plain
    have whole : Spelled (word :: inner) (token :: read) := .cons reads innerSpelled
    exact ⟨_, whole.brackets,
      (before.derives derives).brackets.mono _ (by simp only [height]; omega)⟩
  | binary op leftWritten rightWritten left right =>
    exact recovered_between rfl (reads_binary op) (left plain.1) (right plain.2)
  | conj spelled leftWritten rightWritten left right =>
    exact recovered_between rfl (reads_conj spelled) (left plain.1) (right plain.2)
  | disj spelled leftWritten rightWritten left right =>
    exact recovered_between rfl (reads_disj spelled) (left plain.1) (right plain.2)

/-- **Expressions in full are read back.** A tree with literals for its leaves and at most 100
operators on a path can be written in full, and however its operators are spelled, the lexemes with
a space between two of them are read as that tree. -/
theorem written_read_back (e : Expr) (plain : e.Plain) (shallow : e.height ≤ 100) :
    (∃ words, e.Written words) ∧
    ∀ words, e.Written words →
      ∃ read, tokens (" ".intercalate words) = .ok read ∧ Expr.ofTokens read = .ok e := by
  refine ⟨exists_written plain, ?_⟩
  intro words written
  obtain ⟨read, spelled, derives⟩ := written.recovered plain
  obtain ⟨d, same, tree, need⟩ := (derives.looser .disj (by decide)).exists_derivation
  refine ⟨read, ?_, ?_⟩
  · rw [tokens, String.toList_intercalate]
    exact Lexer.scan_intercalate spelled
  · rw [← same, ofTokens_tokens, if_pos (Nat.le_trans need (by rw [Parser.maxDepth]; omega)), tree]

/-- A tree with the largest integer, a name outside ASCII, and a text with a quote, a backslash and
a tab. -/
def mixed : Expr :=
  .conj (.unary .not (.binary (.order .greaterEq) (.var "λ_1") (.int Int64.maxValue)))
    (.disj (.binary .equal (.str "a\"\\n\t") (.bool false))
      (.unary .neg (.binary (.arith .pow) (.int 2) (.var "_"))))

/-- The tree with signs for one operator and words for the others. -/
def mixedWords : List String :=
  ["(", "(", "!", "(", "λ_1", ">=", "9223372036854775807", ")", ")", "and",
    "(", "(", "\"a\\\"\\\\n\t\"", "==", "False", ")", "or",
      "(", "-", "(", "2", "**", "_", ")", ")", ")", ")"]

theorem written_read_back_mixed :
    mixed.Plain ∧ mixed.height ≤ 100 ∧ mixed.Written mixedWords ∧
      ∃ read, tokens (" ".intercalate mixedWords) = .ok read ∧ Expr.ofTokens read = .ok mixed := by
  have plain : mixed.Plain := by decide
  have shallow : mixed.height ≤ 100 := by decide
  have written : mixed.Written mixedWords := by
    have falsity : "False" ∈ truthSpellings false := by decide
    have comparison := Written.binary (.order .greaterEq) (.var "λ_1") (.int Int64.maxValue)
    have equation := Written.binary .equal (.str "a\"\\n\t") (.bool false falsity)
    have power := Written.binary (.arith .pow) (.int 2) (.var "_")
    have negation := Written.unary (show "!" ∈ UnaryOp.not.spellings by decide) comparison
    have opposite := Written.unary (show "-" ∈ UnaryOp.neg.spellings by decide) power
    have choice := Written.disj (show "or" ∈ ["or", "||"] by decide) equation opposite
    exact Written.conj (show "and" ∈ ["and", "&&"] by decide) negation choice
  exact ⟨plain, shallow, written, (written_read_back mixed plain shallow).2 mixedWords written⟩

end Expr

end Linewise
