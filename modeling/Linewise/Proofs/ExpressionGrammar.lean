import Linewise.Expr.Parser

/-! The grammar of expressions, stated on its own: which tokens stand for which operators, what a
derivation of each level consists of, which tokens and which tree it has, and how much of the depth
budget it needs. No function of the parser occurs here. -/
namespace Linewise.Grammar
open Linewise.Parser (Level)

/-- A token that is an operand by itself. Names are operands unless they are reserved words. -/
inductive Denotes : Token → Expr → Prop where
  | int (n : Int64) : Denotes (.int n) (.int n)
  | float (x : Float) : Denotes (.float x) (.float x)
  | str (s : String) : Denotes (.str s) (.str s)
  | true (s : String) (word : s = "true" ∨ s = "True") : Denotes (.name s) (.bool true)
  | false (s : String) (word : s = "false" ∨ s = "False") : Denotes (.name s) (.bool false)
  | var (s : String)
      (free : s ∉ ["true", "True", "false", "False", "and", "or", "not"]) :
      Denotes (.name s) (.var s)

/-- A sign before an operand. -/
inductive Signs : Token → UnaryOp → Prop where
  | minus : Signs (.symbol .minus) .neg
  | plus : Signs (.symbol .plus) .plus

/-- A negation before an operand. -/
inductive Negates : Token → Prop where
  | symbol : Negates (.symbol .bang)
  | word : Negates (.name "not")

/-- A comparison between two operands. -/
inductive Compares : Token → BinaryOp → Prop where
  | equal : Compares (.symbol .eq) .equal
  | notEqual : Compares (.symbol .notEq) .notEqual
  | less : Compares (.symbol .less) (.order .less)
  | lessEq : Compares (.symbol .lessEq) (.order .lessEq)
  | greater : Compares (.symbol .greater) (.order .greater)
  | greaterEq : Compares (.symbol .greaterEq) (.order .greaterEq)

/-- An operator of a chain, by the level of the chain. -/
inductive Joins : Level → Token → (Expr → Expr → Expr) → Prop where
  | orSymbol : Joins .disj (.symbol .orOr) .disj
  | orWord : Joins .disj (.name "or") .disj
  | andSymbol : Joins .conj (.symbol .andAnd) .conj
  | andWord : Joins .conj (.name "and") .conj
  | add : Joins .sum (.symbol .plus) (.binary (.arith .add))
  | sub : Joins .sum (.symbol .minus) (.binary (.arith .sub))
  | mul : Joins .prod (.symbol .star) (.binary (.arith .mul))
  | div : Joins .prod (.symbol .slash) (.binary (.arith .div))
  | floorDiv : Joins .prod (.symbol .floorDiv) (.binary (.arith .floorDiv))
  | mod : Joins .prod (.symbol .percent) (.binary (.arith .mod))

/-- The levels that chain, each with the level of its operands. -/
inductive Chains : Level → Level → Prop where
  | disj : Chains .disj .conj
  | conj : Chains .conj .neg
  | sum : Chains .sum .prod
  | prod : Chains .prod .sign

mutual

/-- A derivation of an expression of a level. -/
inductive Derivation : Level → Type where
  | leaf (token : Token) (e : Expr) (denotes : Denotes token e) : Derivation .atom
  | parens (inner : Derivation .disj) : Derivation .atom
  | bare (base : Derivation .atom) : Derivation .power
  | raised (base : Derivation .atom) (exponent : Derivation .sign) : Derivation .power
  | unsigned (operand : Derivation .power) : Derivation .sign
  | signed (token : Token) (op : UnaryOp) (signs : Signs token op) (operand : Derivation .sign) :
      Derivation .sign
  | single (lhs : Derivation .sum) : Derivation .cmp
  | compared (lhs : Derivation .sum) (token : Token) (op : BinaryOp) (compares : Compares token op)
      (rhs : Derivation .sum) : Derivation .cmp
  | affirmed (operand : Derivation .cmp) : Derivation .neg
  | negated (token : Token) (negates : Negates token) (operand : Derivation .neg) : Derivation .neg
  | chain {level inner : Level} (chains : Chains level inner) (first : Derivation inner)
      (links : Links level inner) : Derivation level

/-- The part of a chain behind its first operand: operators, each with the operand behind it. -/
inductive Links : Level → Level → Type where
  | done {level inner : Level} : Links level inner
  | link {level inner : Level} (token : Token) (join : Expr → Expr → Expr)
      (joins : Joins level token join) (operand : Derivation inner) (more : Links level inner) :
      Links level inner

end

mutual

/-- The tokens of a derivation, from left to right. -/
def Derivation.tokens : {level : Level} → Derivation level → List Token
  | _, .leaf token _ _ => [token]
  | _, .parens inner => .symbol .lparen :: (inner.tokens ++ [.symbol .rparen])
  | _, .bare base => base.tokens
  | _, .raised base exponent => base.tokens ++ .symbol .power :: exponent.tokens
  | _, .unsigned operand => operand.tokens
  | _, .signed token _ _ operand => token :: operand.tokens
  | _, .single lhs => lhs.tokens
  | _, .compared lhs token _ _ rhs => lhs.tokens ++ token :: rhs.tokens
  | _, .affirmed operand => operand.tokens
  | _, .negated token _ operand => token :: operand.tokens
  | _, .chain _ first links => first.tokens ++ links.tokens

/-- The tokens of the links of a chain. -/
def Links.tokens : {level inner : Level} → Links level inner → List Token
  | _, _, .done => []
  | _, _, .link token _ _ operand more => token :: (operand.tokens ++ more.tokens)

end

mutual

/-- The tree of a derivation. Brackets leave no trace in it, and chains lean to the left. -/
def Derivation.tree : {level : Level} → Derivation level → Expr
  | _, .leaf _ e _ => e
  | _, .parens inner => inner.tree
  | _, .bare base => base.tree
  | _, .raised base exponent => .binary (.arith .pow) base.tree exponent.tree
  | _, .unsigned operand => operand.tree
  | _, .signed _ op _ operand => .unary op operand.tree
  | _, .single lhs => lhs.tree
  | _, .compared lhs _ op _ rhs => .binary op lhs.tree rhs.tree
  | _, .affirmed operand => operand.tree
  | _, .negated _ _ operand => .unary .not operand.tree
  | _, .chain _ first links => links.tree first.tree

/-- The tree of a chain whose part before the links has the tree `lhs`. -/
def Links.tree : {level inner : Level} → Links level inner → Expr → Expr
  | _, _, .done, lhs => lhs
  | _, _, .link _ join _ operand more, lhs => more.tree (join lhs operand.tree)

end

mutual

/-- The budget a derivation needs. A bracket, a sign, a negation and an exponent cost one level
each; a comparison is free; the operand behind the `i`-th operator of a chain costs `i` levels. -/
def Derivation.need : {level : Level} → Derivation level → Nat
  | _, .leaf _ _ _ => 0
  | _, .parens inner => 1 + inner.need
  | _, .bare base => base.need
  | _, .raised base exponent => max base.need (1 + exponent.need)
  | _, .unsigned operand => operand.need
  | _, .signed _ _ _ operand => 1 + operand.need
  | _, .single lhs => lhs.need
  | _, .compared lhs _ _ _ rhs => max lhs.need rhs.need
  | _, .affirmed operand => operand.need
  | _, .negated _ _ operand => 1 + operand.need
  | _, .chain _ first links => max first.need (links.need 1)

/-- The budget the links of a chain need, of which the first is the `position`-th. -/
def Links.need : {level inner : Level} → Links level inner → Nat → Nat
  | _, _, .done, _ => 0
  | _, _, .link _ _ _ operand more, position =>
    max (position + operand.need) (more.need (position + 1))

end

end Linewise.Grammar
