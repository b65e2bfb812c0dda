import Linewise.Expr
import Linewise.Token

/-! From tokens to trees. The levels of the grammar, weakest binding first, are disjunction,
conjunction, negation, comparison, sum, product, sign, power and atom. A budget of 200 pays for each
bracket, sign, negation and exponent on the way down and for each operator of a chain of
disjunctions, conjunctions, sums or products; a finished chain gives back what it spent. -/
namespace Linewise

/-- `ParsingError`: why a list of tokens is not an expression. -/
inductive ParseError where
  /-- The token cannot stand here. -/
  | unexpected (token : Token)
  /-- The tokens end inside an expression. -/
  | unexpectedEnd
  /-- There is no token. -/
  | empty
  /-- The budget is spent. -/
  | tooDeep
deriving DecidableEq

/-- The wording of a parsing error. -/
def ParseError.message : ParseError → String
  | .unexpected token => "unexpected token " ++ token.describe
  | .unexpectedEnd => "unexpected end of expression"
  | .empty => "empty expression"
  | .tooDeep => "expression nested too deeply"

namespace Parser

/-- The levels of the grammar. -/
inductive Level where
  | disj
  | conj
  | neg
  | cmp
  | sum
  | prod
  | sign
  | power
  | atom
deriving DecidableEq, Repr

/-- How many levels bind tighter. -/
def Level.rank : Level → Nat
  | .disj => 8
  | .conj => 7
  | .neg => 6
  | .cmp => 5
  | .sum => 4
  | .prod => 3
  | .sign => 2
  | .power => 1
  | .atom => 0

theorem Level.rank_le (level : Level) : level.rank ≤ 8 := by
  cases level <;> decide

/-- The comparison a token stands for. -/
def comparison? : Token → Option BinaryOp
  | .symbol .eq => some .equal
  | .symbol .notEq => some .notEqual
  | .symbol .less => some (.order .less)
  | .symbol .lessEq => some (.order .lessEq)
  | .symbol .greater => some (.order .greater)
  | .symbol .greaterEq => some (.order .greaterEq)
  | _ => none

/-- Whether a token is the negation operator, in either spelling. -/
def isNot : Token → Bool
  | .symbol .bang => true
  | .name s => s == "not"
  | _ => false

/-- The sign a token stands for. -/
def sign? : Token → Option UnaryOp
  | .symbol .minus => some .neg
  | .symbol .plus => some .plus
  | _ => none

/-- How a token joins two operands of the next tighter level into one operand of a level that
chains; on the other levels no token does. -/
def joiner? : Level → Token → Option (Expr → Expr → Expr)
  | .disj, .symbol .orOr => some .disj
  | .disj, .name s => if s = "or" then some .disj else none
  | .conj, .symbol .andAnd => some .conj
  | .conj, .name s => if s = "and" then some .conj else none
  | .sum, .symbol .plus => some (.binary (.arith .add))
  | .sum, .symbol .minus => some (.binary (.arith .sub))
  | .prod, .symbol .star => some (.binary (.arith .mul))
  | .prod, .symbol .slash => some (.binary (.arith .div))
  | .prod, .symbol .floorDiv => some (.binary (.arith .floorDiv))
  | .prod, .symbol .percent => some (.binary (.arith .mod))
  | _, _ => none

/-- The operand level of a level that chains. -/
def Level.operand : Level → Level
  | .disj => .conj
  | .conj => .neg
  | .sum => .prod
  | .prod => .sign
  | _ => .atom

/-- The expression a single token denotes, if it is one. The words `and`, `or` and `not` denote
none. -/
def leaf? : Token → Option Expr
  | .int n => some (.int n)
  | .float x => some (.float x)
  | .str s => some (.str s)
  | .name s =>
    if s = "true" ∨ s = "True" then some (.bool true)
    else if s = "false" ∨ s = "False" then some (.bool false)
    else if s = "and" ∨ s = "or" ∨ s = "not" then none
    else some (.var s)
  | .symbol _ => none

mutual

/-- `parse_or`, `parse_and` and so on down to `parse_primary`: reads one expression of a level from
the front of `tokens`, with `budget` levels to spend, as `descend` counts them. -/
def parse (budget : Nat) (level : Level) (tokens : List Token) :
    Except ParseError (Expr × List Token) :=
  match level with
  | .disj =>
    match parse budget .conj tokens with
    | .ok (lhs, rest) => chain budget .disj lhs rest
    | .error e => .error e
  | .conj =>
    match parse budget .neg tokens with
    | .ok (lhs, rest) => chain budget .conj lhs rest
    | .error e => .error e
  | .neg =>
    match tokens with
    | token :: rest =>
      if isNot token then
        match budget with
        | 0 => .error .tooDeep
        | less + 1 =>
          match parse less .neg rest with
          | .ok (operand, after) => .ok (.unary .not operand, after)
          | .error e => .error e
      else parse budget .cmp tokens
    | [] => parse budget .cmp tokens
  | .cmp =>
    match parse budget .sum tokens with
    | .ok (lhs, rest) =>
      match rest with
      | [] => .ok (lhs, rest)
      | token :: more =>
        match comparison? token with
        | none => .ok (lhs, rest)
        | some op =>
          match parse budget .sum more with
          | .ok (rhs, after) => .ok (.binary op lhs rhs, after)
          | .error e => .error e
    | .error e => .error e
  | .sum =>
    match parse budget .prod tokens with
    | .ok (lhs, rest) => chain budget .sum lhs rest
    | .error e => .error e
  | .prod =>
    match parse budget .sign tokens with
    | .ok (lhs, rest) => chain budget .prod lhs rest
    | .error e => .error e
  | .sign =>
    match tokens with
    | token :: rest =>
      match sign? token with
      | some op =>
        match budget with
        | 0 => .error .tooDeep
        | less + 1 =>
          match parse less .sign rest with
          | .ok (operand, after) => .ok (.unary op operand, after)
          | .error e => .error e
      | none => parse budget .power tokens
    | [] => parse budget .power tokens
  | .power =>
    match parse budget .atom tokens with
    | .ok (base, .symbol .power :: rest) =>
      match budget with
      | 0 => .error .tooDeep
      | less + 1 =>
        match parse less .sign rest with
        | .ok (exponent, after) => .ok (.binary (.arith .pow) base exponent, after)
        | .error e => .error e
    | .ok (base, rest) => .ok (base, rest)
    | .error e => .error e
  | .atom =>
    match tokens with
    | [] => .error .unexpectedEnd
    | .symbol .lparen :: rest =>
      match budget with
      | 0 => .error .tooDeep
      | less + 1 =>
        match parse less .disj rest with
        | .ok (inner, .symbol .rparen :: after) => .ok (inner, after)
        | .ok (_, token :: _) => .error (.unexpected token)
        | .ok (_, []) => .error .unexpectedEnd
        | .error e => .error e
    | token :: rest =>
      match leaf? token with
      | some leaf => .ok (leaf, rest)
      | none => .error (.unexpected token)
termination_by 10 * budget + level.rank + 1
decreasing_by all_goals simp only [Level.rank]; omega

/-- The loops of `parse_or`, `parse_and`, `parse_additive` and `parse_term`: goes on with a chain of
operators of one level, of which `lhs` is read. -/
def chain (budget : Nat) (level : Level) (lhs : Expr) (tokens : List Token) :
    Except ParseError (Expr × List Token) :=
  match tokens with
  | [] => .ok (lhs, [])
  | token :: rest =>
    match joiner? level token with
    | none => .ok (lhs, token :: rest)
    | some join =>
      match budget with
      | 0 => .error .tooDeep
      | less + 1 =>
        match parse less level.operand rest with
        | .ok (rhs, after) => chain less level (join lhs rhs) after
        | .error e => .error e
termination_by 10 * budget
decreasing_by
  · have := level.operand.rank_le
    omega
  · omega

end

/-- `MAX_DEPTH`: the budget of a whole expression. -/
def maxDepth : Nat := 200

end Parser

/-- `construct_ast`: reads a list of tokens as exactly one expression. -/
def Expr.ofTokens (tokens : List Token) : Except ParseError Expr :=
  if tokens.isEmpty then .error .empty
  else
    match Parser.parse Parser.maxDepth .disj tokens with
    | .ok (e, []) => .ok e
    | .ok (_, token :: _) => .error (.unexpected token)
    | .error e => .error e

end Linewise
