import Linewise.Expr.Parser
import Linewise.Token.Lexer
import Linewise.Value

/-! Evaluation of expressions. Integers are exact or overflow; doubles are finite or overflow;
conjunction and disjunction yield the operand that decides. -/
namespace Linewise

/-- `EvalError`: why an expression has no value. -/
inductive EvalError where
  /-- The text has no tokens. -/
  | lexing (e : LexError)
  /-- The tokens are no expression. -/
  | parsing (e : ParseError)
  /-- A name has no value. -/
  | undefined (name : String)
  /-- The operator does not take operands of these kinds. -/
  | operands (op : BinaryOp) (lhs rhs : Kind)
  /-- The sign does not take an operand of this kind; `negative` tells which sign. -/
  | signOperand (negative : Bool) (operand : Kind)
  /-- The result is not in the range of its type. -/
  | overflow
  /-- A divisor is zero, or zero has a negative exponent. -/
  | divisionByZero
deriving DecidableEq

/-- The wording of an evaluation error. -/
def EvalError.message : EvalError → String
  | .lexing e => "syntax error: " ++ e.message
  | .parsing e => "syntax error: " ++ e.message
  | .undefined name => "undefined variable: " ++ name
  | .operands op lhs rhs =>
    "unsupported operand type(s) for " ++ op.symbol ++ ": '" ++ lhs.name ++ "' and '" ++
      rhs.name ++ "'"
  | .signOperand negative operand =>
    "bad operand type for unary " ++ (if negative then "-" else "+") ++ ": '" ++ operand.name ++ "'"
  | .overflow => "numeric overflow"
  | .divisionByZero => "division by zero"

/-- The values of the names in an expression. -/
abbrev Scope := String → Option Value

namespace Eval

/-- `MAX_STRING_LEN`: the largest size in bytes of a text built by repetition. -/
def maxText : Nat := 1 <<< 20

/-- An integer result that may not fit. -/
def checked : Option Int64 → Except EvalError Number
  | some n => .ok (.int n)
  | none => .error .overflow

/-- A double result, which has to be finite. -/
def finite (x : Float) : Except EvalError Number :=
  if x.isFinite then .ok (.float x) else .error .overflow

/-- Arithmetic on doubles. -/
def onDoubles (op : ArithOp) (x y : Float) : Except EvalError Number :=
  match op with
  | .add => finite (x + y)
  | .sub => finite (x - y)
  | .mul => finite (x * y)
  | .div => if y.beq 0 then .error .divisionByZero else finite (x / y)
  | .floorDiv => if y.beq 0 then .error .divisionByZero else finite (Double.floor (x / y))
  | .mod => if y.beq 0 then .error .divisionByZero else finite (x - y * Double.floor (x / y))
  | .pow => if x.beq 0 && decide (y < 0) then .error .divisionByZero else finite (x.pow y)

/-- Arithmetic on integers. True division and negative exponents go over to doubles. -/
def onIntegers (op : ArithOp) (x y : Int64) : Except EvalError Number :=
  match op with
  | .add => checked (Integer.add? x y)
  | .sub => checked (Integer.sub? x y)
  | .mul => checked (Integer.mul? x y)
  | .floorDiv => if y = 0 then .error .divisionByZero else checked (Integer.floorDiv? x y)
  | .mod => if y = 0 then .error .divisionByZero else checked (Integer.floorMod? x y)
  | .pow =>
    if 0 ≤ y then checked (Integer.pow? x y)
    else onDoubles .pow (Double.ofInt x.toInt) (Double.ofInt y.toInt)
  | .div => onDoubles .div (Double.ofInt x.toInt) (Double.ofInt y.toInt)

/-- `arithmetic`: on integers if both operands are, else on doubles. -/
def arithmetic (op : ArithOp) (a b : Number) : Except EvalError Number :=
  match a, b with
  | .int x, .int y => onIntegers op x y
  | _, _ => onDoubles op a.toDouble b.toDouble

/-- The text `s`, `n` times in a row. -/
def copies (s : String) (n : Nat) : String :=
  if s = "" then "" else String.join (List.replicate n s)

/-- Repetition of a text; a negative count gives the empty text. The size is checked before anything
is built. -/
def replicated (s : String) (times : Int64) : Except EvalError Value :=
  if maxText < s.utf8ByteSize * times.toInt.toNat then .error .overflow
  else .ok (.str (copies s times.toInt.toNat))

/-- A sum, product or other computed value. Texts can be joined to texts and repeated by integers,
in either order. -/
def arith (op : ArithOp) (lhs rhs : Value) : Except EvalError Value :=
  match op, lhs, rhs with
  | .add, .str a, .str b => .ok (.str (a ++ b))
  | .mul, .str s, other =>
    match other.number? with
    | some (.int n) => replicated s n
    | _ => .error (.operands (.arith op) lhs.kind rhs.kind)
  | .mul, other, .str s =>
    match other.number? with
    | some (.int n) => replicated s n
    | _ => .error (.operands (.arith op) lhs.kind rhs.kind)
  | _, _, _ =>
    match lhs.number?, rhs.number? with
    | some a, some b =>
      match arithmetic op a b with
      | .ok n => .ok n.toValue
      | .error e => .error e
    | _, _ => .error (.operands (.arith op) lhs.kind rhs.kind)

/-- Equality of numbers: exact between integers, else between doubles. -/
def sameNumber : Number → Number → Bool
  | .int x, .int y => x == y
  | a, b => a.toDouble.beq b.toDouble

/-- `values_equal`: whether `==` holds. A text equals no number. -/
def equal (lhs rhs : Value) : Bool :=
  match lhs, rhs with
  | .str a, .str b => a == b
  | _, _ =>
    match lhs.number?, rhs.number? with
    | some a, some b => sameNumber a b
    | _, _ => false

/-- The order of two doubles; there is none if one of them is not a number. -/
def orderDoubles (x y : Float) : Option Ordering :=
  if x < y then some .lt else if x.beq y then some .eq else if y < x then some .gt else none

/-- The order of two numbers: exact between integers, else between doubles. -/
def orderNumbers : Number → Number → Option Ordering
  | .int x, .int y => some (compare x.toInt y.toInt)
  | a, b => orderDoubles a.toDouble b.toDouble

/-- The order of two texts, by code points. -/
def orderTexts (a b : String) : Ordering :=
  if a < b then .lt else if a = b then .eq else .gt

/-- Whether an operator accepts an order. -/
def accepts (op : OrderOp) (o : Ordering) : Bool :=
  match op with
  | .less => o == .lt
  | .lessEq => o != .gt
  | .greater => o == .gt
  | .greaterEq => o != .lt

/-- `compare`: whether a comparison by order holds. A text has no order with a number. -/
def ordered (op : OrderOp) (lhs rhs : Value) : Except EvalError Bool :=
  match lhs, rhs with
  | .str a, .str b => .ok (accepts op (orderTexts a b))
  | _, _ =>
    match lhs.number?, rhs.number? with
    | some a, some b => .ok ((orderNumbers a b).any (accepts op))
    | _, _ => .error (.operands (.order op) lhs.kind rhs.kind)

/-- `eval_binary`: the value of an operator on two values. -/
def binary (op : BinaryOp) (lhs rhs : Value) : Except EvalError Value :=
  match op with
  | .arith op => arith op lhs rhs
  | .equal => .ok (.bool (equal lhs rhs))
  | .notEqual => .ok (.bool (!equal lhs rhs))
  | .order op =>
    match ordered op lhs rhs with
    | .ok b => .ok (.bool b)
    | .error e => .error e

/-- The value of a sign on a number. -/
def signed (negative : Bool) (operand : Value) : Except EvalError Value :=
  match operand.number? with
  | none => .error (.signOperand negative operand.kind)
  | some n =>
    if negative then
      match n with
      | .int n =>
        match Integer.neg? n with
        | some m => .ok (.int m)
        | none => .error .overflow
      | .float x => .ok (.float (-x))
    else .ok n.toValue

/-- `eval_unary`: the value of an operator on one value. -/
def unary (op : UnaryOp) (operand : Value) : Except EvalError Value :=
  match op with
  | .not => .ok (.bool (!operand.isTruthy))
  | .neg => signed true operand
  | .plus => signed false operand

end Eval

/-- `eval_expr`: the value of an expression. Operands are evaluated from left to right, and the
first error counts. -/
def Expr.eval (scope : Scope) : Expr → Except EvalError Value
  | .int n => .ok (.int n)
  | .float x => .ok (.float x)
  | .bool b => .ok (.bool b)
  | .str s => .ok (.str s)
  | .var name =>
    match scope name with
    | some v => .ok v
    | none => .error (.undefined name)
  | .unary op operand =>
    match operand.eval scope with
    | .ok v => Eval.unary op v
    | .error e => .error e
  | .binary op lhs rhs =>
    match lhs.eval scope with
    | .ok a =>
      match rhs.eval scope with
      | .ok b => Eval.binary op a b
      | .error e => .error e
    | .error e => .error e
  | .conj lhs rhs =>
    match lhs.eval scope with
    | .ok a => if a.isTruthy then rhs.eval scope else .ok a
    | .error e => .error e
  | .disj lhs rhs =>
    match lhs.eval scope with
    | .ok a => if a.isTruthy then .ok a else rhs.eval scope
    | .error e => .error e

/-- `evaluate`: the value of an expression text. -/
def evaluate (scope : Scope) (source : String) : Except EvalError Value :=
  match tokens source with
  | .error e => .error (.lexing e)
  | .ok ts =>
    match Expr.ofTokens ts with
    | .error e => .error (.parsing e)
    | .ok expr => expr.eval scope

end Linewise
