/-! Expression trees. -/
namespace Linewise

/-- Operators on one operand. -/
inductive UnaryOp where
  | neg
  | plus
  | not
deriving DecidableEq, Repr

/-- Operators that compute a number or a text. -/
inductive ArithOp where
  | add
  | sub
  | mul
  | div
  | floorDiv
  | mod
  | pow
deriving DecidableEq, Repr

/-- Operators that compare by order. -/
inductive OrderOp where
  | less
  | lessEq
  | greater
  | greaterEq
deriving DecidableEq, Repr

/-- Operators that evaluate both operands. -/
inductive BinaryOp where
  | arith (op : ArithOp)
  | equal
  | notEqual
  | order (op : OrderOp)
deriving DecidableEq, Repr

/-- The operator as it is written. -/
def ArithOp.symbol : ArithOp → String
  | .add => "+"
  | .sub => "-"
  | .mul => "*"
  | .div => "/"
  | .floorDiv => "//"
  | .mod => "%"
  | .pow => "**"

/-- The operator as it is written. -/
def OrderOp.symbol : OrderOp → String
  | .less => "<"
  | .lessEq => "<="
  | .greater => ">"
  | .greaterEq => ">="

/-- The operator as it is written. -/
def BinaryOp.symbol : BinaryOp → String
  | .arith op => op.symbol
  | .equal => "=="
  | .notEqual => "!="
  | .order op => op.symbol

/-- An expression. `conj` and `disj` are the operators that may skip their second operand. -/
inductive Expr where
  | int (n : Int64)
  | float (x : Float)
  | bool (b : Bool)
  | str (s : String)
  | var (name : String)
  | unary (op : UnaryOp) (operand : Expr)
  | binary (op : BinaryOp) (lhs rhs : Expr)
  | conj (lhs rhs : Expr)
  | disj (lhs rhs : Expr)
deriving DecidableEq

end Linewise
