import Linewise.Proofs.ExactIntegers

/-! Booleans count as `0` and `1` everywhere. An operator reads a value through its number, its
truth and, if it is one, its text, and these are the same for a boolean and for the integer that it
counts as. So an expression may have integers in the place of its boolean literals and variables:
its value stays the same up to such a replacement, and so does its error up to the kind that a
message names.

The two values are related by `StandsFor`, one step for each operator. -/
namespace Linewise

/-- The value with a boolean counted as `0` or `1`. -/
def Value.counted : Value → Value
  | .bool b => .int (if b then 1 else 0)
  | v => v

/-- The variables with every boolean counted. -/
def Scope.counted (scope : Scope) : Scope :=
  fun name => (scope name).map Value.counted

/-- The tree with every boolean literal replaced by the integer it counts as. -/
def Expr.counted : Expr → Expr
  | .int n => .int n
  | .float x => .float x
  | .bool b => .int (if b then 1 else 0)
  | .str s => .str s
  | .var name => .var name
  | .unary op operand => .unary op operand.counted
  | .binary op lhs rhs => .binary op lhs.counted rhs.counted
  | .conj lhs rhs => .conj lhs.counted rhs.counted
  | .disj lhs rhs => .disj lhs.counted rhs.counted

/-! ## Values and errors that stand for each other -/

/-- The second value is the first one, or the integer that it counts as. -/
inductive Value.StandsFor : Value → Value → Prop where
  | same (v : Value) : StandsFor v v
  | counted (b : Bool) : StandsFor (.bool b) (.int (if b then 1 else 0))

/-- The second kind is the first one, or that of integers where the first is that of booleans. -/
inductive Kind.StandsFor : Kind → Kind → Prop where
  | same (k : Kind) : StandsFor k k
  | counted : StandsFor .bool .int

/-- The second error is the first one, except that it may name a boolean operand as an integer. -/
inductive EvalError.StandsFor : EvalError → EvalError → Prop where
  | same (e : EvalError) : StandsFor e e
  | operands (op : BinaryOp) {lhs rhs lhs' rhs' : Kind} (left : lhs.StandsFor lhs')
      (right : rhs.StandsFor rhs') : StandsFor (.operands op lhs rhs) (.operands op lhs' rhs')

/-- Two results that are both values or both errors, and stand for each other. -/
inductive Eval.StandsFor : Except EvalError Value → Except EvalError Value → Prop where
  | ok {v w : Value} (value : v.StandsFor w) : StandsFor (.ok v) (.ok w)
  | error {e f : EvalError} (failure : e.StandsFor f) : StandsFor (.error e) (.error f)

theorem Eval.StandsFor.refl (result : Except EvalError Value) : StandsFor result result := by
  cases result with
  | ok v => exact .ok (.same v)
  | error e => exact .error (.same e)

namespace Value

theorem standsFor_counted (v : Value) : v.StandsFor v.counted := by
  cases v with
  | bool b => exact .counted b
  | int n => exact .same _
  | float x => exact .same _
  | str s => exact .same _

variable {v w : Value}

theorem StandsFor.counted_eq (stands : v.StandsFor w) : v.counted = w.counted := by
  cases stands with
  | same => rfl
  | counted b => rfl

theorem StandsFor.number?_eq (stands : v.StandsFor w) : v.number? = w.number? := by
  cases stands with
  | same => rfl
  | counted b => rfl

theorem StandsFor.isTruthy_eq (stands : v.StandsFor w) : v.isTruthy = w.isTruthy := by
  cases stands with
  | same => rfl
  | counted b => cases b <;> rfl

theorem StandsFor.kind (stands : v.StandsFor w) : v.kind.StandsFor w.kind := by
  cases stands with
  | same => exact .same _
  | counted b => exact .counted

/-- Only a text stands for a text. -/
theorem StandsFor.eq_of_number?_eq_none (stands : v.StandsFor w) (text : v.number? = none) :
    w = v := by
  cases stands with
  | same => rfl
  | counted b => cases text

end Value

theorem Value.number?_eq_none_iff {v : Value} : v.number? = none ↔ ∃ s, v = .str s := by
  cases v <;> simp [Value.number?]

/-! ## Operators -/

namespace Eval

variable {lhs rhs lhs' rhs' operand operand' : Value}

/-- A sum, product or other computed value. With two numbers it is arithmetic, which only sees the
numbers; with a text an operand that is no text is a factor of repetition or is refused. -/
theorem arith_standsFor (op : ArithOp) (left : lhs.StandsFor lhs') (right : rhs.StandsFor rhs') :
    StandsFor (arith op lhs rhs) (arith op lhs' rhs') := by
  have refused := EvalError.StandsFor.operands (.arith op) left.kind right.kind
  cases first : lhs.number? with
  | none =>
    obtain rfl := left.eq_of_number?_eq_none first
    obtain ⟨s, rfl⟩ := Value.number?_eq_none_iff.mp first
    cases right with
    | same => exact .refl _
    | counted b =>
      cases op with
      | mul => exact .refl _
      | _ => exact .error refused
  | some a =>
    cases second : rhs.number? with
    | none =>
      obtain rfl := right.eq_of_number?_eq_none second
      obtain ⟨s, rfl⟩ := Value.number?_eq_none_iff.mp second
      cases left with
      | same => exact .refl _
      | counted b =>
        cases op with
        | mul => exact .refl _
        | _ => exact .error refused
    | some b =>
      rw [arith_of_numbers first second,
        arith_of_numbers (left.number?_eq.symm.trans first) (right.number?_eq.symm.trans second)]
      exact .refl _

theorem equal_of_standsFor (left : lhs.StandsFor lhs') (right : rhs.StandsFor rhs') :
    equal lhs rhs = equal lhs' rhs' := by
  cases left with
  | same =>
    cases right with
    | same => rfl
    | counted b => cases lhs <;> rfl
  | counted b =>
    cases right with
    | same => cases rhs <;> rfl
    | counted c => rfl

theorem ordered_standsFor (op : OrderOp) (left : lhs.StandsFor lhs') (right : rhs.StandsFor rhs') :
    StandsFor (binary (.order op) lhs rhs) (binary (.order op) lhs' rhs') := by
  have refused := EvalError.StandsFor.operands (.order op) left.kind right.kind
  cases left with
  | same =>
    cases right with
    | same => exact .refl _
    | counted b =>
      cases lhs with
      | str s => exact .error refused
      | _ => exact .refl _
  | counted b =>
    cases right with
    | same =>
      cases rhs with
      | str s => exact .error refused
      | _ => exact .refl _
    | counted c => exact .refl _

theorem binary_standsFor (op : BinaryOp) (left : lhs.StandsFor lhs') (right : rhs.StandsFor rhs') :
    StandsFor (binary op lhs rhs) (binary op lhs' rhs') := by
  cases op with
  | arith op => exact arith_standsFor op left right
  | equal =>
    rw [binary, binary, equal_of_standsFor left right]
    exact .refl _
  | notEqual =>
    rw [binary, binary, equal_of_standsFor left right]
    exact .refl _
  | order op => exact ordered_standsFor op left right

theorem unary_standsFor (op : UnaryOp) (stands : operand.StandsFor operand') :
    StandsFor (unary op operand) (unary op operand') := by
  cases stands with
  | same => exact .refl _
  | counted b =>
    cases op with
    | not =>
      rw [unary, unary, (Value.StandsFor.counted b).isTruthy_eq]
      exact .refl _
    | neg => exact .refl _
    | plus => exact .refl _

end Eval

/-! ## Expressions -/

open Eval (StandsFor)

/-- What a tree and its counted form evaluate to stand for each other. -/
theorem Expr.eval_counted (scope : Scope) (e : Expr) :
    StandsFor (e.eval scope) (e.counted.eval scope.counted) := by
  induction e with
  | int n => exact .refl _
  | float x => exact .refl _
  | bool b => exact .ok (.counted b)
  | str s => exact .refl _
  | var name =>
    rw [counted, eval, eval, Scope.counted]
    cases scope name with
    | none => exact .refl _
    | some v => exact .ok v.standsFor_counted
  | unary op operand ih =>
    rw [counted, eval, eval]
    generalize operand.eval scope = result, operand.counted.eval scope.counted = result' at ih
    cases ih with
    | ok value => exact Eval.unary_standsFor op value
    | error failure => exact .error failure
  | binary op lhs rhs left right =>
    rw [counted, eval, eval]
    generalize lhs.eval scope = first, lhs.counted.eval scope.counted = first' at left
    generalize rhs.eval scope = second, rhs.counted.eval scope.counted = second' at right
    cases left with
    | error failure => exact .error failure
    | ok first =>
      cases right with
      | error failure => exact .error failure
      | ok second => exact Eval.binary_standsFor op first second
  | conj lhs rhs left right =>
    -- The truth of the left operand, which decides about the right one, is the same.
    rw [counted, eval, eval]
    generalize lhs.eval scope = first, lhs.counted.eval scope.counted = first' at left
    cases left with
    | error failure => exact .error failure
    | ok first =>
      simp only [first.isTruthy_eq]
      split
      · exact right
      · exact .ok first
  | disj lhs rhs left right =>
    rw [counted, eval, eval]
    generalize lhs.eval scope = first, lhs.counted.eval scope.counted = first' at left
    cases left with
    | error failure => exact .error failure
    | ok first =>
      simp only [first.isTruthy_eq]
      split
      · exact .ok first
      · exact right

/-- **Booleans behave as `0` and `1` everywhere.** Replace every boolean literal of an expression
and every boolean variable by the integer it counts as. Then the expression has a value before and
after, and the two are the same once booleans are counted; or it has an error before and after, and
the two are the same except that a boolean operand may be named as an integer. -/
theorem Expr.booleans_count_as_integers (scope : Scope) (e : Expr) :
    (∃ v w, e.eval scope = .ok v ∧ e.counted.eval scope.counted = .ok w ∧
        v.counted = w.counted) ∨
      ∃ before after, e.eval scope = .error before ∧
        e.counted.eval scope.counted = .error after ∧ before.StandsFor after := by
  have stands := eval_counted scope e
  generalize e.eval scope = result, e.counted.eval scope.counted = result' at stands
  cases stands with
  | ok value => exact .inl ⟨_, _, rfl, rfl, value.counted_eq⟩
  | error failure => exact .inr ⟨_, _, rfl, rfl, failure⟩

/-- An error tells a boolean from the integer it counts as, and nothing else does. -/
example :
    let sum : Expr := .binary (.arith .add) (.str "ab") (.bool true)
    sum.eval (fun _ => none) = .error (.operands (.arith .add) .str .bool) ∧
      sum.counted.eval (fun _ => none) = .error (.operands (.arith .add) .str .int) := by
  decide

end Linewise
