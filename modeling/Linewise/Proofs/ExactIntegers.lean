import Mathlib.Algebra.Ring.Int.Parity
import Linewise.Expr.Eval
import Linewise.Proofs.DocumentLiterals

/-! Integer arithmetic is exact. Quotient and remainder on words are the floored ones wherever they
are defined, and a sum, difference, product, quotient or opposite fails only if the exact result
does not fit. So an expression over integers and truth values that yields an integer yields its
value in unbounded arithmetic; once a double occurs, no operator leads back to an integer. -/
namespace Linewise

/-! ## Words -/

namespace Integer

/-- The integers that a word can hold. -/
def InRange (n : Int) : Prop :=
  -2 ^ 63 ≤ n ∧ n ≤ 2 ^ 63 - 1

instance (n : Int) : Decidable (InRange n) :=
  inferInstanceAs (Decidable (_ ∧ _))

theorem inRange_toInt (x : Int64) : InRange x.toInt := by
  have low := x.le_toInt
  have high := x.toInt_lt
  exact ⟨low, by omega⟩

theorem fit_eq_some_iff {n : Int} {x : Int64} : fit n = some x ↔ x.toInt = n := by
  constructor
  · intro fits
    unfold fit at fits
    split at fits
    · rename_i range
      obtain rfl := Option.some.inj fits
      rw [Int64.toInt_minValue, Int64.toInt_maxValue] at range
      exact Int64.toInt_ofInt_of_le range.1 (by omega)
    · cases fits
  · rintro rfl
    exact Document.fit_toInt x

theorem fit_eq_none_iff {n : Int} : fit n = none ↔ ¬ InRange n := by
  unfold fit InRange
  rw [Int64.toInt_minValue, Int64.toInt_maxValue]
  simp

/-- The truncated quotient of words is exact wherever it is defined. -/
theorem toInt_div {x y : Int64} (divides : Divides x y) :
    (x / y).toInt = x.toInt.tdiv y.toInt := by
  by_cases least : x = Int64.minValue
  · exact Int64.toInt_div_of_ne_right x y fun negative => divides.2 ⟨least, negative⟩
  · exact Int64.toInt_div_of_ne_left x y least

/-- The floored quotient is the truncated one, less one if there is a remainder and the signs
differ. -/
theorem fdiv_eq_corrected {a b : Int} (nonzero : b ≠ 0) :
    a.fdiv b =
      if a.tmod b ≠ 0 ∧ (decide (a < 0) != decide (b < 0)) then a.tdiv b - 1 else a.tdiv b := by
  rw [Int.fdiv_eq_tdiv]
  simp only [Int.dvd_iff_tmod_eq_zero]
  by_cases positive : 0 < b
  · have sign := Int.sign_eq_one_of_pos positive
    grind
  · have sign : b.sign = -1 := Int.sign_eq_neg_one_of_neg (by omega)
    grind

/-- A truncated remainder that is not zero has the sign of the dividend. -/
theorem tmod_neg_iff {a b : Int} (inexact : a.tmod b ≠ 0) : a.tmod b < 0 ↔ a < 0 := by
  by_cases negative : a < 0
  · have opposite := Int.tmod_nonneg b (show 0 ≤ -a by omega)
    rw [Int.neg_tmod] at opposite
    omega
  · have natural := Int.tmod_nonneg b (show 0 ≤ a by omega)
    omega

/-- The floored remainder is the truncated one, plus the divisor if the two have different signs. -/
theorem fmod_eq_corrected {a b : Int} (nonzero : b ≠ 0) :
    a.fmod b =
      if a.tmod b ≠ 0 ∧ (decide (a.tmod b < 0) != decide (b < 0)) then a.tmod b + b
      else a.tmod b := by
  have floored := Int.mul_fdiv_add_fmod a b
  have truncated := Int.mul_tdiv_add_tmod a b
  rw [fdiv_eq_corrected nonzero] at floored
  by_cases inexact : a.tmod b = 0
  · simp only [inexact, ne_eq, not_true_eq_false, false_and, if_false] at floored truncated ⊢
    omega
  · simp only [tmod_neg_iff inexact]
    split at floored
    · rename_i corrected
      rw [if_pos corrected]
      rw [Int.mul_sub, Int.mul_one] at floored
      omega
    · rename_i kept
      rw [if_neg kept]
      omega

theorem eq_zero_iff (x : Int64) : x = 0 ↔ x.toInt = 0 :=
  Int64.toInt_inj.symm

theorem neg_iff (x : Int64) : x < 0 ↔ x.toInt < 0 :=
  Int64.lt_iff_toInt_lt

/-- The quotient is the floored one, if that fits. -/
theorem floorDiv?_eq {x y : Int64} (nonzero : y ≠ 0) :
    floorDiv? x y = fit (x.toInt.fdiv y.toInt) := by
  unfold floorDiv?
  split
  · rename_i divides
    rw [fdiv_eq_corrected (mt (eq_zero_iff y).mpr nonzero)]
    simp only [ne_eq, eq_zero_iff, neg_iff, Int64.toInt_mod, sub?, toInt_div divides]
    split
    · rfl
    · exact (fit_eq_some_iff.mpr (toInt_div divides)).symm
  · rename_i undivided
    obtain ⟨rfl, rfl⟩ : x = Int64.minValue ∧ y = -1 := by
      simpa [Divides, nonzero] using undivided
    decide

/-- A remainder is the floored one. -/
theorem toInt_floorMod? {x y n : Int64} (made : floorMod? x y = some n) :
    n.toInt = x.toInt.fmod y.toInt := by
  unfold floorMod? at made
  split at made
  · rename_i divides
    rw [fmod_eq_corrected (mt (eq_zero_iff y).mpr divides.1)]
    simp only [ne_eq, eq_zero_iff, neg_iff, Int64.toInt_mod] at made
    split at made
    · rename_i corrected
      obtain rfl := Option.some.inj made
      rw [if_pos corrected, Int64.toInt_add, Int64.toInt_mod]
      -- The signs differ, so the sum lies between its parts and does not wrap.
      have opposite := corrected.2
      have remainder := inRange_toInt (x % y)
      have divisor := inRange_toInt y
      rw [Int64.toInt_mod] at remainder
      simp only [bne_iff_ne, ne_eq, decide_eq_decide] at opposite
      unfold InRange at remainder divisor
      apply Int.bmod_eq_of_le
      · omega
      · omega
    · rename_i kept
      obtain rfl := Option.some.inj made
      rw [if_neg kept, Int64.toInt_mod]
  · cases made

/-- A power of a word is exact. -/
theorem toInt_powNat? {x n : Int64} {exponent : Nat} (made : powNat? x exponent = some n) :
    n.toInt = x.toInt ^ exponent := by
  unfold powNat? at made
  split at made
  · exact fit_eq_some_iff.mp made
  · rename_i large
    have positive : exponent ≠ 0 := by omega
    split at made
    · rename_i base
      obtain rfl := Option.some.inj made
      rcases base with rfl | rfl
      · exact (Int.zero_pow positive).symm
      · exact (Int.one_pow).symm
    · split at made
      · rename_i base
        obtain rfl := Option.some.inj made
        subst base
        have minusOne : (-1 : Int64).toInt = -1 := by decide
        rw [minusOne]
        split
        · rename_i even
          exact (Nat.even_iff.mpr even).neg_one_pow.symm
        · rename_i odd
          exact (minusOne.trans (Nat.odd_iff.mpr (by omega)).neg_one_pow.symm)
      · cases made

theorem toInt_pow? {x y n : Int64} (made : pow? x y = some n) :
    n.toInt = x.toInt ^ y.toInt.toNat := by
  unfold pow? at made
  split at made
  · exact toInt_powNat? made
  · cases made

end Integer

/-! ## Exact arithmetic -/

/-- The exact result of an operator on integers. There is none for a zero divisor, for a negative
exponent and for true division. -/
def ArithOp.inIntegers? (op : ArithOp) (a b : Int) : Option Int :=
  match op with
  | .add => some (a + b)
  | .sub => some (a - b)
  | .mul => some (a * b)
  | .floorDiv => if b = 0 then none else some (a.fdiv b)
  | .mod => if b = 0 then none else some (a.fmod b)
  | .pow => if 0 ≤ b then some (a ^ b.toNat) else none
  | .div => none

/-- The integer that a value stands for, truth values being `0` and `1`. -/
def Value.inIntegers? : Value → Option Int
  | .int n => some n.toInt
  | .bool b => some (if b then 1 else 0)
  | .float _ => none
  | .str _ => none

/-- The value of an expression in unbounded integer arithmetic. -/
def Expr.inIntegers? (scope : Scope) : Expr → Option Int
  | .int n => some n.toInt
  | .bool b => some (if b then 1 else 0)
  | .var name => (scope name).bind Value.inIntegers?
  | .unary .neg operand => (operand.inIntegers? scope).map (- ·)
  | .unary .plus operand => operand.inIntegers? scope
  | .binary (.arith op) lhs rhs =>
    (lhs.inIntegers? scope).bind fun a => (rhs.inIntegers? scope).bind fun b => op.inIntegers? a b
  | _ => none

/-- Expressions over integers and truth values, with signs and with the operators that can have
integer results. -/
def Expr.Integral (scope : Scope) : Expr → Prop
  | .int _ => True
  | .bool _ => True
  | .var name => ∃ v ∈ scope name, v.kind = .int ∨ v.kind = .bool
  | .unary op operand => op ≠ .not ∧ operand.Integral scope
  | .binary (.arith op) lhs rhs => op ≠ .div ∧ lhs.Integral scope ∧ rhs.Integral scope
  | _ => False

namespace Eval

/-- Arithmetic with a double gives no integer. -/
theorem onDoubles_ne_int {op : ArithOp} {x y : Float} {n : Int64} :
    onDoubles op x y ≠ .ok (.int n) := by
  have never (z : Float) : finite z ≠ .ok (.int n) := by
    unfold finite
    split <;> simp
  cases op with
  | add => exact never _
  | sub => exact never _
  | mul => exact never _
  | _ =>
    unfold onDoubles
    simp only
    split
    · simp
    · exact never _

theorem checked_eq_int {i : Option Int64} {n : Int64} (made : checked i = .ok (.int n)) :
    i = some n := by
  cases i with
  | none => cases made
  | some m =>
    cases made
    rfl

/-- An integer result of an operator on words is the exact one. -/
theorem onIntegers_exact {op : ArithOp} {x y n : Int64} (made : onIntegers op x y = .ok (.int n)) :
    op.inIntegers? x.toInt y.toInt = some n.toInt := by
  cases op with
  | add => rw [ArithOp.inIntegers?, Integer.fit_eq_some_iff.mp (checked_eq_int made)]
  | sub => rw [ArithOp.inIntegers?, Integer.fit_eq_some_iff.mp (checked_eq_int made)]
  | mul => rw [ArithOp.inIntegers?, Integer.fit_eq_some_iff.mp (checked_eq_int made)]
  | div =>
    rw [onIntegers] at made
    exact absurd made onDoubles_ne_int
  | floorDiv =>
    simp only [onIntegers] at made
    split at made
    · cases made
    · rename_i nonzero
      have quotient := checked_eq_int made
      rw [Integer.floorDiv?_eq nonzero] at quotient
      rw [ArithOp.inIntegers?, if_neg (mt (Integer.eq_zero_iff y).mpr nonzero),
        Integer.fit_eq_some_iff.mp quotient]
  | mod =>
    simp only [onIntegers] at made
    split at made
    · cases made
    · rename_i nonzero
      rw [ArithOp.inIntegers?, if_neg (mt (Integer.eq_zero_iff y).mpr nonzero),
        Integer.toInt_floorMod? (checked_eq_int made)]
  | pow =>
    simp only [onIntegers] at made
    split at made
    · rename_i natural
      have exponent : 0 ≤ y.toInt := Int64.le_iff_toInt_le.mp natural
      rw [ArithOp.inIntegers?, if_pos exponent, Integer.toInt_pow? (checked_eq_int made)]
    · exact absurd made onDoubles_ne_int

/-- Only integers have an integer result. -/
theorem arithmetic_eq_int {op : ArithOp} {a b : Number} {n : Int64}
    (made : arithmetic op a b = .ok (.int n)) :
    ∃ x y, a = .int x ∧ b = .int y ∧ onIntegers op x y = .ok (.int n) := by
  unfold arithmetic at made
  split at made
  · exact ⟨_, _, rfl, rfl, made⟩
  · exact absurd made onDoubles_ne_int

/-- On numbers an operator is arithmetic. -/
theorem arith_of_numbers {op : ArithOp} {lhs rhs : Value} {a b : Number}
    (left : lhs.number? = some a) (right : rhs.number? = some b) :
    arith op lhs rhs =
      match arithmetic op a b with
      | .ok n => .ok n.toValue
      | .error e => .error e := by
  unfold arith
  split
  · cases left
  · cases left
  · cases right
  · cases computed : arithmetic op a b with
    | ok n => simp only [left, right, computed]
    | error e => simp only [left, right, computed]

end Eval

/-- A value stands for a number, and if that is an integer, then it is the given one. -/
def Value.Agrees (v : Value) (exact : Option Int) : Prop :=
  ∃ k, v.number? = some k ∧ ∀ n, k = .int n → exact = some n.toInt

theorem Value.agrees_inIntegers? {v : Value} (integral : v.kind = .int ∨ v.kind = .bool) :
    v.Agrees v.inIntegers? := by
  cases v with
  | int n => exact ⟨.int n, rfl, fun _ same => by cases same; rfl⟩
  | bool b =>
    refine ⟨_, rfl, fun _ same => ?_⟩
    cases same
    cases b <;> rfl
  | float x => simp [Value.kind] at integral
  | str s => simp [Value.kind] at integral

theorem Number.agrees_toValue {k : Number} {exact : Option Int}
    (same : ∀ n, k = .int n → exact = some n.toInt) : k.toValue.Agrees exact := by
  cases k with
  | int n => exact ⟨.int n, rfl, same⟩
  | float x => exact ⟨.float x, rfl, same⟩

theorem Eval.unary_agrees {op : UnaryOp} {operand v : Value} {scope : Scope} {e : Expr}
    (sign : op ≠ .not) (agrees : operand.Agrees (e.inIntegers? scope))
    (made : unary op operand = .ok v) : v.Agrees ((Expr.unary op e).inIntegers? scope) := by
  obtain ⟨k, number, same⟩ := agrees
  cases op with
  | not => exact absurd rfl sign
  | plus =>
    simp only [unary, signed, number] at made
    cases made
    exact Number.agrees_toValue same
  | neg =>
    simp only [unary, signed, number, if_true] at made
    cases k with
    | float x =>
      cases made
      exact ⟨.float (-x), rfl, nofun⟩
    | int n =>
      simp only at made
      split at made
      · rename_i m opposite
        cases made
        refine ⟨.int m, rfl, ?_⟩
        rintro _ ⟨⟩
        rw [Expr.inIntegers?, same n rfl, Option.map_some, Integer.fit_eq_some_iff.mp opposite]
      · cases made

theorem Eval.binary_agrees {op : ArithOp} {a b v : Value} {scope : Scope} {lhs rhs : Expr}
    (left : a.Agrees (lhs.inIntegers? scope)) (right : b.Agrees (rhs.inIntegers? scope))
    (made : binary (.arith op) a b = .ok v) :
    v.Agrees ((Expr.binary (.arith op) lhs rhs).inIntegers? scope) := by
  obtain ⟨j, leftNumber, leftSame⟩ := left
  obtain ⟨k, rightNumber, rightSame⟩ := right
  rw [binary, arith_of_numbers leftNumber rightNumber] at made
  split at made
  · rename_i result computed
    cases made
    apply Number.agrees_toValue
    rintro n rfl
    obtain ⟨x, y, rfl, rfl, exact⟩ := arithmetic_eq_int computed
    rw [Expr.inIntegers?, leftSame x rfl, rightSame y rfl]
    exact onIntegers_exact exact
  · cases made

/-- The induction is over all values: a double may occur on the way, but then the result is one. -/
theorem Expr.eval_agrees {scope : Scope} {e : Expr} (integral : e.Integral scope) {v : Value}
    (made : e.eval scope = .ok v) : v.Agrees (e.inIntegers? scope) := by
  induction e generalizing v with
  | int n =>
    cases made
    exact Value.agrees_inIntegers? (.inl rfl)
  | bool b =>
    cases made
    exact Value.agrees_inIntegers? (.inr rfl)
  | float x => exact integral.elim
  | str s => exact integral.elim
  | var name =>
    obtain ⟨bound, found, kind⟩ := integral
    rw [Option.mem_def] at found
    simp only [eval, found] at made
    cases made
    rw [inIntegers?, found]
    exact Value.agrees_inIntegers? kind
  | unary op operand ih =>
    rw [eval] at made
    split at made
    · rename_i before
      exact Eval.unary_agrees integral.1 (ih integral.2 before) made
    · cases made
  | binary op lhs rhs left right =>
    cases op with
    | arith op =>
      rw [eval] at made
      split at made
      · rename_i first
        split at made
        · rename_i second
          exact Eval.binary_agrees (left integral.2.1 first) (right integral.2.2 second) made
        · cases made
      · cases made
    | equal => exact integral.elim
    | notEqual => exact integral.elim
    | order op => exact integral.elim
  | conj lhs rhs left right => exact integral.elim
  | disj lhs rhs left right => exact integral.elim

/-! ## Single operations -/

/-- The result of an operation whose exact result is `exact`, unless its divisor is zero: division
by zero exactly then, overflow exactly if the exact result does not fit, and else that result. -/
structure Eval.Decides (result : Except EvalError Value) (zeroDivisor : Prop) (exact : Int) :
    Prop where
  division : result = .error .divisionByZero ↔ zeroDivisor
  overflow : result = .error .overflow ↔ ¬ zeroDivisor ∧ ¬ Integer.InRange exact
  value : ¬ zeroDivisor → Integer.InRange exact →
    ∃ n : Int64, n.toInt = exact ∧ result = .ok (.int n)

namespace Eval

/-- An exact result that is made to fit. -/
theorem decides_of_fit {result : Except EvalError Value} {zeroDivisor : Prop} {exact : Int}
    (nonzero : ¬ zeroDivisor)
    (computed : result =
      match Integer.fit exact with
      | some n => .ok (.int n)
      | none => .error .overflow) : Decides result zeroDivisor exact := by
  subst computed
  cases fits : Integer.fit exact with
  | none =>
    have outside := Integer.fit_eq_none_iff.mp fits
    exact ⟨by simp [nonzero], by simp [nonzero, outside], fun _ inside => absurd inside outside⟩
  | some n =>
    have same := Integer.fit_eq_some_iff.mp fits
    have inside : Integer.InRange exact := same ▸ Integer.inRange_toInt n
    exact ⟨by simp [nonzero], by simp [inside], fun _ _ => ⟨n, same, rfl⟩⟩

/-- An operator on words that checks its exact result. -/
theorem decides_checked {op : ArithOp} {x y : Int64} {zeroDivisor : Prop} {exact : Int}
    (nonzero : ¬ zeroDivisor) (computed : onIntegers op x y = checked (Integer.fit exact)) :
    Decides (binary (.arith op) (.int x) (.int y)) zeroDivisor exact := by
  apply decides_of_fit nonzero
  rw [binary, arith_of_numbers rfl rfl, arithmetic, computed]
  cases Integer.fit exact <;> rfl

theorem decides_floorDiv (x y : Int64) :
    Decides (binary (.arith .floorDiv) (.int x) (.int y)) (y = 0)
      (x.toInt.fdiv y.toInt) := by
  by_cases zero : y = 0
  · have failed : binary (.arith .floorDiv) (.int x) (.int y) = .error .divisionByZero := by
      rw [binary, arith_of_numbers rfl rfl, arithmetic, onIntegers, if_pos zero]
    rw [failed]
    exact ⟨by simp [zero], by simp [zero], fun nonzero => absurd zero nonzero⟩
  · apply decides_checked zero
    rw [onIntegers, if_neg zero, Integer.floorDiv?_eq zero]

theorem decides_neg (x : Int64) : Decides (unary .neg (.int x)) False (-x.toInt) := by
  apply decides_of_fit not_false
  rfl

end Eval

/-- **Integer evaluation is exact.** An integral expression that evaluates to an integer evaluates
to its value in unbounded arithmetic. A single sum, difference, product, floored quotient or
opposite of words is a division by zero exactly for a quotient with the divisor zero, overflows
exactly if the exact result does not fit into a word, and is the exact result otherwise. -/
theorem integers_exact :
    (∀ (scope : Scope) (e : Expr) (n : Int64), e.Integral scope → e.eval scope = .ok (.int n) →
      e.inIntegers? scope = some n.toInt) ∧
    ∀ x y : Int64,
      Eval.Decides (Eval.binary (.arith .add) (.int x) (.int y)) False (x.toInt + y.toInt) ∧
      Eval.Decides (Eval.binary (.arith .sub) (.int x) (.int y)) False (x.toInt - y.toInt) ∧
      Eval.Decides (Eval.binary (.arith .mul) (.int x) (.int y)) False (x.toInt * y.toInt) ∧
      Eval.Decides (Eval.binary (.arith .floorDiv) (.int x) (.int y)) (y = 0)
        (x.toInt.fdiv y.toInt) ∧
      Eval.Decides (Eval.unary .neg (.int x)) False (-x.toInt) := by
  constructor
  · intro scope e n integral made
    obtain ⟨k, number, same⟩ := Expr.eval_agrees integral made
    exact same n (Option.some.inj number).symm
  · intro x y
    exact ⟨Eval.decides_checked not_false rfl, Eval.decides_checked not_false rfl,
      Eval.decides_checked not_false rfl, Eval.decides_floorDiv x y, Eval.decides_neg x⟩

/-- Floored quotient and remainder of the largest integer, which is the opposite of a variable. -/
theorem integers_exact_floored :
    let table : Table Value := .ofList [("x", .int (Int64.minValue + 1)), ("y", .bool true)]
    let e : Expr := .binary (.arith .sub)
      (.binary (.arith .mod) (.binary (.arith .floorDiv) (.unary .neg (.var "x")) (.int (-2)))
        (.int (-3)))
      (.binary (.arith .pow) (.int 2) (.var "y"))
    e.Integral table.get? ∧ e.eval table.get? = .ok (.int (-3)) ∧
      e.inIntegers? table.get? = some (-3) ∧
      Eval.Decides (Eval.binary (.arith .floorDiv) (.int Int64.minValue) (.int (-1)))
        (-1 = (0 : Int64)) (2 ^ 63) := by
  intro table e
  have x : table.get? "x" = some (.int (Int64.minValue + 1)) := by decide
  have y : table.get? "y" = some (.bool true) := by decide
  have integral : e.Integral table.get? := by
    simp [e, Expr.Integral, x, y, Value.kind]
  have made : e.eval table.get? = .ok (.int (-3)) := by decide +kernel
  refine ⟨integral, made, integers_exact.1 _ e (-3) integral made, ?_⟩
  exact (integers_exact.2 Int64.minValue (-1)).2.2.2.1

end Linewise
