import Linewise.Proofs.DepthCounter
import Linewise.Proofs.ExactIntegers

/-! Evaluation on the machine: the remainder and the sum on words stop it where they are not
defined, the repetition of a text stops it where the length does not fit, and arithmetic on a
comparison is a place that cannot be reached. Each of these operations is guarded somewhere else,
and the guards suffice: evaluation gives its result for every text and scope. -/
namespace Linewise.Machine

/-! ## Words -/

/-- The truncated remainder. It is not defined for a divisor of zero, and not where the quotient
does not fit. -/
def rem (x y : Int64) : Except Trap Int64 :=
  if y = 0 then throw .zeroDivisor
  else if x = Int64.minValue ∧ y = -1 then throw .overflow
  else return x % y

/-- The sum, which has to fit. -/
def add (x y : Int64) : Except Trap Int64 :=
  match Integer.add? x y with
  | some sum => return sum
  | none => throw .overflow

/-- The truncated quotient, if there is one. -/
def checkedDiv (x y : Int64) : Option Int64 :=
  if Integer.Divides x y then some (x / y) else none

/-- The truncated remainder, if there is a quotient. -/
def checkedRem (x y : Int64) : Option Int64 :=
  if Integer.Divides x y then some (x % y) else none

/-- The quotient rounded toward negative infinity. -/
def floorDiv (x y : Int64) : Except Trap (Option Int64) :=
  match checkedDiv x y with
  | none => return none
  | some quotient => do
    if (← rem x y) ≠ 0 ∧ (decide (x < 0) != decide (y < 0)) then return Integer.sub? quotient 1
    else return some quotient

/-- The remainder with the sign of the divisor. -/
def floorMod (x y : Int64) : Except Trap (Option Int64) :=
  match checkedRem x y with
  | none => return none
  | some remainder =>
    if remainder ≠ 0 ∧ (decide (remainder < 0) != decide (y < 0)) then some <$> add remainder y
    else return some remainder

theorem rem_of_divides {x y : Int64} (divides : Integer.Divides x y) : rem x y = .ok (x % y) := by
  rw [rem, if_neg divides.1, if_neg divides.2]
  rfl

/-- Words of opposite signs have a sum. -/
theorem add_of_opposite {x y : Int64} (opposite : decide (x < 0) != decide (y < 0)) :
    add x y = .ok (x + y) := by
  have left := Integer.inRange_toInt x
  have right := Integer.inRange_toInt y
  unfold Integer.InRange at left right
  simp only [Integer.neg_iff, bne_iff_ne, ne_eq, decide_eq_decide] at opposite
  have exact : (x + y).toInt = x.toInt + y.toInt := by
    rw [Int64.toInt_add]
    exact Int.bmod_eq_of_le (by omega) (by omega)
  rw [add, Integer.add?, Integer.fit_eq_some_iff.mpr exact]
  rfl

theorem floorDiv_eq (x y : Int64) : floorDiv x y = .ok (Integer.floorDiv? x y) := by
  unfold floorDiv checkedDiv Integer.floorDiv?
  by_cases divides : Integer.Divides x y
  · simp only [if_pos divides, rem_of_divides divides]
    rw [show (Except.ok (x % y) : Except Trap Int64) = pure (x % y) from rfl, pure_bind]
    split <;> rfl
  · simp only [if_neg divides]
    rfl

theorem floorMod_eq (x y : Int64) : floorMod x y = .ok (Integer.floorMod? x y) := by
  unfold floorMod checkedRem Integer.floorMod?
  by_cases divides : Integer.Divides x y
  · simp only [if_pos divides]
    split
    · rename_i corrected
      rw [add_of_opposite corrected.2]
      rfl
    · rfl
  · simp only [if_neg divides]
    rfl

/-! ## Operators -/

/-- The largest size of a text in memory. -/
def largestText : Nat := 2 ^ 63 - 1

/-- The largest word without a sign. -/
def largestWord : Nat := 2 ^ 64 - 1

/-- A text with room for `times` copies of `s`, filled with them. -/
def replicate (s : String) (times : Nat) : Except (Halt EvalError) Value :=
  if largestText < s.utf8ByteSize * times then throw (.trap .overflow)
  else return .str (Eval.copies s times)

/-- Repetition of a text. The size is computed in a word and stays at the largest one where it does
not fit. -/
def replicated (s : String) (times : Int64) : Except (Halt EvalError) Value :=
  let times := times.toInt.toNat
  if Eval.maxText < min (s.utf8ByteSize * times) largestWord then throw (.error .overflow)
  else replicate s times

/-- Arithmetic on doubles. -/
def onDoubles (op : BinaryOp) (x y : Float) : Except (Halt EvalError) Number :=
  match op with
  | .arith op => lifted (Eval.onDoubles op x y)
  | _ => throw (.trap .unreachable)

/-- Arithmetic on words, if it is defined and has a result. -/
def onWords (op : BinaryOp) (x y : Int64) : Except (Halt EvalError) (Option Int64) :=
  match op with
  | .arith .add => return Integer.add? x y
  | .arith .sub => return Integer.sub? x y
  | .arith .mul => return Integer.mul? x y
  | .arith .floorDiv =>
    if y = 0 then throw (.error .divisionByZero) else (floorDiv x y).mapError .trap
  | .arith .mod =>
    if y = 0 then throw (.error .divisionByZero) else (floorMod x y).mapError .trap
  | .arith .pow => return if 0 ≤ y then Integer.pow? x y else none
  | _ => return none

/-- Whether doubles take over where words have no result. -/
def GoesOver (op : BinaryOp) (y : Int64) : Prop :=
  op = .arith .div ∨ op = .arith .pow ∧ y < 0

instance (op : BinaryOp) (y : Int64) : Decidable (GoesOver op y) :=
  inferInstanceAs (Decidable (_ ∨ _ ∧ _))

/-- Arithmetic on integers. -/
def onIntegers (op : BinaryOp) (x y : Int64) : Except (Halt EvalError) Number := do
  match ← onWords op x y with
  | some n => return .int n
  | none =>
    if GoesOver op y then onDoubles op (Double.ofInt x.toInt) (Double.ofInt y.toInt)
    else throw (.error .overflow)

/-- Arithmetic on numbers. -/
def arithmetic (op : BinaryOp) (a b : Number) : Except (Halt EvalError) Number :=
  match a, b with
  | .int x, .int y => onIntegers op x y
  | _, _ => onDoubles op a.toDouble b.toDouble

/-- The value of an operator on numbers. -/
def onNumbers (op : BinaryOp) (lhs rhs : Value) : Except (Halt EvalError) Value :=
  match lhs.number?, rhs.number? with
  | some a, some b => Number.toValue <$> arithmetic op a b
  | _, _ => throw (.error (.operands op lhs.kind rhs.kind))

/-- The value of an operator that is not a comparison. -/
def computed (op : BinaryOp) (lhs rhs : Value) : Except (Halt EvalError) Value :=
  match op, lhs, rhs with
  | .arith .add, .str a, .str b => return .str (a ++ b)
  | .arith .mul, .str s, other | .arith .mul, other, .str s =>
    match other.number? with
    | some (.int times) => replicated s times
    | _ => onNumbers op lhs rhs
  | _, _, _ => onNumbers op lhs rhs

/-- The value of an operator on two values. -/
def binary (op : BinaryOp) (lhs rhs : Value) : Except (Halt EvalError) Value :=
  match op with
  | .equal => return .bool (Eval.equal lhs rhs)
  | .notEqual => return .bool (!Eval.equal lhs rhs)
  | .order op => Value.bool <$> lifted (Eval.ordered op lhs rhs)
  | .arith _ => computed op lhs rhs

/-- The value of an expression. -/
def eval (scope : Scope) : Expr → Except (Halt EvalError) Value
  | .int n => return .int n
  | .float x => return .float x
  | .bool b => return .bool b
  | .str s => return .str s
  | .var name =>
    match scope name with
    | some v => return v
    | none => throw (.error (.undefined name))
  | .unary op operand => do lifted (Eval.unary op (← eval scope operand))
  | .binary op lhs rhs => do binary op (← eval scope lhs) (← eval scope rhs)
  | .conj lhs rhs => do
    let decided ← eval scope lhs
    if decided.isTruthy then eval scope rhs else return decided
  | .disj lhs rhs => do
    let decided ← eval scope lhs
    if decided.isTruthy then return decided else eval scope rhs

/-- The value of an expression text. -/
def evaluate (machine : Machine) (scope : Scope) (source : String) :
    Option (Except (Halt EvalError) Value) :=
  match tokens source with
  | .error e => some (.error (.error (.lexing e)))
  | .ok ts =>
    match machine.ofTokens ts with
    | none => none
    | some (.error (.trap t)) => some (.error (.trap t))
    | some (.error (.error e)) => some (.error (.error (.parsing e)))
    | some (.ok expr) => some (eval scope expr)

/-! ## No trap is reached -/

@[simp] theorem lifted_ok {ε α : Type} (a : α) : (lifted (.ok a) : Except (Halt ε) α) = .ok a := rfl

@[simp] theorem lifted_error {ε α : Type} (e : ε) :
    (lifted (.error e) : Except (Halt ε) α) = .error (.error e) := rfl

/-- A size that passes the check fits, also if it is computed in a word. -/
theorem replicated_eq (s : String) (times : Int64) :
    replicated s times = lifted (Eval.replicated s times) := by
  have limits : Eval.maxText ≤ largestText ∧ Eval.maxText < largestWord := by decide
  unfold replicated Eval.replicated replicate
  by_cases large : Eval.maxText < s.utf8ByteSize * times.toInt.toNat
  · rw [if_pos (by omega), if_pos large]
    rfl
  · rw [if_neg (by omega), if_neg (by omega), if_neg large]
    rfl

theorem onIntegers_of_checked {op : BinaryOp} {x y : Int64} {result : Option Int64}
    (made : onWords op x y = .ok result) (stays : ¬ GoesOver op y) :
    onIntegers op x y = lifted (Eval.checked result) := by
  unfold onIntegers
  rw [made]
  cases result with
  | some n => rfl
  | none => exact if_neg stays

theorem onIntegers_of_goesOver {op : BinaryOp} {x y : Int64} (made : onWords op x y = .ok none)
    (goes : GoesOver op y) :
    onIntegers op x y = onDoubles op (Double.ofInt x.toInt) (Double.ofInt y.toInt) := by
  unfold onIntegers
  rw [made]
  exact if_pos goes

theorem onIntegers_eq (op : ArithOp) (x y : Int64) :
    onIntegers (.arith op) x y = lifted (Eval.onIntegers op x y) := by
  cases op with
  | add | sub | mul => exact onIntegers_of_checked rfl (by simp [GoesOver])
  | div => exact onIntegers_of_goesOver rfl (.inl rfl)
  | floorDiv =>
    by_cases zero : y = 0
    · subst zero
      rfl
    · have made : onWords (.arith .floorDiv) x y = .ok (Integer.floorDiv? x y) := by
        rw [onWords, if_neg zero, floorDiv_eq]
        rfl
      rw [Eval.onIntegers, if_neg zero]
      exact onIntegers_of_checked made (by simp [GoesOver])
  | mod =>
    by_cases zero : y = 0
    · subst zero
      rfl
    · have made : onWords (.arith .mod) x y = .ok (Integer.floorMod? x y) := by
        rw [onWords, if_neg zero, floorMod_eq]
        rfl
      rw [Eval.onIntegers, if_neg zero]
      exact onIntegers_of_checked made (by simp [GoesOver])
  | pow =>
    by_cases natural : 0 ≤ y
    · have made : onWords (.arith .pow) x y = .ok (Integer.pow? x y) := by
        rw [onWords, if_pos natural]
        rfl
      rw [Eval.onIntegers, if_pos natural]
      exact onIntegers_of_checked made (by simp [GoesOver, natural])
    · have made : onWords (.arith .pow) x y = .ok none := by
        rw [onWords, if_neg natural]
        rfl
      rw [Eval.onIntegers, if_neg natural]
      exact onIntegers_of_goesOver made (.inr ⟨rfl, Int64.not_le.mp natural⟩)

theorem arithmetic_eq (op : ArithOp) (a b : Number) :
    arithmetic (.arith op) a b = lifted (Eval.arithmetic op a b) := by
  match a, b with
  | .int x, .int y => exact onIntegers_eq op x y
  | .int x, .float y => rfl
  | .float x, .int y => rfl
  | .float x, .float y => rfl

theorem onNumbers_eq (op : ArithOp) (lhs rhs : Value) :
    onNumbers (.arith op) lhs rhs = lifted (match lhs.number?, rhs.number? with
      | some a, some b =>
        match Eval.arithmetic op a b with
        | .ok n => .ok n.toValue
        | .error e => .error e
      | _, _ => .error (.operands (.arith op) lhs.kind rhs.kind)) := by
  unfold onNumbers
  split
  · rename_i a b left right
    simp only [arithmetic_eq]
    cases Eval.arithmetic op a b <;> rfl
  · rfl

/-- A text has no arithmetic with a number or with another text. -/
theorem onNumbers_of_text {op : ArithOp} {lhs rhs : Value}
    (text : lhs.number? = none ∨ rhs.number? = none) :
    onNumbers (.arith op) lhs rhs = .error (.error (.operands (.arith op) lhs.kind rhs.kind)) := by
  unfold onNumbers
  split
  · simp_all
  · rfl

theorem computed_eq (op : ArithOp) (lhs rhs : Value) :
    computed (.arith op) lhs rhs = lifted (Eval.arith op lhs rhs) := by
  unfold Eval.arith
  split
  · rfl
  · rename_i s
    rw [computed]
    match rhs.number? with
    | some (.int times) => exact replicated_eq s times
    | some (.float x) => exact onNumbers_of_text (.inl rfl)
    | none => exact onNumbers_of_text (.inl rfl)
  · rename_i s apart
    rw [computed]
    · match lhs.number? with
      | some (.int times) => exact replicated_eq s times
      | some (.float x) => exact onNumbers_of_text (.inr rfl)
      | none => exact onNumbers_of_text (.inr rfl)
    · exact apart
  · rename_i sums left right
    rw [computed]
    · exact onNumbers_eq op lhs rhs
    all_goals grind

theorem binary_eq (op : BinaryOp) (lhs rhs : Value) :
    binary op lhs rhs = lifted (Eval.binary op lhs rhs) := by
  cases op with
  | equal => rfl
  | notEqual => rfl
  | order op =>
    unfold binary Eval.binary
    simp only
    cases Eval.ordered op lhs rhs <;> rfl
  | arith op => exact computed_eq op lhs rhs

theorem eval_eq (scope : Scope) (e : Expr) : eval scope e = lifted (e.eval scope) := by
  induction e with
  | int | float | bool | str => rfl
  | var name =>
    unfold eval Expr.eval
    cases scope name <;> rfl
  | unary op operand ih =>
    rw [eval, ih, Expr.eval]
    cases operand.eval scope <;> rfl
  | binary op lhs rhs left right =>
    rw [eval, left, right, Expr.eval]
    cases lhs.eval scope with
    | error e => rfl
    | ok a =>
      cases rhs.eval scope with
      | error e => rfl
      | ok b => exact binary_eq op a b
  | conj lhs rhs left right =>
    rw [eval, left, right, Expr.eval]
    cases lhs.eval scope with
    | error e => rfl
    | ok a =>
      show (if _ then _ else _) = _
      simp only
      split <;> rfl
  | disj lhs rhs left right =>
    rw [eval, left, right, Expr.eval]
    cases lhs.eval scope with
    | error e => rfl
    | ok a =>
      show (if _ then _ else _) = _
      simp only
      split <;> rfl

/-- Evaluation with a counter that has room for one more than the largest depth never stops at a
trap and never runs on: it ends with the value or the error of the expression text. Every procedure
of its parser that succeeds leaves the counter as it found it. -/
theorem evaluate_never_traps (machine : Machine) (room : Parser.maxDepth + 1 ≤ machine.capacity) :
    (∀ scope source,
      machine.evaluate scope source = some (lifted (Linewise.evaluate scope source)) ∧
        ∀ trap, machine.evaluate scope source ≠ some (.error (.trap trap))) ∧
    ∀ level before after e, before.depth < machine.capacity →
      (machine.parse level).run before = some (.ok (e, after)) → after.depth = before.depth := by
  have mirrored (scope : Scope) (source : String) :
      machine.evaluate scope source = some (lifted (Linewise.evaluate scope source)) := by
    unfold evaluate Linewise.evaluate
    cases tokens source with
    | error e => rfl
    | ok ts =>
      simp only [ofTokens_eq room]
      cases Expr.ofTokens ts with
      | error e => rfl
      | ok e => exact congrArg some (eval_eq scope e)
  refine ⟨fun scope source => ⟨mirrored scope source, fun trap => ?_⟩, ?_⟩
  · rw [mirrored]
    cases Linewise.evaluate scope source <;> simp
  · intro level before after e fits runs
    exact parse_restores_depth room fits runs

/-- The remainder that is not defined is not asked for, and a bracket at the largest depth but one
is left again. -/
theorem evaluate_never_traps_least_word :
    let scope := (Table.ofList [("x", .int Int64.minValue)]).get?
    let bracket : List Token := [.symbol .lparen, .int 1, .symbol .rparen]
    rem Int64.minValue (-1) = .error .overflow ∧
      evaluate ⟨201⟩ scope "x % -1" = some (.error (.error .overflow)) ∧
      ∃ after, (parse ⟨201⟩ .atom).run ⟨bracket, 199⟩ = some (.ok (.int 1, after)) ∧
        after.depth = 199 := by
  intro scope bracket
  have never := evaluate_never_traps ⟨201⟩ (by decide)
  have failed : Linewise.evaluate scope "x % -1" = .error .overflow := by decide +kernel
  have read : Parser.parse 1 .atom bracket = .ok (.int 1, []) := by decide +kernel
  have runs : (parse ⟨201⟩ .atom).run ⟨bracket, 199⟩ = some (.ok (.int 1, ⟨[], 199⟩)) := by
    rw [agrees (by decide) 1 .atom 199 bracket ⟨by decide, rfl⟩, read]
    rfl
  refine ⟨by decide, ?_, ⟨[], 199⟩, runs, never.2 .atom ⟨bracket, 199⟩ _ _ (by decide) runs⟩
  rw [(never.1 scope "x % -1").1, failed]
  rfl

end Linewise.Machine
