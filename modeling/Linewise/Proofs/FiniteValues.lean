import Linewise.Expr.Eval
import Linewise.Proofs.FiniteDoubles
import Linewise.Proofs.ParserExactness

/-! Expressions over finite doubles have finite values. The scanner takes only numerals with finite
doubles, a tree has no literals but those of its tokens, and an operator either checks its result
or cannot leave the range. -/
namespace Linewise

/-- A token that is no double, or a finite one. -/
def Token.IsFinite (t : Token) : Prop :=
  ∀ x, t = .float x → x.isFinite = true

/-- A value that is no double, or a finite one. -/
def Value.IsFinite (v : Value) : Prop :=
  ∀ x, v = .float x → x.isFinite = true

/-- A number that is no double, or a finite one. -/
def Number.IsFinite (n : Number) : Prop :=
  ∀ x, n = .float x → x.isFinite = true

theorem Value.isFinite_float {x : Float} : (Value.float x).IsFinite ↔ x.isFinite = true := by
  simp [Value.IsFinite]

@[simp] theorem Value.isFinite_int (n : Int64) : (Value.int n).IsFinite := by
  simp [Value.IsFinite]

@[simp] theorem Value.isFinite_bool (b : Bool) : (Value.bool b).IsFinite := by
  simp [Value.IsFinite]

@[simp] theorem Value.isFinite_str (s : String) : (Value.str s).IsFinite := by
  simp [Value.IsFinite]

theorem Number.isFinite_float {x : Float} : (Number.float x).IsFinite ↔ x.isFinite = true := by
  simp [Number.IsFinite]

theorem Number.isFinite_int (n : Int64) : (Number.int n).IsFinite := by
  simp [Number.IsFinite]

theorem Number.isFinite_toValue {n : Number} (finite : n.IsFinite) : n.toValue.IsFinite := by
  cases n with
  | int n => simp [Number.toValue]
  | float x => exact Value.isFinite_float.mpr (Number.isFinite_float.mp finite)

theorem Value.isFinite_number? {v : Value} (finite : v.IsFinite) {n : Number}
    (number : v.number? = some n) : n.IsFinite := by
  cases v with
  | float x =>
    obtain rfl := Option.some.inj number
    exact Number.isFinite_float.mpr (Value.isFinite_float.mp finite)
  | int m =>
    obtain rfl := Option.some.inj number
    exact Number.isFinite_int m
  | bool b =>
    obtain rfl := Option.some.inj number
    exact Number.isFinite_int _
  | str s => cases number

/-! ## Tokens -/

theorem numberToken_isFinite {run : List Char} {t : Token} (read : Lexer.numberToken run = .ok t) :
    t.IsFinite := by
  unfold Lexer.numberToken at read
  simp only at read
  split at read
  · cases read
    simp [Token.IsFinite]
  · split at read
    · split at read
      · rename_i finite
        cases read
        simpa [Token.IsFinite] using finite
      · cases read
    · cases read

theorem lexeme_isFinite {c : Char} {rest after : List Char} {t : Token}
    (read : Lexer.lexeme c rest = .ok (t, after)) : t.IsFinite := by
  unfold Lexer.lexeme at read
  split at read
  · simp only at read
    split at read
    · rename_i number
      obtain ⟨rfl, -⟩ := Prod.mk.inj (Except.ok.inj read)
      exact numberToken_isFinite number
    · cases read
  · split at read
    · obtain ⟨rfl, -⟩ := Prod.mk.inj (Except.ok.inj read)
      simp [Token.IsFinite]
    · split at read
      · split at read
        · obtain ⟨rfl, -⟩ := Prod.mk.inj (Except.ok.inj read)
          simp [Token.IsFinite]
        · cases read
      · split at read
        · obtain ⟨rfl, -⟩ := Prod.mk.inj (Except.ok.inj read)
          simp [Token.IsFinite]
        · cases read

/-- Every token of a text is finite. -/
theorem scan_isFinite {text : List Char} {ts : List Token} (scanned : Lexer.scan text = .ok ts) :
    ∀ t ∈ ts, t.IsFinite := by
  fun_induction Lexer.scan text generalizing ts with
  | case1 =>
    cases scanned
    simp
  | case2 _ _ _ ih => exact ih scanned
  | case3 => cases scanned
  | case4 => cases scanned
  | case5 c rest _ token after read _ tokens _ ih =>
    cases scanned
    intro t member
    rcases List.mem_cons.mp member with rfl | later
    · exact lexeme_isFinite read
    · exact ih ‹_› t later

/-! ## Trees -/

/-- A tree all of whose double literals are finite. -/
def Expr.IsFinite : Expr → Prop
  | .float x => x.isFinite = true
  | .unary _ operand => operand.IsFinite
  | .binary _ lhs rhs => lhs.IsFinite ∧ rhs.IsFinite
  | .conj lhs rhs => lhs.IsFinite ∧ rhs.IsFinite
  | .disj lhs rhs => lhs.IsFinite ∧ rhs.IsFinite
  | _ => True

namespace Grammar

theorem Denotes.isFinite {t : Token} {e : Expr} (denotes : Denotes t e) (finite : t.IsFinite) :
    e.IsFinite := by
  cases denotes with
  | float x => exact finite x rfl
  | int n => trivial
  | str s => trivial
  | true s word => trivial
  | false s word => trivial
  | var s free => trivial

theorem Joins.isFinite {level : Parser.Level} {t : Token} {join : Expr → Expr → Expr}
    (joins : Joins level t join) {lhs rhs : Expr} (left : lhs.IsFinite) (right : rhs.IsFinite) :
    (join lhs rhs).IsFinite := by
  cases joins <;> exact ⟨left, right⟩

mutual

/-- A tree has no literals but those of the tokens. -/
theorem Derivation.isFinite_tree {level : Parser.Level} (d : Derivation level)
    (finite : ∀ t ∈ d.tokens, t.IsFinite) : d.tree.IsFinite := by
  match d with
  | .leaf token e denotes =>
    exact denotes.isFinite (finite token (by simp [Derivation.tokens]))
  | .parens inner =>
    exact inner.isFinite_tree fun t member => finite t (by simp [Derivation.tokens, member])
  | .bare base => exact base.isFinite_tree finite
  | .raised base exponent =>
    exact ⟨base.isFinite_tree fun t member => finite t (by simp [Derivation.tokens, member]),
      exponent.isFinite_tree fun t member => finite t (by simp [Derivation.tokens, member])⟩
  | .unsigned operand => exact operand.isFinite_tree finite
  | .signed token op signs operand =>
    exact operand.isFinite_tree fun t member => finite t (by simp [Derivation.tokens, member])
  | .single lhs => exact lhs.isFinite_tree finite
  | .compared lhs token op compares rhs =>
    exact ⟨lhs.isFinite_tree fun t member => finite t (by simp [Derivation.tokens, member]),
      rhs.isFinite_tree fun t member => finite t (by simp [Derivation.tokens, member])⟩
  | .affirmed operand => exact operand.isFinite_tree finite
  | .negated token negates operand =>
    exact operand.isFinite_tree fun t member => finite t (by simp [Derivation.tokens, member])
  | .chain chains first links =>
    exact links.isFinite_tree
      (fun t member => finite t (by simp [Derivation.tokens, member]))
      (first.isFinite_tree fun t member => finite t (by simp [Derivation.tokens, member]))

theorem Links.isFinite_tree {level inner : Parser.Level} (links : Links level inner)
    (finite : ∀ t ∈ links.tokens, t.IsFinite) {lhs : Expr} (before : lhs.IsFinite) :
    (links.tree lhs).IsFinite := by
  match links with
  | .done => exact before
  | .link token join joins operand more =>
    have right := operand.isFinite_tree fun t member => finite t (by simp [Links.tokens, member])
    exact more.isFinite_tree (fun t member => finite t (by simp [Links.tokens, member]))
      (joins.isFinite before right)

end

end Grammar

theorem ofTokens_isFinite {ts : List Token} {e : Expr} (read : Expr.ofTokens ts = .ok e)
    (finite : ∀ t ∈ ts, t.IsFinite) : e.IsFinite := by
  obtain ⟨d, rfl, rfl, -⟩ := Grammar.exists_derivation read
  exact d.isFinite_tree finite

/-! ## Evaluation -/

namespace Eval

theorem finite_isFinite {x : Float} {n : Number} (made : finite x = .ok n) : n.IsFinite := by
  unfold finite at made
  split at made
  · rename_i isFinite
    cases made
    exact Number.isFinite_float.mpr isFinite
  · cases made

theorem checked_isFinite {i : Option Int64} {n : Number} (made : checked i = .ok n) :
    n.IsFinite := by
  cases i with
  | none => cases made
  | some i =>
    cases made
    exact Number.isFinite_int i

theorem onDoubles_isFinite {op : ArithOp} {x y : Float} {n : Number}
    (made : onDoubles op x y = .ok n) : n.IsFinite := by
  cases op with
  | add => exact finite_isFinite made
  | sub => exact finite_isFinite made
  | mul => exact finite_isFinite made
  | _ =>
    unfold onDoubles at made
    simp only at made
    split at made
    · cases made
    · exact finite_isFinite made

theorem onIntegers_isFinite {op : ArithOp} {x y : Int64} {n : Number}
    (made : onIntegers op x y = .ok n) : n.IsFinite := by
  unfold onIntegers at made
  split at made
  · exact checked_isFinite made
  · exact checked_isFinite made
  · exact checked_isFinite made
  · split at made
    · cases made
    · exact checked_isFinite made
  · split at made
    · cases made
    · exact checked_isFinite made
  · split at made
    · exact checked_isFinite made
    · exact onDoubles_isFinite made
  · exact onDoubles_isFinite made

theorem arithmetic_isFinite {op : ArithOp} {a b n : Number} (made : arithmetic op a b = .ok n) :
    n.IsFinite := by
  unfold arithmetic at made
  split at made
  · exact onIntegers_isFinite made
  · exact onDoubles_isFinite made

theorem replicated_isFinite {s : String} {times : Int64} {v : Value}
    (made : replicated s times = .ok v) : v.IsFinite := by
  unfold replicated at made
  split at made
  · cases made
  · cases made
    simp

theorem arith_isFinite {op : ArithOp} {lhs rhs v : Value} (made : arith op lhs rhs = .ok v) :
    v.IsFinite := by
  unfold arith at made
  split at made
  · cases made
    simp
  · split at made
    · exact replicated_isFinite made
    · cases made
  · split at made
    · exact replicated_isFinite made
    · cases made
  · split at made
    · split at made
      · rename_i computed
        cases made
        exact Number.isFinite_toValue (arithmetic_isFinite computed)
      · cases made
    · cases made

theorem binary_isFinite {op : BinaryOp} {lhs rhs v : Value} (made : binary op lhs rhs = .ok v) :
    v.IsFinite := by
  unfold binary at made
  split at made
  · exact arith_isFinite made
  · cases made
    simp
  · cases made
    simp
  · split at made
    · cases made
      simp
    · cases made

/-- A sign is the one operator whose result is not checked: the opposite of a finite double is
finite. -/
theorem signed_isFinite {negative : Bool} {operand v : Value} (finite : operand.IsFinite)
    (made : signed negative operand = .ok v) : v.IsFinite := by
  unfold signed at made
  split at made
  · cases made
  · rename_i n number
    have before := Value.isFinite_number? finite number
    split at made
    · split at made
      · split at made
        · cases made
          simp
        · cases made
      · cases made
        exact Value.isFinite_float.mpr (Double.isFinite_neg (Number.isFinite_float.mp before))
    · cases made
      exact Number.isFinite_toValue before

theorem unary_isFinite {op : UnaryOp} {operand v : Value} (finite : operand.IsFinite)
    (made : unary op operand = .ok v) : v.IsFinite := by
  cases op with
  | not =>
    cases made
    simp
  | neg => exact signed_isFinite finite made
  | plus => exact signed_isFinite finite made

end Eval

/-- The value of a tree with finite literals, over finite variables. -/
theorem eval_isFinite {scope : Scope} (bound : ∀ name v, scope name = some v → v.IsFinite)
    {e : Expr} (literals : e.IsFinite) {v : Value} (made : e.eval scope = .ok v) :
    v.IsFinite := by
  induction e generalizing v with
  | float x =>
    cases made
    exact Value.isFinite_float.mpr literals
  | int n =>
    cases made
    simp
  | bool b =>
    cases made
    simp
  | str s =>
    cases made
    simp
  | var name =>
    rw [Expr.eval] at made
    split at made
    · rename_i found
      cases made
      exact bound name _ found
    · cases made
  | unary op operand ih =>
    rw [Expr.eval] at made
    split at made
    · rename_i before
      exact Eval.unary_isFinite (ih literals before) made
    · cases made
  | binary op lhs rhs ihl ihr =>
    rw [Expr.eval] at made
    split at made
    · split at made
      · exact Eval.binary_isFinite made
      · cases made
    · cases made
  | conj lhs rhs ihl ihr =>
    rw [Expr.eval] at made
    split at made
    · rename_i first
      split at made
      · exact ihr literals.2 made
      · cases made
        exact ihl literals.1 first
    · cases made
  | disj lhs rhs ihl ihr =>
    rw [Expr.eval] at made
    split at made
    · rename_i first
      split at made
      · cases made
        exact ihl literals.1 first
      · exact ihr literals.2 made
    · cases made

/-- An expression text over finite variables has a finite value. -/
theorem evaluate_isFinite {scope : Scope} (bound : ∀ name v, scope name = some v → v.IsFinite)
    {source : String} {v : Value} (made : evaluate scope source = .ok v) : v.IsFinite := by
  unfold evaluate at made
  split at made
  · cases made
  · rename_i scanned
    split at made
    · cases made
    · rename_i read
      exact eval_isFinite bound (ofTokens_isFinite read (scan_isFinite scanned)) made

theorem ofInput_isFinite (input : String) : (Value.ofInput input).IsFinite := by
  unfold Value.ofInput
  simp only
  split
  · simp
  · split
    · split
      · rename_i finite
        exact Value.isFinite_float.mpr finite
      · simp
    · simp

end Linewise
