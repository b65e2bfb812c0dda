import Linewise.Expr.Eval
import Linewise.Proofs.ExpressionRoundTrip

/-! What an expression depends on. The leaves of a tree are what its tokens denote, so its variables
are names among the tokens and none of them is reserved. Evaluation looks names up at the variables
and nowhere else, and no operator reports a name as undefined. -/
namespace Linewise

/-! ## Leaves -/

/-- The leaves of a tree, from left to right. -/
def Expr.leaves : Expr → List Expr
  | .unary _ operand => operand.leaves
  | .binary _ lhs rhs => lhs.leaves ++ rhs.leaves
  | .conj lhs rhs => lhs.leaves ++ rhs.leaves
  | .disj lhs rhs => lhs.leaves ++ rhs.leaves
  | leaf => [leaf]

namespace Grammar

theorem Denotes.leaves_eq {token : Token} {e : Expr} (denotes : Denotes token e) :
    e.leaves = [e] := by
  cases denotes <;> rfl

theorem Joins.leaves_eq {level : Parser.Level} {token : Token} {join : Expr → Expr → Expr}
    (joins : Joins level token join) (lhs rhs : Expr) :
    (join lhs rhs).leaves = lhs.leaves ++ rhs.leaves := by
  cases joins <;> rfl

/-- A token that is an operand by itself denotes the variable of its own name, or no variable. -/
theorem Denotes.eq_name {token : Token} {name : String} (denotes : Denotes token (.var name)) :
    token = .name name ∧ name ∉ Expr.reserved := by
  cases denotes with
  | var s free =>
    refine ⟨rfl, ?_⟩
    simp_all [Expr.reserved]

mutual

/-- Every leaf of a tree is denoted by one of the tokens. -/
theorem Derivation.exists_denotes {level : Parser.Level} (d : Derivation level) {leaf : Expr}
    (member : leaf ∈ d.tree.leaves) : ∃ token ∈ d.tokens, Denotes token leaf := by
  match d with
  | .leaf token e denotes =>
    rw [Derivation.tree, denotes.leaves_eq] at member
    obtain rfl := List.mem_singleton.mp member
    exact ⟨token, by simp [Derivation.tokens], denotes⟩
  | .parens inner =>
    obtain ⟨token, among, denotes⟩ := inner.exists_denotes member
    exact ⟨token, by simp [Derivation.tokens, among], denotes⟩
  | .bare base => exact base.exists_denotes member
  | .raised base exponent =>
    rcases List.mem_append.mp member with left | right
    · obtain ⟨token, among, denotes⟩ := base.exists_denotes left
      exact ⟨token, by simp [Derivation.tokens, among], denotes⟩
    · obtain ⟨token, among, denotes⟩ := exponent.exists_denotes right
      exact ⟨token, by simp [Derivation.tokens, among], denotes⟩
  | .unsigned operand => exact operand.exists_denotes member
  | .signed _ _ _ operand =>
    obtain ⟨token, among, denotes⟩ := operand.exists_denotes member
    exact ⟨token, by simp [Derivation.tokens, among], denotes⟩
  | .single lhs => exact lhs.exists_denotes member
  | .compared lhs _ _ _ rhs =>
    rcases List.mem_append.mp member with left | right
    · obtain ⟨token, among, denotes⟩ := lhs.exists_denotes left
      exact ⟨token, by simp [Derivation.tokens, among], denotes⟩
    · obtain ⟨token, among, denotes⟩ := rhs.exists_denotes right
      exact ⟨token, by simp [Derivation.tokens, among], denotes⟩
  | .affirmed operand => exact operand.exists_denotes member
  | .negated _ _ operand =>
    obtain ⟨token, among, denotes⟩ := operand.exists_denotes member
    exact ⟨token, by simp [Derivation.tokens, among], denotes⟩
  | .chain _ first links =>
    rcases links.exists_denotes member with before | ⟨token, among, denotes⟩
    · obtain ⟨token, among, denotes⟩ := first.exists_denotes before
      exact ⟨token, by simp [Derivation.tokens, among], denotes⟩
    · exact ⟨token, by simp [Derivation.tokens, among], denotes⟩

/-- Links add only leaves of their own tokens to the part before them. -/
theorem Links.exists_denotes {level inner : Parser.Level} (links : Links level inner)
    {lhs leaf : Expr} (member : leaf ∈ (links.tree lhs).leaves) :
    leaf ∈ lhs.leaves ∨ ∃ token ∈ links.tokens, Denotes token leaf := by
  match links with
  | .done => exact .inl member
  | .link operator join joins operand more =>
    rcases more.exists_denotes member with before | ⟨token, among, denotes⟩
    · rw [joins.leaves_eq] at before
      rcases List.mem_append.mp before with left | right
      · exact .inl left
      · obtain ⟨token, among, denotes⟩ := operand.exists_denotes right
        exact .inr ⟨token, by simp [Links.tokens, among], denotes⟩
    · exact .inr ⟨token, by simp [Links.tokens, among], denotes⟩

end

end Grammar

/-- The variables of a tree are names among its tokens that are not reserved. -/
theorem Expr.name_of_leaves {ts : List Token} {e : Expr} (read : Expr.ofTokens ts = .ok e)
    {name : String} (member : .var name ∈ e.leaves) : .name name ∈ ts ∧ name ∉ reserved := by
  obtain ⟨d, rfl, rfl, -⟩ := Grammar.exists_derivation read
  obtain ⟨token, among, denotes⟩ := d.exists_denotes member
  obtain ⟨rfl, free⟩ := denotes.eq_name
  exact ⟨among, free⟩

/-! ## Errors of operators -/

/-- The errors that an operator can have by itself: those of its operands' kinds and of the size of
its result. -/
def EvalError.OfOperator : EvalError → Prop
  | .lexing _ => False
  | .parsing _ => False
  | .undefined _ => False
  | .operands _ _ _ => True
  | .signOperand _ _ => True
  | .overflow => True
  | .divisionByZero => True

namespace Eval

theorem checked_error {i : Option Int64} {e : EvalError} (failed : checked i = .error e) :
    e.OfOperator := by
  cases i with
  | none =>
    cases failed
    trivial
  | some n => cases failed

theorem finite_error {x : Float} {e : EvalError} (failed : finite x = .error e) :
    e.OfOperator := by
  unfold finite at failed
  split at failed
  · cases failed
  · cases failed
    trivial

theorem onDoubles_error {op : ArithOp} {x y : Float} {e : EvalError}
    (failed : onDoubles op x y = .error e) : e.OfOperator := by
  cases op with
  | add => exact finite_error failed
  | sub => exact finite_error failed
  | mul => exact finite_error failed
  | _ =>
    unfold onDoubles at failed
    simp only at failed
    split at failed
    · cases failed
      trivial
    · exact finite_error failed

theorem onIntegers_error {op : ArithOp} {x y : Int64} {e : EvalError}
    (failed : onIntegers op x y = .error e) : e.OfOperator := by
  unfold onIntegers at failed
  split at failed
  · exact checked_error failed
  · exact checked_error failed
  · exact checked_error failed
  · split at failed
    · cases failed
      trivial
    · exact checked_error failed
  · split at failed
    · cases failed
      trivial
    · exact checked_error failed
  · split at failed
    · exact checked_error failed
    · exact onDoubles_error failed
  · exact onDoubles_error failed

theorem arithmetic_error {op : ArithOp} {a b : Number} {e : EvalError}
    (failed : arithmetic op a b = .error e) : e.OfOperator := by
  unfold arithmetic at failed
  split at failed
  · exact onIntegers_error failed
  · exact onDoubles_error failed

theorem replicated_error {s : String} {times : Int64} {e : EvalError}
    (failed : replicated s times = .error e) : e.OfOperator := by
  unfold replicated at failed
  split at failed
  · cases failed
    trivial
  · cases failed

theorem arith_error {op : ArithOp} {lhs rhs : Value} {e : EvalError}
    (failed : arith op lhs rhs = .error e) : e.OfOperator := by
  unfold arith at failed
  split at failed
  · cases failed
  · split at failed
    · exact replicated_error failed
    · cases failed
      trivial
  · split at failed
    · exact replicated_error failed
    · cases failed
      trivial
  · split at failed
    · split at failed
      · cases failed
      · rename_i computed
        cases failed
        exact arithmetic_error computed
    · cases failed
      trivial

theorem ordered_error {op : OrderOp} {lhs rhs : Value} {e : EvalError}
    (failed : ordered op lhs rhs = .error e) : e.OfOperator := by
  unfold ordered at failed
  split at failed
  · cases failed
  · split at failed
    · cases failed
    · cases failed
      trivial

theorem binary_error {op : BinaryOp} {lhs rhs : Value} {e : EvalError}
    (failed : binary op lhs rhs = .error e) : e.OfOperator := by
  unfold binary at failed
  split at failed
  · exact arith_error failed
  · cases failed
  · cases failed
  · split at failed
    · cases failed
    · rename_i compared
      cases failed
      exact ordered_error compared

theorem signed_error {negative : Bool} {operand : Value} {e : EvalError}
    (failed : signed negative operand = .error e) : e.OfOperator := by
  unfold signed at failed
  split at failed
  · cases failed
    trivial
  · split at failed
    · split at failed
      · split at failed
        · cases failed
        · cases failed
          trivial
      · cases failed
    · cases failed

theorem unary_error {op : UnaryOp} {operand : Value} {e : EvalError}
    (failed : unary op operand = .error e) : e.OfOperator := by
  cases op with
  | not => cases failed
  | neg => exact signed_error failed
  | plus => exact signed_error failed

end Eval

/-! ## Evaluation -/

/-- Scopes that agree on the variables of a tree give it the same value or the same error. -/
theorem Expr.eval_congr {one two : Scope} (e : Expr)
    (agree : ∀ name, .var name ∈ e.leaves → one name = two name) : e.eval one = e.eval two := by
  induction e with
  | int n => rfl
  | float x => rfl
  | bool b => rfl
  | str s => rfl
  | var name => simp only [eval, agree name (List.mem_singleton_self _)]
  | unary op operand ih => simp only [eval, ih agree]
  | binary op lhs rhs left right | conj lhs rhs left right | disj lhs rhs left right =>
    have first := left fun name member => agree name (List.mem_append_left _ member)
    have second := right fun name member => agree name (List.mem_append_right _ member)
    simp only [eval, first, second]

/-- A name that evaluation reports as undefined is a variable of the tree without a value. -/
theorem Expr.eval_undefined {scope : Scope} {e : Expr} {name : String}
    (failed : e.eval scope = .error (.undefined name)) :
    .var name ∈ e.leaves ∧ scope name = none := by
  induction e with
  | int n => cases failed
  | float x => cases failed
  | bool b => cases failed
  | str s => cases failed
  | var other =>
    rw [eval] at failed
    split at failed
    · cases failed
    · rename_i absent
      cases failed
      exact ⟨List.mem_singleton_self _, absent⟩
  | unary op operand ih =>
    rw [eval] at failed
    split at failed
    · exact (Eval.unary_error failed).elim
    · rename_i inside
      cases failed
      exact ih inside
  | binary op lhs rhs left right =>
    rw [eval] at failed
    split at failed
    · split at failed
      · exact (Eval.binary_error failed).elim
      · rename_i inside
        cases failed
        obtain ⟨member, absent⟩ := right inside
        exact ⟨List.mem_append_right _ member, absent⟩
    · rename_i inside
      cases failed
      obtain ⟨member, absent⟩ := left inside
      exact ⟨List.mem_append_left _ member, absent⟩
  | conj lhs rhs left right =>
    rw [eval] at failed
    split at failed
    · split at failed
      · obtain ⟨member, absent⟩ := right failed
        exact ⟨List.mem_append_right _ member, absent⟩
      · cases failed
    · rename_i inside
      cases failed
      obtain ⟨member, absent⟩ := left inside
      exact ⟨List.mem_append_left _ member, absent⟩
  | disj lhs rhs left right =>
    rw [eval] at failed
    split at failed
    · split at failed
      · cases failed
      · obtain ⟨member, absent⟩ := right failed
        exact ⟨List.mem_append_right _ member, absent⟩
    · rename_i inside
      cases failed
      obtain ⟨member, absent⟩ := left inside
      exact ⟨List.mem_append_left _ member, absent⟩

/-- The value of a list of tokens. -/
def evaluateTokens (scope : Scope) (ts : List Token) : Except EvalError Value :=
  match Expr.ofTokens ts with
  | .error e => .error (.parsing e)
  | .ok expr => expr.eval scope

theorem evaluate_of_tokens {source : String} {ts : List Token} (scanned : tokens source = .ok ts)
    (scope : Scope) : evaluate scope source = evaluateTokens scope ts := by
  rw [evaluate, scanned]
  rfl

theorem evaluateTokens_of_read {ts : List Token} {e : Expr} (read : Expr.ofTokens ts = .ok e)
    (scope : Scope) : evaluateTokens scope ts = e.eval scope := by
  simp only [evaluateTokens, read]

/-- A name is one of the tokens of a text. -/
def Names (source name : String) : Prop :=
  ∃ ts, tokens source = .ok ts ∧ .name name ∈ ts

/-- **Expressions read only the names they contain.** Scopes that agree on the names among the
tokens of a text, by the same value or by none, give it the same value or the same error. A name
that is reported as undefined is among the tokens, is not reserved, and has no value. -/
theorem evaluate_reads_names (source : String) :
    (∀ one two : Scope, (∀ name, Names source name → one name = two name) →
      evaluate one source = evaluate two source) ∧
    ∀ (scope : Scope) (name : String), evaluate scope source = .error (.undefined name) →
      Names source name ∧ name ∉ Expr.reserved ∧ scope name = none := by
  cases scanned : tokens source with
  | error e =>
    have stuck (scope : Scope) : evaluate scope source = .error (.lexing e) := by
      rw [evaluate, scanned]
    refine ⟨fun one two _ => (stuck one).trans (stuck two).symm, ?_⟩
    intro scope name failed
    cases (stuck scope).symm.trans failed
  | ok ts =>
    simp only [evaluate_of_tokens scanned]
    cases read : Expr.ofTokens ts with
    | error e =>
      have stuck (scope : Scope) : evaluateTokens scope ts = .error (.parsing e) := by
        rw [evaluateTokens, read]
      refine ⟨fun one two _ => (stuck one).trans (stuck two).symm, ?_⟩
      intro scope name failed
      cases (stuck scope).symm.trans failed
    | ok e =>
      simp only [evaluateTokens_of_read read]
      constructor
      · intro one two agree
        apply e.eval_congr
        intro name member
        exact agree name ⟨ts, scanned, (Expr.name_of_leaves read member).1⟩
      · intro scope name failed
        obtain ⟨member, absent⟩ := Expr.eval_undefined failed
        obtain ⟨among, free⟩ := Expr.name_of_leaves read member
        exact ⟨⟨ts, scanned, among⟩, free, absent⟩

/-- A variable whose name is part of another name is not touched by that name. -/
theorem evaluate_reads_names_whole :
    let few : Table Value := .ofList [("a", .int 1), ("ab", .int 10)]
    let more := few.insert "b" (.str "other")
    (∀ name, Names "ab or a" name → few.get? name = more.get? name) ∧
      few.get? "b" ≠ more.get? "b" ∧
      evaluate few.get? "ab or a" = evaluate more.get? "ab or a" ∧
      evaluate more.get? "ab + abc" = .error (.undefined "abc") ∧
      Names "ab + abc" "abc" ∧ "abc" ∉ Expr.reserved ∧ more.get? "abc" = none := by
  intro few more
  have scanned : tokens "ab or a" = .ok [.name "ab", .name "or", .name "a"] := by decide +kernel
  have agree : ∀ name, Names "ab or a" name → few.get? name = more.get? name := by
    rintro name ⟨ts, same, among⟩
    cases scanned.symm.trans same
    have other : name ≠ "b" := by
      rintro rfl
      simp at among
    rw [Table.get?_insert, if_neg other]
  have failed : evaluate more.get? "ab + abc" = .error (.undefined "abc") := by decide +kernel
  exact ⟨agree, by decide, (evaluate_reads_names "ab or a").1 _ _ agree, failed,
    (evaluate_reads_names "ab + abc").2 _ _ failed⟩

end Linewise
