import Linewise.Proofs.ExpressionNames

/-! Substitution of an expression for a name. Among the tokens, each occurrence of the name becomes
the tokens of the other expression in brackets; in the tree, each variable of that name becomes the
other tree; and for evaluation, the name receives the value of the other expression. The three
agree, because a bracketed expression can stand wherever a name can. -/
namespace Linewise
open Linewise.Parser (Level)

/-- The tokens with others, in brackets, in the place of each occurrence of a name. -/
def substituteTokens (x : String) (inserted ts : List Token) : List Token :=
  ts.flatMap fun token =>
    if token = .name x then .symbol .lparen :: (inserted ++ [.symbol .rparen]) else [token]

/-- The tree with another one in the place of each variable of a name. -/
def Expr.substitute (e : Expr) (x : String) (inserted : Expr) : Expr :=
  match e with
  | .var name => if name = x then inserted else .var name
  | .unary op operand => .unary op (operand.substitute x inserted)
  | .binary op lhs rhs => .binary op (lhs.substitute x inserted) (rhs.substitute x inserted)
  | .conj lhs rhs => .conj (lhs.substitute x inserted) (rhs.substitute x inserted)
  | .disj lhs rhs => .disj (lhs.substitute x inserted) (rhs.substitute x inserted)
  | leaf => leaf

section Tokens
variable {x : String} {inserted : List Token}

@[simp] theorem substituteTokens_nil : substituteTokens x inserted [] = [] :=
  rfl

@[simp] theorem substituteTokens_append (first second : List Token) :
    substituteTokens x inserted (first ++ second) =
      substituteTokens x inserted first ++ substituteTokens x inserted second :=
  List.flatMap_append

theorem substituteTokens_cons_of_ne {token : Token} (other : token ≠ .name x) (ts : List Token) :
    substituteTokens x inserted (token :: ts) = token :: substituteTokens x inserted ts := by
  simp [substituteTokens, other]

@[simp] theorem substituteTokens_symbol (s : Symbol) (ts : List Token) :
    substituteTokens x inserted (.symbol s :: ts) = .symbol s :: substituteTokens x inserted ts :=
  substituteTokens_cons_of_ne (by nofun) ts

end Tokens

namespace Grammar

/-! ## Derivations -/

section Operators
variable {x : String} {token : Token}

theorem Signs.ne_name {op : UnaryOp} (signs : Signs token op) : token ≠ .name x := by
  cases signs <;> simp

theorem Compares.ne_name {op : BinaryOp} (compares : Compares token op) : token ≠ .name x := by
  cases compares <;> simp

/-- The operators that are words are reserved. -/
theorem Negates.ne_name (free : x ∉ Expr.reserved) (negates : Negates token) :
    token ≠ .name x := by
  rintro rfl
  cases negates with
  | word => exact free (by decide)

theorem Joins.ne_name (free : x ∉ Expr.reserved) {level : Level} {join : Expr → Expr → Expr}
    (joins : Joins level token join) : token ≠ .name x := by
  rintro rfl
  cases joins with
  | orWord => exact free (by decide)
  | andWord => exact free (by decide)

theorem Joins.substitute {level : Level} {join : Expr → Expr → Expr}
    (joins : Joins level token join) (inserted lhs rhs : Expr) :
    (join lhs rhs).substitute x inserted =
      join (lhs.substitute x inserted) (rhs.substitute x inserted) := by
  cases joins <;> rfl

/-- A name that is not reserved denotes its variable. -/
theorem Denotes.eq_var (free : x ∉ Expr.reserved) {e : Expr} (denotes : Denotes (.name x) e) :
    e = .var x := by
  cases denotes with
  | var => rfl
  | true s word =>
    exfalso
    rcases word with rfl | rfl <;> exact free (by decide)
  | false s word =>
    exfalso
    rcases word with rfl | rfl <;> exact free (by decide)

theorem Denotes.substitute_of_ne {e : Expr} (denotes : Denotes token e) (other : token ≠ .name x)
    (inserted : Expr) : e.substitute x inserted = e := by
  cases denotes with
  | var s free =>
    have apart : s ≠ x := by
      rintro rfl
      exact other rfl
    rw [Expr.substitute, if_neg apart]
  | _ => rfl

end Operators

mutual

/-- The derivation with another one, in brackets, in the place of each leaf with a name. -/
def Derivation.substitute :
    {level : Level} → Derivation level → String → Derivation .disj → Derivation level
  | _, .leaf token e denotes, x, inserted =>
    if token = .name x then .parens inserted else .leaf token e denotes
  | _, .parens inner, x, inserted => .parens (inner.substitute x inserted)
  | _, .bare base, x, inserted => .bare (base.substitute x inserted)
  | _, .raised base exponent, x, inserted =>
    .raised (base.substitute x inserted) (exponent.substitute x inserted)
  | _, .unsigned operand, x, inserted => .unsigned (operand.substitute x inserted)
  | _, .signed token op signs operand, x, inserted =>
    .signed token op signs (operand.substitute x inserted)
  | _, .single lhs, x, inserted => .single (lhs.substitute x inserted)
  | _, .compared lhs token op compares rhs, x, inserted =>
    .compared (lhs.substitute x inserted) token op compares (rhs.substitute x inserted)
  | _, .affirmed operand, x, inserted => .affirmed (operand.substitute x inserted)
  | _, .negated token negates operand, x, inserted =>
    .negated token negates (operand.substitute x inserted)
  | _, .chain chains first links, x, inserted =>
    .chain chains (first.substitute x inserted) (links.substitute x inserted)

/-- The links with the other derivation in their operands. -/
def Links.substitute :
    {level inner : Level} → Links level inner → String → Derivation .disj →
      Links level inner
  | _, _, .done, _, _ => .done
  | _, _, .link token join joins operand more, x, inserted =>
    .link token join joins (operand.substitute x inserted) (more.substitute x inserted)

end

mutual

/-- Substitution in a derivation is substitution among its tokens. -/
theorem Derivation.tokens_substitute {level : Level} (d : Derivation level) {x : String}
    (free : x ∉ Expr.reserved) (inserted : Derivation .disj) :
    (d.substitute x inserted).tokens = substituteTokens x inserted.tokens d.tokens := by
  match d with
  | .leaf token e denotes =>
    rw [Derivation.substitute]
    split
    · rename_i same
      simp [same, Derivation.tokens, substituteTokens]
    · rename_i other
      simp [Derivation.tokens, substituteTokens_cons_of_ne other]
  | .parens inner =>
    simp [Derivation.substitute, Derivation.tokens, inner.tokens_substitute free inserted]
  | .bare base => exact base.tokens_substitute free inserted
  | .raised base exponent =>
    simp [Derivation.substitute, Derivation.tokens, base.tokens_substitute free inserted,
      exponent.tokens_substitute free inserted]
  | .unsigned operand => exact operand.tokens_substitute free inserted
  | .signed token op signs operand =>
    simp [Derivation.substitute, Derivation.tokens, operand.tokens_substitute free inserted,
      substituteTokens_cons_of_ne signs.ne_name]
  | .single lhs => exact lhs.tokens_substitute free inserted
  | .compared lhs token op compares rhs =>
    simp [Derivation.substitute, Derivation.tokens, lhs.tokens_substitute free inserted,
      rhs.tokens_substitute free inserted, substituteTokens_cons_of_ne compares.ne_name]
  | .affirmed operand => exact operand.tokens_substitute free inserted
  | .negated token negates operand =>
    simp [Derivation.substitute, Derivation.tokens, operand.tokens_substitute free inserted,
      substituteTokens_cons_of_ne (negates.ne_name free)]
  | .chain chains first links =>
    simp [Derivation.substitute, Derivation.tokens, first.tokens_substitute free inserted,
      links.tokens_substitute free inserted]

theorem Links.tokens_substitute {level inner : Level} (links : Links level inner) {x : String}
    (free : x ∉ Expr.reserved) (inserted : Derivation .disj) :
    (links.substitute x inserted).tokens = substituteTokens x inserted.tokens links.tokens := by
  match links with
  | .done => rfl
  | .link token join joins operand more =>
    simp [Links.substitute, Links.tokens, operand.tokens_substitute free inserted,
      more.tokens_substitute free inserted, substituteTokens_cons_of_ne (joins.ne_name free)]

end

mutual

/-- Substitution in a derivation is substitution in its tree. -/
theorem Derivation.tree_substitute {level : Level} (d : Derivation level) {x : String}
    (free : x ∉ Expr.reserved) (inserted : Derivation .disj) :
    (d.substitute x inserted).tree = d.tree.substitute x inserted.tree := by
  match d with
  | .leaf token e denotes =>
    rw [Derivation.substitute]
    split
    · rename_i same
      subst same
      obtain rfl := denotes.eq_var free
      simp [Derivation.tree, Expr.substitute]
    · rename_i other
      exact (denotes.substitute_of_ne other _).symm
  | .parens inner => exact inner.tree_substitute free inserted
  | .bare base => exact base.tree_substitute free inserted
  | .raised base exponent =>
    simp only [Derivation.substitute, Derivation.tree, Expr.substitute,
      base.tree_substitute free inserted, exponent.tree_substitute free inserted]
  | .unsigned operand => exact operand.tree_substitute free inserted
  | .signed token op signs operand =>
    simp only [Derivation.substitute, Derivation.tree, Expr.substitute,
      operand.tree_substitute free inserted]
  | .single lhs => exact lhs.tree_substitute free inserted
  | .compared lhs token op compares rhs =>
    simp only [Derivation.substitute, Derivation.tree, Expr.substitute,
      lhs.tree_substitute free inserted, rhs.tree_substitute free inserted]
  | .affirmed operand => exact operand.tree_substitute free inserted
  | .negated token negates operand =>
    simp only [Derivation.substitute, Derivation.tree, Expr.substitute,
      operand.tree_substitute free inserted]
  | .chain chains first links =>
    simp only [Derivation.substitute, Derivation.tree, first.tree_substitute free inserted]
    exact links.tree_substitute free inserted _

theorem Links.tree_substitute {level inner : Level} (links : Links level inner) {x : String}
    (free : x ∉ Expr.reserved) (inserted : Derivation .disj) (lhs : Expr) :
    (links.substitute x inserted).tree (lhs.substitute x inserted.tree) =
      (links.tree lhs).substitute x inserted.tree := by
  match links with
  | .done => rfl
  | .link token join joins operand more =>
    simp only [Links.substitute, Links.tree, operand.tree_substitute free inserted,
      ← joins.substitute]
    exact more.tree_substitute free inserted _

end

end Grammar

/-! ## Evaluation -/

/-- Where the inserted tree has a value, the tree with it has the value that the original tree has
when the name is bound to that value. The inserted tree itself is evaluated in the old scope. -/
theorem Expr.eval_substitute (e : Expr) {scope : Scope} {x : String} {inserted : Expr} {v : Value}
    (value : inserted.eval scope = .ok v) :
    (e.substitute x inserted).eval scope =
      e.eval fun name => if name = x then some v else scope name := by
  induction e with
  | int n => rfl
  | float d => rfl
  | bool b => rfl
  | str s => rfl
  | var name =>
    by_cases same : name = x
    · simp only [substitute, eval, same, if_true, value]
    · simp only [substitute, eval, same, if_false]
  | unary op operand ih => simp only [substitute, eval, ih]
  | binary op lhs rhs left right => simp only [substitute, eval, left, right]
  | conj lhs rhs left right => simp only [substitute, eval, left, right]
  | disj lhs rhs left right => simp only [substitute, eval, left, right]

/-- **Substitution among tokens is sound.** If both lists of tokens are expressions, then the list
with the second in brackets for each occurrence of the name is too deep, or it is the first tree
with the second for the variable; and wherever the second has a value, it evaluates to what the
first evaluates to with the name bound to that value. -/
theorem substituteTokens_sound {x : String} (free : x ∉ Expr.reserved) {ts inserted : List Token}
    {e replacement : Expr} (read : Expr.ofTokens ts = .ok e)
    (readInserted : Expr.ofTokens inserted = .ok replacement)
    (shallow : Expr.ofTokens (substituteTokens x inserted ts) ≠ .error .tooDeep) :
    Expr.ofTokens (substituteTokens x inserted ts) = .ok (e.substitute x replacement) ∧
    ∀ (table : Table Value) (v : Value), replacement.eval table.get? = .ok v →
      evaluateTokens table.get? (substituteTokens x inserted ts) =
        evaluateTokens (table.insert x v).get? ts := by
  obtain ⟨d, rfl, rfl, -⟩ := Grammar.exists_derivation read
  obtain ⟨other, rfl, rfl, -⟩ := Grammar.exists_derivation readInserted
  have parsed := Grammar.ofTokens_tokens (d.substitute x other)
  rw [d.tokens_substitute free other, d.tree_substitute free other] at parsed
  split at parsed
  · refine ⟨parsed, ?_⟩
    intro table v value
    have bound : (table.insert x v).get? =
        fun name => if name = x then some v else table.get? name := by
      funext name
      exact table.get?_insert x name v
    rw [evaluateTokens_of_read parsed, evaluateTokens_of_read read, bound]
    exact d.tree.eval_substitute value
  · exact absurd parsed shallow

/-- The inserted expression may contain the name itself, which stands for its old value there. -/
theorem substituteTokens_sound_own_name :
    let ts : List Token := [.symbol .minus, .name "x", .symbol .power, .int 2, .symbol .plus,
      .name "xy"]
    let inserted : List Token := [.name "x", .symbol .plus, .int 1]
    let e : Expr := .binary (.arith .add)
      (.unary .neg (.binary (.arith .pow) (.var "x") (.int 2))) (.var "xy")
    let replacement : Expr := .binary (.arith .add) (.var "x") (.int 1)
    let table : Table Value := .ofList [("x", .int 2), ("xy", .int 10)]
    "x" ∉ Expr.reserved ∧ Expr.ofTokens ts = .ok e ∧ Expr.ofTokens inserted = .ok replacement ∧
      Expr.ofTokens (substituteTokens "x" inserted ts) = .ok (e.substitute "x" replacement) ∧
      replacement.eval table.get? = .ok (.int 3) ∧
      evaluateTokens table.get? (substituteTokens "x" inserted ts) =
        evaluateTokens (table.insert "x" (.int 3)).get? ts ∧
      evaluateTokens (table.insert "x" (.int 3)).get? ts = .ok (.int 1) := by
  intro ts inserted e replacement table
  have free : "x" ∉ Expr.reserved := by decide
  have read : Expr.ofTokens ts = .ok e := by decide +kernel
  have readInserted : Expr.ofTokens inserted = .ok replacement := by decide +kernel
  have shallow : Expr.ofTokens (substituteTokens "x" inserted ts) ≠ .error .tooDeep := by
    decide +kernel
  have value : replacement.eval table.get? = .ok (.int 3) := by decide +kernel
  obtain ⟨tree, evaluated⟩ := substituteTokens_sound free read readInserted shallow
  exact ⟨free, read, readInserted, tree, value, evaluated table (.int 3) value, by decide +kernel⟩

end Linewise
