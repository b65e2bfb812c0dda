import Mathlib.Algebra.Order.Ring.Int
import Linewise.Proofs.ExpressionNames

/-! How long texts can become. Joining adds the sizes of its operands and repetition is refused
above a fixed size, so the size of a text that an expression gives is bounded by its leaves: each of
them accounts for no more than the longest text that is there from the start, or for the fixed
size. -/
namespace Linewise

/-! ## Repetition -/

namespace Eval

/-- Without a text there is nothing to repeat, so all copies are one text. -/
theorem copies_eq_join (s : String) (n : Nat) : copies s n = String.join (List.replicate n s) := by
  unfold copies
  split
  · rename_i empty
    subst empty
    induction n with
    | zero => rfl
    | succ n ih => rw [List.replicate_succ, String.join_cons, ← ih, String.append_empty]
  · rfl

theorem utf8ByteSize_copies (s : String) (n : Nat) :
    (copies s n).utf8ByteSize = s.utf8ByteSize * n := by
  rw [copies_eq_join]
  induction n with
  | zero => rfl
  | succ n ih =>
    rw [List.replicate_succ, String.join_cons, String.utf8ByteSize_append, ih, Nat.mul_succ,
      Nat.add_comm]

/-- A repetition that is not refused gives a text up to the fixed size. -/
theorem utf8ByteSize_le_of_replicated {s text : String} {times : Int64}
    (made : replicated s times = .ok (.str text)) : text.utf8ByteSize ≤ maxText := by
  unfold replicated at made
  split at made
  · cases made
  · rename_i small
    cases made
    rw [utf8ByteSize_copies]
    exact Nat.le_of_not_lt small

/-- A repetition overflows exactly if its result were longer than the fixed size. -/
theorem replicated_eq_ite (s : String) (times : Int64) :
    replicated s times =
      if (2 ^ 20 : Int) < s.utf8ByteSize * max times.toInt 0 then .error .overflow
      else .ok (.str (String.join (List.replicate times.toInt.toNat s))) := by
  have size : maxText < s.utf8ByteSize * times.toInt.toNat ↔
      (2 ^ 20 : Int) < s.utf8ByteSize * max times.toInt 0 := by
    rw [← Int.ofNat_toNat, ← Int.natCast_mul]
    exact Int.ofNat_lt.symm
  rw [replicated, copies_eq_join]
  exact if_congr size rfl rfl

/-- An integer or a boolean repeats a text, on either side of it. -/
theorem binary_mul_text {s : String} {v lhs rhs : Value} {times : Int64}
    (counts : v.number? = some (.int times))
    (operands : lhs = .str s ∧ rhs = v ∨ lhs = v ∧ rhs = .str s) :
    binary (.arith .mul) lhs rhs = replicated s times := by
  rcases operands with ⟨rfl, rfl⟩ | ⟨rfl, rfl⟩
  · simp only [binary, arith, counts]
  · cases lhs with
    | str other => cases counts
    | int n => simp only [binary, arith, counts]
    | float x => simp only [binary, arith, counts]
    | bool b => simp only [binary, arith, counts]

/-- A text that an operator gives is its operands joined, or a repetition. -/
theorem binary_eq_text {op : BinaryOp} {lhs rhs : Value} {text : String}
    (made : binary op lhs rhs = .ok (.str text)) :
    (∃ a b, lhs = .str a ∧ rhs = .str b ∧ text = a ++ b) ∨ text.utf8ByteSize ≤ maxText := by
  unfold binary at made
  split at made
  · unfold arith at made
    split at made
    · rename_i a b
      cases made
      exact .inl ⟨a, b, rfl, rfl, rfl⟩
    · split at made
      · exact .inr (utf8ByteSize_le_of_replicated made)
      · cases made
    · split at made
      · exact .inr (utf8ByteSize_le_of_replicated made)
      · cases made
    · split at made
      · split at made
        · rename_i n computed
          cases n <;> cases made
        · cases made
      · cases made
  · cases made
  · cases made
  · split at made <;> cases made

/-- No operator on one operand gives a text. -/
theorem unary_ne_text {op : UnaryOp} {operand : Value} {text : String} :
    unary op operand ≠ .ok (.str text) := by
  have sign (negative : Bool) : signed negative operand ≠ .ok (.str text) := by
    unfold signed
    cases number : operand.number? with
    | none => simp
    | some n =>
      cases n with
      | int n =>
        cases negative <;> cases opposite : Integer.neg? n <;> simp [opposite, Number.toValue]
      | float x => cases negative <;> simp [Number.toValue]
  cases op with
  | not => simp [unary]
  | neg => exact sign true
  | plus => exact sign false

end Eval

/-! ## Expressions -/

namespace Expr

/-- An expression and all expressions inside it. -/
def parts (e : Expr) : List Expr :=
  e :: match e with
    | .unary _ operand => operand.parts
    | .binary _ lhs rhs => lhs.parts ++ rhs.parts
    | .conj lhs rhs => lhs.parts ++ rhs.parts
    | .disj lhs rhs => lhs.parts ++ rhs.parts
    | _ => []

/-- The leaves of a part are leaves of the whole. -/
theorem leaves_subset {d e : Expr} (part : d ∈ e.parts) : d.leaves ⊆ e.leaves := by
  induction e with
  | int | float | bool | str | var =>
    obtain rfl := List.mem_singleton.mp part
    exact List.Subset.refl _
  | unary op operand ih =>
    rcases List.mem_cons.mp part with rfl | inside
    · exact List.Subset.refl _
    · exact ih inside
  | binary _ lhs rhs ihLhs ihRhs | conj lhs rhs ihLhs ihRhs | disj lhs rhs ihLhs ihRhs =>
    rcases List.mem_cons.mp part with rfl | inside
    · exact List.Subset.refl _
    · rcases List.mem_append.mp inside with left | right
      · exact List.subset_append_of_subset_left _ (ihLhs left)
      · exact List.subset_append_of_subset_right _ (ihRhs right)

/-- The number of leaves. -/
def leafCount (e : Expr) : Nat :=
  e.leaves.length

theorem leafCount_pos (e : Expr) : 0 < e.leafCount := by
  induction e with
  | int | float | bool | str | var => exact Nat.one_pos
  | unary _ _ ih => exact ih
  | binary _ lhs rhs ihLhs | conj lhs rhs ihLhs | disj lhs rhs ihLhs =>
    rw [leafCount, leaves, List.length_append]
    exact Nat.add_pos_left ihLhs _

/-- An operator that may skip its second operand gives the value of one of them. -/
theorem eval_short (lhs rhs : Expr) {e : Expr} {scope : Scope} {v : Value}
    (short : e = .conj lhs rhs ∨ e = .disj lhs rhs) (given : e.eval scope = .ok v) :
    lhs.eval scope = .ok v ∨ rhs.eval scope = .ok v := by
  rcases short with rfl | rfl
  all_goals
    rw [eval] at given
    split at given
    · split at given
      · simp_all
      · simp_all
    · cases given

/-- If no text is longer than a bound at the start, an expression gives no text longer than one
bound for each leaf. The bound counts at least the size up to which texts can be repeated. -/
theorem utf8ByteSize_eval_le {scope : Scope} {bound : Nat} {e : Expr} {text : String}
    (floor : Eval.maxText ≤ bound) (literals : ∀ s, .str s ∈ e.leaves → s.utf8ByteSize ≤ bound)
    (values : ∀ name s, scope name = some (.str s) → s.utf8ByteSize ≤ bound)
    (given : e.eval scope = .ok (.str text)) : text.utf8ByteSize ≤ e.leafCount * bound := by
  induction e generalizing text with
  | int | float | bool => cases given
  | str s =>
    cases given
    simpa [leafCount, leaves] using literals
  | var name =>
    rw [eval] at given
    split at given
    · rename_i found
      cases given
      simpa [leafCount, leaves] using values name text found
    · cases given
  | unary op operand ih =>
    rw [eval] at given
    split at given
    · exact absurd given Eval.unary_ne_text
    · cases given
  | binary op lhs rhs ihLhs ihRhs =>
    rw [eval] at given
    split at given
    · rename_i left
      split at given
      · rename_i right
        rcases Eval.binary_eq_text given with ⟨a, b, rfl, rfl, rfl⟩ | small
        · rw [leafCount, leaves, List.length_append, Nat.add_mul, String.utf8ByteSize_append]
          exact Nat.add_le_add
            (ihLhs (fun s member => literals s (List.mem_append_left _ member)) left)
            (ihRhs (fun s member => literals s (List.mem_append_right _ member)) right)
        · exact Nat.le_trans small (Nat.le_trans floor (Nat.le_mul_of_pos_left _ (leafCount_pos _)))
      · cases given
    · cases given
  | conj lhs rhs ihLhs ihRhs | disj lhs rhs ihLhs ihRhs =>
    rw [leafCount, leaves, List.length_append, Nat.add_mul]
    rcases eval_short lhs rhs (by simp) given with left | right
    · exact Nat.le_add_right_of_le
        (ihLhs (fun s member => literals s (List.mem_append_left _ member)) left)
    · exact Nat.le_add_left_of_le
        (ihRhs (fun s member => literals s (List.mem_append_right _ member)) right)

/-- The text of a string literal. -/
def literal? : Expr → Option String
  | .str s => some s
  | _ => none

end Expr

/-- The text of a value. -/
def Value.text? : Value → Option String
  | .str s => some s
  | _ => none

/-- The largest of the size up to which texts can be repeated, the sizes of the string literals of
an expression and the sizes of the texts in a table. -/
def Expr.longestText (e : Expr) (t : Table Value) : Nat :=
  (e.leaves.filterMap Expr.literal? ++ t.entries.filterMap fun entry => entry.2.text?).foldr
    (fun s size => max s.utf8ByteSize size) Eval.maxText

theorem le_longest (texts : List String) (floor : Nat) :
    floor ≤ texts.foldr (fun s size => max s.utf8ByteSize size) floor ∧
      ∀ s ∈ texts, s.utf8ByteSize ≤ texts.foldr (fun s size => max s.utf8ByteSize size) floor := by
  induction texts with
  | nil => simp
  | cons first rest ih =>
    refine ⟨Nat.le_trans ih.1 (Nat.le_max_right _ _), List.forall_mem_cons.mpr ⟨?_, ?_⟩⟩
    · exact Nat.le_max_left _ _
    · intro s member
      exact Nat.le_trans (ih.2 s member) (Nat.le_max_right _ _)

/-- A text that a part of an expression gives is bounded by the leaves of that part. -/
theorem Expr.utf8ByteSize_part_le {t : Table Value} {e part : Expr} {text : String}
    (inside : part ∈ e.parts) (given : part.eval t.get? = .ok (.str text)) :
    text.utf8ByteSize ≤ part.leafCount * e.longestText t := by
  obtain ⟨floor, longest⟩ := le_longest
    (e.leaves.filterMap Expr.literal? ++ t.entries.filterMap fun entry => entry.2.text?)
    Eval.maxText
  refine utf8ByteSize_eval_le floor ?_ ?_ given
  · intro s member
    refine longest s (List.mem_append_left _ (List.mem_filterMap.mpr ⟨.str s, ?_, rfl⟩))
    exact leaves_subset inside member
  · intro name s held
    refine longest s (List.mem_append_right _ (List.mem_filterMap.mpr ⟨(name, .str s), ?_, rfl⟩))
    exact Table.get?_eq_some_iff.mp held

/-- **Texts grow by leaves only.** Every text that an expression gives, or one of the expressions
inside it, has at most as many bytes as its leaves times the longest text of the expression and the
table, or times `2 ^ 20` if that is more. A text repeated by an integer or a boolean, on either
side of it, overflows exactly if the result had more than `2 ^ 20` bytes; else the result is as many
copies of the text, and no copy if the number is not positive. -/
theorem texts_bounded_by_leaves (t : Table Value) :
    (∀ e : Expr, ∀ part ∈ e.parts, ∀ text, part.eval t.get? = .ok (.str text) →
      text.utf8ByteSize ≤ part.leafCount * e.longestText t) ∧
    ∀ (lhs rhs : Expr) (a b v : Value) (s : String) (times : Int64),
      lhs.eval t.get? = .ok a → rhs.eval t.get? = .ok b → v.number? = some (.int times) →
      a = .str s ∧ b = v ∨ a = v ∧ b = .str s →
      let repeated := (Expr.binary (.arith .mul) lhs rhs).eval t.get?
      (repeated = .error .overflow ↔ (2 ^ 20 : Int) < s.utf8ByteSize * max times.toInt 0) ∧
        ((s.utf8ByteSize * max times.toInt 0 : Int) ≤ 2 ^ 20 →
          repeated = .ok (.str (String.join (List.replicate times.toInt.toNat s)))) ∧
        (times ≤ 0 → repeated = .ok (.str "")) := by
  constructor
  · intro e part inside text given
    exact Expr.utf8ByteSize_part_le inside given
  · intro lhs rhs a b v s times left right counts operands repeated
    have value : repeated = Eval.replicated s times := by
      simp only [repeated, Expr.eval, left, right, Eval.binary_mul_text counts operands]
    rw [value, Eval.replicated_eq_ite]
    refine ⟨by simp, fun small => if_neg (Int.not_lt.mpr small), fun negative => ?_⟩
    have below : times.toInt ≤ 0 := by simpa [Int64.le_iff_toInt_le] using negative
    rw [Int.max_eq_right below, Int.toNat_of_nonpos below, Int.mul_zero, if_neg (by decide)]
    rfl

/-- A joined repetition stays far below the bound for its three leaves, and a repetition reaches
the largest size and not a byte more. -/
theorem texts_bounded_by_leaves_repetition :
    let t : Table Value := .ofList [("x", .str "é"), ("n", .int 524288)]
    let once : Expr := .binary (.arith .mul) (.bool true) (.var "x")
    let joined : Expr := .binary (.arith .add) (.str "ab") once
    (∃ text, joined.eval t.get? = .ok (.str text) ∧ text.utf8ByteSize ≤ 3 * 2 ^ 20) ∧
      (Expr.binary (.arith .mul) (.var "n") (.var "x")).eval t.get? =
        .ok (.str (String.join (List.replicate 524288 "é"))) ∧
      (Expr.binary (.arith .mul) (.var "x") (.int 524289)).eval t.get? = .error .overflow := by
  intro t once joined
  have x : (Expr.var "x").eval t.get? = .ok (.str "é") := by decide +kernel
  have n : (Expr.var "n").eval t.get? = .ok (.int 524288) := by decide +kernel
  have size : ("é".utf8ByteSize : Int) = 2 := by decide +kernel
  obtain ⟨bounded, repeats⟩ := texts_bounded_by_leaves t
  refine ⟨⟨"abé", by decide +kernel, ?_⟩, ?_, ?_⟩
  · have longest : joined.longestText t = 2 ^ 20 := by decide +kernel
    rw [← longest]
    exact bounded joined joined List.mem_cons_self "abé" (by decide +kernel)
  · refine (repeats _ _ _ _ _ "é" 524288 n x rfl (.inr ⟨rfl, rfl⟩)).2.1 ?_
    rw [size]
    decide
  · refine (repeats _ _ _ _ _ "é" 524289 x rfl rfl (.inl ⟨rfl, rfl⟩)).1.mpr ?_
    rw [size]
    decide

end Linewise
