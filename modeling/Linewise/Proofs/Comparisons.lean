import Linewise.Proofs.DoubleOrder
import Linewise.Proofs.ExactIntegers
import Linewise.Proofs.FiniteValues

/-! Comparisons of values. On two texts and on two numbers all six operators follow one order of the
two operands, in both directions. Between numbers that order is exact if both are integers, and
otherwise the order of doubles, to which integers are rounded. So `==` is reflexive and symmetric
and `<=` total, but neither is transitive: a double equals all integers that are rounded to it. -/
namespace Linewise

/-! ## Numbers -/

namespace Number

/-- The order by which two numbers are compared. -/
def order (a b : Number) : Ordering :=
  match a, b with
  | .int x, .int y => compare x.toInt y.toInt
  | _, _ => compare (Double.value a.toDouble) (Double.value b.toDouble)

/-- What a comparison of two numbers comes down to: both are integers, or it is one of doubles. -/
theorem integers_or_doubles (a b : Number) :
    (∃ x y, a = .int x ∧ b = .int y) ∨
      a.order b = compare (Double.value a.toDouble) (Double.value b.toDouble) ∧
      b.order a = compare (Double.value b.toDouble) (Double.value a.toDouble) ∧
      Eval.orderNumbers a b = Eval.orderDoubles a.toDouble b.toDouble ∧
      Eval.sameNumber a b = a.toDouble.beq b.toDouble := by
  match a, b with
  | .int x, .int y => exact .inl ⟨x, y, rfl, rfl⟩
  | .int x, .float y => exact .inr ⟨rfl, rfl, rfl, rfl⟩
  | .float x, .int y => exact .inr ⟨rfl, rfl, rfl, rfl⟩
  | .float x, .float y => exact .inr ⟨rfl, rfl, rfl, rfl⟩

theorem order_swap (a b : Number) : b.order a = (a.order b).swap := by
  rcases integers_or_doubles a b with ⟨x, y, rfl, rfl⟩ | ⟨forward, backward, -⟩
  · exact Std.OrientedOrd.eq_swap
  · rw [forward, backward]
    exact Std.OrientedOrd.eq_swap

theorem order_self (a : Number) : a.order a = .eq := by
  cases a with
  | int x => exact compare_eq_iff_eq.mpr rfl
  | float x => exact compare_eq_iff_eq.mpr rfl

theorem natAbs_toInt_lt (x : Int64) : x.toInt.natAbs < 2 ^ 64 :=
  (Document.natAbs_toInt_le x).trans_lt (by decide)

theorem isFinite_toDouble {n : Number} (finite : n.IsFinite) : n.toDouble.isFinite = true := by
  cases n with
  | int x => exact Double.isFinite_ofInt (natAbs_toInt_lt x)
  | float x => exact isFinite_float.mp finite

/-- Numbers in order are rounded to doubles in order. -/
theorem value_le_of_order {a b : Number} (le : a.order b ≠ .gt) :
    Double.value a.toDouble ≤ Double.value b.toDouble := by
  rcases integers_or_doubles a b with ⟨x, y, rfl, rfl⟩ | ⟨forward, -⟩
  · have exact : x.toInt ≤ y.toInt := compare_le_iff_le.mp le
    exact Double.value_ofInt_mono exact (natAbs_toInt_lt x) (natAbs_toInt_lt y)
  · rw [forward] at le
    exact compare_le_iff_le.mp le

/-- If two numbers are rounded to doubles in order without being in order, then they are integers:
nothing else is rounded. -/
theorem integers_of_order_gt {a b : Number}
    (rounded : Double.value a.toDouble ≤ Double.value b.toDouble) (more : a.order b = .gt) :
    ∃ x y, a = .int x ∧ b = .int y ∧ y < x := by
  rcases integers_or_doubles a b with ⟨x, y, rfl, rfl⟩ | ⟨forward, -⟩
  · exact ⟨x, y, rfl, rfl, Int64.lt_iff_toInt_lt.mpr (compare_gt_iff_gt.mp more)⟩
  · rw [forward] at more
    exact absurd more (compare_le_iff_le.mpr rounded)

/-- Two integers in the wrong order, and between them a double to which both are rounded. -/
def Merges (a b c : Number) : Prop :=
  ∃ x y z, a = .int x ∧ b = .float y ∧ c = .int z ∧ z < x ∧
    (Double.ofInt x.toInt).beq y = true ∧ (Double.ofInt z.toInt).beq y = true

theorem beq_ofInt_iff (x : Int64) {y : Float} (finite : y.isFinite = true) :
    (Double.ofInt x.toInt).beq y = true ↔ Double.value (Double.ofInt x.toInt) = Double.value y :=
  Double.beq_iff_value (Double.isFinite_ofInt (natAbs_toInt_lt x)) finite

/-- Merged integers are equal to the double, but not to each other. -/
theorem Merges.order_eq {a b c : Number} (finite : b.IsFinite) (merges : Merges a b c) :
    a.order b = .eq ∧ b.order c = .eq ∧ a.order c = .gt := by
  obtain ⟨x, y, z, rfl, rfl, rfl, less, left, right⟩ := merges
  have double := isFinite_float.mp finite
  rw [beq_ofInt_iff x double] at left
  rw [beq_ofInt_iff z double] at right
  refine ⟨compare_eq_iff_eq.mpr left, compare_eq_iff_eq.mpr right.symm, ?_⟩
  exact compare_gt_iff_gt.mpr (Int64.lt_iff_toInt_lt.mp less)

/-- The order is not transitive exactly where integers are merged in a double. -/
theorem not_transitive_iff {a b c : Number} (finite : b.IsFinite) :
    (a.order b ≠ .gt ∧ b.order c ≠ .gt ∧ a.order c = .gt) ↔ Merges a b c := by
  constructor
  · rintro ⟨first, second, more⟩
    have left := value_le_of_order first
    have right := value_le_of_order second
    obtain ⟨x, z, rfl, rfl, less⟩ := integers_of_order_gt (left.trans right) more
    have exact := Int64.lt_iff_toInt_lt.mp less
    cases b with
    | int y =>
      -- Between integers alone the order is exact.
      have low : x.toInt ≤ y.toInt := compare_le_iff_le.mp first
      have high : y.toInt ≤ z.toInt := compare_le_iff_le.mp second
      omega
    | float y =>
      -- Rounding turns the order of the two integers round, but it cannot: all three are equal.
      have back := Double.value_ofInt_mono exact.le (natAbs_toInt_lt z) (natAbs_toInt_lt x)
      have double := isFinite_float.mp finite
      refine ⟨x, y, z, rfl, rfl, rfl, less, ?_, ?_⟩
      · rw [beq_ofInt_iff x double]
        exact le_antisymm left (right.trans back)
      · rw [beq_ofInt_iff z double]
        exact le_antisymm (back.trans left) right
  · intro merges
    obtain ⟨first, second, more⟩ := merges.order_eq finite
    exact ⟨by simp [first], by simp [second], more⟩

/-- Equality is not transitive exactly where integers are merged in a double. -/
theorem equality_not_transitive_iff {a b c : Number} (finite : b.IsFinite) :
    (a.order b = .eq ∧ b.order c = .eq ∧ a.order c ≠ .eq) ↔ Merges a b c ∨ Merges c b a := by
  constructor
  · rintro ⟨first, second, apart⟩
    cases more : a.order c with
    | eq => exact absurd more apart
    | gt =>
      left
      exact (not_transitive_iff finite).mp ⟨by simp [first], by simp [second], more⟩
    | lt =>
      right
      refine (not_transitive_iff finite).mp ⟨?_, ?_, ?_⟩
      · simp [order_swap b c, second]
      · simp [order_swap a b, first]
      · simp [order_swap a c, more]
  · rintro (merges | merges)
    · obtain ⟨first, second, more⟩ := merges.order_eq finite
      exact ⟨first, second, by simp [more]⟩
    · obtain ⟨second, first, more⟩ := merges.order_eq finite
      rw [order_swap b a, order_swap c b, order_swap c a, first, second, more]
      simp

/-- The number itself, before any rounding. -/
def amount : Number → ℚ
  | .int n => n.toInt
  | .float x => Double.value x

/-- A number that is no integer, or one of at most `2 ^ 53` in size. -/
def Narrow (n : Number) : Prop :=
  ∀ m, n = .int m → m.toInt.natAbs ≤ 2 ^ 53

theorem Narrow.value_eq {n : Number} (narrow : n.Narrow) : Double.value n.toDouble = n.amount := by
  cases n with
  | int m => exact Double.value_ofInt_exact (narrow m rfl)
  | float x => rfl

/-- Numbers are compared as such, if both are integers or neither is rounded. -/
theorem order_eq_compare {a b : Number}
    (exact : (∃ x y, a = .int x ∧ b = .int y) ∨ a.Narrow ∧ b.Narrow) :
    a.order b = compare a.amount b.amount := by
  have words (x y : Int64) : (Number.int x).order (.int y) = compare (x.toInt : ℚ) y.toInt := by
    have same := (Int.cast_strictMono (R := ℚ)).cmp_map_eq x.toInt y.toInt
    rw [cmp_eq_compare, cmp_eq_compare] at same
    exact same.symm
  rcases exact with ⟨x, y, rfl, rfl⟩ | ⟨left, right⟩
  · exact words x y
  · rcases integers_or_doubles a b with ⟨x, y, rfl, rfl⟩ | ⟨forward, -⟩
    · exact words x y
    · rw [forward, left.value_eq, right.value_eq]

end Number

/-! ## Operators -/

namespace Eval

theorem orderDoubles_eq {x y : Float} (left : x.isFinite = true) (right : y.isFinite = true) :
    orderDoubles x y = some (compare (Double.value x) (Double.value y)) := by
  unfold orderDoubles
  simp only [Double.lt_iff_value left right, Double.beq_iff_value left right,
    Double.lt_iff_value right left]
  rcases lt_trichotomy (Double.value x) (Double.value y) with less | same | more
  · rw [if_pos less, compare_lt_iff_lt.mpr less]
  · rw [if_neg same.not_lt, if_pos same, compare_eq_iff_eq.mpr same]
  · rw [if_neg more.not_gt, if_neg more.ne', if_pos more, compare_gt_iff_gt.mpr more]

section Numbers

variable {a b : Number} (left : a.IsFinite) (right : b.IsFinite)
include left right

theorem orderNumbers_eq : orderNumbers a b = some (a.order b) := by
  rcases Number.integers_or_doubles a b with ⟨x, y, rfl, rfl⟩ | ⟨forward, -, doubles, -⟩
  · rfl
  · rw [forward, doubles]
    exact orderDoubles_eq (Number.isFinite_toDouble left) (Number.isFinite_toDouble right)

theorem sameNumber_eq : sameNumber a b = (a.order b == .eq) := by
  rw [Bool.eq_iff_iff, beq_iff_eq]
  rcases Number.integers_or_doubles a b with ⟨x, y, rfl, rfl⟩ | ⟨forward, -, -, doubles⟩
  · rw [sameNumber, beq_iff_eq, Number.order, compare_eq_iff_eq]
    exact Int64.toInt_inj.symm
  · rw [forward, doubles, compare_eq_iff_eq]
    exact Double.beq_iff_value (Number.isFinite_toDouble left) (Number.isFinite_toDouble right)

end Numbers

theorem orderTexts_swap (s t : String) : orderTexts t s = (orderTexts s t).swap := by
  unfold orderTexts
  rcases lt_trichotomy s t with less | rfl | more
  · rw [if_neg less.not_gt, if_neg less.ne', if_pos less]
    rfl
  · rw [if_neg (lt_irrefl s), if_pos rfl]
    rfl
  · rw [if_pos more, if_neg more.not_gt, if_neg more.ne']
    rfl

theorem beq_eq_orderTexts (s t : String) : (s == t) = (orderTexts s t == .eq) := by
  rw [Bool.eq_iff_iff, beq_iff_eq, beq_iff_eq]
  unfold orderTexts
  rcases lt_trichotomy s t with less | rfl | more
  · simp [less, less.ne]
  · simp
  · simp [more.not_gt, more.ne']

/-- All comparisons of two values give the answers that belong to one order of the two. -/
structure Compares (a b : Value) (o : Ordering) : Prop where
  same : equal a b = (o == .eq)
  follows : ∀ op, ordered op a b = .ok (accepts op o)

theorem compares_texts (s t : String) : Compares (.str s) (.str t) (orderTexts s t) where
  same := beq_eq_orderTexts s t
  follows _ := rfl

theorem compares_numbers {a b : Value} {j k : Number} (left : a.number? = some j)
    (right : b.number? = some k) (first : j.IsFinite) (second : k.IsFinite) :
    Compares a b (j.order k) where
  same := by
    unfold equal
    split
    · cases left
    · simp only [left, right]
      exact sameNumber_eq first second
  follows op := by
    unfold ordered
    split
    · cases left
    · simp only [left, right, orderNumbers_eq first second, Option.any_some]

end Eval

/-- An integer, a truth value or a finite double. -/
def Value.IsNumeric (v : Value) : Prop :=
  v.kind ≠ .str ∧ v.IsFinite

/-- Two texts or two numbers. -/
def Value.Comparable (a b : Value) : Prop :=
  a.kind = .str ∧ b.kind = .str ∨ a.IsNumeric ∧ b.IsNumeric

theorem Value.IsNumeric.exists_number {v : Value} (numeric : v.IsNumeric) :
    ∃ k, v.number? = some k ∧ k.IsFinite := by
  obtain ⟨kind, finite⟩ := numeric
  cases found : v.number? with
  | some k => exact ⟨k, rfl, Value.isFinite_number? finite found⟩
  | none =>
    cases v with
    | str s => exact absurd rfl kind
    | int n => cases found
    | float x => cases found
    | bool b => cases found

namespace Eval

theorem exists_compares {a b : Value} (comparable : a.Comparable b) :
    ∃ o, Compares a b o ∧ Compares b a o.swap := by
  rcases comparable with ⟨left, right⟩ | ⟨left, right⟩
  · cases a with
    | str s =>
      cases b with
      | str t =>
        refine ⟨_, compares_texts s t, ?_⟩
        rw [← orderTexts_swap]
        exact compares_texts t s
      | _ => cases right
    | _ => cases left
  · obtain ⟨j, first, finite⟩ := left.exists_number
    obtain ⟨k, second, finite'⟩ := right.exists_number
    refine ⟨_, compares_numbers first second finite finite', ?_⟩
    rw [← Number.order_swap]
    exact compares_numbers second first finite' finite

/-- A comparison is true. -/
def Holds (op : BinaryOp) (a b : Value) : Prop :=
  binary op a b = .ok (.bool true)

instance (op : BinaryOp) (a b : Value) : Decidable (Holds op a b) :=
  inferInstanceAs (Decidable (_ = _))

/-- Two comparisons have truth values, and opposite ones. -/
def Opposite (first second : Except EvalError Value) : Prop :=
  ∃ t, first = .ok (.bool t) ∧ second = .ok (.bool !t)

section Compares

variable {a b : Value} {o : Ordering} (compares : Compares a b o)
include compares

theorem Compares.equal_eq : binary .equal a b = .ok (.bool (o == .eq)) := by
  rw [binary, compares.same]

theorem Compares.notEqual_eq : binary .notEqual a b = .ok (.bool (o != .eq)) := by
  rw [binary, compares.same]
  rfl

theorem Compares.order_eq (op : OrderOp) :
    binary (.order op) a b = .ok (.bool (accepts op o)) := by
  rw [binary, compares.follows]

theorem Compares.holds_equal_iff : Holds .equal a b ↔ o = .eq := by
  rw [Holds, compares.equal_eq]
  simp

theorem Compares.holds_lessEq_iff : Holds (.order .lessEq) a b ↔ o ≠ .gt := by
  rw [Holds, compares.order_eq]
  simp [accepts]

end Compares

/-- A text and a number are different, and have no order. -/
theorem equal_ordered_of_unrelated {a b : Value} (unrelated : ¬ (a.kind = .str ↔ b.kind = .str)) :
    equal a b = false ∧ ∀ op, ordered op a b = .error (.operands (.order op) a.kind b.kind) := by
  cases a with
  | str s =>
    cases b with
    | str t => exact absurd Iff.rfl unrelated
    | _ => exact ⟨rfl, fun _ => rfl⟩
  | _ =>
    cases b with
    | str t => exact ⟨rfl, fun _ => rfl⟩
    | _ => simp [Value.kind] at unrelated

/-- Exactly one of three comparisons is true. -/
theorem Compares.existsUnique {a b : Value} {o : Ordering} (compares : Compares a b o) :
    ∃! op, op ∈ [.order .less, .equal, .order .greater] ∧ Holds op a b := by
  have less : Holds (.order .less) a b ↔ o = .lt := by
    rw [Holds, compares.order_eq]
    simp [accepts]
  have greater : Holds (.order .greater) a b ↔ o = .gt := by
    rw [Holds, compares.order_eq]
    simp [accepts]
  have same := compares.holds_equal_iff
  cases o with
  | lt =>
    refine ⟨.order .less, ?_, ?_⟩ <;> simp_all
  | eq =>
    refine ⟨.equal, ?_, ?_⟩ <;> simp_all
  | gt =>
    refine ⟨.order .greater, ?_, ?_⟩ <;> simp_all

/-- **The comparison operators agree with each other.** Of two texts or two numbers exactly one of
`<`, `==` and `>` is true; `<=`, `>=` and `!=` are the opposites of `>`, `<` and `==`; and the
operands can be exchanged. A text and a number are different, and their order is an error that
names the operator and the kinds of the operands. -/
theorem comparisons_agree (a b : Value) :
    (a.Comparable b →
      (∃! op, op ∈ [.order .less, .equal, .order .greater] ∧ Holds op a b) ∧
      Opposite (binary (.order .lessEq) a b) (binary (.order .greater) a b) ∧
      Opposite (binary (.order .greaterEq) a b) (binary (.order .less) a b) ∧
      Opposite (binary .notEqual a b) (binary .equal a b) ∧
      binary (.order .less) a b = binary (.order .greater) b a ∧
      binary .equal a b = binary .equal b a) ∧
    (¬ (a.kind = .str ↔ b.kind = .str) →
      binary .equal a b = .ok (.bool false) ∧ binary .notEqual a b = .ok (.bool true) ∧
      ∀ op, ∃ e, binary (.order op) a b = .error e ∧ e = .operands (.order op) a.kind b.kind ∧
        e.message = "unsupported operand type(s) for " ++ op.symbol ++ ": '" ++ a.kind.name ++
          "' and '" ++ b.kind.name ++ "'") := by
  constructor
  · intro comparable
    obtain ⟨o, compares, reversed⟩ := exists_compares comparable
    refine ⟨compares.existsUnique, ?_, ?_, ?_, ?_, ?_⟩
    · refine ⟨_, compares.order_eq .lessEq, ?_⟩
      rw [compares.order_eq]
      cases o <;> rfl
    · refine ⟨_, compares.order_eq .greaterEq, ?_⟩
      rw [compares.order_eq]
      cases o <;> rfl
    · refine ⟨_, compares.notEqual_eq, ?_⟩
      rw [compares.equal_eq]
      cases o <;> rfl
    · rw [compares.order_eq, reversed.order_eq]
      cases o <;> rfl
    · rw [compares.equal_eq, reversed.equal_eq]
      cases o <;> rfl
  · intro unrelated
    obtain ⟨different, disordered⟩ := equal_ordered_of_unrelated unrelated
    refine ⟨by rw [binary, different], by rw [binary, different]; rfl, fun op => ?_⟩
    refine ⟨_, ?_, rfl, rfl⟩
    rw [binary, disordered]

/-- The negative zero is equal to `false`; a text has no order with a number that it spells. -/
theorem comparisons_agree_negative_zero :
    let zero : Value := .float (-0.0)
    zero.Comparable (.bool false) ∧ binary .equal zero (.bool false) = .ok (.bool true) ∧
      binary .equal (.bool false) zero = .ok (.bool true) ∧
      Opposite (binary (.order .lessEq) zero (.bool false))
        (binary (.order .greater) zero (.bool false)) ∧
      ∃ e, binary (.order .less) (.str "1") (.int 1) = .error e ∧
        e.message = "unsupported operand type(s) for <: 'str' and 'int'" := by
  intro zero
  have finite : zero.IsFinite := Value.isFinite_float.mpr (by decide +kernel)
  have comparable : zero.Comparable (.bool false) :=
    .inr ⟨⟨by decide, finite⟩, ⟨by decide, by simp⟩⟩
  obtain ⟨-, opposite, -, -, -, exchanged⟩ := (comparisons_agree zero (.bool false)).1 comparable
  obtain ⟨-, -, disordered⟩ := (comparisons_agree (.str "1") (.int 1)).2 (by decide)
  obtain ⟨e, failed, -, text⟩ := disordered .less
  have same : binary .equal zero (.bool false) = .ok (.bool true) := by decide +kernel
  exact ⟨comparable, same, exchanged ▸ same, opposite, e, failed, by rw [text]; decide⟩

end Eval

/-! ## Transitivity -/

namespace Value

/-- Two values that stand for integers in the wrong order, and between them a double to which both
are rounded. -/
def Merges (a b c : Value) : Prop :=
  ∃ i j k, a.number? = some i ∧ b.number? = some j ∧ c.number? = some k ∧ i.Merges j k

theorem merges_iff {a b c : Value} {i j k : Number} (left : a.number? = some i)
    (middle : b.number? = some j) (right : c.number? = some k) :
    a.Merges b c ↔ i.Merges j k := by
  constructor
  · rintro ⟨i', j', k', left', middle', right', merges⟩
    cases left.symm.trans left'
    cases middle.symm.trans middle'
    cases right.symm.trans right'
    exact merges
  · intro merges
    exact ⟨i, j, k, left, middle, right, merges⟩

/-- The number that a value stands for. -/
def amount? (v : Value) : Option ℚ :=
  v.number?.map Number.amount

/-- A value that stands for no integer, or for one of at most `2 ^ 53` in size. -/
def Narrow (v : Value) : Prop :=
  ∀ k, v.number? = some k → k.Narrow

/-- No double is compared, or no integer that is rounded to one. -/
def Unrounded (a b : Value) : Prop :=
  a.kind ≠ .float ∧ b.kind ≠ .float ∨ a.Narrow ∧ b.Narrow

theorem exists_integer {v : Value} {k : Number} (number : v.number? = some k)
    (other : v.kind ≠ .float) : ∃ x, k = .int x := by
  cases v with
  | int n =>
    cases number
    exact ⟨n, rfl⟩
  | bool b =>
    cases number
    exact ⟨_, rfl⟩
  | float x => exact absurd rfl other
  | str s => cases number

theorem Unrounded.order_eq {a b : Value} {j k : Number} (unrounded : a.Unrounded b)
    (left : a.number? = some j) (right : b.number? = some k) :
    j.order k = compare j.amount k.amount := by
  apply Number.order_eq_compare
  rcases unrounded with ⟨first, second⟩ | ⟨first, second⟩
  · obtain ⟨x, rfl⟩ := exists_integer left first
    obtain ⟨y, rfl⟩ := exists_integer right second
    exact .inl ⟨x, y, rfl, rfl⟩
  · exact .inr ⟨first j left, second k right⟩

end Value

namespace Eval

/-- **Numbers compare consistently unless integers are rounded.** Among integers, truth values and
finite doubles `==` is reflexive and symmetric, and `<=` total. The one is not transitive exactly if
two different integers are rounded to the double between them, and the other exactly if moreover
the larger integer comes first. If neither operand is a double, or if no integer is above `2 ^ 53`
in size, both operators compare the numbers themselves. -/
theorem numbers_compared (a b c : Value) (left : a.IsNumeric) (middle : b.IsNumeric)
    (right : c.IsNumeric) :
    Holds .equal a a ∧ (Holds .equal a b → Holds .equal b a) ∧
      (Holds (.order .lessEq) a b ∨ Holds (.order .lessEq) b a) ∧
      (Holds .equal a b ∧ Holds .equal b c ∧ ¬ Holds .equal a c ↔ a.Merges b c ∨ c.Merges b a) ∧
      (Holds (.order .lessEq) a b ∧ Holds (.order .lessEq) b c ∧ ¬ Holds (.order .lessEq) a c ↔
        a.Merges b c) ∧
      (a.Unrounded b → ∃ p q, a.amount? = some p ∧ b.amount? = some q ∧
        (Holds .equal a b ↔ p = q) ∧ (Holds (.order .lessEq) a b ↔ p ≤ q)) := by
  obtain ⟨i, first, finite⟩ := left.exists_number
  obtain ⟨j, second, finite'⟩ := middle.exists_number
  obtain ⟨k, third, finite''⟩ := right.exists_number
  have ab := compares_numbers first second finite finite'
  have ba := compares_numbers second first finite' finite
  have bc := compares_numbers second third finite' finite''
  have ac := compares_numbers first third finite finite''
  refine ⟨?_, ?_, ?_, ?_, ?_, ?_⟩
  · rw [(compares_numbers first first finite finite).holds_equal_iff]
    exact Number.order_self i
  · rw [ab.holds_equal_iff, ba.holds_equal_iff, Number.order_swap i j]
    intro same
    rw [same]
    rfl
  · rw [ab.holds_lessEq_iff, ba.holds_lessEq_iff, Number.order_swap i j]
    cases i.order j <;> simp
  · rw [ab.holds_equal_iff, bc.holds_equal_iff, ac.holds_equal_iff,
      Value.merges_iff first second third, Value.merges_iff third second first]
    exact Number.equality_not_transitive_iff finite'
  · rw [ab.holds_lessEq_iff, bc.holds_lessEq_iff, ac.holds_lessEq_iff,
      Value.merges_iff first second third, not_not]
    exact Number.not_transitive_iff finite'
  · intro unrounded
    have order := unrounded.order_eq first second
    refine ⟨i.amount, j.amount, by simp [Value.amount?, first], by simp [Value.amount?, second],
      ?_, ?_⟩
    · rw [ab.holds_equal_iff, order, compare_eq_iff_eq]
    · rw [ab.holds_lessEq_iff, order, compare_le_iff_le]

/-- The double `2 ^ 53` equals the next integer too, but not the one before it, with which it is
compared exactly. -/
theorem numbers_compared_neighbours :
    let above : Value := .int 9007199254740993
    let double : Value := .float 9007199254740992.0
    let below : Value := .int 9007199254740991
    (above.IsNumeric ∧ double.IsNumeric ∧ below.IsNumeric) ∧ Holds .equal above double ∧
      ¬ above.Merges double below ∧ below.Unrounded double ∧
      ∃ p q, below.amount? = some p ∧ double.amount? = some q ∧
        (Holds (.order .lessEq) below double ↔ p ≤ q) := by
  intro above double below
  have finite : double.IsFinite := Value.isFinite_float.mpr (by decide +kernel)
  have numeric : above.IsNumeric ∧ double.IsNumeric ∧ below.IsNumeric :=
    ⟨⟨by decide, by simp [above]⟩, ⟨by decide, finite⟩, ⟨by decide, by simp [below]⟩⟩
  have same : Holds .equal above double := by decide +kernel
  have apart : ¬ Holds (.order .lessEq) double below := by decide +kernel
  have narrow : below.Unrounded double := by
    refine .inr ⟨?_, ?_⟩
    · rintro _ ⟨⟩ _ ⟨⟩
      decide
    · rintro _ ⟨⟩ _ ⟨⟩
  refine ⟨numeric, same, fun merges => ?_, narrow, ?_⟩
  · obtain ⟨-, -, -, -, transitive, -⟩ :=
      numbers_compared above double below numeric.1 numeric.2.1 numeric.2.2
    exact apart (transitive.mpr merges).2.1
  · obtain ⟨-, -, -, -, -, compared⟩ :=
      numbers_compared below double above numeric.2.2 numeric.2.1 numeric.1
    obtain ⟨p, q, first, second, -, ordered⟩ := compared narrow
    exact ⟨p, q, first, second, ordered⟩

/-- Two integers that are equal to one double, though not to each other. -/
theorem integers_equal_to_one_double :
    let first : Value := .int 9007199254740993
    let double : Value := .float 9007199254740992.0
    let second : Value := .int 9007199254740992
    (first.IsNumeric ∧ double.IsNumeric ∧ second.IsNumeric) ∧
      (Holds .equal first double ∧ Holds .equal double second ∧ ¬ Holds .equal first second) ∧
      Holds (.order .lessEq) first double ∧ Holds (.order .lessEq) double second ∧
      ¬ Holds (.order .lessEq) first second := by
  intro first double second
  have finite : double.IsFinite := Value.isFinite_float.mpr (by decide +kernel)
  refine ⟨⟨⟨by decide, by simp [first]⟩, ⟨by decide, finite⟩, ⟨by decide, by simp [second]⟩⟩, ?_⟩
  decide +kernel

end Eval

end Linewise
