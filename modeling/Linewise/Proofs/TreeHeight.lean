import Mathlib.Algebra.Group.Nat.Defs
import Mathlib.Order.Bounds.Defs
import Linewise.Proofs.DepthCounter

/-! How tall the trees of accepted expressions are. The budget is charged along the tokens, but a
finished chain gives its levels back although it becomes the left operand of what follows, and
comparisons and the base of a power are not charged at all. So the height of a tree can exceed the
budget. The height is computed from the derivation, the largest height within a budget is given
exactly, and it is attained. The machine with a counter is entered at some depth and has the rest of
the budget, so the same holds of each of its depths. -/
namespace Linewise
open Linewise.Parser

/-- The largest number of operators on a path from the root of a tree to a leaf. -/
def Expr.height : Expr → Nat
  | .int _ => 0
  | .float _ => 0
  | .bool _ => 0
  | .str _ => 0
  | .var _ => 0
  | .unary _ operand => 1 + operand.height
  | .binary _ lhs rhs => 1 + max lhs.height rhs.height
  | .conj lhs rhs => 1 + max lhs.height rhs.height
  | .disj lhs rhs => 1 + max lhs.height rhs.height

namespace Grammar

mutual

/-- The levels of operators that a derivation puts on top of each other: like the need, but
brackets are free, and every binary operator stands above all that is to its left. -/
def Derivation.levels : {level : Level} → Derivation level → Nat
  | _, .leaf _ _ _ => 0
  | _, .parens inner => inner.levels
  | _, .bare base => base.levels
  | _, .raised base exponent => 1 + max base.levels exponent.levels
  | _, .unsigned operand => operand.levels
  | _, .signed _ _ _ operand => 1 + operand.levels
  | _, .single lhs => lhs.levels
  | _, .compared lhs _ _ _ rhs => 1 + max lhs.levels rhs.levels
  | _, .affirmed operand => operand.levels
  | _, .negated _ _ operand => 1 + operand.levels
  | _, .chain _ first links => links.levels first.levels

/-- The levels of a chain whose part before the links has `lower` levels. -/
def Links.levels : {level inner : Level} → Links level inner → Nat → Nat
  | _, _, .done, lower => lower
  | _, _, .link _ _ _ operand more, lower => more.levels (1 + max lower operand.levels)

end

theorem Denotes.height_eq {token : Token} {e : Expr} (denotes : Denotes token e) :
    e.height = 0 := by
  cases denotes <;> rfl

theorem Joins.height_eq {level : Level} {token : Token} {join : Expr → Expr → Expr}
    (joins : Joins level token join) (lhs rhs : Expr) :
    (join lhs rhs).height = 1 + max lhs.height rhs.height := by
  cases joins <;> rfl

mutual

/-- The levels of a derivation are the height of its tree. -/
theorem Derivation.height_tree {level : Level} (d : Derivation level) :
    d.tree.height = d.levels := by
  match d with
  | .leaf token e denotes => exact denotes.height_eq
  | .parens inner => exact inner.height_tree
  | .bare base => exact base.height_tree
  | .raised base exponent =>
    simp only [Derivation.tree, Derivation.levels, Expr.height, base.height_tree,
      exponent.height_tree]
  | .unsigned operand => exact operand.height_tree
  | .signed token op signs operand =>
    simp only [Derivation.tree, Derivation.levels, Expr.height, operand.height_tree]
  | .single lhs => exact lhs.height_tree
  | .compared lhs token op compares rhs =>
    simp only [Derivation.tree, Derivation.levels, Expr.height, lhs.height_tree, rhs.height_tree]
  | .affirmed operand => exact operand.height_tree
  | .negated token negates operand =>
    simp only [Derivation.tree, Derivation.levels, Expr.height, operand.height_tree]
  | .chain chains first links =>
    simp only [Derivation.tree, Derivation.levels, ← first.height_tree]
    exact links.height_tree first.tree

theorem Links.height_tree {level inner : Level} (links : Links level inner) (lhs : Expr) :
    (links.tree lhs).height = links.levels lhs.height := by
  match links with
  | .done => rfl
  | .link token join joins operand more =>
    simp only [Links.tree, Links.levels]
    rw [more.height_tree, joins.height_eq, operand.height_tree]

end

/-! ## The largest height -/

/-- The largest height of an expression of a level within a budget. -/
def ceiling (level : Level) (budget : Nat) : Nat :=
  match level with
  | .atom => 2 * budget ^ 2 - 1
  | .power => 2 * budget ^ 2
  | .sign => 2 * budget ^ 2
  | .prod => 2 * budget ^ 2 + budget
  | .sum => 2 * budget ^ 2 + 2 * budget
  | .cmp => 2 * budget ^ 2 + 2 * budget + 1
  | .neg => 2 * budget ^ 2 + 2 * budget + 1
  | .conj => 2 * budget ^ 2 + 3 * budget + 1
  | .disj => 2 * budget ^ 2 + 4 * budget + 1

/-- A chain of operators can add the whole budget to the height of its first operand. -/
theorem Chains.ceiling_eq {level inner : Level} (chains : Chains level inner) (budget : Nat) :
    ceiling level budget = ceiling inner budget + budget := by
  cases chains <;> simp only [ceiling] <;> omega

/-- The levels that pay for an operand leave room for one more operator above it. -/
theorem ceiling_succ (less : Nat) :
    ceiling .disj less ≤ ceiling .atom (less + 1) ∧
    1 + ceiling .atom (less + 1) ≤ ceiling .power (less + 1) ∧
    1 + ceiling .sign less ≤ ceiling .sign (less + 1) ∧
    1 + ceiling .neg less ≤ ceiling .neg (less + 1) := by
  simp only [ceiling]
  grind

theorem ceiling_mono (level : Level) {less budget : Nat} (small : less ≤ budget) :
    ceiling level less ≤ ceiling level budget := by
  have squares : less ^ 2 ≤ budget ^ 2 := Nat.pow_le_pow_left small 2
  cases level <;> simp only [ceiling] <;> omega

mutual

/-- Within a budget no derivation has more levels than its ceiling. -/
theorem Derivation.levels_le {level : Level} (d : Derivation level) (budget : Nat)
    (enough : d.need ≤ budget) : d.levels ≤ ceiling level budget := by
  match d, budget with
  | .leaf token e denotes, _ => exact Nat.zero_le _
  | .parens inner, 0 => simp [Derivation.need] at enough
  | .parens inner, less + 1 =>
    simp only [Derivation.need] at enough
    exact Nat.le_trans (inner.levels_le less (by omega)) (ceiling_succ less).1
  | .bare base, budget =>
    have below := base.levels_le budget enough
    simp only [Derivation.levels, ceiling] at below ⊢
    omega
  | .raised base exponent, 0 =>
    simp only [Derivation.need] at enough
    omega
  | .raised base exponent, less + 1 =>
    simp only [Derivation.need] at enough
    have left := base.levels_le (less + 1) (by omega)
    have right := exponent.levels_le less (by omega)
    obtain ⟨-, above, signs, -⟩ := ceiling_succ less
    simp only [Derivation.levels, ceiling] at left right above signs ⊢
    omega
  | .unsigned operand, budget => exact operand.levels_le budget enough
  | .signed token op signs operand, 0 => simp [Derivation.need] at enough
  | .signed token op signs operand, less + 1 =>
    simp only [Derivation.need] at enough
    have below := operand.levels_le less (by omega)
    have room := (ceiling_succ less).2.2.1
    simp only [Derivation.levels]
    omega
  | .single lhs, budget => exact Nat.le_trans (lhs.levels_le budget enough) (Nat.le_succ _)
  | .compared lhs token op compares rhs, budget =>
    simp only [Derivation.need] at enough
    have left := lhs.levels_le budget (by omega)
    have right := rhs.levels_le budget (by omega)
    simp only [Derivation.levels, ceiling] at left right ⊢
    omega
  | .affirmed operand, budget => exact operand.levels_le budget enough
  | .negated token negates operand, 0 => simp [Derivation.need] at enough
  | .negated token negates operand, less + 1 =>
    simp only [Derivation.need] at enough
    have below := operand.levels_le less (by omega)
    have room := (ceiling_succ less).2.2.2
    simp only [Derivation.levels]
    omega
  | @Derivation.chain _ inner chains first links, budget =>
    simp only [Derivation.need] at enough
    have lower := first.levels_le budget (by omega)
    rw [chains.ceiling_eq]
    exact links.levels_le budget (ceiling inner budget) _ lower (Nat.le_refl _) (by omega)

/-- Links add at most one level each to what is higher: the part before them or one operand. -/
theorem Links.levels_le {level inner : Level} (links : Links level inner) (budget top lower : Nat)
    (below : lower ≤ top) (operands : ceiling inner budget ≤ top) (enough : links.need 1 ≤ budget) :
    links.levels lower ≤ top + budget := by
  match links, budget with
  | .done, budget => exact Nat.le_trans below (Nat.le_add_right _ _)
  | .link token join joins operand more, 0 =>
    simp only [Links.need] at enough
    omega
  | .link token join joins operand more, less + 1 =>
    simp only [Links.need] at enough
    have fewer : more.need 1 ≤ less := (more.need_succ_le 1 less).mp (by omega)
    have shrunk := ceiling_mono inner (Nat.le_add_right less 1)
    have operandBelow := operand.levels_le less (by omega)
    have later := more.levels_le less (top + 1) (1 + max lower operand.levels) (by omega) (by omega)
      fewer
    simp only [Links.levels]
    omega

end

/-! ## The largest height is attained -/

/-- The number one as an operand. -/
def one : Derivation .sign :=
  .unsigned (.bare (.leaf (.int 1) (.int 1) (.int 1)))

def Derivation.product (d : Derivation .sign) : Derivation .prod :=
  .chain .prod d .done

def Derivation.total (d : Derivation .sign) : Derivation .sum :=
  .chain .sum d.product .done

def Derivation.affirmation (d : Derivation .sign) : Derivation .neg :=
  .affirmed (.single d.total)

def Derivation.conjunct (d : Derivation .sign) : Derivation .conj :=
  .chain .conj d.affirmation .done

/-- The same link `count` times. -/
def Links.repeated {level inner : Level} {token : Token} {join : Expr → Expr → Expr}
    (joins : Joins level token join) (operand : Derivation inner) : Nat → Links level inner
  | 0 => .done
  | count + 1 => .link token join joins operand (repeated joins operand count)

section Repeated
variable {level inner : Level} {token : Token} {join : Expr → Expr → Expr}
  (joins : Joins level token join) (operand : Derivation inner)

theorem Links.tokens_repeated (count : Nat) :
    (Links.repeated joins operand count).tokens =
      (List.replicate count (token :: operand.tokens)).flatten := by
  induction count with
  | zero => rfl
  | succ count ih => simp [Links.repeated, Links.tokens, ih, List.replicate_succ]

theorem Links.need_repeated (free : operand.need = 0) (count : Nat) :
    (Links.repeated joins operand count).need 1 ≤ count := by
  induction count with
  | zero => exact Nat.le_refl _
  | succ count ih =>
    have later := ((Links.repeated joins operand count).need_succ_le 1 count).mpr ih
    simp only [Links.repeated, Links.need, free]
    omega

theorem Links.levels_repeated (flat : operand.levels = 0) (count lower : Nat) :
    (Links.repeated joins operand count).levels lower = lower + count := by
  induction count generalizing lower with
  | zero => rfl
  | succ count ih =>
    simp only [Links.repeated, Links.levels, flat, ih]
    omega

end Repeated

/-- An operand under as many operators as the budget allows, of every kind that does not charge
the operand to its left: products, sums, a comparison, conjunctions and disjunctions. -/
def crowned (budget : Nat) (d : Derivation .sign) : Derivation .disj :=
  .chain .disj
    (.chain .conj
      (.affirmed
        (.compared
          (.chain .sum (.chain .prod d (.repeated .mul one budget))
            (.repeated .add one.product budget))
          (.symbol .eq) .equal .equal one.total))
      (.repeated .andWord one.affirmation budget))
    (.repeated .orWord one.conjunct budget)

theorem need_crowned {budget : Nat} {d : Derivation .sign} (enough : d.need ≤ budget) :
    (crowned budget d).need ≤ budget := by
  have products := Links.need_repeated .mul one rfl budget
  have sums := Links.need_repeated .add one.product rfl budget
  have conjunctions := Links.need_repeated .andWord one.affirmation rfl budget
  have disjunctions := Links.need_repeated .orWord one.conjunct rfl budget
  have side : one.total.need = 0 := rfl
  simp only [crowned, Derivation.need, side]
  omega

theorem levels_crowned (budget : Nat) (d : Derivation .sign) :
    (crowned budget d).levels = d.levels + 4 * budget + 1 := by
  have side : one.total.levels = 0 := rfl
  simp only [crowned, Derivation.levels, side, Links.levels_repeated .mul one rfl,
    Links.levels_repeated .add one.product rfl, Links.levels_repeated .andWord one.affirmation rfl,
    Links.levels_repeated .orWord one.conjunct rfl]
  omega

/-- The tallest expression within a budget: the tallest one within a smaller budget, in brackets,
is the base of a power under a crown of operators. -/
def tallest : Nat → Derivation .disj
  | 0 => crowned 0 one
  | less + 1 => crowned (less + 1) (.unsigned (.raised (.parens (tallest less)) one))

theorem need_tallest (budget : Nat) : (tallest budget).need ≤ budget := by
  induction budget with
  | zero => exact need_crowned (Nat.zero_le _)
  | succ less ih =>
    have free : one.need = 0 := rfl
    apply need_crowned
    simp only [Derivation.need, free]
    omega

theorem levels_tallest (budget : Nat) : (tallest budget).levels = ceiling .disj budget := by
  induction budget with
  | zero => rfl
  | succ less ih =>
    have flat : one.levels = 0 := rfl
    simp only [tallest, levels_crowned, Derivation.levels, ih, flat, ceiling]
    grind

/-! ## Accepted expressions -/

/-- A tree that is read has at most 200 levels exactly if its tokens have a derivation with at most
200 levels, which the need does not imply; in any case it has at most
`2 * 200 ^ 2 + 4 * 200 + 1`. -/
theorem ofTokens_height {tokens : List Token} {e : Expr} (read : Expr.ofTokens tokens = .ok e) :
    (e.height ≤ 200 ↔ ∃ d : Derivation .disj, d.tokens = tokens ∧ d.levels ≤ 200) ∧
      e.height ≤ 80801 := by
  obtain ⟨d, rfl, rfl, need⟩ := exists_derivation read
  refine ⟨⟨fun low => ⟨d, rfl, d.height_tree ▸ low⟩, ?_⟩, ?_⟩
  · rintro ⟨other, same, low⟩
    have otherRead := ofTokens_tokens other
    rw [same, read] at otherRead
    split at otherRead
    · rw [Except.ok.inj otherRead, other.height_tree]
      exact low
    · cases otherRead
  · rw [d.height_tree]
    exact d.levels_le maxDepth need

/-- The bound on the height is attained, far above the budget. -/
theorem ofTokens_tallest :
    Expr.ofTokens (tallest 200).tokens = .ok (tallest 200).tree ∧
      (tallest 200).tree.height = 80801 ∧ (tallest 200).tree.height ≤ 80801 := by
  have read : Expr.ofTokens (tallest 200).tokens = .ok (tallest 200).tree :=
    (ofTokens_tokens _).trans (if_pos (need_tallest 200))
  exact ⟨read, (tallest 200).height_tree.trans (levels_tallest 200), (ofTokens_height read).2⟩

/-- A sum of 201 numbers, compared with a number, is accepted with 201 operators on one path. -/
theorem compared_sum_exceeds_budget :
    ∃ e, Expr.ofTokens (.int 1 :: (List.replicate 200 [.symbol .plus, .int 1]).flatten ++
      [.symbol .eq, .int 1]) = .ok e ∧ e.height = 201 := by
  let sum : Derivation .sum := .chain .sum one.product (.repeated .add one.product 200)
  let d : Derivation .disj :=
    .chain .disj (.chain .conj (.affirmed (.compared sum (.symbol .eq) .equal .equal one.total))
      .done) .done
  have tokens : d.tokens = .int 1 :: (List.replicate 200 [.symbol .plus, .int 1]).flatten ++
      [.symbol .eq, .int 1] := by
    simp only [d, sum, Derivation.tokens, Links.tokens, Links.tokens_repeated, List.append_nil]
    rfl
  have need : d.need ≤ 200 := by
    have sums := Links.need_repeated .add one.product rfl 200
    have free : one.product.need = 0 := rfl
    have side : one.total.need = 0 := rfl
    simp only [d, sum, Derivation.need, Links.need, free, side]
    omega
  have levels : d.levels = 201 := by
    simp only [d, sum, Derivation.levels, Links.levels, Links.levels_repeated .add one.product rfl]
    rfl
  refine ⟨d.tree, ?_, d.height_tree.trans levels⟩
  rw [← tokens]
  exact (ofTokens_tokens d).trans (if_pos need)

/-! ## Every depth -/

theorem ceiling_disj_succ (budget : Nat) : ceiling .disj budget + 1 = 2 * (budget + 1) ^ 2 := by
  simp only [ceiling]
  grind

/-- The tallest expression that the parser reads within a budget. Here a leaf counts as one. -/
theorem isGreatest_height_parse (budget : Nat) :
    IsGreatest {height | ∃ tokens e rest, parse budget .disj tokens = .ok (e, rest) ∧
      height = e.height + 1} (2 * (budget + 1) ^ 2) := by
  rw [← ceiling_disj_succ]
  constructor
  · have read := parse_tokens (tallest budget) budget [] (stops_nil _)
    rw [verdict_of_le _ _ (need_tallest budget)] at read
    refine ⟨_, _, _, read, ?_⟩
    rw [(tallest budget).height_tree, levels_tallest]
  · rintro height ⟨tokens, e, rest, read, rfl⟩
    obtain ⟨d, -, rfl, need⟩ := sound_all budget .disj _ _ _ read
    rw [d.height_tree]
    exact Nat.add_le_add_right (d.levels_le budget need) 1

/-- **The exact worst case.** Entered with the counter at any depth up to 200, the machine returns
the trees that the parser reads with the rest of the budget. They have a height of at most
`2 * (201 - depth) ^ 2`, where a leaf counts as one, and one of them has just this height. So the
tallest tree of all is `80802` high. -/
theorem isGreatest_height_at_depth {machine : Machine} (room : maxDepth < machine.capacity) :
    (∀ depth ≤ 200,
      (∀ tokens e,
        (∃ after, (machine.parse .disj).run ⟨tokens, depth⟩ = some (.ok (e, after))) ↔
          ∃ rest, parse (200 - depth) .disj tokens = .ok (e, rest)) ∧
      IsGreatest {height | ∃ tokens e rest, parse (200 - depth) .disj tokens = .ok (e, rest) ∧
        height = e.height + 1} (2 * (201 - depth) ^ 2)) ∧
    IsGreatest {height | ∃ tokens e, Expr.ofTokens tokens = .ok e ∧ height = e.height + 1}
      80802 := by
  constructor
  · intro depth shallow
    have fits : depth < machine.capacity := Nat.lt_of_le_of_lt shallow room
    have budget : 201 - depth = 200 - depth + 1 := Nat.succ_sub shallow
    refine ⟨fun tokens e => ⟨?_, ?_⟩, budget ▸ isGreatest_height_parse (200 - depth)⟩
    · rintro ⟨after, runs⟩
      exact ⟨after.tokens, ((Machine.run_parse_eq_ok_iff room fits).mp runs).2⟩
    · rintro ⟨rest, read⟩
      exact ⟨⟨rest, depth⟩, (Machine.run_parse_eq_ok_iff room fits).mpr ⟨rfl, read⟩⟩
  · constructor
    · refine ⟨(tallest 200).tokens, (tallest 200).tree, ?_, ?_⟩
      · exact (ofTokens_tokens _).trans (if_pos (need_tallest 200))
      · rw [(tallest 200).height_tree, levels_tallest]
        rfl
    · rintro _ ⟨tokens, e, read, rfl⟩
      obtain ⟨d, -, rfl, need⟩ := exists_derivation read
      rw [d.height_tree]
      exact Nat.add_le_add_right (d.levels_le 200 need) 1

/-- With the whole budget spent, a comparison of two leaves is as tall as it gets. -/
theorem isGreatest_height_at_depth_spent :
    let tokens : List Token := [.int 1, .symbol .eq, .int 2]
    let e : Expr := .binary .equal (.int 1) (.int 2)
    maxDepth < 2 ^ 64 ∧
      (∃ after, (Machine.parse ⟨2 ^ 64⟩ .disj).run ⟨tokens, 200⟩ = some (.ok (e, after))) ∧
      IsGreatest {height | ∃ tokens e rest, parse 0 .disj tokens = .ok (e, rest) ∧
        height = e.height + 1} (e.height + 1) := by
  intro tokens e
  have room : maxDepth < (⟨2 ^ 64⟩ : Machine).capacity := by decide
  have read : parse (200 - 200) .disj tokens = .ok (e, []) := by cbv
  obtain ⟨same, greatest⟩ := (isGreatest_height_at_depth room).1 200 (Nat.le_refl _)
  exact ⟨room, (same tokens e).mpr ⟨[], read⟩, greatest⟩

end Grammar

end Linewise
