import Linewise.Proofs.ParserExactness

/-! The parser on a machine: a cursor in the tokens and a counter for the depth, which is raised and
lowered by hand and stops the machine when it runs over or below zero. Nothing is assumed of its
recursion, so a run might also go on for ever. It never does, and it never stops: with room for one
more than the largest depth the machine gives the answer of the parser with a budget, and after a
success the counter is where it was. -/
namespace Linewise

/-- A machine, by the largest depth that its counter can hold. -/
structure Machine where
  capacity : Nat

namespace Machine
open Linewise.Parser

/-- What stops a machine in the middle of its work. -/
inductive Trap where
  /-- A counter or an integer leaves its range. -/
  | overflow
  /-- A counter is lowered below zero. -/
  | underflow
  /-- An integer is divided by zero. -/
  | zeroDivisor
  /-- A place is reached that cannot be. -/
  | unreachable
deriving DecidableEq

/-- Why a run has no result: the machine was stopped, or the work has failed as it may. -/
inductive Halt (ε : Type) where
  | trap (t : Trap)
  | error (e : ε)
deriving DecidableEq

/-- A result that no trap can prevent. -/
def lifted {ε α : Type} : Except ε α → Except (Halt ε) α
  | .ok a => .ok a
  | .error e => .error (.error e)

/-- The tokens that are left, and the depth. -/
structure Cursor where
  tokens : List Token
  depth : Nat
deriving DecidableEq

/-- A procedure of the parser: no result at all, a halt, or a value and the cursor after it. -/
abbrev Procedure := StateT Cursor (ExceptT (Halt ParseError) Option)

/-- The next token. -/
def peek : Procedure (Option Token) :=
  return (← get).tokens.head?

/-- Takes the next token. -/
def consume : Procedure (Option Token) := do
  let cursor ← get
  set { cursor with tokens := cursor.tokens.tail }
  return cursor.tokens.head?

/-- Raises the depth, which can be at most the capacity, and fails if it is now too large. -/
def descend (machine : Machine) : Procedure Unit := do
  let cursor ← get
  if cursor.depth = machine.capacity then throw (.trap .overflow)
  set { cursor with depth := cursor.depth + 1 }
  if maxDepth < cursor.depth + 1 then throw (.error .tooDeep)

/-- Lowers the depth. -/
def ascend : Procedure Unit := do
  let cursor ← get
  match cursor.depth with
  | 0 => throw (.trap .underflow)
  | depth + 1 => set { cursor with depth }

/-- Sets the depth back. -/
def restore (depth : Nat) : Procedure Unit :=
  modify fun cursor => { cursor with depth }

mutual

/-- Reads one expression of a level. -/
def parse (machine : Machine) (level : Level) : Procedure Expr :=
  match level with
  | .disj | .conj | .sum | .prod => do
    let start := (← get).depth
    let lhs ← machine |>.parse level.operand
    let e ← machine |>.chain level lhs
    restore start
    return e
  | .neg => do
    if (← peek).any isNot then
      discard consume
      machine.descend
      let operand ← machine |>.parse .neg
      ascend
      return .unary .not operand
    else machine |>.parse .cmp
  | .cmp => do
    let lhs ← machine |>.parse .sum
    match (← peek).bind comparison? with
    | none => return lhs
    | some op =>
      discard consume
      let rhs ← machine |>.parse .sum
      return .binary op lhs rhs
  | .sign => do
    match (← peek).bind sign? with
    | none => machine |>.parse .power
    | some op =>
      discard consume
      machine.descend
      let operand ← machine |>.parse .sign
      ascend
      return .unary op operand
  | .power => do
    let base ← machine |>.parse .atom
    if (← peek) = some (.symbol .power) then
      discard consume
      machine.descend
      let exponent ← machine |>.parse .sign
      ascend
      return .binary (.arith .pow) base exponent
    else return base
  | .atom => do
    match ← consume with
    | none => throw (.error .unexpectedEnd)
    | some token =>
      if token = .symbol .lparen then
        machine.descend
        let inner ← machine |>.parse .disj
        match ← consume with
        | none => throw (.error .unexpectedEnd)
        | some closing =>
          if closing = .symbol .rparen then
            ascend
            return inner
          else throw (.error (.unexpected closing))
      else
        match leaf? token with
        | some leaf => return leaf
        | none => throw (.error (.unexpected token))
partial_fixpoint

/-- Goes on with a chain of operators of one level, of which `lhs` is read. -/
def chain (machine : Machine) (level : Level) (lhs : Expr) : Procedure Expr := do
  match (← peek).bind (joiner? level) with
  | none => return lhs
  | some join =>
    discard consume
    machine.descend
    let rhs ← machine |>.parse level.operand
    machine |>.chain level (join lhs rhs)
partial_fixpoint

end

/-- Reads a list of tokens as exactly one expression. -/
def ofTokens (machine : Machine) (tokens : List Token) : ExceptT (Halt ParseError) Option Expr :=
  if tokens.isEmpty then throw (.error .empty)
  else do
    let (e, after) ← (machine.parse .disj).run ⟨tokens, 0⟩
    match after.tokens with
    | [] => return e
    | token :: _ => throw (.error (.unexpected token))

/-! ## Steps of a run -/

section Steps

variable {α β : Type} {machine : Machine} {depth : Nat} {tokens : List Token}
  {before after : Cursor}

theorem run_bind_of_ok {m : Procedure α} {a : α} (runs : m.run before = some (.ok (a, after)))
    (next : α → Procedure β) : (m >>= next).run before = (next a).run after := by
  rw [StateT.run_bind, runs]
  rfl

theorem run_bind_of_error {m : Procedure α} {h : Halt ParseError}
    (runs : m.run before = some (.error h)) (next : α → Procedure β) :
    (m >>= next).run before = some (.error h) := by
  rw [StateT.run_bind, runs]
  rfl

theorem run_peek : peek.run before = some (.ok (before.tokens.head?, before)) := rfl

theorem run_consume :
    consume.run before =
      some (.ok (before.tokens.head?, { before with tokens := before.tokens.tail })) := rfl

/-- The counter can be raised once more, and `budget` is what it leaves of the largest depth. -/
def Leaves (machine : Machine) (depth budget : Nat) : Prop :=
  depth < machine.capacity ∧ maxDepth - depth = budget

theorem Leaves.deeper {less : Nat} (room : maxDepth < machine.capacity)
    (spent : Leaves machine depth (less + 1)) : Leaves machine (depth + 1) less := by
  unfold Leaves at *
  omega

theorem run_descend {less : Nat} (spent : Leaves machine depth (less + 1)) :
    machine.descend.run ⟨tokens, depth⟩ = some (.ok ((), ⟨tokens, depth + 1⟩)) := by
  have shallow : ¬ maxDepth < depth + 1 := by
    have := spent.2
    omega
  unfold descend
  rw [run_bind_of_ok (a := (⟨tokens, depth⟩ : Cursor)) rfl, if_neg (Nat.ne_of_lt spent.1)]
  rw [if_neg (by exact shallow)]
  rfl

theorem run_descend_of_spent (spent : Leaves machine depth 0) :
    machine.descend.run ⟨tokens, depth⟩ = some (.error (.error .tooDeep)) := by
  have deep : maxDepth < depth + 1 := by
    have := spent.2
    omega
  unfold descend
  rw [run_bind_of_ok (a := (⟨tokens, depth⟩ : Cursor)) rfl, if_neg (Nat.ne_of_lt spent.1)]
  rw [if_pos (by exact deep)]
  rfl

theorem run_ascend : ascend.run ⟨tokens, depth + 1⟩ = some (.ok ((), ⟨tokens, depth⟩)) := rfl

theorem run_restore :
    (restore depth).run before = some (.ok ((), { before with depth })) := rfl

end Steps

/-! ## Agreement with the parser that has a budget -/

/-- The run that goes on behind an answer of the parser with a budget, with the counter at
`depth`. -/
def resume {β : Type} (depth : Nat) (next : Expr → Procedure β) :
    Except ParseError (Expr × List Token) → Option (Except (Halt ParseError) (β × Cursor))
  | .ok (e, rest) => (next e).run ⟨rest, depth⟩
  | .error e => some (.error (.error e))

/-- The run that answers as the parser with a budget does and leaves the counter at `depth`. -/
def answer (depth : Nat) : Except ParseError (Expr × List Token) →
    Option (Except (Halt ParseError) (Expr × Cursor)) :=
  resume depth pure

/-- On one level the machine answers as the parser whose budget is what the counter leaves of the
largest depth, and puts the counter back. -/
def Agrees (machine : Machine) (budget : Nat) (level : Level) : Prop :=
  ∀ depth tokens, Leaves machine depth budget →
    (machine.parse level).run ⟨tokens, depth⟩ = answer depth (Parser.parse budget level tokens)

section Agreement

variable {β : Type} {machine : Machine} {budget depth : Nat} {level : Level} {tokens : List Token}

theorem run_bind_of_answer {m : Procedure Expr} {before : Cursor}
    {read : Except ParseError (Expr × List Token)} (runs : m.run before = answer depth read)
    (next : Expr → Procedure β) : (m >>= next).run before = resume depth next read := by
  match read with
  | .ok (e, rest) => exact run_bind_of_ok runs next
  | .error e => exact run_bind_of_error runs next

/-- What the parser with a budget makes of an operand one level further down. -/
def spend (make : Expr → Expr) (level : Level) (tokens : List Token) :
    Nat → Except ParseError (Expr × List Token)
  | 0 => .error .tooDeep
  | less + 1 =>
    match Parser.parse less level tokens with
    | .ok (operand, after) => .ok (make operand, after)
    | .error e => .error e

/-- The counter enters the operand one level further down and leaves it. -/
theorem run_paid (room : maxDepth < machine.capacity) (make : Expr → Expr)
    (operands : ∀ less < budget, Agrees machine less level)
    (spent : Leaves machine depth budget) :
    StateT.run (do
      machine.descend
      let operand ← machine.parse level
      ascend
      return make operand) ⟨tokens, depth⟩ = answer depth (spend make level tokens budget) := by
  cases budget with
  | zero => exact run_bind_of_error (run_descend_of_spent spent) _
  | succ less =>
    have below := operands less (Nat.lt_succ_self less) (depth + 1) tokens (spent.deeper room)
    rw [run_bind_of_ok (run_descend spent), run_bind_of_answer below, spend]
    cases Parser.parse less level tokens with
    | ok read => exact run_bind_of_ok run_ascend _
    | error e => rfl

theorem agrees_neg (room : maxDepth < machine.capacity) (plain : Agrees machine budget .cmp)
    (operands : ∀ less < budget, Agrees machine less .neg) : Agrees machine budget .neg := by
  intro depth tokens spent
  rw [parse, run_bind_of_ok run_peek]
  match tokens with
  | [] =>
    rw [Parser.parse]
    exact plain depth [] spent
  | token :: rest =>
    rw [Parser.parse.eq_def]
    by_cases negates : isNot token = true
    · rw [if_pos (by exact negates), run_bind_of_ok (a := ()) rfl]
      simp only [if_pos negates]
      exact run_paid room _ operands spent
    · rw [if_neg (by exact negates)]
      simp only [if_neg negates]
      exact plain depth _ spent

theorem agrees_sign (room : maxDepth < machine.capacity) (plain : Agrees machine budget .power)
    (operands : ∀ less < budget, Agrees machine less .sign) : Agrees machine budget .sign := by
  intro depth tokens spent
  rw [parse, run_bind_of_ok run_peek]
  cases tokens with
  | nil =>
    rw [Parser.parse]
    exact plain depth [] spent
  | cons token rest =>
    rw [Parser.parse]
    simp only [List.head?_cons, Option.bind_some]
    cases sign? token with
    | none => exact plain depth _ spent
    | some op =>
      simp only
      rw [run_bind_of_ok (a := ()) rfl]
      exact run_paid room _ operands spent

theorem agrees_power (room : maxDepth < machine.capacity) (base : Agrees machine budget .atom)
    (exponents : ∀ less < budget, Agrees machine less .sign) : Agrees machine budget .power := by
  intro depth tokens spent
  rw [parse, Parser.parse, run_bind_of_answer (base depth tokens spent)]
  match Parser.parse budget .atom tokens with
  | .error e => rfl
  | .ok (e, rest) =>
    simp only [resume]
    rw [run_bind_of_ok run_peek]
    by_cases raised : rest.head? = some (.symbol .power)
    · obtain ⟨more, rfl⟩ := List.head?_eq_some_iff.mp raised
      rw [if_pos raised, run_bind_of_ok (a := ()) rfl]
      exact run_paid room _ exponents spent
    · rw [if_neg raised]
      split
      · simp_all
      · simp_all
        rfl
      · simp_all

theorem agrees_cmp (operands : Agrees machine budget .sum) : Agrees machine budget .cmp := by
  intro depth tokens spent
  rw [parse, Parser.parse, run_bind_of_answer (operands depth tokens spent)]
  cases Parser.parse budget .sum tokens with
  | error e => rfl
  | ok read =>
    obtain ⟨lhs, rest⟩ := read
    simp only [resume]
    rw [run_bind_of_ok run_peek]
    cases rest with
    | nil => rfl
    | cons token more =>
      simp only [List.head?_cons, Option.bind_some]
      cases comparison? token with
      | none => rfl
      | some op =>
        simp only
        rw [run_bind_of_ok (a := ()) rfl, List.tail_cons,
          run_bind_of_answer (operands depth more spent)]
        cases Parser.parse budget .sum more with
        | ok read => rfl
        | error e => rfl

theorem agrees_atom (room : maxDepth < machine.capacity)
    (inner : ∀ less < budget, Agrees machine less .disj) : Agrees machine budget .atom := by
  intro depth tokens spent
  rw [parse, run_bind_of_ok run_consume]
  cases tokens with
  | nil => rw [Parser.parse]; rfl
  | cons token rest =>
    by_cases bracket : token = .symbol .lparen
    · subst bracket
      simp only [List.head?_cons, ↓reduceIte, List.tail_cons]
      rw [Parser.parse.eq_def]
      cases budget with
      | zero => exact run_bind_of_error (run_descend_of_spent spent) _
      | succ less =>
        have below := inner less (Nat.lt_succ_self less) (depth + 1) rest (spent.deeper room)
        rw [run_bind_of_ok (run_descend spent), run_bind_of_answer below]
        simp only
        rcases Parser.parse less .disj rest with e | ⟨e, _ | ⟨closing, after⟩⟩
        · rfl
        · rfl
        · simp only [resume]
          rw [run_bind_of_ok run_consume]
          simp only [List.head?_cons, List.tail_cons]
          by_cases closes : closing = .symbol .rparen
          · subst closes
            rfl
          · rw [if_neg closes]
            split
            · simp_all
            · simp_all
              rfl
            · simp_all
            · simp_all
    · rw [Parser.parse]
      · simp only [List.head?_cons, if_neg bracket, List.tail_cons]
        cases leaf? token <;> rfl
      · exact bracket

/-- A chain ends with the answer of the parser; where it leaves the counter does not matter, since
the level that started the chain puts it back. -/
theorem run_chain {budget depth : Nat} {tokens : List Token} (room : maxDepth < machine.capacity)
    (operands : ∀ less < budget, Agrees machine less level.operand) (lhs : Expr)
    (spent : Leaves machine depth budget) :
    ∃ after, (machine.chain level lhs).run ⟨tokens, depth⟩ =
      answer after (Parser.chain budget level lhs tokens) := by
  rw [chain, Parser.chain.eq_def, run_bind_of_ok run_peek]
  cases tokens with
  | nil => exact ⟨depth, rfl⟩
  | cons token rest =>
    simp only [List.head?_cons, Option.bind_some]
    cases joiner? level token with
    | none => exact ⟨depth, rfl⟩
    | some join =>
      simp only
      rw [run_bind_of_ok (a := ()) rfl]
      simp only [List.tail_cons]
      cases budget with
      | zero => exact ⟨depth, run_bind_of_error (run_descend_of_spent spent) _⟩
      | succ less =>
        have below := operands less (Nat.lt_succ_self less) (depth + 1) rest (spent.deeper room)
        rw [run_bind_of_ok (run_descend spent), run_bind_of_answer below]
        simp only
        cases Parser.parse less level.operand rest with
        | error e => exact ⟨depth, rfl⟩
        | ok read =>
          obtain ⟨rhs, after⟩ := read
          have later : ∀ fewer < less, Agrees machine fewer level.operand :=
            fun fewer fits => operands fewer (Nat.lt_succ_of_lt fits)
          exact run_chain room later (join lhs rhs) (spent.deeper room)

theorem agrees_chain {inner : Level} (chains : Grammar.Chains level inner)
    (room : maxDepth < machine.capacity) (operands : ∀ less ≤ budget, Agrees machine less inner) :
    Agrees machine budget level := by
  obtain rfl := chains.operand_eq
  intro depth tokens spent
  have unfolded : machine.parse level = (do
      let start := (← get).depth
      let lhs ← machine.parse level.operand
      let e ← machine.chain level lhs
      restore start
      return e) := by
    cases chains <;> exact parse.eq_def ..
  have first := operands budget (Nat.le_refl _) depth tokens spent
  rw [unfolded, Grammar.parse_of_chains chains,
    run_bind_of_ok (a := (⟨tokens, depth⟩ : Cursor)) rfl, run_bind_of_answer first]
  match Parser.parse budget level.operand tokens with
  | .error e => rfl
  | .ok (lhs, rest) =>
    have shorter : ∀ less < budget, Agrees machine less level.operand :=
      fun less fewer => operands less (Nat.le_of_lt fewer)
    obtain ⟨after, runs⟩ : ∃ after, (machine.chain level lhs).run ⟨rest, depth⟩ = _ :=
      run_chain room shorter lhs spent
    simp only [resume]
    rw [run_bind_of_answer runs]
    match Parser.chain budget level lhs rest with
    | .error e => rfl
    | .ok (e, more) => exact run_bind_of_ok run_restore _

theorem agrees (room : maxDepth < machine.capacity) (budget : Nat) (level : Level) :
    Agrees machine budget level := by
  induction budget using Nat.strongRecOn generalizing level with
  | ind budget ih =>
    -- From the tightest level to the loosest; each needs the one before it with the same budget.
    have upTo {inner : Level} (here : Agrees machine budget inner) :
        ∀ less ≤ budget, Agrees machine less inner := fun less fewer =>
      (Nat.eq_or_lt_of_le fewer).elim (fun same => same ▸ here) fun below => ih less below inner
    have atom := agrees_atom room fun less fewer => ih less fewer .disj
    have power := agrees_power room atom fun less fewer => ih less fewer .sign
    have sign := agrees_sign room power fun less fewer => ih less fewer .sign
    have prod := agrees_chain .prod room (upTo sign)
    have sum := agrees_chain .sum room (upTo prod)
    have cmp := agrees_cmp sum
    have neg := agrees_neg room cmp fun less fewer => ih less fewer .neg
    have conj := agrees_chain .conj room (upTo neg)
    have disj := agrees_chain .disj room (upTo conj)
    cases level <;> assumption

end Agreement

/-- A procedure succeeds exactly where the parser does whose budget is what the counter leaves of
the largest depth, with the same tree and the same rest, and then leaves the counter as it found
it. -/
theorem run_parse_eq_ok_iff {machine : Machine} {depth : Nat} {level : Level}
    {tokens : List Token} {e : Expr} {after : Cursor} (room : maxDepth < machine.capacity) (fits : depth < machine.capacity) :
    (machine.parse level).run ⟨tokens, depth⟩ = some (.ok (e, after)) ↔
      after.depth = depth ∧
        Parser.parse (maxDepth - depth) level tokens = .ok (e, after.tokens) := by
  rw [agrees room _ level depth tokens ⟨fits, rfl⟩]
  constructor
  · intro answered
    match read : Parser.parse (maxDepth - depth) level tokens with
    | .ok (e', rest) =>
      rw [read] at answered
      cases answered
      exact ⟨rfl, rfl⟩
    | .error e' =>
      rw [read] at answered
      cases answered
  · rintro ⟨rfl, read⟩
    rw [read]
    rfl

/-- A procedure that succeeds leaves the counter as it found it. -/
theorem parse_restores_depth {machine : Machine} {level : Level} {before after : Cursor} {e : Expr}
    (room : maxDepth < machine.capacity) (fits : before.depth < machine.capacity)
    (runs : (machine.parse level).run before = some (.ok (e, after))) :
    after.depth = before.depth :=
  ((run_parse_eq_ok_iff room fits).mp runs).1

/-- The machine reads every list of tokens as the parser with a budget does. -/
theorem ofTokens_eq {machine : Machine} (room : maxDepth < machine.capacity) (tokens : List Token) :
    machine.ofTokens tokens = some (lifted (Expr.ofTokens tokens)) := by
  have answered := agrees room maxDepth .disj 0 tokens ⟨Nat.zero_lt_of_lt room, rfl⟩
  unfold ofTokens Expr.ofTokens
  split
  · rfl
  · rw [answered]
    match Parser.parse maxDepth .disj tokens with
    | .ok (e, []) => rfl
    | .ok (e, token :: rest) => rfl
    | .error e => rfl

end Machine

end Linewise
