import Linewise.Proofs.ExpressionGrammar

/-! The parser accepts exactly what the grammar derives within the budget. Completeness follows the
derivation and says what the parser answers on its tokens with anything behind them that cannot
extend it: the tree if the budget covers the need, and otherwise that the expression is too deep.
Soundness follows the budget and rebuilds a derivation from an answer. -/
namespace Linewise.Grammar
open Linewise.Parser

/-! ## The classes of tokens -/

theorem leaf?_eq_some_iff {token : Token} {e : Expr} :
    leaf? token = some e ↔ Denotes token e := by
  constructor
  · intro found
    cases token with
    | int n => cases found; exact .int n
    | float x => cases found; exact .float x
    | str s => cases found; exact .str s
    | symbol s => cases found
    | name s =>
      simp only [leaf?] at found
      split at found
      · cases found; exact .true s ‹_›
      · split at found
        · cases found; exact .false s ‹_›
        · split at found
          · cases found
          · cases found
            exact .var s (by simp_all)
  · intro denotes
    cases denotes with
    | int | float | str => rfl
    | true s word => simp [leaf?, word]
    | false s word => rcases word with rfl | rfl <;> simp [leaf?]
    | var s free => simp_all [leaf?]

theorem sign?_eq_some_iff {token : Token} {op : UnaryOp} :
    sign? token = some op ↔ Signs token op := by
  constructor
  · intro found
    unfold sign? at found
    split at found <;> cases found
    · exact .minus
    · exact .plus
  · rintro (_ | _) <;> rfl

theorem isNot_iff {token : Token} : isNot token = true ↔ Negates token := by
  constructor
  · intro found
    unfold isNot at found
    split at found
    · exact .symbol
    · rw [eq_of_beq found]
      exact .word
    · cases found
  · rintro (_ | _) <;> rfl

theorem comparison?_eq_some_iff {token : Token} {op : BinaryOp} :
    comparison? token = some op ↔ Compares token op := by
  constructor
  · intro found
    unfold comparison? at found
    split at found <;> cases found <;> constructor
  · rintro (_ | _) <;> rfl

theorem joiner?_eq_some_iff {level : Level} {token : Token} {join : Expr → Expr → Expr} :
    joiner? level token = some join ↔ Joins level token join := by
  constructor
  · intro found
    unfold joiner? at found
    split at found
    case h_2 | h_4 =>
      split at found
      · subst_vars
        cases found
        constructor
      · cases found
    all_goals
      cases found
      try constructor
  · rintro (_ | _) <;> rfl

/-- The level at which a token behind an expression goes on with it. -/
def continues? : Token → Option Level
  | .symbol .power => some .power
  | .symbol .star => some .prod
  | .symbol .slash => some .prod
  | .symbol .floorDiv => some .prod
  | .symbol .percent => some .prod
  | .symbol .plus => some .sum
  | .symbol .minus => some .sum
  | .symbol .andAnd => some .conj
  | .symbol .orOr => some .disj
  | .name s => if s = "and" then some .conj else if s = "or" then some .disj else none
  | token => (comparison? token).map fun _ => .cmp

/-- What follows does not go on with an expression of the level. -/
def Stops (level : Level) (rest : List Token) : Prop :=
  ∀ token ∈ rest.head?, ∀ other ∈ continues? token, level.rank < other.rank

theorem Joins.continues {level : Level} {token : Token} {join : Expr → Expr → Expr}
    (joins : Joins level token join) : continues? token = some level := by
  cases joins <;> rfl

theorem Compares.continues {token : Token} {op : BinaryOp} (compares : Compares token op) :
    continues? token = some .cmp := by
  cases compares <;> rfl

theorem Chains.rank_lt {level inner : Level} (chains : Chains level inner) :
    inner.rank < level.rank := by
  cases chains <;> decide

theorem Chains.operand_eq {level inner : Level} (chains : Chains level inner) :
    level.operand = inner := by
  cases chains <;> rfl

theorem stops_nil (level : Level) : Stops level [] := by
  simp [Stops]

theorem stops_cons {level : Level} {token : Token} {rest : List Token} :
    Stops level (token :: rest) ↔ ∀ other ∈ continues? token, level.rank < other.rank := by
  simp [Stops]

theorem Stops.tighter {level inner : Level} {rest : List Token} (stops : Stops level rest)
    (tighter : inner.rank ≤ level.rank) : Stops inner rest :=
  fun token first other continued => Nat.lt_of_le_of_lt tighter (stops token first other continued)

/-- No token goes on with a signed operand as such. -/
theorem Stops.exponent {rest : List Token} (stops : Stops .power rest) : Stops .sign rest := by
  intro token first other continued
  have looser := stops token first other continued
  have notSign : other ≠ .sign := by
    rintro rfl
    revert continued
    unfold continues?
    split <;> simp [Option.map_eq_some_iff]
    split <;> simp
  cases other <;> simp_all [Level.rank]

/-- The links of a chain, or what follows them, end every operand of the chain. -/
theorem Links.stops {level inner : Level} (links : Links level inner) (chains : Chains level inner)
    {rest : List Token} (stops : Stops level rest) : Stops inner (links.tokens ++ rest) := by
  cases links with
  | done => exact stops.tighter (Nat.le_of_lt chains.rank_lt)
  | link token join joins operand more =>
    refine stops_cons.mpr fun other continued => ?_
    rw [joins.continues] at continued
    cases continued
    exact chains.rank_lt

/-! ## Completeness -/

/-- The answer to a derivable text with something behind it. -/
def verdict (need budget : Nat) (e : Expr) (rest : List Token) :
    Except ParseError (Expr × List Token) :=
  if need ≤ budget then .ok (e, rest) else .error .tooDeep

theorem verdict_of_le {need budget : Nat} (e : Expr) (rest : List Token) (enough : need ≤ budget) :
    verdict need budget e rest = .ok (e, rest) :=
  if_pos enough

theorem verdict_of_lt {need budget : Nat} (e : Expr) (rest : List Token) (short : budget < need) :
    verdict need budget e rest = .error .tooDeep :=
  if_neg (Nat.not_le_of_lt short)

/-- Numbering the operators of a chain from one more costs one level more. -/
theorem Links.need_succ_le {level inner : Level} (links : Links level inner)
    (position budget : Nat) :
    links.need (position + 1) ≤ budget + 1 ↔ links.need position ≤ budget := by
  match links with
  | .done => simp [Links.need]
  | .link _ _ _ operand more =>
    have later := more.need_succ_le (position + 1) budget
    simp only [Links.need]
    omega

/-- One level pays for an operator whose operand gets the rest of the budget. -/
theorem verdict_paid (need budget : Nat) (make : Expr → Expr) (e : Expr) (rest : List Token) :
    (match verdict need budget e rest with
      | .ok (operand, after) => .ok (make operand, after)
      | .error e => .error e) = verdict (1 + need) (budget + 1) (make e) rest := by
  by_cases enough : need ≤ budget
  · rw [verdict_of_le _ _ enough, verdict_of_le _ _ (by omega)]
  · rw [verdict_of_lt _ _ (by omega), verdict_of_lt _ _ (by omega)]

theorem verdict_congr {need other budget less : Nat} (e : Expr) (rest : List Token)
    (same : need ≤ budget ↔ other ≤ less) :
    verdict need budget e rest = verdict other less e rest := by
  simp only [verdict, same]

theorem verdict_max {need other budget : Nat} (e : Expr) (rest : List Token)
    (enough : need ≤ budget) :
    verdict (max need other) budget e rest = verdict other budget e rest :=
  verdict_congr e rest (by omega)

theorem verdict_zero (need : Nat) (e : Expr) (rest : List Token) :
    verdict (1 + need) 0 e rest = .error .tooDeep :=
  verdict_of_lt e rest (by omega)

theorem parse_of_chains {level inner : Level} (chains : Chains level inner) (budget : Nat)
    (tokens : List Token) :
    parse budget level tokens =
      match parse budget inner tokens with
      | .ok (lhs, rest) => chain budget level lhs rest
      | .error e => .error e := by
  cases chains <;> exact parse.eq_def budget _ tokens

/-- A chain ends where no operator of its level follows. -/
theorem chain_of_stops {level : Level} {rest : List Token} (budget : Nat) (lhs : Expr)
    (stops : Stops level rest) : chain budget level lhs rest = .ok (lhs, rest) := by
  cases rest with
  | nil => rw [chain]
  | cons token more =>
    rw [chain]
    cases found : joiner? level token with
    | none => rfl
    | some join =>
      have continued := (joiner?_eq_some_iff.mp found).continues
      exact absurd (stops_cons.mp stops level continued) (Nat.lt_irrefl _)

/-- The tokens an expression of a level that binds tighter than negation can begin with. -/
def Begins (level : Level) (token : Token) : Prop :=
  token = .symbol .lparen ∨ (∃ e, Denotes token e) ∨
    (∃ op, Signs token op ∧ Level.sign.rank ≤ level.rank)

theorem Begins.looser {level inner : Level} {token : Token} (begins : Begins inner token)
    (looser : inner.rank ≤ level.rank) : Begins level token := by
  rcases begins with bracket | operand | ⟨op, signs, ranked⟩
  · exact .inl bracket
  · exact .inr (.inl operand)
  · exact .inr (.inr ⟨op, signs, Nat.le_trans ranked looser⟩)

theorem Begins.isNot_eq_false {level : Level} {token : Token} (begins : Begins level token) :
    isNot token = false := by
  rcases begins with rfl | ⟨e, denotes⟩ | ⟨op, signs, -⟩
  · rfl
  · cases denotes with
    | true s word => rcases word with rfl | rfl <;> rfl
    | false s word => rcases word with rfl | rfl <;> rfl
    | var s free => simp_all [isNot]
    | _ => rfl
  · cases signs <;> rfl

theorem Begins.sign?_eq_none {token : Token} (begins : Begins .power token) :
    sign? token = none := by
  rcases begins with rfl | ⟨e, denotes⟩ | ⟨op, -, ranked⟩
  · rfl
  · cases denotes <;> rfl
  · exact absurd ranked (by decide)

theorem Derivation.begins {level : Level} (d : Derivation level)
    (tight : level.rank ≤ Level.cmp.rank) :
    ∃ token more, d.tokens = token :: more ∧ Begins level token := by
  match d with
  | .leaf token e denotes => exact ⟨token, [], rfl, .inr (.inl ⟨e, denotes⟩)⟩
  | .parens inner => exact ⟨_, _, rfl, .inl rfl⟩
  | .bare base =>
    obtain ⟨token, more, same, begins⟩ := base.begins (by decide)
    exact ⟨token, more, same, begins.looser (by decide)⟩
  | .raised base exponent =>
    obtain ⟨token, more, same, begins⟩ := base.begins (by decide)
    exact ⟨token, _, by rw [Derivation.tokens, same, List.cons_append], begins.looser (by decide)⟩
  | .unsigned operand =>
    obtain ⟨token, more, same, begins⟩ := operand.begins (by decide)
    exact ⟨token, more, same, begins.looser (by decide)⟩
  | .signed token op signs operand =>
    exact ⟨token, _, rfl, .inr (.inr ⟨op, signs, Nat.le_refl _⟩)⟩
  | .single lhs =>
    obtain ⟨token, more, same, begins⟩ := lhs.begins (by decide)
    exact ⟨token, more, same, begins.looser (by decide)⟩
  | .compared lhs token' op compares rhs =>
    obtain ⟨token, more, same, begins⟩ := lhs.begins (by decide)
    exact ⟨token, _, by rw [Derivation.tokens, same, List.cons_append], begins.looser (by decide)⟩
  | .affirmed operand => exact absurd tight (by decide)
  | .negated token negates operand => exact absurd tight (by decide)
  | .chain chains first links =>
    have ranked := chains.rank_lt
    obtain ⟨token, more, same, begins⟩ := first.begins (by omega)
    exact ⟨token, _, by rw [Derivation.tokens, same, List.cons_append],
      begins.looser (Nat.le_of_lt ranked)⟩

mutual

/-- On the tokens of a derivation the parser answers with its tree, or that it is too deep. -/
theorem parse_tokens {level : Level} (d : Derivation level) (budget : Nat) (rest : List Token)
    (stops : Stops level rest) :
    parse budget level (d.tokens ++ rest) = verdict d.need budget d.tree rest := by
  match d with
  | .leaf token e denotes =>
    have found := leaf?_eq_some_iff.mpr denotes
    simp only [Derivation.tokens, List.cons_append, List.nil_append]
    rw [parse]
    · simp [found, Derivation.need, Derivation.tree, verdict]
    · rintro rfl
      cases denotes
  | .parens inner =>
    have closing : Stops .disj (.symbol .rparen :: rest) := by
      simp [stops_cons, continues?, comparison?]
    simp only [Derivation.tokens, List.cons_append, List.append_assoc, List.nil_append,
      Derivation.need, Derivation.tree]
    rw [parse.eq_def]
    cases budget with
    | zero => exact (verdict_zero ..).symm
    | succ less =>
      simp only [parse_tokens inner less _ closing]
      by_cases enough : inner.need ≤ less
      · rw [verdict_of_le _ _ enough, verdict_of_le _ _ (by omega)]
      · rw [verdict_of_lt _ _ (by omega), verdict_of_lt _ _ (by omega)]
  | .bare base =>
    have read := parse_tokens base budget rest (stops.tighter (by decide))
    simp only [Derivation.tokens, Derivation.need, Derivation.tree]
    rw [parse, read]
    by_cases enough : base.need ≤ budget
    · rw [verdict_of_le _ _ enough]
      split
      · rename_i base' rest' same
        cases same
        exact absurd (stops_cons.mp stops .power rfl) (by decide)
      · rename_i same
        exact same.symm
      · rename_i failed
        cases failed
    · rw [verdict_of_lt _ _ (by omega)]
  | .raised base exponent =>
    have power : Stops .atom (.symbol .power :: (exponent.tokens ++ rest)) := by
      simp [stops_cons, continues?, Level.rank]
    simp only [Derivation.tokens, Derivation.need, Derivation.tree, List.append_assoc,
      List.cons_append]
    rw [parse, parse_tokens base budget _ power]
    by_cases enough : base.need ≤ budget
    · rw [verdict_of_le _ _ enough]
      cases budget with
      | zero => exact (verdict_of_lt _ _ (by omega)).symm
      | succ less =>
        simp only [parse_tokens exponent less rest stops.exponent]
        rw [verdict_max _ _ enough]
        exact verdict_paid ..
    · rw [verdict_of_lt _ _ (by omega), verdict_of_lt _ _ (by omega)]
  | .unsigned operand =>
    obtain ⟨token, more, same, begins⟩ := operand.begins (by decide)
    have read := parse_tokens operand budget rest (stops.tighter (by decide))
    simp only [Derivation.tokens, Derivation.need, Derivation.tree]
    rw [← read, same, List.cons_append, parse.eq_def]
    simp only [begins.sign?_eq_none]
  | .signed token op signs operand =>
    have found := sign?_eq_some_iff.mpr signs
    simp only [Derivation.tokens, List.cons_append, Derivation.need, Derivation.tree]
    rw [parse.eq_def]
    simp only [found]
    cases budget with
    | zero => exact (verdict_zero ..).symm
    | succ less =>
      simp only [parse_tokens operand less rest stops]
      exact verdict_paid ..
  | .single lhs =>
    simp only [Derivation.tokens, Derivation.need, Derivation.tree]
    rw [parse, parse_tokens lhs budget rest (stops.tighter (by decide))]
    by_cases enough : lhs.need ≤ budget
    · rw [verdict_of_le _ _ enough]
      cases rest with
      | nil => rfl
      | cons token more =>
        cases found : comparison? token with
        | none => simp only [found]
        | some op =>
          have continued := (comparison?_eq_some_iff.mp found).continues
          exact absurd (stops_cons.mp stops .cmp continued) (Nat.lt_irrefl _)
    · rw [verdict_of_lt _ _ (by omega)]
  | .compared lhs token op compares rhs =>
    have found := comparison?_eq_some_iff.mpr compares
    have comparison : Stops .sum (token :: (rhs.tokens ++ rest)) := by
      simp [stops_cons, compares.continues, Level.rank]
    simp only [Derivation.tokens, Derivation.need, Derivation.tree, List.append_assoc,
      List.cons_append]
    rw [parse, parse_tokens lhs budget _ comparison]
    by_cases enough : lhs.need ≤ budget
    · rw [verdict_of_le _ _ enough, verdict_max _ _ enough]
      simp only [found, parse_tokens rhs budget rest (stops.tighter (by decide))]
      by_cases enoughRight : rhs.need ≤ budget
      · rw [verdict_of_le _ _ enoughRight, verdict_of_le _ _ enoughRight]
      · rw [verdict_of_lt _ _ (by omega), verdict_of_lt _ _ (by omega)]
    · rw [verdict_of_lt _ _ (by omega), verdict_of_lt _ _ (by omega)]
  | .affirmed operand =>
    obtain ⟨token, more, same, begins⟩ := operand.begins (by decide)
    have read := parse_tokens operand budget rest (stops.tighter (by decide))
    simp only [Derivation.tokens, Derivation.need, Derivation.tree]
    rw [← read, same, List.cons_append, parse.eq_def]
    simp only [begins.isNot_eq_false, Bool.false_eq_true, if_false]
  | .negated token negates operand =>
    have found := isNot_iff.mpr negates
    simp only [Derivation.tokens, List.cons_append, Derivation.need, Derivation.tree]
    rw [parse.eq_def]
    simp only [found, if_true]
    cases budget with
    | zero => exact (verdict_zero ..).symm
    | succ less =>
      simp only [parse_tokens operand less rest stops]
      exact verdict_paid ..
  | .chain chains first links =>
    simp only [Derivation.tokens, List.append_assoc, Derivation.need, Derivation.tree]
    rw [parse_of_chains chains, parse_tokens first budget _ (links.stops chains stops)]
    by_cases enough : first.need ≤ budget
    · rw [verdict_of_le _ _ enough]
      simp only [chain_tokens links chains budget first.tree rest stops]
      rw [verdict_max _ _ enough]
    · rw [verdict_of_lt _ _ (by omega), verdict_of_lt _ _ (by omega)]

/-- On the links of a chain the parser goes on with the tree read before them. -/
theorem chain_tokens {level inner : Level} (links : Links level inner)
    (chains : Chains level inner) (budget : Nat) (lhs : Expr) (rest : List Token)
    (stops : Stops level rest) :
    chain budget level lhs (links.tokens ++ rest) =
      verdict (links.need 1) budget (links.tree lhs) rest := by
  match links with
  | .done =>
    simp only [Links.tokens, List.nil_append, Links.need, Links.tree]
    rw [chain_of_stops budget lhs stops, verdict_of_le _ _ (Nat.zero_le _)]
  | .link token join joins operand more =>
    have found := joiner?_eq_some_iff.mpr joins
    simp only [Links.tokens, List.cons_append, List.append_assoc, Links.need, Links.tree]
    rw [chain, found]
    cases budget with
    | zero => exact (verdict_of_lt _ _ (by omega)).symm
    | succ less =>
      have later := more.need_succ_le 1 less
      simp only [chains.operand_eq, parse_tokens operand less _ (more.stops chains stops)]
      by_cases enough : operand.need ≤ less
      · rw [verdict_of_le _ _ enough]
        simp only [chain_tokens more chains less _ rest stops]
        rw [verdict_max _ _ (by omega), verdict_congr _ _ later]
      · rw [verdict_of_lt _ _ (by omega), verdict_of_lt _ _ (by omega)]

end

/-! ## Soundness -/

/-- The tokens begin with a derivation of `e` within the budget, and `rest` is left. -/
def Derives (budget : Nat) (level : Level) (tokens : List Token) (e : Expr) (rest : List Token) :
    Prop :=
  ∃ d : Derivation level, tokens = d.tokens ++ rest ∧ d.tree = e ∧ d.need ≤ budget

/-- What the parser reads at a level is derivable there within the budget. -/
def Sound (budget : Nat) (level : Level) : Prop :=
  ∀ tokens e rest, parse budget level tokens = .ok (e, rest) → Derives budget level tokens e rest

theorem sound_atom {budget : Nat} (inside : ∀ less < budget, Sound less .disj) :
    Sound budget .atom := by
  intro tokens e rest read
  rw [parse.eq_def] at read
  simp only at read
  split at read
  · cases read
  · split at read
    · cases read
    · rename_i less
      split at read
      · rename_i inner after innerRead
        cases read
        obtain ⟨d, same, tree, need⟩ := inside less (Nat.lt_succ_self _) _ _ _ innerRead
        exact ⟨.parens d, by simp [Derivation.tokens, same], tree, by simp [Derivation.need]; omega⟩
      all_goals cases read
  · split at read
    · rename_i found
      cases read
      exact ⟨.leaf _ _ (leaf?_eq_some_iff.mp found), rfl, rfl, Nat.zero_le _⟩
    · cases read

theorem sound_power {budget : Nat} (base : Sound budget .atom)
    (exponents : ∀ less < budget, Sound less .sign) : Sound budget .power := by
  intro tokens e rest read
  rw [parse] at read
  split at read
  · rename_i baseRead
    obtain ⟨d, same, tree, need⟩ := base _ _ _ baseRead
    split at read
    · cases read
    · rename_i less
      split at read
      · rename_i exponentRead
        cases read
        obtain ⟨x, sameX, treeX, needX⟩ := exponents less (Nat.lt_succ_self _) _ _ _ exponentRead
        exact ⟨.raised d x, by simp [Derivation.tokens, same, sameX],
          by simp [Derivation.tree, tree, treeX], by simp only [Derivation.need]; omega⟩
      · cases read
  · rename_i baseRead
    cases read
    obtain ⟨d, same, tree, need⟩ := base _ _ _ baseRead
    exact ⟨.bare d, same, tree, need⟩
  · cases read

theorem sound_sign {budget : Nat} (unsigned : Sound budget .power)
    (operands : ∀ less < budget, Sound less .sign) : Sound budget .sign := by
  intro tokens e rest read
  have plain : parse budget .power tokens = .ok (e, rest) →
      Derives budget .sign tokens e rest := by
    intro powerRead
    obtain ⟨d, same, tree, need⟩ := unsigned _ _ _ powerRead
    exact ⟨.unsigned d, same, tree, need⟩
  rw [parse.eq_def] at read
  simp only at read
  split at read
  · split at read
    · rename_i found
      split at read
      · cases read
      · rename_i less
        split at read
        · rename_i operandRead
          cases read
          obtain ⟨d, same, tree, need⟩ := operands less (Nat.lt_succ_self _) _ _ _ operandRead
          exact ⟨.signed _ _ (sign?_eq_some_iff.mp found) d, by simp [Derivation.tokens, same],
            by simp [Derivation.tree, tree], by simp only [Derivation.need]; omega⟩
        · cases read
    · exact plain read
  · exact plain read

/-- What the parser adds to a chain is a list of links. -/
theorem sound_links {level inner : Level} (chains : Chains level inner) {budget : Nat}
    (operands : ∀ less < budget, Sound less inner) {lhs e : Expr} {tokens rest : List Token}
    (read : Parser.chain budget level lhs tokens = .ok (e, rest)) :
    ∃ links : Links level inner, tokens = links.tokens ++ rest ∧ links.tree lhs = e ∧
      links.need 1 ≤ budget := by
  induction budget using Nat.strongRecOn generalizing lhs tokens with
  | ind budget ih =>
    rw [Parser.chain.eq_def] at read
    split at read
    · cases read
      exact ⟨.done, rfl, rfl, Nat.zero_le _⟩
    · split at read
      · cases read
        exact ⟨.done, rfl, rfl, Nat.zero_le _⟩
      · rename_i join found
        split at read
        · cases read
        · rename_i less
          simp only [chains.operand_eq] at read
          split at read
          · rename_i operandRead
            obtain ⟨d, same, tree, need⟩ := operands less (Nat.lt_succ_self _) _ _ _ operandRead
            obtain ⟨links, sameLinks, treeLinks, needLinks⟩ := ih less (Nat.lt_succ_self _)
              (fun fewer small => operands fewer (Nat.lt_succ_of_lt small)) read
            have later := (links.need_succ_le 1 less).mpr needLinks
            exact ⟨.link _ join (joiner?_eq_some_iff.mp found) d links,
              by simp [Links.tokens, same, sameLinks], by simp [Links.tree, tree, treeLinks],
              by simp only [Links.need]; omega⟩
          · cases read

theorem sound_chain {level inner : Level} (chains : Chains level inner) {budget : Nat}
    (operands : ∀ less ≤ budget, Sound less inner) : Sound budget level := by
  intro tokens e rest read
  rw [parse_of_chains chains] at read
  split at read
  · rename_i firstRead
    obtain ⟨d, same, tree, need⟩ := operands budget (Nat.le_refl _) _ _ _ firstRead
    obtain ⟨links, sameLinks, treeLinks, needLinks⟩ :=
      sound_links chains (fun less small => operands less (Nat.le_of_lt small)) read
    exact ⟨.chain chains d links, by simp [Derivation.tokens, same, sameLinks],
      by simp [Derivation.tree, tree, treeLinks], by simp only [Derivation.need]; omega⟩
  · cases read

theorem sound_cmp {budget : Nat} (sides : Sound budget .sum) : Sound budget .cmp := by
  intro tokens e rest read
  rw [parse] at read
  split at read
  · rename_i lhsRead
    obtain ⟨d, same, tree, need⟩ := sides _ _ _ lhsRead
    split at read
    · cases read
      exact ⟨.single d, same, tree, need⟩
    · split at read
      · cases read
        exact ⟨.single d, same, tree, need⟩
      · rename_i op found
        split at read
        · rename_i rhsRead
          cases read
          obtain ⟨r, sameR, treeR, needR⟩ := sides _ _ _ rhsRead
          exact ⟨.compared d _ op (comparison?_eq_some_iff.mp found) r,
            by simp [Derivation.tokens, same, sameR], by simp [Derivation.tree, tree, treeR],
            by simp only [Derivation.need]; omega⟩
        · cases read
  · cases read

theorem sound_neg {budget : Nat} (affirmed : Sound budget .cmp)
    (operands : ∀ less < budget, Sound less .neg) : Sound budget .neg := by
  intro tokens e rest read
  have plain : parse budget .cmp tokens = .ok (e, rest) → Derives budget .neg tokens e rest := by
    intro cmpRead
    obtain ⟨d, same, tree, need⟩ := affirmed _ _ _ cmpRead
    exact ⟨.affirmed d, same, tree, need⟩
  rw [parse.eq_def] at read
  simp only at read
  split at read
  · split at read
    · rename_i found
      split at read
      · cases read
      · rename_i less
        split at read
        · rename_i operandRead
          cases read
          obtain ⟨d, same, tree, need⟩ := operands less (Nat.lt_succ_self _) _ _ _ operandRead
          exact ⟨.negated _ (isNot_iff.mp found) d, by simp [Derivation.tokens, same],
            by simp [Derivation.tree, tree], by simp only [Derivation.need]; omega⟩
        · cases read
    · exact plain read
  · exact plain read

/-- The levels are taken in the order in which each uses the ones before it at the same budget. -/
theorem sound_all (budget : Nat) (level : Level) : Sound budget level := by
  induction budget using Nat.strongRecOn generalizing level with
  | ind budget ih =>
    have atMost {inner : Level} (here : Sound budget inner) :
        ∀ less ≤ budget, Sound less inner := by
      intro less small
      rcases Nat.lt_or_eq_of_le small with fewer | rfl
      · exact ih less fewer inner
      · exact here
    have atom : Sound budget .atom := sound_atom fun less small => ih less small .disj
    have power : Sound budget .power := sound_power atom fun less small => ih less small .sign
    have sign : Sound budget .sign := sound_sign power fun less small => ih less small .sign
    have prod : Sound budget .prod := sound_chain .prod (atMost sign)
    have sum : Sound budget .sum := sound_chain .sum (atMost prod)
    have cmp : Sound budget .cmp := sound_cmp sum
    have neg : Sound budget .neg := sound_neg cmp fun less small => ih less small .neg
    have conj : Sound budget .conj := sound_chain .conj (atMost neg)
    cases level with
    | disj => exact sound_chain .disj (atMost conj)
    | conj => exact conj
    | neg => exact neg
    | cmp => exact cmp
    | sum => exact sum
    | prod => exact prod
    | sign => exact sign
    | power => exact power
    | atom => exact atom

/-! ## Whole expressions -/

theorem Derivation.tokens_ne_nil {level : Level} (d : Derivation level) : d.tokens ≠ [] := by
  match d with
  | .leaf .. | .parens _ | .signed .. | .negated .. => simp [Derivation.tokens]
  | .raised .. | .compared .. => simp [Derivation.tokens]
  | .bare base => exact base.tokens_ne_nil
  | .unsigned operand => exact operand.tokens_ne_nil
  | .single lhs => exact lhs.tokens_ne_nil
  | .affirmed operand => exact operand.tokens_ne_nil
  | .chain _ first links => simp [Derivation.tokens, first.tokens_ne_nil]

/-- A whole derivable expression is read as its tree, or is too deep. -/
theorem ofTokens_tokens (d : Derivation .disj) :
    Expr.ofTokens d.tokens =
      if d.need ≤ maxDepth then .ok d.tree else .error .tooDeep := by
  have read := parse_tokens d maxDepth [] (stops_nil _)
  rw [List.append_nil] at read
  simp only [Expr.ofTokens, List.isEmpty_iff, d.tokens_ne_nil, if_false, read, verdict]
  by_cases enough : d.need ≤ maxDepth
  · simp only [enough, if_true]
  · simp only [enough, if_false]

/-- Every expression that is read comes from a derivation within the budget. -/
theorem exists_derivation {tokens : List Token} {e : Expr} (read : Expr.ofTokens tokens = .ok e) :
    ∃ d : Derivation .disj, d.tokens = tokens ∧ d.tree = e ∧ d.need ≤ maxDepth := by
  unfold Expr.ofTokens at read
  split at read
  · cases read
  · split at read
    · rename_i parsed
      cases read
      obtain ⟨d, same, tree, need⟩ := sound_all maxDepth .disj _ _ _ parsed
      exact ⟨d, by simp [same], tree, need⟩
    · cases read
    · cases read

/-- **The parser is exact.** A list of tokens is read as `e` if and only if it has a derivation with
the tree `e` that needs at most 200 levels; a derivation that needs more is reported as too deep. -/
theorem ofTokens_exact (tokens : List Token) :
    (∀ e, Expr.ofTokens tokens = .ok e ↔
      ∃ d : Derivation .disj, d.tokens = tokens ∧ d.need ≤ 200 ∧ d.tree = e) ∧
    (∀ d : Derivation .disj, d.tokens = tokens → 200 < d.need →
      Expr.ofTokens tokens = .error .tooDeep) := by
  refine ⟨fun e => ⟨fun read => ?_, ?_⟩, ?_⟩
  · obtain ⟨d, same, tree, need⟩ := exists_derivation read
    exact ⟨d, same, need, tree⟩
  · rintro ⟨d, rfl, need, rfl⟩
    exact (ofTokens_tokens d).trans (if_pos need)
  · rintro d rfl deep
    exact (ofTokens_tokens d).trans (if_neg (Nat.not_le_of_lt deep))

end Linewise.Grammar
