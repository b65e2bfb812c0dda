import Linewise.Proofs.ParserExactness

/-! Errors of the parser point at the first token that cannot stand where it does. The parser looks
at one token ahead: an answer depends only on the tokens it takes and on the next one, and a larger
budget does not change it. So where a token is refused, it is refused whatever follows, and by
completeness nothing that follows makes an expression of it; what was read before it can still be
completed, and likewise what was read when the tokens end too early. -/
namespace Linewise.Grammar
open Linewise.Parser

/-- What a procedure of the parser answers: a tree and the tokens that are left, or an error. -/
abbrev Answer := Except ParseError (Expr × List Token)

/-- The tokens are an expression of the level, of any depth. -/
def Phrase (level : Level) (tokens : List Token) : Prop :=
  ∃ d : Derivation level, d.tokens = tokens

/-- The tokens are the links of a chain. -/
def LinksPhrase (level inner : Level) (tokens : List Token) : Prop :=
  ∃ links : Links level inner, links.tokens = tokens

/-! ## Answers with one token of foresight -/

/-- The answer of `reader`, which reads phrases of some class within a budget, is determined by the
tokens up to the one at which it is given. Accepted tokens are a whole phrase, and the tokens before
a refused one, or before an early end, are the front of one. -/
inductive Grounded (phrase : List Token → Prop) (reader : Nat → List Token → Answer)
    (budget : Nat) (tokens : List Token) : Prop where
  /-- A phrase is read. Only the first of the tokens behind it matters. -/
  | accepts (read rest : List Token) (e : Expr) (cut : tokens = read ++ rest) (whole : phrase read)
      (again : ∀ more ≥ budget, ∀ other, other.head? = rest.head? →
        reader more (read ++ other) = .ok (e, other))
  /-- A token is refused, whatever follows it. -/
  | refuses (before : List Token) (token : Token) (after : List Token)
      (cut : tokens = before ++ token :: after) (viable : ∃ suffix, phrase (before ++ suffix))
      (again : ∀ more ≥ budget, ∀ other,
        reader more (before ++ token :: other) = .error (.unexpected token))
  /-- The tokens end inside a phrase. -/
  | lacks (viable : ∃ suffix, phrase (tokens ++ suffix))
      (answer : reader budget tokens = .error .unexpectedEnd)
  /-- The budget is spent. -/
  | spent (answer : reader budget tokens = .error .tooDeep)

/-- Goes on behind a tree that is read. -/
def andThen (first : Answer) (next : Expr → List Token → Answer) : Answer :=
  match first with
  | .ok (e, rest) => next e rest
  | .error e => .error e

namespace Grounded

variable {phrase inner : List Token → Prop} {reader other : Nat → List Token → Answer}
  {budget : Nat} {tokens : List Token}

theorem head?_append_congr {rest other : List Token} (same : other.head? = rest.head?)
    (read : List Token) : (read ++ other).head? = (read ++ rest).head? := by
  cases read with
  | nil => exact same
  | cons token more => rfl

/-- Nothing is read, because the next token does not go on with what was read before. -/
theorem stays {e : Expr} (whole : phrase [])
    (again : ∀ more ts, ts.head? = tokens.head? → reader more ts = .ok (e, ts)) :
    Grounded phrase reader budget tokens :=
  .accepts [] tokens e rfl whole fun more _ ts ahead => again more ts ahead

/-- Phrases of one class are phrases of another. -/
theorem wider (grounded : Grounded inner reader budget tokens)
    (widens : ∀ whole, inner whole → phrase whole) : Grounded phrase reader budget tokens := by
  cases grounded with
  | accepts read rest e cut whole again => exact .accepts read rest e cut (widens read whole) again
  | refuses before token after cut viable again =>
    obtain ⟨suffix, whole⟩ := viable
    exact .refuses before token after cut ⟨suffix, widens _ whole⟩ again
  | lacks viable answer =>
    obtain ⟨suffix, whole⟩ := viable
    exact .lacks ⟨suffix, widens _ whole⟩ answer
  | spent answer => exact .spent answer

/-- The next token decides that another procedure takes over. -/
theorem instead (grounded : Grounded phrase other budget tokens)
    (same : ∀ more ts, ts.head? = tokens.head? → reader more ts = other more ts) :
    Grounded phrase reader budget tokens := by
  cases grounded with
  | accepts read rest e cut whole again =>
    refine .accepts read rest e cut whole fun more enough ts ahead => ?_
    rw [same more _ (cut ▸ head?_append_congr ahead read)]
    exact again more enough ts ahead
  | refuses before token after cut viable again =>
    refine .refuses before token after cut viable fun more enough ts => ?_
    have ahead : (token :: ts).head? = (token :: after).head? := rfl
    rw [same more _ (cut ▸ head?_append_congr ahead before)]
    exact again more enough ts
  | lacks viable answer => exact .lacks viable ((same budget tokens rfl).trans answer)
  | spent answer => exact .spent ((same budget tokens rfl).trans answer)

/-- A token is taken, at some cost, and another procedure goes on behind it. -/
theorem behind {token : Token} (cost : Nat)
    (grounded : Grounded (fun more => phrase (token :: more)) other budget tokens)
    (same : ∀ more ts, reader (more + cost) (token :: ts) = other more ts) :
    Grounded phrase reader (budget + cost) (token :: tokens) := by
  have paid {more : Nat} (enough : more ≥ budget + cost) (ts : List Token) :
      reader more (token :: ts) = other (more - cost) ts := by
    rw [← same, Nat.sub_add_cancel (Nat.le_trans (Nat.le_add_left cost budget) enough)]
  cases grounded with
  | accepts read rest e cut whole again =>
    refine .accepts (token :: read) rest e (by rw [cut, List.cons_append]) whole ?_
    intro more enough ts ahead
    rw [List.cons_append, paid enough]
    exact again _ (Nat.le_sub_of_add_le enough) ts ahead
  | refuses before refused after cut viable again =>
    refine .refuses (token :: before) refused after (by rw [cut, List.cons_append]) viable ?_
    intro more enough ts
    rw [List.cons_append, paid enough]
    exact again _ (Nat.le_sub_of_add_le enough) ts
  | lacks viable answer => exact .lacks viable ((same budget tokens).trans answer)
  | spent answer => exact .spent ((same budget tokens).trans answer)

/-- Two procedures one after the other. The second sees the phrase of the first before its own. -/
theorem andThen (grounded : Grounded inner other budget tokens)
    (next : Nat → Expr → List Token → Answer)
    (completes : ∀ whole, inner whole → ∃ suffix, phrase (whole ++ suffix))
    (continues : ∀ read rest e, inner read →
      Grounded (fun more => phrase (read ++ more)) (fun more ts => next more e ts) budget rest) :
    Grounded phrase (fun more ts => Grammar.andThen (other more ts) (next more)) budget tokens := by
  cases grounded with
  | accepts read rest e cut whole again =>
    have first {more : Nat} (enough : more ≥ budget) {ts : List Token}
        (ahead : ts.head? = rest.head?) :
        Grammar.andThen (other more (read ++ ts)) (next more) = next more e ts := by
      rw [again more enough ts ahead]
      rfl
    have here : Grammar.andThen (other budget tokens) (next budget) = next budget e rest := by
      rw [cut]
      exact first (Nat.le_refl _) rfl
    cases continues read rest e whole with
    | accepts further last tree cutRest wholeRest againRest =>
      refine .accepts (read ++ further) last tree ?_ wholeRest ?_
      · rw [cut, cutRest, List.append_assoc]
      · intro more enough ts ahead
        rw [List.append_assoc, first enough (cutRest ▸ head?_append_congr ahead further)]
        exact againRest more enough ts ahead
    | refuses before token after cutRest viable againRest =>
      obtain ⟨suffix, wholeRest⟩ := viable
      refine .refuses (read ++ before) token after ?_ ⟨suffix, ?_⟩ ?_
      · rw [cut, cutRest, List.append_assoc]
      · rw [List.append_assoc]
        exact wholeRest
      · intro more enough ts
        have ahead : (token :: ts).head? = (token :: after).head? := rfl
        rw [List.append_assoc, first enough (cutRest ▸ head?_append_congr ahead before)]
        exact againRest more enough ts
    | lacks viable answer =>
      obtain ⟨suffix, wholeRest⟩ := viable
      refine .lacks ⟨suffix, ?_⟩ (here.trans answer)
      rw [cut, List.append_assoc]
      exact wholeRest
    | spent answer => exact .spent (here.trans answer)
  | refuses before token after cut viable again =>
    obtain ⟨suffix, whole⟩ := viable
    obtain ⟨more, larger⟩ := completes _ whole
    refine .refuses before token after cut ⟨suffix ++ more, ?_⟩ fun more enough ts => ?_
    · rw [← List.append_assoc]
      exact larger
    · rw [again more enough ts]
      rfl
  | lacks viable answer =>
    obtain ⟨suffix, whole⟩ := viable
    obtain ⟨more, larger⟩ := completes _ whole
    refine .lacks ⟨suffix ++ more, ?_⟩ ?_
    · rw [← List.append_assoc]
      exact larger
    · rw [answer]
      rfl
  | spent answer =>
    refine .spent ?_
    rw [answer]
    rfl

/-- A tree is made of the one that is read. -/
theorem made (grounded : Grounded phrase other budget tokens) (make : Expr → Expr) :
    Grounded phrase
      (fun more ts => Grammar.andThen (other more ts) fun e rest => .ok (make e, rest)) budget
      tokens := by
  refine grounded.andThen (fun _ e rest => .ok (make e, rest)) ?_ ?_
  · intro whole phrase
    exact ⟨[], by rwa [List.append_nil]⟩
  · intro read rest e whole
    exact .stays (e := make e) (by rwa [List.append_nil]) fun _ _ _ => rfl

end Grounded

/-! ## The levels -/

/-- The procedure of a level has one token of foresight. -/
def Foresees (budget : Nat) (level : Level) : Prop :=
  ∀ tokens, Grounded (Phrase level) (fun more ts => parse more level ts) budget tokens

/-- Reads the closing bracket behind the inner expression. -/
def closing (inner : Expr) : List Token → Answer
  | [] => .error .unexpectedEnd
  | token :: after =>
    if token = .symbol .rparen then .ok (inner, after) else .error (.unexpected token)

/-- Goes on behind the base of a power. -/
def exponent (budget : Nat) (base : Expr) : List Token → Answer
  | [] => .ok (base, [])
  | token :: rest =>
    if token = .symbol .power then
      match budget with
      | 0 => .error .tooDeep
      | less + 1 =>
        andThen (parse less .sign rest) fun x after => .ok (.binary (.arith .pow) base x, after)
    else .ok (base, token :: rest)

/-- Goes on behind the first side of a comparison. -/
def comparing (budget : Nat) (lhs : Expr) : List Token → Answer
  | [] => .ok (lhs, [])
  | token :: rest =>
    match comparison? token with
    | none => .ok (lhs, token :: rest)
    | some op => andThen (parse budget .sum rest) fun rhs after => .ok (.binary op lhs rhs, after)

theorem parse_brackets (less : Nat) (rest : List Token) :
    parse (less + 1) .atom (.symbol .lparen :: rest) =
      andThen (parse less .disj rest) closing := by
  rw [parse.eq_def]
  simp only
  cases parse less .disj rest with
  | error e => rfl
  | ok answer =>
    obtain ⟨e, after⟩ := answer
    cases after with
    | nil => rfl
    | cons token more =>
      by_cases closes : token = .symbol .rparen
      · subst closes
        rfl
      · simp only [andThen, closing, if_neg closes]

theorem parse_power (budget : Nat) (tokens : List Token) :
    parse budget .power tokens = andThen (parse budget .atom tokens) (exponent budget) := by
  rw [parse]
  cases parse budget .atom tokens with
  | error e => rfl
  | ok answer =>
    obtain ⟨base, rest⟩ := answer
    cases rest with
    | nil => rfl
    | cons token more =>
      by_cases raises : token = .symbol .power
      · subst raises
        cases budget <;> rfl
      · simp only [andThen, exponent, if_neg raises]
        split
        · rename_i same
          cases same
          exact absurd rfl raises
        · rename_i same
          exact same.symm
        · rename_i same
          cases same

theorem parse_cmp (budget : Nat) (tokens : List Token) :
    parse budget .cmp tokens = andThen (parse budget .sum tokens) (comparing budget) := by
  rw [parse]
  cases parse budget .sum tokens with
  | error e => rfl
  | ok answer =>
    obtain ⟨lhs, rest⟩ := answer
    cases rest <;> rfl

theorem parse_sign {token : Token} {op : UnaryOp} (signs : sign? token = some op) (less : Nat)
    (rest : List Token) :
    parse (less + 1) .sign (token :: rest) =
      andThen (parse less .sign rest) fun operand after => .ok (.unary op operand, after) := by
  rw [parse.eq_def]
  simp only [signs]
  rfl

theorem parse_neg {token : Token} (negates : isNot token = true) (less : Nat)
    (rest : List Token) :
    parse (less + 1) .neg (token :: rest) =
      andThen (parse less .neg rest) fun operand after => .ok (.unary .not operand, after) := by
  rw [parse.eq_def]
  simp only [negates, if_true]
  rfl

theorem chain_joined {level inner : Level} (chains : Chains level inner) {token : Token}
    {join : Expr → Expr → Expr} (joins : joiner? level token = some join) (less : Nat) (lhs : Expr)
    (rest : List Token) :
    chain (less + 1) level lhs (token :: rest) =
      andThen (parse less inner rest) fun rhs after => chain less level (join lhs rhs) after := by
  rw [chain]
  simp only [joins, chains.operand_eq]
  rfl

/-- Some operand, to complete with. -/
theorem phrase_atom_one : Phrase .atom [.int 1] :=
  ⟨.leaf _ _ (.int 1), rfl⟩

theorem foresees_atom {budget : Nat} (inside : ∀ less < budget, Foresees less .disj) :
    Foresees budget .atom := by
  intro tokens
  cases tokens with
  | nil => exact .lacks ⟨[.int 1], phrase_atom_one⟩ (by rw [parse])
  | cons token rest =>
    by_cases opens : token = .symbol .lparen
    · subst opens
      cases budget with
      | zero => exact .spent (by rw [parse.eq_def])
      | succ less =>
        have inner := inside less (Nat.lt_succ_self _) rest
        refine Grounded.behind 1 (inner.andThen (fun _ => closing) ?_ ?_) parse_brackets
        · rintro _ ⟨d, rfl⟩
          exact ⟨[.symbol .rparen], .parens d, rfl⟩
        · rintro _ after e ⟨d, rfl⟩
          have whole : Phrase .atom (.symbol .lparen :: (d.tokens ++ [.symbol .rparen])) :=
            ⟨.parens d, rfl⟩
          cases after with
          | nil => exact .lacks ⟨[.symbol .rparen], whole⟩ rfl
          | cons token more =>
            by_cases closes : token = .symbol .rparen
            · subst closes
              exact .accepts [.symbol .rparen] more e rfl whole fun _ _ _ _ => rfl
            · exact .refuses [] token more rfl ⟨[.symbol .rparen], whole⟩ fun _ _ _ => if_neg closes
    · cases found : leaf? token with
      | some e =>
        refine .accepts [token] rest e rfl ⟨.leaf _ _ (leaf?_eq_some_iff.mp found), rfl⟩ ?_
        intro more _ ts _
        rw [List.singleton_append, parse]
        · rw [found]
        · exact opens
      | none =>
        refine .refuses [] token rest rfl ⟨[.int 1], phrase_atom_one⟩ ?_
        intro more _ ts
        rw [List.nil_append, parse]
        · rw [found]
        · exact opens

theorem foresees_power {budget : Nat} (base : Foresees budget .atom)
    (exponents : ∀ less < budget, Foresees less .sign) : Foresees budget .power := by
  intro tokens
  refine Grounded.instead ((base tokens).andThen exponent ?_ ?_)
    fun more ts _ => parse_power more ts
  · rintro _ ⟨d, rfl⟩
    exact ⟨[], .bare d, by rw [List.append_nil]; rfl⟩
  · rintro _ rest e ⟨d, rfl⟩
    have bare : Phrase .power (d.tokens ++ []) := ⟨.bare d, (List.append_nil _).symm⟩
    cases rest with
    | nil =>
      refine .stays (e := e) bare fun more ts ahead => ?_
      rw [List.head?_eq_none_iff.mp ahead]
      rfl
    | cons token rest =>
      by_cases raises : token = .symbol .power
      · subst raises
        cases budget with
        | zero => exact .spent rfl
        | succ less =>
          have inner := (exponents less (Nat.lt_succ_self _) rest).made (.binary (.arith .pow) e)
          refine Grounded.behind 1 (inner.wider ?_) fun more ts => rfl
          rintro _ ⟨x, rfl⟩
          exact ⟨.raised d x, rfl⟩
      · refine .stays (e := e) bare fun more ts ahead => ?_
        obtain ⟨later, rfl⟩ := List.head?_eq_some_iff.mp ahead
        exact if_neg raises

theorem foresees_sign {budget : Nat} (unsigned : Foresees budget .power)
    (operands : ∀ less < budget, Foresees less .sign) : Foresees budget .sign := by
  intro tokens
  have plain (same : ∀ more ts, ts.head? = tokens.head? →
      parse more .sign ts = parse more .power ts) :
      Grounded (Phrase .sign) (fun more ts => parse more .sign ts) budget tokens := by
    refine ((unsigned tokens).wider ?_).instead same
    rintro _ ⟨d, rfl⟩
    exact ⟨.unsigned d, rfl⟩
  cases tokens with
  | nil =>
    refine plain fun more ts ahead => ?_
    rw [List.head?_eq_none_iff.mp ahead, parse.eq_def]
  | cons token rest =>
    cases found : sign? token with
    | none =>
      refine plain fun more ts ahead => ?_
      obtain ⟨later, rfl⟩ := List.head?_eq_some_iff.mp ahead
      rw [parse.eq_def]
      simp only [found]
    | some op =>
      cases budget with
      | zero =>
        refine .spent ?_
        rw [parse.eq_def]
        simp only [found]
      | succ less =>
        have inner := (operands less (Nat.lt_succ_self _) rest).made (.unary op)
        refine Grounded.behind 1 (inner.wider ?_) (parse_sign found)
        rintro _ ⟨d, rfl⟩
        exact ⟨.signed token op (sign?_eq_some_iff.mp found) d, rfl⟩

theorem foresees_neg {budget : Nat} (affirmed : Foresees budget .cmp)
    (operands : ∀ less < budget, Foresees less .neg) : Foresees budget .neg := by
  intro tokens
  have plain (same : ∀ more ts, ts.head? = tokens.head? →
      parse more .neg ts = parse more .cmp ts) :
      Grounded (Phrase .neg) (fun more ts => parse more .neg ts) budget tokens := by
    refine ((affirmed tokens).wider ?_).instead same
    rintro _ ⟨d, rfl⟩
    exact ⟨.affirmed d, rfl⟩
  cases tokens with
  | nil =>
    refine plain fun more ts ahead => ?_
    rw [List.head?_eq_none_iff.mp ahead, parse.eq_def]
  | cons token rest =>
    cases found : isNot token with
    | false =>
      refine plain fun more ts ahead => ?_
      obtain ⟨later, rfl⟩ := List.head?_eq_some_iff.mp ahead
      rw [parse.eq_def]
      simp only [found, Bool.false_eq_true, if_false]
    | true =>
      cases budget with
      | zero =>
        refine .spent ?_
        rw [parse.eq_def]
        simp only [found, if_true]
      | succ less =>
        have inner := (operands less (Nat.lt_succ_self _) rest).made (.unary .not)
        refine Grounded.behind 1 (inner.wider ?_) (parse_neg found)
        rintro _ ⟨d, rfl⟩
        exact ⟨.negated token (isNot_iff.mp found) d, rfl⟩

theorem foresees_cmp {budget : Nat} (sides : Foresees budget .sum) : Foresees budget .cmp := by
  intro tokens
  refine Grounded.instead ((sides tokens).andThen comparing ?_ ?_)
    fun more ts _ => parse_cmp more ts
  · rintro _ ⟨d, rfl⟩
    exact ⟨[], .single d, by rw [List.append_nil]; rfl⟩
  · rintro _ rest e ⟨d, rfl⟩
    have single : Phrase .cmp (d.tokens ++ []) := ⟨.single d, (List.append_nil _).symm⟩
    cases rest with
    | nil =>
      refine .stays (e := e) single fun more ts ahead => ?_
      rw [List.head?_eq_none_iff.mp ahead]
      rfl
    | cons token rest =>
      cases found : comparison? token with
      | none =>
        refine .stays (e := e) single fun more ts ahead => ?_
        obtain ⟨later, rfl⟩ := List.head?_eq_some_iff.mp ahead
        simp only [comparing, found]
      | some op =>
        have inner := (sides rest).made (.binary op e)
        refine Grounded.behind 0 (inner.wider ?_) fun more ts => ?_
        · rintro _ ⟨r, rfl⟩
          exact ⟨.compared d token op (comparison?_eq_some_iff.mp found) r, rfl⟩
        · simp only [comparing, found, Nat.add_zero]

/-- The links of a chain, whatever stands before them. -/
theorem grounded_chain {level inner : Level} (chains : Chains level inner) {budget : Nat}
    (operands : ∀ less < budget, Foresees less inner) (lhs : Expr) (tokens : List Token) :
    Grounded (LinksPhrase level inner) (fun more ts => chain more level lhs ts) budget tokens := by
  induction budget using Nat.strongRecOn generalizing lhs tokens with
  | ind budget ih =>
    have done : LinksPhrase level inner [] := ⟨.done, rfl⟩
    cases tokens with
    | nil =>
      refine .stays (e := lhs) done fun more ts ahead => ?_
      rw [List.head?_eq_none_iff.mp ahead, chain]
    | cons token rest =>
      cases found : joiner? level token with
      | none =>
        refine .stays (e := lhs) done fun more ts ahead => ?_
        obtain ⟨later, rfl⟩ := List.head?_eq_some_iff.mp ahead
        rw [chain, found]
      | some join =>
        have joins := joiner?_eq_some_iff.mp found
        cases budget with
        | zero =>
          refine .spent ?_
          rw [chain, found]
        | succ less =>
          have operand := operands less (Nat.lt_succ_self _) rest
          refine Grounded.behind 1
            (operand.andThen (fun more rhs after => chain more level (join lhs rhs) after) ?_ ?_)
            fun more ts => chain_joined chains found more lhs ts
          · rintro _ ⟨d, rfl⟩
            exact ⟨[], .link token join joins d .done, rfl⟩
          · rintro _ after rhs ⟨d, rfl⟩
            have later := ih less (Nat.lt_succ_self _)
              (fun fewer small => operands fewer (Nat.lt_succ_of_lt small)) (join lhs rhs) after
            refine later.wider ?_
            rintro _ ⟨links, rfl⟩
            exact ⟨.link token join joins d links, rfl⟩

theorem foresees_chain {level inner : Level} (chains : Chains level inner) {budget : Nat}
    (operands : ∀ less ≤ budget, Foresees less inner) : Foresees budget level := by
  intro tokens
  have first := operands budget (Nat.le_refl _) tokens
  refine Grounded.instead (first.andThen (fun more lhs ts => chain more level lhs ts) ?_ ?_)
    fun more ts _ => parse_of_chains chains more ts
  · rintro _ ⟨d, rfl⟩
    exact ⟨[], .chain chains d .done, rfl⟩
  · rintro _ rest lhs ⟨d, rfl⟩
    refine (grounded_chain chains (fun less small => operands less (Nat.le_of_lt small)) lhs
      rest).wider ?_
    rintro _ ⟨links, rfl⟩
    exact ⟨.chain chains d links, rfl⟩

/-- The levels are taken in the order in which each uses the ones before it at the same budget. -/
theorem foresees_all (budget : Nat) (level : Level) : Foresees budget level := by
  induction budget using Nat.strongRecOn generalizing level with
  | ind budget ih =>
    have upTo {inner : Level} (here : Foresees budget inner) :
        ∀ less ≤ budget, Foresees less inner := by
      intro less small
      rcases Nat.lt_or_eq_of_le small with fewer | rfl
      · exact ih less fewer inner
      · exact here
    have atom := foresees_atom fun less small => ih less small .disj
    have power := foresees_power atom fun less small => ih less small .sign
    have sign := foresees_sign power fun less small => ih less small .sign
    have prod := foresees_chain .prod (upTo sign)
    have sum := foresees_chain .sum (upTo prod)
    have cmp := foresees_cmp sum
    have neg := foresees_neg cmp fun less small => ih less small .neg
    have conj := foresees_chain .conj (upTo neg)
    have disj := foresees_chain .disj (upTo conj)
    cases level <;> assumption

/-! ## Whole expressions -/

/-- A whole expression is read if the budget is large enough. -/
theorem Phrase.exists_parse {tokens : List Token} (phrase : Phrase .disj tokens) (budget : Nat) :
    ∃ more ≥ budget, ∃ e, parse more .disj tokens = .ok (e, []) := by
  obtain ⟨d, rfl⟩ := phrase
  refine ⟨max budget d.need, Nat.le_max_left _ _, d.tree, ?_⟩
  have read := parse_tokens d (max budget d.need) [] (stops_nil _)
  rwa [List.append_nil, verdict_of_le _ _ (Nat.le_max_right _ _)] at read

/-- The token is the first that cannot stand where it does: what is before it can be completed to an
expression, and with it nothing can. -/
def FirstImpossible (before : List Token) (token : Token) : Prop :=
  (∃ suffix, Phrase .disj (before ++ suffix)) ∧ ∀ suffix, ¬ Phrase .disj (before ++ token :: suffix)

/-- The answers to a list that is not empty. -/
theorem ofTokens_cases {tokens : List Token} (some : tokens ≠ []) :
    (∃ e, Expr.ofTokens tokens = .ok e) ∨
    (∃ before token after, tokens = before ++ token :: after ∧ FirstImpossible before token ∧
      Expr.ofTokens tokens = .error (.unexpected token)) ∨
    ((∃ suffix, Phrase .disj (tokens ++ suffix)) ∧
      Expr.ofTokens tokens = .error .unexpectedEnd) ∨
    Expr.ofTokens tokens = .error .tooDeep := by
  simp only [Expr.ofTokens, List.isEmpty_iff, some, if_false]
  cases foresees_all maxDepth .disj tokens with
  | accepts read rest e cut whole again =>
    have answer := again maxDepth (Nat.le_refl _) rest rfl
    rw [← cut] at answer
    rw [answer]
    cases rest with
    | nil => exact .inl ⟨e, rfl⟩
    | cons token after =>
      refine .inr (.inl ⟨read, token, after, cut, ⟨⟨[], by rwa [List.append_nil]⟩, ?_⟩, rfl⟩)
      intro suffix phrase
      obtain ⟨more, enough, other, readAll⟩ := phrase.exists_parse maxDepth
      cases (again more enough (token :: suffix) rfl).symm.trans readAll
  | refuses before token after cut viable again =>
    have answer := again maxDepth (Nat.le_refl _) after
    rw [← cut] at answer
    rw [answer]
    refine .inr (.inl ⟨before, token, after, cut, ⟨viable, ?_⟩, rfl⟩)
    intro suffix phrase
    obtain ⟨more, enough, other, readAll⟩ := phrase.exists_parse maxDepth
    cases (again more enough suffix).symm.trans readAll
  | lacks viable answer =>
    rw [answer]
    exact .inr (.inr (.inl ⟨viable, rfl⟩))
  | spent answer =>
    rw [answer]
    exact .inr (.inr (.inr rfl))

theorem ofTokens_eq_unexpected {tokens : List Token} {token : Token}
    (failed : Expr.ofTokens tokens = .error (.unexpected token)) :
    ∃ before after, tokens = before ++ token :: after ∧ FirstImpossible before token := by
  have some : tokens ≠ [] := by
    rintro rfl
    cases failed
  obtain ⟨e, answer⟩ | ⟨before, refused, after, cut, first, answer⟩ | ⟨-, answer⟩ | answer :=
    ofTokens_cases some
  all_goals rw [answer] at failed; cases failed
  exact ⟨before, after, cut, first⟩

theorem ofTokens_eq_unexpectedEnd {tokens : List Token}
    (failed : Expr.ofTokens tokens = .error .unexpectedEnd) :
    tokens ≠ [] ∧ ¬ Phrase .disj tokens ∧ ∃ suffix ≠ [], Phrase .disj (tokens ++ suffix) := by
  have some : tokens ≠ [] := by
    rintro rfl
    cases failed
  have lacking : ¬ Phrase .disj tokens := by
    rintro ⟨d, rfl⟩
    rw [ofTokens_tokens] at failed
    split at failed <;> cases failed
  obtain ⟨e, answer⟩ | ⟨_, _, _, -, -, answer⟩ | ⟨⟨suffix, phrase⟩, answer⟩ | answer :=
    ofTokens_cases some
  all_goals rw [answer] at failed; cases failed
  refine ⟨some, lacking, suffix, ?_, phrase⟩
  rintro rfl
  exact lacking (List.append_nil tokens ▸ phrase)

theorem ofTokens_eq_empty_iff {tokens : List Token} :
    Expr.ofTokens tokens = .error .empty ↔ tokens = [] := by
  constructor
  · intro failed
    refine Classical.byContradiction fun some => ?_
    obtain ⟨e, answer⟩ | ⟨_, _, _, -, -, answer⟩ | ⟨-, answer⟩ | answer := ofTokens_cases some
    all_goals rw [answer] at failed; cases failed
  · rintro rfl
    rfl

/-- **Errors point at the first impossible token.** If a token is refused, it stands at a position
such that the tokens before it can be completed to an expression of the grammar, while the tokens up
to it and with it cannot, whatever follows. If the tokens end too early, there are some, they are no
expression, and more tokens make one of them. That there is no token at all is said of the empty
list and of no other. -/
theorem errors_at_first_impossible_token (tokens : List Token) :
    (∀ token, Expr.ofTokens tokens = .error (.unexpected token) →
      ∃ position, tokens[position]? = some token ∧
        (∃ suffix, Phrase .disj (tokens.take position ++ suffix)) ∧
        ∀ suffix, ¬ Phrase .disj (tokens.take (position + 1) ++ suffix)) ∧
    (Expr.ofTokens tokens = .error .unexpectedEnd →
      tokens ≠ [] ∧ ¬ Phrase .disj tokens ∧ ∃ suffix ≠ [], Phrase .disj (tokens ++ suffix)) ∧
    (Expr.ofTokens tokens = .error .empty ↔ tokens = []) := by
  refine ⟨?_, ofTokens_eq_unexpectedEnd, ofTokens_eq_empty_iff⟩
  intro token failed
  obtain ⟨before, after, rfl, viable, never⟩ := ofTokens_eq_unexpected failed
  refine ⟨before.length, by simp, ?_, ?_⟩
  · rwa [List.take_left]
  · intro suffix
    rw [List.take_length_add_append, List.append_assoc]
    exact never suffix

/-- Comparisons do not chain, so the second sign is refused; an open bracket ends too early. -/
theorem errors_at_first_impossible_token_comparison :
    let compared : List Token := [.int 1, .symbol .less, .int 2, .symbol .less, .int 3]
    Expr.ofTokens compared = .error (.unexpected (.symbol .less)) ∧
      (∃ position, compared[position]? = some (.symbol .less) ∧
        (∃ suffix, Phrase .disj (compared.take position ++ suffix)) ∧
        ∀ suffix, ¬ Phrase .disj (compared.take (position + 1) ++ suffix)) ∧
      Expr.ofTokens [.symbol .lparen] = .error .unexpectedEnd ∧
      ∃ suffix ≠ [], Phrase .disj ([.symbol .lparen] ++ suffix) := by
  intro compared
  have refused : Expr.ofTokens compared = .error (.unexpected (.symbol .less)) := by cbv
  have ended : Expr.ofTokens [.symbol .lparen] = .error .unexpectedEnd := by cbv
  refine ⟨refused, (errors_at_first_impossible_token compared).1 _ refused, ended, ?_⟩
  exact ((errors_at_first_impossible_token [.symbol .lparen]).2.1 ended).2.2

end Linewise.Grammar
