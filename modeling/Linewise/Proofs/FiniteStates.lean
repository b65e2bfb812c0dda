import Linewise.Proofs.DocumentRoundTrip
import Linewise.Proofs.FiniteDocuments
import Linewise.Proofs.LineFrame

/-! Stores hold finite doubles only. Lines are followed from the empty store under every reply and
every contents of files, so the result does not depend on where the answers come from; the stores
of a session are among those that are reached. A finite double has a literal of its own, so no
variable is ever written as `null`. -/
namespace Linewise

namespace Store

/-- Every variable holds a finite value. -/
def IsFinite (s : Store) : Prop :=
  ∀ e ∈ s.variables.entries, e.2.IsFinite

theorem isFinite_bind {s : Store} (finite : s.IsFinite) {v : Value} (value : v.IsFinite)
    (name : String) : (s.bind name v).IsFinite := by
  intro e member
  rcases Table.mem_insertEntry member with rfl | old
  · exact value
  · exact finite e old

theorem isFinite_scope {s : Store} (finite : s.IsFinite) :
    ∀ name v, s.scope name = some v → v.IsFinite := by
  intro name v found
  exact finite (name, v) (Table.get?_eq_some_iff.mp found)

theorem isFinite_assign {s : Store} (finite : s.IsFinite) (name source : String) :
    (s.assign name source).store.IsFinite := by
  refine isFinite_bind finite ?_ name
  split
  · rename_i made
    exact evaluate_isFinite (isFinite_scope finite) made
  · simp

theorem isFinite_receive {s : Store} (finite : s.IsFinite) (name : String)
    (reply : Option String) : (s.receive name reply).store.IsFinite := by
  cases reply with
  | none => exact finite
  | some text => exact isFinite_bind finite (ofInput_isFinite text) name

theorem isFinite_countedDown? {v rest : Value} (finite : v.IsFinite)
    (counted : countedDown? v = some rest) : rest.IsFinite := by
  unfold countedDown? at counted
  split at counted
  · cases counted
    simp
  · rename_i x
    cases counted
    have before := Value.isFinite_float.mp finite
    refine Value.isFinite_float.mpr ?_
    split
    · exact Double.isFinite_sub_ceil before
    · exact before
  · cases counted
    simp
  · cases counted
    simp
  · cases counted

theorem isFinite_countDown {s : Store} (finite : s.IsFinite) (name : String) :
    (s.countDown name).store.IsFinite := by
  unfold countDown
  split
  · exact finite
  · rename_i v found
    split
    · exact finite
    · rename_i rest counted
      have before := isFinite_scope finite name v found
      exact isFinite_bind finite (isFinite_countedDown? before counted) name

theorem isFinite_loaded {s : Store} (finite : s.IsFinite) (path : String)
    (answer : Except FileError String) : (s.loaded path answer).store.IsFinite := by
  unfold loaded
  split
  · exact finite
  · split
    · exact finite
    · rename_i read
      intro e member
      exact Document.read_isFinite read e member

theorem isFinite_remove {s : Store} (finite : s.IsFinite) (name : String) :
    (s.remove name).store.IsFinite := by
  change (s.delete name).IsFinite
  unfold delete
  split
  · rename_i place _
    match place with
    | .variable =>
      intro e member
      exact finite e (List.mem_filter.mp member).1
    | .array => exact finite
    | .dictionary => exact finite
  · exact finite

end Store

/-- Every outcome of a command on a store of finite values is such a store. -/
theorem Command.step_isFinite {s : Store} (finite : s.IsFinite) {command : Command}
    {outcome : Outcome} (yields : (command.step s).Yields outcome) : outcome.store.IsFinite := by
  by_cases apart : command.keyword.access.reaches .values = false
  · have kept : outcome.store.variables = s.variables :=
      (Command.step_allowed List.prefix_rfl yields).table_eq apart
    intro e member
    exact finite e (kept ▸ member)
  -- The commands that are left are those that can write a variable.
  cases command with
  | assign name source =>
    cases yields
    exact Store.isFinite_assign finite name source
  | input name =>
    cases yields with
    | ask _ _ reply => exact Store.isFinite_receive finite name reply
  | countDown name =>
    cases yields
    exact Store.isFinite_countDown finite name
  | define name =>
    cases yields
    exact Store.isFinite_bind finite (by simp) name
  | load path =>
    cases yields with
    | read _ _ answer => exact Store.isFinite_loaded finite path answer
  | delete name =>
    cases yields
    exact Store.isFinite_remove finite name
  | clear =>
    cases yields
    intro e member
    cases member
  | _ => exact absurd rfl apart

theorem Store.step_isFinite {vocabulary : List Keyword} {s : Store} (finite : s.IsFinite)
    {line : String} {outcome : Outcome} (yields : (s.step vocabulary line).Yields outcome) :
    outcome.store.IsFinite := by
  unfold Store.step at yields
  split at yields
  · cases yields
    exact finite
  · split at yields
    · cases yields
      exact finite
    · split at yields
      · cases yields
        exact finite
      · exact Command.step_isFinite finite yields

/-- Every reachable store holds finite values only. -/
theorem Store.Reachable.isFinite {vocabulary : List Keyword} {s : Store}
    (reached : s.Reachable vocabulary) : s.IsFinite := by
  induction reached with
  | start =>
    intro e member
    cases member
  | line before line yields finite => exact Store.step_isFinite finite yields

/-! ## Literals of doubles -/

/-- A text that begins with a digit. -/
def Text.StartsWithDigit (text : List Char) : Prop :=
  ∃ c more, text = c :: more ∧ c.isDigit = true

namespace Decimal

theorem digits_startsWithDigit (d : Decimal) : Text.StartsWithDigit d.digits := by
  obtain ⟨c, more, same⟩ := List.exists_cons_of_ne_nil (@Nat.toDigits_ne_nil d.coefficient 10)
  have member : c ∈ Nat.toDigits 10 d.coefficient := by simp [same]
  exact ⟨c, more, same, Nat.isDigit_of_mem_toDigits (by decide) (by decide) member⟩

theorem plain_startsWithDigit (d : Decimal) : Text.StartsWithDigit d.plain := by
  obtain ⟨c, more, same, digit⟩ := d.digits_startsWithDigit
  unfold plain
  simp only
  split
  · exact ⟨c, _, by rw [same]; rfl, digit⟩
  · split
    · rename_i fewer
      obtain ⟨rest, kept⟩ : ∃ rest, d.digits.length - (-d.exponent).toNat = rest + 1 :=
        Nat.exists_eq_add_of_lt (by omega) |>.imp fun _ h => by omega
      exact ⟨c, _, by rw [kept, same]; rfl, digit⟩
    · exact ⟨'0', _, rfl, by decide⟩

theorem scientific_startsWithDigit (d : Decimal) (plus : Bool) :
    Text.StartsWithDigit (d.scientific plus) := by
  obtain ⟨c, more, same, digit⟩ := d.digits_startsWithDigit
  unfold scientific
  rw [same]
  cases more with
  | nil => exact ⟨c, _, rfl, digit⟩
  | cons next more => exact ⟨c, _, rfl, digit⟩

/-- A finite double is written as a minus sign and digits, or as digits only. -/
theorem text_head {layout : Layout} {special : Float → List Char} {x : Float}
    (finite : x.isFinite = true) :
    ∃ c more, layout.text special x = c :: more ∧ (c = '-' ∨ c.isDigit = true) := by
  have signed {text : List Char} (starts : Text.StartsWithDigit text) (negative : Bool) :
      ∃ c more, Decimal.signed negative text = c :: more ∧ (c = '-' ∨ c.isDigit = true) := by
    obtain ⟨c, more, rfl, digit⟩ := starts
    cases negative with
    | true => exact ⟨'-', _, rfl, .inl rfl⟩
    | false => exact ⟨c, more, rfl, .inr digit⟩
  unfold Layout.text
  rcases (Double.below_of_isFinite finite).cases with ⟨s, unpacked⟩ | ⟨s, m, e, _, unpacked, -⟩
  · rw [unpacked]
    exact signed ⟨'0', _, rfl, by decide⟩ _
  · rw [unpacked]
    refine signed ?_ _
    unfold Layout.write
    split
    · exact plain_startsWithDigit _
    · exact scientific_startsWithDigit _ _

end Decimal

/-- No literal of a finite value is `null`. -/
theorem Document.writeValue_ne_null {v : Value} (finite : v.IsFinite) :
    writeValue v ≠ "null".toList := by
  have differs {text : List Char}
      (head : ∃ c more, text = c :: more ∧ (c = '-' ∨ c.isDigit = true)) :
      text ≠ "null".toList := by
    rintro rfl
    obtain ⟨c, more, same, sign⟩ := head
    obtain ⟨rfl, -⟩ := List.cons.inj same
    exact absurd sign (by decide)
  cases v with
  | float x =>
    rw [writeValue, floatText]
    exact differs (Decimal.text_head (Value.isFinite_float.mp finite))
  | int n =>
    rcases writeInteger_cases n with ⟨digits, written, -⟩ | ⟨c, more, written, digit, -⟩
    · exact differs ⟨'-', digits, written, .inl rfl⟩
    · exact differs ⟨c, more, written, .inr digit⟩
  | bool b => cases b <;> decide
  | str s => simp [writeValue, writeText]

/-- Doubles stay finite. In every store that lines lead to from the empty one, whatever is replied
and whatever the loaded files hold, each variable with a double holds a finite one, and no variable
is written as `null`. The stores of every session that starts empty are among them. -/
theorem reachable_doubles_finite (vocabulary : List Keyword) :
    (∀ s : Store, s.Reachable vocabulary →
      (∀ name x, s.variables.get? name = some (.float x) → x.isFinite = true) ∧
      ∀ name v, s.variables.get? name = some v → Document.writeValue v ≠ "null".toList) ∧
    ∀ {φ : Type} [FileSystem φ] (start : Session φ) (lines : List String),
      start.vocabulary = vocabulary → start.store = {} →
      (start.executeAll lines).1.store.Reachable vocabulary := by
  constructor
  · intro s reached
    have finite := Store.isFinite_scope reached.isFinite
    exact ⟨fun name x found => Value.isFinite_float.mp (finite name _ found),
      fun name v found => Document.writeValue_ne_null (finite name v found)⟩
  · rintro φ _ start lines rfl empty
    exact Session.executeAll_reachable (empty ▸ .start) lines

/-- A quotient, its opposite and what is left of it after counting down. -/
def quotients : List String :=
  ["let x = -(7 / 2)", "let y = -x", "while y"]

theorem reachable_doubles_finite_quotients :
    (({} : Session).executeAll quotients).1.store.variables.get? "x" = some (.float (-3.5)) ∧
      (({} : Session).executeAll quotients).1.store.variables.get? "y" = some (.float (-0.5)) ∧
      (-0.5 : Float).isFinite = true ∧ Document.writeValue (.float (-3.5)) ≠ "null".toList := by
  have first : (({} : Session).executeAll quotients).1.store.variables.get? "x" =
      some (.float (-3.5)) := by decide +kernel
  have second : (({} : Session).executeAll quotients).1.store.variables.get? "y" =
      some (.float (-0.5)) := by decide +kernel
  have reached := (reachable_doubles_finite Keyword.all).2 ({} : Session) quotients rfl rfl
  obtain ⟨finite, literals⟩ := (reachable_doubles_finite Keyword.all).1 _ reached
  exact ⟨first, second, finite "y" _ second, literals "x" _ first⟩

end Linewise
