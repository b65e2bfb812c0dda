import Linewise.Proofs.DocumentRoundTrip
import Linewise.Proofs.WrittenNumbers

/-! The grammar of documents: strings, numbers, lists and objects, with spaces wherever they may
stand. It says which texts are values and which members an object lists, in their order, without a
word about readers. Every value of the grammar is passed over up to its end, however deep it is. -/
namespace Linewise.Document

/-! ## Strings -/

/-- What follows the opening quote of a string, up to its closing quote. An escape by code unit may
be any unit, also half of a surrogate pair. -/
inductive StringText : List Char → Prop where
  | close : StringText ['"']
  | plain {c : Char} {rest : List Char} (quote : c ≠ '"') (backslash : c ≠ '\\')
      (printed : ¬ c.toNat < 32) (more : StringText rest) : StringText (c :: rest)
  | letter {c d : Char} {rest : List Char} (stands : letterEscape? c = some d)
      (more : StringText rest) : StringText ('\\' :: c :: rest)
  | unit {a b c d : Char} {n : Nat} {rest : List Char} (digits : hexValue? a b c d = some n)
      (more : StringText rest) : StringText ('\\' :: 'u' :: a :: b :: c :: d :: rest)

theorem skimString_escape {code rest : List Char} (skimmed : skimEscape (code ++ rest) = .ok rest) :
    skimString ('\\' :: code ++ rest) = skimString rest := by
  rw [List.cons_append, skimString]
  simp only [if_neg (show '\\' ≠ '"' by decide), if_true]
  split <;> rename_i done <;> rw [skimmed] at done
  · obtain rfl := Except.ok.inj done
    rfl
  · cases done

/-- A string is skimmed up to its end, whatever its code units are. -/
theorem StringText.skimString {body : List Char} (literal : StringText body) (rest : List Char) :
    Document.skimString (body ++ rest) = .ok rest := by
  induction literal with
  | close => simp [Document.skimString]
  | plain quote backslash printed _ ih =>
    rw [List.cons_append, Document.skimString]
    simp [quote, backslash, printed, ih]
  | @letter c d body stands _ ih =>
    have skimmed : skimEscape ([c] ++ (body ++ rest)) = .ok (body ++ rest) := by
      simp [skimEscape, letterEscape?_ne_u stands, stands]
    exact (skimString_escape skimmed).trans ih
  | @unit a b c d n body digits _ ih =>
    have skimmed : skimEscape (['u', a, b, c, d] ++ (body ++ rest)) = .ok (body ++ rest) := by
      simp [skimEscape, codeUnit_digits digits]
    exact (skimString_escape skimmed).trans ih

/-! ## Numbers -/

/-- The digits before the point: a zero, or digits of which the first is none. -/
inductive WholeText : List Char → Prop where
  | zero : WholeText ['0']
  | digits {c : Char} {more : List Char} (nonzero : c ≠ '0')
      (digital : Text.Digital (c :: more)) : WholeText (c :: more)

/-- The point and the digits behind it, which may be missing together. -/
inductive FractionText : List Char → Prop where
  | none : FractionText []
  | digits {digits : List Char} (some : digits ≠ []) (digital : Text.Digital digits) :
      FractionText ('.' :: digits)

/-- The exponent, which may be missing. -/
inductive ExponentText : List Char → Prop where
  | none : ExponentText []
  | digits {letter : Char} {sign digits : List Char} (either : letter = 'e' ∨ letter = 'E')
      (signed : sign = [] ∨ sign = ['+'] ∨ sign = ['-']) (some : digits ≠ [])
      (digital : Text.Digital digits) : ExponentText (letter :: (sign ++ digits))

/-- A number without a minus sign. -/
inductive SizeText : List Char → Prop where
  | parts {whole fraction exponent : List Char} (isWhole : WholeText whole)
      (isFraction : FractionText fraction) (isExponent : ExponentText exponent) :
      SizeText (whole ++ (fraction ++ exponent))

/-- A number. -/
inductive NumberText : List Char → Prop where
  | positive {text : List Char} (size : SizeText text) : NumberText text
  | negative {text : List Char} (size : SizeText text) : NumberText ('-' :: text)

theorem startsWithDigit_append {digits : List Char} (some : digits ≠ [])
    (digital : Text.Digital digits) (rest : List Char) :
    startsWithDigit (digits ++ rest) = true := by
  obtain ⟨c, more, rfl⟩ := List.exists_cons_of_ne_nil some
  simpa [startsWithDigit] using digital c List.mem_cons_self

theorem skipDigits_append {digits rest : List Char} (digital : Text.Digital digits)
    (ended : startsWithDigit rest = false) : skipDigits (digits ++ rest) = rest := by
  rw [skipDigits, List.dropWhile_append_of_pos digital]
  cases rest with
  | nil => rfl
  | cons c more =>
    have other : c.isDigit = false := by simpa [startsWithDigit] using ended
    simp [other]

theorem skipSign_digits {sign digits : List Char}
    (signed : sign = [] ∨ sign = ['+'] ∨ sign = ['-']) (some : digits ≠ [])
    (digital : Text.Digital digits) (rest : List Char) :
    skipSign (sign ++ (digits ++ rest)) = digits ++ rest := by
  rcases signed with rfl | rfl | rfl
  · obtain ⟨c, more, rfl⟩ := List.exists_cons_of_ne_nil some
    obtain ⟨digit, -⟩ := List.forall_mem_cons.mp digital
    have plus : c ≠ '+' := by
      rintro rfl
      cases digit
    have minus : c ≠ '-' := by
      rintro rfl
      cases digit
    simp [skipSign, plus, minus]
  · rfl
  · rfl

theorem ExponentText.skimScaled {text rest : List Char} (exponent : ExponentText text)
    (ended : Ends rest) : Document.skimScaled (text ++ rest) = .ok rest := by
  cases exponent with
  | none =>
    have others : ∀ c ∈ enders, c ≠ 'e' ∧ c ≠ 'E' := by simp [enders]
    cases rest with
    | nil => rfl
    | cons c more =>
      obtain ⟨small, large⟩ := others c (ends_cons.mp ended)
      simp [Document.skimScaled, small, large]
  | @digits letter sign digits either signed some digital =>
    have skimmed : skimExponent (sign ++ (digits ++ rest)) = .ok rest := by
      rw [skimExponent, skipSign_digits signed some digital,
        if_pos (startsWithDigit_append some digital rest),
        skipDigits_append digital ended.startsWithDigit]
    rw [List.cons_append, List.append_assoc]
    rcases either with rfl | rfl <;> exact skimmed

/-- What follows the digits of a number, or of its fraction, begins with neither a digit nor a
second point. -/
theorem ExponentText.head {text rest : List Char} (exponent : ExponentText text)
    (ended : Ends rest) : ∀ c ∈ (text ++ rest).head?, c.isDigit = false ∧ c ≠ '.' := by
  cases exponent with
  | none =>
    have others : ∀ c ∈ enders, c.isDigit = false ∧ c ≠ '.' := by simp [enders]
    intro c first
    exact others c (ended c first)
  | digits either signed some digital => rcases either with rfl | rfl <;> simp

theorem startsWithDigit_of_head {text : List Char} (head : ∀ c ∈ text.head?, c.isDigit = false) :
    startsWithDigit text = false := by
  cases text with
  | nil => rfl
  | cons c more => simpa [startsWithDigit] using head c rfl

theorem ExponentText.startsWithDigit {text rest : List Char} (exponent : ExponentText text)
    (ended : Ends rest) : Document.startsWithDigit (text ++ rest) = false :=
  startsWithDigit_of_head fun c first => (exponent.head ended c first).1

theorem FractionText.startsWithDigit {fraction exponent rest : List Char}
    (isFraction : FractionText fraction) (isExponent : ExponentText exponent) (ended : Ends rest) :
    startsWithDigit (fraction ++ (exponent ++ rest)) = false := by
  cases isFraction with
  | none => exact isExponent.startsWithDigit ended
  | digits some digital => rfl

theorem FractionText.skimAfterInteger {fraction exponent rest : List Char}
    (isFraction : FractionText fraction) (isExponent : ExponentText exponent) (ended : Ends rest) :
    Document.skimAfterInteger (fraction ++ (exponent ++ rest)) = .ok rest := by
  cases isFraction with
  | none =>
    rw [List.nil_append, Document.skimAfterInteger]
    · exact isExponent.skimScaled ended
    · intro more point
      exact (isExponent.head ended '.' (by simp [point])).2 rfl
  | digits some digital =>
    have behind := isExponent.startsWithDigit ended
    rw [List.cons_append, Document.skimAfterInteger,
      if_pos (startsWithDigit_append some digital _), skipDigits_append digital behind,
      isExponent.skimScaled ended]

theorem SizeText.starts {text : List Char} (size : SizeText text) :
    ∃ c more, text = c :: more ∧ c.isDigit = true := by
  obtain ⟨isWhole, -, -⟩ := size
  cases isWhole with
  | zero => exact ⟨'0', _, rfl, rfl⟩
  | digits nonzero digital => exact ⟨_, _, rfl, digital _ List.mem_cons_self⟩

/-- A number is skimmed up to its end. -/
theorem SizeText.skimNumber {text rest : List Char} (size : SizeText text) (ended : Ends rest) :
    Document.skimNumber (text ++ rest) = .ok rest := by
  obtain ⟨isWhole, isFraction, isExponent⟩ := size
  have behind := isFraction.startsWithDigit isExponent ended
  have skimmed := isFraction.skimAfterInteger isExponent ended
  rw [List.append_assoc, List.append_assoc]
  cases isWhole with
  | zero => simp [Document.skimNumber, behind, skimmed]
  | digits nonzero digital =>
    unfold Document.skimNumber
    split
    · rename_i zero
      exact absurd (List.cons.inj zero).1 nonzero
    · rw [if_pos (startsWithDigit_append (by simp) digital _), skipDigits_append digital behind,
        skimmed]

/-! ## Lists and objects -/

/-- What follows the opening bracket of a list, up to its closing one, and the texts of its
items. -/
inductive ItemsText : Bool → List (List Char) → List Char → Prop where
  | close {first : Bool} {gap : List Char} (space : Space gap) : ItemsText first [] (gap ++ [']'])
  | item {first : Bool} {gap value more : List Char} {values : List (List Char)}
      (lead : Lead first gap) (rest : ItemsText false values more) :
      ItemsText first (value :: values) (gap ++ (value ++ more))

/-- What follows the opening bracket of an object, up to its closing one, and the keys and the texts
of its members. `Key` tells which keys the strings are. -/
inductive MembersText {κ : Type} (Key : List Char → κ → Prop) :
    Bool → List (κ × List Char) → List Char → Prop where
  | close {first : Bool} {gap : List Char} (space : Space gap) :
      MembersText Key first [] (gap ++ ['\x7d'])
  | member {first : Bool} {gap body between behind value more : List Char} {key : κ}
      {members : List (κ × List Char)} (lead : Lead first gap) (name : Key body key)
      (spaceBetween : Space between) (spaceBehind : Space behind)
      (rest : MembersText Key false members more) :
      MembersText Key first ((key, value) :: members)
        (gap ++ '"' :: (body ++ (between ++ ':' :: (behind ++ (value ++ more)))))

/-- The text of a value. Keys inside a value count as strings only. -/
inductive ValueText : List Char → Prop where
  | null : ValueText ['n', 'u', 'l', 'l']
  | yes : ValueText ['t', 'r', 'u', 'e']
  | no : ValueText ['f', 'a', 'l', 's', 'e']
  | string {body : List Char} (literal : StringText body) : ValueText ('"' :: body)
  | number {text : List Char} (literal : NumberText text) : ValueText text
  | list {values : List (List Char)} {inner : List Char} (items : ItemsText true values inner)
      (valid : ∀ value ∈ values, ValueText value) : ValueText ('[' :: inner)
  | object {members : List (Unit × List Char)} {inner : List Char}
      (listed : MembersText (fun body _ => StringText body) true members inner)
      (valid : ∀ member ∈ members, ValueText member.2) : ValueText ('\x7b' :: inner)

theorem ends_lead {gap : List Char} (lead : Lead false gap) (rest : List Char) :
    Ends (gap ++ rest) := by
  cases lead with
  | later spaceBefore spaceAfter =>
    rw [List.append_assoc]
    exact ends_gap spaceBefore (by decide) _

/-- What stands behind an item ends it. -/
theorem ItemsText.ends {values : List (List Char)} {text : List Char}
    (items : ItemsText false values text) (rest : List Char) : Ends (text ++ rest) := by
  cases items with
  | close space =>
    rw [List.append_assoc]
    exact ends_gap space (by decide) rest
  | item lead more =>
    rw [List.append_assoc]
    exact ends_lead lead _

/-- What stands behind a member ends it. -/
theorem MembersText.ends {κ : Type} {Key : List Char → κ → Prop} {members : List (κ × List Char)}
    {text : List Char} (listed : MembersText Key false members text) (rest : List Char) :
    Ends (text ++ rest) := by
  cases listed with
  | close space =>
    rw [List.append_assoc]
    exact ends_gap space (by decide) rest
  | member lead name spaceBetween spaceBehind more =>
    rw [List.append_assoc]
    exact ends_lead lead _

/-! ## Values that are skimmed -/

variable {inside : List Bracket} {gap rest after : List Char} {c : Char}

theorem passValue_scalar (space : Space gap) (solid : isSpace c = false) (list : c ≠ '[')
    (object : c ≠ '\x7b') (done : passScalar .skim (c :: rest) = .ok after) :
    passValue .skim inside (gap ++ c :: rest) = passRest .skim inside after := by
  rw [passValue]
  split <;> rename_i start <;> rw [skipSpace_gap space solid] at start
  · cases start
  · obtain ⟨rfl, rfl⟩ := List.cons.inj start
    simp only [list, object, or_self, if_false]
    split <;> rename_i again <;> rw [done] at again
    · cases again
    · obtain rfl := Except.ok.inj again
      rfl

theorem passValue_emptyList (space : Space gap) {inner : List Char} (blank : Space inner) :
    passValue .skim inside (gap ++ '[' :: (inner ++ ']' :: rest)) =
      passRest .skim inside rest := by
  rw [passValue]
  split <;> rename_i start <;> rw [skipSpace_gap space rfl] at start
  · cases start
  · obtain ⟨rfl, rfl⟩ := List.cons.inj start
    simp only [true_or, if_true, reduceCtorEq, false_and, if_false]
    split <;> rename_i next <;> rw [skipSpace_gap blank rfl] at next
    · cases next
    · obtain ⟨rfl, rfl⟩ := List.cons.inj next
      simp

theorem passValue_list (space : Space gap) (first : skipSpace rest = c :: after)
    (goesOn : c ≠ ']') :
    passValue .skim inside (gap ++ '[' :: rest) = passValue .skim (.list :: inside) rest := by
  rw [passValue]
  split <;> rename_i start <;> rw [skipSpace_gap space rfl] at start
  · cases start
  · obtain ⟨rfl, rfl⟩ := List.cons.inj start
    simp only [true_or, if_true, reduceCtorEq, false_and, if_false]
    split <;> rename_i next <;> rw [first] at next
    · cases next
    · obtain ⟨rfl, rfl⟩ := List.cons.inj next
      simp [goesOn]

theorem passValue_emptyObject (space : Space gap) {inner : List Char} (blank : Space inner) :
    passValue .skim inside (gap ++ '\x7b' :: (inner ++ '\x7d' :: rest)) =
      passRest .skim inside rest := by
  rw [passValue]
  split <;> rename_i start <;> rw [skipSpace_gap space rfl] at start
  · cases start
  · obtain ⟨rfl, rfl⟩ := List.cons.inj start
    simp only [or_true, if_true, reduceCtorEq, false_and, if_false]
    split <;> rename_i next <;> rw [skipSpace_gap blank rfl] at next
    · cases next
    · obtain ⟨rfl, rfl⟩ := List.cons.inj next
      simp

theorem passValue_object (space : Space gap) {key value : List Char}
    (first : skipSpace rest = '"' :: key) (passed : passKey .skim ('"' :: key) = .ok value) :
    passValue .skim inside (gap ++ '\x7b' :: rest) = passValue .skim (.object :: inside) value := by
  rw [passValue]
  split <;> rename_i start <;> rw [skipSpace_gap space rfl] at start
  · cases start
  · obtain ⟨rfl, rfl⟩ := List.cons.inj start
    simp only [or_true, if_true, reduceCtorEq, false_and, if_false]
    split <;> rename_i next <;> rw [first] at next
    · cases next
    · obtain ⟨rfl, rfl⟩ := List.cons.inj next
      simp only [Char.reduceEq, if_false]
      split <;> rename_i again <;> rw [passed] at again
      · cases again
      · obtain rfl := Except.ok.inj again
        rfl

/-- The bracket that closes a bracket. -/
def Bracket.closing : Bracket → Char
  | .list => ']'
  | .object => '\x7d'

theorem passRest_closing {bracket : Bracket} (space : Space gap) :
    passRest .skim (bracket :: inside) (gap ++ bracket.closing :: rest) =
      passRest .skim inside rest := by
  cases bracket with
  | list | object =>
    rw [passRest]
    split <;> rename_i start <;> rw [skipSpace_gap space rfl] at start
    · cases start
    · obtain ⟨rfl, rfl⟩ := List.cons.inj start
      simp [Bracket.closing]

theorem passRest_item (space : Space gap) :
    passRest .skim (.list :: inside) (gap ++ ',' :: rest) =
      passValue .skim (.list :: inside) rest := by
  rw [passRest]
  split <;> rename_i start <;> rw [skipSpace_gap space rfl] at start
  · cases start
  · obtain ⟨rfl, rfl⟩ := List.cons.inj start
    simp

theorem passRest_member (space : Space gap) {value : List Char}
    (passed : passKey .skim (skipSpace rest) = .ok value) :
    passRest .skim (.object :: inside) (gap ++ ',' :: rest) =
      passValue .skim (.object :: inside) value := by
  rw [passRest]
  split <;> rename_i start <;> rw [skipSpace_gap space rfl] at start
  · cases start
  · obtain ⟨rfl, rfl⟩ := List.cons.inj start
    simp only [Char.reduceEq, if_false, if_true]
    split <;> rename_i again <;> rw [passed] at again
    · cases again
    · obtain rfl := Except.ok.inj again
      rfl

/-- A value of the grammar is passed over inside any brackets, up to what follows it. -/
def Passes (text : List Char) : Prop :=
  ∀ inside {gap rest : List Char}, Space gap → Ends rest →
    passValue .skim inside (gap ++ (text ++ rest)) = passRest .skim inside rest

theorem StringText.passKey {body between : List Char} (literal : StringText body)
    (space : Space between) (rest : List Char) :
    Document.passKey .skim ('"' :: (body ++ (between ++ ':' :: rest))) = .ok rest := by
  simp [Document.passKey, passString, literal.skimString, colon_gap space]

/-- The items behind the first one are passed over up to the end of their list. -/
theorem ItemsText.passRest {values : List (List Char)} {text : List Char}
    (items : ItemsText false values text) (passes : ∀ value ∈ values, Passes value)
    (inside : List Bracket) (rest : List Char) :
    Document.passRest .skim (.list :: inside) (text ++ rest) =
      Document.passRest .skim inside rest := by
  generalize later : false = first at items
  induction items with
  | close space =>
    rw [List.append_assoc]
    exact passRest_closing space
  | @item _ gap value more values lead others ih =>
    subst later
    obtain ⟨passed, remaining⟩ := List.forall_mem_cons.mp passes
    cases lead with
    | later spaceBefore spaceAfter =>
      rw [List.append_assoc, List.append_assoc, List.append_assoc, List.cons_append,
        passRest_item spaceBefore, passed _ spaceAfter (others.ends rest)]
      exact ih remaining rfl

/-- The members behind the first one are passed over up to the end of their object. -/
theorem MembersText.passRest {members : List (Unit × List Char)} {text : List Char}
    (listed : MembersText (fun body _ => StringText body) false members text)
    (passes : ∀ member ∈ members, Passes member.2) (inside : List Bracket) (rest : List Char) :
    Document.passRest .skim (.object :: inside) (text ++ rest) =
      Document.passRest .skim inside rest := by
  generalize later : false = first at listed
  induction listed with
  | close space =>
    rw [List.append_assoc]
    exact passRest_closing space
  | @member _ gap body between behind value more key members lead literal spaceBetween spaceBehind
      others ih =>
    subst later
    obtain ⟨passed, remaining⟩ := List.forall_mem_cons.mp passes
    cases lead with
    | later spaceBefore spaceAfter =>
      have key := literal.passKey spaceBetween (behind ++ (value ++ (more ++ rest)))
      rw [← skipSpace_gap spaceAfter rfl] at key
      simp only [List.append_assoc, List.cons_append]
      rw [passRest_member spaceBefore key, passed _ spaceBehind (others.ends rest)]
      exact ih remaining rfl

/-- A value begins with a character that neither is a space nor closes a list. -/
theorem ValueText.starts {text : List Char} (value : ValueText text) :
    ∃ c more, text = c :: more ∧ isSpace c = false ∧ c ≠ ']' := by
  cases value with
  | null | yes | no | string | list | object => exact ⟨_, _, rfl, rfl, by decide⟩
  | number literal =>
    cases literal with
    | positive size =>
      obtain ⟨c, more, rfl, digit⟩ := size.starts
      exact ⟨c, more, rfl, isSpace_of_isDigit digit, ne_of_isDigit digit rfl⟩
    | negative size => exact ⟨_, _, rfl, rfl, by decide⟩

theorem NumberText.passes {text : List Char} (literal : NumberText text) : Passes text := by
  intro inside gap rest space ended
  cases literal with
  | positive size =>
    have skimmed := size.skimNumber ended
    obtain ⟨c, more, rfl, digit⟩ := size.starts
    have differs {d : Char} (other : d.isDigit = false) : c ≠ d := ne_of_isDigit digit other
    refine passValue_scalar space (isSpace_of_isDigit digit) (differs rfl) (differs rfl) ?_
    simpa [passScalar, differs, digit, passNumber] using skimmed
  | negative size =>
    exact passValue_scalar space rfl (by decide) (by decide) (size.skimNumber ended)

/-- Every value is passed over. -/
theorem ValueText.passes {text : List Char} (value : ValueText text) : Passes text := by
  induction value with
  | null | yes | no =>
    intro inside gap rest space ended
    exact passValue_scalar space rfl (by decide) (by decide) rfl
  | string literal =>
    intro inside gap rest space ended
    exact passValue_scalar space rfl (by decide) (by decide) (literal.skimString rest)
  | number literal => exact literal.passes
  | list items valid passes =>
    intro inside gap rest space ended
    cases items with
    | close blank =>
      rw [List.cons_append, List.append_assoc]
      exact passValue_emptyList space blank
    | item lead others =>
      obtain ⟨passed, remaining⟩ := List.forall_mem_cons.mp passes
      obtain ⟨c, more, rfl, solid, goesOn⟩ := (valid _ List.mem_cons_self).starts
      cases lead with
      | first blank =>
        rw [List.cons_append, List.append_assoc, List.append_assoc]
        refine (passValue_list space (skipSpace_gap blank solid _) goesOn).trans ?_
        refine (passed _ blank (others.ends rest)).trans ?_
        exact others.passRest remaining inside rest
  | object listed valid passes =>
    intro inside gap rest space ended
    cases listed with
    | close blank =>
      rw [List.cons_append, List.append_assoc]
      exact passValue_emptyObject space blank
    | member lead literal spaceBetween spaceBehind others =>
      obtain ⟨passed, remaining⟩ := List.forall_mem_cons.mp passes
      cases lead with
      | first blank =>
        simp only [List.append_assoc, List.cons_append]
        rw [passValue_object space (skipSpace_gap blank rfl _) (literal.passKey spaceBetween _),
          passed _ spaceBehind (others.ends rest)]
        exact others.passRest remaining inside rest

theorem ValueText.pass {text gap rest : List Char} (value : ValueText text) (space : Space gap)
    (ended : Ends rest) : Document.pass .skim (gap ++ (text ++ rest)) = .ok rest := by
  rw [Document.pass, value.passes [] space ended, Document.passRest]

end Linewise.Document
