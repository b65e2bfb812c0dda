import Linewise.Proofs.DocumentGrammar
import Linewise.Proofs.DoubleLiterals

/-! Written documents are documents of the grammar: each literal is one of its values, and each
block is an object or a list of what was put into it. The grammar is unambiguous about objects, so a
text lists its members in one way only. -/
namespace Linewise.Document

/-! ## Literals -/

theorem Contents.stringText {body contents : List Char} (literal : Contents body contents) :
    StringText body := by
  induction literal with
  | close => exact .close
  | plain quote backslash printed _ ih => exact .plain quote backslash printed ih
  | letter stands _ ih => exact .letter stands ih
  | unit digits _ _ _ ih => exact .unit digits ih
  | pair first _ second _ _ ih => exact .unit first (.unit second ih)

theorem Spelled.stringText {body : List Char} {key : String} (spelled : Spelled body key) :
    StringText body :=
  Contents.stringText spelled

theorem valueText_writeText (s : String) : ValueText (writeText s) :=
  .string (spelled_written s).stringText

theorem digital_toDigits (n : Nat) : Text.Digital (Nat.toDigits 10 n) := fun _ =>
  Nat.isDigit_of_mem_toDigits (by decide) (by decide)

theorem wholeText_toDigits (n : Nat) : WholeText (Nat.toDigits 10 n) := by
  rcases Nat.eq_zero_or_pos n with rfl | above
  · exact .zero
  · have digital := digital_toDigits n
    obtain ⟨c, more, digits, -, nonzero⟩ := toDigits_eq_cons above
    rw [digits] at digital ⊢
    exact .digits nonzero digital

theorem numberText_writeInteger (n : Int64) : NumberText (writeInteger n) := by
  have size := SizeText.parts (wholeText_toDigits n.toInt.natAbs) .none .none
  rw [List.append_nil, List.append_nil] at size
  rw [writeInteger_eq]
  split
  · exact .negative size
  · exact .positive size

theorem exponentText_written (n : Int) : ExponentText ('e' :: Decimal.exponentText true n) := by
  have some : Nat.toDigits 10 n.natAbs ≠ [] := Nat.toDigits_ne_nil
  have digital := digital_toDigits n.natAbs
  unfold Decimal.exponentText
  simp only
  split
  · exact .digits (.inl rfl) (.inr (.inr rfl)) some digital
  · exact .digits (.inl rfl) (.inr (.inl rfl)) some digital

variable {d : Decimal}

/-- The first digits of a decimal stand before a point. -/
theorem wholeText_of_digits {before after : List Char} (some : 0 < d.coefficient)
    (split : d.digits = before ++ after) (first : before ≠ []) : WholeText before := by
  have digital := isDigit_digits d
  obtain ⟨c, more, digits, -, nonzero⟩ := toDigits_eq_cons some
  change d.digits = c :: more at digits
  obtain ⟨head, tail, rfl⟩ := List.exists_cons_of_ne_nil first
  obtain rfl : head = c := by
    rw [digits, List.cons_append] at split
    exact (List.cons.inj split).1.symm
  exact .digits nonzero fun e member => digital e (split ▸ List.mem_append_left _ member)

theorem sizeText_plain (some : 0 < d.coefficient) : SizeText d.plain := by
  have digital := isDigit_digits d
  unfold Decimal.plain
  simp only
  split
  · obtain ⟨c, more, digits, -, nonzero⟩ := toDigits_eq_cons some
    change d.digits = c :: more at digits
    have whole : Text.Digital (d.digits ++ List.replicate d.exponent.toNat '0') :=
      List.forall_mem_append.mpr ⟨digital, isDigit_zeros _⟩
    rw [digits, List.cons_append] at whole ⊢
    exact .parts (.digits nonzero whole) (.digits (by simp) (isDigit_zeros 1)) .none
  · split
    · rename_i fewer
      have split := (List.take_append_drop (d.digits.length - (-d.exponent).toNat) d.digits).symm
      have first : d.digits.take (d.digits.length - (-d.exponent).toNat) ≠ [] := by
        rw [← List.length_pos_iff, List.length_take]
        omega
      have second : d.digits.drop (d.digits.length - (-d.exponent).toNat) ≠ [] := by
        rw [← List.length_pos_iff, List.length_drop]
        omega
      have size := SizeText.parts (wholeText_of_digits some split first)
        (.digits second fun e member => digital e (List.mem_of_mem_drop member)) .none
      rwa [List.append_nil] at size
    · have behind : Text.Digital
          (List.replicate ((-d.exponent).toNat - d.digits.length) '0' ++ d.digits) :=
        List.forall_mem_append.mpr ⟨isDigit_zeros _, digital⟩
      have size := SizeText.parts .zero (.digits (by simp [Decimal.digits]) behind) .none
      rwa [List.append_nil] at size

theorem sizeText_scientific (some : 0 < d.coefficient) : SizeText (d.scientific true) := by
  have digital := isDigit_digits d
  have exponent := exponentText_written d.leading
  unfold Decimal.scientific
  simp only
  split
  · rename_i first second more digits
    have split : d.digits = [first] ++ second :: more := digits
    have behind : Text.Digital (second :: more) := fun e member =>
      digital e (split ▸ List.mem_append_right _ member)
    exact .parts (wholeText_of_digits some split (by simp)) (.digits (by simp) behind) exponent
  · exact .parts (wholeText_toDigits d.coefficient) .none exponent

theorem valueText_signed {text : List Char} (size : SizeText text) (negative : Bool) :
    ValueText (Decimal.signed negative text) := by
  cases negative with
  | true => exact .number (.negative size)
  | false => exact .number (.positive size)

/-- A double is written as a number, or as `null` if it is not finite. -/
theorem valueText_floatText (x : Float) : ValueText (floatText x) := by
  unfold floatText Decimal.Layout.text
  split
  · exact valueText_signed (.parts .zero (.digits (by simp) (isDigit_zeros 1)) .none) _
  · rename_i sign m e positive unpacked
    have canonical := Double.canonical_of_unpack unpacked
    obtain ⟨some, -⟩ :=
      Decimal.shortest_spec (e := e) canonical.positive canonical.lt_two_pow floatLayout.tie
    apply valueText_signed
    unfold Decimal.Layout.write
    split
    · exact sizeText_plain some
    · exact sizeText_scientific some
  · exact .null

theorem valueText_writeValue (v : Value) : ValueText (writeValue v) := by
  cases v with
  | int n => exact .number (numberText_writeInteger n)
  | float x => exact valueText_floatText x
  | bool b =>
    cases b with
    | true => exact .yes
    | false => exact .no
  | str s => exact valueText_writeText s

/-! ## Objects -/

/-- A text is an object that lists some members in this order, each a name and the text of a
value. -/
inductive Lists : List Char → List (String × List Char) → Prop where
  | object {inner : List Char} {members : List (String × List Char)}
      (listed : MembersText Spelled true members inner)
      (valid : ∀ member ∈ members, ValueText member.2) : Lists ('\x7b' :: inner) members

theorem MembersText.forget {first : Bool} {members : List (String × List Char)} {inner : List Char}
    (listed : MembersText Spelled first members inner) :
    MembersText (fun body _ => StringText body) first (members.map fun member => ((), member.2))
      inner := by
  induction listed with
  | close space => exact .close space
  | member lead name spaceBetween spaceBehind _ ih =>
    exact .member lead name.stringText spaceBetween spaceBehind ih

theorem Lists.valueText {text : List Char} {members : List (String × List Char)}
    (lists : Lists text members) : ValueText text := by
  cases lists with
  | object listed valid =>
    exact .object listed.forget (List.forall_mem_map.mpr valid)

/-- A value ends where it does: neither it nor what follows it can be chosen otherwise. -/
theorem ValueText.unique {gap other value again rest more : List Char} (space : Space gap)
    (spaceOther : Space other) (valid : ValueText value) (validAgain : ValueText again)
    (ended : Ends rest) (endedMore : Ends more)
    (same : gap ++ (value ++ rest) = other ++ (again ++ more)) : value = again ∧ rest = more := by
  have passed := valid.pass space ended
  rw [same, validAgain.pass spaceOther endedMore] at passed
  obtain rfl := Except.ok.inj passed
  have solid {text : List Char} (isValue : ValueText text) (behind : List Char) :
      skipSpace (text ++ behind) = text ++ behind := by
    obtain ⟨c, others, rfl, visible, -⟩ := isValue.starts
    exact skipSpace_cons visible _
  have skipped := congrArg skipSpace same
  rw [skipSpace_append space, skipSpace_append spaceOther, solid valid, solid validAgain] at skipped
  exact ⟨List.append_cancel_right skipped, rfl⟩

theorem MembersText.ended {κ : Type} {Key : List Char → κ → Prop} {members : List (κ × List Char)}
    {text : List Char} (listed : MembersText Key false members text) : Ends text := by
  simpa using listed.ends []

/-- What the first key of an object is decides whether it has members, and which comes first. -/
theorem MembersText.next {first : Bool} {members : List (String × List Char)} {inner : List Char}
    (listed : MembersText Spelled first members inner) :
    (members = [] ∧ nextKey first inner = .ok (none, [])) ∨
      ∃ key value tail rest behind more, members = (key, value) :: tail ∧
        nextKey first inner = .ok (some key, rest) ∧ colon rest = .ok (behind ++ (value ++ more)) ∧
        Space behind ∧ MembersText Spelled false tail more := by
  cases listed with
  | close space => exact .inl ⟨rfl, nextKey_close space first []⟩
  | member lead name spaceBetween spaceBehind others =>
    exact .inr ⟨_, _, _, _, _, _, rfl, nextKey_lead lead name.spells _, colon_gap spaceBetween _,
      spaceBehind, others⟩

/-- The members of an object are what its text says. -/
theorem MembersText.unique {first : Bool} {members others : List (String × List Char)}
    {inner : List Char} (listed : MembersText Spelled first members inner)
    (valid : ∀ member ∈ members, ValueText member.2)
    (again : MembersText Spelled first others inner)
    (validAgain : ∀ member ∈ others, ValueText member.2) : members = others := by
  -- Both listings are read by the same functions, which find one key and one end of its value.
  induction members generalizing first inner others with
  | nil =>
    obtain ⟨-, closed⟩ | ⟨_, _, _, _, _, _, impossible, -⟩ := listed.next
    · obtain ⟨rfl, -⟩ | ⟨_, _, _, _, _, _, -, next, -⟩ := again.next
      · rfl
      · rw [closed] at next
        cases next
    · cases impossible
  | cons member members ih =>
    obtain ⟨impossible, -⟩ | ⟨key, value, _, rest, behind, more, same, next, separator, space,
      later⟩ := listed.next
    · cases impossible
    obtain ⟨rfl, rfl⟩ := List.cons.inj same
    obtain ⟨-, closed⟩ | ⟨key', value', others, rest', behind', more', rfl, next', separator',
      space', later'⟩ := again.next
    · rw [next] at closed
      cases closed
    obtain ⟨sameKey, rfl⟩ := Prod.mk.inj (Except.ok.inj (next.symm.trans next'))
    obtain rfl := Option.some.inj sameKey
    have text := Except.ok.inj (separator.symm.trans separator')
    obtain ⟨validHere, validLater⟩ := List.forall_mem_cons.mp valid
    obtain ⟨validHere', validLater'⟩ := List.forall_mem_cons.mp validAgain
    obtain ⟨rfl, rfl⟩ :=
      ValueText.unique space space' validHere validHere' later.ended later'.ended text
    rw [ih later validLater later' validLater']

/-- A text lists its members in one way only. -/
theorem Lists.unique {text : List Char} {members others : List (String × List Char)}
    (lists : Lists text members) (again : Lists text others) : members = others := by
  cases lists with
  | object listed valid =>
    cases again with
    | object listedAgain validAgain => exact listed.unique valid listedAgain validAgain

/-! ## Blocks -/

/-- A member is written with one space before its value. -/
theorem MembersText.written {first : Bool} {gap more : List Char}
    {members : List (String × List Char)} (lead : Lead first gap) (name : String)
    (value : List Char) (rest : MembersText Spelled false members more) :
    MembersText Spelled first ((name, value) :: members)
      (gap ++ (writeMember name value ++ more)) := by
  have text : MembersText Spelled first ((name, value) :: members) _ :=
    .member lead (spelled_written name) space_nil space_one rest
  simpa [writeMember, writeText] using text

theorem membersText_furtherLines (level : Nat) {gap : List Char} (space : Space gap)
    (members : List (String × List Char)) :
    MembersText Spelled false members
      (furtherLines level (members.map fun member => writeMember member.1 member.2) ++
        (gap ++ ['\x7d'])) := by
  induction members with
  | nil => exact .close space
  | cons member members ih =>
    rw [List.map_cons, furtherLines_cons, List.append_assoc, List.append_assoc]
    exact .written (lead_newLine level) member.1 member.2 ih

/-- A block of members is an object that lists them. -/
theorem lists_block (level : Nat) {members : List (String × List Char)}
    (valid : ∀ member ∈ members, ValueText member.2) :
    Lists (writeBlock '\x7b' '\x7d' level
      (members.map fun member => writeMember member.1 member.2)) members := by
  cases members with
  | nil => exact .object (.close space_nil) valid
  | cons member members =>
    rw [List.map_cons, writeBlock_cons]
    refine .object (.written (.first (space_newLine _)) member.1 member.2 ?_) valid
    exact membersText_furtherLines (level + 1) (space_newLine level) members

theorem itemsText_furtherLines (level : Nat) {gap : List Char} (space : Space gap)
    (values : List (List Char)) :
    ItemsText false values (furtherLines level values ++ (gap ++ [']'])) := by
  induction values with
  | nil => exact .close space
  | cons value values ih =>
    rw [furtherLines_cons, List.append_assoc, List.append_assoc]
    exact .item (lead_newLine level) ih

/-- A block of items is a list of them. -/
theorem valueText_block (level : Nat) {values : List (List Char)}
    (valid : ∀ value ∈ values, ValueText value) : ValueText (writeBlock '[' ']' level values) := by
  cases values with
  | nil => exact .list (.close space_nil) valid
  | cons value values =>
    rw [writeBlock_cons]
    refine .list (.item (.first (space_newLine _)) ?_) valid
    exact itemsText_furtherLines (level + 1) (space_newLine level) values

theorem valueText_writeArray (level : Nat) (items : Array Int64) :
    ValueText (writeArray level items) := by
  apply valueText_block
  exact List.forall_mem_map.mpr fun n _ => .number (numberText_writeInteger n)

/-- A table is written as an object that lists its entries in their order. -/
theorem lists_writeTable {α : Type} {write : α → List Char} (valid : ∀ a, ValueText (write a))
    (level : Nat) (t : Table α) :
    Lists (writeTable level write t) (t.entries.map fun e => (e.1, write e.2)) := by
  have all : ∀ member ∈ t.entries.map fun e => (e.1, write e.2), ValueText member.2 :=
    List.forall_mem_map.mpr fun e _ => valid e.2
  have lists := lists_block level all
  rwa [List.map_map] at lists

/-- The sections of a store and their texts, in the order in which they are written. -/
def writtenSections (s : Store) : List (String × List Char) :=
  [("variables", writeTable 1 writeValue s.variables),
    ("arrays", writeTable 1 (writeArray 2) s.arrays),
    ("dictionaries", writeTable 1 (writeTable 2 writeInteger) s.dictionaries),
    ("classes", writeTable 1 (writeTable 2 writeText) s.classes)]

theorem lists_integers (t : Table Int64) :
    Lists (writeTable 2 writeInteger t) (t.entries.map fun e => (e.1, writeInteger e.2)) :=
  lists_writeTable (fun n => .number (numberText_writeInteger n)) 2 t

theorem lists_texts (t : Table String) :
    Lists (writeTable 2 writeText t) (t.entries.map fun e => (e.1, writeText e.2)) :=
  lists_writeTable valueText_writeText 2 t

/-- A store is written as an object that lists its four sections. -/
theorem lists_write (s : Store) : Lists (write s).toList (writtenSections s) := by
  have valid : ∀ member ∈ writtenSections s, ValueText member.2 := by
    simp only [writtenSections, List.forall_mem_cons]
    refine ⟨?_, ?_, ?_, ?_, by simp⟩
    · exact (lists_writeTable valueText_writeValue 1 s.variables).valueText
    · exact (lists_writeTable (valueText_writeArray 2) 1 s.arrays).valueText
    · exact (lists_writeTable (fun t => (lists_integers t).valueText) 1 s.dictionaries).valueText
    · exact (lists_writeTable (fun t => (lists_texts t).valueText) 1 s.classes).valueText
  rw [write, String.toList_ofList]
  exact lists_block 0 valid

end Linewise.Document
