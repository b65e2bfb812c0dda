import Linewise.Proofs.DocumentGrammar
import Linewise.Proofs.NameOrder

/-! Tolerant reading. A document may list its sections in any order, among members that mean nothing
to it, with spaces anywhere and with entries that later ones replace; it is read as the namespaces
that it lists. Numbers come first: a number of the grammar is read up to its end, unless its size is
out of range, and what follows it has no say in that. -/
namespace Linewise.Document

/-! ## Numbers -/

/-- A reader of numbers takes a text for one number, whatever ends it, or finds it out of range. -/
inductive Settled (run : List Char → Read Numeric) (text : List Char) : Prop where
  | number (n : Numeric) (runs : ∀ rest, Ends rest → run (text ++ rest) = .ok (n, rest))
  | outOfRange (fails : ∀ rest, Ends rest →
      ∃ left bytes, run (text ++ rest) = .error ⟨.outOfRange, left, bytes⟩)

theorem Settled.congr {run other : List Char → Read Numeric} {text suffix : List Char}
    (settled : Settled other suffix)
    (same : ∀ rest, Ends rest → run (text ++ rest) = other (suffix ++ rest)) :
    Settled run text := by
  cases settled with
  | number n runs => exact .number n fun rest ended => (same rest ended).trans (runs rest ended)
  | outOfRange fails =>
    refine .outOfRange fun rest ended => ?_
    rw [same rest ended]
    exact fails rest ended

theorem settled_double (positive : Bool) (significand : Nat) (scale : Int) :
    Settled (double positive significand scale) [] := by
  cases size : magnitude? significand scale with
  | some x => exact .number _ fun rest _ => by rw [List.nil_append, double, size]
  | none => exact .outOfRange fun rest _ => ⟨rest, 0, by rw [List.nil_append, double, size]; rfl⟩

/-- Of a run of digits a beginning is gathered. What it is depends on the digits only. -/
theorem gather_run (limit sofar : Nat) {digits : List Char} (digital : Text.Digital digits) :
    ∃ taken left value, digits = taken ++ left ∧ ∀ rest, startsWithDigit rest = false →
      gather limit sofar (digits ++ rest) = (value, left ++ rest) := by
  induction digits generalizing sofar with
  | nil =>
    refine ⟨[], [], sofar, rfl, ?_⟩
    intro rest ended
    cases rest with
    | nil => rfl
    | cons c more =>
      have other : c.isDigit = false := by simpa [startsWithDigit] using ended
      simp [gather, other]
  | cons c digits ih =>
    obtain ⟨digit, others⟩ := List.forall_mem_cons.mp digital
    by_cases room : sofar * 10 + digitValue c ≤ limit
    · obtain ⟨taken, left, value, rfl, gathered⟩ := ih (sofar * 10 + digitValue c) others
      refine ⟨c :: taken, left, value, rfl, ?_⟩
      intro rest ended
      rw [List.cons_append, gather, if_pos ⟨digit, room⟩, gathered rest ended]
    · refine ⟨[], c :: digits, sofar, rfl, ?_⟩
      intro rest ended
      rw [List.cons_append, gather, if_neg fun fits => room fits.2]

theorem settled_exponentDigits (positive raises : Bool) (significand : Nat) (scale : Int)
    {digits : List Char} (some : digits ≠ []) (digital : Text.Digital digits) :
    Settled (exponentDigits positive significand scale raises) digits := by
  obtain ⟨taken, left, value, cut, gathered⟩ := gather_run maxScale 0 digital
  obtain ⟨c, more, rfl⟩ := List.exists_cons_of_ne_nil some
  have digit := digital c List.mem_cons_self
  have read (rest : List Char) (ended : Ends rest) := gathered rest ended.startsWithDigit
  -- If digits are left over, the exponent is beyond every double but zero.
  cases left with
  | nil =>
    refine (settled_double positive significand
      (if raises then scale + value else scale - value)).congr fun rest ended => ?_
    have all := read rest ended
    rw [List.cons_append] at all ⊢
    simp [exponentDigits, digit, all, ended.startsWithDigit]
  | cons d left =>
    have further : d.isDigit = true := digital d (by simp [cut])
    have rests : Text.Digital (d :: left) := fun e member => digital e (by simp [cut, member])
    by_cases beyond : significand ≠ 0 ∧ raises = true
    · refine .outOfRange fun rest ended => ⟨d :: left ++ rest, 1, ?_⟩
      have part := read rest ended
      rw [List.cons_append] at part ⊢
      simp [exponentDigits, digit, part, startsWithDigit, further, beyond, Fault.atByte]
    · refine .number (.double (if positive then 0.0 else -0.0)) fun rest ended => ?_
      have part := read rest ended
      have skipped := skipDigits_append rests ended.startsWithDigit
      rw [List.cons_append] at part skipped ⊢
      simp only [exponentDigits, digit, if_true, part, List.cons_append, startsWithDigit,
        List.head?_cons, Option.any_some, further, if_neg beyond, skipped]

theorem ExponentText.settled {text : List Char} (exponent : ExponentText text) (positive : Bool)
    (significand : Nat) (scale : Int) : Settled (scaled positive significand scale) text := by
  cases exponent with
  | none =>
    apply (settled_double positive significand scale).congr
    intro rest ended
    exact ended.scaled positive significand scale
  | @digits letter sign digits either signed some digital =>
    have settled (raises : Bool) :=
      settled_exponentDigits positive raises significand scale some digital
    obtain ⟨c, more, rfl⟩ := List.exists_cons_of_ne_nil some
    have digit := digital c List.mem_cons_self
    have plus : c ≠ '+' := ne_of_isDigit digit rfl
    have minus : c ≠ '-' := ne_of_isDigit digit rfl
    rcases signed with rfl | rfl | rfl
    · apply (settled true).congr
      intro rest _
      rcases either with rfl | rfl <;> simp [scaled, exponent, plus, minus]
    · apply (settled true).congr
      intro rest _
      rcases either with rfl | rfl <;> rfl
    · apply (settled false).congr
      intro rest _
      rcases either with rfl | rfl <;> rfl

theorem settled_fraction (positive : Bool) (significand : Nat) (scale : Int)
    {digits exponent : List Char} (some : digits ≠ []) (digital : Text.Digital digits)
    (isExponent : ExponentText exponent) :
    Settled (fraction positive significand scale) (digits ++ exponent) := by
  obtain ⟨taken, left, value, rfl, gathered⟩ := gather_run maxSignificand significand digital
  apply (isExponent.settled positive value (scale - taken.length)).congr
  intro rest ended
  have behind := isExponent.startsWithDigit ended
  have count : (taken ++ left ++ (exponent ++ rest)).length - (left ++ (exponent ++ rest)).length =
      taken.length := by
    simp only [List.length_append]
    omega
  rw [List.append_assoc, fraction, gathered _ behind]
  simp only [count]
  cases left with
  | nil =>
    have longer :
        ([] ++ (exponent ++ rest)).length ≠ (taken ++ [] ++ (exponent ++ rest)).length := by
      have := List.length_pos_iff.mpr some
      simp only [List.append_nil, List.nil_append, List.length_append] at this ⊢
      omega
    rw [if_neg (by simp [behind]), if_neg longer, List.nil_append]
  | cons d left =>
    have rests : Text.Digital (d :: left) := fun e member =>
      digital e (List.mem_append_right _ member)
    rw [if_pos (startsWithDigit_append (by simp) rests _), skipDigits_append rests behind]

theorem settled_afterInteger (positive : Bool) (significand : Nat) {fraction exponent : List Char}
    (isFraction : FractionText fraction) (isExponent : ExponentText exponent) :
    Settled (afterInteger positive significand) (fraction ++ exponent) := by
  cases isFraction with
  | digits some digital =>
    apply (settled_fraction positive significand 0 some digital isExponent).congr
    intro rest _
    rfl
  | none =>
    have settled := isExponent.settled positive significand 0
    cases isExponent with
    | none =>
      apply Settled.number (whole positive significand)
      intro rest ended
      exact ended.afterInteger positive significand
    | digits either signed some digital =>
      apply settled.congr
      intro rest _
      rcases either with rfl | rfl <;> rfl

/-- Digits that do not fit raise the scale by their number. -/
theorem settled_afterLongInteger (positive : Bool) (significand : Nat)
    {digits fraction exponent : List Char} (digital : Text.Digital digits)
    (isFraction : FractionText fraction) (isExponent : ExponentText exponent) :
    Settled (afterLongInteger positive significand) (digits ++ (fraction ++ exponent)) := by
  have skipped (rest : List Char) (ended : Ends rest) :
      skipDigits (digits ++ (fraction ++ exponent) ++ rest) = fraction ++ (exponent ++ rest) := by
    rw [List.append_assoc, List.append_assoc]
    exact skipDigits_append digital (isFraction.startsWithDigit isExponent ended)
  have count (rest : List Char) : (digits ++ (fraction ++ exponent) ++ rest).length -
      (fraction ++ (exponent ++ rest)).length = digits.length := by
    simp only [List.length_append]
    omega
  cases isFraction with
  | digits some behind =>
    apply (settled_fraction positive significand digits.length some behind isExponent).congr
    intro rest ended
    simp only [afterLongInteger, skipped rest ended, count]
    rw [List.append_assoc]
    rfl
  | none =>
    apply (isExponent.settled positive significand digits.length).congr
    intro rest ended
    simp only [afterLongInteger, skipped rest ended, count]
    rw [List.nil_append]
    split
    · rename_i more point
      exact absurd rfl (isExponent.head ended '.' (by simp [point])).2
    · rfl

/-- A number of the grammar is settled, whatever its sign is. -/
theorem SizeText.settled {text : List Char} (size : SizeText text) (positive : Bool) :
    Settled (number positive) text := by
  obtain ⟨isWhole, isFraction, isExponent⟩ := size
  cases isWhole with
  | zero =>
    apply (settled_afterInteger positive 0 isFraction isExponent).congr
    intro rest ended
    have behind := isFraction.startsWithDigit isExponent ended
    simp [number, behind]
  | @digits c more nonzero digital =>
    obtain ⟨taken, left, value, cut, gathered⟩ := gather_run maxSignificand 0 digital
    have digit := digital c List.mem_cons_self
    have start (text : List Char) (behind : startsWithDigit text = false) :
        number positive (c :: more ++ text) =
          if startsWithDigit (left ++ text) then afterLongInteger positive value (left ++ text)
          else afterInteger positive value (left ++ text) := by
      have part := gathered text behind
      rw [List.cons_append] at part ⊢
      rw [number]
      · simp only [digit, if_true, part]
      · exact nonzero
    cases left with
    | nil =>
      apply (settled_afterInteger positive value isFraction isExponent).congr
      intro rest ended
      have behind := isFraction.startsWithDigit isExponent ended
      rw [List.append_assoc, List.append_assoc, start _ behind]
      simp [behind]
    | cons d left =>
      have rests : Text.Digital (d :: left) := fun e member =>
        digital e (cut ▸ List.mem_append_right _ member)
      apply (settled_afterLongInteger positive value rests isFraction isExponent).congr
      intro rest ended
      have behind := isFraction.startsWithDigit isExponent ended
      rw [List.append_assoc, List.append_assoc, start _ behind,
        if_pos (startsWithDigit_append (by simp) rests _), List.append_assoc, List.append_assoc]

/-! ## Values -/

/-- A number is read behind its sign. -/
theorem NumberText.exists_size {text : List Char} (literal : NumberText text) :
    ∃ positive size, SizeText size ∧ ∀ {gap : List Char}, Space gap → ∀ rest,
      runScalar (gap ++ (text ++ rest)) = numberValue positive (size ++ rest) := by
  cases literal with
  | positive size =>
    refine ⟨true, text, size, ?_⟩
    intro gap space rest
    obtain ⟨c, more, rfl, digit⟩ := size.starts
    have differs {d : Char} (other : d.isDigit = false) : c ≠ d := ne_of_isDigit digit other
    rw [List.cons_append, runScalar, skipSpace_gap space (isSpace_of_isDigit digit)]
    simp [differs, digit]
  | @negative text size =>
    refine ⟨false, text, size, ?_⟩
    intro gap space rest
    rw [List.cons_append, runScalar, skipSpace_gap space rfl]
    rfl

/-- Every number of the grammar is read as a value, unless it is out of range. -/
theorem NumberText.reads_or_outOfRange {text : List Char} (literal : NumberText text) :
    (∃ v, scalar.Reads text v) ∨ ∀ {gap rest : List Char}, Space gap → Ends rest →
      ∃ left bytes, runScalar (gap ++ (text ++ rest)) = .error ⟨.outOfRange, left, bytes⟩ := by
  obtain ⟨positive, size, isSize, runs⟩ := literal.exists_size
  cases isSize.settled positive with
  | number n read =>
    left
    refine ⟨n.value, (ValueText.number literal).starts, ?_⟩
    intro gap rest space ended
    show runScalar _ = _
    rw [runs space, numberValue, read rest ended]
  | outOfRange fails =>
    right
    intro gap rest space ended
    obtain ⟨left, bytes, failed⟩ := fails rest ended
    exact ⟨left, bytes, by rw [runs space, numberValue, failed]⟩

/-- What follows a number does not change what it denotes. -/
theorem NumberText.reads {text : List Char} {v : Value} (literal : NumberText text)
    (denotes : runScalar text = .ok (v, [])) : scalar.Reads text v := by
  have nothing : Ends [] := by simp [Ends]
  rcases literal.reads_or_outOfRange with ⟨w, reads⟩ | fails
  · have alone : runScalar ([] ++ (text ++ [])) = .ok (w, []) := reads.runs space_nil nothing
    rw [List.nil_append, List.append_nil, denotes] at alone
    obtain rfl : v = w := (Prod.mk.inj (Except.ok.inj alone)).1
    exact reads
  · obtain ⟨left, bytes, failed⟩ := fails space_nil nothing
    rw [List.nil_append, List.append_nil, denotes] at failed
    cases failed

/-- The text of a value of a variable. An integer has one text; a double is what its number is read
as by itself. -/
inductive ScalarText : List Char → Value → Prop where
  | yes : ScalarText ['t', 'r', 'u', 'e'] (.bool true)
  | no : ScalarText ['f', 'a', 'l', 's', 'e'] (.bool false)
  | string {body : List Char} {s : String} (spelled : Spelled body s) :
      ScalarText ('"' :: body) (.str s)
  | integer (n : Int64) : ScalarText (writeInteger n) (.int n)
  | double {text : List Char} {x : Float} (literal : NumberText text)
      (denotes : runScalar text = .ok (.float x, [])) : ScalarText text (.float x)

theorem ScalarText.reads {text : List Char} {v : Value} (value : ScalarText text v) :
    scalar.Reads text v := by
  cases value with
  | yes | no => exact scalar_reads_word rfl (by decide) fun _ => rfl
  | string spelled =>
    apply scalar_reads_word rfl (by decide)
    intro rest
    simp [runScalar, skipSpace_cons (show isSpace '"' = false by rfl), spelled.spells rest]
  | integer n => exact scalar_reads (v := .int n) (by simp [Value.kind])
  | double literal denotes => exact literal.reads denotes

/-- The text of an integer. -/
inductive IntegerText : List Char → Int64 → Prop where
  | digits (n : Int64) : IntegerText (writeInteger n) n

theorem IntegerText.reads {text : List Char} {n : Int64} (number : IntegerText text n) :
    integer.Reads text n := by
  cases number with
  | digits => exact integer_reads n

/-- The text of a string. -/
inductive QuotedText : List Char → String → Prop where
  | quotes {body : List Char} {s : String} (spelled : Spelled body s) : QuotedText ('"' :: body) s

theorem QuotedText.reads {text : List Char} {s : String} (quoted : QuotedText text s) :
    Document.text.Reads text s := by
  cases quoted with
  | quotes spelled =>
    refine ⟨⟨_, _, rfl, rfl, by decide⟩, ?_⟩
    intro gap rest space _
    show runText _ = _
    rw [List.cons_append, runText, skipSpace_gap space rfl]
    exact spelled.spells rest

/-- The text of an array of integers. -/
inductive ArrayText : List Char → Array Int64 → Prop where
  | list {inner : List Char} {items : Array Int64}
      (listed : ItemsText true (items.toList.map writeInteger) inner) :
      ArrayText ('[' :: inner) items

/-- The text of a table. The entries may stand in any order, and of several entries with one name
the last one counts. -/
inductive TableText {α : Type} (Item : List Char → α → Prop) : List Char → Table α → Prop where
  | object {inner : List Char} {members : List (String × List Char)} {entries : List (String × α)}
      {t : Table α} (listed : MembersText Spelled true members inner)
      (typed : members.Forall₂ (fun member entry => member.1 = entry.1 ∧ Item member.2 entry.2)
        entries)
      (last : ∀ name, entries.reverse.lookup name = t.get? name) :
      TableText Item ('\x7b' :: inner) t

theorem TableText.ofList {α : Type} {Item : List Char → α → Prop} {inner : List Char}
    {members : List (String × List Char)} (entries : List (String × α))
    (listed : MembersText Spelled true members inner)
    (typed : members.Forall₂ (fun member entry => member.1 = entry.1 ∧ Item member.2 entry.2)
      entries) : TableText Item ('\x7b' :: inner) (.ofList entries) :=
  .object listed typed fun name => (Table.get?_ofList entries name).symm

namespace Reader

variable {α : Type} {item : Reader α}

/-- The members of an object are read one by one, up to its end. -/
theorem members_listed {first : Bool} {members : List (String × List Char)} {inner : List Char}
    {entries : List (String × α)} (listed : MembersText Spelled first members inner)
    (reads : members.Forall₂ (fun member entry => member.1 = entry.1 ∧
      item.Reads member.2 entry.2) entries) (sofar : List (String × α)) (rest : List Char) :
    item.members first sofar (inner ++ rest) = .ok (sofar.reverse ++ entries, rest) := by
  induction listed generalizing entries sofar with
  | close space =>
    cases reads with
    | nil => simpa using members_close space _ sofar rest
  | @member _ gap body between behind value more key members lead name spaceBetween spaceBehind
      others ih =>
    cases reads with
    | @cons _ entry _ entries first reads =>
      obtain ⟨named, a⟩ := entry
      obtain ⟨rfl, read⟩ : key = named ∧ item.Reads value a := first
      simp only [List.append_assoc, List.cons_append]
      rw [members_step lead name.spells spaceBetween spaceBehind read (others.ends rest), ih reads]
      simp

/-- The items of a list are read one by one, up to its end. -/
theorem items_listed {first : Bool} {texts : List (List Char)} {inner : List Char} {values : List α}
    (listed : ItemsText first texts inner) (reads : texts.Forall₂ item.Reads values)
    (sofar : List α) (rest : List Char) :
    item.items first sofar (inner ++ rest) = .ok (sofar.reverse ++ values, rest) := by
  induction listed generalizing values sofar with
  | close space =>
    cases reads with
    | nil => simpa using items_close space _ sofar rest
  | item lead others ih =>
    cases reads with
    | cons read reads =>
      simp only [List.append_assoc]
      rw [items_step lead read (others.ends rest), ih reads]
      simp

end Reader

theorem ArrayText.reads {text : List Char} {items : Array Int64} (array : ArrayText text items) :
    integer.list.Reads text items := by
  cases array with
  | list listed =>
    have reads : (items.toList.map writeInteger).Forall₂ integer.Reads items.toList := by
      rw [List.forall₂_map_left_iff, List.forall₂_same]
      intro n _
      exact integer_reads n
    refine ⟨⟨_, _, rfl, rfl, by decide⟩, ?_⟩
    intro gap rest space _
    show integer.runList _ = _
    rw [List.cons_append, Reader.runList, skipSpace_gap space rfl]
    simp [Reader.items_listed listed reads]

/-- The text of a table is read as this table. -/
theorem TableText.reads {α : Type} {item : Reader α} {Item : List Char → α → Prop}
    (reads : ∀ {text a}, Item text a → item.Reads text a) {text : List Char} {t : Table α}
    (table : TableText Item text t) : item.map.Reads text t := by
  cases table with
  | @object inner members entries _ listed typed last =>
    have read : members.Forall₂ (fun member entry => member.1 = entry.1 ∧
        item.Reads member.2 entry.2) entries := typed.imp fun _ _ both => ⟨both.1, reads both.2⟩
    have same : Table.ofList entries = t := Table.ext_get? fun name =>
      (Table.get?_ofList entries name).trans (last name)
    refine ⟨⟨_, _, rfl, rfl, by decide⟩, ?_⟩
    intro gap rest space _
    show item.runMap _ = _
    rw [List.cons_append, Reader.runMap, skipSpace_gap space rfl]
    simp [Reader.members_listed listed read, same]

/-! ## Documents -/

/-- The text of one section of a store. -/
def SectionText (s : Store) (text : List Char) : Section → Prop
  | .variables => TableText ScalarText text s.variables
  | .arrays => TableText ArrayText text s.arrays
  | .dictionaries => TableText (TableText IntegerText) text s.dictionaries
  | .classes => TableText (TableText QuotedText) text s.classes

/-- A store has nothing in a section. -/
def Lacks (s : Store) : Section → Prop
  | .variables => s.variables = .empty
  | .arrays => s.arrays = .empty
  | .dictionaries => s.dictionaries = .empty
  | .classes => s.classes = .empty

/-- The sections among some members, in their order. -/
def sectionsOf (members : List (String × List Char)) : List Section :=
  members.filterMap fun member => Section.ofKey? member.1

/-- The text of a document with the namespaces of a store: an object with the sections of the store,
each at most once, and with any values under other names. A section may be absent if the store has
nothing in it. -/
inductive DocumentText (s : Store) : List Char → Prop where
  | object {before inner behind : List Char} {members : List (String × List Char)}
      (spaceBefore : Space before) (spaceBehind : Space behind)
      (listed : MembersText Spelled true members inner) (once : (sectionsOf members).Nodup)
      (absent : ∀ part ∉ sectionsOf members, Lacks s part)
      (present : ∀ member ∈ members, ∀ part, Section.ofKey? member.1 = some part →
        SectionText s member.2 part)
      (other : ∀ member ∈ members, Section.ofKey? member.1 = none → ValueText member.2) :
      DocumentText s (before ++ '\x7b' :: (inner ++ behind))

theorem Section.key_of_ofKey? {key : String} {part : Section}
    (found : Section.ofKey? key = some part) : part.key = key := by
  simpa using List.find?_some found

namespace Draft

variable {s : Store} {read : List Section}

/-- The draft with some sections of a store. -/
def part (s : Store) (read : List Section) : Draft where
  «variables» := if .variables ∈ read then some s.variables else none
  arrays := if .arrays ∈ read then some s.arrays else none
  dictionaries := if .dictionaries ∈ read then some s.dictionaries else none
  classes := if .classes ∈ read then some s.classes else none

theorem holds_part (s : Store) (read : List Section) (which : Section) :
    (part s read).holds which = decide (which ∈ read) := by
  cases which <;> simp only [holds, part] <;> split <;> simp_all

/-- Reading a section of the store adds it to the draft. -/
theorem fill_part {which : Section} {gap value rest : List Char}
    (listed : SectionText s value which) (space : Space gap) (ended : Ends rest) :
    (part s read).fill which (gap ++ (value ++ rest)) = .ok (part s (which :: read), rest) := by
  cases which with
  | «variables» =>
    exact (put_reads (TableText.reads ScalarText.reads listed) _ space ended).trans (by simp [part])
  | arrays =>
    exact (put_reads (TableText.reads ArrayText.reads listed) _ space ended).trans (by simp [part])
  | dictionaries =>
    have reads := TableText.reads (TableText.reads IntegerText.reads) listed
    exact (put_reads reads _ space ended).trans (by simp [part])
  | classes =>
    have reads := TableText.reads (TableText.reads QuotedText.reads) listed
    exact (put_reads reads _ space ended).trans (by simp [part])

/-- Sections that are not read count as empty. -/
theorem store_part (absent : ∀ which ∉ read, Lacks s which) :
    (part s read).store = { s with leaving := false } := by
  have missing {α : Type} {which : Section} {t : Table α} (lacks : which ∉ read → t = .empty) :
      (if which ∈ read then some t else none).getD .empty = t := by
    split
    · rfl
    · rename_i unread
      exact (lacks unread).symm
  simp only [store, part]
  rw [missing (absent .variables), missing (absent .arrays), missing (absent .dictionaries),
    missing (absent .classes)]

/-- A member with another name is passed over. -/
theorem member_other {d : Draft} {key : String} {between behind value rest : List Char}
    (other : Section.ofKey? key = none) (spaceBetween : Space between) (spaceBehind : Space behind)
    (valid : ValueText value) (ended : Ends rest) :
    d.member key (between ++ ':' :: (behind ++ (value ++ rest))) = .ok (d, rest) := by
  simp [member, other, unknown, colon_gap spaceBetween, valid.pass spaceBehind ended]

/-- The members of a document are read one by one: the sections of the store are gathered, the other
members are passed over. -/
theorem members_part {first : Bool} {members : List (String × List Char)} {inner : List Char}
    (listed : MembersText Spelled first members inner)
    (once : (sectionsOf members).Nodup) (fresh : ∀ which ∈ sectionsOf members, which ∉ read)
    (present : ∀ member ∈ members, ∀ which, Section.ofKey? member.1 = some which →
      SectionText s member.2 which)
    (other : ∀ member ∈ members, Section.ofKey? member.1 = none → ValueText member.2)
    (rest : List Char) :
    (part s read).members first (inner ++ rest) =
      .ok (part s ((sectionsOf members).reverse ++ read), rest) := by
  induction listed generalizing read with
  | close space =>
    rw [List.append_assoc]
    exact members_close space _ _ rest
  | @member _ gap body between behind value more key members lead name spaceBetween spaceBehind
      others ih =>
    obtain ⟨presentHere, presentLater⟩ := List.forall_mem_cons.mp present
    obtain ⟨otherHere, otherLater⟩ := List.forall_mem_cons.mp other
    simp only [List.append_assoc, List.cons_append]
    cases found : Section.ofKey? key with
    | none =>
      have skipped : sectionsOf ((key, value) :: members) = sectionsOf members := by
        simp [sectionsOf, found]
      rw [skipped] at once fresh ⊢
      refine (members_step lead name.spells
        (member_other found spaceBetween spaceBehind (otherHere found) (others.ends rest))).trans ?_
      exact ih once fresh presentLater otherLater
    | some which =>
      have added : sectionsOf ((key, value) :: members) = which :: sectionsOf members := by
        simp [sectionsOf, found]
      rw [added] at once fresh ⊢
      -- No section comes twice, so this one is not read yet and none of the later ones is it.
      obtain ⟨unread, freshLater⟩ := List.forall_mem_cons.mp fresh
      obtain ⟨single, onceLater⟩ := List.nodup_cons.mp once
      obtain rfl := Section.key_of_ofKey? found
      refine (members_section lead name.spells spaceBetween (by simp [holds_part, unread])
        (fill_part (presentHere which found) spaceBehind (others.ends rest))).trans ?_
      have stillFresh : ∀ later ∈ sectionsOf members, later ∉ which :: read := by
        intro later listed
        rw [List.mem_cons, not_or]
        exact ⟨fun same => single (same ▸ listed), freshLater later listed⟩
      rw [ih onceLater stillFresh presentLater otherLater]
      simp

end Draft

/-- **Documents are read tolerantly.** A document with the namespaces of a store is read as these
namespaces, wherever its sections, its spaces, its replaced entries and its other members stand. -/
theorem documents_read_tolerantly {s : Store} {text : String}
    (document : DocumentText s text.toList) : read text = .ok { s with leaving := false } := by
  generalize characters : text.toList = content at document
  cases document with
  | @object before inner behind members spaceBefore spaceBehind listed once absent present other =>
    have start : skipSpace text.toList = '\x7b' :: (inner ++ behind) := by
      rw [characters]
      exact skipSpace_gap spaceBefore rfl _
    have unread : ∀ which ∈ sectionsOf members, which ∉ ([] : List Section) := by simp
    have gathered : Draft.members {} true (inner ++ behind) = _ :=
      Draft.members_part listed once unread present other behind
    have finished : skipSpace behind = [] := by
      simpa [skipSpace] using skipSpace_append spaceBehind []
    have unlisted : ∀ which ∉ (sectionsOf members).reverse, Lacks s which := by
      simpa using absent
    rw [List.append_nil] at gathered
    simp [read, draft, start, gathered, finished, Draft.store_part unlisted]

/-- A store with one variable. -/
def oneVariable : Store where
  «variables» := .ofList [("x", .int 7)]

/-- A bracket inside a string, a number that is passed over, a replaced entry and missing
sections. -/
theorem documents_read_tolerantly_mingled :
    read " \x7b\"extra\":[\"]\x7d\",-1.5e3] ,\"variables\":\x7b\"x\":true,\"x\":7\x7d\x7d" =
      .ok oneVariable := by
  have one {c : Char} (digit : c.isDigit = true) : Text.Digital [c] := by
    simpa [Text.Digital] using digit
  have comma : Lead false ([] ++ [',']) := .later space_nil space_nil
  have brackets : StringText [']', '\x7d', '"'] :=
    .plain (by decide) (by decide) (by decide) (.plain (by decide) (by decide) (by decide) .close)
  have number : NumberText ['-', '1', '.', '5', 'e', '3'] :=
    .negative (.parts (.digits (by decide) (one (c := '1') rfl))
      (.digits (by simp) (one (c := '5') rfl))
      (.digits (.inl rfl) (.inl rfl) (by simp) (one (c := '3') rfl)))
  have extra : ValueText ('[' :: _) :=
    .list (.item (.first space_nil) (.item comma (.close space_nil)))
      (by simpa using ⟨ValueText.string brackets, ValueText.number number⟩)
  have values : TableText ScalarText ('\x7b' :: _) oneVariable.variables :=
    TableText.ofList [("x", Value.bool true), ("x", Value.int 7)]
      (.member (.first space_nil) (spelled_written "x") space_nil space_nil
        (.member comma (spelled_written "x") space_nil space_nil (.close space_nil)))
      (.cons ⟨rfl, .yes⟩ (.cons ⟨rfl, .integer 7⟩ .nil))
  have other : Section.ofKey? "extra" = none := rfl
  have known : Section.ofKey? "variables" = some .variables := rfl
  have listed (first second : List Char) :
      MembersText Spelled true [("extra", first), ("variables", second)] _ :=
    .member (.first space_nil) (spelled_written "extra") space_nil space_nil
      (.member (.later space_one space_nil) (spelled_written "variables") space_nil space_nil
        (.close space_nil))
  have lacks (part : Section) (absent : part ∉ [Section.variables]) : Lacks oneVariable part := by
    cases part with
    | «variables» => simp at absent
    | arrays | dictionaries | classes => rfl
  have document {first second : List Char} (skipped : ValueText first)
      (held : SectionText oneVariable second .variables) : DocumentText oneVariable _ :=
    .object space_one space_nil (listed first second) (by simp [sectionsOf, other, known])
      (by simpa [sectionsOf, other, known] using lacks) (by simpa [other, known] using held)
      (by simpa [other, known] using skipped)
  apply documents_read_tolerantly (s := oneVariable)
  exact document extra values

end Linewise.Document
