import Linewise.Proofs.DocumentParts

/-! Written documents are read back. Each literal is read as what it was written for, so are the
blocks of members and items around them, and with them the four sections. Doubles are left out:
the reader may take the digits of one for a neighbour of it. -/
namespace Linewise

/-- No variable holds a double. -/
def Store.NoDoubles (s : Store) : Prop :=
  ∀ name x, s.variables.get? name ≠ some (.float x)

theorem Store.noDoubles_iff {s : Store} :
    s.NoDoubles ↔ ∀ e ∈ s.variables.entries, e.2.kind ≠ .float := by
  constructor
  · rintro exact ⟨name, v⟩ member kind
    cases v with
    | float x => exact exact name x (Table.get?_eq_some_iff.mpr member)
    | int n => cases kind
    | bool b => cases kind
    | str text => cases kind
  · intro exact name x found
    exact exact (name, .float x) (Table.get?_eq_some_iff.mp found) rfl

instance (s : Store) : Decidable s.NoDoubles :=
  decidable_of_iff _ Store.noDoubles_iff.symm

namespace Document

/-! ## Literals -/

theorem text_reads (s : String) : text.Reads (writeText s) s where
  starts := ⟨'"', _, rfl, rfl, by decide⟩
  runs := by
    intro gap rest space _
    show runText _ = _
    rw [writeText, List.cons_append, runText,
      skipSpace_gap space (show isSpace '"' = false by rfl)]
    simpa using (spelled_written s).spells rest

theorem ne_of_isDigit {c d : Char} (digit : c.isDigit = true) (other : d.isDigit = false) :
    c ≠ d := by
  rintro rfl
  rw [digit] at other
  cases other

theorem isSpace_of_isDigit {c : Char} (digit : c.isDigit = true) : isSpace c = false := by
  have differs {d : Char} (other : d.isDigit = false) : c ≠ d := ne_of_isDigit digit other
  simp [isSpace, differs]

/-- An integer is written as a minus sign and digits, or as digits only, which are then read as the
integer. -/
theorem writeInteger_cases (n : Int64) :
    (∃ digits, writeInteger n = '-' :: digits ∧ ∀ rest, Ends rest →
      number false (digits ++ rest) = .ok (Numeric.ofInteger n, rest)) ∨
    (∃ c more, writeInteger n = c :: more ∧ c.isDigit = true ∧ ∀ rest, Ends rest →
      number true (c :: (more ++ rest)) = .ok (Numeric.ofInteger n, rest)) := by
  have read (rest : List Char) (ended : Ends rest) := number_integer n ended
  rw [writeInteger_eq]
  by_cases negative : n < 0
  · left
    refine ⟨_, if_pos negative, ?_⟩
    simpa [negative] using read
  · right
    obtain ⟨c, more, digits⟩ :=
      List.exists_cons_of_ne_nil (@Nat.toDigits_ne_nil n.toInt.natAbs 10)
    have member : c ∈ Nat.toDigits 10 n.toInt.natAbs := by simp [digits]
    refine ⟨c, more, by rw [if_neg negative, digits],
      Nat.isDigit_of_mem_toDigits (by decide) (by decide) member, ?_⟩
    simpa [negative, digits] using read

theorem writeInteger_starts (n : Int64) :
    ∃ c rest, writeInteger n = c :: rest ∧ isSpace c = false ∧ c ≠ ']' := by
  rcases writeInteger_cases n with ⟨digits, written, -⟩ | ⟨c, more, written, digit, -⟩
  · exact ⟨'-', digits, written, rfl, by decide⟩
  · exact ⟨c, more, written, isSpace_of_isDigit digit, ne_of_isDigit digit rfl⟩

theorem integer_reads (n : Int64) : integer.Reads (writeInteger n) n where
  starts := writeInteger_starts n
  runs := by
    intro gap rest space ended
    show runInteger _ = _
    rcases writeInteger_cases n with ⟨digits, written, read⟩ | ⟨c, more, written, digit, read⟩
    · rw [written, List.cons_append, runInteger,
        skipSpace_gap space (show isSpace '-' = false by rfl)]
      simp [read rest ended, Numeric.integer_ofInteger]
    · rw [written, List.cons_append, runInteger, skipSpace_gap space (isSpace_of_isDigit digit)]
      simp [ne_of_isDigit digit (show '-'.isDigit = false by rfl), digit, read rest ended,
        Numeric.integer_ofInteger]

/-! ## Values -/

theorem scalar_reads_word {c : Char} {more : List Char} {v : Value} (solid : isSpace c = false)
    (goesOn : c ≠ ']') (runs : ∀ rest, runScalar (c :: (more ++ rest)) = .ok (v, rest)) :
    scalar.Reads (c :: more) v where
  starts := ⟨c, more, rfl, solid, goesOn⟩
  runs := by
    intro gap rest space _
    show runScalar _ = _
    rw [← runs rest]
    simp [runScalar, skipSpace_gap space solid, skipSpace_cons solid]

/-- A value that is no double is read as itself. -/
theorem scalar_reads {v : Value} (exact : v.kind ≠ .float) : scalar.Reads (writeValue v) v := by
  cases v with
  | float x => exact absurd rfl exact
  | bool b => cases b <;> exact scalar_reads_word rfl (by decide) (fun _ => rfl)
  | str s =>
    refine scalar_reads_word rfl (by decide) ?_
    intro rest
    have read := (spelled_written s).spells rest
    rw [List.append_assoc, List.singleton_append] at read
    simp [runScalar, skipSpace_cons (show isSpace '"' = false by rfl), read]
  | int n =>
    refine ⟨writeInteger_starts n, ?_⟩
    intro gap rest space ended
    show runScalar (gap ++ (writeInteger n ++ rest)) = _
    rcases writeInteger_cases n with ⟨digits, written, read⟩ | ⟨c, more, written, digit, read⟩
    · rw [written, List.cons_append, runScalar,
        skipSpace_gap space (show isSpace '-' = false by rfl)]
      simp [numberValue, read rest ended, Numeric.value_ofInteger]
    · have differs {d : Char} (other : d.isDigit = false) : c ≠ d := ne_of_isDigit digit other
      rw [written, List.cons_append, runScalar, skipSpace_gap space (isSpace_of_isDigit digit)]
      simp [differs, digit, numberValue, read rest ended, Numeric.value_ofInteger]

/-! ## Blocks -/

theorem space_newLine (level : Nat) : Space (newLine level) := by
  intro c member
  rcases List.mem_cons.mp member with rfl | later
  · rfl
  · rw [List.eq_of_mem_replicate later]
    rfl

theorem lead_newLine (level : Nat) : Lead false (',' :: newLine level) :=
  .later space_nil (space_newLine level)

theorem ends_gap {gap : List Char} (space : Space gap) {c : Char} (ender : c ∈ enders)
    (rest : List Char) : Ends (gap ++ c :: rest) := by
  cases gap with
  | nil => exact ends_cons.mpr ender
  | cons d more =>
    refine ends_cons.mpr ?_
    have blank := space d List.mem_cons_self
    simp only [isSpace, Bool.or_eq_true, beq_iff_eq] at blank
    rcases blank with ((rfl | rfl) | rfl) | rfl <;> decide

/-- Parts after the first one: each behind a comma and the start of its line. -/
def furtherLines (level : Nat) (parts : List (List Char)) : List Char :=
  parts.flatMap fun part => ',' :: newLine level ++ part

theorem writeLines_cons (level : Nat) (part : List Char) (more : List (List Char)) :
    writeLines level (part :: more) = newLine level ++ (part ++ furtherLines level more) := by
  induction more generalizing part with
  | nil => simp [writeLines, furtherLines]
  | cons next more ih =>
    rw [writeLines, ih]
    · simp [furtherLines]
    · simp

/-- A block is empty, or holds its first part, the parts behind it and the closing line. -/
theorem writeBlock_cons (opening closing : Char) (level : Nat) (part : List Char)
    (more : List (List Char)) :
    writeBlock opening closing level (part :: more) =
      opening :: (newLine (level + 1) ++ (part ++ (furtherLines (level + 1) more ++
        (newLine level ++ [closing])))) := by
  simp [writeBlock, writeLines_cons]

theorem furtherLines_cons (level : Nat) (part : List Char) (more : List (List Char)) :
    furtherLines level (part :: more) =
      (',' :: newLine level) ++ (part ++ furtherLines level more) := by
  simp [furtherLines]

theorem closing_mem_enders : '\x7d' ∈ enders := by
  decide

theorem bracket_mem_enders : ']' ∈ enders := by
  decide

theorem ends_furtherLines (level : Nat) (parts : List (List Char)) {closing : List Char}
    (ended : Ends closing) : Ends (furtherLines level parts ++ closing) := by
  cases parts with
  | nil => exact ended
  | cons part more => exact ends_cons.mpr (by decide)

namespace Reader

variable {α : Type} {item : Reader α}

/-- A written member is read as its key and value. -/
theorem members_writeMember {first : Bool} {gap value rest : List Char} {a : α}
    (lead : Lead first gap) (key : String) (reads : item.Reads value a) (ended : Ends rest)
    (sofar : List (String × α)) :
    item.members first sofar (gap ++ (writeMember key value ++ rest)) =
      item.members false ((key, a) :: sofar) rest := by
  rw [← members_step lead (spelled_written key).spells space_nil space_one reads ended]
  simp [writeMember, writeText]

/-- Members behind the first one are read up to the end of their object. -/
theorem members_furtherLines {write : α → List Char} {entries : List (String × α)}
    (reads : ∀ e ∈ entries, item.Reads (write e.2) e.2) (level : Nat) {gap : List Char}
    (space : Space gap) (sofar : List (String × α)) (rest : List Char) :
    item.members false sofar (furtherLines level (entries.map fun e => writeMember e.1 (write e.2))
        ++ (gap ++ '\x7d' :: rest)) = .ok (sofar.reverse ++ entries, rest) := by
  induction entries generalizing sofar with
  | nil => simpa [furtherLines] using members_close space false sofar rest
  | cons entry more ih =>
    have ended := ends_furtherLines level (more.map fun e => writeMember e.1 (write e.2))
      (ends_gap space closing_mem_enders rest)
    rw [List.map_cons, furtherLines_cons, List.append_assoc, List.append_assoc,
      members_writeMember (lead_newLine level) entry.1 (reads entry List.mem_cons_self) ended,
      ih fun e member => reads e (List.mem_cons_of_mem _ member)]
    simp

theorem items_furtherLines {write : α → List Char} {values : List α}
    (reads : ∀ a ∈ values, item.Reads (write a) a) (level : Nat) {gap : List Char}
    (space : Space gap) (sofar : List α) (rest : List Char) :
    item.items false sofar (furtherLines level (values.map write) ++ (gap ++ ']' :: rest)) =
      .ok (sofar.reverse ++ values, rest) := by
  induction values generalizing sofar with
  | nil => simpa [furtherLines] using items_close space false sofar rest
  | cons a more ih =>
    have ended := ends_furtherLines level (more.map write) (ends_gap space bracket_mem_enders rest)
    rw [List.map_cons, furtherLines_cons, List.append_assoc, List.append_assoc,
      items_step (lead_newLine level) (reads a List.mem_cons_self) ended,
      ih fun b member => reads b (List.mem_cons_of_mem _ member)]
    simp

/-- The block of some entries is an opening bracket and what is read as these entries. -/
theorem members_block {write : α → List Char} {entries : List (String × α)}
    (reads : ∀ e ∈ entries, item.Reads (write e.2) e.2) (level : Nat) :
    ∃ inner, writeBlock '\x7b' '\x7d' level (entries.map fun e => writeMember e.1 (write e.2)) =
      '\x7b' :: inner ∧ ∀ rest, item.members true [] (inner ++ rest) = .ok (entries, rest) := by
  cases entries with
  | nil => exact ⟨['\x7d'], rfl, members_close space_nil true []⟩
  | cons entry more =>
    refine ⟨_, writeBlock_cons _ _ level _ _, ?_⟩
    intro rest
    have closing := ends_gap (space_newLine level) closing_mem_enders rest
    simp only [List.append_assoc, List.singleton_append]
    rw [members_writeMember (.first (space_newLine _)) entry.1 (reads entry List.mem_cons_self)
        (ends_furtherLines _ _ closing),
      members_furtherLines (fun e member => reads e (List.mem_cons_of_mem _ member)) _
        (space_newLine level)]
    simp

theorem items_block {write : α → List Char} {values : List α}
    (reads : ∀ a ∈ values, item.Reads (write a) a) (level : Nat) :
    ∃ inner, writeBlock '[' ']' level (values.map write) = '[' :: inner ∧
      ∀ rest, item.items true [] (inner ++ rest) = .ok (values, rest) := by
  cases values with
  | nil => exact ⟨[']'], rfl, items_close space_nil true []⟩
  | cons a more =>
    refine ⟨_, writeBlock_cons _ _ level _ _, ?_⟩
    intro rest
    have closing := ends_gap (space_newLine level) bracket_mem_enders rest
    simp only [List.append_assoc, List.singleton_append]
    rw [items_step (.first (space_newLine _)) (reads a List.mem_cons_self)
        (ends_furtherLines _ _ closing),
      items_furtherLines (fun b member => reads b (List.mem_cons_of_mem _ member)) _
        (space_newLine level)]
    simp

/-- A written table is read as that table. -/
theorem map_reads {write : α → List Char} {t : Table α}
    (reads : ∀ e ∈ t.entries, item.Reads (write e.2) e.2) (level : Nat) :
    item.map.Reads (writeTable level write t) t := by
  obtain ⟨inner, block, read⟩ := members_block reads level
  have written : writeTable level write t = '\x7b' :: inner := block
  rw [written]
  refine ⟨⟨_, _, rfl, rfl, by decide⟩, ?_⟩
  intro gap rest space _
  show item.runMap _ = _
  rw [List.cons_append, runMap, skipSpace_gap space (show isSpace '\x7b' = false by rfl)]
  simp [read, t.ofList_entries]

/-- A written array is read as that array. -/
theorem list_reads (level : Nat) (values : Array Int64) :
    integer.list.Reads (writeArray level values) values := by
  obtain ⟨inner, block, read⟩ :=
    items_block (fun n (_ : n ∈ values.toList) => integer_reads n) level
  have written : writeArray level values = '[' :: inner := block
  rw [written]
  refine ⟨⟨_, _, rfl, rfl, by decide⟩, ?_⟩
  intro gap rest space _
  show integer.runList _ = _
  rw [List.cons_append, runList, skipSpace_gap space (show isSpace '[' = false by rfl)]
  simp [read]

end Reader

/-! ## Sections -/

theorem Section.ofKey?_key (s : Section) : Section.ofKey? s.key = some s := by
  cases s <;> decide

namespace Draft

theorem put_reads {α : Type} {reader : Reader α} {value : List Char} {a : α}
    (reads : reader.Reads value a) (place : α → Draft) {gap rest : List Char} (space : Space gap)
    (ended : Ends rest) : put reader place (gap ++ (value ++ rest)) = .ok (place a, rest) := by
  simp [put, reads.runs space ended]

/-- Reading one member leaves the members behind it. -/
theorem members_step {d e : Draft} {first : Bool} {gap body text rest : List Char} {key : String}
    (lead : Lead first gap) (spelled : Spells body key) (read : d.member key text = .ok (e, rest)) :
    d.members first (gap ++ '"' :: (body ++ text)) = e.members false rest := by
  rw [members]
  split <;> rename_i next <;> rw [nextKey_lead lead spelled] at next
  · cases next
  · cases next
  · obtain ⟨same, rfl⟩ := Prod.mk.inj (Except.ok.inj next)
    obtain rfl := Option.some.inj same
    split <;> rename_i again <;> rw [read] at again
    · cases again
    · obtain ⟨rfl, rfl⟩ := Prod.mk.inj (Except.ok.inj again)
      rfl

/-- Reading a section that is not read yet leaves the members behind it. -/
theorem members_section {d e : Draft} {s : Section} {first : Bool}
    {gap body between value rest : List Char} (lead : Lead first gap) (spelled : Spells body s.key)
    (space : Space between) (fresh : d.holds s = false) (filled : d.fill s value = .ok (e, rest)) :
    d.members first (gap ++ '"' :: (body ++ (between ++ ':' :: value))) = e.members false rest := by
  apply members_step lead spelled
  simp [member, Section.ofKey?_key, known, fresh, colon_gap space, filled]

theorem members_close {gap : List Char} (space : Space gap) (d : Draft) (first : Bool)
    (rest : List Char) : d.members first (gap ++ '\x7d' :: rest) = .ok (d, rest) := by
  rw [members]
  split <;> rename_i next <;> rw [nextKey_close space] at next <;> cases next
  rfl

/-- A written section is read as its contents. -/
theorem members_writeMember {α : Type} {reader : Reader α} {d : Draft} {s : Section}
    {place : α → Draft} {first : Bool} {gap value rest : List Char} {a : α} (lead : Lead first gap)
    (fills : d.fill s = put reader place) (fresh : d.holds s = false)
    (reads : reader.Reads value a) (ended : Ends rest) :
    d.members first (gap ++ (writeMember s.key value ++ rest)) =
      (place a).members false rest := by
  have filled : d.fill s ([' '] ++ (value ++ rest)) = .ok (place a, rest) := by
    rw [fills, put_reads reads place space_one ended]
  rw [← members_section lead (spelled_written s.key).spells space_nil fresh filled]
  simp [writeMember, writeText]

end Draft

/-- The four sections of a store are read one after the other, the variables as the table that their
text is read as. -/
theorem draft_write {s : Store} {table : Table Value}
    (values : scalar.map.Reads (writeTable 1 writeValue s.variables) table) :
    draft (write s).toList =
      .ok (⟨some table, some s.arrays, some s.dictionaries, some s.classes⟩, []) := by
  have arrays := Reader.map_reads (t := s.arrays) (fun e _ => Reader.list_reads 2 e.2) 1
  have dictionaries := Reader.map_reads (t := s.dictionaries)
    (fun e _ => Reader.map_reads (fun e _ => integer_reads e.2) 2) 1
  have classes := Reader.map_reads (t := s.classes)
    (fun e _ => Reader.map_reads (fun e _ => text_reads e.2) 2) 1
  have closing := ends_gap (space_newLine 0) closing_mem_enders []
  rw [write, String.toList_ofList, writeBlock_cons, draft,
    skipSpace_cons (show isSpace '\x7b' = false by rfl)]
  simp only [furtherLines_cons, List.append_assoc]
  have comma (more : List Char) : Ends ((',' :: newLine 1) ++ more) := ends_cons.mpr (by decide)
  refine (Draft.members_writeMember (.first (space_newLine 1)) rfl rfl values (comma _)).trans ?_
  refine (Draft.members_writeMember (lead_newLine 1) rfl rfl arrays (comma _)).trans ?_
  refine (Draft.members_writeMember (lead_newLine 1) rfl rfl dictionaries (comma _)).trans ?_
  refine (Draft.members_writeMember (lead_newLine 1) rfl rfl classes closing).trans ?_
  exact Draft.members_close (space_newLine 0) _ false []

theorem read_write_of_reads {s : Store} {table : Table Value}
    (values : scalar.map.Reads (writeTable 1 writeValue s.variables) table) :
    read (write s) = .ok { s with «variables» := table, leaving := false } := by
  simp [read, draft_write values, skipSpace, Draft.store]

/-- The text of a store without doubles is read as its namespaces. -/
theorem read_write {s : Store} (exact : s.NoDoubles) :
    read (write s) = .ok { s with leaving := false } := by
  refine read_write_of_reads (Reader.map_reads ?_ 1)
  intro e member
  exact scalar_reads (Store.noDoubles_iff.mp exact e member)

end Document

end Linewise
