import Linewise.Proofs.NameOrder
import Linewise.Proofs.SaveLoad
import Linewise.Proofs.WrittenDocuments

/-! Saved files are canonical. What a store is written as lists its four sections in one order, and
in each of them and in the objects inside them the names in the order of their bytes. So the file
depends only on which entries the namespaces hold, not on the lines that put them there. -/
namespace Linewise

/-! ## Order -/

namespace Document

/-- A text lists the entries of a table by the bytes of their names, each name once. `Item` tells
what stands for an entry. -/
def ListsSorted {α : Type} (Item : List Char → α → Prop) (text : List Char) (t : Table α) : Prop :=
  ∃ members, Lists text members ∧
    members.Forall₂ (fun member entry => member.1 = entry.1 ∧ Item member.2 entry.2) t.entries ∧
    (members.map Prod.fst).Pairwise fun a b => Text.bytes a < Text.bytes b

/-- A text is the document of a store with its sections in their order, and with the names in the
order of their bytes in every section and in every object inside one. -/
def Canonical (s : Store) (text : List Char) : Prop :=
  ∃ values arrays dictionaries classes,
    Lists text [("variables", values), ("arrays", arrays), ("dictionaries", dictionaries),
      ("classes", classes)] ∧
    ListsSorted (fun item v => item = writeValue v) values s.variables ∧
    ListsSorted (fun item a => item = writeArray 2 a) arrays s.arrays ∧
    ListsSorted (ListsSorted fun item n => item = writeInteger n) dictionaries s.dictionaries ∧
    ListsSorted (ListsSorted fun item mark => item = writeText mark) classes s.classes

theorem listsSorted_of_lists {α : Type} {Item : List Char → α → Prop} {write : α → List Char}
    {t : Table α} {text : List Char} (lists : Lists text (t.entries.map fun e => (e.1, write e.2)))
    (items : ∀ a, Item (write a) a) : ListsSorted Item text t := by
  refine ⟨_, lists, ?_, ?_⟩
  · rw [List.forall₂_map_left_iff, List.forall₂_same]
    exact fun e _ => ⟨rfl, items e.2⟩
  · rw [List.map_map]
    exact t.names_increasing

/-- What a store is written as is canonical. -/
theorem canonical_write (s : Store) : Canonical s (write s).toList := by
  have integers (t : Table Int64) :
      ListsSorted (fun item n => item = writeInteger n) (writeTable 2 writeInteger t) t :=
    listsSorted_of_lists (lists_integers t) fun _ => rfl
  have texts (t : Table String) :
      ListsSorted (fun item mark => item = writeText mark) (writeTable 2 writeText t) t :=
    listsSorted_of_lists (lists_texts t) fun _ => rfl
  refine ⟨_, _, _, _, lists_write s, ?_, ?_, ?_, ?_⟩
  · exact listsSorted_of_lists (lists_writeTable valueText_writeValue 1 _) fun _ => rfl
  · exact listsSorted_of_lists (lists_writeTable (valueText_writeArray 2) 1 _) fun _ => rfl
  · have lists := lists_writeTable (fun t => (lists_integers t).valueText) 1 s.dictionaries
    exact listsSorted_of_lists lists integers
  · have lists := lists_writeTable (fun t => (lists_texts t).valueText) 1 s.classes
    exact listsSorted_of_lists lists texts

end Document

/-! ## Entries -/

/-- Two stores hold the same entries: the same names in each namespace, with the same values, and in
dictionaries and classes the same keys with the same values. -/
structure Store.SameEntries (s t : Store) : Prop where
  «variables» : ∀ name, s.variables.get? name = t.variables.get? name
  arrays : ∀ name, s.arrays.get? name = t.arrays.get? name
  dictionaries : ∀ name,
    (s.dictionaries.get? name).map Table.get? = (t.dictionaries.get? name).map Table.get?
  classes : ∀ name, (s.classes.get? name).map Table.get? = (t.classes.get? name).map Table.get?

theorem Store.SameEntries.of_eq {s t : Store} (equal : s = t) : s.SameEntries t := by
  subst equal
  exact ⟨fun _ => rfl, fun _ => rfl, fun _ => rfl, fun _ => rfl⟩

theorem Table.get?_injective {α : Type} : Function.Injective (Table.get? : Table α → _) :=
  fun _ _ same => Table.ext_get? (congrFun same)

/-- Stores with the same entries are written as the same text. -/
theorem Store.SameEntries.write_eq {s t : Store} (same : s.SameEntries t) :
    Document.write s = Document.write t := by
  have inner {α : Type} {a b : Table (Table α)}
      (each : ∀ name, (a.get? name).map Table.get? = (b.get? name).map Table.get?) : a = b :=
    Table.ext_get? fun name => Option.map_injective Table.get?_injective (each name)
  simp only [Document.write, Table.ext_get? same.variables, Table.ext_get? same.arrays,
    inner same.dictionaries, inner same.classes]

/-! ## Files -/

namespace Session

/-- A save that reports success has written the text of the store. -/
theorem write_saved {φ : Type} [FileSystem φ] {s : Session φ} {line path : String}
    {more : List String} (said : Text.wordsOf line = "save" :: path :: more)
    (saved : (s.execute line).2 = some ("State saved to " ++ path)) :
    FileSystem.write s.files path (Document.write s.store).toUTF8 =
      ((s.execute line).1.files, .ok ()) := by
  obtain ⟨files, written, after⟩ := execute_save said saved
  rw [written, after]

/-- **Saved files are canonical.** After any lines the store is written as a canonical document,
which lists its members in one way only. Two runs that end with the same entries save the same
bytes, whatever their lines and their paths were, and where a file system returns what was written
to it, both files hold these bytes. -/
theorem saved_files_canonical :
    (∀ {text : List Char} {members others : List (String × List Char)},
      Document.Lists text members → Document.Lists text others → members = others) ∧
    ∀ {φ : Type} [FileSystem φ],
      (∀ (start : Session φ) (lines : List String),
        Document.Canonical (start.executeAll lines).1.store
          (Document.write (start.executeAll lines).1.store).toList) ∧
      ∀ (start other : Session φ) (lines otherLines : List String),
        let one := (start.executeAll lines).1
        let two := (other.executeAll otherLines).1
        one.store.SameEntries two.store →
        ∀ (line path otherLine otherPath : String) (more otherMore : List String),
          Text.wordsOf line = "save" :: path :: more →
          Text.wordsOf otherLine = "save" :: otherPath :: otherMore →
          (one.execute line).2 = some ("State saved to " ++ path) →
          (two.execute otherLine).2 = some ("State saved to " ++ otherPath) →
          ∃ contents, contents = (Document.write one.store).toUTF8 ∧
            FileSystem.write one.files path contents = ((one.execute line).1.files, .ok ()) ∧
            FileSystem.write two.files otherPath contents =
              ((two.execute otherLine).1.files, .ok ()) ∧
            (FileSystem.ReturnsWritten φ →
              FileSystem.read (one.execute line).1.files path = .ok contents ∧
                FileSystem.read (two.execute otherLine).1.files otherPath = .ok contents) := by
  refine ⟨Document.Lists.unique, fun {φ} _ => ⟨fun start lines => Document.canonical_write _, ?_⟩⟩
  intro start other lines otherLines one two same line path otherLine otherPath more otherMore
    said otherSaid saved otherSaved
  have wrote := write_saved said saved
  have otherWrote := write_saved otherSaid otherSaved
  rw [← same.write_eq] at otherWrote
  refine ⟨_, rfl, wrote, otherWrote, fun law => ?_⟩
  exact ⟨law.read_written wrote, law.read_written otherWrote⟩

/-- Keys in another order, one of them outside ASCII, a dictionary that is made twice and a variable
that is deleted again. -/
theorem saved_files_canonical_detours :
    let one := (executeAll ({} : Session) ["dict d", "set d z = 1", "set d é = 2"]).1
    let two := (executeAll ({} : Session) ["let y = 5", "dict d", "set d k = 9", "dict d",
      "set d é = 2", "set d z = 7", "delete y", "set d z = 1"]).1
    ∃ contents, contents = (Document.write one.store).toUTF8 ∧
      (one.execute "save p").1.files.read "p" = .ok contents ∧
      (two.execute "save q").1.files.read "q" = .ok contents := by
  have equal : (executeAll ({} : Session) ["dict d", "set d z = 1", "set d é = 2"]).1.store =
      (executeAll ({} : Session) ["let y = 5", "dict d", "set d k = 9", "dict d", "set d é = 2",
        "set d z = 7", "delete y", "set d z = 1"]).1.store := by
    decide +kernel
  obtain ⟨contents, canonical, -, -, reads⟩ := saved_files_canonical.2.2 ({} : Session) {} _ _
    (.of_eq equal) "save p" "p" "save q" "q" [] [] (by decide +kernel) (by decide +kernel)
    (by decide +kernel) (by decide +kernel)
  exact ⟨contents, canonical, reads Files.returnsLastWritten.toReturnsWritten⟩

end Session

end Linewise
