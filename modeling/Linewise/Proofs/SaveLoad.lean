import Linewise.Proofs.DocumentRoundTrip
import Linewise.Proofs.FilePersistence
import Linewise.Proofs.SessionSteps

/-! Saving and loading in a session. A line changes the files only if it saves, and then only by the
one write that it asks for. In a file system that returns for a path what was last written to its
file, what was saved is therefore still there after any lines that save elsewhere, and loading it
puts the saved namespaces in place of the present ones. -/
namespace Linewise.Session

variable {φ : Type} [FileSystem φ]

/-- The path of the file that a line asks to be written, if it asks for one. -/
def writes? (s : Session φ) (line : String) : Option String :=
  match s.store.step s.vocabulary line with
  | .write path _ _ => some path
  | _ => none

/-- Lines of which none touches the file at a path, when they are executed one after the other. -/
def Spares (Touches : φ → String → String → Prop) (s : Session φ) (path : String) :
    List String → Prop
  | [] => True
  | line :: more =>
    (∀ other ∈ s.writes? line, ¬ Touches s.files other path) ∧
      (s.execute line).1.Spares Touches path more

instance decidableSpares {Touches : φ → String → String → Prop}
    [∀ files other path, Decidable (Touches files other path)] (s : Session φ) (path : String) :
    (lines : List String) → Decidable (s.Spares Touches path lines)
  | [] => .isTrue trivial
  | line :: more =>
    have : Decidable ((s.execute line).1.Spares Touches path more) :=
      decidableSpares (s.execute line).1 path more
    inferInstanceAs (Decidable (_ ∧ _))

/-- A line that does not touch a file leaves it readable as it was. -/
theorem execute_read {Touches : φ → String → String → Prop}
    (law : FileSystem.ReturnsLastWritten Touches) {s : Session φ} {line path : String}
    {held : ByteArray} (reads : FileSystem.read s.files path = .ok held)
    (apart : ∀ other ∈ s.writes? line, ¬ Touches s.files other path) :
    FileSystem.read (s.execute line).1.files path = .ok held := by
  unfold writes? at apart
  unfold execute
  cases stepped : s.store.step s.vocabulary line with
  | done outcome => exact reads
  | ask name resume => exact reads
  | read source resume => exact reads
  | write other contents resume =>
    rw [stepped] at apart
    exact law.read_kept contents.toUTF8 reads (apart other rfl)

/-- Lines that spare a file leave it readable as it was. -/
theorem executeAll_read {Touches : φ → String → String → Prop}
    (law : FileSystem.ReturnsLastWritten Touches) {s : Session φ} {path : String}
    {held : ByteArray} {lines : List String} (reads : FileSystem.read s.files path = .ok held)
    (spared : s.Spares Touches path lines) :
    FileSystem.read (s.executeAll lines).1.files path = .ok held := by
  induction lines generalizing s with
  | nil => exact reads
  | cons line more ih => exact ih (execute_read law reads spared.1) spared.2

/-! ## Lines that save and load -/

private theorem ne_of_head {a b : String} (differ : a.toList.head? ≠ b.toList.head?) : a ≠ b := by
  rintro rfl
  exact differ rfl

/-- A save that reports success has written the text of the store to its path, and nothing else
has changed. -/
theorem execute_save {s : Session φ} {line path : String} {more : List String}
    (said : Text.wordsOf line = "save" :: path :: more)
    (saved : (s.execute line).2 = some ("State saved to " ++ path)) :
    ∃ files, FileSystem.write s.files path (Document.write s.store).toUTF8 = (files, .ok ()) ∧
      (s.execute line).1 = { s with files } := by
  by_cases known : Keyword.save ∈ s.vocabulary
  · have stepped : s.store.step s.vocabulary line =
        .write path (Document.write s.store) (s.store.saved path) :=
      Store.step_of_words known said rfl s.store
    rw [execute, stepped] at saved ⊢
    rcases wrote : FileSystem.write s.files path (Document.write s.store).toUTF8 with ⟨files, done⟩
    simp only [answer, wrote] at saved ⊢
    cases done with
    | ok => exact ⟨files, rfl, rfl⟩
    | error e =>
      refine absurd (Option.some.inj saved) (ne_of_head ?_)
      simp
  · rw [execute, Store.step_of_unknown known said] at saved
    refine absurd (Option.some.inj saved) (ne_of_head ?_)
    simp

/-- A load whose path reads the text of a store without doubles gives that store's namespaces. -/
theorem execute_load {s : Session φ} {saved : Store} {line path : String} {more : List String}
    (known : Keyword.load ∈ s.vocabulary) (said : Text.wordsOf line = "load" :: path :: more)
    (exact : saved.NoDoubles)
    (read : FileSystem.read s.files path = .ok (Document.write saved).toUTF8) :
    s.execute line =
      ({ s with store := s.store.withNamespaces saved }, some ("State loaded from " ++ path)) := by
  have stepped : s.store.step s.vocabulary line = .read path (s.store.loaded path) :=
    Store.step_of_words known said rfl s.store
  rw [execute, stepped]
  simp [answer, FileSystem.readText_of_read read, Store.loaded, Document.read_write exact,
    Store.shows, Store.withNamespaces]

/-- What a session saves can be loaded again. The text of a store without doubles is read as its
namespaces. In a file system that returns for a path what was last written to its file, after a save
that reports success and lines that do not touch the saved file, a load from the same path reports
success, brings the saved namespaces back and keeps whether the session was asked to leave, as it
was before the load. -/
theorem saved_namespaces_restored :
    (∀ s : Store, s.NoDoubles →
      Document.read (Document.write s) = .ok { s with leaving := false }) ∧
    ∀ {φ : Type} [FileSystem φ] {Touches : φ → String → String → Prop},
      FileSystem.ReturnsLastWritten Touches →
      ∀ (s : Session φ) (saveLine loadLine path : String) (saveMore loadMore lines : List String),
      s.store.NoDoubles → Keyword.load ∈ s.vocabulary →
      Text.wordsOf saveLine = "save" :: path :: saveMore →
      (s.execute saveLine).2 = some ("State saved to " ++ path) →
      (s.execute saveLine).1.Spares Touches path lines →
      Text.wordsOf loadLine = "load" :: path :: loadMore →
      let before := ((s.execute saveLine).1.executeAll lines).1
      (before.execute loadLine).2 = some ("State loaded from " ++ path) ∧
        (before.execute loadLine).1.store = { s.store with leaving := before.store.leaving } := by
  refine ⟨fun s exact => Document.read_write exact, ?_⟩
  intro φ _ Touches law s saveLine loadLine path saveMore loadMore lines exact known saving saved
    spared loading
  obtain ⟨files, wrote, after⟩ := execute_save saving saved
  have stillKnown : Keyword.load ∈ ((s.execute saveLine).1.executeAll lines).1.vocabulary := by
    rw [executeAll_vocabulary, execute_vocabulary]
    exact known
  rw [after] at spared stillKnown ⊢
  have read := executeAll_read law (law.read_written wrote) spared
  have loaded := execute_load stillKnown loading exact read
  exact ⟨congrArg Prod.snd loaded, congrArg (·.1.store) loaded⟩

/-- A session with empty names, quotes, backslashes, control characters and letters outside ASCII,
the least integer, and texts that look like other values. -/
def varied : Session where
  store :=
    { «variables» := .ofList [("", .str ""), ("n", .int Int64.minValue), ("five", .str "5"),
        ("\"\\\x01", .str "\t\x7f\"é😀"), ("yes", .bool true)]
      arrays := .ofList [("", #[]), ("a", #[-1, 0, 7])]
      dictionaries := .ofList [("d", .ofList [("", 3), ("\n", -3)]), ("e", .empty)]
      classes := .ofList [("C", .ofList [("m", "null")])] }

theorem saved_namespaces_restored_varied :
    varied.store.NoDoubles ∧ (varied.execute "save p").2 = some "State saved to p" ∧
      let before := ((varied.execute "save p").1.executeAll ["clear", "save q", "exit"]).1
      (before.execute "load p").2 = some "State loaded from p" ∧
        (before.execute "load p").1.store = { varied.store with leaving := true } := by
  have exact : varied.store.NoDoubles := by decide +kernel
  have saved : (varied.execute "save p").2 = some "State saved to p" := by decide +kernel
  have spared :
      (varied.execute "save p").1.Spares Files.Touches "p" ["clear", "save q", "exit"] := by
    decide +kernel
  exact ⟨exact, saved, saved_namespaces_restored.2 Files.returnsLastWritten varied "save p" "load p"
    "p" [] [] ["clear", "save q", "exit"] exact (by decide) (by decide +kernel) saved spared
    (by decide +kernel)⟩

end Linewise.Session
