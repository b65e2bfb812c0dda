import Linewise.Files

/-! Written files stay. What programs rely on is a law of their file system: a path returns what was
last written to the file that it names. A tree of files keeps this law. There a write puts its
contents at the one place that its path denotes and makes or removes no folder, so every path that
reached a place before still reaches it, and reads what was last put there. -/
namespace Linewise

/-! ## The law -/

/-- A file system returns for a path what was just written to it. -/
structure FileSystem.ReturnsWritten (φ : Type) [FileSystem φ] : Prop where
  read_written : ∀ {files after : φ} {path : String} {contents : ByteArray},
    FileSystem.write files path contents = (after, .ok ()) →
      FileSystem.read after path = .ok contents

/-- **A file system returns for a path what was last written to its file.** A file that can be read
stays as it is through the writes that do not touch it. `Touches files other path` tells that a
write to `other` may change the file that `path` names, as it does when both name one file. -/
structure FileSystem.ReturnsLastWritten {φ : Type} [FileSystem φ]
    (Touches : φ → String → String → Prop) : Prop extends FileSystem.ReturnsWritten φ where
  read_kept : ∀ {files : φ} {path other : String} {held : ByteArray} (contents : ByteArray),
    FileSystem.read files path = .ok held → ¬ Touches files other path →
      FileSystem.read (FileSystem.write files other contents).1 path = .ok held

theorem FileSystem.readText_of_read {φ : Type} [FileSystem φ] {files : φ} {path text : String}
    (read : FileSystem.read files path = .ok text.toUTF8) :
    FileSystem.readText files path = .ok text := by
  have decoded : String.fromUTF8? text.toUTF8 = some text := dif_pos text.isValidUTF8
  simp only [FileSystem.readText, read, FileSystem.decode, decoded]

/-! ## Trees -/

namespace Files

/-- The place of the file that a path names: its folders are there, and its last component is one
that a file can have. -/
def place? (t : Files) (path : String) : Option (List String) :=
  match checked path with
  | .error _ => none
  | .ok p =>
    match t.walk [] p.components.dropLast, p.components.getLast? with
    | .ok folder, some name =>
      if p.slash ∨ maxName < name.utf8ByteSize then none else child? folder name
    | _, _ => none

/-- A write to the one path would put its file where the other path leads. -/
def Touches (t : Files) (other path : String) : Prop :=
  ∃ place ∈ t.place? path, place ∈ (t.target other).toOption

instance (t : Files) (other path : String) : Decidable (t.Touches other path) :=
  inferInstanceAs (Decidable (∃ place ∈ t.place? path, _))

/-- Two trees with the same folders. -/
def SameFolders (t u : Files) : Prop :=
  ∀ place, u.entry? place = some .folder ↔ t.entry? place = some .folder

private theorem lookup_filter_other {place probe : List String}
    {entries : List (List String × Entry)} (other : probe ≠ place) :
    (entries.filter fun old => old.1 != place).lookup probe = entries.lookup probe := by
  induction entries with
  | nil => rfl
  | cons entry rest ih =>
    obtain ⟨first, e⟩ := entry
    by_cases same : first = place
    · have miss : (probe == first) = false := beq_false_of_ne (same ▸ other)
      simp [same, ih, List.lookup_cons, same ▸ miss]
    · rw [List.filter_cons_of_pos (by simpa using same), List.lookup_cons, List.lookup_cons, ih]

/-- What stands at a place after something was put at one. -/
theorem entry?_put (t : Files) {place : List String} (below : place ≠ []) (e : Entry)
    (probe : List String) :
    Files.entry? (t.put place e) probe = if probe = place then some e else t.entry? probe := by
  by_cases same : probe = place
  · subst same
    simp [ entry?, put, below]
  · rw [if_neg same]
    by_cases root : probe = []
    · simp [ entry?, root]
    · simp [ entry?, put, List.lookup_cons, root, beq_false_of_ne same, lookup_filter_other same]

/-- A file that is put where no folder stands leaves the folders as they are. -/
theorem sameFolders_put {t : Files} {place : List String} (below : place ≠ [])
    (free : t.entry? place ≠ some .folder) (contents : ByteArray) :
    t.SameFolders (t.put place (.file contents)) := by
  intro probe
  rw [entry?_put t below]
  split
  · rename_i same
    subst same
    simp [free]
  · exact Iff.rfl

theorem SameFolders.enter {t u : Files} (same : t.SameFolders u) {place dest : List String}
    {name : String} (entered : t.enter place name = .ok dest) : u.enter place name = .ok dest := by
  unfold Files.enter at entered ⊢
  split
  · simpa [*] using entered
  · split
    · simpa [*] using entered
    · split
      · simp [*] at entered
      · simp only [*, if_false] at entered
        split at entered
        · cases entered
        · cases entered
        · rename_i folder
          rw [(same _).mpr folder]
          exact entered

/-- A way through folders is the same in a tree with the same folders. -/
theorem SameFolders.walk {t u : Files} (same : t.SameFolders u) {names place dest : List String}
    (walked : t.walk place names = .ok dest) : u.walk place names = .ok dest := by
  induction names generalizing place with
  | nil => exact walked
  | cons name more ih =>
    rw [Files.walk] at walked ⊢
    split at walked
    · rename_i next entered
      rw [same.enter entered]
      exact ih walked
    · cases walked

theorem child?_ne_nil {folder place : List String} {name : String}
    (found : child? folder name = some place) : place ≠ [] := by
  unfold child? at found
  split at found
  · cases found
  · obtain rfl := Option.some.inj found
    simp

/-- Folders that stay keep every place within reach. -/
theorem SameFolders.place? {t u : Files} (same : t.SameFolders u) {path : String}
    {place : List String} (found : t.place? path = some place) :
    Files.place? u path = some place := by
  unfold Files.place? at found ⊢
  split at found
  · cases found
  · split at found
    · rename_i walked last
      simpa [same.walk walked, last] using found
    · cases found

theorem place?_ne_nil {t : Files} {path : String} {place : List String}
    (found : t.place? path = some place) : place ≠ [] := by
  unfold place? at found
  split at found
  · cases found
  · split at found
    · split at found
      · cases found
      · exact child?_ne_nil found
    · cases found

/-- A path reads the file at its place. -/
theorem read_eq_ok_iff {t : Files} {path : String} {held : ByteArray} :
    t.read path = .ok held ↔
      ∃ place, t.place? path = some place ∧ t.entry? place = some (.file held) := by
  unfold read place?
  rcases checked path with e | p
  · simp
  simp only
  rcases t.walk [] p.components.dropLast with e | folder
  · simp
  rcases p.components.getLast? with _ | name
  · simp
  simp only
  rcases child? folder name with _ | place
  · simp
  by_cases long : maxName < name.utf8ByteSize
  · simp [long]
  rcases stands : t.entry? place with _ | ⟨contents⟩ | _ <;> cases p.slash <;> simp [long, stands]

/-- A path is written at its place, unless a folder stands there. -/
theorem target_eq_ok_iff {t : Files} {path : String} {place : List String} :
    t.target path = .ok place ↔
      t.place? path = some place ∧ t.entry? place ≠ some .folder := by
  unfold target place?
  rcases checked path with e | p
  · simp
  simp only
  rcases t.walk [] p.components.dropLast with e | folder
  · simp
  rcases p.components.getLast? with _ | name
  · simp
  simp only
  rcases child? folder name with _ | child
  · simp
  by_cases long : maxName < name.utf8ByteSize
  · cases p.slash <;> simp [long]
  rcases stands : t.entry? child with _ | ⟨contents⟩ | _ <;> cases p.slash <;>
    simp [long, stands] <;> rintro rfl <;> simp [stands]

/-- What a write does: it fails and changes nothing, or it puts its contents where its path leads,
and the folders stay. -/
theorem write_cases (t : Files) (path : String) (contents : ByteArray) :
    (∃ e, FileSystem.write t path contents = (t, .error e)) ∨
    ∃ place, t.target path = .ok place ∧
      FileSystem.write t path contents = (t.put place (.file contents), .ok ()) ∧
      t.SameFolders (t.put place (.file contents)) := by
  cases leads : t.target path with
  | error e => exact .inl ⟨e, by simp only [FileSystem.write, Files.write, leads]⟩
  | ok place =>
    obtain ⟨found, free⟩ := target_eq_ok_iff.mp leads
    refine .inr ⟨place, rfl, by simp only [FileSystem.write, Files.write, leads], ?_⟩
    exact sameFolders_put (place?_ne_nil found) free contents

/-- A tree of files returns for a path what was last written to its place. -/
theorem returnsLastWritten : FileSystem.ReturnsLastWritten Touches where
  read_written := by
    intro t after path contents written
    rcases t.write_cases path contents with ⟨e, failed⟩ | ⟨place, leads, put, folders⟩
    · rw [failed] at written
      cases written
    · rw [put] at written
      obtain ⟨rfl, -⟩ := Prod.mk.inj written
      have found := (target_eq_ok_iff.mp leads).1
      refine read_eq_ok_iff.mpr ⟨place, folders.place? found, ?_⟩
      rw [entry?_put t (place?_ne_nil found), if_pos rfl]
  read_kept := by
    intro t path other held contents reads apart
    obtain ⟨place, found, there⟩ := read_eq_ok_iff.mp reads
    rcases t.write_cases other contents with ⟨e, failed⟩ | ⟨target, leads, put, folders⟩
    · rwa [failed]
    · have elsewhere : place ≠ target := by
        rintro rfl
        exact apart ⟨place, found, by rw [leads]; rfl⟩
      rw [put]
      refine read_eq_ok_iff.mpr ⟨place, folders.place? found, ?_⟩
      rwa [entry?_put t (place?_ne_nil (target_eq_ok_iff.mp leads).1), if_neg elsewhere]

end Files

end Linewise
