/-! Tables from names to entries. A table lists its names in strictly increasing order, so two
tables with the same entries are equal, whatever was inserted and erased on the way. Names are
ordered by code points, which is the order of their UTF-8 bytes. -/
namespace Linewise

/-- A finite map from names, listed in increasing order. -/
structure Table (α : Type) where
  entries : List (String × α)
  increasing : entries.Pairwise fun a b => a.1 < b.1
deriving DecidableEq

namespace Table

variable {α : Type}

/-- The table without entries. -/
def empty : Table α :=
  ⟨[], .nil⟩

instance : Inhabited (Table α) :=
  ⟨empty⟩

/-- The entry of a name. -/
def get? (t : Table α) (name : String) : Option α :=
  t.entries.lookup name

/-- Whether a name has an entry. -/
def contains (t : Table α) (name : String) : Bool :=
  (t.get? name).isSome

/-- Puts an entry in its place, over an entry of the same name. -/
def insertEntry (name : String) (a : α) : List (String × α) → List (String × α)
  | [] => [(name, a)]
  | entry :: rest =>
    if name < entry.1 then (name, a) :: entry :: rest
    else if name = entry.1 then (name, a) :: rest
    else entry :: insertEntry name a rest

theorem mem_insertEntry {name : String} {a : α} {entries : List (String × α)} {e : String × α}
    (member : e ∈ insertEntry name a entries) : e = (name, a) ∨ e ∈ entries := by
  induction entries with
  | nil => simpa [insertEntry] using member
  | cons entry rest ih =>
    rw [insertEntry] at member
    split at member
    · simpa using member
    · split at member
      · rcases List.mem_cons.mp member with rfl | later
        · exact .inl rfl
        · exact .inr (List.mem_cons_of_mem _ later)
      · rcases List.mem_cons.mp member with rfl | later
        · exact .inr List.mem_cons_self
        · rcases ih later with rfl | old
          · exact .inl rfl
          · exact .inr (List.mem_cons_of_mem _ old)

theorem insertEntry_increasing (name : String) (a : α) {entries : List (String × α)}
    (sorted : entries.Pairwise fun a b => a.1 < b.1) :
    (insertEntry name a entries).Pairwise fun a b => a.1 < b.1 := by
  induction entries with
  | nil => simp [insertEntry]
  | cons entry rest ih =>
    obtain ⟨before, sortedRest⟩ := List.pairwise_cons.mp sorted
    rw [insertEntry]
    split
    · rename_i first
      refine List.pairwise_cons.mpr ⟨?_, sorted⟩
      intro other member
      rcases List.mem_cons.mp member with rfl | later
      · exact first
      · exact String.lt_trans first (before other later)
    · split
      · rename_i same
        subst same
        exact List.pairwise_cons.mpr ⟨before, sortedRest⟩
      · rename_i notBefore different
        refine List.pairwise_cons.mpr ⟨?_, ih sortedRest⟩
        intro other member
        rcases mem_insertEntry member with rfl | old
        · rcases Std.lt_trichotomy entry.1 name with less | equal | greater
          · exact less
          · exact absurd equal.symm different
          · exact absurd greater notBefore
        · exact before other old

/-- The table with the given entry for a name and all other entries as they are. -/
def insert (t : Table α) (name : String) (a : α) : Table α :=
  ⟨insertEntry name a t.entries, insertEntry_increasing name a t.increasing⟩

/-- The table without an entry for a name. -/
def erase (t : Table α) (name : String) : Table α :=
  ⟨t.entries.filter fun e => e.1 != name, t.increasing.filter _⟩

/-- The table of a list of entries; of two entries with one name the later counts. -/
def ofList (entries : List (String × α)) : Table α :=
  entries.foldl (fun t e => t.insert e.1 e.2) empty

theorem lookup_insertEntry (name probe : String) (a : α) (entries : List (String × α)) :
    (insertEntry name a entries).lookup probe =
      if probe = name then some a else entries.lookup probe := by
  induction entries with
  | nil =>
    by_cases same : probe = name
    · simp [insertEntry, same]
    · simp [insertEntry, List.lookup_cons, beq_false_of_ne same, same]
  | cons entry rest ih =>
    obtain ⟨first, old⟩ := entry
    rw [insertEntry]
    by_cases same : probe = name
    · subst same
      split
      · simp
      · split
        · simp
        · rename_i different
          simpa [List.lookup_cons, beq_false_of_ne different] using ih
    · have miss : (probe == name) = false := beq_false_of_ne same
      split
      · simp [List.lookup_cons, miss]
      · split
        · rename_i equal
          simp only at equal
          subst equal
          simp [List.lookup_cons, miss]
        · simp only [List.lookup_cons, ih, same, if_false]

/-- Looking a name up after an insertion. -/
@[simp]
theorem get?_insert (t : Table α) (name probe : String) (a : α) :
    (t.insert name a).get? probe = if probe = name then some a else t.get? probe :=
  lookup_insertEntry name probe a t.entries

@[simp]
theorem get?_empty (name : String) : (empty : Table α).get? name = none :=
  rfl

theorem lookup_filter_ne (name probe : String) (entries : List (String × α)) :
    (entries.filter fun e => e.1 != name).lookup probe =
      if probe = name then none else entries.lookup probe := by
  induction entries with
  | nil => simp
  | cons entry rest ih =>
    obtain ⟨first, old⟩ := entry
    by_cases gone : first = name
    · subst gone
      rw [List.filter_cons_of_neg (by simp), ih]
      by_cases same : probe = first
      · simp [same]
      · simp [List.lookup_cons, same, beq_false_of_ne same]
    · rw [List.filter_cons_of_pos (by simpa using gone)]
      by_cases same : probe = first
      · subst same
        simp [gone]
      · simp only [List.lookup_cons, beq_false_of_ne same, ih]

/-- Looking a name up after an erasure. -/
@[simp]
theorem get?_erase (t : Table α) (name probe : String) :
    (t.erase name).get? probe = if probe = name then none else t.get? probe :=
  lookup_filter_ne name probe t.entries

theorem lookup_eq_some_iff {name : String} {a : α} {entries : List (String × α)}
    (sorted : entries.Pairwise fun a b => a.1 < b.1) :
    entries.lookup name = some a ↔ (name, a) ∈ entries := by
  induction entries with
  | nil => simp
  | cons entry rest ih =>
    obtain ⟨before, sortedRest⟩ := List.pairwise_cons.mp sorted
    obtain ⟨first, value⟩ := entry
    by_cases same : name = first
    · subst same
      have absent : (name, a) ∉ rest := fun later => String.lt_irrefl name (before _ later)
      simp [absent, eq_comm]
    · simp [List.lookup_cons, beq_false_of_ne same, ih sortedRest, same]

/-- The entries are what the names are looked up as. -/
theorem get?_eq_some_iff {t : Table α} {name : String} {a : α} :
    t.get? name = some a ↔ (name, a) ∈ t.entries :=
  lookup_eq_some_iff t.increasing

theorem insertEntry_last {name : String} {a : α} {entries : List (String × α)}
    (last : ∀ e ∈ entries, e.1 < name) : insertEntry name a entries = entries ++ [(name, a)] := by
  induction entries with
  | nil => rfl
  | cons entry rest ih =>
    have before := last entry List.mem_cons_self
    rw [insertEntry, if_neg (String.lt_asymm before), if_neg (String.ne_of_lt before).symm,
      ih fun e member => last e (List.mem_cons_of_mem _ member), List.cons_append]

theorem entries_foldl_insert (t : Table α) (entries : List (String × α))
    (sorted : (t.entries ++ entries).Pairwise fun a b => a.1 < b.1) :
    (entries.foldl (fun t e => t.insert e.1 e.2) t).entries = t.entries ++ entries := by
  induction entries generalizing t with
  | nil => simp
  | cons entry rest ih =>
    have last : ∀ e ∈ t.entries, e.1 < entry.1 := by
      intro e member
      exact (List.pairwise_append.mp sorted).2.2 e member entry List.mem_cons_self
    have inserted : (t.insert entry.1 entry.2).entries = t.entries ++ [entry] :=
      insertEntry_last last
    rw [List.foldl_cons, ih _ (by simpa [inserted] using sorted), inserted]
    simp

theorem mem_foldl_insert {t : Table α} {entries : List (String × α)} {e : String × α}
    (member : e ∈ (entries.foldl (fun t e => t.insert e.1 e.2) t).entries) :
    e ∈ t.entries ∨ e ∈ entries := by
  induction entries generalizing t with
  | nil => exact .inl member
  | cons entry rest ih =>
    rcases ih member with inserted | later
    · rcases mem_insertEntry inserted with rfl | old
      · exact .inr List.mem_cons_self
      · exact .inl old
    · exact .inr (List.mem_cons_of_mem _ later)

/-- The entries of the table of a list are entries of the list. -/
theorem mem_of_mem_ofList {entries : List (String × α)} {e : String × α}
    (member : e ∈ (ofList entries).entries) : e ∈ entries :=
  (mem_foldl_insert member).resolve_left (by simp [empty])

/-- Tables with the same entries are equal. -/
theorem eq_of_entries {t u : Table α} (same : t.entries = u.entries) : t = u := by
  cases t
  cases u
  cases same
  rfl

/-- A table is the table of its entries. -/
theorem ofList_entries (t : Table α) : ofList t.entries = t :=
  eq_of_entries (entries_foldl_insert empty t.entries t.increasing)

end Table

end Linewise
