import Linewise.Store

/-! The four namespaces of a store as one family of tables. An edit changes one entry of one table.
A deletion is an edit of the first namespace that holds the name; the classes are not among those
that it looks at. -/
namespace Linewise

/-- The namespaces of a store. -/
inductive Namespace where
  | values
  | arrays
  | dictionaries
  | classes
deriving DecidableEq, Repr

/-- What a namespace holds under a name. -/
@[reducible]
def Namespace.Entry : Namespace → Type
  | .values => Value
  | .arrays => Array Int64
  | .dictionaries => Table Int64
  | .classes => Table String

namespace Store

/-- The table of a namespace. -/
def table (s : Store) : (n : Namespace) → Table n.Entry
  | .values => s.variables
  | .arrays => s.arrays
  | .dictionaries => s.dictionaries
  | .classes => s.classes

/-- The store with another table for one namespace. -/
def withTable (s : Store) : (n : Namespace) → Table n.Entry → Store
  | .values, t => { s with «variables» := t }
  | .arrays, t => { s with arrays := t }
  | .dictionaries, t => { s with dictionaries := t }
  | .classes, t => { s with classes := t }

@[simp]
theorem table_values (s : Store) : s.table .values = s.variables := rfl

@[simp]
theorem table_arrays (s : Store) : s.table .arrays = s.arrays := rfl

@[simp]
theorem table_dictionaries (s : Store) : s.table .dictionaries = s.dictionaries := rfl

@[simp]
theorem table_classes (s : Store) : s.table .classes = s.classes := rfl

@[simp]
theorem table_withTable (s : Store) (n : Namespace) (t : Table n.Entry) :
    (s.withTable n t).table n = t := by
  cases n <;> rfl

theorem table_withTable_of_ne (s : Store) {n m : Namespace} (other : m ≠ n)
    (t : Table n.Entry) : (s.withTable n t).table m = s.table m := by
  cases n <;> cases m <;> first | rfl | exact absurd rfl other

@[simp]
theorem leaving_withTable (s : Store) (n : Namespace) (t : Table n.Entry) :
    (s.withTable n t).leaving = s.leaving := by
  cases n <;> rfl

@[simp]
theorem withTable_table (s : Store) (n : Namespace) : s.withTable n (s.table n) = s := by
  cases n <;> rfl

/-- Two stores with the same tables and the same wish to leave are equal. -/
theorem eq_of_tables {s t : Store} (tables : ∀ n, s.table n = t.table n)
    (leaving : s.leaving = t.leaving) : s = t := by
  obtain ⟨⟩ := s
  obtain ⟨⟩ := t
  obtain rfl := tables .values
  obtain rfl := tables .arrays
  obtain rfl := tables .dictionaries
  obtain rfl := tables .classes
  obtain rfl := leaving
  rfl

/-- At most the entry of one name in one namespace is another: it may be new, gone or changed. -/
def Edited (s : Store) (n : Namespace) (name : String) (t : Store) : Prop :=
  ∃ edited, t = s.withTable n edited ∧
    ∀ other, other ≠ name → edited.get? other = (s.table n).get? other

theorem edited_refl (s : Store) (n : Namespace) (name : String) : s.Edited n name s :=
  ⟨s.table n, (s.withTable_table n).symm, fun _ _ => rfl⟩

theorem edited_insert (s : Store) (n : Namespace) (name : String) (entry : n.Entry) :
    s.Edited n name (s.withTable n ((s.table n).insert name entry)) := by
  refine ⟨_, rfl, ?_⟩
  intro other different
  rw [Table.get?_insert, if_neg different]

theorem edited_erase (s : Store) (n : Namespace) (name : String) :
    s.Edited n name (s.withTable n ((s.table n).erase name)) := by
  refine ⟨_, rfl, ?_⟩
  intro other different
  rw [Table.get?_erase, if_neg different]

theorem Edited.table_of_ne {s t : Store} {n m : Namespace} {name : String}
    (edited : s.Edited n name t) (other : m ≠ n) : t.table m = s.table m := by
  obtain ⟨table, rfl, -⟩ := edited
  exact s.table_withTable_of_ne other table

theorem Edited.get?_of_ne {s t : Store} {n : Namespace} {name other : String}
    (edited : s.Edited n name t) (different : other ≠ name) :
    (t.table n).get? other = (s.table n).get? other := by
  obtain ⟨table, rfl, same⟩ := edited
  rw [table_withTable]
  exact same other different

theorem Edited.leaving {s t : Store} {n : Namespace} {name : String}
    (edited : s.Edited n name t) : t.leaving = s.leaving := by
  obtain ⟨table, rfl, -⟩ := edited
  exact s.leaving_withTable n table

/-- The first namespace that holds a name, of those from which it can be deleted. -/
def holder? (s : Store) (name : String) : Option Namespace :=
  [Namespace.values, .arrays, .dictionaries].find? fun n => ((s.table n).get? name).isSome

/-- The namespace of a place from which a name can be deleted. -/
def Place.namespaceOf : Place → Namespace
  | .variable => .values
  | .array => .arrays
  | .dictionary => .dictionaries

theorem holder?_eq (s : Store) (name : String) :
    s.holder? name = (s.place? name).map Place.namespaceOf := by
  unfold holder? place? Table.contains
  cases valued : s.variables.get? name with
  | some v => simp [valued, Place.namespaceOf]
  | none =>
    cases listed : s.arrays.get? name with
    | some items => simp [valued, listed, Place.namespaceOf]
    | none =>
      cases mapped : s.dictionaries.get? name with
      | some t => simp [valued, listed, mapped, Place.namespaceOf]
      | none => simp [valued, listed, mapped]

theorem eraseAt_eq (s : Store) (name : String) (place : Place) :
    s.eraseAt name place =
      s.withTable place.namespaceOf ((s.table place.namespaceOf).erase name) := by
  cases place <;> rfl

theorem holder?_ne_classes (s : Store) (name : String) : s.holder? name ≠ some .classes := by
  intro held
  have member := List.mem_of_find?_eq_some held
  simp at member

/-- A deletion erases the name from its holder. -/
theorem delete_of_holder? {s : Store} {name : String} {n : Namespace}
    (held : s.holder? name = some n) :
    s.delete name = s.withTable n ((s.table n).erase name) := by
  rw [holder?_eq] at held
  obtain ⟨place, found, rfl⟩ := Option.map_eq_some_iff.mp held
  rw [delete, found]
  exact s.eraseAt_eq name place

theorem delete_of_holder?_eq_none {s : Store} {name : String} (free : s.holder? name = none) :
    s.delete name = s := by
  rw [holder?_eq, Option.map_eq_none_iff] at free
  rw [delete, free]

/-- A deletion is an edit of some namespace. -/
theorem delete_edited (s : Store) (name : String) : ∃ n, s.Edited n name (s.delete name) := by
  cases held : s.holder? name with
  | none =>
    rw [delete_of_holder?_eq_none held]
    exact ⟨.values, s.edited_refl .values name⟩
  | some n =>
    rw [delete_of_holder? held]
    exact ⟨n, s.edited_erase n name⟩

/-- A deletion leaves every namespace that is not the holder. -/
theorem table_delete {s : Store} {name : String} {n : Namespace}
    (other : s.holder? name ≠ some n) : (s.delete name).table n = s.table n := by
  cases held : s.holder? name with
  | none => rw [delete_of_holder?_eq_none held]
  | some m =>
    rw [delete_of_holder? held]
    refine s.table_withTable_of_ne ?_ _
    rintro rfl
    exact other held

end Store

end Linewise
