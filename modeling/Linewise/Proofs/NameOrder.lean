import Mathlib.Data.List.Induction
import Mathlib.Data.List.Sort
import Linewise.Table

/-! The order of names. Names are ordered by code points, and UTF-8 keeps that order: the bytes of a
smaller name are smaller. So a table lists its names in the order of their bytes, and since no name
comes twice, what the names are looked up as determines the table. -/
namespace Linewise

/-! ## Bytes -/

namespace Text

/-- The UTF-8 bytes of a text. -/
def bytes (text : String) : List UInt8 :=
  text.toUTF8.data.toList

theorem bytes_eq_flatMap (text : String) :
    bytes text = text.toList.flatMap String.utf8EncodeChar := by
  rw [bytes, String.toUTF8_eq_toByteArray, ← String.utf8Encode_toList, List.utf8Encode,
    List.data_toByteArray]

/-- Numbers compare like their digits to the base 64; the first digit may be larger. -/
theorem base64_lt {v w : Nat} (less : v < w) :
    v / 262144 < w / 262144 ∨ v / 262144 = w / 262144 ∧
      (v / 4096 % 64 < w / 4096 % 64 ∨ v / 4096 % 64 = w / 4096 % 64 ∧
        (v / 64 % 64 < w / 64 % 64 ∨ v / 64 % 64 = w / 64 % 64 ∧ v % 64 < w % 64)) := by
  by_cases first : v / 262144 = w / 262144
  · by_cases second : v / 4096 = w / 4096
    · by_cases third : v / 64 = w / 64
      · omega
      · omega
    · omega
  · omega

/-- The bytes of a smaller character are smaller, whatever follows. Characters with different
numbers of bytes differ in the first byte already. -/
theorem utf8EncodeChar_lt {c d : Char} (less : c < d) (after behind : List UInt8) :
    String.utf8EncodeChar c ++ after < String.utf8EncodeChar d ++ behind := by
  have smaller : c.val.toNat < d.val.toNat := less
  have bound : d.val.toNat < 0x110000 := by
    have valid := d.valid
    simp only [UInt32.isValidChar, Nat.isValidChar] at valid
    omega
  unfold String.utf8EncodeChar
  generalize c.val.toNat = v at *
  generalize d.val.toNat = w at *
  -- With four bytes on both sides the digits decide in turn; shorter ones are left to arithmetic.
  by_cases four : 65535 < v
  · have digits := base64_lt smaller
    simp only [show ¬ v ≤ 127 by omega, show ¬ v ≤ 2047 by omega, show ¬ v ≤ 65535 by omega,
      show ¬ w ≤ 127 by omega, show ¬ w ≤ 2047 by omega, show ¬ w ≤ 65535 by omega, if_false,
      List.cons_append, List.nil_append, List.cons_lt_cons_iff, UInt8.lt_iff_toNat_lt,
      ← UInt8.toNat_inj, UInt8.toNat_ofNat', Nat.reducePow]
    simp (disch := omega) only [Nat.mod_eq_of_lt, Nat.add_lt_add_iff_right,
      Nat.add_right_cancel_iff]
    tauto
  · dsimp only
    split_ifs
    all_goals
      simp only [List.cons_append, List.nil_append, List.cons_lt_cons_iff, UInt8.lt_iff_toNat_lt,
        ← UInt8.toNat_inj, UInt8.toNat_ofNat', Nat.reducePow]
      omega

theorem flatMap_utf8EncodeChar_lt {cs ds : List Char} (less : cs < ds) :
    cs.flatMap String.utf8EncodeChar < ds.flatMap String.utf8EncodeChar := by
  induction cs generalizing ds with
  | nil =>
    cases ds with
    | nil => exact absurd less (List.lt_irrefl [])
    | cons d ds =>
      have some : 0 < (String.utf8EncodeChar d).length := by
        rw [String.length_utf8EncodeChar]
        exact d.utf8Size_pos
      obtain ⟨byte, more, encoded⟩ := List.exists_cons_of_length_pos some
      rw [List.flatMap_nil, List.flatMap_cons, encoded]
      exact List.nil_lt_cons _ _
  | cons c cs ih =>
    cases ds with
    | nil => exact absurd less (List.not_lt_nil _)
    | cons d ds =>
      rw [List.flatMap_cons, List.flatMap_cons]
      rcases List.cons_lt_cons_iff.mp less with first | ⟨rfl, later⟩
      · exact utf8EncodeChar_lt first _ _
      · exact List.append_left_lt (ih later)

/-- A smaller text has smaller bytes. -/
theorem bytes_lt {a b : String} (less : a < b) : bytes a < bytes b := by
  rw [bytes_eq_flatMap, bytes_eq_flatMap]
  exact flatMap_utf8EncodeChar_lt less

end Text

/-! ## Tables -/

namespace Table

variable {α : Type}

/-- The names of a table, in its order. -/
def names (t : Table α) : List String :=
  t.entries.map Prod.fst

/-- A table lists its names in the order of their bytes, each name once. -/
theorem names_increasing (t : Table α) :
    t.names.Pairwise fun a b => Text.bytes a < Text.bytes b :=
  List.pairwise_map.mpr (t.increasing.imp Text.bytes_lt)

/-- The table of a list has the last entry of each name. -/
theorem get?_ofList (entries : List (String × α)) (name : String) :
    (ofList entries).get? name = entries.reverse.lookup name := by
  induction entries using List.reverseRecOn with
  | nil => rfl
  | append_singleton entries entry ih =>
    have last : ofList (entries ++ [entry]) = (ofList entries).insert entry.1 entry.2 := by
      simp [ofList]
    rw [last, get?_insert, ih, List.reverse_concat, List.lookup_cons]
    by_cases same : name = entry.1
    · simp [same]
    · simp [same, beq_false_of_ne same]

/-- What the names are looked up as determines a table. -/
theorem ext_get? {t u : Table α} (same : ∀ name, t.get? name = u.get? name) : t = u := by
  have irreflexive : Std.Irrefl fun a b : String × α => a.1 < b.1 :=
    ⟨fun e => String.lt_irrefl e.1⟩
  have antisymmetric : Std.Antisymm fun a b : String × α => a.1 < b.1 :=
    ⟨fun _ _ less greater => absurd greater (String.lt_asymm less)⟩
  refine eq_of_entries (t.increasing.eq_of_mem_iff u.increasing ?_)
  rintro ⟨name, a⟩
  rw [← get?_eq_some_iff, ← get?_eq_some_iff, same]

end Table

end Linewise
