import Linewise.Document.Fault

/-! String literals of documents. Reading one decodes its escapes, where surrogates have to come in
pairs; skimming one only looks for its end. -/
namespace Linewise.Document

/-- The value of a hexadecimal digit. -/
def hexDigit? (c : Char) : Option Nat :=
  if c.isDigit then some (c.toNat - 48)
  else if 'a' ≤ c ∧ c ≤ 'f' then some (c.toNat - 87)
  else if 'A' ≤ c ∧ c ≤ 'F' then some (c.toNat - 55)
  else none

/-- The number four hexadecimal digits denote. -/
def hexValue? (a b c d : Char) : Option Nat :=
  match hexDigit? a, hexDigit? b, hexDigit? c, hexDigit? d with
  | some a, some b, some c, some d => some (((a * 16 + b) * 16 + c) * 16 + d)
  | _, _, _, _ => none

/-- `decode_hex_escape`: reads the four digits of a code unit. Anything else in the next four bytes
is a bad escape, and fewer than four bytes are an unfinished string. -/
def codeUnit (text : List Char) : Read Nat :=
  match text with
  | a :: b :: c :: d :: rest =>
    match hexValue? a b c d with
    | some n => .ok (n, rest)
    | none => .error ⟨.badEscape, text, 4⟩
  | _ =>
    if 4 ≤ byteSize text then .error ⟨.badEscape, text, 4⟩
    else .error (.before .endInString [])

/-- Whether a code unit is the first half of a surrogate pair. -/
def isHighSurrogate (n : Nat) : Bool :=
  decide (0xD800 ≤ n) && decide (n ≤ 0xDBFF)

/-- Whether a code unit is the second half of a surrogate pair. -/
def isLowSurrogate (n : Nat) : Bool :=
  decide (0xDC00 ≤ n) && decide (n ≤ 0xDFFF)

/-- The character of a surrogate pair. -/
def surrogatePair (high low : Nat) : Char :=
  Char.ofNat ((high - 0xD800) * 1024 + (low - 0xDC00) + 0x10000)

/-- Reads the second half of a surrogate pair. -/
def lowSurrogate (high : Nat) (text : List Char) : Read Char :=
  match text with
  | [] => .error (.before .endInString [])
  | '\\' :: 'u' :: rest =>
    match codeUnit rest with
    | .error f => .error f
    | .ok (low, after) =>
      if isLowSurrogate low then .ok (surrogatePair high low, after)
      else .error (.before .loneSurrogate after)
  | ['\\'] => .error (.before .endInString [])
  | '\\' :: rest => .error (.atByte .endOfHexEscape rest)
  | _ => .error (.atByte .endOfHexEscape text)

/-- Reads the character of an escape by code units. -/
def codeEscape (text : List Char) : Read Char :=
  match codeUnit text with
  | .error f => .error f
  | .ok (n, rest) =>
    if isLowSurrogate n then .error (.before .loneSurrogate rest)
    else if isHighSurrogate n then lowSurrogate n rest
    else .ok (Char.ofNat n, rest)

/-- The character of an escape by one letter. -/
def letterEscape? (c : Char) : Option Char :=
  match c with
  | '"' => some '"'
  | '\\' => some '\\'
  | '/' => some '/'
  | 'b' => some '\x08'
  | 'f' => some '\x0c'
  | 'n' => some '\n'
  | 'r' => some '\r'
  | 't' => some '\t'
  | _ => none

/-- `parse_escape`: reads an escape after its backslash. -/
def escape (text : List Char) : Read Char :=
  match text with
  | [] => .error (.before .endInString [])
  | c :: rest =>
    if c = 'u' then codeEscape rest
    else
      match letterEscape? c with
      | some d => .ok (d, rest)
      | none => .error (.atByte .badEscape text)

/-- `ignore_escape`: skims an escape after its backslash; of a code unit only the digits count. -/
def skimEscape (text : List Char) : Except Fault (List Char) :=
  match text with
  | [] => .error (.before .endInString [])
  | c :: rest =>
    if c = 'u' then
      match codeUnit rest with
      | .ok (_, after) => .ok after
      | .error f => .error f
    else if (letterEscape? c).isSome then .ok rest
    else .error (.atByte .badEscape text)

theorem codeUnit_length {text rest : List Char} {n : Nat} (read : codeUnit text = .ok (n, rest)) :
    rest.length < text.length := by
  unfold codeUnit at read
  split at read
  · split at read
    · obtain ⟨_, rfl⟩ := Prod.mk.inj (Except.ok.inj read)
      simp only [List.length_cons]
      omega
    · cases read
  · split at read <;> cases read

theorem lowSurrogate_length {high : Nat} {text rest : List Char} {c : Char}
    (read : lowSurrogate high text = .ok (c, rest)) : rest.length < text.length := by
  unfold lowSurrogate at read
  split at read
  · cases read
  · split at read
    · cases read
    · rename_i unit
      have shorter := codeUnit_length unit
      split at read
      · obtain ⟨_, rfl⟩ := Prod.mk.inj (Except.ok.inj read)
        simp only [List.length_cons]
        omega
      · cases read
  · cases read
  · cases read
  · cases read

theorem codeEscape_length {text rest : List Char} {c : Char}
    (read : codeEscape text = .ok (c, rest)) : rest.length < text.length := by
  unfold codeEscape at read
  split at read
  · cases read
  · rename_i unit
    have shorter := codeUnit_length unit
    split at read
    · cases read
    · split at read
      · have := lowSurrogate_length read
        omega
      · obtain ⟨_, rfl⟩ := Prod.mk.inj (Except.ok.inj read)
        exact shorter

theorem escape_length {text rest : List Char} {c : Char} (read : escape text = .ok (c, rest)) :
    rest.length < text.length := by
  unfold escape at read
  split at read
  · cases read
  · split at read
    · have := codeEscape_length read
      simp only [List.length_cons]
      omega
    · split at read
      · obtain ⟨_, rfl⟩ := Prod.mk.inj (Except.ok.inj read)
        simp
      · cases read

theorem skimEscape_length {text rest : List Char} (read : skimEscape text = .ok rest) :
    rest.length < text.length := by
  unfold skimEscape at read
  split at read
  · cases read
  · split at read
    · split at read
      · rename_i unit
        have := codeUnit_length unit
        cases read
        simp only [List.length_cons]
        omega
      · cases read
    · split at read
      · cases read
        simp
      · cases read

/-- Reads a string after its opening quote. `read` holds the contents so far, last character
first. -/
def stringRest (read : List Char) (text : List Char) : Read (List Char) :=
  match text with
  | [] => .error (.before .endInString [])
  | c :: rest =>
    if c = '"' then .ok (read.reverse, rest)
    else if c = '\\' then
      match decoded : escape rest with
      | .ok (d, after) =>
        have := escape_length decoded
        stringRest (d :: read) after
      | .error f => .error f
    else if c.toNat < 32 then .error (.atByte .controlCharacter text)
    else stringRest (c :: read) rest
termination_by text.length

/-- `ignore_str`: skims a string after its opening quote. The place of a control character is before
it. -/
def skimString (text : List Char) : Except Fault (List Char) :=
  match text with
  | [] => .error (.before .endInString [])
  | c :: rest =>
    if c = '"' then .ok rest
    else if c = '\\' then
      match skimmed : skimEscape rest with
      | .ok after =>
        have := skimEscape_length skimmed
        skimString after
      | .error f => .error f
    else if c.toNat < 32 then .error (.before .controlCharacter text)
    else skimString rest
termination_by text.length

/-- `parse_str`: reads a string after its opening quote. -/
def string (text : List Char) : Read String :=
  match stringRest [] text with
  | .ok (contents, rest) => .ok (String.ofList contents, rest)
  | .error f => .error f

theorem stringRest_length {read text contents rest : List Char}
    (done : stringRest read text = .ok (contents, rest)) : rest.length < text.length := by
  fun_induction stringRest read text with
  | case1 => cases done
  | case2 =>
    obtain ⟨_, rfl⟩ := Prod.mk.inj (Except.ok.inj done)
    simp
  | case3 _ _ _ _ _ shorter _ ih =>
    have := ih done
    simp only [List.length_cons]
    omega
  | case4 => cases done
  | case5 => cases done
  | case6 _ _ _ _ _ _ ih =>
    have := ih done
    simp only [List.length_cons]
    omega

theorem skimString_length {text rest : List Char} (done : skimString text = .ok rest) :
    rest.length < text.length := by
  fun_induction skimString text with
  | case1 => cases done
  | case2 =>
    cases done
    simp
  | case3 _ _ _ shorter _ ih =>
    have := ih done
    simp only [List.length_cons]
    omega
  | case4 => cases done
  | case5 => cases done
  | case6 _ _ _ _ _ ih =>
    have := ih done
    simp only [List.length_cons]
    omega

theorem string_length {text rest : List Char} {s : String} (read : string text = .ok (s, rest)) :
    rest.length < text.length := by
  unfold string at read
  split at read
  · rename_i done
    obtain ⟨_, rfl⟩ := Prod.mk.inj (Except.ok.inj read)
    exact stringRest_length done
  · cases read

end Linewise.Document
