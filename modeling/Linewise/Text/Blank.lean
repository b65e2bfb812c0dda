import Linewise.Text.Ranges

/-! Blank characters and the words they separate. A blank is a character with the property
White_Space; a word is a longest run of other characters. -/
namespace Linewise.Text

/-- Code points with the property White_Space. -/
def blankRanges : List (Nat × Nat) :=
  [ (0x9, 0xD), (0x20, 0x20), (0x85, 0x85), (0xA0, 0xA0), (0x1680, 0x1680), (0x2000, 0x200A),
    (0x2028, 0x2029), (0x202F, 0x202F), (0x205F, 0x205F), (0x3000, 0x3000)]

/-- Whether `c` separates words. -/
def isBlank (c : Char) : Bool :=
  inRanges blankRanges c

/-- The words of a text, in order and without the blanks around them. -/
def words : List Char → List (List Char)
  | [] => []
  | [c] => if isBlank c then [] else [[c]]
  | c :: d :: rest =>
    if isBlank c then words (d :: rest)
    else if isBlank d then [c] :: words (d :: rest)
    else match words (d :: rest) with
      | [] => [[c]]
      | word :: more => (c :: word) :: more

/-- The words of a line. -/
def wordsOf (line : String) : List String :=
  (words line.toList).map String.ofList

/-- The text without the blanks at its two ends. -/
def trim (text : List Char) : List Char :=
  ((text.dropWhile isBlank).reverse.dropWhile isBlank).reverse

end Linewise.Text
