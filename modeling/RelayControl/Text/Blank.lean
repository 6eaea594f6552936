/-!
Blank characters, those with the White_Space property, and what follows from them: blank text,
trimming, and the words and lines of a text.
-/

namespace RelayControl

/-- Whether a character has the White_Space property. -/
def isBlank (c : Char) : Bool :=
  let n := c.toNat
  (9 ≤ n && n ≤ 13) || n == 0x20 || n == 0x85 || n == 0xA0 || n == 0x1680 ||
    (0x2000 ≤ n && n ≤ 0x200A) || n == 0x2028 || n == 0x2029 || n == 0x202F ||
    n == 0x205F || n == 0x3000

namespace Text

def allBlank (s : String) : Bool :=
  s.toList.all isBlank

def trim (s : String) : String :=
  String.ofList ((s.toList.dropWhile isBlank).reverse.dropWhile isBlank).reverse

private def wordsFrom : List Char → List Char × List (List Char)
  | [] => ([], [])
  | c :: rest =>
      let (word, later) := wordsFrom rest
      if isBlank c then ([], if word.isEmpty then later else word :: later)
      else (c :: word, later)

def words (s : String) : List String :=
  let (word, later) := wordsFrom s.toList
  (if word.isEmpty then later else word :: later).map String.ofList

/-- The lines of a text, collected from the right; the last one need not be ended. -/
private def linesFrom : List Char → List (List Char)
  | [] => []
  | '\n' :: rest => [] :: linesFrom rest
  | '\r' :: '\n' :: rest => [] :: linesFrom rest
  | c :: rest =>
      match linesFrom rest with
      | [] => [[c]]
      | line :: later => (c :: line) :: later

def lines (s : String) : List String := (linesFrom s.toList).map String.ofList

def dropTrailing (c : Char) (s : String) : String :=
  String.ofList (s.toList.reverse.dropWhile (· == c)).reverse

end Text

end RelayControl
