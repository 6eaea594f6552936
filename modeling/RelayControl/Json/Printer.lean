import RelayControl.Binary64.Shortest
import RelayControl.Json.Basic

/-!
Writing JSON: compact, or indented by two blanks. Members are written in the order in which the
value holds them.
-/

namespace RelayControl

/-- Plain from one hundred-thousandth to below ten quadrillion, with a signed exponent elsewhere. -/
def Number.layout : Binary64.Layout :=
  { plainFrom := -5, plainTo := 15, positiveMark := "e+", negativeMark := "e-", tie := .even }

def Number.render : Number → String
  | .whole n _ => toString n
  | .float x => x.render layout

namespace Json

private def hexDigit (n : Nat) : Char :=
  (Nat.toDigits 16 n).headD '0'

def escape (c : Char) : List Char :=
  match c with
  | '"' => ['\\', '"']
  | '\\' => ['\\', '\\']
  | '\x08' => ['\\', 'b']
  | '\x0c' => ['\\', 'f']
  | '\n' => ['\\', 'n']
  | '\r' => ['\\', 'r']
  | '\t' => ['\\', 't']
  | c =>
      if c.toNat < 0x20 then
        ['\\', 'u', '0', '0', hexDigit (c.toNat / 16), hexDigit (c.toNat % 16)]
      else [c]

def quoted (s : String) : String :=
  String.ofList ('"' :: s.toList.flatMap escape ++ ['"'])

private def joined (separator : String) : List String → String
  | [] => ""
  | [s] => s
  | s :: rest => s ++ separator ++ joined separator rest

mutual

def compact : Json → String
  | .null => "null"
  | .bool b => if b then "true" else "false"
  | .number n => n.render
  | .text s => quoted s
  | .array xs => "[" ++ joined "," (compactItems xs) ++ "]"
  | .object ms => "\x7b" ++ joined "," (compactMembers ms) ++ "\x7d"

def compactItems : List Json → List String
  | [] => []
  | x :: xs => compact x :: compactItems xs

def compactMembers : List (String × Json) → List String
  | [] => []
  | (k, v) :: ms => (quoted k ++ ":" ++ compact v) :: compactMembers ms

end

private def newline (indent : Nat) : String :=
  String.ofList ('\n' :: List.replicate (2 * indent) ' ')

private def block (indent : Nat) (opening closing : String) (parts : List String) : String :=
  if parts.isEmpty then opening ++ closing
  else
    opening ++ newline (indent + 1) ++ joined ("," ++ newline (indent + 1)) parts ++
      newline indent ++ closing

/-! The characters of a block, and of a list of parts. -/

private theorem toList_joined (separator first : String) (parts : List String) :
    (joined separator (first :: parts)).toList =
      first.toList ++ parts.flatMap fun part => separator.toList ++ part.toList := by
  induction parts generalizing first with
  | nil => simp [joined]
  | cons next parts ih => simp [joined, ih]

theorem toList_block_nil (indent : Nat) (opening closing : String) :
    (block indent opening closing []).toList = opening.toList ++ closing.toList := by
  simp [block]

theorem toList_block_cons (indent : Nat) (opening closing first : String) (parts : List String) :
    (block indent opening closing (first :: parts)).toList =
      opening.toList ++ '\n' :: (List.replicate (2 * (indent + 1)) ' ' ++ (first.toList ++
        ((parts.flatMap fun part =>
            ',' :: '\n' :: (List.replicate (2 * (indent + 1)) ' ' ++ part.toList)) ++
          '\n' :: (List.replicate (2 * indent) ' ' ++ closing.toList)))) := by
  simp [block, newline, toList_joined]

mutual

def prettyAt (indent : Nat) : Json → String
  | .null => "null"
  | .bool b => if b then "true" else "false"
  | .number n => n.render
  | .text s => quoted s
  | .array xs => block indent "[" "]" (prettyItems (indent + 1) xs)
  | .object ms => block indent "\x7b" "\x7d" (prettyMembers (indent + 1) ms)

def prettyItems (indent : Nat) : List Json → List String
  | [] => []
  | x :: xs => prettyAt indent x :: prettyItems indent xs

def prettyMembers (indent : Nat) : List (String × Json) → List String
  | [] => []
  | (k, v) :: ms => (quoted k ++ ": " ++ prettyAt indent v) :: prettyMembers indent ms

end

def pretty (v : Json) : String := prettyAt 0 v

end Json

end RelayControl
