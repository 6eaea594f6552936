import RelayControl.Text.Digit
import RelayControl.Toml.Value

/-!
The parts of a TOML text: blanks, comments, keys, strings, numbers and moments. A reader takes what
it reads off the front of a list of characters, or refuses it.
-/

namespace RelayControl.Toml

open Text

abbrev Reader (α : Type) := List Char → Option (α × List Char)

def isGap (c : Char) : Bool := c == ' ' || c == '\t'

def skipGaps (cs : List Char) : List Char := cs.dropWhile isGap

def isPlain (c : Char) : Bool := c == '\t' || (0x20 ≤ c.toNat && c.toNat != 0x7F)

def newline? : List Char → Option (List Char)
  | '\n' :: rest => some rest
  | '\r' :: '\n' :: rest => some rest
  | _ => none

def skipComment : List Char → List Char
  | '#' :: rest => rest.dropWhile isPlain
  | cs => cs

def lineEnd? (cs : List Char) : Option (List Char) :=
  match skipComment (skipGaps cs) with
  | [] => some []
  | rest => newline? rest

/-- Skips blanks, ends of lines, and comments that are followed by one; `fuel` bounds the lines. -/
def skipLines : Nat → List Char → List Char
  | 0, cs => skipGaps cs
  | fuel + 1, cs =>
      let cs := skipGaps cs
      match newline? (skipComment cs) with
      | some rest => skipLines fuel rest
      | none => cs

/-! Numbers. -/

def digitsFrom (ok : Char → Bool) : List Char → List Char × List Char
  | [] => ([], [])
  | '_' :: c :: rest =>
      if ok c then
        let (digits, rest) := digitsFrom ok rest
        (c :: digits, rest)
      else ([], '_' :: c :: rest)
  | c :: rest =>
      if ok c then
        let (digits, rest) := digitsFrom ok rest
        (c :: digits, rest)
      else ([], c :: rest)

def digits? (ok : Char → Bool) : Reader (List Char)
  | [] => none
  | c :: rest =>
      if ok c then
        let (digits, rest) := digitsFrom ok rest
        some (c :: digits, rest)
      else none

def sign : List Char → Bool × List Char
  | '+' :: rest => (false, rest)
  | '-' :: rest => (true, rest)
  | cs => (false, cs)

/-- Decimal digits; none follow a zero at the front. -/
def decimal? : Reader (List Char)
  | '0' :: rest => some (['0'], rest)
  | cs => digits? Char.isDigit cs

private def fits? (n : Int) : Option Value :=
  if -0x8000000000000000 ≤ n ∧ n < 0x8000000000000000 then some (.integer n) else none

private def based? (base : Nat) (ok : Char → Bool) : Reader Value := fun cs => do
  let (digits, rest) ← digits? ok cs
  let v ← fits? (numeral base digits)
  pure (v, rest)

def integer? : Reader Value
  | '0' :: 'x' :: rest => based? 16 isHexDigit rest
  | '0' :: 'o' :: rest => based? 8 (fun c => '0' ≤ c && c ≤ '7') rest
  | '0' :: 'b' :: rest => based? 2 (fun c => c == '0' || c == '1') rest
  | cs => do
      let (negative, cs) := sign cs
      let (digits, rest) ← decimal? cs
      let n : Int := numeral 10 digits
      let v ← fits? (if negative then -n else n)
      pure (v, rest)

def exponent? : Reader Int
  | c :: rest =>
      if c = 'e' ∨ c = 'E' then do
        let (negative, rest) := sign rest
        let (digits, rest) ← digits? Char.isDigit rest
        let n : Int := numeral 10 digits
        pure (if negative then -n else n, rest)
      else none
  | [] => none

/-- The fraction and the exponent of a float, of which one has to be there. -/
def fractionAndExponent? : Reader (List Char × Int)
  | '.' :: rest => do
      let (fraction, rest) ← digits? Char.isDigit rest
      match rest with
      | c :: _ =>
          if c = 'e' ∨ c = 'E' then do
            let (e, rest) ← exponent? rest
            pure ((fraction, e), rest)
          else pure ((fraction, 0), rest)
      | [] => pure ((fraction, 0), rest)
  | cs => do
      let (e, rest) ← exponent? cs
      pure (([], e), rest)

/-- A float in digits. What is too large is refused; what is too far below zero is infinite. -/
def finite? : Reader Value := fun cs => do
  let (negative, cs) := sign cs
  let (digits, rest) ← decimal? cs
  let ((fraction, e), rest) ← fractionAndExponent? rest
  let significand := numeral 10 (digits ++ fraction)
  match Binary64.ofDecimal? negative significand (e - fraction.length) with
  | some x => pure (.float (.finite x), rest)
  | none => if negative then pure (.float (.infinite true), rest) else none

def nonfinite? : Reader Value := fun cs =>
  let (negative, cs) := sign cs
  match cs with
  | 'i' :: 'n' :: 'f' :: rest => some (.float (.infinite negative), rest)
  | 'n' :: 'a' :: 'n' :: rest => some (.float .nan, rest)
  | _ => none

def float? : Reader Value := fun cs => finite? cs <|> nonfinite? cs

/-! Moments. -/

private def two? (low high : Nat) : Reader Nat
  | a :: b :: rest =>
      if a.isDigit && b.isDigit then
        let n := numeral 10 [a, b]
        if low ≤ n ∧ n ≤ high then some (n, rest) else none
      else none
  | _ => none

private def mark? (c : Char) : List Char → Option (List Char)
  | d :: rest => if d = c then some rest else none
  | [] => none

def daysIn (year month : Nat) : Nat :=
  if month = 2 then
    if year % 4 = 0 ∧ (year % 100 ≠ 0 ∨ year % 400 = 0) then 29 else 28
  else if month = 4 ∨ month = 6 ∨ month = 9 ∨ month = 11 then 30
  else 31

def afterDate? : List Char → Option (List Char)
  | a :: b :: c :: d :: '-' :: rest =>
      if [a, b, c, d].all Char.isDigit then do
        let (month, rest) ← two? 1 12 rest
        let rest ← mark? '-' rest
        let (day, rest) ← two? 1 31 rest
        if day ≤ daysIn (numeral 10 [a, b, c, d]) month then some rest else none
      else none
  | _ => none

def afterTime? (cs : List Char) : Option (List Char) := do
  let (_, rest) ← two? 0 23 cs
  let rest ← mark? ':' rest
  let (_, rest) ← two? 0 59 rest
  let rest ← mark? ':' rest
  let (_, rest) ← two? 0 60 rest
  match rest with
  | '.' :: c :: later =>
      if c.isDigit then some (later.dropWhile Char.isDigit) else some rest
  | _ => some rest

def afterOffset? : List Char → Option (List Char)
  | 'Z' :: rest => some rest
  | 'z' :: rest => some rest
  | c :: rest =>
      if c = '+' ∨ c = '-' then do
        let (_, rest) ← two? 0 23 rest
        let rest ← mark? ':' rest
        let (_, rest) ← two? 0 59 rest
        pure rest
      else some (c :: rest)
  | [] => some []

def moment? : Reader Value := fun cs =>
  match afterDate? cs with
  | some (c :: rest) =>
      if c = 'T' ∨ c = 't' ∨ c = ' ' then
        match afterTime? rest with
        | some rest => (afterOffset? rest).map ((.moment, ·))
        | none => some (.moment, c :: rest)
      else some (.moment, c :: rest)
  | some [] => some (.moment, [])
  | none => (afterTime? cs).map ((.moment, ·))

/-! Strings. -/

def scalar? (digits : List Char) : Option Char :=
  if digits.all isHexDigit then
    let n := numeral 16 digits
    if n < 0xD800 ∨ (0xDFFF < n ∧ n < 0x110000) then some (Char.ofNat n) else none
  else none

def escaped? : Char → Option Char
  | 'b' => some '\x08'
  | 'f' => some '\x0c'
  | 'n' => some '\n'
  | 'r' => some '\r'
  | 't' => some '\t'
  | '"' => some '"'
  | '\\' => some '\\'
  | _ => none

def escape? : Reader Char
  | 'u' :: a :: b :: c :: d :: rest => (scalar? [a, b, c, d]).map ((·, rest))
  | 'U' :: a :: b :: c :: d :: e :: f :: g :: h :: rest =>
      (scalar? [a, b, c, d, e, f, g, h]).map ((·, rest))
  | c :: rest => (escaped? c).map ((·, rest))
  | [] => none

/-- A string of one line, after its opening quote; `fuel` bounds its length. -/
def basicBody : Nat → Reader (List Char)
  | _, '"' :: rest => some ([], rest)
  | fuel + 1, '\\' :: rest => do
      let (c, rest) ← escape? rest
      let (cs, rest) ← basicBody fuel rest
      pure (c :: cs, rest)
  | fuel + 1, c :: rest =>
      if isPlain c then do
        let (cs, rest) ← basicBody fuel rest
        pure (c :: cs, rest)
      else none
  | _, _ => none

def literalBody : Reader (List Char)
  | [] => none
  | '\'' :: rest => some ([], rest)
  | c :: rest =>
      if isPlain c then do
        let (cs, rest) ← literalBody rest
        pure (c :: cs, rest)
      else none

def skipBlankLines : Nat → List Char → List Char
  | 0, cs => cs
  | fuel + 1, cs =>
      match newline? (skipGaps cs) with
      | some rest => skipBlankLines fuel rest
      | none => skipGaps cs

/-- Three quotes close a string of several lines; up to two more before them belong to it. -/
def closing? (quote : Char) : Reader (List Char)
  | a :: b :: c :: rest =>
      if a = quote ∧ b = quote ∧ c = quote then
        match rest with
        | d :: rest =>
            if d = quote then
              match rest with
              | e :: rest =>
                  if e = quote then some ([quote, quote], rest) else some ([quote], e :: rest)
              | [] => some ([quote], [])
            else some ([], d :: rest)
        | [] => some ([], [])
      else none
  | _ => none

def manyLines (quote : Char) : Nat → Reader (List Char)
  | 0, _ => none
  | fuel + 1, cs =>
      match closing? quote cs with
      | some closed => some closed
      | none =>
          match newline? cs with
          | some rest => do
              let (text, rest) ← manyLines quote fuel rest
              pure ('\n' :: text, rest)
          | none =>
              match cs with
              | [] => none
              | c :: rest =>
                  if c = '\\' ∧ quote = '"' then
                    match newline? (skipGaps rest) with
                    | some rest => manyLines quote fuel (skipBlankLines rest.length rest)
                    | none => do
                        let (c, rest) ← escape? rest
                        let (text, rest) ← manyLines quote fuel rest
                        pure (c :: text, rest)
                  else if isPlain c then do
                    let (text, rest) ← manyLines quote fuel rest
                    pure (c :: text, rest)
                  else none

/-- A line end right after the opening quotes does not count. -/
def afterOpening (cs : List Char) : List Char := (newline? cs).getD cs

def string? : Reader String := fun cs =>
  let body : Option (List Char × List Char) := match cs with
    | '"' :: '"' :: '"' :: rest => manyLines '"' (rest.length + 1) (afterOpening rest)
    | '\'' :: '\'' :: '\'' :: rest => manyLines '\'' (rest.length + 1) (afterOpening rest)
    | '"' :: rest => basicBody rest.length rest
    | '\'' :: rest => literalBody rest
    | _ => none
  body.map fun (text, rest) => (String.ofList text, rest)

/-! Keys. -/

def isBare (c : Char) : Bool :=
  c.isAlpha || c.isDigit || c == '-' || c == '_'

def simpleKey? : Reader String
  | '"' :: rest => (basicBody rest.length rest).map fun (k, rest) => (String.ofList k, rest)
  | '\'' :: rest => (literalBody rest).map fun (k, rest) => (String.ofList k, rest)
  | cs =>
      let key := cs.takeWhile isBare
      if key.isEmpty then none else some (String.ofList key, cs.dropWhile isBare)

def nestingLimit : Nat := 80

def key? : Nat → Reader (List String)
  | 0, _ => none
  | fuel + 1, cs => do
      let (part, rest) ← simpleKey? (skipGaps cs)
      match skipGaps rest with
      | '.' :: rest => do
          let (parts, rest) ← key? fuel rest
          pure (part :: parts, rest)
      | rest => pure ([part], rest)

end RelayControl.Toml
