import RelayControl.Text.Digit

/-!
Socket addresses: an IPv4 or a bracketed IPv6 address, a colon and a port, with nothing around them.
-/

namespace RelayControl.Address

open Text

abbrev Reader (α : Type) := List Char → Option (α × List Char)

def number? (base : Nat) (ok : Char → Bool) (bound : Nat) : Reader Nat := fun cs =>
  let digits := cs.takeWhile ok
  let n := numeral base digits
  if digits.isEmpty ∨ bound ≤ n then none else some (n, cs.dropWhile ok)

def mark? (c : Char) : List Char → Option (List Char)
  | d :: rest => if d = c then some rest else none
  | [] => none

/-- One part of an IPv4 address, which has no zero in front. -/
def octet? : Reader Nat
  | '0' :: rest => if rest.head?.any Char.isDigit then none else some (0, rest)
  | cs => number? 10 Char.isDigit 256 cs

def afterV4? (cs : List Char) : Option (List Char) := do
  let (_, cs) ← octet? cs
  let cs ← mark? '.' cs
  let (_, cs) ← octet? cs
  let cs ← mark? '.' cs
  let (_, cs) ← octet? cs
  let cs ← mark? '.' cs
  let (_, cs) ← octet? cs
  pure cs

def group? : Reader Nat := fun cs =>
  if (cs.takeWhile isHexDigit).length ≤ 4 then number? 16 isHexDigit 0x10000 cs else none

/--
Groups with colons between them, up to a number of them: how many there are, whether an IPv4 address
ends them, and what follows. An IPv4 address counts as two groups.
-/
def groups (first : Bool) : Nat → List Char → Nat × Bool × List Char
  | 0, cs => (0, false, cs)
  | limit + 1, cs =>
      let start := if first then some cs else mark? ':' cs
      match start with
      | none => (0, false, cs)
      | some inner =>
          match if limit = 0 then none else afterV4? inner with
          | some rest => (2, true, rest)
          | none =>
              match group? inner with
              | none => (0, false, cs)
              | some (_, rest) =>
                  let (n, v4, rest) := groups false limit rest
                  (n + 1, v4, rest)

/-- What follows an IPv6 address: eight groups, or fewer around a pair of colons. -/
def afterV6? (cs : List Char) : Option (List Char) :=
  let (head, v4, rest) := groups true 8 cs
  if head = 8 then some rest
  else if v4 then none
  else
    match rest with
    | ':' :: ':' :: rest =>
        let (_, _, rest) := groups true (7 - head) rest
        some rest
    | _ => none

def afterScope? : List Char → Option (List Char)
  | '%' :: rest => (number? 10 Char.isDigit 0x100000000 rest).map (·.2)
  | cs => some cs

def afterHost? (cs : List Char) : Option (List Char) :=
  match cs with
  | '[' :: rest => do mark? ']' (← afterScope? (← afterV6? rest))
  | cs => afterV4? cs

def isSocketAddress (s : String) : Bool :=
  let rest := do
    let cs ← mark? ':' (← afterHost? s.toList)
    let (_, rest) ← number? 10 Char.isDigit 0x10000 cs
    pure rest
  rest == some []

end RelayControl.Address
