/-!
Standard base64: groups of four symbols, the last one padded, and no bits to spare. Reading names
the first thing that is wrong.
-/

namespace RelayControl.Base64

inductive Flaw where
  /-- A byte outside the alphabet, or padding where none can be. -/
  | symbol (byte : UInt8) (offset : Nat)
  /-- The last symbol has bits that stand for nothing. -/
  | spareBits (byte : UInt8) (offset : Nat)
  | length (symbols : Nat)
  | padding
  deriving DecidableEq, Repr

namespace Flaw

def message : Flaw → String
  | .symbol byte offset =>
      "Invalid symbol " ++ toString byte.toNat ++ ", offset " ++ toString offset ++ "."
  | .spareBits byte offset =>
      "Invalid last symbol " ++ toString byte.toNat ++ ", offset " ++ toString offset ++ "."
  | .length symbols => "Invalid input length: " ++ toString symbols
  | .padding => "Invalid padding"

end Flaw

def value? (byte : UInt8) : Option Nat :=
  let n := byte.toNat
  if 65 ≤ n ∧ n ≤ 90 then some (n - 65)
  else if 97 ≤ n ∧ n ≤ 122 then some (n - 71)
  else if 48 ≤ n ∧ n ≤ 57 then some (n + 4)
  else if n = 43 then some 62
  else if n = 47 then some 63
  else none

def symbol (value : Nat) : UInt8 :=
  if value < 26 then .ofNat (value + 65)
  else if value < 52 then .ofNat (value + 71)
  else if value < 62 then .ofNat (value - 4)
  else if value = 62 then 43
  else 47

def pad : UInt8 := 61

def bytesOf (a b c d : Nat) : List UInt8 :=
  [.ofNat (a * 4 + b / 16), .ofNat (b % 16 * 16 + c / 4), .ofNat (c % 4 * 64 + d)]

def valueAt (offset : Nat) (byte : UInt8) : Except Flaw Nat :=
  match value? byte with
  | some v => .ok v
  | none => .error (.symbol byte offset)

/--
The values of the last group, with the byte and the offset of each. Padding has its place from the
third byte of the group on, and nothing but padding follows it.
-/
def lastValues (offset index : Nat) (padded : Option Nat) :
    List UInt8 → Except Flaw (List (Nat × UInt8 × Nat))
  | [] => .ok []
  | byte :: rest =>
      if byte = pad then
        if index < 2 then .error (.symbol byte (offset + index))
        else lastValues offset (index + 1) (padded <|> some index) rest
      else
        match padded with
        | some first => .error (.symbol pad (offset + first))
        | none => do
            let v ← valueAt (offset + index) byte
            let later ← lastValues offset (index + 1) none rest
            pure ((v, byte, offset + index) :: later)

def lastBytes (offset : Nat) (group : List UInt8) : Except Flaw (List UInt8) := do
  let values ← lastValues offset 0 none group
  if values.length < 2 then throw (.length (offset + values.length))
  if group.length ≠ 4 then throw .padding
  match values with
  | [(a, _), (b, byte, at_)] =>
      if b % 16 = 0 then pure ((bytesOf a b 0 0).take 1) else throw (.spareBits byte at_)
  | [(a, _), (b, _), (c, byte, at_)] =>
      if c % 4 = 0 then pure ((bytesOf a b c 0).take 2) else throw (.spareBits byte at_)
  | [(a, _), (b, _), (c, _), (d, _)] => pure (bytesOf a b c d)
  | _ => throw .padding

def groups (offset : Nat) : List UInt8 → Except Flaw (List UInt8)
  | a :: b :: c :: d :: e :: rest => do
      let va ← valueAt offset a
      let vb ← valueAt (offset + 1) b
      let vc ← valueAt (offset + 2) c
      let vd ← valueAt (offset + 3) d
      let later ← groups (offset + 4) (e :: rest)
      pure (bytesOf va vb vc vd ++ later)
  | group => lastBytes offset group

/-- A stray byte at the end that makes the length impossible. -/
def strayEnd? (bytes : List UInt8) : Option Flaw :=
  match bytes.getLast? with
  | some last =>
      if bytes.length % 4 = 1 ∧ last ≠ pad ∧ value? last = none then
        some (.symbol last (bytes.length - 1))
      else none
  | none => none

def decodeBytes (bytes : List UInt8) : Except Flaw (List UInt8) :=
  if bytes.isEmpty then .ok []
  else
    match strayEnd? bytes with
    | some f => .error f
    | none => groups 0 bytes

def decode (s : String) : Except Flaw (List UInt8) :=
  decodeBytes s.toUTF8.toList

def encodeBytes : List UInt8 → List UInt8
  | [] => []
  | [a] => [symbol (a.toNat / 4), symbol (a.toNat % 4 * 16), pad, pad]
  | [a, b] =>
      [symbol (a.toNat / 4), symbol (a.toNat % 4 * 16 + b.toNat / 16),
        symbol (b.toNat % 16 * 4), pad]
  | a :: b :: c :: rest =>
      symbol (a.toNat / 4) :: symbol (a.toNat % 4 * 16 + b.toNat / 16) ::
        symbol (b.toNat % 16 * 4 + c.toNat / 64) :: symbol (c.toNat % 64) :: encodeBytes rest

end RelayControl.Base64
