import RelayControl.Toml.Lexeme
import RelayControl.Toml.Table

/-!
Reading a TOML document. A text that is not TOML has no value; which of its lines is at fault is not
told.
-/

namespace RelayControl.Toml

def splitKey? (parts : List String) : Option (List String × String) :=
  parts.getLast?.map fun key => (parts.dropLast, key)

def boundedKey? : Reader (List String × String) := fun cs => do
  let (parts, rest) ← key? nestingLimit cs
  if parts.length < nestingLimit then do
    let key ← splitKey? parts
    pure (key, rest)
  else none

mutual

/-- A value inside the given number of arrays and tables; `fuel` bounds the calls. -/
def value? (fuel : Nat) (depth : Nat) : Reader Value := fun cs =>
  match fuel with
  | 0 => none
  | fuel + 1 =>
      match cs with
      | [] => none
      | c :: rest =>
          if c = '"' ∨ c = '\'' then
            (string? cs).map fun (s, rest) => (.text s, rest)
          else if c = '[' then
            if depth + 1 < nestingLimit then
              (items? fuel (depth + 1) rest).map fun (vs, rest) => (.array vs, rest)
            else none
          else if c = '\x7b' then
            if depth + 1 < nestingLimit then
              (pairs? fuel (depth + 1) [] rest).map fun (es, rest) =>
                (.table (entryMembers es), rest)
            else none
          else
            match cs with
            | 't' :: 'r' :: 'u' :: 'e' :: rest => some (.bool true, rest)
            | 'f' :: 'a' :: 'l' :: 's' :: 'e' :: rest => some (.bool false, rest)
            | cs => moment? cs <|> float? cs <|> integer? cs

def items? (fuel : Nat) (depth : Nat) : Reader (List Value) := fun cs =>
  match fuel with
  | 0 => none
  | fuel + 1 =>
      match skipLines cs.length cs with
      | ']' :: rest => some ([], rest)
      | cs => do
          let (v, rest) ← value? fuel depth cs
          match skipLines rest.length rest with
          | ',' :: rest => do
              let (vs, rest) ← items? fuel depth rest
              pure (v :: vs, rest)
          | ']' :: rest => pure ([v], rest)
          | _ => none

def pairs? (fuel : Nat) (depth : Nat) (members : Entries) : Reader Entries := fun cs =>
  match fuel with
  | 0 => none
  | fuel + 1 =>
      match skipGaps cs, members with
      | '\x7d' :: rest, [] => some ([], rest)
      | cs, members => do
          let ((path, key), rest) ← boundedKey? cs
          match rest with
          | '=' :: rest => do
              let (v, rest) ← value? fuel depth (skipGaps rest)
              let members ← Entries.add path key v members
              match skipGaps rest with
              | ',' :: rest => pairs? fuel depth members rest
              | '\x7d' :: rest => pure (members, rest)
              | _ => none
          | _ => none

end

def header? (d : Draft) : Reader Draft
  | '[' :: rest => do
      let ((path, key), rest) ← boundedKey? rest
      match rest with
      | ']' :: ']' :: rest => do
          let d ← d.openItem? path key
          pure (d, rest)
      | _ => none
  | rest => do
      let ((path, key), rest) ← boundedKey? rest
      match rest with
      | ']' :: rest => do
          let d ← d.openTable? path key
          pure (d, rest)
      | _ => none

def pair? (d : Draft) : Reader Draft := fun cs => do
  let ((path, key), rest) ← boundedKey? cs
  match rest with
  | '=' :: rest => do
      let (v, rest) ← value? (3 * rest.length + 3) 0 (skipGaps rest)
      let d ← d.add? path key v
      pure (d, rest)
  | _ => none

def lines? : Nat → Draft → List Char → Option Draft
  | 0, _, _ => none
  | fuel + 1, d, cs =>
      match skipGaps cs with
      | [] => some d
      | '#' :: rest => do lines? fuel d (← lineEnd? ('#' :: rest))
      | '[' :: rest => do
          let (d, rest) ← header? d rest
          lines? fuel d (← lineEnd? rest)
      | c :: rest =>
          match newline? (c :: rest) with
          | some rest => lines? fuel d rest
          | none => do
              let (d, rest) ← pair? d (c :: rest)
              lines? fuel d (← lineEnd? rest)

/-- The table of a document; a byte order mark at its start is skipped. -/
def read? (text : String) : Option Value := do
  let cs := match text.toList with
    | '\uFEFF' :: rest => rest
    | cs => cs
  let d ← lines? (cs.length + 1) {} cs
  let tables ← d.closed?
  pure (.table (entryMembers tables))

end RelayControl.Toml
