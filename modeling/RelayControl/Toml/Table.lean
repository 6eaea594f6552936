import RelayControl.Toml.Value

/-!
Tables under construction. Which key may still be added to a table depends on how the table came
about: through a header, on the way to one, or through a key with dots.
-/

namespace RelayControl.Toml

inductive Entry where
  | value (v : Value)
  /-- `implicit` says that no header of its own made the table, `dotted` that a key made it. -/
  | table (implicit dotted : Bool) (members : List (String × Entry))
  | tables (items : List (List (String × Entry)))
  deriving Inhabited

abbrev Entries := List (String × Entry)

namespace Entries

def put (key : String) (entry : Entry) : Entries → Entries
  | [] => [(key, entry)]
  | (k, e) :: rest => if k = key then (key, entry) :: rest else (k, e) :: put key entry rest

/--
Changes the members of the table at the end of a path and makes the tables that are missing on the
way. A key with dots does not lead through a table that has a header of its own.
-/
def within (dotted : Bool) (change : Bool → Entries → Option Entries) :
    List String → Bool → Entries → Option Entries
  | [], isDotted, members => change isDotted members
  | key :: path, _, members =>
      match members.lookup key with
      | none => do
          let inner ← within dotted change path dotted []
          pure (put key (.table true dotted inner) members)
      | some (.value _) => none
      | some (.table implicit isDotted inner) =>
          if dotted && !implicit then none
          else do
            let inner ← within dotted change path isDotted inner
            pure (put key (.table implicit isDotted inner) members)
      | some (.tables items) => do
          let inner ← within dotted change path false (← items.getLast?)
          pure (put key (.tables (items.dropLast ++ [inner])) members)

def add (path : List String) (key : String) (v : Value) (members : Entries) : Option Entries :=
  within true (fun isDotted ms =>
    if isDotted = path.isEmpty then none
    else if (ms.lookup key).isSome then none
    else some (ms ++ [(key, .value v)])) path false members

def descend? : List String → Entries → Option Entries
  | [], members => some members
  | key :: path, members =>
      match members.lookup key with
      | none => some []
      | some (.value _) => none
      | some (.table _ _ inner) => descend? path inner
      | some (.tables items) => items.getLast?.bind (descend? path)

end Entries

mutual

def Entry.toValue : Entry → Value
  | .value v => v
  | .table _ _ members => .table (entryMembers members)
  | .tables items => .array (entryTables items)

def entryMembers : Entries → List (String × Value)
  | [] => []
  | (k, e) :: rest => (k, e.toValue) :: entryMembers rest

def entryTables : List Entries → List Value
  | [] => []
  | ms :: rest => .table (entryMembers ms) :: entryTables rest

end

inductive Header where
  | root
  | table (path : List String) (key : String)
  | item (path : List String) (key : String)

structure Draft where
  tables : Entries := []
  header : Header := .root
  opened : Entries := []

namespace Draft

def closed? (d : Draft) : Option Entries :=
  match d.header with
  | .root => some d.opened
  | .table path key =>
      Entries.within false (fun _ ms => some (Entries.put key (.table false false d.opened) ms))
        path false d.tables
  | .item path key =>
      Entries.within false (fun _ ms =>
        match ms.lookup key with
        | none => some (Entries.put key (.tables [d.opened]) ms)
        | some (.tables items) => some (Entries.put key (.tables (items ++ [d.opened])) ms)
        | some _ => none) path false d.tables

/-- Opens the table of a header. Only a table that came about on the way may be there already. -/
def openTable? (d : Draft) (path : List String) (key : String) : Option Draft := do
  let tables ← d.closed?
  let siblings ← Entries.descend? path tables
  match siblings.lookup key with
  | none => some ⟨tables, .table path key, []⟩
  | some (.table true false members) => some ⟨tables, .table path key, members⟩
  | some _ => none

def openItem? (d : Draft) (path : List String) (key : String) : Option Draft := do
  let tables ← d.closed?
  let siblings ← Entries.descend? path tables
  match siblings.lookup key with
  | none => some ⟨tables, .item path key, []⟩
  | some (.tables _) => some ⟨tables, .item path key, []⟩
  | some _ => none

def add? (d : Draft) (path : List String) (key : String) (v : Value) : Option Draft := do
  let opened ← Entries.add path key v d.opened
  pure { d with opened }

end Draft

end RelayControl.Toml
