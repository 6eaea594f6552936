import RelayControl.Binary64

/-!
Values of a TOML document. Tables keep their members in the order in which they are written, each
key once.
-/

namespace RelayControl.Toml

inductive Value where
  | text (s : String)
  | integer (n : Int)
  | float (x : Binary64.Extended)
  | bool (b : Bool)
  /-- A date, a time, or both; its text is not kept. -/
  | moment
  | array (items : List Value)
  | table (members : List (String × Value))
  deriving Inhabited

end RelayControl.Toml
