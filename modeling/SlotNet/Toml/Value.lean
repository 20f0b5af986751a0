/-!
# TOML values
-/

namespace SlotNet.Toml

/-- The value of a key in a TOML document. -/
inductive Value where
  | string (text : String)
  /-- An integer of 64 bits with sign. -/
  | integer (value : Int)
  | float (value : Float)
  | boolean (value : Bool)
  /-- A date, a time or both. Which one makes no difference here. -/
  | date
  | array (items : List Value)
  | table (entries : List (String × Value))

end SlotNet.Toml
