import RomCatalog.Number.Binary64
import RomCatalog.Text.Utf8

/-!
TOML values. Dates and times are checked when they are read and then dropped, since no setting has
one. The entries of an inline table are kept as they are written, each with its whole dotted key.
-/

namespace RomCatalog.Toml

inductive Value where
  | string (text : String)
  | integer (value : Int)
  | float (value : Binary64)
  | boolean (value : Bool)
  | dateTime
  | array (items : List Value)
  | table (entries : List (List String × Value))

/-- A stretch of text. Both ends are told by the number of bytes from there to the end of the whole
text, so that a reader needs to know only what is left to read. -/
structure Span where
  start : Nat
  stop : Nat
deriving DecidableEq, Repr

def Span.between (before after : List Char) : Span :=
  ⟨Utf8.size before, Utf8.size after⟩

structure Key where
  text : String
  span : Span
deriving DecidableEq, Repr

end RomCatalog.Toml
