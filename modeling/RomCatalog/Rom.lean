/-!
A ROM is a file known by its name inside the scanned directory, together with the identifier under
which the generated code lists it.
-/

namespace RomCatalog

structure Rom where
  name : String
  identifier : String
deriving DecidableEq, Repr

namespace Rom

/-- Letters of ASCII become capitals and a full stop becomes an underscore. -/
def identifierChar (c : Char) : Char :=
  if c = '.' then '_' else c.toUpper

def identifierOf (name : String) : String :=
  name.map identifierChar

def ofName (name : String) : Rom where
  name := name
  identifier := identifierOf name

end Rom

end RomCatalog
