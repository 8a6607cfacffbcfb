import RomCatalog.Rom

/-!
Identifiers that will not compile. Identifiers are never mended; the problems are reported in the
order of the list, for each ROM first that its identifier holds a character outside `[A-Z0-9_]`,
then that an earlier ROM has the same identifier.
-/

namespace RomCatalog

inductive Problem where
  | invalid (rom : Rom)
  | repeated (rom : Rom)
deriving DecidableEq, Repr

namespace Problem

def rom : Problem → Rom
  | .invalid rom => rom
  | .repeated rom => rom

def message : Problem → String
  | .invalid rom => rom.name ++ " does not produce a valid Rust identifier (" ++ rom.identifier ++ ")"
  | .repeated rom => rom.name ++ " collides with another file as " ++ rom.identifier

end Problem

namespace Rom

def isIdentifierChar (c : Char) : Bool :=
  c.isUpper || c.isDigit || c == '_'

def hasValidIdentifier (rom : Rom) : Bool :=
  rom.identifier.toList.all isIdentifierChar

def problemsAfter (seen : List String) : List Rom → List Problem
  | [] => []
  | rom :: rest =>
      (if rom.hasValidIdentifier then [] else [.invalid rom]) ++
        (if rom.identifier ∈ seen then [.repeated rom] else []) ++
          problemsAfter (rom.identifier :: seen) rest

def problems (roms : List Rom) : List Problem :=
  problemsAfter [] roms

end Rom

end RomCatalog
