import RomCatalog.Text.Pieces
import RomCatalog.Text.Utf8

/-!
Paths are byte strings. Joining works on the text of a path and tidies nothing, while components
are what is left of a path once repeated separators, trailing separators and the components `.`
inside it are passed over.
-/

namespace RomCatalog

structure Path where
  bytes : Bytes
deriving DecidableEq, Repr

namespace Path

def separatorText : String := "/"

def separator : UInt8 := 47

def dot : UInt8 := 46

def ofString (text : String) : Path := ⟨Utf8.encode text⟩

def text (path : Path) : String := Utf8.decodeLossy path.bytes

def empty : Path := ⟨[]⟩

def isAbsolute (path : Path) : Bool :=
  path.bytes.head? == some separator

/-- An absolute path takes the place of what it is joined to; otherwise a separator goes between
unless the left side is empty or already ends in one. -/
def join (left right : Path) : Path :=
  if right.isAbsolute then right
  else if left.bytes.isEmpty || left.bytes.getLast? == some separator then
    ⟨left.bytes ++ right.bytes⟩
  else ⟨left.bytes ++ separator :: right.bytes⟩

def trimmed (path : Path) : Path :=
  ⟨(path.bytes.reverse.dropWhile (· = separator)).reverse⟩

inductive Component where
  | root
  | here
  | parent
  | name (bytes : Bytes)
deriving DecidableEq, Repr

def component? (piece : Bytes) : Option Component :=
  if piece = [] ∨ piece = [dot] then none
  else if piece = [dot, dot] then some .parent
  else some (.name piece)

/-- The start of a path that is not divided into pieces, and the rest: a leading separator of an
absolute path, or the dot of a relative path whose first piece is `.`. -/
def lead (path : Path) : Bytes × Bytes :=
  match path.bytes with
  | [] => ([], [])
  | first :: rest =>
      if first = separator then ([first], rest)
      else if first = dot ∧ (rest = [] ∨ rest.head? = some separator) then ([first], rest)
      else ([], first :: rest)

def leadComponent (path : Path) : List Component :=
  if path.isAbsolute then [.root]
  else if path.lead.1 = [] then []
  else [.here]

def components (path : Path) : List Component :=
  path.leadComponent ++ (Text.pieces separator path.lead.2).filterMap component?

def trimPieces (pieces : List Bytes) : List Bytes :=
  (pieces.reverse.dropWhile fun piece => (component? piece).isNone).reverse

/-- The path without its last component, which for the root and the empty path does not exist. -/
def parent? (path : Path) : Option Path :=
  let (lead, rest) := path.lead
  match trimPieces (Text.pieces separator rest) with
  | [] => if lead = [] ∨ path.isAbsolute then none else some empty
  | pieces@(_ :: _) => some ⟨lead ++ Text.joinPieces separator (trimPieces pieces.dropLast)⟩

end Path

end RomCatalog
