import RomCatalog.Text.Pieces
import RomCatalog.Text.Utf8

/-!
A message about a stretch of a text, with the line in which the stretch starts and carets below it.
Lines and columns count from one, columns in characters; the carets count bytes, do not reach beyond
the line, and are at least one.
-/

namespace RomCatalog.Toml

/-- The line that holds the byte `offset`, the number of lines before it, and how far into the line
that byte is. A line feed belongs to the line it ends. -/
def lineAt : List (List Char) → Nat → Nat × List Char × Nat
  | [], offset => (0, [], offset)
  | line :: rest, offset =>
      if offset ≤ Utf8.size line ∨ rest = [] then (0, line, offset)
      else
        let (number, found, within) := lineAt rest (offset - Utf8.size line - 1)
        (number + 1, found, within)

/-- How many characters lie wholly before the byte `offset` of a line. -/
def charactersBefore : List Char → Nat → Nat
  | [], _ => 0
  | c :: rest, offset =>
      if c.utf8Size ≤ offset then charactersBefore rest (offset - c.utf8Size) + 1 else 0

def excerpt (text message : String) (start stop : Nat) : String :=
  let (before, line, within) := lineAt (Text.pieces '\n' text.toList) start
  let number := toString (before + 1)
  let column := charactersBefore line within
  let margin := String.ofList (List.replicate (number.length + 1) ' ') ++ "|"
  let carets := max 1 (min (stop - start) (Utf8.size line - column))
  "TOML parse error at line " ++ number ++ ", column " ++ toString (column + 1) ++ "\n" ++
    margin ++ "\n" ++
    number ++ " | " ++ String.ofList line ++ "\n" ++
    margin ++ String.ofList (List.replicate (column + 1) ' ' ++ List.replicate carets '^') ++ "\n" ++
    message ++ "\n"

end RomCatalog.Toml
