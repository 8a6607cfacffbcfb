import RomCatalog.Toml.Grammar

/-!
The statements of a TOML text, one a line but for strings and arrays that run over several: entries
and the headers of tables and of the elements of arrays of tables.
-/

namespace RomCatalog.Toml

inductive Statement where
  | entry (path : List Key) (value : Value) (span : Span)
  | table (path : List Key) (span : Span)
  | element (path : List Key) (span : Span)

def entry? (text : List Char) : Option (Statement × List Char) := do
  let (path, rest) ← keys? partLimit text
  let start := skipBlanks (← expect? '=' rest)
  let (value, rest) ← value? depthLimit start
  return (.entry path value (Span.between start rest), rest)

def header? (text : List Char) : Option (Statement × List Char) :=
  match text with
  | '[' :: '[' :: rest => do
      let (path, rest) ← keys? partLimit rest
      let rest ← expect? ']' (← expect? ']' rest)
      return (.element path (Span.between text rest), rest)
  | '[' :: rest => do
      let (path, rest) ← keys? partLimit rest
      let rest ← expect? ']' rest
      return (.table path (Span.between text rest), rest)
  | _ => none

def statement? (text : List Char) : Option (Statement × List Char) :=
  match text with
  | '[' :: _ => header? text
  | _ => entry? text

/-- Reads lines until nothing is left; each takes at least one character. -/
def statementsFrom : Nat → List Char → Option (List Statement)
  | 0, _ => none
  | fuel + 1, text =>
      match skipBlanks text with
      | [] => some []
      | text =>
          match lineEnd? text with
          | some rest => statementsFrom fuel rest
          | none => do
              let (first, rest) ← statement? text
              let more ← statementsFrom fuel (← lineEnd? rest)
              return first :: more

def dropByteOrderMark : List Char → List Char
  | '\uFEFF' :: rest => rest
  | text => text

def statements? (text : List Char) : Option (List Statement) :=
  statementsFrom (text.length + 1) (dropByteOrderMark text)

end RomCatalog.Toml
