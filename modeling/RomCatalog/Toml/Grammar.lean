import RomCatalog.Toml.DateTime
import RomCatalog.Toml.Number
import RomCatalog.Toml.Strings

/-!
Keys and values of TOML. Arrays and inline tables may stand inside one another to a fixed depth,
and a dotted key may have a fixed number of parts.
-/

namespace RomCatalog.Toml

def isKeyChar (c : Char) : Bool :=
  c.isAlphanum || c = '-' || c = '_'

def simpleKey? (text : List Char) : Option (Key × List Char) := do
  let (name, rest) ←
    match lineString? text with
    | some found => some found
    | none =>
        match text.takeWhile isKeyChar with
        | [] => none
        | name => some (name, text.dropWhile isKeyChar)
  return ({ text := String.ofList name, span := Span.between text rest }, rest)

/-- A dotted key of at most that many parts, with the blanks around each. -/
def keys? : Nat → Reader (List Key)
  | 0, _ => none
  | parts + 1, text => do
      let (key, rest) ← simpleKey? (skipBlanks text)
      match skipBlanks rest with
      | '.' :: rest =>
          let (more, rest) ← keys? parts rest
          return (key :: more, rest)
      | rest => return ([key], rest)

def partLimit : Nat := 79

def keyValue? {α : Type} (value? : Reader α) (text : List Char) :
    Option (α × List Char) := do
  value? (skipBlanks (← expect? '=' text))

/-- The rest of an array, after its opening bracket or a comma. -/
def arrayFrom (value? : Reader Value) : Nat → Reader (List Value)
  | 0, _ => none
  | fuel + 1, text =>
      match skipLines text with
      | ']' :: rest => some ([], rest)
      | text => do
          let (first, rest) ← value? text
          match skipLines rest with
          | ',' :: rest =>
              let (more, rest) ← arrayFrom value? fuel rest
              return (first :: more, rest)
          | ']' :: rest => return ([first], rest)
          | _ => none

/-- The rest of an inline table that has entries, from the key of one of them on. -/
def entriesFrom (value? : Reader Value) : Nat → Reader (List (List String × Value))
  | 0, _ => none
  | fuel + 1, text => do
      let (path, rest) ← keys? partLimit text
      let (value, rest) ← keyValue? value? rest
      let entry := (path.map Key.text, value)
      match skipBlanks rest with
      | ',' :: rest =>
          let (more, rest) ← entriesFrom value? fuel rest
          return (entry :: more, rest)
      | '\x7d' :: rest => return ([entry], rest)
      | _ => none

/-- No dotted key is the start of another, so none is defined twice or both as a table and as a
value. -/
def distinctPaths (entries : List (List String × Value)) : Bool :=
  decide (entries.Pairwise fun a b => ¬a.1 <+: b.1 ∧ ¬b.1 <+: a.1)

def inlineTable? (value? : Reader Value) (text : List Char) :
    Option (Value × List Char) := do
  let (entries, rest) ←
    match skipBlanks text with
    | '\x7d' :: rest => some ([], rest)
    | text => entriesFrom value? text.length text
  if distinctPaths entries then some (.table entries, rest) else none

def scalarValue? (text : List Char) : Option (Value × List Char) :=
  match text with
  | 't' :: 'r' :: 'u' :: 'e' :: rest => some (.boolean true, rest)
  | 'f' :: 'a' :: 'l' :: 's' :: 'e' :: rest => some (.boolean false, rest)
  | c :: _ =>
      if c = '"' ∨ c = '\'' then
        (string? text).map fun (found, rest) => (.string (String.ofList found), rest)
      else if startsDate text then (dateTime? text).map (.dateTime, ·)
      else if startsTime text then (time? text).map (.dateTime, ·)
      else number? text
  | [] => none

/-- A value in which arrays and inline tables stand inside one another at most to that depth. -/
def value? : Nat → Reader Value
  | depth + 1, '[' :: rest =>
      (arrayFrom (value? depth) (rest.length + 1) rest).map fun (items, rest) => (.array items, rest)
  | depth + 1, '\x7b' :: rest => inlineTable? (value? depth) rest
  | _, text => scalarValue? text

def depthLimit : Nat := 79

end RomCatalog.Toml
