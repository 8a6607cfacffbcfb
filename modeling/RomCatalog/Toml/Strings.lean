import RomCatalog.Toml.Lexical

/-!
The four kinds of TOML strings. Basic strings know escapes and literal strings do not; either may
run over several lines when it stands between three quotation marks on each side. The line ends of
such a string are read as line feeds, and one right after the opening marks is dropped.
-/

namespace RomCatalog.Toml

def escape? (c : Char) : Option Char :=
  if c = 'b' then some '\x08'
  else if c = 't' then some '\t'
  else if c = 'n' then some '\n'
  else if c = 'f' then some '\x0c'
  else if c = 'r' then some '\r'
  else if c = '"' then some '"'
  else if c = '\\' then some '\\'
  else none

/-- The character of that number; surrogates and numbers beyond the last character have none. -/
def scalar? (n : Nat) : Option Char :=
  if n.isValidChar then some (Char.ofNat n) else none

theorem scalar?_toNat (c : Char) : scalar? c.toNat = some c := by
  have valid : c.toNat.isValidChar := c.valid
  simp [scalar?, valid, Char.ofNat_toNat]

/-- The part of an escape that has been read: its backslash, or the hexadecimal digits of a number
of which `missing` are still to come. -/
inductive Escape where
  | backslash
  | number (missing value : Nat)

inductive EscapeStep where
  | meant (c : Char)
  | unfinished (escape : Escape)

def Escape.step? : Escape → Char → Option EscapeStep
  | .backslash, c =>
      if c = 'u' then some (.unfinished (.number 4 0))
      else if c = 'U' then some (.unfinished (.number 8 0))
      else (escape? c).map .meant
  | .number missing value, c =>
      (hexValue? c).bind fun digit =>
        if missing ≤ 1 then (scalar? (value * 16 + digit)).map .meant
        else some (.unfinished (.number (missing - 1) (value * 16 + digit)))

def prepend (c : Char) (found : Option (List Char × List Char)) : Option (List Char × List Char) :=
  found.map fun (text, rest) => (c :: text, rest)

def basicFrom : Option Escape → Reader (List Char)
  | _, [] => none
  | none, c :: rest =>
      if c = '"' then some ([], rest)
      else if c = '\\' then basicFrom (some .backslash) rest
      else if isPlain c then prepend c (basicFrom none rest)
      else none
  | some escape, c :: rest =>
      match escape.step? c with
      | some (.meant meant) => prepend meant (basicFrom none rest)
      | some (.unfinished more) => basicFrom (some more) rest
      | none => none

/-- Three closing marks; up to two more before them belong to the string. -/
def closing? (mark : Char) (text : List Char) : Option (List Char × List Char) :=
  let marks := (text.takeWhile (· = mark)).length
  if marks < 3 then none
  else
    let extra := min (marks - 3) 2
    some (List.replicate extra mark, text.drop (extra + 3))

/-- What has been read inside a basic string over several lines. A backslash at the end of a line,
where blanks may follow it, takes the white space after it with it. -/
inductive LinesState where
  | text
  | escape (escape : Escape)
  | gap
  | trim

def basicLinesFrom : LinesState → Reader (List Char)
  | _, [] => none
  | .text, '\r' :: '\n' :: rest => prepend '\n' (basicLinesFrom .text rest)
  | .text, c :: rest =>
      match closing? '"' (c :: rest) with
      | some found => some found
      | none =>
          if c = '\\' then basicLinesFrom (.escape .backslash) rest
          else if c = '\n' ∨ isPlain c then prepend c (basicLinesFrom .text rest)
          else none
  | .escape .backslash, '\n' :: rest => basicLinesFrom .trim rest
  | .escape .backslash, '\r' :: '\n' :: rest => basicLinesFrom .trim rest
  | .escape .backslash, ' ' :: rest => basicLinesFrom .gap rest
  | .escape .backslash, '\t' :: rest => basicLinesFrom .gap rest
  | .escape escape, c :: rest =>
      match escape.step? c with
      | some (.meant meant) => prepend meant (basicLinesFrom .text rest)
      | some (.unfinished more) => basicLinesFrom (.escape more) rest
      | none => none
  | .gap, '\n' :: rest => basicLinesFrom .trim rest
  | .gap, '\r' :: '\n' :: rest => basicLinesFrom .trim rest
  | .gap, c :: rest => if isBlank c then basicLinesFrom .gap rest else none
  | .trim, '\n' :: rest => basicLinesFrom .trim rest
  | .trim, '\r' :: '\n' :: rest => basicLinesFrom .trim rest
  | .trim, c :: rest =>
      if isBlank c then basicLinesFrom .trim rest
      else
        match closing? '"' (c :: rest) with
        | some found => some found
        | none =>
            if c = '\\' then basicLinesFrom (.escape .backslash) rest
            else if isPlain c then prepend c (basicLinesFrom .text rest)
            else none

def literal? : Reader (List Char)
  | [] => none
  | c :: rest =>
      if c = '\'' then some ([], rest)
      else if isPlain c then prepend c (literal? rest)
      else none

def literalLines? : Reader (List Char)
  | [] => none
  | '\r' :: '\n' :: rest => prepend '\n' (literalLines? rest)
  | c :: rest =>
      match closing? '\'' (c :: rest) with
      | some found => some found
      | none =>
          if c = '\n' ∨ isPlain c then prepend c (literalLines? rest)
          else none

def dropNewline (text : List Char) : List Char :=
  (newline? text).getD text

def lineString? : Reader (List Char)
  | '"' :: rest => basicFrom none rest
  | '\'' :: rest => literal? rest
  | _ => none

def string? : Reader (List Char)
  | '"' :: '"' :: '"' :: rest => basicLinesFrom .text (dropNewline rest)
  | '\'' :: '\'' :: '\'' :: rest => literalLines? (dropNewline rest)
  | text => lineString? text

end RomCatalog.Toml
