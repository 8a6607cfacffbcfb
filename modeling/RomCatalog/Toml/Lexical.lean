/-!
Blanks, line ends and comments of TOML. Readers take the characters that are left and give back
what they found together with the characters left after it.
-/

namespace RomCatalog.Toml

/-- Finds something at the start of a text and tells what is left after it. -/
abbrev Reader (α : Type) := List Char → Option (α × List Char)

def isBlank (c : Char) : Bool :=
  c = ' ' || c = '\t'

/-- A character that may stand for itself in comments and strings: no control but the tab. -/
def isPlain (c : Char) : Bool :=
  c = '\t' || (0x20 ≤ c.toNat && c.toNat ≠ 0x7f)

def skipBlanks (text : List Char) : List Char :=
  text.dropWhile isBlank

def newline? : List Char → Option (List Char)
  | '\n' :: rest => some rest
  | '\r' :: '\n' :: rest => some rest
  | _ => none

def skipComment : List Char → List Char
  | '#' :: rest => rest.dropWhile isPlain
  | text => text

/-- What is left after the rest of a line that holds nothing but blanks and a comment. -/
def lineEnd? (text : List Char) : Option (List Char) :=
  match skipComment (skipBlanks text) with
  | [] => some []
  | rest => newline? rest

/-- Passes over blanks, line ends and whole comments, as between the items of an array. The first
argument tells whether a comment is being read. -/
def skipLinesFrom : Bool → List Char → List Char
  | _, [] => []
  | _, '\n' :: rest => skipLinesFrom false rest
  | _, '\r' :: '\n' :: rest => skipLinesFrom false rest
  | false, c :: rest =>
      if isBlank c then skipLinesFrom false rest
      else if c = '#' then skipLinesFrom true rest
      else c :: rest
  | true, c :: rest => if isPlain c then skipLinesFrom true rest else c :: rest

def skipLines (text : List Char) : List Char :=
  skipLinesFrom false text

def hexValue? (c : Char) : Option Nat :=
  if c.isDigit then some (c.toNat - 48)
  else if 'a' ≤ c ∧ c ≤ 'f' then some (c.toNat - 87)
  else if 'A' ≤ c ∧ c ≤ 'F' then some (c.toNat - 55)
  else none

end RomCatalog.Toml
