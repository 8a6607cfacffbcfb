import Mathlib.Data.List.Basic
import RomCatalog.Proofs.Literal
import RomCatalog.Settings

/-!
Generated code read line by line. A line is known by its first characters and is read to its end:
keywords and marks have to stand exactly where they belong, names are runs of letters, digits and
underscores, and literals are read as literals. Printed lines are read back as the lines they were.
-/

namespace RomCatalog.Code

/-- A line of generated code. The literal of a declaration is kept as it is written; the key of a
row is what its literal denotes. -/
inductive Line where
  | allowance
  | declaration (placement : Placement) (binding literal : String)
  | blank
  | head (placement : Placement) (name : String)
  | row (key binding : String)
  | close
deriving DecidableEq, Repr

def keyword : Placement → String
  | .inFunction => "static "
  | .atModule => "pub static "

def headKeyword : Placement → String
  | .inFunction => "let "
  | .atModule => "pub static "

def typeMark : Placement → String
  | .inFunction => ": &'static [u8] = include_bytes!("
  | .atModule => ": &[u8] = include_bytes!("

def headMark : Placement → String
  | .inFunction => " = ["
  | .atModule => ": &[(&str, &[u8])] = &["

def isWordChar (c : Char) : Bool :=
  c.isAlphanum || c = '_'

def IsWord (name : String) : Prop :=
  ∀ c ∈ name.toList, isWordChar c = true

instance (name : String) : Decidable (IsWord name) :=
  decidable_of_iff (name.toList.all isWordChar = true) List.all_eq_true

def word (text : List Char) : String × List Char :=
  (String.ofList (text.takeWhile isWordChar), text.dropWhile isWordChar)

def after? (mark : String) (text : List Char) : Option (List Char) :=
  mark.toList.isPrefixOf? text

/-- The literal at the start of a text, as it is written, and what follows it. -/
def literal? (text : List Char) : Option (String × List Char) :=
  (Literal.read? text).map fun (_, rest) =>
    (String.ofList (text.take (text.length - rest.length)), rest)

def declaration? (placement : Placement) (text : List Char) : Option Line := do
  let (binding, rest) := word text
  let rest ← after? (typeMark placement) rest
  let (literal, rest) ← literal? rest
  if rest = ");".toList then some (.declaration placement binding literal) else none

def head? (placement : Placement) (text : List Char) : Option Line :=
  let (name, rest) := word text
  if rest = (headMark placement).toList then some (.head placement name) else none

def row? (text : List Char) : Option Line := do
  let (key, rest) ← Literal.read? text
  let rest ← after? ", " rest
  let (binding, rest) := word rest
  if rest = "),".toList then some (.row (String.ofList key) binding) else none

def Line.read? (line : List Char) : Option Line :=
  match line with
  | [] => some .blank
  | '#' :: _ => if line = "#[allow(dead_code)]".toList then some .allowance else none
  | ']' :: _ => if line = "];".toList then some .close else none
  | 's' :: _ => (after? (keyword .inFunction) line).bind (declaration? .inFunction)
  | 'p' :: _ =>
      (after? (keyword .atModule) line).bind fun rest =>
        (declaration? .atModule rest).or (head? .atModule rest)
  | 'l' :: _ => (after? (headKeyword .inFunction) line).bind (head? .inFunction)
  | _ => (after? "    (" line).bind row?

/-- The lines of a text in which every line is ended, if each of them is a line of code. -/
def read? (text : String) : Option (List Line) :=
  let lines := Text.pieces '\n' text.toList
  if lines.getLast? = some [] then lines.dropLast.mapM Line.read? else none

def Line.print : Line → String
  | .allowance => "#[allow(dead_code)]"
  | .declaration placement binding literal =>
      keyword placement ++ binding ++ typeMark placement ++ literal ++ ");"
  | .blank => ""
  | .head placement name => headKeyword placement ++ name ++ headMark placement
  | .row key binding => "    (" ++ Text.quote key ++ ", " ++ binding ++ "),"
  | .close => "];"

def Line.WellFormed : Line → Prop
  | .declaration _ binding literal => IsWord binding ∧ ∃ path, literal = Text.quote path
  | .head _ name => IsWord name
  | .row _ binding => IsWord binding
  | .allowance | .blank | .close => True

theorem after?_append (mark : String) (rest : List Char) :
    after? mark (mark.toList ++ rest) = some rest := by
  simp [after?]

theorem word_append {name : String} (isWord : IsWord name) (c : Char) (rest : List Char)
    (ends : isWordChar c = false) : word (name.toList ++ c :: rest) = (name, c :: rest) := by
  have taken : (name.toList ++ c :: rest).takeWhile isWordChar = name.toList := by
    rw [List.takeWhile_append_of_pos isWord, List.takeWhile_cons_of_neg (by simp [ends]),
      List.append_nil]
  have dropped : (name.toList ++ c :: rest).dropWhile isWordChar = c :: rest := by
    rw [List.dropWhile_append_of_pos isWord, List.dropWhile_cons_of_neg (by simp [ends])]
  simp [word, taken, dropped]

theorem literal?_quote (text : String) (rest : List Char) :
    literal? ((Text.quote text).toList ++ rest) = some (Text.quote text, rest) := by
  simp [literal?, Literal.read?_quote]

theorem declaration?_print (placement : Placement) {binding : String} (isWord : IsWord binding)
    (path : String) :
    declaration? placement (binding.toList ++
        ((typeMark placement).toList ++ ((Text.quote path).toList ++ ");".toList))) =
      some (.declaration placement binding (Text.quote path)) := by
  have marked : ∃ rest, (typeMark placement).toList ++ ((Text.quote path).toList ++ ");".toList) =
      ':' :: rest := by
    cases placement <;> exact ⟨_, rfl⟩
  obtain ⟨rest, marked⟩ := marked
  rw [declaration?, marked, word_append isWord ':' rest (by decide), ← marked]
  simp [after?_append, literal?_quote]

theorem head?_print (placement : Placement) {name : String} (isWord : IsWord name) :
    head? placement (name.toList ++ (headMark placement).toList) = some (.head placement name) := by
  have marked : ∃ c rest, (headMark placement).toList = c :: rest ∧ isWordChar c = false := by
    cases placement <;> exact ⟨_, _, rfl, by decide⟩
  obtain ⟨c, rest, marked, ends⟩ := marked
  rw [head?, marked, word_append isWord c rest ends, ← marked]
  simp

theorem declaration?_head {name : String} (isWord : IsWord name) :
    declaration? .atModule (name.toList ++ (headMark .atModule).toList) = none := by
  have marked : (headMark .atModule).toList = ':' :: " &[(&str, &[u8])] = &[".toList := rfl
  have otherMark : after? (typeMark .atModule) (':' :: " &[(&str, &[u8])] = &[".toList) = none := rfl
  rw [declaration?, marked, word_append isWord ':' _ (by decide)]
  simp only [otherMark, Option.bind_eq_bind, Option.bind_none]

theorem row?_print (key : String) {binding : String} (isWord : IsWord binding) :
    row? ((Text.quote key).toList ++ (", ".toList ++ (binding.toList ++ "),".toList))) =
      some (.row key binding) := by
  have ended : "),".toList = ')' :: [','] := rfl
  simp only [row?, Literal.read?_quote, Option.bind_eq_bind, Option.bind_some, after?_append, ended,
    word_append isWord ')' [','] (by decide), if_true, String.ofList_toList]

theorem Line.read?_print (line : Line) (wellFormed : line.WellFormed) :
    Line.read? line.print.toList = some line := by
  cases line with
  | allowance => rfl
  | blank => rfl
  | close => rfl
  | declaration placement binding literal =>
      obtain ⟨isWord, path, rfl⟩ := wellFormed
      have read := declaration?_print placement isWord path
      simp only [Line.print, String.toList_append, List.append_assoc]
      cases placement with
      | inFunction =>
          change (after? (keyword .inFunction) ((keyword .inFunction).toList ++ _)).bind
            (declaration? .inFunction) = _
          rw [after?_append, Option.bind_some, read]
      | atModule =>
          change ((after? (keyword .atModule) ((keyword .atModule).toList ++ _)).bind fun rest =>
            (declaration? .atModule rest).or (head? .atModule rest)) = _
          rw [after?_append, Option.bind_some, read, Option.some_or]
  | head placement name =>
      have read := head?_print placement wellFormed
      simp only [Line.print, String.toList_append, List.append_assoc]
      cases placement with
      | inFunction =>
          change (after? (headKeyword .inFunction) ((headKeyword .inFunction).toList ++ _)).bind
            (head? .inFunction) = _
          rw [after?_append, Option.bind_some, read]
      | atModule =>
          change ((after? (keyword .atModule) ((keyword .atModule).toList ++ _)).bind fun rest =>
            (declaration? .atModule rest).or (head? .atModule rest)) = _
          rw [after?_append, Option.bind_some, declaration?_head wellFormed, Option.none_or, read]
  | row key binding =>
      simp only [Line.print, String.toList_append, List.append_assoc]
      change (after? "    (" ("    (".toList ++ _)).bind row? = _
      rw [after?_append, Option.bind_some, row?_print key wellFormed]

theorem newline_notMem_word {name : String} (isWord : IsWord name) : '\n' ∉ name.toList :=
  fun member => absurd (isWord '\n' member) (by decide)

theorem newline_notMem_quote (text : String) : '\n' ∉ (Text.quote text).toList :=
  fun member => absurd (Literal.isVisible_quote text '\n' member) (by decide)

theorem Line.newline_notMem_print (line : Line) (wellFormed : line.WellFormed) :
    '\n' ∉ line.print.toList := by
  cases line with
  | allowance => decide
  | blank => decide
  | close => decide
  | declaration placement binding literal =>
      obtain ⟨isWord, path, rfl⟩ := wellFormed
      have named := newline_notMem_word isWord
      have quoted := newline_notMem_quote path
      cases placement <;> simp [Line.print, keyword, typeMark, named, quoted]
  | head placement name =>
      have named := newline_notMem_word wellFormed
      cases placement <;> simp [Line.print, headKeyword, headMark, named]
  | row key binding =>
      have named := newline_notMem_word wellFormed
      have quoted := newline_notMem_quote key
      simp [Line.print, named, quoted]

def printAll (lines : List Line) : String :=
  String.join (lines.map fun line => line.print ++ "\n")

theorem pieces_printAll (lines : List Line) (wellFormed : ∀ line ∈ lines, line.WellFormed) :
    Text.pieces '\n' (printAll lines).toList = lines.map (fun line => line.print.toList) ++ [[]] := by
  induction lines with
  | nil => simp [printAll, Text.pieces]
  | cons line rest ih =>
      have whole := line.newline_notMem_print (wellFormed line (by simp))
      have tail := ih fun other member => wellFormed other (List.mem_cons_of_mem _ member)
      have split : (printAll (line :: rest)).toList =
          line.print.toList ++ '\n' :: (printAll rest).toList := by
        simp [printAll]
      rw [split, Text.pieces_append_cons whole, tail]
      rfl

theorem mapM_read?_print (lines : List Line) (wellFormed : ∀ line ∈ lines, line.WellFormed) :
    (lines.map fun line => line.print.toList).mapM Line.read? = some lines := by
  induction lines with
  | nil => rfl
  | cons line rest ih =>
      have read := line.read?_print (wellFormed line (by simp))
      have tail := ih fun other member => wellFormed other (List.mem_cons_of_mem _ member)
      rw [List.map_cons, List.mapM_cons, read, tail]
      rfl

theorem read?_printAll (lines : List Line) (wellFormed : ∀ line ∈ lines, line.WellFormed) :
    read? (printAll lines) = some lines := by
  simp only [read?, pieces_printAll lines wellFormed, List.getLast?_concat, if_true,
    List.dropLast_concat, mapM_read?_print lines wellFormed]

end RomCatalog.Code
