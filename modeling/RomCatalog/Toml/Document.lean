import RomCatalog.Toml.Statement

/-!
The tree that the statements of a TOML text build. A key is given at most one meaning. A table that
is known only because another header goes through it may still get a header of its own, and then
takes its place among its neighbours from there.
-/

namespace RomCatalog.Toml

inductive Origin where
  /-- By a header of its own; the stretch reaches from there to the end of its last entry. -/
  | header (span : Span)
  | implied
  | dotted

inductive Node where
  | value (value : Value) (span : Span)
  | table (origin : Origin) (entries : List (Key × Node))
  /-- An array of tables, of which only the latest can still grow. -/
  | tables (span : Span) (earlier : List (List (Key × Node))) (latest : List (Key × Node))

abbrev Entries := List (Key × Node)

namespace Entries

def find? (name : String) : Entries → Option Node
  | [] => none
  | (key, node) :: rest => if key.text = name then some node else find? name rest

def update (key : Key) (change : Option Node → Option Node) : Entries → Option Entries
  | [] => (change none).map fun node => [(key, node)]
  | (other, node) :: rest =>
      if other.text = key.text then (change (some node)).map fun node => (other, node) :: rest
      else (update key change rest).map ((other, node) :: ·)

/-- Changes the table to which the parts of a header lead, through the latest element of an array
of tables; tables that are not there yet are implied. -/
def within (change : Entries → Option Entries) : List Key → Entries → Option Entries
  | [], entries => change entries
  | key :: rest, entries =>
      entries.update key fun
        | none => (within change rest []).map (.table .implied)
        | some (.table origin inner) => (within change rest inner).map (.table origin)
        | some (.tables span earlier latest) =>
            (within change rest latest).map (.tables span earlier)
        | some (.value ..) => none

/-- Starts the table of a header that ends in that key. -/
def openTable (key : Key) (span : Span) (entries : Entries) : Option Entries :=
  match entries.find? key.text with
  | none => some (entries ++ [(key, .table (.header span) [])])
  | some (.table .implied inner) =>
      some ((entries.filter fun other => other.1.text ≠ key.text) ++
        [(key, .table (.header span) inner)])
  | some _ => none

/-- Starts a further element of the array of tables of that key. -/
def openElement (key : Key) (span : Span) (entries : Entries) : Option Entries :=
  entries.update key fun
    | none => some (.tables span [] [])
    | some (.tables whole earlier latest) =>
        some (.tables ⟨whole.start, span.stop⟩ (earlier ++ [latest]) [])
    | some _ => none

/-- Gives a meaning to a dotted key. Its last table has to be one that dotted keys made. -/
def assign (node : Node) : List Key → Entries → Option Entries
  | [], _ => none
  | [key], entries =>
      entries.update key fun
        | none => some node
        | some _ => none
  | key :: next :: rest, entries =>
      entries.update key fun
        | none => (assign node (next :: rest) []).map (.table .dotted)
        | some (.table .dotted inner) => (assign node (next :: rest) inner).map (.table .dotted)
        | some (.table .implied inner) =>
            if rest = [] then none
            else (assign node (next :: rest) inner).map (.table .implied)
        | some (.tables span earlier latest) =>
            if rest = [] then none
            else (assign node (next :: rest) latest).map (.tables span earlier)
        | some _ => none

/-- Gives a meaning to a dotted key in the table that was opened last under the name `key`. -/
def assignUnder (key : Key) (node : Node) (stop : Nat) (path : List Key) (entries : Entries) :
    Option Entries :=
  entries.update key fun
    | some (.table (.header span) inner) =>
        (assign node path inner).map (.table (.header ⟨span.start, stop⟩))
    | some (.tables span earlier latest) =>
        (assign node path latest).map (.tables ⟨span.start, stop⟩ earlier)
    | _ => none

end Entries

/-- The entries so far, and the parts of the header that entries now belong to. -/
structure Draft where
  entries : Entries
  current : List Key

namespace Draft

/-- Changes the last part of a header in the table to which the other parts lead. -/
def atHeader (path : List Key) (change : Key → Entries → Option Entries) (entries : Entries) :
    Option Entries :=
  match path.getLast? with
  | none => none
  | some key => entries.within (change key) path.dropLast

def add (draft : Draft) : Statement → Option Draft
  | .table path span =>
      (atHeader path (fun key => Entries.openTable key span) draft.entries).map (⟨·, path⟩)
  | .element path span =>
      (atHeader path (fun key => Entries.openElement key span) draft.entries).map (⟨·, path⟩)
  | .entry path value span =>
      let node := Node.value value span
      (if draft.current = [] then draft.entries.assign node path
        else atHeader draft.current
          (fun key => Entries.assignUnder key node span.stop path) draft.entries).map
        (⟨·, draft.current⟩)

end Draft

def document? (text : List Char) : Option Entries := do
  let statements ← statements? text
  let draft ← statements.foldlM Draft.add ⟨[], []⟩
  return draft.entries

/-- Where the node was written, as far as it was written in one piece. -/
def Node.span? : Node → Option Span
  | .value _ span => some span
  | .table (.header span) _ => some span
  | .table _ _ => none
  | .tables span _ _ => some span

end RomCatalog.Toml
