import RomCatalog.Table

/-!
A menu steps through the positions of a table in either direction and wraps at both ends. Positions
and lengths are machine words.
-/

namespace RomCatalog.Menu

/-- The position after `current`; an empty table has only the position zero. -/
def next (length current : UInt64) : UInt64 :=
  if length = 0 then 0 else (current + 1) % length

/-- The position before `current`; one that lies beyond the table comes back to its last row. -/
def previous (length current : UInt64) : UInt64 :=
  if length = 0 then 0
  else if current = 0 then length - 1
  else min (current - 1) (length - 1)

inductive Action where
  | next
  | previous
  | resize (length : UInt64)
  | select (current : UInt64)
deriving DecidableEq, Repr

structure State where
  length : UInt64
  current : UInt64
deriving DecidableEq, Repr

def State.act (state : State) : Action → State
  | .next => { state with current := next state.length state.current }
  | .previous => { state with current := previous state.length state.current }
  | .resize length => { state with length := length }
  | .select current => { state with current := current }

def State.run (state : State) : List Action → List State
  | [] => []
  | action :: rest => state.act action :: (state.act action).run rest

def position (n : Nat) : String :=
  if n < 10 then "0" ++ toString n else toString n

def hexByte (byte : UInt8) : String :=
  String.ofList [(byte.toNat / 16).digitChar, (byte.toNat % 16).digitChar]

def rowLine (row : (String × Bytes) × Nat) : String :=
  position row.2 ++ ": " ++ row.1.1 ++ " (" ++ toString row.1.2.length ++ " bytes)\n"

def selectionLine (table : Table) (selected : String) : String :=
  match table.find? selected with
  | some contents =>
      selected ++ " starts with [" ++ ", ".intercalate ((contents.take 4).map hexByte) ++ "]\n"
  | none => selected ++ " is not embedded\n"

def nextLine (table : Table) : String :=
  match table[(next table.length.toUInt64 0).toNat]? with
  | some row => "next after 00: " ++ row.1 ++ "\n"
  | none => ""

/-- Every row with its position, the selected ROM, and the row after the first. -/
def overview (table : Table) (selected : String) : String :=
  String.join (table.zipIdx.map rowLine) ++ selectionLine table selected ++ nextLine table

end RomCatalog.Menu
