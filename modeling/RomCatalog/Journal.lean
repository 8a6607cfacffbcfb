/-!
The journal of a run: records of three levels, in the order in which they were made. A threshold
only chooses which records are shown, so what is shown at a stricter one is part of what is shown
at a looser one.
-/

namespace RomCatalog

inductive Level where
  | warn
  | info
  | debug
deriving DecidableEq, Repr

structure Record where
  level : Level
  text : String
deriving DecidableEq, Repr

namespace Level

def name : Level → String
  | .warn => "WARN"
  | .info => "INFO"
  | .debug => "DEBUG"

/-- How far into the detail of a run a record of the level goes. -/
def detail : Level → Nat
  | .warn => 2
  | .info => 3
  | .debug => 4

end Level

inductive Threshold where
  | off
  | error
  | warn
  | info
  | debug
  | trace
deriving DecidableEq, Repr

namespace Threshold

def detail : Threshold → Nat
  | .off => 0
  | .error => 1
  | .warn => 2
  | .info => 3
  | .debug => 4
  | .trace => 5

/-- Warnings are shown unless something else is asked for. -/
def default : Threshold := .warn

/-- The threshold of that name, in any case; an empty name asks for nothing in particular. -/
def named? (name : String) : Option Threshold :=
  let name := name.map Char.toLower
  if name = "" then some default
  else if name = "off" then some .off
  else if name = "error" then some .error
  else if name = "warn" then some .warn
  else if name = "info" then some .info
  else if name = "debug" then some .debug
  else if name = "trace" then some .trace
  else none

/-- The threshold of a run under a setting that may be missing. A text that names none counts as no
setting. -/
def ofSetting (setting : Option String) : Threshold :=
  (named? (setting.getD "")).getD default

def shows (threshold : Threshold) (record : Record) : Bool :=
  record.level.detail ≤ threshold.detail

end Threshold

namespace Record

def indent : List Char := [' ', ' ', ' ', ' ']

def hanging (text : String) : String :=
  String.ofList (text.toList.flatMap fun c => if c = '\n' then '\n' :: indent else [c])

/-- The line that shows a record, with the name of its level filled up to five characters. -/
def line (record : Record) : String :=
  "[" ++ record.level.name ++
    String.ofList (List.replicate (5 - record.level.name.length) ' ') ++ "] " ++
    hanging record.text ++ "\n"

end Record

namespace Journal

def shown (threshold : Threshold) (records : List Record) : String :=
  String.join ((records.filter threshold.shows).map Record.line)

end Journal

end RomCatalog
