import RomCatalog.Settings
import RomCatalog.Text.Quoted
import RomCatalog.Toml.Document
import RomCatalog.Number.Shortest

/-!
The settings file: a TOML text whose top-level keys override settings. The keys are looked at in
their order, and the first that is unknown or has a value of another kind is reported.
-/

namespace RomCatalog

structure Overrides where
  root : Option Path
  includeStart : Option String
  bindingStart : Option String
  tableName : Option String
  sorted : Option Bool
deriving DecidableEq, Repr

namespace Overrides

def empty : Overrides where
  root := none
  includeStart := none
  bindingStart := none
  tableName := none
  sorted := none

def apply (overrides : Overrides) (settings : Settings) : Settings :=
  { settings with
    root := overrides.root.getD settings.root
    embedding := (overrides.includeStart.map Embedding.after).getD settings.embedding
    bindingStart := overrides.bindingStart.getD settings.bindingStart
    tableName := overrides.tableName.getD settings.tableName
    sorted := overrides.sorted.getD settings.sorted }

end Overrides

/-- The kind of a value that was found, told as far as a message tells it. -/
inductive Found where
  | string (text : String)
  | integer (value : Int)
  | float (value : Binary64)
  | boolean (value : Bool)
  | sequence
  | map
deriving DecidableEq, Repr

inductive Wanted where
  | pathText
  | text
  | boolean
deriving DecidableEq, Repr

inductive Misfit where
  | unknownKey (name : String)
  | wrongKind (found : Found) (wanted : Wanted)
deriving DecidableEq, Repr

def Found.message : Found → String
  | .string text => "string " ++ Text.quote text
  | .integer value => "integer `" ++ toString value ++ "`"
  | .float value => "floating point `" ++ value.text ++ "`"
  | .boolean value => "boolean `" ++ (if value then "true" else "false") ++ "`"
  | .sequence => "sequence"
  | .map => "map"

def Wanted.message : Wanted → String
  | .pathText => "path string"
  | .text => "a string"
  | .boolean => "a boolean"

def Misfit.message : Misfit → String
  | .unknownKey name =>
      "unknown field `" ++ name ++ "`, expected one of `root`, `include_prefix`, `binding_prefix`, " ++
        "`table_name`, `sort`"
  | .wrongKind found wanted =>
      "invalid type: " ++ found.message ++ ", expected " ++ wanted.message

/-- A date is found as a map of its parts. -/
def Found.ofValue : Toml.Value → Found
  | .string text => .string text
  | .integer value => .integer value
  | .float value => .float value
  | .boolean value => .boolean value
  | .dateTime => .map
  | .array _ => .sequence
  | .table _ => .map

def Found.ofNode : Toml.Node → Found
  | .value value _ => .ofValue value
  | .table _ _ => .map
  | .tables _ _ _ => .sequence

def Found.text? (wanted : Wanted) : Found → Except Misfit String
  | .string text => .ok text
  | found => .error (.wrongKind found wanted)

def Found.boolean? : Found → Except Misfit Bool
  | .boolean value => .ok value
  | found => .error (.wrongKind found .boolean)

namespace SettingsFile

def name : String := "roms.toml"

/-- Takes over the setting of a key, whose name is case sensitive. -/
def set (overrides : Overrides) (key : String) (found : Found) : Except Misfit Overrides :=
  if key = "root" then
    (found.text? .pathText).map fun text => { overrides with root := some (Path.ofString text) }
  else if key = "include_prefix" then
    (found.text? .text).map fun text => { overrides with includeStart := some text }
  else if key = "binding_prefix" then
    (found.text? .text).map fun text => { overrides with bindingStart := some text }
  else if key = "table_name" then
    (found.text? .text).map fun text => { overrides with tableName := some text }
  else if key = "sort" then
    found.boolean?.map fun sorted => { overrides with sorted := some sorted }
  else .error (.unknownKey key)

/-- The stretch of text that a misfit is about: an unknown key itself, else the value as it was
written, or the key of a value that was not written in one piece. -/
def misfitSpan (misfit : Misfit) (key : Toml.Key) (node : Toml.Node) : Toml.Span :=
  match misfit with
  | .unknownKey _ => key.span
  | .wrongKind _ _ => node.span?.getD key.span

def setAll (overrides : Overrides) : Toml.Entries → Except (Misfit × Toml.Span) Overrides
  | [] => .ok overrides
  | (key, node) :: rest =>
      match set overrides key.text (Found.ofNode node) with
      | .ok overrides => setAll overrides rest
      | .error misfit => .error (misfit, misfitSpan misfit key node)

inductive Error where
  | notToml
  /-- The text is TOML, but the bytes from `start` to `stop` hold what does not fit. -/
  | misfit (misfit : Misfit) (start stop : Nat)
deriving DecidableEq, Repr

def read (text : String) : Except Error Overrides :=
  match Toml.document? text.toList with
  | none => .error .notToml
  | some entries =>
      match setAll Overrides.empty entries with
      | .ok overrides => .ok overrides
      | .error (misfit, span) =>
          let size := Utf8.size text.toList
          .error (.misfit misfit (size - span.start) (size - span.stop))

end SettingsFile

end RomCatalog
