import RomCatalog.FileSystem
import RomCatalog.Journal
import RomCatalog.Settings.File
import RomCatalog.Toml.Excerpt

/-!
Everything a run can fail with: a message, and mostly a cause that explains it.
-/

namespace RomCatalog

inductive Failure where
  | directoryAccess (root : Path) (fault : Fault)
  | settingsUnreadable (path : Path) (fault : Fault)
  | settingsNotToml (path : Path) (text : String)
  /-- Part of the settings file `text` does not fit. -/
  | settingsMisfit (path : Path) (text : String) (misfit : Misfit) (start stop : Nat)
  | outputNotCreated (path : Path) (fault : Fault)
  | outputNotWritten (fault : Fault)
  | manifestNotWritten (fault : Fault)
  | noOutputDirectory
  | noCurrentDirectory (fault : Fault)
deriving DecidableEq, Repr

namespace Failure

def message : Failure → String
  | .directoryAccess root _ => "could not read ROM directory " ++ root.text
  | .settingsUnreadable path _ => "could not read config file " ++ path.text
  | .settingsNotToml path _ => "invalid config file " ++ path.text
  | .settingsMisfit path _ _ _ _ => "invalid config file " ++ path.text
  | .outputNotCreated path _ => "could not create " ++ path.text
  | .outputNotWritten fault => fault.message
  | .manifestNotWritten _ => "could not write manifest"
  | .noOutputDirectory => "OUT_DIR not defined"
  | .noCurrentDirectory fault => fault.message

/-- What brought the failure about, where the message does not say it all. The complaint is what the
TOML library has to say about a text that is not TOML. -/
def cause? (complaint : String → String) : Failure → Option String
  | .directoryAccess _ fault => some fault.message
  | .settingsUnreadable _ fault => some fault.message
  | .settingsNotToml _ text => some (complaint text)
  | .settingsMisfit _ text misfit start stop =>
      some (Toml.excerpt text misfit.message start stop)
  | .outputNotCreated _ fault => some fault.message
  | .outputNotWritten _ => none
  | .manifestNotWritten fault => some fault.message
  | .noOutputDirectory => none
  | .noCurrentDirectory _ => none

def report (complaint : String → String) (failure : Failure) : String :=
  "Error: " ++ failure.message ++
    (match failure.cause? complaint with
      | some cause => "\n\nCaused by:\n    " ++ Record.hanging cause
      | none => "") ++ "\n"

end Failure

end RomCatalog
