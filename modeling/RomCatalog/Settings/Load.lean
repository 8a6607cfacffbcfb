import RomCatalog.Attempt
import RomCatalog.FileSystem.Access

/-!
Settings from where a program runs: from a settings file, whose scanned directory is relative to
the directory that holds the file, or from the environment of a build script.
-/

namespace RomCatalog.Settings

def ofText (path : Path) (text : String) : Except Failure Settings :=
  match SettingsFile.read text with
  | .ok overrides => .ok (overrides.apply { default with base := path.parent?.getD Path.empty })
  | .error .notToml => .error (.settingsNotToml path text)
  | .error (.misfit misfit start stop) => .error (.settingsMisfit path text misfit start stop)

def load (fs : FileSystem) (path : Path) : Outcome Failure Settings :=
  match fs.readText path with
  | .error fault => .error (.settingsUnreadable path fault)
  | .endless => .endless
  | .ok text => .ofExcept (ofText path text)

/-- The defaults hold only if nothing is there: a file that is there counts, readable or not. -/
def loadOrDefault (fs : FileSystem) (path : Path) : Attempt Settings :=
  if fs.exists? path then .ofOutcome (load fs path)
  else ⟨[⟨.debug, "no " ++ path.text ++ " found, using defaults"⟩], .ok default⟩

/-- The settings of a build script, which is told where its output goes. -/
def loadForBuild (fs : FileSystem) (output : Option Path) : Except Failure Settings :=
  match output with
  | none => .error .noOutputDirectory
  | some output =>
      match fs.currentPath with
      | .error fault => .error (.noCurrentDirectory fault)
      | .ok package => .ok (forBuild package output)

end RomCatalog.Settings
