import RomCatalog.Manifest.Output
import RomCatalog.Settings.Load

/-!
The command: it prints the manifest for the settings file of the current directory, or for the
defaults if there is none. Records and failures go to standard error, so that standard output holds
a whole manifest or nothing. A run that never ends has no exit.
-/

namespace RomCatalog

structure Exit where
  code : Nat
  output : String
  diagnostics : String
deriving DecidableEq, Repr

namespace Command

def settingsPath : Path := Path.ofString SettingsFile.name

def exit? (complaint : String → String) (threshold : Threshold) (printed : Manifest.Printed) :
    Option Exit :=
  let shown := Journal.shown threshold printed.attempt.journal
  match printed.attempt.outcome with
  | .ok () => some ⟨0, printed.output, shown⟩
  | .error failure => some ⟨1, printed.output, shown ++ failure.report complaint⟩
  | .endless => none

/-- Loads the settings and prints; without settings nothing is printed. -/
def listRoms (fs : FileSystem) : Manifest.Printed :=
  let loaded := Settings.loadOrDefault fs settingsPath
  match loaded.outcome with
  | .error failure => ⟨"", loaded.journal, .error failure⟩
  | .endless => ⟨"", loaded.journal, .endless⟩
  | .ok settings =>
      let printed := Manifest.print fs settings false
      ⟨printed.output, loaded.journal ++ printed.attempt.journal, printed.attempt.outcome⟩

def run? (complaint : String → String) (fs : FileSystem) (threshold : Threshold) : Option Exit :=
  exit? complaint threshold (listRoms fs)

end Command

end RomCatalog
