import RomCatalog.Manifest
import RomCatalog.Scan

/-!
The ways in which a manifest leaves the program: as text, on standard output, and in a file for the
build. Nothing is written before the whole text is known.
-/

namespace RomCatalog.Manifest

def compose (fs : FileSystem) (settings : Settings) : Attempt String := do
  let root := settings.romDirectory
  let roms ← Scan.scan fs root settings.sorted
  Attempt.note .info (toString roms.length ++ " ROMs in " ++ root.text)
  return text settings roms

structure Printed where
  output : String
  attempt : Attempt Unit

def print (fs : FileSystem) (settings : Settings) (full : Bool) : Printed :=
  let composed := compose fs settings
  match composed.outcome with
  | .error failure => ⟨"", composed.journal, .error failure⟩
  | .endless => ⟨"", composed.journal, .endless⟩
  | .ok code =>
      if full then ⟨"", composed.journal, .error (.manifestNotWritten .noSpace)⟩
      else ⟨code, composed.journal, .ok ()⟩

/-- The line that tells the build tool to run again when the directory changes. -/
def announcement (settings : Settings) : String :=
  if settings.announcing then
    "cargo:rerun-if-changed=" ++ settings.romDirectory.text ++ "\n"
  else ""

structure Built where
  output : String
  files : FileSystem
  attempt : Attempt Unit

/-- Writes the manifest of the ROMs to the output path, whose file is made only after the scan. -/
def save (fs : FileSystem) (settings : Settings) (roms : List Rom) :
    FileSystem × Outcome Failure Unit :=
  match fs.create settings.destination with
  | .error fault => (fs, .error (.outputNotCreated settings.destination fault))
  | .endless => (fs, .endless)
  | .ok (opened, sink) =>
      match opened.write sink (Utf8.encode (text settings roms)) with
      | .error fault => (opened, .error (.outputNotWritten fault))
      | .ok written => (written, .ok ())

def build (fs : FileSystem) (settings : Settings) : Built :=
  let scanned := Scan.scan fs settings.romDirectory settings.sorted
  match scanned.outcome with
  | .error failure => ⟨announcement settings, fs, scanned.journal, .error failure⟩
  | .endless => ⟨announcement settings, fs, scanned.journal, .endless⟩
  | .ok roms =>
      match save fs settings roms with
      | (files, .error failure) => ⟨announcement settings, files, scanned.journal, .error failure⟩
      | (files, .endless) => ⟨announcement settings, files, scanned.journal, .endless⟩
      | (files, .ok ()) =>
          let summary : Record :=
            ⟨.info, "wrote " ++ toString roms.length ++ " ROMs to " ++ settings.destination.text⟩
          ⟨announcement settings, files, scanned.journal ++ [summary], .ok ()⟩

end RomCatalog.Manifest
