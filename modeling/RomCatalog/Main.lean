import RomCatalog.Command
import RomCatalog.FileSystem.Edit

/-!
The command as a program. It copies what the command looks at into a file system of its own, the
settings file first and then the directory that the settings name, runs the command there, and
writes what comes of it.
-/

namespace RomCatalog.Program

def faultOf : IO.Error → Fault
  | .noFileOrDirectory .. => .notFound
  | .permissionDenied .. => .notPermitted
  | .inappropriateType .. => .notDirectory
  | .invalidArgument _ code _ => if code = -36 then .nameTooLong else .tooManyLinks
  | _ => .inputOutput

/-- The kind of what a path leads to, or the fault that is met on the way. -/
def kindAt (path : String) : IO (Except Fault IO.FS.FileType) := do
  try return .ok (← ((← IO.currentDir) / path).metadata).type
  catch error => return .error (faultOf error)

def isLink (path : String) : IO Bool := do
  try return (← ((← IO.currentDir) / path).symlinkMetadata).type == .symlink
  catch _ => return false

/-- An entry of a directory as a scan sees it. The contents of files do not matter to a scan, nor
which kind of thing it is that is neither a file nor a directory. -/
def objectAt (path : String) : IO Object := do
  match ← kindAt path with
  | .ok .file => return .file []
  | .ok .dir => return .directory
  | .ok _ => return .pipe
  | .error .notFound =>
      if ← isLink path then return .link (Path.ofString "nowhere/nothing")
      else return .broken .notFound
  | .error fault => return .broken fault

/-- A name that is not text is told with replacement characters, and nothing is there under the name
that is told. It is copied as the name of a file, with bytes that are not text either. -/
def copyNamed (fs : FileSystem) (path name : String) : IO FileSystem := do
  let target := Path.ofString path
  let object ← objectAt (path ++ "/" ++ name)
  if object = .broken .notFound ∧ '\uFFFD' ∈ name.toList then
    let bytes := name.toList.flatMap fun c =>
      if c = '\uFFFD' then [0xff] else Utf8.encode (String.singleton c)
    return fs.add (target.join ⟨bytes⟩) (.file [])
  else return fs.add (target.join (Path.ofString name)) object

/-- Copies a directory with the entries directly inside it. -/
def copyDirectory (fs : FileSystem) (path : String) : IO FileSystem := do
  let target := Path.ofString path
  try
    let entries ← ((← IO.currentDir) / path).readDir
    entries.reverse.foldlM (fun fs entry => copyNamed fs path entry.fileName)
      (fs.makeDirectories target)
  catch error =>
    let fs := (target.parent?.map fs.makeDirectories).getD fs
    return fs.add target.trimmed (.broken (faultOf error))

/-- Copies what the settings are read from, which may take as long as it takes to read it. -/
def copySettings (fs : FileSystem) : IO FileSystem := do
  match ← kindAt SettingsFile.name with
  | .error _ => return fs
  | .ok .dir => return fs.makeDirectories Command.settingsPath
  | .ok _ =>
      let contents ← IO.FS.readBinFile ((← IO.currentDir) / SettingsFile.name)
      return fs.writeFile Command.settingsPath contents.toList

def snapshot : IO FileSystem := do
  let here := Path.ofString (← IO.currentDir).toString
  let fs ← copySettings ((FileSystem.bare.makeDirectories here).enter here)
  match (Settings.loadOrDefault fs Command.settingsPath).outcome with
  | .ok settings => copyDirectory fs settings.romDirectory.text
  | _ => return fs

/-- Stands in for what the TOML library says. -/
def complaint (_ : String) : String :=
  "not a TOML document"

end RomCatalog.Program

def main : IO UInt32 := do
  let threshold := RomCatalog.Threshold.ofSetting (← IO.getEnv "RUST_LOG")
  let fs ← RomCatalog.Program.snapshot
  match RomCatalog.Command.run? RomCatalog.Program.complaint fs threshold with
  | none => return 1
  | some exit =>
      (← IO.getStdout).putStr exit.output
      (← IO.getStderr).putStr exit.diagnostics
      return exit.code.toUInt32
