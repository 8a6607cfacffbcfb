import RomCatalog.Path
import RomCatalog.Rom

/-!
What a manifest is made from and where it goes. Settings start from one of the defaults and are
changed one at a time; a change of the scanned directory moves the embedded paths with it unless
they were given a start of their own.
-/

namespace RomCatalog

inductive Embedding where
  /-- One level up, then the scanned directory: for code that lies one level below the directory
  to which the scanned directory is relative. -/
  | beside
  | absolute
  | after (start : String)
deriving DecidableEq, Repr

inductive Placement where
  | inFunction
  | atModule
deriving DecidableEq, Repr

structure Settings where
  /-- The directory to which a relative `root` is relative. -/
  base : Path
  root : Path
  embedding : Embedding
  bindingStart : String
  tableName : String
  sorted : Bool
  placement : Placement
  outputDirectory : Path
  outputFile : String
  /-- Whether the build tool is told which directory to watch. -/
  announcing : Bool
deriving DecidableEq, Repr

namespace Settings

def default : Settings where
  base := Path.empty
  root := Path.ofString "../games/"
  embedding := .beside
  bindingStart := "ROM_"
  tableName := "ROMS"
  sorted := true
  placement := .inFunction
  outputDirectory := Path.ofString "."
  outputFile := "roms.rs"
  announcing := false

/-- Settings for a build script that runs in the package directory and writes to `output`. -/
def forBuild (package output : Path) : Settings :=
  { default with
    base := package
    root := Path.ofString "games"
    embedding := .absolute
    placement := .atModule
    outputDirectory := output
    announcing := true }

def romDirectory (settings : Settings) : Path :=
  settings.base.join settings.root

def destination (settings : Settings) : Path :=
  settings.outputDirectory.join (Path.ofString settings.outputFile)

/-- The name under which the generated code declares the contents of a ROM. -/
def binding (settings : Settings) (rom : Rom) : String :=
  settings.bindingStart ++ rom.identifier

def embedPath (settings : Settings) (rom : Rom) : String :=
  match settings.embedding with
  | .after start => start ++ rom.name
  | .beside => (((Path.ofString "..").join settings.root).join (Path.ofString rom.name)).text
  | .absolute => (settings.romDirectory.join (Path.ofString rom.name)).text

end Settings

inductive Change where
  | root (path : Path)
  | includeStart (start : String)
  | bindingStart (start : String)
  | tableName (name : String)
  | sorted (sorted : Bool)
  | placement (placement : Placement)
  | output (directory : Path) (file : String)
deriving DecidableEq, Repr

namespace Settings

def change (settings : Settings) : Change → Settings
  | .root path => { settings with root := path }
  | .includeStart start => { settings with embedding := .after start }
  | .bindingStart start => { settings with bindingStart := start }
  | .tableName name => { settings with tableName := name }
  | .sorted sorted => { settings with sorted := sorted }
  | .placement placement => { settings with placement := placement }
  | .output directory file => { settings with outputDirectory := directory, outputFile := file }

def changeAll (settings : Settings) (changes : List Change) : Settings :=
  changes.foldl change settings

end Settings

end RomCatalog
