import RomCatalog.FileSystem.Walk
import RomCatalog.Outcome

/-!
Looking at files and writing to them.
-/

namespace RomCatalog

/-- What stands open for writing: a file that was emptied or made for it, or a device. -/
inductive Sink where
  | file (place : Place)
  | device (device : Device)
deriving DecidableEq, Repr

namespace FileSystem

def stat (fs : FileSystem) (path : Path) : Except Fault Object :=
  (fs.locate .follow path).map Prod.snd

def isLink (fs : FileSystem) (path : Path) : Bool :=
  match fs.locate .entry path with
  | .ok (_, .link _) => true
  | _ => false

def exists? (fs : FileSystem) (path : Path) : Bool :=
  (fs.stat path).toBool

/-- All that can be read. A pipe is waited for, and a device may have no end. -/
def read (fs : FileSystem) (path : Path) : Outcome Fault Bytes :=
  match fs.stat path with
  | .error fault => .error fault
  | .ok (.file contents) => .ok contents
  | .ok .directory => .error .isDirectory
  | .ok .pipe => .endless
  | .ok (.device .discards) => .ok []
  | .ok (.device .full) => .endless
  | .ok (.link _) => .error .tooManyLinks
  | .ok (.broken fault) => .error fault

def readText (fs : FileSystem) (path : Path) : Outcome Fault String :=
  match fs.read path with
  | .error fault => .error fault
  | .endless => .endless
  | .ok contents =>
      match Utf8.decode? contents with
      | some text => .ok text
      | none => .error .notText

def list (fs : FileSystem) (path : Path) : Except Fault (List Name) :=
  match fs.locate .follow path with
  | .error fault => .error fault
  | .ok (location, .directory) => .ok (fs.namesAt location)
  | .ok _ => .error .notDirectory

/-- Opens a path for writing: a file is emptied, and one that is not there is made. A pipe is waited
for. A walk that follows every link does not end at one. -/
def create (fs : FileSystem) (path : Path) : Outcome Fault (FileSystem × Sink) :=
  match fs.land .make path with
  | .error fault => .error fault
  | .ok (.vacant place) => .ok (fs.put place (.file []), .file place)
  | .ok (.at (.removed _)) => .error .isDirectory
  | .ok (.at (.inTree place)) =>
      match fs.object? place with
      | some (.file _) => .ok (fs.put place (.file []), .file place)
      | some .directory => .error .isDirectory
      | some .pipe => .endless
      | some (.device device) => .ok (fs, .device device)
      | some (.link _) => .error .tooManyLinks
      | some (.broken fault) => .error fault
      | none => .error .notFound

def write (fs : FileSystem) (sink : Sink) (contents : Bytes) : Except Fault FileSystem :=
  match sink with
  | .file place => .ok (fs.put place (.file contents))
  | .device .discards => .ok fs
  | .device .full => .error .noSpace

/-- The absolute path of the current directory, which has none once it is removed. -/
def currentPath (fs : FileSystem) : Except Fault Path :=
  match fs.current with
  | .inTree place => .ok ⟨Path.separator :: Text.joinPieces Path.separator place.reverse⟩
  | .removed _ => .error .notFound

end FileSystem

end RomCatalog
