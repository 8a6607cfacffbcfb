import RomCatalog.FileSystem.Access

/-!
Setting up and rearranging a file system. An edit that cannot be made leaves the file system as it
is.
-/

namespace RomCatalog

def Place.covers (place other : Place) : Bool :=
  place.isSuffixOf other

/-- The place that corresponds to one below `source` when all of that moves to `target`. -/
def Place.relocate (source target place : Place) : Place :=
  if source.covers place then place.take (place.length - source.length) ++ target else place

/-- Where a place is found once all at and below `gone` is removed. -/
def Place.without (gone : Place) : Place → Location
  | [] => .inTree []
  | name :: parent =>
      if gone.covers (name :: parent) then .removed (without gone parent)
      else .inTree (name :: parent)

namespace Location

def without (gone : Place) : Location → Location
  | .inTree place => Place.without gone place
  | .removed above => .removed (above.without gone)

def relocate (source target : Place) : Location → Location
  | .inTree place => .inTree (Place.relocate source target place)
  | .removed above => .removed (above.relocate source target)

end Location

namespace FileSystem

def bare : FileSystem where
  objects := []
  current := .inTree []
  unique := List.nodup_nil

def add (fs : FileSystem) (path : Path) (object : Object) : FileSystem :=
  match fs.land .entry path with
  | .ok (.vacant place) => fs.put place object
  | _ => fs

def makeDirectories (fs : FileSystem) (path : Path) : FileSystem :=
  let start := fs.startOf path
  let steps := path.steps
  (List.range steps.length).foldl
    (fun fs count =>
      match fs.walk .entry linkLimit start (steps.take (count + 1)) with
      | .ok (.vacant place) => fs.put place .directory
      | _ => fs)
    fs

def writeFile (fs : FileSystem) (path : Path) (contents : Bytes) : FileSystem :=
  match fs.create path with
  | .ok (fs, sink) => (fs.write sink contents).toOption.getD fs
  | _ => fs

def removeAt (fs : FileSystem) (place : Place) : FileSystem where
  objects := fs.objects.filter fun entry => !place.covers entry.1
  current := fs.current.without place
  unique := fs.unique.sublist (List.filter_sublist.map Prod.fst)

/-- Removes what a path names, a link itself rather than what it leads to. -/
def remove (fs : FileSystem) (path : Path) : FileSystem :=
  match fs.locate .entry path with
  | .ok (.inTree place, _) => fs.removeAt place
  | _ => fs

/-- Where a moved object comes to be. A directory may be given a name with separators behind it. -/
def targetOf? (fs : FileSystem) (object : Object) (path : Path) : Option Place :=
  match fs.land .entry (if object = .directory then path.trimmed else path) with
  | .ok (.vacant place) => some place
  | .ok (.at (.inTree place)) => some place
  | _ => none

/-- Whether a moved object may take the place of what is there: a directory that of an empty
directory, and anything else that of anything but a directory. -/
def yieldsTo (fs : FileSystem) (object : Object) (place : Place) : Bool :=
  match fs.object? place with
  | none => true
  | some .directory => object = .directory && (fs.namesIn place).isEmpty
  | some _ => object ≠ .directory

/-- Moves an object with all that it holds, in place of what was there. -/
def move (fs : FileSystem) (source target : Place) : FileSystem :=
  let cleared := fs.removeAt target
  let moved := (cleared.objects.filter fun entry => source.covers entry.1).map fun entry =>
    (source.relocate target entry.1, entry.2)
  let placed := moved.foldr (fun entry fs => fs.put entry.1 entry.2) (cleared.removeAt source)
  { placed with current := cleared.current.relocate source target }

/-- Moves what a path names to another path. Nothing can move into itself. -/
def rename (fs : FileSystem) (path newPath : Path) : FileSystem :=
  match fs.locate .entry path with
  | .ok (.inTree source, object) =>
      match fs.targetOf? object newPath with
      | some target =>
          if !source.covers target && fs.yieldsTo object target then fs.move source target
          else fs
      | none => fs
  | _ => fs

def enter (fs : FileSystem) (path : Path) : FileSystem :=
  match fs.locate .follow path with
  | .ok (location, .directory) => { fs with current := location }
  | _ => fs

end FileSystem

end RomCatalog
