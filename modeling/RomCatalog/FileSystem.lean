import RomCatalog.Path

/-!
A file system: the objects at each place, in the order in which directories list them, and the
current directory. A place is the list of names that lead to it from the root, the last name first,
so a directory's place is the tail of the places of what it holds. The root needs no entry. What is
new comes first in a listing.
-/

namespace RomCatalog

abbrev Name := Bytes

abbrev Place := List Name

/-- Where a path can lead. A directory that is removed while it is the current one, or leads to it,
is in the tree no more: it is empty and takes nothing in, but one can still go up from it. -/
inductive Location where
  | inTree (place : Place)
  | removed (above : Location)
deriving DecidableEq, Repr

/-- The directory that holds the location; the root holds itself. -/
def Location.up : Location → Location
  | .inTree place => .inTree place.tail
  | .removed above => above

/-- Both devices can be read and written: one is empty and discards what it is given, and the other
takes nothing and gives zeros without an end. -/
inductive Device where
  | discards
  | full
deriving DecidableEq, Repr

inductive Fault where
  | notFound
  | inputOutput
  | notPermitted
  | notDirectory
  | isDirectory
  | noSpace
  | nameTooLong
  | tooManyLinks
  | zeroByte
  | notText
deriving DecidableEq, Repr

def Fault.message : Fault → String
  | .notFound => "No such file or directory (os error 2)"
  | .inputOutput => "Input/output error (os error 5)"
  | .notPermitted => "Permission denied (os error 13)"
  | .notDirectory => "Not a directory (os error 20)"
  | .isDirectory => "Is a directory (os error 21)"
  | .noSpace => "No space left on device (os error 28)"
  | .nameTooLong => "File name too long (os error 36)"
  | .tooManyLinks => "Too many levels of symbolic links (os error 40)"
  | .zeroByte => "file name contained an unexpected NUL byte"
  | .notText => "stream did not contain valid UTF-8"

/-- A pipe has nobody at its other end. What is broken is listed, but nothing more can be learned
of it than why. -/
inductive Object where
  | file (contents : Bytes)
  | directory
  | link (target : Path)
  | pipe
  | device (device : Device)
  | broken (fault : Fault)
deriving DecidableEq, Repr

structure FileSystem where
  objects : List (Place × Object)
  current : Location
  unique : (objects.map Prod.fst).Nodup

namespace FileSystem

def object? (fs : FileSystem) (place : Place) : Option Object :=
  if place = [] then some .directory else List.lookup place fs.objects

def objectAt? (fs : FileSystem) : Location → Option Object
  | .inTree place => fs.object? place
  | .removed _ => some .directory

/-- The name under which a directory lists a place. -/
def nameIn? (directory : Place) : Place → Option Name
  | [] => none
  | name :: parent => if parent = directory then some name else none

def namesIn (fs : FileSystem) (directory : Place) : List Name :=
  fs.objects.filterMap fun entry => nameIn? directory entry.1

def namesAt (fs : FileSystem) : Location → List Name
  | .inTree place => fs.namesIn place
  | .removed _ => []

/-- Puts an object at a place, which keeps its position in the listing or comes first. -/
def put (fs : FileSystem) (place : Place) (object : Object) : FileSystem where
  objects :=
    if place ∈ fs.objects.map Prod.fst then
      fs.objects.map fun entry => if entry.1 = place then (place, object) else entry
    else (place, object) :: fs.objects
  current := fs.current
  unique := by
    split
    · have same : ((fs.objects.map fun entry =>
          if entry.1 = place then (place, object) else entry).map Prod.fst) =
            fs.objects.map Prod.fst := by
        rw [List.map_map]
        apply List.map_congr_left
        intro entry _
        simp only [Function.comp]
        split
        · rename_i found
          exact found.symm
        · rfl
      rw [same]
      exact fs.unique
    · rename_i absent
      exact List.nodup_cons.mpr ⟨absent, fs.unique⟩

end FileSystem

end RomCatalog
