import RomCatalog.FileSystem

/-!
Where a path leads. A path is walked one name after the other from the root or from the current
directory, and a link is walked in the place of its name. Links are limited in number, so that
links that lead to themselves come to an end.
-/

namespace RomCatalog

inductive Step where
  | up
  | stay
  | enter (name : Name)
  /-- A separator at the end, which asks for a directory before it. -/
  | close
deriving DecidableEq, Repr

namespace Path

def step? (piece : Bytes) : Option Step :=
  if piece = [] then none
  else if piece = [dot] then some .stay
  else if piece = [dot, dot] then some .up
  else some (.enter piece)

def steps (path : Path) : List Step :=
  let steps := (Text.pieces separator path.bytes).filterMap step?
  if path.bytes.getLast? = some separator ∧ steps ≠ [] then steps ++ [.close] else steps

end Path

/-- What a walk is for: links are followed, but for a link at the very end if the entry itself is
wanted; a file that is not there yet may be made, though not under a name that asks for a
directory. -/
inductive Purpose where
  | follow
  | entry
  | make
deriving DecidableEq, Repr

/-- A walk ends at a location, or before a name that its directory does not hold. -/
inductive Landing where
  | at (location : Location)
  | vacant (place : Place)
deriving DecidableEq, Repr

namespace FileSystem

def nameLimit : Nat := 255

def pathLimit : Nat := 4095

def linkLimit : Nat := 40

/-- Walks on from a directory; `follow` walks the steps that a link stands for. -/
def walkWith (fs : FileSystem) (purpose : Purpose)
    (follow : Location → List Step → Except Fault Landing) :
    Location → List Step → Except Fault Landing
  | location, [] => .ok (.at location)
  | location, .stay :: rest => walkWith fs purpose follow location rest
  | location, .close :: rest => walkWith fs purpose follow location rest
  | location, .up :: rest => walkWith fs purpose follow location.up rest
  | .removed _, .enter _ :: rest =>
      if purpose = .make ∧ rest = [.close] then .error .isDirectory else .error .notFound
  | .inTree place, .enter name :: rest =>
      if purpose = .make ∧ rest = [.close] then .error .isDirectory
      else if nameLimit < name.length then .error .nameTooLong
      else
        match fs.object? (name :: place) with
        | none => if rest = [] then .ok (.vacant (name :: place)) else .error .notFound
        | some .directory => walkWith fs purpose follow (.inTree (name :: place)) rest
        | some (.broken fault) => .error fault
        | some (.link target) =>
            if purpose = .entry ∧ rest = [] then .ok (.at (.inTree (name :: place)))
            else follow (.inTree (if target.isAbsolute then [] else place)) (target.steps ++ rest)
        | some _ =>
            if rest = [] then .ok (.at (.inTree (name :: place))) else .error .notDirectory

def walk (fs : FileSystem) (purpose : Purpose) :
    Nat → Location → List Step → Except Fault Landing
  | 0 => walkWith fs purpose fun _ _ => .error .tooManyLinks
  | links + 1 => walkWith fs purpose (walk fs purpose links)

def startOf (fs : FileSystem) (path : Path) : Location :=
  if path.isAbsolute then .inTree [] else fs.current

def land (fs : FileSystem) (purpose : Purpose) (path : Path) : Except Fault Landing :=
  if 0 ∈ path.bytes then .error .zeroByte
  else if path.bytes = [] then .error .notFound
  else if pathLimit < path.bytes.length then .error .nameTooLong
  else walk fs purpose linkLimit (fs.startOf path) path.steps

def locate (fs : FileSystem) (purpose : Purpose) (path : Path) :
    Except Fault (Location × Object) :=
  match fs.land purpose path with
  | .error fault => .error fault
  | .ok (.vacant _) => .error .notFound
  | .ok (.at location) =>
      match fs.objectAt? location with
      | none => .error .notFound
      | some (.broken fault) => .error fault
      | some (.link target) =>
          if purpose = .entry then .ok (location, .link target) else .error .tooManyLinks
      | some object => .ok (location, object)

end FileSystem

end RomCatalog
