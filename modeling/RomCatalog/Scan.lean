import RomCatalog.Attempt
import RomCatalog.FileSystem.Access
import RomCatalog.Rom.Problem

/-!
The ROMs in a directory: the regular files directly inside it whose names are text, links being
followed. Links that lead nowhere and names that are not text are passed over with a warning; any
other entry that cannot be examined, or not even listed, ends the scan.
-/

namespace RomCatalog

inductive Sighting where
  | rom (rom : Rom)
  | danglingLink (path : Path)
  | namelessFile (path : Path)
  | otherKind (path : Path)
  | unreadable (fault : Fault)
deriving DecidableEq, Repr

namespace Sighting

/-- The record of a sighting; what cannot be examined ends the scan without one. -/
def record? : Sighting → Option Record
  | .rom found => some ⟨.debug, "found " ++ found.name ++ " as " ++ found.identifier⟩
  | .danglingLink path => some ⟨.warn, "skipping dangling link " ++ path.text⟩
  | .namelessFile path => some ⟨.warn, "skipping " ++ path.text ++ ": file name is not UTF-8"⟩
  | .otherKind path => some ⟨.debug, "skipping " ++ path.text⟩
  | .unreadable _ => none

def rom? : Sighting → Option Rom
  | .rom found => some found
  | _ => none

def fault? : Sighting → Option Fault
  | .unreadable fault => some fault
  | _ => none

end Sighting

namespace Scan

def sight (fs : FileSystem) (root : Path) (name : Name) : Sighting :=
  let path := root.join ⟨name⟩
  match fs.stat path with
  | .error fault =>
      if fault = .notFound ∧ fs.isLink path then .danglingLink path else .unreadable fault
  | .ok (.file _) =>
      match Utf8.decode? name with
      | some name => .rom (Rom.ofName name)
      | none => .namelessFile path
  | .ok _ => .otherKind path

def precedes (a b : Rom) : Bool :=
  decide (Utf8.encode a.name ≤ Utf8.encode b.name)

def arrange (sorted : Bool) (roms : List Rom) : List Rom :=
  if sorted then roms.mergeSort precedes else roms

/-- The warnings about the identifiers of the ROMs, in the order of the list. -/
def warnings (roms : List Rom) : List Record :=
  (Rom.problems roms).map fun problem => ⟨.warn, problem.message⟩

def scan (fs : FileSystem) (root : Path) (sorted : Bool) : Attempt (List Rom) :=
  match fs.list root with
  | .error fault => .failed (.directoryAccess root fault)
  | .ok names =>
      let sightings := names.map (sight fs root)
      match sightings.findSome? Sighting.fault? with
      | some fault =>
          ⟨(sightings.takeWhile fun sighting => sighting.fault?.isNone).filterMap Sighting.record?,
            .error (.directoryAccess root fault)⟩
      | none =>
          let roms := arrange sorted (sightings.filterMap Sighting.rom?)
          ⟨sightings.filterMap Sighting.record? ++ warnings roms, .ok roms⟩

end Scan

end RomCatalog
