import RomCatalog.Proofs.Lookup
import RomCatalog.Proofs.Trail
import RomCatalog.Scan

/-!
The same tree in another order. The order of the objects shows in what directories list and nowhere
else: every path leads to the same object, and a directory lists the same names.
-/

namespace RomCatalog.FileSystem

/-- Two states that differ at most in the order in which directories list what they hold. -/
structure SameTree (fs other : FileSystem) : Prop where
  objects : fs.objects.Perm other.objects
  current : fs.current = other.current

namespace SameTree

variable {fs other : FileSystem}

theorem symm (same : SameTree fs other) : SameTree other fs where
  objects := same.objects.symm
  current := same.current.symm

theorem object? (same : SameTree fs other) (place : Place) :
    fs.object? place = other.object? place := by
  unfold FileSystem.object?
  rw [Lookup.lookup_eq_of_perm same.objects fs.unique]

theorem objectAt? (same : SameTree fs other) (location : Location) :
    fs.objectAt? location = other.objectAt? location := by
  cases location with
  | inTree place => exact same.object? place
  | removed above => rfl

theorem land (same : SameTree fs other) (purpose : Purpose) (path : Path) :
    fs.land purpose path = other.land purpose path := by
  refine land_eq_of_alike purpose ?_ same.current
  intro place _
  rw [same.object?]
  exact .same _

theorem locate (same : SameTree fs other) (purpose : Purpose) (path : Path) :
    fs.locate purpose path = other.locate purpose path := by
  unfold FileSystem.locate
  rw [same.land]
  simp only [same.objectAt?]

theorem stat (same : SameTree fs other) (path : Path) : fs.stat path = other.stat path := by
  unfold FileSystem.stat
  rw [same.locate]

theorem isLink (same : SameTree fs other) (path : Path) : fs.isLink path = other.isLink path := by
  unfold FileSystem.isLink
  rw [same.locate]

theorem perm_namesAt (same : SameTree fs other) (location : Location) :
    (fs.namesAt location).Perm (other.namesAt location) := by
  cases location with
  | inTree place => exact same.objects.filterMap _
  | removed above => exact List.Perm.refl []

theorem list (same : SameTree fs other) {path : Path} {names : List Name}
    (listed : fs.list path = .ok names) :
    ∃ others, other.list path = .ok others ∧ names.Perm others := by
  unfold FileSystem.list at listed ⊢
  rw [same.locate] at listed
  split at listed
  · simp at listed
  · rename_i location _
    rw [Except.ok.injEq] at listed
    subst listed
    exact ⟨_, rfl, same.perm_namesAt location⟩
  · simp at listed

end SameTree

def reversed (fs : FileSystem) : FileSystem where
  objects := fs.objects.reverse
  current := fs.current
  unique := by
    rw [List.map_reverse]
    exact List.nodup_reverse.mpr fs.unique

theorem sameTree_reversed (fs : FileSystem) : fs.SameTree fs.reversed where
  objects := fs.objects.reverse_perm.symm
  current := rfl

end RomCatalog.FileSystem
